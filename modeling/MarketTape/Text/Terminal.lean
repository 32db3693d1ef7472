/-!
# Text on a terminal

A logged message may quote text from outside, and a terminal takes some characters for commands: to
move the cursor, to change colours, to clear the screen.  Those are spelled out in the log.  Line
breaks, tabs and all other characters stay as they are.

* `isCommand` and `isControlCode` are the characters that are spelled out, one byte and two bytes
  long.
* `forTerminal` spells them out in a whole text.
-/

namespace MarketTape.Text

/-- Bell, backspace, form feed, escape and delete. -/
def isCommand (c : Char) : Bool :=
  c == '\x07' || c == '\x08' || c == '\x0c' || c == '\x1b' || c == '\x7f'

/-- A control code of the upper range, which some terminals take for an escape and a letter. -/
def isControlCode (c : Char) : Bool := 0x80 ≤ c.toNat && c.toNat ≤ 0x9f

/-- One character of a logged text. -/
def spellOut (c : Char) : List Char :=
  if isCommand c then ['\\', 'x', Nat.digitChar (c.toNat / 16), Nat.digitChar (c.toNat % 16)]
  else if isControlCode c then
    ['\\', 'u', Char.ofNat 123] ++ Nat.toDigits 16 c.toNat ++ [Char.ofNat 125]
  else [c]

/-- A text without anything that a terminal takes for a command. -/
def forTerminal (s : String) : String := String.ofList (s.toList.flatMap spellOut)

end MarketTape.Text
