import MarketTape.Audit.Line
import MarketTape.Strategy.Basic

/-!
# A strategy that follows a script

For trials a strategy can be written down: a table that says which intents answer which bar.  Bars
are counted from 1 over the whole run, and a bar that the table leaves out is answered with nothing.

* `Cue` is an intent of the script, `scripted` the strategy of a script.
* `scriptedFactory` makes it from parameters: the script, what the strategy declares, and whether it
  declines to be made.
-/

namespace MarketTape

/-- An intent of a script.  The instrument is that of the bar unless it is given. -/
structure Cue where
  side : Side
  offset : Offset
  volume : Int
  instrument : Option String
  traceId : String
  deriving DecidableEq, Repr

namespace Cue

/-- The intent on a bar, at its close. -/
def intent {α : Type} (c : Cue) (bar : Bar α) : Intent α where
  instrument := c.instrument.getD bar.instrument
  side := c.side
  offset := c.offset
  volume := c.volume
  referencePrice := bar.close
  traceId := c.traceId

/-- A text among the optional items at the end of a cue. -/
def optionalText (items : List Json.Draft) (index : Nat) : Option String :=
  (items[index]?).bind Json.Draft.text?

/-- A cue written as a list: side, offset, volume, and perhaps instrument and name. -/
def ofDraft? : Json.Draft → Option Cue
  | .arr (side :: offset :: volume :: rest) => do
    let side ← side.choice? Side.labels
    let offset ← offset.choice? Offset.labels
    let volume ← volume.count?
    some
      { side, offset, volume, instrument := optionalText rest 0
        traceId := (optionalText rest 1).getD "own" }
  | _ => none

end Cue

/-- The cues of every bar that has some, by the number of the bar. -/
abbrev Script := List (String × List Cue)

def Script.at (script : Script) (bar : Nat) : List Cue := (script.lookup (toString bar)).getD []

/-- The script among the parameters. -/
def Script.ofJson : Json → Script
  | .obj members => members.map fun (bar, cues) =>
    (bar, match cues with
      | .arr items => items.filterMap fun item => Cue.ofDraft? (.ofJson item)
      | _ => [])
  | _ => []

/-- The strategy of a script.  It remembers how many bars it has seen. -/
def scripted {α : Type} (script : Script) : Strategy α where
  State := Nat
  start := 0
  onState seen s := some (seen + 1, (script.at (seen + 1)).map (·.intent s.bar))
  onFill seen _ := seen

def parameter? (params : Json) (name : String) : Option Json :=
  match params with
  | .obj members => members.lookup name
  | _ => none

def isSet (params : Json) (name : String) : Bool :=
  match parameter? params name with
  | some (.bool b) => b
  | _ => false

/-- Makes the strategy of a script, unless the parameters tell it to decline. -/
def scriptedFactory {α : Type} : StrategyFactory α := fun params =>
  if (parameter? params "fail").isSome then .error (.strategyDeclined "scripted failure")
  else
    .ok
      { strategy := scripted (Script.ofJson ((parameter? params "script").getD .null))
        capabilities :=
          { opening := isSet params "opening"
            orderAware := isSet params "order_aware"
            traceProvider := isSet params "trace_provider" } }

end MarketTape
