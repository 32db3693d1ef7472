import MarketTape.Json.Draft
import MarketTape.Count

/-!
# Taking typed values out of JSON

Settings, descriptions of data files and audit records are read from JSON by asking for typed
values.

* `Draft.count?`, `Draft.word?`, `Draft.float?`, `Draft.text?` and the like take a leaf.
* `Draft.choice?` takes one of a list of names.
* `Draft.record?` takes a structure, written as an object or as the list of its fields in order.
* `field` and `fieldOr` take a field of a structure that was read.
-/

namespace MarketTape.Json

namespace Draft

/-! ## Leaves -/

def count? : Draft → Option Int
  | int n => Count.fit n
  | _ => none

/-- A whole number that is not negative. -/
def word? : Draft → Option Nat
  | int n => if 0 ≤ n then some n.toNat else none
  | _ => none

/-- A double; a whole number is one too. -/
def float? : Draft → Option Float
  | int n => some (Float.ofInt n)
  | float x => some x
  | _ => none

def text? : Draft → Option String
  | str s => some s
  | _ => none

def bool? : Draft → Option Bool
  | bool b => some b
  | _ => none

/-- A value that may be missing. -/
def optional? {β : Type} (decode : Draft → Option β) : Draft → Option (Option β)
  | null => some none
  | d => (decode d).map some

/-- One of a list of names, written as a text or as an object with that name and no value. -/
def choice? {β : Type} (names : List (String × β)) : Draft → Option β
  | str s => names.lookup s
  | obj [(some s, null)] => names.lookup s
  | _ => none

/-! ## Structures -/

/-- A field of a structure and the other names it goes by. -/
structure FieldName where
  name : String
  aliases : List String := []

/-- Whether a member belongs to a field. -/
def FieldName.matchesKey (f : FieldName) (key : String) : Bool :=
  f.name == key || f.aliases.contains key

/-- The fields among the members of an object.  No field may come twice, under whatever name, and
members that are no fields are passed over. -/
def recordMembers? (fields : List FieldName) :
    List (Option String × Draft) → Option (List (String × Draft))
  | [] => some []
  | (none, _) :: _ => none
  | (some key, value) :: rest =>
    match recordMembers? fields rest with
    | none => none
    | some found =>
      match fields.find? (·.matchesKey key) with
      | none => some found
      | some f => if found.any (·.1 == f.name) then none else some ((f.name, value) :: found)

/-- The fields of a structure.  A list gives the first fields in order. -/
def record? (fields : List FieldName) : Draft → Option (List (String × Draft))
  | obj members => recordMembers? fields members
  | arr items =>
    if items.length ≤ fields.length then some ((fields.map (·.name)).zip items) else none
  | _ => none

end Draft

/-- A field that has to be there. -/
def field {β : Type} (record : List (String × Draft)) (name : String) (decode : Draft → Option β) :
    Option β :=
  (record.lookup name).bind decode

/-- A field with a default. -/
def fieldOr {β : Type} (record : List (String × Draft)) (name : String) (fallback : β)
    (decode : Draft → Option β) : Option β :=
  match record.lookup name with
  | some d => decode d
  | none => some fallback

end MarketTape.Json
