import MarketTape.Order

/-!
# The audit log

Whatever changes an order or a position is recorded: every step in the life of an order, every trade
with the position it led to, and every part of moving a position to another contract.  Records are
numbered from 1 without gaps.  A run that keeps no log records nothing.

* `AuditEvent` is what a record says; `AuditRecord` adds its number.
* `AuditLog` holds the events in order, `AuditLog.append` adds one.
* `AuditLog.records` are the events with their numbers.
-/

namespace MarketTape

/-- How a position is moved to another contract: `strict` closes it in the old one and opens it in
the new one, `carry` hands over lots and average price without trading. -/
inductive RolloverMode
  | strict
  | carry
  deriving DecidableEq, Repr

namespace RolloverMode

def label : RolloverMode → String
  | strict => "strict"
  | carry => "carry"

def labels : List (String × RolloverMode) := [("strict", strict), ("carry", carry)]

end RolloverMode

/-- A part of moving a position to another contract.  A strict move has a `closing` and an `opening`
part, and `carrying` is all of the other one. -/
inductive RolloverLeg
  | closing
  | opening
  | carrying
  deriving DecidableEq, Repr

namespace RolloverLeg

def label : RolloverLeg → String
  | closing => "close"
  | opening => "open"
  | carrying => "carry"

def labels : List (String × RolloverLeg) :=
  [("close", closing), ("open", opening), ("carry", carrying)]

end RolloverLeg

/-- Something that changed an order or a position: an order reached a status, or traded, or a leg of
moving a position to another contract was done.  A trade comes with the position right after it. -/
inductive AuditEvent (α : Type) where
  | order (time : Int) (instrument : String) (side : Side) (offset : Offset) (volume : Int)
      (price : α) (status : OrderStatus) (traceId : String)
  | trade (time : Int) (instrument : String) (side : Side) (offset : Offset) (volume : Int)
      (price : α) (net : Int) (average : α) (realized : α) (traceId : String)
  | rollover (time : Int) (symbol : String) (instrument : String) (leg : RolloverLeg)
      (mode : RolloverMode) (side : Side) (volume : Int) (price : α) (slippageCost : α)
      (realized : α)
  deriving DecidableEq, Repr

/-- An event with its number, which counts from 1. -/
structure AuditRecord (α : Type) where
  seq : Nat
  event : AuditEvent α
  deriving DecidableEq, Repr

/-- The events of a run, first one first, if they are recorded. -/
structure AuditLog (α : Type) where
  enabled : Bool
  events : Array (AuditEvent α)

namespace AuditLog

variable {α : Type}

def start (enabled : Bool) : AuditLog α := ⟨enabled, #[]⟩

/-- Records an event, if events are recorded. -/
def append (log : AuditLog α) (e : AuditEvent α) : AuditLog α :=
  if log.enabled then { log with events := log.events.push e } else log

/-- The number given to the last event that was appended, if it was recorded. -/
def lastNumber (log : AuditLog α) : Option Nat :=
  if log.enabled then some log.events.size else none

def size (log : AuditLog α) : Nat := log.events.size

/-- The events with their numbers. -/
def records (log : AuditLog α) : List (AuditRecord α) :=
  log.events.toList.zipIdx.map fun (event, i) => ⟨i + 1, event⟩

@[simp] theorem enabled_append (log : AuditLog α) (e : AuditEvent α) :
    (log.append e).enabled = log.enabled := by
  unfold append
  split <;> rfl

/-- An open log grows by exactly the appended event, a closed one not at all. -/
theorem toList_append (log : AuditLog α) (e : AuditEvent α) :
    (log.append e).events.toList =
      if log.enabled then log.events.toList ++ [e] else log.events.toList := by
  unfold append
  split <;> simp

end AuditLog

end MarketTape
