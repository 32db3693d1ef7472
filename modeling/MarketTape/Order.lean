import MarketTape.Scalar

/-!
# Orders

A strategy asks for trades with intents.  An intent becomes an order, and every step in the life of
an order leaves it with a status; an order that trades gives a fill.

* `Side` and `Offset` say what is traded and whether it opens or closes a position.
* `Intent` is the request and `Fill` the trade that came of it.
* `OrderStatus` is a step in the life of an order, `StatusCounts` counts the steps.
-/

namespace MarketTape

/-- Buying, which adds lots, or selling, which takes lots away. -/
inductive Side
  | buy
  | sell
  deriving DecidableEq, Repr

namespace Side

/-- What one lot traded on this side adds to a position. -/
def sign : Side → Int
  | buy => 1
  | sell => -1

def opposite : Side → Side
  | buy => sell
  | sell => buy

/-- The side that makes a position grow.  A flat position grows by buying. -/
def ofPosition (net : Int) : Side := if 0 ≤ net then buy else sell

def label : Side → String
  | buy => "buy"
  | sell => "sell"

def labels : List (String × Side) := [("buy", buy), ("sell", sell)]

@[simp] theorem opposite_opposite (s : Side) : s.opposite.opposite = s := by cases s <;> rfl

@[simp] theorem sign_opposite (s : Side) : s.opposite.sign = -s.sign := by cases s <;> rfl

end Side

/-- Whether an order opens or closes a position. -/
inductive Offset
  | opening
  | closing
  deriving DecidableEq, Repr

namespace Offset

def label : Offset → String
  | opening => "open"
  | closing => "close"

def labels : List (String × Offset) := [("open", opening), ("close", closing)]

end Offset

/-- A trade that a strategy asks for, with the price that it saw and the name under which the order
can be followed through the log. -/
structure Intent (α : Type) where
  instrument : String
  side : Side
  offset : Offset
  volume : Int
  referencePrice : α
  traceId : String
  deriving DecidableEq, Repr

/-- A trade that took place; `slippage` is what was lost to it. -/
structure Fill (α : Type) where
  time : Int
  instrument : String
  side : Side
  offset : Offset
  volume : Int
  price : α
  slippage : α
  traceId : String
  deriving DecidableEq, Repr

/-! ## The life of an order -/

/-- A step in the life of an order: it is about to trade, it traded, it waits for the next bar of
its instrument, it will not trade, or it was waiting and no longer is. -/
inductive OrderStatus
  | accepted
  | filled
  | deferred
  | rejected
  | canceled
  deriving DecidableEq, Repr

namespace OrderStatus

def label : OrderStatus → String
  | accepted => "ACCEPTED"
  | filled => "FILLED"
  | deferred => "DEFERRED"
  | rejected => "REJECTED"
  | canceled => "CANCELED"

def all : List OrderStatus := [accepted, filled, deferred, rejected, canceled]

def labels : List (String × OrderStatus) := all.map fun s => (s.label, s)

end OrderStatus

/-- How often each status was reached. -/
structure StatusCounts where
  accepted : Nat
  filled : Nat
  deferred : Nat
  rejected : Nat
  canceled : Nat
  deriving DecidableEq, Repr

namespace StatusCounts

def none : StatusCounts := ⟨0, 0, 0, 0, 0⟩

/-- Counts one step. -/
def increment (c : StatusCounts) : OrderStatus → StatusCounts
  | .accepted => { c with accepted := c.accepted + 1 }
  | .filled => { c with filled := c.filled + 1 }
  | .deferred => { c with deferred := c.deferred + 1 }
  | .rejected => { c with rejected := c.rejected + 1 }
  | .canceled => { c with canceled := c.canceled + 1 }

def get (c : StatusCounts) : OrderStatus → Nat
  | .accepted => c.accepted
  | .filled => c.filled
  | .deferred => c.deferred
  | .rejected => c.rejected
  | .canceled => c.canceled

def total (c : StatusCounts) : Nat :=
  c.accepted + c.filled + c.deferred + c.rejected + c.canceled

/-- The statuses that were reached, in the order of their names. -/
def histogram (c : StatusCounts) : List (String × Nat) :=
  [.accepted, .canceled, .deferred, .filled, .rejected].filterMap fun s : OrderStatus =>
    if c.get s = 0 then .none else some (s.label, c.get s)

/-- A step is counted under its own status. -/
theorem get_increment (c : StatusCounts) (s t : OrderStatus) :
    (c.increment s).get t = c.get t + if s = t then 1 else 0 := by
  cases s <;> cases t <;> rfl

/-- Every step is counted once. -/
@[simp] theorem total_increment (c : StatusCounts) (s : OrderStatus) :
    (c.increment s).total = c.total + 1 := by
  cases s <;> simp only [increment, total] <;> omega

end StatusCounts

end MarketTape
