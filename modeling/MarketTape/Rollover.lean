import MarketTape.Desk

/-!
# Rollover to another contract

The contracts of one future share a symbol, and one of them is active: the one that traded last.
When another contract of the symbol trades, the position in the active contract has to move there.

* Moving it strictly closes it at the last tick of the old contract and opens it at the first tick
  of the new one, both with slippage.
* Carrying it hands over lots, average price and realized profit without trading.  A contract that
  already holds lots cannot take over an average price, so the move is then a strict one.

A switch away from a contract without lots moves nothing.

* `Rollover.detect` takes a tick and tells whether it calls for a move.
* `Rollover.execute?` makes the move and records it.
-/

namespace MarketTape

/-- How a position is moved, and how the trades of a strict move are priced. -/
structure RolloverTerms (α : Type) where
  mode : RolloverMode
  pricing : LegPricing α
  deriving DecidableEq, Repr

/-- Slippage can be charged if it is a number and not negative. -/
def RolloverTerms.Admissible {α : Type} [Scalar α] (t : RolloverTerms α) : Prop :=
  Scalar.isFinite t.pricing.slippageBps = true ∧ ¬ t.pricing.slippageBps < Scalar.zero

instance {α : Type} [Scalar α] (t : RolloverTerms α) : Decidable t.Admissible :=
  inferInstanceAs (Decidable (_ ∧ _))

/-- One executed part of a move, in the contract that it changed. -/
structure RolloverAction (α : Type) where
  time : Int
  symbol : String
  instrument : String
  leg : RolloverLeg
  side : Side
  volume : Int
  price : α
  slippageCost : α
  realized : α
  deriving DecidableEq, Repr

/-- The record of a part of a move that was made in the given mode. -/
def RolloverAction.audit {α : Type} (a : RolloverAction α) (mode : RolloverMode) : AuditEvent α :=
  .rollover a.time a.symbol a.instrument a.leg mode a.side a.volume a.price a.slippageCost
    a.realized

/-- The summary of one move: how it was to be done and how it was done, the lots that were held in
the old contract, the prices at which they were closed and opened again, and how many waiting orders
of the old contract were dropped. -/
structure RolloverEvent (α : Type) where
  time : Int
  symbol : String
  source : String
  target : String
  requested : RolloverMode
  applied : RolloverMode
  net : Int
  closePrice : Option α
  openPrice : Option α
  slippageCost : α
  canceledOrders : Nat
  deriving DecidableEq, Repr

/-- A switch of contracts that has yet to move a position. -/
structure PendingRollover where
  symbol : String
  source : String
  target : String
  deriving DecidableEq, Repr

/-- The active contract of every symbol, the last tick of every instrument, and the moves so far
with their parts, in order. -/
structure Rollover (α : Type) where
  terms : RolloverTerms α
  active : Table String
  lastTicks : Table (Tick α)
  events : Array (RolloverEvent α)
  actions : Array (RolloverAction α)
  slippageTotal : α

namespace Rollover

variable {α : Type}

def start [Scalar α] (terms : RolloverTerms α) : Rollover α :=
  ⟨terms, Table.empty, Table.empty, #[], #[], Scalar.zero⟩

def activeContract? (r : Rollover α) (symbol : String) : Option String := r.active.get? symbol

/-- Makes a contract the active one of its symbol. -/
def activate (r : Rollover α) (symbol instrument : String) : Rollover α :=
  { r with active := r.active.insert symbol instrument }

/-- Takes a tick, and gives the switch that has to move a position. -/
def detect (r : Rollover α) (t : Tick α) (book : Book α) :
    Rollover α × Option PendingRollover :=
  let r := { r with lastTicks := r.lastTicks.insert t.instrument t }
  let symbol := underlying t.instrument
  match r.activeContract? symbol with
  | none => (r.activate symbol t.instrument, none)
  | some source =>
    if source = t.instrument then (r, none)
    else if book.net source = 0 then (r.activate symbol t.instrument, none)
    else (r, some ⟨symbol, source, t.instrument⟩)

/-- How a position is moved to a contract: one that holds lots cannot take a position over. -/
def modeFor (r : Rollover α) (book : Book α) (target : String) : RolloverMode :=
  match r.terms.mode with
  | .strict => .strict
  | .carry => if book.net target = 0 then .carry else .strict

variable [Scalar α]

/-- The price at which the old position is closed, and its slippage: off the last tick of the old
contract, or off its mark or average where no tick of it was seen. -/
def closingPrice (r : Rollover α) (book : Book α) (side : Side) (source : String) : α × α :=
  match r.lastTicks.get? source with
  | some t => r.terms.pricing.price side t
  | none =>
    let average := match book.get? source with
      | some p => p.average
      | none => Scalar.zero
    r.terms.pricing.withSlippage side ((book.mark? source).getD average)

/-- What a move did: the book after it, its parts, and the prices and the cost to be reported. -/
structure Move (α : Type) where
  book : Book α
  actions : List (RolloverAction α)
  closePrice : Option α
  openPrice : Option α
  slippageCost : α

/-- Closes the old position and opens the new one. -/
def moveStrict? (r : Rollover α) (p : PendingRollover) (t : Tick α) (book : Book α)
    (net volume : Int) : Option (Move α) := do
  let direction := Side.ofPosition net
  let (closePrice, closeSlippage) := r.closingPrice book direction.opposite p.source
  let (book, closeRealized) ← book.trade? p.source direction.opposite volume closePrice
  let (openPrice, openSlippage) := r.terms.pricing.price direction t
  let (book, openRealized) ← book.trade? p.target direction volume openPrice
  let lots : α := Scalar.ofInt volume
  some
    { book
      actions :=
        [⟨t.time, p.symbol, p.source, .closing, direction.opposite, volume, closePrice,
            closeSlippage * lots, closeRealized⟩,
          ⟨t.time, p.symbol, p.target, .opening, direction, volume, openPrice,
            openSlippage * lots, openRealized⟩]
      closePrice := some closePrice
      openPrice := some openPrice
      slippageCost := (closeSlippage + openSlippage) * lots }

/-- Hands the old position over; what it has realized goes with it. -/
def moveByCarry (p : PendingRollover) (t : Tick α) (book : Book α) (net volume : Int) : Move α :=
  let old := book.position p.source
  let book := book.put p.source Position.flat
  let new := book.position p.target
  let book := book.put p.target ⟨old.net, old.average, new.realized + old.realized⟩
  { book
    actions :=
      [⟨t.time, p.symbol, p.target, .carrying, Side.ofPosition net, volume, old.average,
          Scalar.zero, Scalar.zero⟩]
    closePrice := none
    openPrice := some old.average
    slippageCost := Scalar.zero }

/-- Moves the position of a switch to the new contract, of which `t` is the first tick. -/
def move? (r : Rollover α) (p : PendingRollover) (t : Tick α) (book : Book α) : Option (Move α) :=
  let net := book.net p.source
  match Count.abs? net with
  | none => none
  | some volume =>
    match r.modeFor book p.target with
    | .strict => r.moveStrict? p t book net volume
    | .carry => some (moveByCarry p t book net volume)

/-- Moves the position of a switch and records the move in the log and in the list of moves. -/
def execute? (r : Rollover α) (p : PendingRollover) (t : Tick α) (book : Book α)
    (log : AuditLog α) (canceledOrders : Nat) :
    Option (Rollover α × Book α × AuditLog α × RolloverEvent α) :=
  (r.move? p t book).map fun m =>
    let applied := r.modeFor book p.target
    let event : RolloverEvent α :=
      { time := t.time, symbol := p.symbol, source := p.source, target := p.target
        requested := r.terms.mode, applied, net := book.net p.source
        closePrice := m.closePrice, openPrice := m.openPrice
        slippageCost := m.slippageCost, canceledOrders }
    let log := m.actions.foldl (fun log a => log.append (a.audit applied)) log
    let r := r.activate p.symbol p.target
    ({ r with
        events := r.events.push event
        actions := r.actions ++ m.actions.toArray
        slippageTotal := r.slippageTotal + m.slippageCost },
      m.book, log, event)

end Rollover

end MarketTape
