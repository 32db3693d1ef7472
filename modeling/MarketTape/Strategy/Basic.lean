import MarketTape.Error
import MarketTape.Json.Basic
import MarketTape.Order
import MarketTape.Regime.Basic
import MarketTape.Table

/-!
# Strategies

A strategy sees every closed bar and answers with intents.  What else it can do, it declares: the
program acts on the declaration and never asks the strategy itself.

* `Strategy` is the interface, `Capabilities` the declaration.
* `Registry` holds the strategies that can be made, by name.
-/

namespace MarketTape

/-- Something that trades.  It takes a bar and answers with intents, and it takes notice of the
fills of its intents.  There is no answer where a count leaves its range. -/
structure Strategy (α : Type) where
  State : Type
  start : State
  onState : State → BarState α → Option (State × List (Intent α))
  onFill : State → Fill α → State

/-- What a strategy declares: it may open positions, it takes notice of its fills, it names its own
orders. -/
structure Capabilities where
  opening : Bool
  orderAware : Bool
  traceProvider : Bool
  deriving DecidableEq, Repr

/-- A strategy ready to run, with its declaration. -/
structure StrategyHandle (α : Type) where
  strategy : Strategy α
  capabilities : Capabilities

/-- Makes a strategy from its parameters. -/
abbrev StrategyFactory (α : Type) := Json → Except Error (StrategyHandle α)

/-- How the strategies that can be made are made, by name. -/
structure Registry (α : Type) where
  factories : Table (StrategyFactory α)

namespace Registry

variable {α : Type}

def empty : Registry α := ⟨Table.empty⟩

/-- Adds a strategy, replacing the one of the same name. -/
def insert (r : Registry α) (name : String) (factory : StrategyFactory α) : Registry α :=
  ⟨r.factories.insert name factory⟩

def contains (r : Registry α) (name : String) : Bool := r.factories.contains name

def names (r : Registry α) : List String := r.factories.names

/-- Adds a strategy under a name that is not blank and not taken. -/
def register (r : Registry α) (name : String) (factory : StrategyFactory α) :
    Except Error (Registry α) :=
  if Text.trim name.toList = [] then .error .blankStrategyName
  else if r.contains name then .error (.alreadyRegistered name)
  else .ok (r.insert name factory)

def create (r : Registry α) (name : String) (params : Json) : Except Error (StrategyHandle α) :=
  match r.factories.get? name with
  | none => .error (.unknownStrategy name none)
  | some factory => factory params

end Registry

end MarketTape
