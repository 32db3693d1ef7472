import MarketTape.Count
import MarketTape.Strategy.Basic

/-!
# The strategies that come with the program

* `idle` never trades.
* `follower` holds a fixed number of lots in the direction of the regime: long while prices rise,
  short while they fall, nothing while they swing, and whatever it has otherwise.
* `builtins` registers both.
-/

namespace MarketTape

variable {α : Type}

/-! ## The idle strategy -/

/-- Answers every bar with nothing. -/
def idle : Strategy α where
  State := Unit
  start := ()
  onState _ _ := some ((), [])
  onFill _ _ := ()

/-- Makes the idle strategy, whatever the parameters. -/
def idleFactory (capabilities : Capabilities) : StrategyFactory α :=
  fun _ => .ok ⟨idle, capabilities⟩

def idleName : String := "noop"

/-! ## The regime follower -/

/-- What the regime follower remembers: the number of the next order, and how many fills it noticed.
-/
structure Follower where
  nextTrace : Nat
  fills : Nat
  deriving DecidableEq, Repr

def followerName : String := "regime_follow"

namespace Follower

def start : Follower := ⟨1, 0⟩

/-- The lots to hold in a regime, or nothing where the regime does not say. -/
def target? (volume : Int) : Regime → Option Int
  | .trendUp => some volume
  | .trendDown => some (-volume)
  | .volatile => some 0
  | .warmup => none
  | .ranging => none

/-- An intent for the instrument of a bar, under the next number. -/
def intend (f : Follower) (s : BarState α) (side : Side) (offset : Offset) (volume : Int) :
    Follower × Intent α :=
  ({ f with nextTrace := f.nextTrace + 1 },
    { instrument := s.bar.instrument, side, offset, volume, referencePrice := s.bar.close
      traceId := followerName ++ "-" ++ toString f.nextTrace })

/-- Closes lots held in another direction than the target's. -/
def leave? (f : Follower) (s : BarState α) (target : Int) :
    Option (Follower × List (Intent α)) :=
  if s.net ≠ 0 ∧ target.sign ≠ s.net.sign then
    (Count.abs? s.net).map fun held =>
      let (f, intent) := f.intend s (Side.ofPosition s.net).opposite .closing held
      (f, [intent])
  else some (f, [])

/-- Opens the target unless lots are held in its direction. -/
def enter? (f : Follower) (s : BarState α) (target : Int) :
    Option (Follower × List (Intent α)) :=
  if target ≠ 0 ∧ target.sign ≠ s.net.sign then
    (Count.abs? target).map fun volume =>
      let (f, intent) := f.intend s (Side.ofPosition target) .opening volume
      (f, [intent])
  else some (f, [])

/-- Moves to the lots that the regime calls for. -/
def onState? (volume : Int) (f : Follower) (s : BarState α) :
    Option (Follower × List (Intent α)) :=
  match target? volume s.state.regime with
  | none => some (f, [])
  | some target =>
    if target = s.net then some (f, [])
    else
      match f.leave? s target with
      | none => none
      | some (f, leaving) =>
        (f.enter? s target).map fun (f, entering) => (f, leaving ++ entering)

end Follower

/-- The regime follower that holds the given number of lots. -/
def follower (volume : Int) : Strategy α where
  State := Follower
  start := Follower.start
  onState f s := f.onState? volume s
  onFill f _ := { f with fills := f.fills + 1 }

/-- The volume among the parameters: an object with at most that member, a list of at most that
item, or nothing. -/
def followerVolume? : Json → Option Int
  | .null => some 1
  | .obj [] => some 1
  | .obj [(name, .int n)] => if name = "volume" then Count.fit n else none
  | .arr [] => some 1
  | .arr [.int n] => Count.fit n
  | _ => none

/-- Makes the regime follower for a positive volume. -/
def makeFollower (volume : Int) : Except Error (Strategy α) :=
  if volume ≤ 0 then .error (.followerVolume volume) else .ok (follower volume)

def followerFactory : StrategyFactory α := fun params =>
  match followerVolume? params with
  | none => .error .followerParams
  | some volume =>
    (makeFollower volume).map fun s =>
      ⟨s, { opening := true, orderAware := true, traceProvider := true }⟩

/-- The strategies that come with the program. -/
def builtins : Registry α :=
  (Registry.empty.insert idleName
    (idleFactory { opening := false, orderAware := false, traceProvider := false })).insert
    followerName followerFactory

end MarketTape
