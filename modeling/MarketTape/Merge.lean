import MarketTape.Tick

/-!
# Merging partitions

Recorded ticks come in partitions, and a replay needs one stream: ordered by time, then instrument,
then partition, with the ticks of one partition in their own order where they agree in all three.
There are two ways to that stream.  One holds a single tick of every partition in a queue and always
takes the first; the other puts all partitions behind each other and sorts.

* `Merger` is the queue, `Merger.next` takes one tick from it.
* `mergeByQueue` and `mergeBySorting` are the two ways.
* `Merged` is the outcome: the ticks, and whether the cap on their number cut something off.
-/

namespace MarketTape

/-- A tick together with the number of its partition. -/
structure Sourced (α : Type) where
  partition : Nat
  tick : Tick α
  deriving DecidableEq, Repr

/-- The order of the stream: time, instrument, partition. -/
def Sourced.comesBy {α : Type} (a b : Sourced α) : Bool :=
  a.tick.time < b.tick.time || (a.tick.time == b.tick.time &&
    (a.tick.instrument < b.tick.instrument || (a.tick.instrument == b.tick.instrument &&
      a.partition ≤ b.partition)))

/-- Merged ticks, and whether ticks were left over when the cap was reached. -/
structure Merged (α : Type) where
  ticks : List (Tick α)
  earlyStop : Bool
  deriving DecidableEq, Repr

/-! ## The queue -/

/-- The state of a merge that holds one tick of every partition.  The sources are what the
partitions have not yet handed to the queue, and the queue is in the order of the stream.  An early
stop is that a tick was asked for at the cap while ticks were waiting. -/
structure Merger (α : Type) where
  sources : List (List (Tick α))
  queue : List (Sourced α)
  cap : Option Nat
  emitted : Nat
  earlyStop : Bool
  deriving DecidableEq, Repr

namespace Merger

variable {α : Type}

/-- Puts a tick into the queue, before the first one that it may stand before. -/
def enqueue (entry : Sourced α) : List (Sourced α) → List (Sourced α)
  | [] => [entry]
  | first :: rest =>
    if entry.comesBy first then entry :: first :: rest else first :: enqueue entry rest

/-- Nothing but the tick is added, and nothing is lost. -/
theorem perm_enqueue (entry : Sourced α) (queue : List (Sourced α)) :
    (enqueue entry queue).Perm (entry :: queue) := by
  induction queue with
  | nil => exact List.Perm.refl _
  | cons first rest ih =>
    simp only [enqueue]
    split
    · exact List.Perm.refl _
    · exact (ih.cons first).trans (List.Perm.swap ..)

/-- Moves the next tick of a partition into the queue. -/
def refill (m : Merger α) (partition : Nat) : Merger α :=
  match m.sources[partition]? with
  | some (tick :: rest) =>
    { m with
      sources := m.sources.set partition rest
      queue := enqueue ⟨partition, tick⟩ m.queue }
  | _ => m

/-- The merge before its first tick. -/
def start (partitions : List (List (Tick α))) (cap : Option Nat) : Merger α :=
  (List.range partitions.length).foldl refill ⟨partitions, [], cap, 0, false⟩

def full (m : Merger α) : Bool :=
  match m.cap with
  | some cap => cap ≤ m.emitted
  | none => false

/-- Takes the first waiting tick. -/
def next (m : Merger α) : Merger α × Option (Tick α) :=
  if m.full then ({ m with earlyStop := m.earlyStop || !m.queue.isEmpty }, none)
  else
    match m.queue with
    | [] => (m, none)
    | first :: rest =>
      let m := { m with queue := rest }.refill first.partition
      ({ m with emitted := m.emitted + 1 }, some first.tick)

/-- Takes ticks until there is none, at most `fuel` of them. -/
def drain : Nat → Merger α → Merger α × List (Tick α)
  | 0, m => (m, [])
  | fuel + 1, m =>
    match m.next with
    | (m, none) => (m, [])
    | (m, some tick) =>
      let (m, ticks) := drain fuel m
      (m, tick :: ticks)

end Merger

/-! ## The two ways -/

variable {α : Type}

/-- Merges by taking the first tick of a queue until there is none.  The last of the tries is the
one that finds none. -/
def mergeByQueue (partitions : List (List (Tick α))) (cap : Option Nat) : Merged α :=
  let (m, ticks) := Merger.drain (partitions.flatten.length + 1) (Merger.start partitions cap)
  ⟨ticks, m.earlyStop⟩

/-- All ticks with the numbers of their partitions, partition by partition. -/
def sourced (partitions : List (List (Tick α))) : List (Sourced α) :=
  partitions.zipIdx.flatMap fun (ticks, partition) => ticks.map fun tick => ⟨partition, tick⟩

/-- The first elements of a list up to a cap, and whether there are more. -/
def capped {β : Type} (cap : Option Nat) (xs : List β) : List β × Bool :=
  match cap with
  | some cap => (xs.take cap, cap < xs.length)
  | none => (xs, false)

/-- Merges by sorting all ticks. -/
def mergeBySorting (partitions : List (List (Tick α))) (cap : Option Nat) : Merged α :=
  let (kept, earlyStop) := capped cap ((sourced partitions).mergeSort Sourced.comesBy)
  ⟨kept.map (·.tick), earlyStop⟩

end MarketTape
