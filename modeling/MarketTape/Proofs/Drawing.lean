import MarketTape.Proofs.Merge

/-!
# Drawing ticks from the queue

A merge can be asked for one tick after the other, more often than it has any, and the partitions
need not be in order for that.  Whatever was drawn so far, the queue holds the next tick of every
partition that still has one and nothing else; so no partition is ever forgotten, and what was drawn
of it is what it begins with.

* `Merger.offer` is the tick that the next call draws, and `Merger.next_cases` the three things that
  a call can come to.
* `Merger.after` is the merge after some calls, and `Merger.drawn` what these have drawn.
* `Merger.Draws` ties the two to the partitions; `Merger.Draws.next` is one call more, and
  `Merger.draws_after` any number of them.
* `queue_draws_next_ticks` is the result.
-/

namespace MarketTape

variable {α : Type}

namespace Merger

/-! ## One call -/

/-- The waiting tick that the next call draws, if it draws one. -/
def offer (m : Merger α) : Option (Sourced α) := if m.full then none else m.queue.head?

/-- A call finds the cap reached, or finds nothing waiting, or draws the first waiting tick. -/
lemma next_cases (m : Merger α) :
    (m.full = true ∧ m.offer = none ∧
        m.next = ({ m with earlyStop := m.earlyStop || !m.queue.isEmpty }, none)) ∨
      (m.full = false ∧ m.queue = [] ∧ m.offer = none ∧ m.next = (m, none)) ∨
      ∃ first rest, m.full = false ∧ m.queue = first :: rest ∧ m.offer = some first ∧
        m.next = (m.taken first rest, some first.tick) := by
  cases hfull : m.full with
  | true => exact Or.inl ⟨rfl, by simp [offer, hfull], by simp [next, hfull]⟩
  | false =>
    cases hq : m.queue with
    | nil => exact Or.inr (Or.inl ⟨rfl, rfl, by simp [offer, hfull, hq], by simp [next, hfull, hq]⟩)
    | cons first rest =>
      refine Or.inr (Or.inr ⟨first, rest, rfl, rfl, by simp [offer, hfull, hq], ?_⟩)
      simp [next, hfull, hq, taken]

/-- A call gives the tick that it draws. -/
lemma next_eq_offer (m : Merger α) : m.next.2 = m.offer.map (·.tick) := by
  rcases m.next_cases with ⟨-, ho, hn⟩ | ⟨-, -, ho, hn⟩ | ⟨first, rest, -, -, ho, hn⟩ <;>
    rw [ho, hn] <;> rfl

/-- After a call that draws nothing there is nothing to be drawn. -/
lemma offer_next_of_none {m : Merger α} (h : m.offer = none) : m.next.1.offer = none := by
  rcases m.next_cases with ⟨hfull, -, hn⟩ | ⟨-, -, -, hn⟩ | ⟨first, rest, -, -, ho, -⟩
  · rw [hn]
    exact if_pos hfull
  · rw [hn]
    exact h
  · rw [ho] at h
    cases h

/-- A call notices that ticks are left if it finds the cap reached and ticks waiting. -/
lemma earlyStop_next (m : Merger α) :
    m.next.1.earlyStop = (m.earlyStop || m.full && !m.queue.isEmpty) := by
  rcases m.next_cases with ⟨hfull, -, hn⟩ | ⟨hfull, -, -, hn⟩ | ⟨first, rest, hfull, -, -, hn⟩
  · simp [hn, hfull]
  · simp [hn, hfull]
  · simp [hn, hfull, taken]

/-- Where nothing is left of any partition, nothing waits, and the other way round. -/
lemma queue_eq_nil_iff {m : Merger α} (hm : m.Fair) : m.queue = [] ↔ m.remaining = 0 := by
  constructor
  · intro hq
    have hsources : m.sources.flatten = [] := by
      refine List.flatten_eq_nil_iff.mpr fun ticks hticks => ?_
      obtain ⟨p, hp⟩ := List.mem_iff_getElem?.mp hticks
      have hleft := left_eq_nil hm hq p
      simpa [left, hq, hp] using hleft
    rw [remaining, hq, hsources]
    rfl
  · intro hzero
    rw [remaining] at hzero
    exact List.length_eq_zero_iff.mp (by omega)

/-! ## Any number of calls -/

/-- The merge after some calls. -/
def after (m : Merger α) : Nat → Merger α
  | 0 => m
  | n + 1 => (m.after n).next.1

/-- The ticks that some calls have drawn, with the numbers of their partitions. -/
def drawn (m : Merger α) : Nat → List (Sourced α)
  | 0 => []
  | n + 1 => m.drawn n ++ (m.after n).offer.toList

/-- What some calls have given, one by one. -/
def answers (m : Merger α) (n : Nat) : List (Option (Tick α)) :=
  (List.range n).map fun k => (m.after k).next.2

/-- Once a call has drawn nothing, no later call draws anything. -/
lemma offer_after_of_le {m : Merger α} {n k : Nat} (hnk : n ≤ k) (h : (m.after n).offer = none) :
    (m.after k).offer = none := by
  induction k, hnk using Nat.le_induction with
  | base => exact h
  | succ k _ ih => exact offer_next_of_none ih

/-- Every call so far has drawn a tick, or there is nothing to be drawn. -/
lemma length_drawn (m : Merger α) (n : Nat) :
    (m.drawn n).length = n ∨ (m.drawn n).length < n ∧ (m.after n).offer = none := by
  induction n with
  | zero => exact Or.inl rfl
  | succ n ih =>
    rw [drawn, List.length_append]
    cases ho : (m.after n).offer with
    | none =>
      refine Or.inr ⟨?_, offer_next_of_none ho⟩
      simp only [Option.toList_none, List.length_nil]
      omega
    | some e =>
      left
      rcases ih with ih | ⟨-, hnone⟩
      · rw [ih, Option.toList_some, List.length_singleton]
      · rw [ho] at hnone
        cases hnone

/-- The calls give what they draw, and then nothing. -/
theorem answers_eq (m : Merger α) (n : Nat) :
    m.answers n = (m.drawn n).map (fun e => some e.tick) ++
      List.replicate (n - (m.drawn n).length) none := by
  induction n with
  | zero => rfl
  | succ n ih =>
    have hstep : m.answers (n + 1) = m.answers n ++ [(m.after n).next.2] := by
      rw [answers, List.range_succ, List.map_append]
      rfl
    rw [hstep, ih, next_eq_offer, drawn]
    have hlen := m.length_drawn n
    cases ho : (m.after n).offer with
    | none =>
      have hsucc : n + 1 - (m.drawn n).length = n - (m.drawn n).length + 1 := by omega
      simp only [Option.map_none, Option.toList_none, List.append_nil, List.append_assoc, hsucc,
        List.replicate_succ']
    | some e =>
      -- only a row of ticks can be followed by a tick
      have hall : (m.drawn n).length = n := hlen.resolve_right fun h => by simp [ho] at h
      simp [hall]

/-- A merge of some partitions from which some ticks were drawn, no more than the cap allows.  The
queue holds the next tick of every partition, and what was drawn of a partition and what is left of
it are the partition. -/
structure Draws (partitions : List (List (Tick α))) (cap : Option Nat) (m : Merger α)
    (drawn : List (Sourced α)) : Prop where
  fair : m.Fair
  rest : ∀ p, drawn.filter (·.partition == p) ++ m.left p =
    ((partitions[p]?).getD []).map (⟨p, ·⟩)
  total : drawn.length + m.remaining = partitions.flatten.length
  emitted : m.emitted = drawn.length
  cap_eq : m.cap = cap
  within : ∀ c, cap = some c → drawn.length ≤ c

section Draws

variable {partitions : List (List (Tick α))} {cap : Option Nat} {m : Merger α}
  {drawn : List (Sourced α)}

lemma draws_start (partitions : List (List (Tick α))) (cap : Option Nat) :
    Draws partitions cap (start partitions cap) [] := by
  obtain ⟨hfair, hleft, hrem, hcap, hemitted, -⟩ := start_spec partitions cap
  exact ⟨hfair, hleft, (Nat.zero_add _).trans hrem, hemitted, hcap, fun c _ => Nat.zero_le c⟩

/-- The cap is reached if as many ticks were drawn. -/
lemma Draws.full_iff (h : Draws partitions cap m drawn) :
    m.full = true ↔ cap = some drawn.length := by
  have hwithin := h.within
  rw [full, h.cap_eq, h.emitted]
  cases cap with
  | none => simp
  | some c =>
    have hc := hwithin c rfl
    simp only [decide_eq_true_eq, Option.some.injEq]
    omega

/-- Ticks wait as long as not all were drawn. -/
lemma Draws.queue_eq_nil_iff (h : Draws partitions cap m drawn) :
    m.queue = [] ↔ drawn.length = partitions.flatten.length := by
  rw [Merger.queue_eq_nil_iff h.fair, ← h.total]
  omega

/-- A call draws nothing if the cap is reached or everything was drawn. -/
lemma Draws.offer_eq_none_iff (h : Draws partitions cap m drawn) :
    m.offer = none ↔ cap = some drawn.length ∨ drawn.length = partitions.flatten.length := by
  rw [← h.full_iff, ← h.queue_eq_nil_iff, offer]
  cases hfull : m.full <;> simp

/-- A partition begins with what was drawn of it, and the tick behind that waits. -/
lemma Draws.prefix_waits (h : Draws partitions cap m drawn) (p : Nat) :
    ∃ rest, (partitions[p]?).getD [] = (drawn.filter (·.partition == p)).map (·.tick) ++ rest ∧
      m.queue.filter (·.partition == p) = (rest.take 1).map (⟨p, ·⟩) := by
  obtain ⟨ticks, rest, hsplit, hdrawn, hleft⟩ := List.append_eq_map_iff.mp (h.rest p)
  refine ⟨rest, ?_, ?_⟩
  · rw [hsplit, ← hdrawn, List.map_map]
    exact congrArg (· ++ rest) (List.map_id ticks).symm
  · rw [h.fair.next_waits, ← hleft, List.map_take]

/-- One call more. -/
theorem Draws.next (h : Draws partitions cap m drawn) :
    Draws partitions cap m.next.1 (drawn ++ m.offer.toList) := by
  rcases m.next_cases with ⟨-, ho, hn⟩ | ⟨-, -, ho, hn⟩ | ⟨first, rest, hfull, hq, ho, hn⟩
  · -- only the note that ticks are left may be new
    rw [ho, hn, Option.toList_none, List.append_nil]
    exact ⟨⟨h.fair.ordered, h.fair.next_waits⟩, h.rest, h.total, h.emitted, h.cap_eq, h.within⟩
  · rw [ho, hn, Option.toList_none, List.append_nil]
    exact h
  · obtain ⟨hfair, hleft, hrem⟩ := taken_spec h.fair hq
    have htotal := h.total
    rw [ho, hn]
    refine ⟨hfair, fun p => ?_, ?_, ?_, ?_, fun c hc => ?_⟩
    · rw [← h.rest p, hleft p, List.filter_append, Option.toList_some]
      by_cases hp : p = first.partition
      · simp [hp]
      · simp [hp, Ne.symm hp]
    · simp only [List.length_append, Option.toList_some, List.length_singleton]
      omega
    · simp [taken, h.emitted]
    · simp [taken, h.cap_eq]
    · have hless : drawn.length ≠ c := fun heq => by
        have := h.full_iff.mpr (heq ▸ hc)
        simp [hfull] at this
      have hmost := h.within c hc
      simp only [List.length_append, Option.toList_some, List.length_singleton]
      omega

end Draws

/-- Any number of calls. -/
theorem draws_after (partitions : List (List (Tick α))) (cap : Option Nat) (n : Nat) :
    Draws partitions cap ((start partitions cap).after n) ((start partitions cap).drawn n) := by
  induction n with
  | zero => exact draws_start partitions cap
  | succ n ih => exact ih.next

/-- The calls have noticed that ticks are left if one of them found the cap reached before all were
drawn. -/
theorem earlyStop_after (partitions : List (List (Tick α))) (cap : Option Nat) (n : Nat) :
    ((start partitions cap).after n).earlyStop = true ↔
      ∃ k < n, cap = some ((start partitions cap).drawn k).length ∧
        ((start partitions cap).drawn k).length < partitions.flatten.length := by
  induction n with
  | zero => simp [after, (start_spec partitions cap).2.2.2.2.2]
  | succ n ih =>
    have h := draws_after partitions cap n
    have hmost : ((start partitions cap).drawn n).length ≤ partitions.flatten.length :=
      h.total ▸ Nat.le_add_right _ _
    have hleft : (!((start partitions cap).after n).queue.isEmpty) = true ↔
        ((start partitions cap).drawn n).length < partitions.flatten.length := by
      rw [Bool.not_eq_true', ← Bool.not_eq_true, List.isEmpty_iff, h.queue_eq_nil_iff]
      omega
    rw [after, earlyStop_next, Bool.or_eq_true, Bool.and_eq_true, ih, h.full_iff, hleft]
    constructor
    · rintro (⟨k, hk, hnoticed⟩ | hnoticed)
      · exact ⟨k, hk.trans n.lt_succ_self, hnoticed⟩
      · exact ⟨n, n.lt_succ_self, hnoticed⟩
    · rintro ⟨k, hk, hnoticed⟩
      rcases Nat.lt_succ_iff_lt_or_eq.mp hk with hk | rfl
      · exact Or.inl ⟨k, hk, hnoticed⟩
      · exact Or.inr hnoticed

end Merger

open Merger in
/-- A merge may be asked for ticks any number of times, whatever the order of its partitions.  What
was drawn of a partition is what it begins with, and of what is left of it the queue holds the first
tick, alone.  The calls give what they draw, as many ticks as are counted, and nothing from the call
on that finds the cap reached or everything drawn; and it is noticed that ticks are left by a call
that finds the cap reached before everything is drawn. -/
theorem queue_draws_next_ticks (partitions : List (List (Tick α))) (cap : Option Nat) (n : Nat) :
    let m := (start partitions cap).after n
    let drawn := (start partitions cap).drawn n
    (∀ p, ∃ rest, (partitions[p]?).getD [] =
        (drawn.filter (·.partition == p)).map (·.tick) ++ rest ∧
      m.queue.filter (·.partition == p) = (rest.take 1).map (⟨p, ·⟩)) ∧
    (start partitions cap).answers n =
      drawn.map (fun e => some e.tick) ++ List.replicate (n - drawn.length) none ∧
    m.emitted = drawn.length ∧
    (∀ c, cap = some c → m.emitted ≤ c) ∧
    (m.next.2 = none ↔ cap = some m.emitted ∨ drawn.length = partitions.flatten.length) ∧
    (m.next.2 = none → ∀ k, n ≤ k → ((start partitions cap).after k).next.2 = none) ∧
    (m.earlyStop = true ↔ ∃ k < n, cap = some ((start partitions cap).after k).emitted ∧
      ((start partitions cap).drawn k).length < partitions.flatten.length) := by
  intro m drawn
  have h : Draws partitions cap m drawn := draws_after partitions cap n
  refine ⟨h.prefix_waits, answers_eq _ n, h.emitted, fun c hc => h.emitted ▸ h.within c hc, ?_,
    fun hnone k hk => ?_, ?_⟩
  · rw [next_eq_offer, Option.map_eq_none_iff, h.offer_eq_none_iff, h.emitted]
  · rw [next_eq_offer, Option.map_eq_none_iff] at hnone ⊢
    exact offer_after_of_le hk hnone
  · simp only [m, earlyStop_after, (draws_after partitions cap _).emitted]

end MarketTape
