import Mathlib.Data.List.Sort
import Mathlib.Data.String.Basic
import MarketTape.Merge

/-!
# The two ways of merging agree

Sorting all ticks at once and taking them one by one from a queue are very different computations.
That both give the same stream rests on one fact: a list that is in the order of the stream is known
once it is known, for every partition, which of its ticks come from there and in which order
(`Sourced.eq_of_filter_eq`).

* `take_eq_of_filter_take_eq` is that fact for any order and any key, and for the first elements
  alone; `filter_mergeSort` says what sorting leaves as it is.
* `Merger.left` is what a merge still has of a partition, and `Merger.Fair` says that the queue is
  in order and holds the first tick of every partition that has one.
* `Merger.stream` is what a merge hands out when no cap stops it; `Merger.filter_stream` and
  `Merger.pairwise_stream` are the two halves of the fact above for the queue, and
  `filter_mergeSort_sourced` is the first half for sorting.
* `Merger.drain_eq` puts the cap back in.
* `mergeByQueue_eq_mergeBySorting` is the result.
-/

namespace MarketTape

variable {α : Type}

/-! ## Lists in order

Elements that may each stand before the other share a key, and elements of one key keep their own
order.  That leaves nothing open, and sorting changes nothing about it.
-/

section Order

variable {β κ : Type} [BEq κ] [LawfulBEq κ] {le : β → β → Bool} (key : β → κ)

/-- Two lists in order whose elements of every key start in the same way start in the same way. -/
theorem take_eq_of_filter_take_eq (hrefl : ∀ a, le a a = true)
    (hkey : ∀ {a b}, le a b = true → le b a = true → key a = key b) :
    ∀ {n : Nat} {xs ys : List β}, xs.Pairwise (fun a b => le a b = true) →
      ys.Pairwise (fun a b => le a b = true) →
        (∀ k, (xs.filter (key · == k)).take n = (ys.filter (key · == k)).take n) →
          xs.take n = ys.take n
  | 0, _, _, _, _, _ => rfl
  | n + 1, [], [], _, _, _ => rfl
  | n + 1, [], y :: ys, _, _, h => by simpa using h (key y)
  | n + 1, x :: xs, [], _, _, h => by simpa using h (key x)
  | n + 1, x :: xs, y :: ys, hx, hy, h => by
    -- the first element of either list is the first one of its key in the other list as well
    have head_le : ∀ {z w : β} {zs ws : List β}, (w :: ws).Pairwise (fun a b => le a b = true) →
        ((z :: zs).filter (key · == key z)).take (n + 1) =
          ((w :: ws).filter (key · == key z)).take (n + 1) → le w z = true := by
      intro z w zs ws hw hzw
      have hz : z ∈ (w :: ws).filter (key · == key z) := by
        refine List.mem_of_mem_take (i := n + 1) (hzw ▸ ?_)
        simp
      rcases List.mem_cons.mp (List.mem_of_mem_filter hz) with rfl | hz
      · exact hrefl z
      · exact List.rel_of_pairwise_cons hw hz
    have hp : key x = key y := hkey (head_le hx (h (key y)).symm) (head_le hy (h (key x)))
    have heq : x = y := by
      have hh := h (key y)
      simp only [List.filter_cons, hp, beq_self_eq_true, if_true, List.take_succ_cons] at hh
      exact (List.cons.inj hh).1
    subst heq
    refine congrArg (x :: ·) (take_eq_of_filter_take_eq hrefl hkey hx.tail hy.tail fun k => ?_)
    have hh := h k
    simp only [List.filter_cons] at hh
    split at hh
    · exact (List.cons.inj hh).2
    · simpa [List.take_take] using congrArg (List.take n) hh

/-- A list in order is known once its elements of every key are. -/
theorem eq_of_pairwise_of_filter_eq (hrefl : ∀ a, le a a = true)
    (hkey : ∀ {a b}, le a b = true → le b a = true → key a = key b) {xs ys : List β}
    (hx : xs.Pairwise fun a b => le a b = true) (hy : ys.Pairwise fun a b => le a b = true)
    (h : ∀ k, xs.filter (key · == k) = ys.filter (key · == k)) : xs = ys := by
  have htake : xs.take (xs.length + ys.length) = ys.take (xs.length + ys.length) :=
    take_eq_of_filter_take_eq key hrefl hkey hx hy fun k => by rw [h k]
  rwa [List.take_of_length_le (Nat.le_add_right _ _),
    List.take_of_length_le (Nat.le_add_left _ _)] at htake

omit [BEq κ] [LawfulBEq κ] in
/-- Sorting leaves elements alone that are in order among themselves. -/
theorem filter_mergeSort (htrans : ∀ a b c, le a b = true → le b c = true → le a c = true)
    (htotal : ∀ a b, (le a b || le b a) = true) {xs : List β} {q : β → Bool}
    (h : (xs.filter q).Pairwise fun a b => le a b = true) :
    (xs.mergeSort le).filter q = xs.filter q := by
  have hsub : (xs.filter q).Sublist (xs.mergeSort le) :=
    List.sublist_mergeSort htrans htotal h List.filter_sublist
  have hsub' := hsub.filter q
  rw [List.filter_filter] at hsub'
  simp only [Bool.and_self] at hsub'
  have hperm := (List.mergeSort_perm xs le).filter q
  exact (hsub'.eq_of_length hperm.length_eq.symm).symm

end Order

/-! ## The order of the stream -/

namespace Sourced

lemma comesBy_iff {a b : Sourced α} :
    a.comesBy b = true ↔ a.tick.time < b.tick.time ∨ a.tick.time = b.tick.time ∧
      (a.tick.instrument < b.tick.instrument ∨
        a.tick.instrument = b.tick.instrument ∧ a.partition ≤ b.partition) := by
  simp [comesBy]

lemma comesBy_total (a b : Sourced α) : (a.comesBy b || b.comesBy a) = true := by
  simp only [Bool.or_eq_true, comesBy_iff]
  rcases lt_trichotomy a.tick.time b.tick.time with ht | ht | ht
  · exact Or.inl (Or.inl ht)
  · rcases lt_trichotomy a.tick.instrument b.tick.instrument with hi | hi | hi
    · exact Or.inl (Or.inr ⟨ht, Or.inl hi⟩)
    · rcases Nat.le_total a.partition b.partition with hp | hp
      · exact Or.inl (Or.inr ⟨ht, Or.inr ⟨hi, hp⟩⟩)
      · exact Or.inr (Or.inr ⟨ht.symm, Or.inr ⟨hi.symm, hp⟩⟩)
    · exact Or.inr (Or.inr ⟨ht.symm, Or.inl hi⟩)
  · exact Or.inr (Or.inl ht)

lemma comesBy_refl (a : Sourced α) : a.comesBy a = true := by
  have h := comesBy_total a a
  rwa [Bool.or_self] at h

lemma comesBy_trans (a b c : Sourced α) (hab : a.comesBy b = true) (hbc : b.comesBy c = true) :
    a.comesBy c = true := by
  rw [comesBy_iff] at hab hbc ⊢
  rcases hab with hab | ⟨tab, hab⟩
  · rcases hbc with hbc | ⟨tbc, _⟩
    · exact Or.inl (lt_trans hab hbc)
    · exact Or.inl (tbc ▸ hab)
  · rcases hbc with hbc | ⟨tbc, hbc⟩
    · exact Or.inl (tab ▸ hbc)
    · refine Or.inr ⟨tab.trans tbc, ?_⟩
      rcases hab with hab | ⟨iab, pab⟩
      · rcases hbc with hbc | ⟨ibc, _⟩
        · exact Or.inl (lt_trans hab hbc)
        · exact Or.inl (ibc ▸ hab)
      · rcases hbc with hbc | ⟨ibc, pbc⟩
        · exact Or.inl (iab ▸ hbc)
        · exact Or.inr ⟨iab.trans ibc, pab.trans pbc⟩

/-- Two ticks that may each stand before the other come from one partition. -/
lemma partition_eq {a b : Sourced α} (hab : a.comesBy b = true) (hba : b.comesBy a = true) :
    a.partition = b.partition := by
  rw [comesBy_iff] at hab hba
  rcases hab with hab | ⟨_, hab⟩
  · rcases hba with hba | ⟨tba, _⟩ <;> omega
  · rcases hba with hba | ⟨_, hba⟩
    · omega
    · rcases hab with hab | ⟨iab, pab⟩
      · rcases hba with hba | ⟨iba, _⟩
        · exact absurd (lt_trans hab hba) (lt_irrefl _)
        · exact absurd (iba ▸ hab) (lt_irrefl _)
      · rcases hba with hba | ⟨_, pba⟩
        · exact absurd (iab ▸ hba) (lt_irrefl _)
        · exact le_antisymm pab pba

/-- In one partition the order of the stream is the order of ticks. -/
lemma comesBy_same (p : Nat) (a b : Tick α) :
    Sourced.comesBy ⟨p, a⟩ ⟨p, b⟩ = Tick.comesBy a b := by
  simp only [comesBy, Tick.comesBy, le_refl, decide_true, Bool.and_true]
  rcases lt_trichotomy a.instrument b.instrument with h | h | h
  · simp [h, le_of_lt h]
  · simp [h]
  · simp [not_le_of_gt h, not_lt_of_gt h, (ne_of_gt h)]

/-- Two streams whose parts from every partition have the same first ticks have the same first
ticks. -/
theorem take_eq_of_filter_take_eq {n : Nat} {xs ys : List (Sourced α)}
    (hx : xs.Pairwise fun a b => a.comesBy b = true)
    (hy : ys.Pairwise fun a b => a.comesBy b = true)
    (h : ∀ p, (xs.filter (·.partition == p)).take n = (ys.filter (·.partition == p)).take n) :
    xs.take n = ys.take n :=
  MarketTape.take_eq_of_filter_take_eq partition comesBy_refl partition_eq hx hy h

/-- A list in the order of the stream is known once its part from every partition is. -/
theorem eq_of_filter_eq {xs ys : List (Sourced α)}
    (hx : xs.Pairwise fun a b => a.comesBy b = true)
    (hy : ys.Pairwise fun a b => a.comesBy b = true)
    (h : ∀ p, xs.filter (·.partition == p) = ys.filter (·.partition == p)) : xs = ys :=
  eq_of_pairwise_of_filter_eq partition comesBy_refl partition_eq hx hy h

end Sourced

/-! ### The order of ticks -/

namespace Tick

lemma comesBy_iff {a b : Tick α} :
    comesBy a b = true ↔ a.time < b.time ∨ a.time = b.time ∧ a.instrument ≤ b.instrument := by
  simp [comesBy]

lemma time_le_of_comesBy {a b : Tick α} (h : comesBy a b = true) : a.time ≤ b.time := by
  rw [comesBy_iff] at h
  omega

lemma comesBy_total (a b : Tick α) : (comesBy a b || comesBy b a) = true := by
  simpa only [Sourced.comesBy_same] using Sourced.comesBy_total ⟨0, a⟩ ⟨0, b⟩

lemma comesBy_refl (a : Tick α) : comesBy a a = true := by
  simpa only [Sourced.comesBy_same] using Sourced.comesBy_refl ⟨0, a⟩

lemma comesBy_trans (a b c : Tick α) (hab : comesBy a b = true) (hbc : comesBy b c = true) :
    comesBy a c = true := by
  have h := Sourced.comesBy_trans ⟨0, a⟩ ⟨0, b⟩ ⟨0, c⟩
  simp only [Sourced.comesBy_same] at h
  exact h hab hbc

/-- Ticks of which every one may stand before the next are in order altogether. -/
lemma pairwise_of_inOrder : ∀ {ticks : List (Tick α)}, inOrder ticks = true →
    ticks.Pairwise (fun a b => comesBy a b = true)
  | [], _ => List.Pairwise.nil
  | [a], _ => List.pairwise_singleton _ a
  | a :: b :: rest, h => by
    simp only [inOrder, Bool.and_eq_true] at h
    have ih := pairwise_of_inOrder h.2
    refine List.pairwise_cons.mpr ⟨fun c hc => ?_, ih⟩
    rcases List.mem_cons.mp hc with rfl | hc
    · exact h.1
    · exact comesBy_trans _ _ _ h.1 (List.rel_of_pairwise_cons ih hc)

end Tick

/-! ## The queue

A partition that still has a tick has its next one in the queue.  Refilling keeps that up, and it
changes nothing about what is left of any partition.
-/

namespace Merger

/-- What a merge still has of a partition: what waits in the queue, then what has not got there. -/
def left (m : Merger α) (p : Nat) : List (Sourced α) :=
  m.queue.filter (·.partition == p) ++ ((m.sources[p]?).getD []).map (⟨p, ·⟩)

/-- How many ticks a merge still has. -/
def remaining (m : Merger α) : Nat := m.queue.length + m.sources.flatten.length

/-- The queue is in order and holds the next tick of every partition that has one, and no other
tick. -/
structure Fair (m : Merger α) : Prop where
  ordered : m.queue.Pairwise fun a b => a.comesBy b = true
  next_waits : ∀ p, m.queue.filter (·.partition == p) = (m.left p).take 1

lemma mem_enqueue {e x : Sourced α} {queue : List (Sourced α)} :
    x ∈ enqueue e queue ↔ x = e ∨ x ∈ queue := by
  rw [(perm_enqueue e queue).mem_iff, List.mem_cons]

lemma length_enqueue (e : Sourced α) (queue : List (Sourced α)) :
    (enqueue e queue).length = queue.length + 1 := by
  rw [(perm_enqueue e queue).length_eq, List.length_cons]

lemma pairwise_enqueue (e : Sourced α) : ∀ {queue : List (Sourced α)},
    queue.Pairwise (fun a b => a.comesBy b = true) →
      (enqueue e queue).Pairwise (fun a b => a.comesBy b = true)
  | [], _ => List.pairwise_singleton _ e
  | first :: rest, h => by
    simp only [enqueue]
    split
    · rename_i hle
      refine List.pairwise_cons.mpr ⟨fun x hx => ?_, h⟩
      rcases List.mem_cons.mp hx with rfl | hx
      · exact hle
      · exact Sourced.comesBy_trans _ _ _ hle (List.rel_of_pairwise_cons h hx)
    · rename_i hle
      have hge : first.comesBy e = true := by
        have htotal := Sourced.comesBy_total e first
        simpa [hle] using htotal
      refine List.pairwise_cons.mpr ⟨fun x hx => ?_, pairwise_enqueue e h.tail⟩
      rcases mem_enqueue.mp hx with rfl | hx
      · exact hge
      · exact List.rel_of_pairwise_cons h hx

lemma filter_enqueue_of_ne {e : Sourced α} {p : Nat} (hp : e.partition ≠ p) :
    ∀ queue : List (Sourced α),
      (enqueue e queue).filter (·.partition == p) = queue.filter (·.partition == p)
  | [] => by simp [enqueue, hp]
  | first :: rest => by
    simp only [enqueue]
    split
    · simp [hp]
    · rw [List.filter_cons, List.filter_cons, filter_enqueue_of_ne hp rest]

lemma filter_enqueue_self {e : Sourced α} : ∀ {queue : List (Sourced α)},
    queue.filter (·.partition == e.partition) = [] →
      (enqueue e queue).filter (·.partition == e.partition) = [e]
  | [], _ => by simp [enqueue]
  | first :: rest, h => by
    have hrest : rest.filter (·.partition == e.partition) = [] := by
      rw [List.filter_cons] at h
      split at h
      · exact absurd h (List.cons_ne_nil _ _)
      · exact h
    have hfirst : (first.partition == e.partition) = false := by
      by_contra hne
      rw [Bool.not_eq_false] at hne
      simp [hne] at h
    simp only [enqueue]
    split
    · rw [List.filter_cons, h]; simp
    · rw [List.filter_cons, filter_enqueue_self hrest, hfirst]; simp

/-! ### Refilling -/

@[simp] lemma cap_refill (m : Merger α) (p : Nat) : (m.refill p).cap = m.cap := by
  rw [refill]; split <;> rfl

@[simp] lemma emitted_refill (m : Merger α) (p : Nat) : (m.refill p).emitted = m.emitted := by
  rw [refill]; split <;> rfl

@[simp] lemma earlyStop_refill (m : Merger α) (p : Nat) :
    (m.refill p).earlyStop = m.earlyStop := by
  rw [refill]; split <;> rfl

lemma length_flatten_set {β : Type} {xs : List (List β)} {p : Nat} {x : β} {rest : List β}
    (h : xs[p]? = some (x :: rest)) :
    xs.flatten.length = (xs.set p rest).flatten.length + 1 := by
  induction xs generalizing p with
  | nil => simp at h
  | cons first others ih =>
    cases p with
    | zero =>
      simp only [List.getElem?_cons_zero, Option.some.injEq] at h
      subst h
      simp only [List.set_cons_zero, List.flatten_cons, List.length_append, List.length_cons]
      omega
    | succ p =>
      rw [List.getElem?_cons_succ] at h
      simp only [List.set_cons_succ, List.flatten_cons, List.length_append, ih h]
      omega

/-- Moving a tick into the queue loses none. -/
lemma remaining_refill (m : Merger α) (p : Nat) : (m.refill p).remaining = m.remaining := by
  rw [refill]
  split
  · rename_i tick rest hs
    simp only [remaining, length_enqueue, length_flatten_set hs]
    omega
  · rfl

/-- Refilling for a partition without a waiting tick changes nothing about what is left. -/
lemma left_refill {m : Merger α} {p : Nat} (hp : m.queue.filter (·.partition == p) = [])
    (q : Nat) : (m.refill p).left q = m.left q := by
  rw [refill]
  split
  · rename_i tick rest hs
    have hlt : p < m.sources.length := (List.getElem?_eq_some_iff.mp hs).1
    by_cases hq : p = q
    · subst hq
      have hself : (enqueue ⟨p, tick⟩ m.queue).filter (·.partition == p) = [⟨p, tick⟩] :=
        filter_enqueue_self (e := ⟨p, tick⟩) hp
      simp only [left, hself, hp, hs, List.getElem?_set_self hlt, Option.getD_some, List.map_cons,
        List.nil_append, List.cons_append]
    · have hne : (enqueue ⟨p, tick⟩ m.queue).filter (·.partition == q) =
          m.queue.filter (·.partition == q) := filter_enqueue_of_ne hq _
      simp [left, hne, List.getElem?_set_ne hq]
  · rfl

/-- Refilling puts the next tick of the partition into the queue and leaves the others alone. -/
lemma filter_refill {m : Merger α} {p : Nat} (hp : m.queue.filter (·.partition == p) = [])
    (q : Nat) :
    (m.refill p).queue.filter (·.partition == q) =
      if q = p then (m.left p).take 1 else m.queue.filter (·.partition == q) := by
  rw [refill]
  split
  · rename_i tick rest hs
    by_cases hq : q = p
    · subst hq
      have hself : (enqueue ⟨q, tick⟩ m.queue).filter (·.partition == q) = [⟨q, tick⟩] :=
        filter_enqueue_self (e := ⟨q, tick⟩) hp
      simp [left, hself, hp, hs]
    · simp only [if_neg hq]
      exact filter_enqueue_of_ne (Ne.symm hq) _
  · rename_i hs
    by_cases hq : q = p
    · subst hq
      have hnone : (m.sources[q]?).getD [] = [] := by
        cases hc : m.sources[q]? with
        | none => rfl
        | some ticks =>
          cases ticks with
          | nil => rfl
          | cons tick rest => exact absurd hc (hs tick rest)
      simp [left, hp, hnone]
    · rw [if_neg hq]

lemma ordered_refill {m : Merger α} (h : m.queue.Pairwise fun a b => a.comesBy b = true)
    (p : Nat) : (m.refill p).queue.Pairwise fun a b => a.comesBy b = true := by
  rw [refill]
  split
  · exact pairwise_enqueue _ h
  · exact h

/-! ### Before the first tick -/

/-- A merge before any tick was moved into the queue. -/
def unfilled (partitions : List (List (Tick α))) (cap : Option Nat) : Merger α :=
  ⟨partitions, [], cap, 0, false⟩

/-- Filling the queue for the first partitions, one after the other, puts the next tick of each of
them there and loses nothing. -/
lemma filled_spec (partitions : List (List (Tick α))) (cap : Option Nat) (n : Nat) :
    let m := (List.range n).foldl refill (unfilled partitions cap)
    (m.queue.Pairwise fun a b => a.comesBy b = true) ∧
      (∀ q, m.left q = (unfilled partitions cap).left q) ∧
      (∀ q, m.queue.filter (·.partition == q) =
        if q < n then ((unfilled partitions cap).left q).take 1 else []) ∧
      m.remaining = partitions.flatten.length ∧
      m.cap = cap ∧ m.emitted = 0 ∧ m.earlyStop = false := by
  induction n with
  | zero => simp [unfilled, remaining]
  | succ n ih =>
    simp only [List.range_succ, List.foldl_append, List.foldl_cons, List.foldl_nil] at ih ⊢
    obtain ⟨hord, hleft, hqueue, hrem, hcap, hemitted, hstop⟩ := ih
    have hn := hqueue n
    rw [if_neg (lt_irrefl n)] at hn
    refine ⟨ordered_refill hord n, fun q => ?_, fun q => ?_, ?_, ?_, ?_, ?_⟩
    · rw [left_refill hn, hleft]
    · rw [filter_refill hn, hleft, hqueue]
      by_cases hq : q = n
      · simp [hq]
      · have hiff : q < n + 1 ↔ q < n := by omega
        simp [hq, hiff]
    · rw [remaining_refill, hrem]
    · rw [cap_refill, hcap]
    · rw [emitted_refill, hemitted]
    · rw [earlyStop_refill, hstop]

lemma start_spec (partitions : List (List (Tick α))) (cap : Option Nat) :
    (start partitions cap).Fair ∧
      (∀ p, (start partitions cap).left p = ((partitions[p]?).getD []).map (⟨p, ·⟩)) ∧
      (start partitions cap).remaining = partitions.flatten.length ∧
      (start partitions cap).cap = cap ∧ (start partitions cap).emitted = 0 ∧
      (start partitions cap).earlyStop = false := by
  obtain ⟨hord, hleft, hqueue, hrest⟩ := filled_spec partitions cap partitions.length
  have hstart : start partitions cap =
      (List.range partitions.length).foldl refill (unfilled partitions cap) := rfl
  rw [← hstart] at hord hleft hqueue hrest
  refine ⟨⟨hord, fun p => ?_⟩, fun p => ?_, hrest⟩
  · rw [hqueue p, hleft p]
    split
    · rfl
    · rename_i hp
      have hnone : partitions[p]? = none := List.getElem?_eq_none (by omega)
      simp [left, unfilled, hnone]
  · exact (hleft p).trans (by simp [left, unfilled])

/-! ### Taking ticks -/

/-- A merge after the first waiting tick was taken. -/
def taken (m : Merger α) (first : Sourced α) (rest : List (Sourced α)) : Merger α :=
  let m := { m with queue := rest }.refill first.partition
  { m with emitted := m.emitted + 1 }

/-- Taking the first waiting tick takes it from its own partition, and the queue stays fair. -/
lemma taken_spec {m : Merger α} (hm : m.Fair) {first : Sourced α} {rest : List (Sourced α)}
    (hq : m.queue = first :: rest) :
    (m.taken first rest).Fair ∧
      (∀ p, m.left p = if p = first.partition then first :: (m.taken first rest).left p
        else (m.taken first rest).left p) ∧
      (m.taken first rest).remaining + 1 = m.remaining := by
  have hnext := hm.next_waits first.partition
  have hrest : rest.filter (·.partition == first.partition) = [] := by
    have hlen := congrArg List.length hnext
    rw [hq, List.filter_cons, if_pos (beq_self_eq_true _), List.length_take] at hlen
    rw [← List.length_eq_zero_iff]
    simp only [List.length_cons] at hlen
    omega
  have hbefore : ∀ p, ({ m with queue := rest } : Merger α).left p =
      (m.taken first rest).left p := fun p =>
    (left_refill (m := { m with queue := rest }) hrest p).symm
  have hleft : ∀ p, m.left p = if p = first.partition then first :: (m.taken first rest).left p
      else (m.taken first rest).left p := by
    intro p
    rw [← hbefore p]
    by_cases hp : p = first.partition
    · simp [left, hq, hp]
    · have hne : (first.partition == p) = false := by simpa using Ne.symm hp
      simp [left, hq, hp, hne]
  refine ⟨⟨ordered_refill (hq ▸ hm.ordered).tail _, fun p => ?_⟩, hleft, ?_⟩
  · have hfilter := filter_refill (m := { m with queue := rest }) hrest p
    change ((m.taken first rest).queue.filter _) = _ at hfilter
    rw [hfilter]
    split
    · rename_i hp
      rw [← hp, hbefore p]
    · rename_i hp
      have hsame := hm.next_waits p
      rw [hleft p, if_neg hp, hq, List.filter_cons, if_neg (by simpa using Ne.symm hp)] at hsame
      exact hsame
  · have hsame := remaining_refill ({ m with queue := rest } : Merger α) first.partition
    have hone : ({ m with queue := rest } : Merger α).remaining + 1 = m.remaining := by
      simp only [remaining, hq, List.length_cons]
      omega
    rw [← hone, ← hsame]
    rfl

/-- What a merge hands out if no cap stops it. -/
def stream : Nat → Merger α → List (Sourced α)
  | 0, _ => []
  | fuel + 1, m =>
    match m.queue with
    | [] => []
    | first :: rest => first :: stream fuel (m.taken first rest)

/-- Where nothing waits, nothing is left. -/
lemma left_eq_nil {m : Merger α} (hm : m.Fair) (hq : m.queue = []) (p : Nat) : m.left p = [] := by
  have hnext := hm.next_waits p
  rw [hq, List.filter_nil] at hnext
  cases hl : m.left p with
  | nil => rfl
  | cons x xs => simp [hl] at hnext

/-- A merge hands out what is left of every partition, in the order of the partition. -/
theorem filter_stream : ∀ {fuel : Nat} {m : Merger α}, m.Fair → m.remaining ≤ fuel →
    ∀ p, (stream fuel m).filter (·.partition == p) = m.left p
  | 0, m, hm, hfuel, p => by
    have hq : m.queue = [] := by
      rw [← List.length_eq_zero_iff]
      simp only [remaining] at hfuel
      omega
    rw [left_eq_nil hm hq p, stream, List.filter_nil]
  | fuel + 1, m, hm, hfuel, p => by
    cases hq : m.queue with
    | nil => rw [left_eq_nil hm hq p, stream, hq]; rfl
    | cons first rest =>
      obtain ⟨hm', hleft, hrem⟩ := taken_spec hm hq
      have hfuel' : (m.taken first rest).remaining ≤ fuel := by omega
      have ih := filter_stream hm' hfuel' p
      rw [stream, hq]
      simp only [List.filter_cons, beq_iff_eq]
      rw [ih, hleft p]
      by_cases hp : p = first.partition
      · rw [if_pos hp.symm, if_pos hp]
      · rw [if_neg (Ne.symm hp), if_neg hp]

lemma length_stream_le : ∀ {fuel : Nat} {m : Merger α}, m.Fair →
    (stream fuel m).length ≤ m.remaining
  | 0, _, _ => Nat.zero_le _
  | fuel + 1, m, hm => by
    cases hq : m.queue with
    | nil => simp [stream, hq]
    | cons first rest =>
      obtain ⟨hm', -, hrem⟩ := taken_spec hm hq
      have ih : (stream fuel (m.taken first rest)).length ≤ (m.taken first rest).remaining :=
        length_stream_le hm'
      simp only [stream, hq, List.length_cons]
      omega

lemma mem_left_of_mem_stream : ∀ {fuel : Nat} {m : Merger α}, m.Fair →
    ∀ {x : Sourced α}, x ∈ stream fuel m → x ∈ m.left x.partition
  | 0, _, _, x, hx => by simp [stream] at hx
  | fuel + 1, m, hm, x, hx => by
    cases hq : m.queue with
    | nil => simp [stream, hq] at hx
    | cons first rest =>
      obtain ⟨hm', hleft, -⟩ := taken_spec hm hq
      simp only [stream, hq, List.mem_cons] at hx
      rw [hleft]
      rcases hx with rfl | hx
      · simp
      · have ih := mem_left_of_mem_stream hm' hx
        split
        · exact List.mem_cons_of_mem _ ih
        · exact ih

/-- The first waiting tick may stand before everything that is left, if every partition is in
order. -/
lemma first_comesBy {m : Merger α} (hm : m.Fair)
    (hsorted : ∀ p, (m.left p).Pairwise fun a b => a.comesBy b = true)
    {first : Sourced α} {rest : List (Sourced α)} (hq : m.queue = first :: rest)
    {p : Nat} {x : Sourced α} (hx : x ∈ m.left p) : first.comesBy x = true := by
  cases hl : m.left p with
  | nil => simp [hl] at hx
  | cons y ys =>
    have hy : y ∈ m.queue := by
      have hnext := hm.next_waits p
      rw [hl, List.take_succ_cons, List.take_zero] at hnext
      exact List.mem_of_mem_filter (hnext ▸ List.mem_singleton_self y)
    have hfirst : first.comesBy y = true := by
      rw [hq] at hy
      rcases List.mem_cons.mp hy with rfl | hy
      · exact Sourced.comesBy_refl y
      · have hord := hm.ordered
        rw [hq] at hord
        exact List.rel_of_pairwise_cons hord hy
    have hp := hsorted p
    rw [hl] at hx hp
    rcases List.mem_cons.mp hx with rfl | hx
    · exact hfirst
    · exact Sourced.comesBy_trans _ _ _ hfirst (List.rel_of_pairwise_cons hp hx)

/-- From partitions in order a merge hands out a stream in order. -/
theorem pairwise_stream : ∀ {fuel : Nat} {m : Merger α}, m.Fair →
    (∀ p, (m.left p).Pairwise fun a b => a.comesBy b = true) →
      (stream fuel m).Pairwise fun a b => a.comesBy b = true
  | 0, _, _, _ => List.Pairwise.nil
  | fuel + 1, m, hm, hsorted => by
    cases hq : m.queue with
    | nil => simp [stream, hq]
    | cons first rest =>
      obtain ⟨hm', hleft, -⟩ := taken_spec hm hq
      have hsub : ∀ p, ((m.taken first rest).left p).Sublist (m.left p) := by
        intro p
        rw [hleft p]
        split
        · exact List.sublist_cons_self _ _
        · exact List.Sublist.refl _
      simp only [stream, hq]
      refine List.pairwise_cons.mpr ⟨fun x hx => ?_, ?_⟩
      · have hx' := (hsub x.partition).subset (mem_left_of_mem_stream hm' hx)
        exact first_comesBy hm hsorted hq hx'
      · exact pairwise_stream hm' fun p => (hsorted p).sublist (hsub p)

/-! ### The cap -/

/-- How many more ticks the cap lets through. -/
def room (m : Merger α) : Option Nat := m.cap.map (· - m.emitted)

lemma room_taken (m : Merger α) (first : Sourced α) (rest : List (Sourced α)) :
    (m.taken first rest).room = m.cap.map (· - (m.emitted + 1)) := by
  simp [room, taken]

/-- Taking tick after tick gives what an uncapped merge would hand out, up to the cap; the last try
notices whether the cap cut something off. -/
theorem drain_eq : ∀ {fuel : Nat} {m : Merger α}, m.earlyStop = false →
    (stream fuel m).length < fuel →
      (drain fuel m).2 = (capped m.room (stream fuel m)).1.map (·.tick) ∧
        (drain fuel m).1.earlyStop = (capped m.room (stream fuel m)).2
  | 0, _, _, h => absurd h (Nat.not_lt_zero _)
  | fuel + 1, m, hstop, h => by
    by_cases hfull : m.full = true
    · obtain ⟨cap, hcap⟩ : ∃ cap, m.cap = some cap := by
        cases hc : m.cap with
        | none => simp [full, hc] at hfull
        | some cap => exact ⟨cap, rfl⟩
      have hroom : m.room = some 0 := by
        simp only [full, hcap, decide_eq_true_eq] at hfull
        simp [room, hcap, Nat.sub_eq_zero_of_le hfull]
      cases hq : m.queue with
      | nil => simp [drain, next, hfull, hstop, hq, hroom, capped, stream]
      | cons first rest => simp [drain, next, hfull, hq, hroom, capped, stream]
    · cases hq : m.queue with
      | nil => cases m.room <;> simp [drain, next, hfull, hstop, hq, capped, stream]
      | cons first rest =>
        have hnext : m.next = (m.taken first rest, some first.tick) := by
          simp [next, hfull, hq, taken]
        have hstop' : (m.taken first rest).earlyStop = false := by simp [taken, hstop]
        have hlen : (stream fuel (m.taken first rest)).length < fuel := by
          simp only [stream, hq, List.length_cons] at h
          omega
        obtain ⟨ihticks, ihstop⟩ := drain_eq hstop' hlen
        have hdrain : drain (fuel + 1) m = ((drain fuel (m.taken first rest)).1,
            first.tick :: (drain fuel (m.taken first rest)).2) := by
          simp [drain, hnext]
        have hstream : stream (fuel + 1) m = first :: stream fuel (m.taken first rest) := by
          simp [stream, hq]
        rw [hdrain, hstream, ihticks, ihstop, room_taken]
        cases hc : m.cap with
        | none => simp [capped, room, hc]
        | some cap =>
          simp only [full, hc, decide_eq_true_eq] at hfull
          obtain ⟨k, hk⟩ : ∃ k, cap - m.emitted = k + 1 := ⟨cap - m.emitted - 1, by omega⟩
          have hk' : cap - (m.emitted + 1) = k := by omega
          simp [capped, room, hc, hk, hk']

end Merger

/-! ## Sorting -/

lemma filter_zipIdx_flatMap (p : Nat) : ∀ (partitions : List (List (Tick α))) (k : Nat),
    ((partitions.zipIdx k).flatMap fun (ticks, partition) =>
      ticks.map fun tick => (⟨partition, tick⟩ : Sourced α)).filter (·.partition == p) =
        if k ≤ p then ((partitions[p - k]?).getD []).map (⟨p, ·⟩) else []
  | [], k => by simp
  | ticks :: rest, k => by
    have ih := filter_zipIdx_flatMap p rest (k + 1)
    rw [List.zipIdx_cons, List.flatMap_cons, List.filter_append, ih]
    rcases Nat.lt_trichotomy k p with hk | hk | hk
    · have hne : (k == p) = false := by simpa using Nat.ne_of_lt hk
      obtain ⟨j, hj⟩ : ∃ j, p - k = j + 1 := ⟨p - k - 1, by omega⟩
      have hj' : p - (k + 1) = j := by omega
      simp [List.filter_map, Function.comp_def, hne, hj, hj', Nat.le_of_lt hk,
        Nat.succ_le_of_lt hk]
    · subst hk
      simp [List.filter_map, Function.comp_def]
    · have hne : (k == p) = false := by simpa using Nat.ne_of_gt hk
      simp [List.filter_map, Function.comp_def, hne, Nat.not_le_of_gt hk,
        Nat.not_le_of_gt (Nat.lt_succ_of_lt hk)]

/-- The ticks that come from a partition are the ticks of that partition. -/
lemma filter_sourced (partitions : List (List (Tick α))) (p : Nat) :
    (sourced partitions).filter (·.partition == p) =
      ((partitions[p]?).getD []).map (⟨p, ·⟩) := by
  rw [sourced, filter_zipIdx_flatMap, if_pos (Nat.zero_le p), Nat.sub_zero]

/-- The ticks of a partition in order, with its number. -/
lemma pairwise_partition {partitions : List (List (Tick α))}
    (h : ∀ ticks ∈ partitions, Tick.inOrder ticks = true) (p : Nat) :
    (((partitions[p]?).getD []).map (⟨p, ·⟩ : Tick α → Sourced α)).Pairwise
      fun a b => a.comesBy b = true := by
  rw [List.pairwise_map]
  simp only [Sourced.comesBy_same]
  cases hp : partitions[p]? with
  | none => exact List.Pairwise.nil
  | some ticks => exact Tick.pairwise_of_inOrder (h ticks (List.mem_of_getElem? hp))

/-- Sorting keeps the ticks of a partition that is in order as they are. -/
lemma filter_mergeSort_sourced {partitions : List (List (Tick α))}
    (h : ∀ ticks ∈ partitions, Tick.inOrder ticks = true) (p : Nat) :
    ((sourced partitions).mergeSort Sourced.comesBy).filter (·.partition == p) =
      ((partitions[p]?).getD []).map (⟨p, ·⟩) := by
  have hpart := pairwise_partition h p
  rw [← filter_sourced] at hpart ⊢
  exact filter_mergeSort Sourced.comesBy_trans Sourced.comesBy_total hpart

lemma pairwise_mergeSort_sourced (partitions : List (List (Tick α))) :
    ((sourced partitions).mergeSort Sourced.comesBy).Pairwise fun a b => a.comesBy b = true :=
  List.pairwise_mergeSort Sourced.comesBy_trans Sourced.comesBy_total _

/-! ## The two ways agree -/

/-- What the queue hands out is what sorting gives. -/
lemma stream_eq_mergeSort {partitions : List (List (Tick α))}
    (h : ∀ ticks ∈ partitions, Tick.inOrder ticks = true) (cap : Option Nat) :
    Merger.stream (partitions.flatten.length + 1) (Merger.start partitions cap) =
      (sourced partitions).mergeSort Sourced.comesBy := by
  obtain ⟨hfair, hleft, hrem, -⟩ := Merger.start_spec partitions cap
  refine Sourced.eq_of_filter_eq (Merger.pairwise_stream hfair fun p => ?_)
    (pairwise_mergeSort_sourced partitions) fun p => ?_
  · rw [hleft p]
    exact pairwise_partition h p
  · rw [Merger.filter_stream hfair (by omega) p, hleft p, filter_mergeSort_sourced h p]

lemma mergeByQueue_eq {partitions : List (List (Tick α))}
    (h : ∀ ticks ∈ partitions, Tick.inOrder ticks = true) (cap : Option Nat) :
    mergeByQueue partitions cap = mergeBySorting partitions cap := by
  obtain ⟨hfair, -, hrem, hcap, hemitted, hstop⟩ := Merger.start_spec partitions cap
  have hlen : (Merger.stream (partitions.flatten.length + 1)
      (Merger.start partitions cap)).length < partitions.flatten.length + 1 := by
    rw [Nat.lt_succ_iff, ← hrem]
    exact Merger.length_stream_le hfair
  obtain ⟨hticks, hearly⟩ := Merger.drain_eq hstop hlen
  have hroom : (Merger.start partitions cap).room = cap := by
    cases cap <;> simp [Merger.room, hcap, hemitted]
  rw [stream_eq_mergeSort h cap, hroom] at hticks hearly
  simp only [mergeByQueue, mergeBySorting, hticks, hearly]

/-- Taking ticks from the queue and sorting them give the same stream and notice the same cut, if
every partition is in order.  Without a cap the stream holds every tick once, in the order of time,
instrument and partition, and the ticks of a partition follow each other as they did there. -/
theorem mergeByQueue_eq_mergeBySorting {partitions : List (List (Tick α))}
    (h : ∀ ticks ∈ partitions, Tick.inOrder ticks = true) :
    (∀ cap, mergeByQueue partitions cap = mergeBySorting partitions cap) ∧
      ∃ stream : List (Sourced α),
        (mergeByQueue partitions none).ticks = stream.map (·.tick) ∧
          stream.Perm (sourced partitions) ∧
          (stream.Pairwise fun a b => a.comesBy b = true) ∧
          ∀ p ticks, partitions[p]? = some ticks →
            (stream.filter (·.partition == p)).map (·.tick) = ticks := by
  refine ⟨mergeByQueue_eq h, (sourced partitions).mergeSort Sourced.comesBy, ?_,
    List.mergeSort_perm _ _, pairwise_mergeSort_sourced partitions, fun p ticks hp => ?_⟩
  · rw [mergeByQueue_eq h]
    rfl
  · rw [filter_mergeSort_sourced h p, hp]
    simp [List.map_map, Function.comp_def]

/-- Ticks that tie across partitions and inside one of them, and a partition without ticks. -/
def tiedPartitions : List (List (Tick Int)) :=
  [[⟨"rb2405", 1, 100, 0, 0, 0, 0, 0⟩, ⟨"rb2405", 3, 101, 0, 0, 0, 0, 0⟩,
      ⟨"rb2405", 3, 102, 0, 0, 0, 0, 0⟩],
    [],
    [⟨"ag2406", 1, 103, 0, 0, 0, 0, 0⟩, ⟨"rb2405", 3, 104, 0, 0, 0, 0, 0⟩,
      ⟨"zn2407", 3, 105, 0, 0, 0, 0, 0⟩]]

/-- Both ways agree on the tied partitions, and a cap of four cuts something off. -/
theorem merge_tiedPartitions :
    (∀ ticks ∈ tiedPartitions, Tick.inOrder ticks = true) ∧
      (∀ cap, mergeByQueue tiedPartitions cap = mergeBySorting tiedPartitions cap) ∧
      (mergeByQueue tiedPartitions (some 4)).ticks.map (·.last) = [103, 100, 101, 102] ∧
      (mergeByQueue tiedPartitions (some 4)).earlyStop = true :=
  ⟨by decide, (mergeByQueue_eq_mergeBySorting (by decide)).1, by decide, by decide⟩

end MarketTape
