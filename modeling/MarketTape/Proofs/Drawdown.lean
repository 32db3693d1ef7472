import Mathlib.Data.List.Induction
import Mathlib.Order.Bounds.Basic
import MarketTape.Equity
import MarketTape.Proofs.Exact

/-!
# Drawdowns

The equity curve is kept in one pass, by the highest profit and the largest drawdown so far.  Where
numbers are ordered and subtracted without rounding, this is the same as looking back over all of
it: a drawdown is the largest fall to a point from any point before it, and the largest drawdown is
the largest fall from any point to any later one.  The curve begins at nothing before its first
point, so that a loss from the start counts as a fall.

* `Scalar.ExactlyOrdered` are the laws that are needed of the numbers.
* `EquityCurve.ofReadings` is the curve of recorded profits, and `EquityCurve.level` are the profits
  themselves, with the nothing before them.
* `EquityCurve.Tracks` is the invariant of the pass, `EquityCurve.Tracks.record` the lemma about a
  point, and `EquityCurve.tracks_ofReadings` that about all points.
* `drawdown_looks_back` is the result.
-/

namespace MarketTape

/-! ## The curve and its past -/

namespace EquityCurve

variable {α : Type} [Scalar α]

/-- The curve of profits, each recorded with the time of its bar. -/
def ofReadings (readings : List (Int × α)) : EquityCurve α :=
  readings.foldl (fun c reading => c.record reading.1 reading.2) start

/-- The profits of a curve by their numbers; number zero is the nothing that it begins at. -/
def level (readings : List (Int × α)) (i : Nat) : α :=
  ((Scalar.zero :: readings.map Prod.snd)[i]?).getD Scalar.zero

/-- The profits up to a number. -/
def levelsTo (readings : List (Int × α)) (j : Nat) : Set α := {e | ∃ i ≤ j, e = level readings i}

/-- The falls to a point, from every point before it and from itself. -/
def fallsTo (readings : List (Int × α)) (j : Nat) : Set α :=
  {fall | ∃ i ≤ j, fall = level readings i - level readings j}

/-- The falls to all points up to a number. -/
def fallsUpTo (readings : List (Int × α)) (n : Nat) : Set α :=
  {fall | ∃ j ≤ n, ∃ i ≤ j, fall = level readings i - level readings j}

variable {readings : List (Int × α)} {time : Int} {equity : α} {i j : Nat}

lemma level_append (more : List (Int × α)) (hi : i ≤ readings.length) :
    level (readings ++ more) i = level readings i := by
  have hi' : i < (Scalar.zero :: readings.map Prod.snd).length := by
    rw [List.length_cons, List.length_map]
    omega
  rw [level, level, List.map_append, ← List.cons_append, List.getElem?_append_left hi']

lemma level_concat_self :
    level (readings ++ [(time, equity)]) (readings.length + 1) = equity := by
  simp [level]

lemma levelsTo_append (more : List (Int × α)) (hj : j ≤ readings.length) :
    levelsTo (readings ++ more) j = levelsTo readings j := by
  ext e
  refine exists_congr fun i => and_congr_right fun hi => ?_
  rw [level_append more (hi.trans hj)]

lemma fallsTo_append (more : List (Int × α)) (hj : j ≤ readings.length) :
    fallsTo (readings ++ more) j = fallsTo readings j := by
  ext fall
  refine exists_congr fun i => and_congr_right fun hi => ?_
  rw [level_append more (hi.trans hj), level_append more hj]

lemma fallsUpTo_append (more : List (Int × α)) (hj : j ≤ readings.length) :
    fallsUpTo (readings ++ more) j = fallsUpTo readings j := by
  ext fall
  refine exists_congr fun k => and_congr_right fun hk => ?_
  exact Set.ext_iff.mp (fallsTo_append more (hk.trans hj)) fall

lemma fallsUpTo_mono (readings : List (Int × α)) (hij : i ≤ j) :
    fallsUpTo readings i ⊆ fallsUpTo readings j := by
  rintro fall ⟨k, hk, hfall⟩
  exact ⟨k, hk.trans hij, hfall⟩

lemma levelsTo_succ (readings : List (Int × α)) (j : Nat) :
    levelsTo readings (j + 1) = levelsTo readings j ∪ {level readings (j + 1)} := by
  ext e
  constructor
  · rintro ⟨i, hi, rfl⟩
    rcases Nat.le_succ_iff.mp hi with hi | rfl
    · exact .inl ⟨i, hi, rfl⟩
    · exact .inr rfl
  · rintro (⟨i, hi, rfl⟩ | rfl)
    · exact ⟨i, Nat.le_succ_of_le hi, rfl⟩
    · exact ⟨j + 1, Nat.le_refl _, rfl⟩

lemma fallsUpTo_succ (readings : List (Int × α)) (n : Nat) :
    fallsUpTo readings (n + 1) = fallsUpTo readings n ∪ fallsTo readings (n + 1) := by
  ext fall
  constructor
  · rintro ⟨j, hj, hfall⟩
    rcases Nat.le_succ_iff.mp hj with hj | rfl
    · exact .inl ⟨j, hj, hfall⟩
    · exact .inr hfall
  · rintro (⟨j, hj, hfall⟩ | hfall)
    · exact ⟨j, Nat.le_succ_of_le hj, hfall⟩
    · exact ⟨n + 1, Nat.le_refl _, hfall⟩

lemma fallsTo_eq_image (readings : List (Int × α)) (j : Nat) :
    fallsTo readings j = (· - level readings j) '' levelsTo readings j := by
  ext fall
  constructor
  · rintro ⟨i, hi, rfl⟩
    exact ⟨_, ⟨i, hi, rfl⟩, rfl⟩
  · rintro ⟨_, ⟨i, hi, rfl⟩, rfl⟩
    exact ⟨i, hi, rfl⟩

end EquityCurve

/-! ## Numbers without rounding -/

/-- Numbers in a linear order, with a subtraction that keeps it. -/
class Scalar.ExactlyOrdered (α : Type) [Scalar α] : Prop where
  le_refl (a : α) : a ≤ a
  le_trans {a b c : α} (h : a ≤ b) (h' : b ≤ c) : a ≤ c
  le_antisymm {a b : α} (h : a ≤ b) (h' : b ≤ a) : a = b
  le_total (a b : α) : a ≤ b ∨ b ≤ a
  larger_of_le {a b : α} (h : a ≤ b) : larger a b = b
  larger_of_ge {a b : α} (h : b ≤ a) : larger a b = a
  sub_le_sub {a b : α} (h : a ≤ b) (c : α) : a - c ≤ b - c
  sub_self (a : α) : a - a = zero

/-- Rational numbers are not rounded. -/
instance : Scalar.ExactlyOrdered ℚ where
  le_refl _ := le_rfl
  le_trans := le_trans
  le_antisymm := le_antisymm
  le_total := le_total
  larger_of_le := max_eq_right
  larger_of_ge := max_eq_left
  sub_le_sub h c := sub_le_sub_right h c
  sub_self := sub_self

variable {α : Type} [Scalar α] [Scalar.ExactlyOrdered α]

namespace Scalar

variable {s t : Set α} {a b : α}

lemma isGreatest_singleton (a : α) : IsGreatest {a} a := by
  refine ⟨rfl, ?_⟩
  rintro x rfl
  exact ExactlyOrdered.le_refl x

/-- The greater one of the greatest numbers of two sets is the greatest of both together. -/
lemma isGreatest_larger (ha : IsGreatest s a) (hb : IsGreatest t b) :
    IsGreatest (s ∪ t) (larger a b) := by
  rcases ExactlyOrdered.le_total a b with hab | hba
  · rw [ExactlyOrdered.larger_of_le hab]
    refine ⟨.inr hb.1, ?_⟩
    rintro x (hx | hx)
    · exact ExactlyOrdered.le_trans (ha.2 hx) hab
    · exact hb.2 hx
  · rw [ExactlyOrdered.larger_of_ge hba]
    refine ⟨.inl ha.1, ?_⟩
    rintro x (hx | hx)
    · exact ha.2 hx
    · exact ExactlyOrdered.le_trans (hb.2 hx) hba

/-- The greatest number stays the greatest when the same is taken from all of them. -/
lemma isGreatest_sub (ha : IsGreatest s a) (c : α) : IsGreatest ((· - c) '' s) (a - c) := by
  refine ⟨⟨a, ha.1, rfl⟩, ?_⟩
  rintro _ ⟨x, hx, rfl⟩
  exact ExactlyOrdered.sub_le_sub (ha.2 hx) c

end Scalar

/-! ## The pass -/

namespace EquityCurve

/-- What a curve knows after some profits: the highest of them, the largest fall among them, and for
every point the largest fall to it. -/
structure Tracks (readings : List (Int × α)) (c : EquityCurve α) : Prop where
  size : c.points.size = readings.length
  peak : IsGreatest (levelsTo readings readings.length) c.peak
  worst : IsGreatest (fallsUpTo readings readings.length) c.maxDrawdown
  points : ∀ j point, c.points[j]? = some point →
    point.equity = level readings (j + 1) ∧ IsGreatest (fallsTo readings (j + 1)) point.drawdown

lemma tracks_start : Tracks [] (start : EquityCurve α) where
  size := rfl
  peak := by
    have hlevels : levelsTo ([] : List (Int × α)) 0 = {Scalar.zero} := by
      ext e
      simp [levelsTo, level]
    exact hlevels ▸ Scalar.isGreatest_singleton _
  worst := by
    have hfalls : fallsUpTo ([] : List (Int × α)) 0 = {Scalar.zero} := by
      ext fall
      simp [fallsUpTo, level, Scalar.ExactlyOrdered.sub_self]
    exact hfalls ▸ Scalar.isGreatest_singleton _
  points j point h := by simp [start] at h

/-- A further point: the new profit may be the highest, and the new drawdown the largest. -/
lemma Tracks.record {readings : List (Int × α)} {c : EquityCurve α} (h : c.Tracks readings)
    (time : Int) (equity : α) :
    (c.record time equity).Tracks (readings ++ [(time, equity)]) := by
  have hlength : (readings ++ [(time, equity)]).length = readings.length + 1 := by simp
  have hpeak : IsGreatest (levelsTo (readings ++ [(time, equity)]) (readings.length + 1))
      (Scalar.larger c.peak equity) := by
    rw [levelsTo_succ, levelsTo_append _ (Nat.le_refl _), level_concat_self]
    exact Scalar.isGreatest_larger h.peak (Scalar.isGreatest_singleton equity)
  -- the profit is the same for all falls to it, so that the longest one is from the peak
  have hfall : IsGreatest (fallsTo (readings ++ [(time, equity)]) (readings.length + 1))
      (Scalar.larger c.peak equity - equity) := by
    rw [fallsTo_eq_image, level_concat_self]
    exact Scalar.isGreatest_sub hpeak equity
  refine ⟨?_, ?_, ?_, fun j point hpoint => ?_⟩
  · rw [size_record, h.size, hlength]
  · rw [hlength]
    exact hpeak
  · rw [hlength, fallsUpTo_succ, fallsUpTo_append _ (Nat.le_refl _)]
    exact Scalar.isGreatest_larger h.worst hfall
  · rw [EquityCurve.record, Array.getElem?_push, h.size] at hpoint
    split at hpoint
    · next hj =>
      subst hj
      obtain rfl := Option.some.inj hpoint
      exact ⟨level_concat_self.symm, hfall⟩
    · next hj =>
      obtain ⟨hj', -⟩ := Array.getElem?_eq_some_iff.mp hpoint
      rw [h.size] at hj'
      rw [level_append _ hj', fallsTo_append _ hj']
      exact h.points j point hpoint

/-- The curve knows all of it after any number of points. -/
theorem tracks_ofReadings (readings : List (Int × α)) : (ofReadings readings).Tracks readings := by
  induction readings using List.reverseRecOn with
  | nil => exact tracks_start
  | append_singleton readings reading ih =>
    obtain ⟨time, equity⟩ := reading
    rw [ofReadings, List.foldl_append]
    exact ih.record time equity

lemma zero_le_fall {readings : List (Int × α)} {j : Nat} {fall : α}
    (h : IsGreatest (fallsTo readings j) fall) : Scalar.zero ≤ fall := by
  have hself : level readings j - level readings j ∈ fallsTo readings j := ⟨j, Nat.le_refl j, rfl⟩
  rw [Scalar.ExactlyOrdered.sub_self] at hself
  exact h.2 hself

/-- **Drawdowns look back.**  Let numbers be ordered and subtracted without rounding, and let any
profits be recorded, beginning at nothing.  Then there is one point for each, and its drawdown is
the largest fall to it from any point before it or from itself, so that it is never negative.  The
largest drawdown of the curve is the largest fall from any point to itself or to any later one, and
it never gets smaller when more points follow. -/
theorem drawdown_looks_back (readings : List (Int × α)) :
    (ofReadings readings).points.size = readings.length ∧
      (∀ j point, (ofReadings readings).points[j]? = some point →
        point.equity = level readings (j + 1) ∧
        IsGreatest {fall | ∃ i ≤ j + 1, fall = level readings i - level readings (j + 1)}
          point.drawdown ∧
        Scalar.zero ≤ point.drawdown) ∧
      IsGreatest {fall | ∃ j ≤ readings.length, ∃ i ≤ j, fall = level readings i - level readings j}
        (ofReadings readings).maxDrawdown ∧
      ∀ more, (ofReadings readings).maxDrawdown ≤ (ofReadings (readings ++ more)).maxDrawdown := by
  have h := tracks_ofReadings readings
  refine ⟨h.size, fun j point hpoint => ?_, h.worst, fun more => ?_⟩
  · obtain ⟨hequity, hfall⟩ := h.points j point hpoint
    exact ⟨hequity, hfall, zero_le_fall hfall⟩
  · have hmore := tracks_ofReadings (readings ++ more)
    have hlength : readings.length ≤ (readings ++ more).length := by
      rw [List.length_append]
      exact Nat.le_add_right _ _
    have hfall : (ofReadings readings).maxDrawdown ∈
        fallsUpTo (readings ++ more) readings.length := by
      rw [fallsUpTo_append more (Nat.le_refl _)]
      exact h.worst.1
    exact hmore.worst.2 (fallsUpTo_mono _ hlength hfall)

/-- Four profits of which the second one is a loss and the third one the highest. -/
def sampleReadings : List (Int × ℚ) := [(1, 100), (2, -50), (3, 200), (4, 120)]

/-- The largest fall is that to the loss. -/
theorem drawdown_looks_back_sampleReadings :
    (ofReadings sampleReadings).maxDrawdown = 150 ∧
      (ofReadings sampleReadings).points.toList.map (·.drawdown) = [0, 150, 0, 80] ∧
      IsGreatest {fall | ∃ j ≤ 4, ∃ i ≤ j, fall = level sampleReadings i - level sampleReadings j}
        150 := by
  obtain ⟨-, -, hworst, -⟩ := drawdown_looks_back sampleReadings
  have hmax : (ofReadings sampleReadings).maxDrawdown = 150 := by decide +kernel
  rw [hmax] at hworst
  exact ⟨hmax, by decide +kernel, hworst⟩

end EquityCurve

end MarketTape
