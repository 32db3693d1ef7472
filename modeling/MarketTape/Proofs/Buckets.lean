import Mathlib.Algebra.Order.Ring.Int
import MarketTape.Proofs.Bars
import MarketTape.Proofs.Building
import MarketTape.Settings.Validation

/-!
# Buckets and the axis of time

Time is cut into buckets of one width, from zero in both directions, and a time stamp has the number
of its bucket wherever it lies.  The start of a bucket is to be a time stamp too.  At the late end
of the axis it always is one, since a bucket starts before the ticks in it.  At the early end the
axis begins in the midst of a bucket, unless its length is a multiple of the width; a tick in what
there is of that bucket has no bar.  Apart from that, a tick is refused only where the open bar has
counted as many ticks as it can.

* `firstStart` is where the first whole bucket starts, and `Tick.datable_iff` says that the ticks
  from there on are those that have a bar.
* `InBucket` says that a time lies in a bucket of some number and start.
* `ticks_in_their_buckets` is the result, and `earliestTick_refused` is a tick in the first part of
  the axis.
-/

namespace MarketTape

variable {α : Type}

open BarCall

/-! ## The first bucket -/

/-- The first time stamp at which a bucket starts. -/
def firstStart (width : Int) : Int := -(-Count.least / width) * width

/-- It starts with the axis if that is cut into whole buckets. -/
lemma firstStart_of_dvd {width : Int} (h : width ∣ Count.least) :
    firstStart width = Count.least := by
  rw [firstStart, Int.neg_mul, Int.ediv_mul_cancel (Int.dvd_neg.mpr h), Int.neg_neg]

section FirstStart

variable {width : Int} (hwidth : 0 < width)

include hwidth

/-- The first bucket starts less than a bucket after the first time stamp. -/
lemma firstStart_bounds :
    Count.least ≤ firstStart width ∧ firstStart width - Count.least < width := by
  have hlow := Int.ediv_mul_le (-Count.least) (Int.ne_of_gt hwidth)
  have hhigh := Int.lt_ediv_add_one_mul_self (-Count.least) hwidth
  rw [Int.add_mul, Int.one_mul] at hhigh
  rw [firstStart, Int.neg_mul]
  omega

/-- A bucket starts at a time stamp if it starts no earlier than the first one that does. -/
lemma Tick.datable_iff {t : Tick α} (ht : Count.Fits t.time) :
    t.Datable width ↔ firstStart width ≤ t.time := by
  have hlast : t.time / width * width ≤ Count.greatest :=
    Int.le_trans (Int.ediv_mul_le _ (Int.ne_of_gt hwidth)) ht.2
  calc t.Datable width
      ↔ Count.least ≤ t.time / width * width := and_iff_left hlast
    _ ↔ -(t.time / width) * width ≤ -Count.least := by rw [Int.neg_mul, Int.neg_le_neg_iff]
    _ ↔ -(t.time / width) ≤ -Count.least / width := (Int.le_ediv_iff_mul_le hwidth).symm
    _ ↔ -(-Count.least / width) ≤ t.time / width := neg_le
    _ ↔ firstStart width ≤ t.time := Int.le_ediv_iff_mul_le hwidth

/-- Every time stamp has the number of its bucket. -/
lemma bucketOf?_of_fits {time : Int} (htime : Count.Fits time) :
    bucketOf? time width = some (time / width) := by
  rw [bucketOf?, Count.quotient?, if_neg (Int.ne_of_gt hwidth)]
  refine Count.fit_eq_some_iff.mpr ⟨?_, rfl⟩
  -- a quotient lies between the number and zero
  rcases le_total 0 time with hlate | hearly
  · have hle : time / width ≤ time := Int.ediv_le_self width hlate
    have hnonneg : 0 ≤ time / width := Int.ediv_nonneg hlate hwidth.le
    exact ⟨Int.le_trans (by decide) hnonneg, hle.trans htime.2⟩
  · have hle : time ≤ time / width := by
      rw [Int.le_ediv_iff_mul_le hwidth]
      exact mul_le_of_one_le_right hearly hwidth
    have hneg : time / width ≤ 0 / width := Int.ediv_le_ediv hwidth hearly
    rw [Int.zero_ediv] at hneg
    exact ⟨htime.1.trans hle, hneg.trans (by decide)⟩

end FirstStart

/-! ## Ticks and bars -/

/-- A time lies in the bucket of some number and start.  Buckets lie side by side from zero on, and
this one starts no later than the time and ends after it. -/
structure InBucket (width bucket start time : Int) : Prop where
  number : bucketOf? time width = some bucket
  start_eq : start = bucket * width
  low : start ≤ time
  high : time - start < width

/-- A tick that has a bar lies in its bucket. -/
lemma Tick.inBucket {width : Int} {t : Tick α} (hwidth : 0 < width) (ht : t.Datable width) :
    InBucket width (t.time / width) (t.time / width * width) t.time where
  number := by
    rw [bucketOf?, Count.quotient?, if_neg (Int.ne_of_gt hwidth)]
    exact Count.fit_eq_some_iff.mpr ⟨fits_of_datable hwidth ht, rfl⟩
  start_eq := rfl
  low := Int.ediv_mul_le _ (Int.ne_of_gt hwidth)
  high := by
    have h := Int.lt_ediv_add_one_mul_self t.time hwidth
    rw [Int.add_mul, Int.one_mul] at h
    omega

/-- The bar of a run has the bucket of every tick in it. -/
lemma inBucket_of_summary? [Scalar α] {width : Int} {calls : List (BarCall α)}
    {run : List (Tick α)} {bar : Bar α} (hwidth : 0 < width) (hrun : run ∈ runs width calls)
    (hbar : Bar.summary? width run = some bar) {t : Tick α} (ht : t ∈ run)
    (hdatable : t.Datable width) : InBucket width bar.bucket bar.start t.time := by
  obtain ⟨first, rest, rfl, hsame⟩ := cell_of_mem_runs hrun
  obtain rfl := Option.some.inj hbar
  have hbucket : t.time / width = first.time / width := (Prod.mk.inj (hsame t ht)).2
  exact hbucket ▸ t.inBucket hwidth hdatable

/-- The tick that was pushed last is in the open bar. -/
lemma Bars.current_after_push [Scalar α] {width : Int} {calls : List (BarCall α)} {t : Tick α}
    (hwidth : 0 < width) (hdatable : t.Datable width) :
    ∃ b, (after width (calls ++ [.push t])).current = some b ∧ b.EndsWith t ∧
      InBucket width b.bucket b.start t.time := by
  rcases openRun_cases width (calls ++ [.push t]) with
    ⟨-, hflush⟩ | ⟨front, first, rest, last, -, hrun, hends, hlast, hcell⟩
  · exact absurd (hflush (.push t) (by simp)) (by simp)
  obtain rfl : t = last := by simpa using hlast
  obtain ⟨hinstrument, hbucket⟩ := Prod.mk.inj hcell
  have hgetLast : rest.getLast?.getD first = t := by
    rw [List.getLast?_cons] at hends
    exact Option.some.inj hends
  refine ⟨OpenBar.ofTicks width first rest, ?_, ?_, ?_⟩
  · rw [after, hrun]
    rfl
  · rw [OpenBar.ofTicks_eq, hgetLast]
    exact ⟨hinstrument.symm, rfl, rfl⟩
  · rw [OpenBar.ofTicks_eq]
    exact hbucket ▸ t.inBucket hwidth hdatable

/-! ## The result -/

/-- **Ticks lie in their buckets.**  The width is one that the settings may have.

* Every time stamp has the number of its bucket, and a later one has no smaller number.
* The first bucket that starts at a time stamp starts less than a bucket after the first time stamp,
  and with it if the axis is cut into whole buckets.
* Whatever was built before, a tick can be taken if and only if it does not lie before that start
  and the open bar, if it takes the tick, has counted fewer than `2 ^ 32 - 1` ticks.  It is then the
  last tick of the open bar and lies in the bucket of that bar.
* The ticks of the closed runs lie in the buckets of their bars. -/
theorem ticks_in_their_buckets [Scalar α] {width : Int} (hwidth : checkBucketWidth width = .ok ()) :
    (∀ a b, Count.Fits a → Count.Fits b → a ≤ b →
      ∃ m n, bucketOf? a width = some m ∧ bucketOf? b width = some n ∧ m ≤ n) ∧
    (Count.least ≤ firstStart width ∧ firstStart width - Count.least < width ∧
      (width ∣ Count.least → firstStart width = Count.least)) ∧
    ∀ (calls : List (BarCall α)) s bars, (Bars.start width).serveAll? calls = some (s, bars) →
      (∀ t : Tick α, Count.Fits t.time →
        ((∃ s' closed, s.push? t = some (s', closed)) ↔
          firstStart width ≤ t.time ∧ ∀ b, s.current = some b →
            b.takes t.instrument (t.time / width) = true → Bar.CountFits (b.tickCount + 1)) ∧
        ∀ s' closed, s.push? t = some (s', closed) →
          ∃ b, s'.current = some b ∧ b.EndsWith t ∧ InBucket width b.bucket b.start t.time) ∧
      List.Forall₂ (fun run bar => ∀ t ∈ run, InBucket width bar.bucket bar.start t.time)
        (closedRuns width calls) bars := by
  have hpos : 0 < width := by
    rw [checkBucketWidth] at hwidth
    split at hwidth
    · cases hwidth
    · omega
  refine ⟨fun a b ha hb hab => ?_, ?_, fun calls s bars h => ?_⟩
  · exact ⟨_, _, bucketOf?_of_fits hpos ha, bucketOf?_of_fits hpos hb, Int.ediv_le_ediv hpos hab⟩
  · obtain ⟨hlow, hhigh⟩ := firstStart_bounds hpos
    exact ⟨hlow, hhigh, firstStart_of_dvd⟩
  · rw [Bars.serveAll?_eq hpos] at h
    obtain ⟨⟨hdatable, -⟩, h⟩ := Option.ite_none_right_eq_some.mp h
    obtain ⟨rfl, rfl⟩ := Prod.mk.inj (Option.some.inj h)
    refine ⟨fun t ht => ?_, ?_⟩
    · obtain ⟨closed, -, hpush⟩ := Bars.push?_after hpos hdatable t
      rw [hpush, ← Tick.datable_iff hpos ht, ← Bars.countFits_openRun_push_iff]
      refine ⟨by simp [ite_eq_iff], fun s' closed' h => ?_⟩
      obtain ⟨⟨hin, -⟩, h⟩ := Option.ite_none_right_eq_some.mp h
      obtain ⟨rfl, -⟩ := Prod.mk.inj (Option.some.inj h)
      exact Bars.current_after_push hpos hin
    · have hruns : ∀ run ∈ closedRuns width calls, run ∈ runs width calls := fun run =>
        mem_runs_of_closedRuns
      have hbars := (List.forall₂_and_left _ _).mpr ⟨hruns, forall₂_summary? hruns⟩
      refine hbars.imp fun run bar ⟨hrun, hbar⟩ t ht => ?_
      have hpushed : t ∈ pushed calls :=
        flatten_runs width calls ▸ List.mem_flatten_of_mem hrun ht
      exact inBucket_of_summary? hpos hrun hbar ht (hdatable t hpushed)

/-! ## The two ends of the first bucket -/

/-- A tick of 2024 with its bar closed, and the minute before 1970. -/
def oldCalls : List (BarCall Float) :=
  [.push ⟨"rb2405", 1704067200000000000, 100, 1, 99, 1, 101, 1⟩, .flush,
    .push ⟨"rb2405", -1, 100, 1, 99, 1, 101, 1⟩]

/-- A tick at a time of choice. -/
def tickAt (time : Int) : Tick Float := ⟨"rb2405", time, 100, 1, 99, 1, 101, 1⟩

/-- With buckets of a minute, the earliest tick that has a bar comes less than a minute after the
first time stamp, and it lies at the start of its bucket. -/
theorem ticks_in_their_buckets_oldCalls :
    checkBucketWidth 60000000000 = .ok () ∧ firstStart 60000000000 = -9223372020000000000 ∧
      ∃ s bars, (Bars.start 60000000000).serveAll? oldCalls = some (s, bars) ∧
        (∃ s' closed b, s.push? (tickAt (-9223372020000000000)) = some (s', closed) ∧
          s'.current = some b ∧
          InBucket 60000000000 b.bucket b.start (-9223372020000000000)) ∧
        s.push? (tickAt (-9223372020000000001)) = none := by
  have hwidth : checkBucketWidth 60000000000 = .ok () := rfl
  have hfirst : firstStart 60000000000 = -9223372020000000000 := by decide
  obtain ⟨-, -, hall⟩ := ticks_in_their_buckets (α := Float) hwidth
  obtain ⟨⟨s, bars⟩, h⟩ : ∃ r, (Bars.start 60000000000).serveAll? oldCalls = some r :=
    Option.isSome_iff_exists.mp (by decide +kernel)
  obtain ⟨hticks, -⟩ := hall oldCalls s bars h
  have hcount : ((Bars.start 60000000000).serveAll? oldCalls).map
      (fun r => r.1.current.map (·.tickCount)) = some (some 1) := by decide +kernel
  rw [h, Option.map_some, Option.some.injEq] at hcount
  have hroom : ∀ b, s.current = some b → Bar.CountFits (b.tickCount + 1) := by
    intro b hb
    rw [hb, Option.map_some, Option.some.injEq] at hcount
    rw [hcount]
    decide
  refine ⟨hwidth, hfirst, s, bars, h, ?_, ?_⟩
  · obtain ⟨htaken, hlies⟩ := hticks (tickAt (-9223372020000000000)) (by decide)
    obtain ⟨s', closed, hpush⟩ := htaken.mpr ⟨hfirst.le, fun b hb _ => hroom b hb⟩
    obtain ⟨b, hb, -, hbucket⟩ := hlies s' closed hpush
    exact ⟨s', closed, b, hpush, hb, hbucket⟩
  · obtain ⟨htaken, -⟩ := hticks (tickAt (-9223372020000000001)) (by decide)
    rw [Option.eq_none_iff_forall_ne_some]
    intro ⟨s', closed⟩ hpush
    have hlate := (htaken.mp ⟨s', closed, hpush⟩).1
    rw [hfirst] at hlate
    exact absurd hlate (by decide)

/-- The first time stamp of all has the number of its bucket, but that bucket starts before the axis
does, and so a tick there cannot be taken, although the settings ask for buckets of a minute. -/
theorem earliestTick_refused :
    checkBucketWidth 60000000000 = .ok () ∧ Count.Fits (tickAt Count.least).time ∧
      bucketOf? Count.least 60000000000 = some (-153722868) ∧
      -153722868 * 60000000000 < Count.least ∧
      (Bars.start 60000000000).push? (tickAt Count.least) = none := by
  refine ⟨rfl, by decide, by decide, by decide, by decide +kernel⟩

end MarketTape
