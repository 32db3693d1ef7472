import Mathlib.Tactic.Common
import MarketTape.Regime.Detection

/-!
# One detector for many instruments

A detector of regimes sees the bars of all instruments, in whichever order they are mixed, and keeps
a window for each instrument.  What it says about an instrument depends on the bars of that
instrument only: it is what the window of the instrument says when it is fed these bars and no
others.

Between two positive closes there is a return, so that an instrument with positive closes has one
return less than bars.  The window of returns is then full, and the market no longer warming up,
exactly after as many bars as the window is long.

* `Detector.describe` runs a detector over bars, and `InstrumentWindow.follow` runs the window of an
  instrument over its bars.  `RegimeDetector.filter_describe` says that the one contains the other.
* `InstrumentWindow.Warmed` is what is known of the window after some bars with positive closes,
  `InstrumentWindow.Warmed.observe` is the lemma about a bar, and
  `InstrumentWindow.Warmed.warmup_iff` is that about all bars.
* `instruments_apart` is the result.
-/

namespace MarketTape

variable {α : Type}

namespace Detector

/-- Runs a detector over bars, up to the first bar that it refuses, and gives each bar with the
market after it. -/
def describe (d : Detector α) : d.State → List (Bar α) → List (Bar α × MarketState α)
  | _, [] => []
  | memory, bar :: rest =>
    match d.observe memory bar with
    | none => []
    | some (memory, state) => (bar, state) :: d.describe memory rest

variable {d : Detector α} {memory memory' : d.State} {bar : Bar α} {state : MarketState α}

lemma describe_taken (h : d.observe memory bar = some (memory', state)) (rest : List (Bar α)) :
    d.describe memory (bar :: rest) = (bar, state) :: d.describe memory' rest := by
  rw [describe, h]

lemma describe_refused (h : d.observe memory bar = none) (rest : List (Bar α)) :
    d.describe memory (bar :: rest) = [] := by
  rw [describe, h]

end Detector

variable [AnalyticScalar α]

/-! ## The window of an instrument -/

namespace RollingReturns

variable {r : RollingReturns α} {price : α}

lemma window_makeRoom (r : RollingReturns α) : r.makeRoom.window = r.window := by
  unfold makeRoom
  split
  · split <;> rfl
  · rfl

/-- Room is made by dropping the oldest return. -/
lemma returns_makeRoom (r : RollingReturns α) : r.makeRoom.returns =
    if r.window ≤ r.returns.length then r.returns.drop 1 else r.returns := by
  unfold makeRoom
  split
  · split
    · next hnil => rw [hnil, List.drop_nil]
    · next oldest rest hcons => rw [hcons, List.drop_one, List.tail_cons]
  · rfl

/-- A return that is taken makes the window longer, until it is full. -/
lemma count_addReturn (hwindow : 0 < r.window) (hcount : r.count ≤ r.window) (x : α) :
    (r.addReturn x).count = min r.window (r.count + 1) := by
  have hreturns : (r.addReturn x).returns = r.makeRoom.returns ++ [x] := rfl
  rw [count] at hcount
  rw [count, count, hreturns, returns_makeRoom, List.length_append, List.length_singleton]
  split
  · rw [List.length_drop]
    omega
  · omega

lemma previous_addPrice (r : RollingReturns α) (price : α) :
    (r.addPrice price).1.previous = some price := rfl

lemma window_addPrice (r : RollingReturns α) (price : α) :
    (r.addPrice price).1.window = r.window := by
  unfold addPrice
  dsimp only
  split
  · exact window_makeRoom r
  · rfl

/-- The first price gives no return. -/
lemma count_addPrice_first (hfirst : r.previous = none) (price : α) :
    (r.addPrice price).1.count = r.count := by
  unfold addPrice
  rw [hfirst]
  rfl

/-- A positive price after a positive price gives a return. -/
lemma count_addPrice_next {before : α} (hbefore : r.previous = some before)
    (hpos : Scalar.zero < before) (hprice : Scalar.zero < price) (hwindow : 0 < r.window)
    (hcount : r.count ≤ r.window) :
    (r.addPrice price).1.count = min r.window (r.count + 1) := by
  have hreturn : returnOf? r.previous price = some (AnalyticScalar.ln (price / before)) := by
    rw [hbefore, returnOf?, if_pos ⟨hpos, hprice⟩]
  unfold addPrice
  rw [hreturn]
  exact count_addReturn hwindow hcount _

end RollingReturns

/-- Only a window that is not full is warming up. -/
lemma DetectorTerms.classify_eq_warmup_iff {t : DetectorTerms α} {ready : Bool}
    {volatility trend : α} : t.classify ready volatility trend = .warmup ↔ ready = false := by
  unfold classify
  split_ifs <;> simp_all

namespace InstrumentWindow

variable {t : DetectorTerms α} {w : InstrumentWindow α} {seen : Nat} {bar : Bar α}

/-- Runs the window of an instrument over bars, and gives each bar with the market after it. -/
def follow (t : DetectorTerms α) : InstrumentWindow α → List (Bar α) →
    List (Bar α × MarketState α)
  | _, [] => []
  | w, bar :: rest => (bar, (w.observe t bar).2) :: follow t (w.observe t bar).1 rest

/-- What is known of a window after some bars with positive closes: it holds one return less than
bars were seen, unless it is full. -/
structure Warmed (t : DetectorTerms α) (seen : Nat) (w : InstrumentWindow α) : Prop where
  window : w.returns.window = t.window
  count : w.returns.count = min t.window (seen - 1)
  first : seen = 0 → w.returns.previous = none
  next : 0 < seen → ∃ before, w.returns.previous = some before ∧ Scalar.zero < before

lemma warmed_start (h : start? t = some w) : Warmed t 0 w := by
  obtain ⟨r, hr, rfl⟩ := Option.map_eq_some_iff.mp h
  unfold RollingReturns.start? at hr
  split_ifs at hr
  obtain rfl := Option.some.inj hr
  exact ⟨rfl, (Nat.min_zero _).symm, fun _ => rfl, fun hpos => absurd hpos (Nat.lt_irrefl 0)⟩

/-- A further bar with a positive close. -/
lemma Warmed.observe (h : Warmed t seen w) (hwindow : 0 < t.window)
    (hclose : Scalar.zero < bar.close) : Warmed t (seen + 1) (w.observe t bar).1 := by
  have hcount : (w.returns.addPrice bar.close).1.count = min t.window seen := by
    rcases Nat.eq_zero_or_pos seen with hzero | hpos
    · rw [RollingReturns.count_addPrice_first (h.first hzero), h.count, hzero]
    · obtain ⟨before, hbefore, hpositive⟩ := h.next hpos
      have hroom : w.returns.count ≤ w.returns.window := by
        rw [h.count, h.window]
        exact Nat.min_le_left _ _
      rw [RollingReturns.count_addPrice_next hbefore hpositive hclose (h.window ▸ hwindow) hroom,
        h.count, h.window]
      omega
  exact ⟨(RollingReturns.window_addPrice _ _).trans h.window, hcount,
    fun hzero => absurd hzero (Nat.succ_ne_zero seen),
    fun _ => ⟨bar.close, RollingReturns.previous_addPrice _ _, hclose⟩⟩

/-- The market is warming up as long as fewer bars were seen than the window is long. -/
lemma Warmed.regime_eq_warmup_iff (h : Warmed t (seen + 1) (w.observe t bar).1) :
    (w.observe t bar).2.regime = .warmup ↔ seen < t.window := by
  have hready : (w.observe t bar).2.regime = .warmup ↔
      (w.observe t bar).1.returns.isReady = false := DetectorTerms.classify_eq_warmup_iff
  rw [hready, RollingReturns.isReady, decide_eq_false_iff_not, h.window, h.count]
  omega

/-- The market of an instrument with positive closes is warming up for as many bars as the window is
long, and never again. -/
theorem Warmed.warmup_iff (hwindow : 0 < t.window) : ∀ {bars : List (Bar α)} {seen : Nat}
    {w : InstrumentWindow α}, Warmed t seen w → (∀ bar ∈ bars, Scalar.zero < bar.close) →
    ∀ {k : Nat} {bar : Bar α} {state : MarketState α}, (follow t w bars)[k]? = some (bar, state) →
      (state.regime = .warmup ↔ seen + k < t.window)
  | first :: rest, seen, w, h, hbars, k, bar, state, hk => by
    rw [List.forall_mem_cons] at hbars
    have hnext := h.observe hwindow hbars.1
    cases k with
    | zero =>
      obtain ⟨rfl, rfl⟩ := Prod.mk.inj (Option.some.inj hk)
      exact hnext.regime_eq_warmup_iff
    | succ k =>
      rw [warmup_iff hwindow hnext hbars.2 hk]
      omega

end InstrumentWindow

/-! ## The windows of all instruments -/

namespace RegimeDetector

open InstrumentWindow

variable {t : DetectorTerms α} {windows : Table (InstrumentWindow α)} {w : InstrumentWindow α}
  {instrument : String} {bar : Bar α}

lemma of?_insert (name : String) (w : InstrumentWindow α) :
    of? t (windows.insert name w) instrument =
      if instrument = name then some w else of? t windows instrument := by
  unfold of?
  rw [Table.get?_insert]
  split_ifs <;> rfl

/-- Where windows can be set aside, every instrument has one. -/
lemma exists_of? (hfits : RollingReturns.Fits t.window) (windows : Table (InstrumentWindow α))
    (instrument : String) : ∃ w, of? t windows instrument = some w := by
  unfold of?
  cases windows.get? instrument with
  | some w => exact ⟨w, rfl⟩
  | none => exact ⟨_, by rw [start?, RollingReturns.start?, if_pos hfits, Option.map_some]⟩

lemma describe_cons (h : of? t windows bar.instrument = some w) (rest : List (Bar α)) :
    (regimeDetector t).describe windows (bar :: rest) = (bar, (w.observe t bar).2) ::
      (regimeDetector t).describe (windows.insert bar.instrument (w.observe t bar).1) rest := by
  refine Detector.describe_taken ?_ rest
  simp only [regimeDetector, h, Option.map_some]

/-- Where windows can be set aside, no bar is refused. -/
lemma map_fst_describe (hfits : RollingReturns.Fits t.window) : ∀ (bars : List (Bar α))
    (windows : Table (InstrumentWindow α)),
    ((regimeDetector t).describe windows bars).map Prod.fst = bars
  | [], _ => rfl
  | bar :: rest, windows => by
    obtain ⟨w, hw⟩ := exists_of? hfits windows bar.instrument
    rw [describe_cons hw, List.map_cons, map_fst_describe hfits rest]

/-- Where they cannot, the first bar is. -/
lemma describe_of_not_fits (hfits : ¬ RollingReturns.Fits t.window) (bars : List (Bar α)) :
    (regimeDetector t).describe (regimeDetector t).start bars = [] := by
  cases bars with
  | nil => rfl
  | cons bar rest =>
    have hnone : start? t = none := by rw [start?, RollingReturns.start?, if_neg hfits]; rfl
    refine Detector.describe_refused ?_ rest
    simp only [regimeDetector, of?, Table.get?_empty, hnone, Option.map_none]

/-- What a detector says about an instrument is what the window of the instrument says about its
bars. -/
theorem filter_describe (hfits : RollingReturns.Fits t.window) : ∀ {bars : List (Bar α)}
    {windows : Table (InstrumentWindow α)} {w : InstrumentWindow α},
    of? t windows instrument = some w →
    ((regimeDetector t).describe windows bars).filter (·.1.instrument = instrument) =
      follow t w (bars.filter (·.instrument = instrument))
  | [], _, _, _ => rfl
  | bar :: rest, windows, w, hw => by
    obtain ⟨own, hown⟩ := exists_of? hfits windows bar.instrument
    rw [describe_cons hown, List.filter_cons, List.filter_cons]
    by_cases hsame : bar.instrument = instrument
    · obtain rfl : own = w := by
        rw [hsame, hw] at hown
        exact (Option.some.inj hown).symm
      have hnext : of? t (windows.insert bar.instrument (own.observe t bar).1) instrument =
          some (own.observe t bar).1 := by rw [of?_insert, if_pos hsame.symm]
      rw [if_pos (decide_eq_true hsame), if_pos (decide_eq_true hsame), follow,
        filter_describe hfits hnext]
    · have hnext : of? t (windows.insert bar.instrument (own.observe t bar).1) instrument =
          some w := by rw [of?_insert, if_neg (Ne.symm hsame), hw]
      rw [if_neg (by simpa using hsame), if_neg (by simpa using hsame),
        filter_describe hfits hnext]

/-- A detector that is fed the bars of one instrument only is the window of that instrument. -/
lemma describe_own (hfits : RollingReturns.Fits t.window) {bars : List (Bar α)}
    (hw : of? t windows instrument = some w) (hbars : ∀ bar ∈ bars, bar.instrument = instrument) :
    (regimeDetector t).describe windows bars = follow t w bars := by
  have hown : bars.filter (·.instrument = instrument) = bars :=
    List.filter_eq_self.mpr fun bar hbar => decide_eq_true (hbars bar hbar)
  have hall : ((regimeDetector t).describe windows bars).filter (·.1.instrument = instrument) =
      (regimeDetector t).describe windows bars := by
    refine List.filter_eq_self.mpr fun pair hpair => decide_eq_true (hbars pair.1 ?_)
    rw [← map_fst_describe hfits bars windows]
    exact List.mem_map_of_mem hpair
  rw [← hall, filter_describe hfits hw, hown]

end RegimeDetector

/-- **Instruments are described apart.**  Let a detector that can be built be fed any bars, those of
all instruments mixed.  What it says about the bars of one instrument is, bar by bar, what a fresh
detector on the same terms says that is fed these bars alone.  No bar is refused, unless windows are
too large to be set aside, and then the first one is.  If all closes of the instrument are positive,
its market is warming up for as many bars as the window is long and never again. -/
theorem instruments_apart (t : DetectorTerms α) (ht : t.Admissible) (bars : List (Bar α))
    (instrument : String) :
    let described := (regimeDetector t).describe (regimeDetector t).start bars
    let own := bars.filter (·.instrument = instrument)
    described.filter (·.1.instrument = instrument) =
        (regimeDetector t).describe (regimeDetector t).start own ∧
      described.map Prod.fst = (if RollingReturns.Fits t.window then bars else []) ∧
      ((∀ bar ∈ own, Scalar.zero < bar.close) →
        ∀ k bar state, (described.filter (·.1.instrument = instrument))[k]? = some (bar, state) →
          (state.regime = .warmup ↔ k < t.window)) := by
  intro described own
  by_cases hfits : RollingReturns.Fits t.window
  · obtain ⟨w, hw⟩ := RegimeDetector.exists_of? hfits Table.empty instrument
    have hstart : InstrumentWindow.start? t = some w := hw
    have hmixed : described.filter (·.1.instrument = instrument) = w.follow t own :=
      RegimeDetector.filter_describe hfits hw
    have hown : ∀ bar ∈ own, bar.instrument = instrument := by
      intro bar hbar
      exact of_decide_eq_true (List.mem_filter.mp hbar).2
    refine ⟨?_, ?_, fun hclose k bar state hk => ?_⟩
    · rw [hmixed]
      exact (RegimeDetector.describe_own hfits hw hown).symm
    · rw [if_pos hfits]
      exact RegimeDetector.map_fst_describe hfits bars _
    · rw [hmixed] at hk
      have hwindow : 0 < t.window := Nat.lt_of_lt_of_le Nat.two_pos ht.1
      rw [(InstrumentWindow.warmed_start hstart).warmup_iff hwindow hclose hk, Nat.zero_add]
  · have hnone : described = [] := RegimeDetector.describe_of_not_fits hfits bars
    have hnone' := RegimeDetector.describe_of_not_fits hfits own
    rw [hnone, if_neg hfits]
    exact ⟨hnone'.symm, rfl, fun _ k bar state hk => by cases hk⟩

/-- A bar of one price. -/
def flatBar (instrument : String) (bucket : Int) (price : Float) : Bar Float :=
  ⟨instrument, bucket, 60 * bucket, 60 * bucket, price, price, price, price, 10, 1, price, price,
    30, 10⟩

/-- Bars of two instruments, mixed. -/
def mixedBars : List (Bar Float) :=
  [flatBar "rb2405" 0 100, flatBar "ag2406" 0 5000, flatBar "rb2405" 1 101, flatBar "ag2406" 1 5100,
    flatBar "rb2405" 2 102]

/-- Terms with the shortest window. -/
def briefTerms : DetectorTerms Float := ⟨2, 2, 0.05⟩

/-- All bars are described, those of the first instrument as if they were alone, and only the last
one of these is past the warm-up. -/
theorem instruments_apart_mixedBars :
    let described := (regimeDetector briefTerms).describe (regimeDetector briefTerms).start mixedBars
    let own := described.filter (·.1.instrument = "rb2405")
    briefTerms.Admissible ∧ described.map Prod.fst = mixedBars ∧ own.length = 3 ∧
      own = (regimeDetector briefTerms).describe (regimeDetector briefTerms).start
        [flatBar "rb2405" 0 100, flatBar "rb2405" 1 101, flatBar "rb2405" 2 102] ∧
      ∀ k bar state, own[k]? = some (bar, state) → (state.regime = .warmup ↔ k < 2) := by
  have hterms : briefTerms.Admissible := by decide +kernel
  have hown : mixedBars.filter (·.instrument = "rb2405") =
      [flatBar "rb2405" 0 100, flatBar "rb2405" 1 101, flatBar "rb2405" 2 102] := by
    decide +kernel
  have hclose : ∀ bar ∈ mixedBars.filter (·.instrument = "rb2405"), Scalar.zero < bar.close := by
    decide +kernel
  obtain ⟨hapart, hall, hwarmup⟩ := instruments_apart briefTerms hterms mixedBars "rb2405"
  rw [if_pos (by decide)] at hall
  refine ⟨hterms, hall, ?_, hown ▸ hapart, hwarmup hclose⟩
  have hbars := congrArg (List.filter (·.instrument = "rb2405")) hall
  rw [List.filter_map, hown] at hbars
  have hlength := congrArg List.length hbars
  rw [List.length_map] at hlength
  exact hlength

end MarketTape
