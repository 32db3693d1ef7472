import MarketTape.Proofs.Pruning

/-!
# Days and time stamps

The range of days of a replay includes its last day, and the window of time stamps does not include
its last time.  One becomes the other by way of the day after the last one and of two midnights, and
each of these steps can fail: the calendar ends, and a midnight may be no time stamp.  Days are
numbered without gaps, so every time stamp lies in exactly one day, also before 1970; and a window
that could be built holds the time stamps of just the days of the range.

* `Date.isAfter_iff` says that the numbers of days are in the order of the calendar, and
  `Date.number_next` that the day after has the next number.
* `Date.Holds` says that a time stamp lies in a day, and `Date.exists_holds` finds the day.
* `DataSettings.window_eq_ok_iff` says when there is a window, and which one.
* `window_is_days` is the result.
-/

namespace MarketTape

/-! ## Years and months -/

/-- The number of days in a year. -/
def yearLength (year : Int) : Nat := if isLeapYear year then 366 else 365

lemma isLeapYear_iff {year : Int} :
    isLeapYear year = true ↔ year % 4 = 0 ∧ (year % 100 ≠ 0 ∨ year % 400 = 0) := by
  simp [isLeapYear]

namespace Date

/-- A year adds its days. -/
lemma daysBeforeYear_succ (year : Int) :
    daysBeforeYear (year + 1) = daysBeforeYear year + yearLength year := by
  unfold daysBeforeYear yearLength
  split
  · rename_i hleap
    rw [isLeapYear_iff] at hleap
    omega
  · rename_i hcommon
    rw [isLeapYear_iff] at hcommon
    omega

lemma daysBeforeYear_le {year later : Int} (h : year ≤ later) :
    daysBeforeYear year ≤ daysBeforeYear later := by
  unfold daysBeforeYear
  omega

/-- A month adds its days. -/
lemma daysBeforeMonth_succ (year : Int) {month : Nat} (hmonth : 1 ≤ month) :
    daysBeforeMonth year (month + 1) = daysBeforeMonth year month + monthLength year month := by
  obtain ⟨k, rfl⟩ := Nat.exists_eq_add_of_le' hmonth
  rfl

lemma daysBeforeMonth_le (year : Int) {month later : Nat} (hmonth : 1 ≤ month)
    (h : month ≤ later) : daysBeforeMonth year month ≤ daysBeforeMonth year later := by
  induction later, h using Nat.le_induction with
  | base => exact Nat.le_refl _
  | succ later hle ih =>
    rw [daysBeforeMonth_succ year (hmonth.trans hle)]
    omega

/-- The months make up the year. -/
lemma daysBeforeMonth_december (year : Int) : daysBeforeMonth year 12 + 31 = yearLength year := by
  simp only [daysBeforeMonth, monthLength, yearLength]
  cases isLeapYear year <;> rfl

/-! ## The order of days -/

/-- A day lies in its month, and the month in its year. -/
lemma day_le_yearLength (d : Date) :
    daysBeforeMonth d.year d.month + d.day ≤ yearLength d.year := by
  obtain ⟨-, -, hmonth, hlast, -, hday⟩ := d.isDay
  rw [← daysBeforeMonth_december]
  rcases Nat.lt_or_ge d.month 12 with hearlier | hdecember
  · have hnext := daysBeforeMonth_le d.year (Nat.le_add_left 1 d.month) hearlier
    rw [daysBeforeMonth_succ d.year hmonth] at hnext
    omega
  · have hlength : monthLength d.year 12 = 31 := rfl
    rw [show d.month = 12 by omega] at hday ⊢
    omega

lemma number_lt_of_isAfter {d e : Date} (h : d.isAfter e = true) : e.number < d.number := by
  obtain ⟨-, -, hmonth, -, -, hday⟩ := e.isDay
  obtain ⟨-, -, -, -, hfirst, -⟩ := d.isDay
  simp only [isAfter, Bool.or_eq_true, Bool.and_eq_true, decide_eq_true_eq, beq_iff_eq] at h
  rcases h with hyear | ⟨hyear, hmonths | ⟨hmonths, hdays⟩⟩
  · have hyears := daysBeforeYear_le (Int.add_one_le_iff.mpr hyear)
    rw [daysBeforeYear_succ] at hyears
    have hinside := e.day_le_yearLength
    simp only [number]
    omega
  · have hbefore := daysBeforeMonth_le e.year (Nat.le_add_left 1 e.month) hmonths
    rw [daysBeforeMonth_succ e.year hmonth] at hbefore
    simp only [number, hyear]
    omega
  · simp only [number, hyear, hmonths]
    omega

/-- Of two days one comes after the other, or they are the same. -/
lemma isAfter_or_eq (d e : Date) : d.isAfter e = true ∨ e.isAfter d = true ∨ d = e := by
  obtain ⟨year, month, day, hd⟩ := d
  obtain ⟨year', month', day', he⟩ := e
  simp only [isAfter, Bool.or_eq_true, Bool.and_eq_true, decide_eq_true_eq, beq_iff_eq, mk.injEq]
  omega

/-- A day comes after another one exactly if its number does. -/
theorem isAfter_iff {d e : Date} : d.isAfter e = true ↔ e.number < d.number := by
  refine ⟨number_lt_of_isAfter, fun h => ?_⟩
  rcases isAfter_or_eq d e with hafter | hbefore | rfl
  · exact hafter
  · exact absurd (number_lt_of_isAfter hbefore) h.le.not_gt
  · exact absurd h (lt_irrefl _)

lemma not_isAfter_iff {d e : Date} : d.isAfter e = false ↔ d.number ≤ e.number := by
  rw [← Bool.not_eq_true, isAfter_iff, not_lt]

/-- Days are known by their numbers. -/
lemma number_injective {d e : Date} (h : d.number = e.number) : d = e := by
  rcases isAfter_or_eq d e with hafter | hbefore | heq
  · exact absurd (number_lt_of_isAfter hafter) (by omega)
  · exact absurd (number_lt_of_isAfter hbefore) (by omega)
  · exact heq

/-! ## The day after -/

/-- The day after has the next number. -/
theorem number_next {d e : Date} (h : d.next? = some e) : e.number = d.number + 1 := by
  obtain ⟨-, -, hmonth, hlast, -, hday⟩ := d.isDay
  unfold next? at h
  split at h
  · cases h
    simp only [number]
    omega
  · rename_i hend
    have hlength : d.day = monthLength d.year d.month := le_antisymm hday (not_lt.mp hend)
    split at h
    · cases h
      simp only [number, daysBeforeMonth_succ d.year hmonth]
      omega
    · rename_i hdecember
      have htwelve : d.month = 12 := le_antisymm hlast (not_lt.mp hdecember)
      split at h
      · cases h
        have hyear := daysBeforeMonth_december d.year
        have hthirtyone : monthLength d.year 12 = 31 := rfl
        have hone : daysBeforeMonth (d.year + 1) 1 = 0 := rfl
        simp only [number, daysBeforeYear_succ, hone, hlength, htwelve, hthirtyone]
        omega
      · cases h

/-- Days are counted from here, so that the day after gives all the numbers there are. -/
example : (⟨1970, 1, 1, by decide⟩ : Date).number = 0 := by decide

/-- The first day of the calendar. -/
def first : Date := ⟨firstYear, 1, 1, by decide⟩

/-- The last day of the calendar. -/
def last : Date := ⟨lastYear, 12, 31, by decide⟩

/-- Only the last day of the calendar has none after it. -/
lemma eq_last_of_next? {d : Date} (h : d.next? = none) : d = last := by
  obtain ⟨-, hyear, hmonth, hlast, -, hday⟩ := d.isDay
  unfold next? at h
  split at h
  · cases h
  · split at h
    · cases h
    · split at h
      · cases h
      · rename_i hend hdecember hcalendar
        have htwelve : d.month = 12 := le_antisymm hlast (not_lt.mp hdecember)
        have hlength : d.day = monthLength d.year d.month := le_antisymm hday (not_lt.mp hend)
        have hyears : d.year = lastYear := le_antisymm hyear (not_lt.mp hcalendar)
        obtain ⟨year, month, day, hd⟩ := d
        simp only at hyears htwelve hlength
        subst hyears htwelve hlength
        rfl

/-- There are no gaps between the days. -/
lemma exists_number_add (k : Nat) (h : first.number + k ≤ last.number) :
    ∃ d : Date, d.number = first.number + k := by
  induction k with
  | zero => exact ⟨first, (Int.add_zero _).symm⟩
  | succ k ih =>
    obtain ⟨d, hd⟩ := ih (by omega)
    cases hnext : d.next? with
    | none =>
      obtain rfl := eq_last_of_next? hnext
      omega
    | some e =>
      have hnumber := number_next hnext
      exact ⟨e, by omega⟩

/-! ## Time stamps -/

/-- The midnight at which a day starts, in nanoseconds, whether or not that is a count. -/
def dawn (d : Date) : Int := d.number * nanoseconds

/-- The midnight at which a day ends. -/
def dusk (d : Date) : Int := (d.number + 1) * nanoseconds

/-- A time lies in a day. -/
def Holds (d : Date) (time : Int) : Prop := d.dawn ≤ time ∧ time < d.dusk

lemma dawn_next {d e : Date} (h : d.next? = some e) : e.dawn = d.dusk := by
  rw [dawn, number_next h, dusk]

/-- The midnight of a day is a bound of a window exactly if it is a count. -/
lemma map_midnight_eq_ok_iff {d : Date} {bound : Option Int} :
    d.midnight.map some = .ok bound ↔ bound = some d.dawn ∧ Count.Fits d.dawn := by
  unfold midnight
  cases hday : d.midnight? with
  | none =>
    have hfits : ¬ Count.Fits d.dawn := Count.fit_eq_none_iff.mp hday
    simp [hfits, Except.map]
  | some time =>
    obtain ⟨hfits, rfl⟩ : Count.Fits d.dawn ∧ d.dawn = time := Count.fit_eq_some_iff.mp hday
    simp [hfits, Except.map, eq_comm]

/-- The calendar goes on after the last time stamp. -/
lemma not_fits_dusk_last : ¬ Count.Fits last.dusk := by decide

/-- Every time stamp lies in a day. -/
theorem exists_holds {time : Int} (h : Count.Fits time) : ∃ d : Date, d.Holds time := by
  -- the range of time stamps is less than three hundred years in each direction
  have hfirst : first.number ≤ -106752 := by decide
  have hlast : 106752 ≤ last.number := by decide
  simp only [Count.Fits, Count.least, Count.greatest] at h
  have hday : first.number ≤ time / nanoseconds ∧ time / nanoseconds ≤ last.number := by
    simp only [nanoseconds]
    omega
  obtain ⟨k, hk⟩ := Int.eq_ofNat_of_zero_le (Int.sub_nonneg_of_le hday.1)
  obtain ⟨d, hd⟩ := exists_number_add k (by omega)
  have hnumber : d.number = time / nanoseconds := by omega
  refine ⟨d, ?_⟩
  simp only [Holds, dawn, dusk, hnumber, nanoseconds]
  omega

variable {d e : Date} {time : Int}

/-- A time lies in one day only. -/
lemma Holds.eq (hd : d.Holds time) (he : e.Holds time) : d = e := by
  refine number_injective ?_
  simp only [Holds, dawn, dusk, nanoseconds] at hd he
  omega

/-- A time is not before a day exactly if its own day is not. -/
lemma Holds.dawn_le_iff (h : e.Holds time) : d.dawn ≤ time ↔ d.isAfter e = false := by
  rw [not_isAfter_iff]
  simp only [Holds, dawn, dusk, nanoseconds] at h ⊢
  omega

/-- A time is before the end of a day exactly if its own day is not after that. -/
lemma Holds.lt_dusk_iff (h : e.Holds time) : time < d.dusk ↔ e.isAfter d = false := by
  rw [not_isAfter_iff]
  simp only [Holds, dawn, dusk, nanoseconds] at h ⊢
  omega

lemma dawn_lt_dusk (h : d.isAfter e = false) : d.dawn < e.dusk := by
  rw [not_isAfter_iff] at h
  simp only [dawn, dusk, nanoseconds]
  omega

end Date

/-! ## Windows -/

namespace DataSettings

variable {s : DataSettings} {start stop : Option Int}

/-- The midnights between which the range of days lies. -/
def bounds (s : DataSettings) : Option Int × Option Int :=
  (s.startDate.map Date.dawn, s.endDate.map Date.dusk)

/-- Both midnights are time stamps, as far as the range has ends. -/
def BoundsFit (s : DataSettings) : Prop :=
  (∀ first ∈ s.startDate, Count.Fits first.dawn) ∧ ∀ last ∈ s.endDate, Count.Fits last.dusk

lemma windowStart_eq_ok_iff :
    s.windowStart = .ok start ↔
      start = s.bounds.1 ∧ ∀ first ∈ s.startDate, Count.Fits first.dawn := by
  unfold windowStart bounds
  cases s.startDate with
  | none => simp [eq_comm]
  | some first => simp [Date.map_midnight_eq_ok_iff]

lemma windowStop_eq_ok_iff :
    s.windowStop = .ok stop ↔
      stop = s.bounds.2 ∧ ∀ last ∈ s.endDate, Count.Fits last.dusk := by
  unfold windowStop bounds
  cases s.endDate with
  | none => simp [eq_comm]
  | some last =>
    dsimp only
    split
    · rename_i hnext
      obtain rfl := Date.eq_last_of_next? hnext
      simp [Date.not_fits_dusk_last]
    · rename_i next hnext
      simp [Date.map_midnight_eq_ok_iff, Date.dawn_next hnext]

/-- There is a window exactly if both midnights are time stamps, and then it lies between them. -/
theorem window_eq_ok_iff :
    s.window = .ok (start, stop) ↔ (start, stop) = s.bounds ∧ s.BoundsFit := by
  have hboth : s.window = .ok (start, stop) ↔
      s.windowStart = .ok start ∧ s.windowStop = .ok stop := by
    unfold window
    cases s.windowStart <;> cases s.windowStop <;> simp
  rw [hboth, windowStart_eq_ok_iff, windowStop_eq_ok_iff, BoundsFit, Prod.ext_iff]
  exact and_and_and_comm

/-- Admissible settings have their days in order, and they have a window. -/
lemma days_of_validate (h : s.validate = .ok ()) :
    s.checkDays = .ok () ∧ ∃ window, s.window = .ok window := by
  obtain ⟨⟨⟩, -, h⟩ := exists_of_bind_ok h
  obtain ⟨⟨⟩, hdays, h⟩ := exists_of_bind_ok h
  obtain ⟨window, hwindow, -⟩ := exists_of_bind_ok h
  exact ⟨hdays, window, hwindow⟩

/-- The request of admissible settings is for the window between the midnights. -/
lemma request_of_validate (h : s.validate = .ok ()) :
    s.request = .ok ⟨s.bounds.1, s.bounds.2, s.maxRows⟩ ∧ s.BoundsFit := by
  obtain ⟨-, window, hwindow⟩ := days_of_validate h
  obtain ⟨hbounds, hfit⟩ := window_eq_ok_iff.mp hwindow
  refine ⟨?_, hfit⟩
  rw [request, hwindow, ← hbounds]
  rfl

/-- The first day of admissible settings is not after the last one. -/
lemma not_isAfter_of_validate (h : s.validate = .ok ()) {first last : Date}
    (hfirst : s.startDate = some first) (hlast : s.endDate = some last) :
    first.isAfter last = false := by
  obtain ⟨hdays, -⟩ := days_of_validate h
  unfold checkDays at hdays
  rw [hfirst, hlast] at hdays
  dsimp only at hdays
  split at hdays
  · cases hdays
  · exact Bool.eq_false_of_not_eq_true ‹_›

end DataSettings

/-! ## The result -/

/-- **A range of days is a window of time stamps.**  Admissible settings lead to a request whose
window starts at the midnight before the first day and stops at the midnight after the last one, as
far as the range has these; both are time stamps, and the start comes first.  Every time stamp lies
in exactly one day, and it lies in the window if and only if this day is not before the first day
and not after the last one.  Settings with a midnight that is no time stamp are refused. -/
theorem window_is_days (s : Settings) :
    (s.validate = .ok () → ∃ request,
      s.data.request = .ok request ∧ (request.start, request.stop) = s.data.bounds ∧
      s.data.BoundsFit ∧ request.Proper ∧
      ∀ time, Count.Fits time → ∃ day : Date,
        day.Holds time ∧ (∀ other : Date, other.Holds time → other = day) ∧
        (request.contains time = true ↔
          (∀ first ∈ s.data.startDate, first.isAfter day = false) ∧
            ∀ last ∈ s.data.endDate, day.isAfter last = false)) ∧
    (¬ s.data.BoundsFit → ∃ e, s.validate = .error e) := by
  constructor
  · intro h
    have hdata := (Settings.validate_cases h).1
    obtain ⟨hrequest, hfit⟩ := DataSettings.request_of_validate hdata
    refine ⟨_, hrequest, rfl, hfit, ?_, fun time htime => ?_⟩
    · intro start hstart stop hstop
      obtain ⟨first, hfirst, rfl⟩ := Option.map_eq_some_iff.mp hstart
      obtain ⟨last, hlast, rfl⟩ := Option.map_eq_some_iff.mp hstop
      exact Date.dawn_lt_dusk (DataSettings.not_isAfter_of_validate hdata hfirst hlast)
    · obtain ⟨day, hday⟩ := Date.exists_holds htime
      refine ⟨day, hday, fun other hother => hother.eq hday, ?_⟩
      simp only [ScanRequest.contains_iff, DataSettings.bounds, Option.mem_map,
        forall_exists_index, and_imp, forall_apply_eq_imp_iff₂, hday.dawn_le_iff, hday.lt_dusk_iff]
  · intro hrange
    cases h : s.validate with
    | error e => exact ⟨e, rfl⟩
    | ok u => exact absurd (DataSettings.request_of_validate (Settings.validate_cases h).1).2 hrange

/-- Settings for the days up to a last one, from a first one on if there is one. -/
def upTo (first : Option Date) (last : Date) : Settings :=
  { Settings.initial with
    data :=
      { Settings.initial.data with
        csvPath := some "t.csv", startDate := first, endDate := some last } }

/-- A day that only leap years have. -/
def leapDay : Date := ⟨2024, 2, 29, by decide⟩

/-- The day in which the time stamps end, eleven minutes before midnight. -/
def lastStampedDay : Date := ⟨2262, 4, 11, by decide⟩

/-- The range from the leap day to the leap day is that day, from its first nanosecond to its last
one.  There are time stamps in the last day of all, but it cannot be the last day of a range. -/
theorem window_is_days_leapDay :
    (upTo (some leapDay) leapDay).validate = .ok () ∧
      (∃ request, (upTo (some leapDay) leapDay).data.request = .ok request ∧
        request.start = some 1709164800000000000 ∧ request.stop = some 1709251200000000000 ∧
        request.contains 1709251199999999999 = true ∧
        request.contains 1709251200000000000 = false) ∧
      lastStampedDay.Holds 9223372036854775807 ∧
      ∃ e, (upTo none lastStampedDay).validate = .error e := by
  have hvalid : (upTo (some leapDay) leapDay).validate = .ok () := rfl
  obtain ⟨request, hrequest, hbounds, -, -, hdays⟩ := (window_is_days _).1 hvalid
  have hrange : ¬ (upTo none lastStampedDay).data.BoundsFit := fun h => by
    have hdusk : ¬ Count.Fits lastStampedDay.dusk := by decide
    exact hdusk (h.2 _ rfl)
  have hlast : lastStampedDay.Holds 9223372036854775807 := ⟨by decide, by decide⟩
  refine ⟨hvalid, ⟨request, hrequest, congrArg Prod.fst hbounds, congrArg Prod.snd hbounds, ?_, ?_⟩,
    hlast, (window_is_days _).2 hrange⟩
  · obtain ⟨day, -, hunique, hcontains⟩ := hdays 1709251199999999999 (by decide)
    obtain rfl : leapDay = day := hunique leapDay ⟨by decide, by decide⟩
    refine hcontains.mpr ⟨?_, ?_⟩ <;> rintro _ ⟨⟩ <;> decide
  · obtain ⟨day, -, hunique, hcontains⟩ := hdays 1709251200000000000 (by decide)
    obtain rfl : (⟨2024, 3, 1, by decide⟩ : Date) = day := hunique _ ⟨by decide, by decide⟩
    rw [← Bool.not_eq_true, hcontains]
    exact fun h => absurd (h.2 leapDay rfl) (by decide)

end MarketTape
