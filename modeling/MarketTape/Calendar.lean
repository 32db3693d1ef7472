import MarketTape.Text.Blank
import MarketTape.Decimal.Layout
import MarketTape.Decimal.Reading
import MarketTape.Count

/-!
# Calendar days

A replay can be confined to a range of calendar days.  Days are days of the Gregorian calendar,
carried on in both directions, in universal time.

* `Date` is a calendar day, `Date.read?` and `Date.text` are its text.
* `Date.number` counts days from the first day of 1970; `Date.next?` is the day after.
* `Date.midnight?` is the nanosecond at which a day starts, if that is a count.
-/

namespace MarketTape

/-! ## Months and years -/

/-- Whether a year has a twenty-ninth of February. -/
def isLeapYear (year : Int) : Bool :=
  year % 4 == 0 && (year % 100 != 0 || year % 400 == 0)

def monthLength (year : Int) (month : Nat) : Nat :=
  if month = 2 then if isLeapYear year then 29 else 28
  else if month = 4 ∨ month = 6 ∨ month = 9 ∨ month = 11 then 30
  else 31

def firstYear : Int := -262143

def lastYear : Int := 262142

/-- Whether three numbers name a day of the calendar. -/
def IsDay (year : Int) (month day : Nat) : Prop :=
  firstYear ≤ year ∧ year ≤ lastYear ∧ 1 ≤ month ∧ month ≤ 12 ∧
    1 ≤ day ∧ day ≤ monthLength year month

instance (year : Int) (month day : Nat) : Decidable (IsDay year month day) :=
  inferInstanceAs (Decidable (_ ∧ _))

theorem one_le_monthLength (year : Int) (month : Nat) : 1 ≤ monthLength year month := by
  unfold monthLength
  repeat' split
  all_goals omega

/-- A calendar day.  The year before 1 is 0; months and days count from 1. -/
structure Date where
  year : Int
  month : Nat
  day : Nat
  isDay : IsDay year month day
  deriving DecidableEq

namespace Date

/-! ## Counting days -/

/-- Days from the first day of year 1 to the first day of the given year. -/
def daysBeforeYear (year : Int) : Int :=
  365 * (year - 1) + (year - 1) / 4 - (year - 1) / 100 + (year - 1) / 400

/-- Days from the first day of a year to the first day of the given month. -/
def daysBeforeMonth (year : Int) : Nat → Nat
  | 0 => 0
  | 1 => 0
  | month + 1 => daysBeforeMonth year month + monthLength year month

/-- Days from the first day of 1970. -/
def number (d : Date) : Int :=
  daysBeforeYear d.year + daysBeforeMonth d.year d.month + d.day - 1 - 719162

/-- The day after, which the last day of the calendar does not have. -/
def next? (d : Date) : Option Date :=
  if h : d.day < monthLength d.year d.month then
    some ⟨d.year, d.month, d.day + 1, by
      obtain ⟨h₁, h₂, h₃, h₄, -, -⟩ := d.isDay
      exact ⟨h₁, h₂, h₃, h₄, by omega, h⟩⟩
  else if h : d.month < 12 then
    some ⟨d.year, d.month + 1, 1, by
      obtain ⟨h₁, h₂, h₃, -, -, -⟩ := d.isDay
      exact ⟨h₁, h₂, by omega, by omega, Nat.le_refl 1, one_le_monthLength _ _⟩⟩
  else if h : d.year < lastYear then
    some ⟨d.year + 1, 1, 1, by
      obtain ⟨h₁, -, -, -, -, -⟩ := d.isDay
      exact ⟨by omega, by omega, by omega, by omega, Nat.le_refl 1, one_le_monthLength _ _⟩⟩
  else none

/-- Whether a day comes after another one. -/
def isAfter (d e : Date) : Bool :=
  e.year < d.year || (d.year == e.year &&
    (e.month < d.month || (d.month == e.month && e.day < d.day)))

def nanoseconds : Int := 86400000000000

/-- The nanosecond at which a day starts, if it is a count. -/
def midnight? (d : Date) : Option Int := Count.fit (d.number * nanoseconds)

/-! ## Text -/

/-- A number with zeros in front of it up to a width. -/
def padded (width n : Nat) : List Char :=
  let digits := Decimal.natText n
  List.replicate (width - digits.length) '0' ++ digits

/-- The year with at least four digits, and with a sign unless it has exactly four. -/
def yearText (year : Int) : List Char :=
  if 0 ≤ year ∧ year ≤ 9999 then padded 4 year.natAbs
  else (if year < 0 then '-' else '+') :: padded 4 year.natAbs

def text (d : Date) : String :=
  String.ofList (yearText d.year ++ '-' :: padded 2 d.month ++ '-' :: padded 2 d.day)

/-- At least one and at most `width` digits at the front. -/
def readDigits? (width : Nat) (cs : List Char) : Option (Nat × List Char) :=
  let digits := (cs.takeWhile Char.isDigit).take width
  if digits = [] then none else some (Decimal.ofDigits 0 digits, cs.drop digits.length)

/-- A year after blanks: up to four digits, or a sign and any number of digits. -/
def readYear? (cs : List Char) : Option (Int × List Char) :=
  match Text.trimLeft cs with
  | '-' :: rest => (readDigits? rest.length rest).map fun (n, rest) => (-(n : Int), rest)
  | '+' :: rest => (readDigits? rest.length rest).map fun (n, rest) => ((n : Int), rest)
  | cs => (readDigits? 4 cs).map fun (n, rest) => ((n : Int), rest)

/-- A hyphen with blanks around it. -/
def readHyphen? (cs : List Char) : Option (List Char) :=
  match Text.trimLeft cs with
  | '-' :: rest => some (Text.trimLeft rest)
  | _ => none

/-- Reads a day: year, month and day with hyphens between them and blanks anywhere around them. -/
def read? (s : String) : Option Date := do
  let (year, rest) ← readYear? s.toList
  let rest ← readHyphen? rest
  let (month, rest) ← readDigits? 2 rest
  let rest ← readHyphen? rest
  let (day, rest) ← readDigits? 2 rest
  if Text.trimLeft rest = [] then
    if h : IsDay year month day then some ⟨year, month, day, h⟩ else none
  else none

end Date

end MarketTape
