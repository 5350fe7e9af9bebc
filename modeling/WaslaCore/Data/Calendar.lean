import Mathlib.Data.Int.ConditionallyCompleteOrder
import Mathlib.Order.Monotone.Basic
import Mathlib.Tactic.Linarith
import Mathlib.Tactic.IntervalCases

/-!
The proleptic Gregorian calendar over integers. Months are numbered through from January
of year zero, so that moving by months is addition; `monthStart` is the day a month starts
on, counted from 1970-01-01, and the two conversions between days and dates are shown to
agree with it.
-/

namespace WaslaCore.Data

/-- The days from 1970-01-01 to a date of the proleptic Gregorian calendar. Years
start in March here, so that the leap day is the last of its year. -/
def daysFromCivil (year month day : Int) : Int :=
  let shifted := if month ≤ 2 then year - 1 else year
  let era := shifted / 400
  let yearOfEra := shifted - era * 400
  let dayOfYear := (153 * (if month > 2 then month - 3 else month + 9) + 2) / 5 + day - 1
  let dayOfEra := yearOfEra * 365 + yearOfEra / 4 - yearOfEra / 100 + dayOfYear
  era * 146097 + dayOfEra - 719468

/-- The date of a day counted from 1970-01-01, as year, month and day. -/
def civilFromDays (days : Int) : Int × Int × Int :=
  let shifted := days + 719468
  let era := shifted / 146097
  let dayOfEra := shifted - era * 146097
  let yearOfEra :=
    (dayOfEra - dayOfEra / 1460 + dayOfEra / 36524 - dayOfEra / 146096) / 365
  let dayOfYear := dayOfEra - (365 * yearOfEra + yearOfEra / 4 - yearOfEra / 100)
  let shiftedMonth := (5 * dayOfYear + 2) / 153
  let day := dayOfYear - (153 * shiftedMonth + 2) / 5 + 1
  let month := if shiftedMonth < 10 then shiftedMonth + 3 else shiftedMonth - 9
  let year := yearOfEra + era * 400 + if month ≤ 2 then 1 else 0
  (year, month, day)

/-! ### Months -/

/-- The day month `index` starts on; January of year `y` has the index `12 * y`. -/
def monthStart (index : Int) : Int := daysFromCivil (index / 12) (index % 12 + 1) 1

def monthLength (index : Int) : Int := monthStart (index + 1) - monthStart index

/-- The days before a year that starts in March, from the first of March of year zero. -/
def marchStart (year : Int) : Int := 365 * year + year / 4 - year / 100 + year / 400

theorem daysFromCivil_day (year month day : Int) :
    daysFromCivil year month day = daysFromCivil year month 1 + (day - 1) := by
  unfold daysFromCivil
  dsimp only
  omega

/-- The days before a year, counted from the start of its era. -/
theorem marchStart_era (year : Int) :
    year / 400 * 146097 + ((year - year / 400 * 400) * 365 + (year - year / 400 * 400) / 4 -
      (year - year / 400 * 400) / 100) = marchStart year := by
  have hfours : (year - year / 400 * 400) / 4 = year / 4 - 100 * (year / 400) := by omega
  have hcenturies : (year - year / 400 * 400) / 100 = year / 100 - 4 * (year / 400) := by omega
  unfold marchStart
  omega

/-- A month starts as many days into a year from March on as the months before it have. -/
theorem monthStart_eq (index : Int) :
    monthStart index =
      marchStart ((index - 2) / 12) + (153 * ((index - 2) % 12) + 2) / 5 - 719468 := by
  have hera := marchStart_era ((index - 2) / 12)
  unfold monthStart daysFromCivil
  dsimp only
  by_cases hmonth : index % 12 + 1 ≤ 2
  · have hyear : index / 12 - 1 = (index - 2) / 12 := by omega
    have hplace : index % 12 + 1 + 9 = (index - 2) % 12 := by omega
    rw [if_pos hmonth, if_neg (by omega), hyear, hplace]
    omega
  · have hyear : index / 12 = (index - 2) / 12 := by omega
    have hplace : index % 12 + 1 - 3 = (index - 2) % 12 := by omega
    rw [if_neg hmonth, if_pos (by omega), hyear, hplace]
    omega

theorem marchStart_succ (year : Int) :
    marchStart year + 365 ≤ marchStart (year + 1) ∧
      marchStart (year + 1) ≤ marchStart year + 366 := by
  unfold marchStart
  omega

/-- Months have 28 to 31 days. -/
theorem monthLength_bounds (index : Int) : 28 ≤ monthLength index ∧ monthLength index ≤ 31 := by
  unfold monthLength
  rw [monthStart_eq, monthStart_eq]
  by_cases hlast : (index - 2) % 12 = 11
  · have hyear : (index + 1 - 2) / 12 = (index - 2) / 12 + 1 := by omega
    have hplace : (index + 1 - 2) % 12 = 0 := by omega
    rw [hyear, hplace, hlast]
    have hsteps := marchStart_succ ((index - 2) / 12)
    omega
  · have hyear : (index + 1 - 2) / 12 = (index - 2) / 12 := by omega
    have hplace : (index + 1 - 2) % 12 = (index - 2) % 12 + 1 := by omega
    rw [hyear, hplace]
    omega

theorem monthStart_succ (index : Int) :
    monthStart (index + 1) = monthStart index + monthLength index := by
  unfold monthLength
  omega

theorem monthStart_strictMono : StrictMono monthStart := by
  refine strictMono_int_of_lt_succ fun index => ?_
  have hsucc := monthStart_succ index
  have hlength := (monthLength_bounds index).1
  omega

/-- A later month starts when this one is over. -/
theorem monthStart_later {index later : Int} (h : index < later) :
    monthStart index + monthLength index ≤ monthStart later := by
  rw [← monthStart_succ]
  exact monthStart_strictMono.monotone h

/-- A day falls into one month. -/
theorem month_unique {index other day : Int} (hstart : monthStart index ≤ day)
    (hend : day < monthStart (index + 1)) (hstart' : monthStart other ≤ day)
    (hend' : day < monthStart (other + 1)) : index = other := by
  have hle : index ≤ other := by
    have hlt := monthStart_strictMono.lt_iff_lt.mp (lt_of_le_of_lt hstart hend')
    omega
  have hge : other ≤ index := by
    have hlt := monthStart_strictMono.lt_iff_lt.mp (lt_of_le_of_lt hstart' hend)
    omega
  exact le_antisymm hle hge

/-! ### Years of an era -/

/-- The year of an era its day falls into, as the conversion estimates it. -/
def eraYear (dayOfEra : Int) : Int :=
  (dayOfEra - dayOfEra / 1460 + dayOfEra / 36524 - dayOfEra / 146096) / 365

theorem eraYear_monotone : Monotone eraYear := by
  refine monotone_int_of_le_succ fun day => ?_
  have hleap : (day + 1) / 1460 ≤ day / 1460 + 1 := by omega
  have hcentury : (day + 1) / 36524 = day / 36524 ∨ (day + 1) / 36524 = day / 36524 + 1 := by
    omega
  -- a fourth century ends with the cycle of 400 years
  have hcycle : day / 146096 = day / 36524 / 4 := by omega
  have hcycle' : (day + 1) / 146096 = (day + 1) / 36524 / 4 := by omega
  unfold eraYear
  apply Int.ediv_le_ediv (by decide)
  rw [hcycle, hcycle']
  rcases hcentury with hsame | hnext
  · rw [hsame]
    omega
  · rw [hnext]
    omega

/-- The estimate is right on the first and on the last day of every year. -/
theorem eraYear_ends : ∀ year : Fin 400, eraYear (marchStart year) = year ∧
    eraYear (marchStart (year + 1) - 1) = year := by
  decide +kernel

/-- Every day of an era falls into one of its years. -/
theorem eraYear_exists {dayOfEra : Int} (hstart : 0 ≤ dayOfEra) (hend : dayOfEra < 146097) :
    ∃ year : Fin 400, marchStart year ≤ dayOfEra ∧ dayOfEra < marchStart (year + 1) := by
  have hyears : ∀ years : Nat, years ≤ 400 → dayOfEra < marchStart years →
      ∃ year : Fin 400, marchStart year ≤ dayOfEra ∧ dayOfEra < marchStart (year + 1) := by
    intro years
    induction years with
    | zero =>
        intro _ hlt
        have hzero : marchStart ((0 : Nat) : Int) = 0 := by decide
        omega
    | succ years ih =>
        intro hle hlt
        by_cases hbefore : dayOfEra < marchStart years
        · exact ih (by omega) hbefore
        · exact ⟨⟨years, by omega⟩, not_lt.mp hbefore, by exact_mod_cast hlt⟩
  exact hyears 400 (le_refl 400) hend

/-- The estimate is right on every day. -/
theorem eraYear_eq {dayOfEra : Int} (hstart : 0 ≤ dayOfEra) (hend : dayOfEra < 146097) :
    0 ≤ eraYear dayOfEra ∧ eraYear dayOfEra < 400 ∧ marchStart (eraYear dayOfEra) ≤ dayOfEra ∧
      dayOfEra < marchStart (eraYear dayOfEra + 1) := by
  obtain ⟨year, hfirst, hlast⟩ := eraYear_exists hstart hend
  have hsame : eraYear dayOfEra = year := by
    apply le_antisymm
    · rw [← (eraYear_ends year).2]
      apply eraYear_monotone
      omega
    · rw [← (eraYear_ends year).1]
      exact eraYear_monotone hfirst
  have hbound := year.isLt
  rw [hsame]
  refine ⟨?_, ?_, hfirst, hlast⟩ <;> omega

/-! ### Dates -/

theorem marchStart_eras (year era : Int) :
    marchStart (year + era * 400) = marchStart year + era * 146097 := by
  unfold marchStart
  omega

/-- The date of a day names the month it falls into and its place there. -/
theorem civilFromDays_month (days : Int) :
    ∃ index, monthStart index ≤ days ∧ days < monthStart (index + 1) ∧
      civilFromDays days = (index / 12, index % 12 + 1, days - monthStart index + 1) := by
  have hstart : 0 ≤ days + 719468 - (days + 719468) / 146097 * 146097 := by omega
  have hend : days + 719468 - (days + 719468) / 146097 * 146097 < 146097 := by omega
  obtain ⟨hyear, hyears, hfirst, hlast⟩ := eraYear_eq hstart hend
  unfold civilFromDays
  dsimp only
  rw [← eraYear]
  generalize (days + 719468) / 146097 = era at *
  generalize hdoe : days + 719468 - era * 146097 = dayOfEra at *
  generalize eraYear dayOfEra = year at *
  have hmarch : 365 * year + year / 4 - year / 100 = marchStart year := by
    unfold marchStart
    omega
  have hyearLength := (marchStart_succ year).2
  rw [hmarch]
  generalize hdoy : dayOfEra - marchStart year = dayOfYear at *
  have hmonth : 0 ≤ (5 * dayOfYear + 2) / 153 ∧ (5 * dayOfYear + 2) / 153 ≤ 11 := by omega
  have hbegun : (153 * ((5 * dayOfYear + 2) / 153) + 2) / 5 ≤ dayOfYear := by omega
  have hrunning : dayOfYear < (153 * ((5 * dayOfYear + 2) / 153 + 1) + 2) / 5 := by omega
  generalize (5 * dayOfYear + 2) / 153 = month at *
  have hquotient : (12 * (year + era * 400) + month + 2 - 2) / 12 = year + era * 400 := by omega
  have hplace : (12 * (year + era * 400) + month + 2 - 2) % 12 = month := by omega
  have hmonthStart : monthStart (12 * (year + era * 400) + month + 2) =
      marchStart year + era * 146097 + (153 * month + 2) / 5 - 719468 := by
    rw [monthStart_eq, hquotient, hplace, marchStart_eras]
  have hmonthEnd : days < monthStart (12 * (year + era * 400) + month + 2 + 1) := by
    by_cases hlastMonth : month = 11
    · have hquotient' : (12 * (year + era * 400) + month + 2 + 1 - 2) / 12 =
          year + 1 + era * 400 := by omega
      have hplace' : (12 * (year + era * 400) + month + 2 + 1 - 2) % 12 = 0 := by omega
      rw [monthStart_eq, hquotient', hplace', marchStart_eras]
      omega
    · have hquotient' : (12 * (year + era * 400) + month + 2 + 1 - 2) / 12 =
          year + era * 400 := by omega
      have hplace' : (12 * (year + era * 400) + month + 2 + 1 - 2) % 12 = month + 1 := by omega
      rw [monthStart_eq, hquotient', hplace', marchStart_eras]
      omega
  refine ⟨12 * (year + era * 400) + month + 2, by omega, hmonthEnd, ?_⟩
  rw [hmonthStart]
  by_cases hautumn : month < 10
  · rw [if_pos hautumn, if_neg (by omega)]
    refine Prod.ext ?_ (Prod.ext ?_ ?_) <;> dsimp only <;> omega
  · rw [if_neg hautumn, if_pos (by omega)]
    refine Prod.ext ?_ (Prod.ext ?_ ?_) <;> dsimp only <;> omega

/-- A day within a month is its date. -/
theorem civilFromDays_eq {index days : Int} (hstart : monthStart index ≤ days)
    (hend : days < monthStart (index + 1)) :
    civilFromDays days = (index / 12, index % 12 + 1, days - monthStart index + 1) := by
  obtain ⟨other, hstart', hend', hdate⟩ := civilFromDays_month days
  rw [month_unique hstart hend hstart' hend']
  exact hdate

/-- The date of a month is its day. -/
theorem daysFromCivil_month (index day : Int) :
    daysFromCivil (index / 12) (index % 12 + 1) day = monthStart index + (day - 1) :=
  daysFromCivil_day _ _ _

end WaslaCore.Data
