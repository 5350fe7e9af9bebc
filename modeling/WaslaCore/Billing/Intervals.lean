import WaslaCore.Billing.Service

/-!
Where an interval ends, in months numbered through. Days and weeks are added as such; a
month or a year leads to another month, on the same day or on the last one it has. The
ends a `Date` can hold are those up to the last whole month of its range.
-/

namespace WaslaCore.Billing

open Data Platform

/-! ### The month an instant falls into -/

/-- The month of the instant, numbered through from January of year zero. -/
def monthOf (instant : Int) : Int :=
  let (year, month, _) := civilFromDays (instant / msPerDay)
  12 * year + (month - 1)

/-- The day of the month of the instant. -/
def dayOf (instant : Int) : Int := (civilFromDays (instant / msPerDay)).2.2

/-- The month `Date.UTC` takes the number of a month for. -/
def utcMonth (index : Int) : Int := 12 * fullYear (index / 12) + index % 12

/-- August 275760, the last month all of whose instants a `Date` can hold. -/
def lastMonth : Int := 12 * 275760 + 7

/-- The instant at the time of day of `start` on a day of a month. -/
def instantOn (start index day : Int) : Int :=
  (monthStart index + (day - 1)) * msPerDay + start % msPerDay

section Months

variable (start index day : Int)

/-- An instant is on its day of its month, which has that day. -/
theorem instantOn_self : instantOn start (monthOf start) (dayOf start) = start ∧
    1 ≤ dayOf start ∧ dayOf start ≤ monthLength (monthOf start) := by
  obtain ⟨month, hstart, hend, hdate⟩ := civilFromDays_month (start / msPerDay)
  have hmonth : monthOf start = month := by
    unfold monthOf
    rw [hdate]
    dsimp only
    omega
  have hday : dayOf start = start / msPerDay - monthStart month + 1 := by
    unfold dayOf
    rw [hdate]
  have hlength := monthStart_succ month
  rw [hmonth, hday]
  refine ⟨?_, by omega, by omega⟩
  have hsplit := Int.mul_ediv_add_emod start msPerDay
  unfold instantOn
  rw [show monthStart month + (start / msPerDay - monthStart month + 1 - 1) =
    start / msPerDay by omega, mul_comm]
  exact hsplit

variable {index day}

theorem instantOn_day (hday : 1 ≤ day) (hlength : day ≤ monthLength index) :
    monthStart index ≤ instantOn start index day / msPerDay ∧
      instantOn start index day / msPerDay < monthStart (index + 1) ∧
      instantOn start index day / msPerDay = monthStart index + (day - 1) ∧
      instantOn start index day % msPerDay = start % msPerDay := by
  have hsucc := monthStart_succ index
  have hrest := Int.emod_nonneg start (show msPerDay ≠ 0 by decide)
  have hrest' := Int.emod_lt_of_pos start (show 0 < msPerDay by decide)
  unfold instantOn
  unfold msPerDay at hrest hrest' ⊢
  refine ⟨?_, ?_, ?_, ?_⟩ <;> omega

theorem monthOf_instantOn (hday : 1 ≤ day) (hlength : day ≤ monthLength index) :
    monthOf (instantOn start index day) = index := by
  obtain ⟨hstart, hend, -, -⟩ := instantOn_day start hday hlength
  unfold monthOf
  rw [civilFromDays_eq hstart hend]
  dsimp only
  omega

theorem dayOf_instantOn (hday : 1 ≤ day) (hlength : day ≤ monthLength index) :
    dayOf (instantOn start index day) = day := by
  obtain ⟨hstart, hend, hsame, -⟩ := instantOn_day start hday hlength
  unfold dayOf
  rw [civilFromDays_eq hstart hend, hsame]
  dsimp only
  omega

end Months

/-! ### Where a month leads -/

theorem timeClip_eq_some {value instant : Int} :
    timeClip value = some instant ↔ instant = value ∧ -maxTime ≤ value ∧ value ≤ maxTime := by
  unfold timeClip
  split
  · simp only [Option.some.injEq]
    tauto
  · simp only [false_iff, not_and, reduceCtorEq]
    tauto

theorem utcMonth_ge (index : Int) : index ≤ utcMonth index := by
  unfold utcMonth fullYear
  split <;> omega

/-- The last day of a month, where a `Date` can hold it. -/
theorem lastDayOf_eq (index : Int) :
    lastDayOf (index / 12) (index % 12) =
      (timeClip ((monthStart (utcMonth index + 1) - 1) * msPerDay)).map
        (fun _ => monthLength (utcMonth index)) := by
  have hyear : fullYear (index / 12) + (index % 12 + 1) / 12 = (utcMonth index + 1) / 12 := by
    unfold utcMonth
    omega
  have hmonth : (index % 12 + 1) % 12 + 1 = (utcMonth index + 1) % 12 + 1 := by
    unfold utcMonth
    omega
  have hsucc := monthStart_succ (utcMonth index)
  have hlength := (monthLength_bounds (utcMonth index)).1
  have hfirst : monthStart (utcMonth index) ≤ monthStart (utcMonth index + 1) - 1 := by omega
  have hlast : monthStart (utcMonth index + 1) - 1 < monthStart (utcMonth index + 1) := by omega
  have hdate : civilFromDays (monthStart (utcMonth index + 1) - 1) =
      (utcMonth index / 12, utcMonth index % 12 + 1, monthLength (utcMonth index)) := by
    rw [civilFromDays_eq hfirst hlast]
    refine Prod.ext rfl (Prod.ext rfl ?_)
    dsimp only
    omega
  unfold lastDayOf
  dsimp only
  rw [hyear, hmonth, ← monthStart, hdate]

/-- The end of an interval of so many months. -/
def advanceMonths (start months : Int) : Option Int :=
  match lastDayOf ((monthOf start + months) / 12) ((monthOf start + months) % 12) with
  | none => none
  | some lastDay =>
      timeClip (instantOn start (utcMonth (monthOf start + months)) (min (dayOf start) lastDay))

/-- The months of an interval, where it is one of months or years. -/
def monthsOf : BillingInterval → Int → Int
  | .year, count => count * 12
  | _, count => count

theorem daysFromCivil_utc (index day : Int) :
    daysFromCivil (fullYear (index / 12)) (index % 12 + 1) day =
      monthStart (utcMonth index) + (day - 1) := by
  have hyear : fullYear (index / 12) = utcMonth index / 12 := by
    unfold utcMonth
    omega
  have hmonth : index % 12 = utcMonth index % 12 := by
    unfold utcMonth
    omega
  rw [hyear, hmonth, daysFromCivil_month]

theorem advanceInterval_months {start count : Int} {interval : BillingInterval}
    (hmonths : interval = .month ∨ interval = .year) (hcount : 0 < count) :
    advanceInterval start interval count =
      .ok (advanceMonths start (monthsOf interval count)) := by
  have hyear : ∀ months, (monthOf start + months) / 12 =
      (civilFromDays (start / msPerDay)).1 +
        ((civilFromDays (start / msPerDay)).2.1 - 1 + months) / 12 := by
    intro months
    unfold monthOf
    obtain ⟨year, month, day⟩ := civilFromDays (start / msPerDay)
    dsimp only
    omega
  have hmonth : ∀ months, (monthOf start + months) % 12 =
      ((civilFromDays (start / msPerDay)).2.1 - 1 + months) % 12 := by
    intro months
    unfold monthOf
    obtain ⟨year, month, day⟩ := civilFromDays (start / msPerDay)
    dsimp only
    omega
  unfold advanceInterval advanceMonths instantOn
  rw [if_neg (by omega)]
  simp only [← daysFromCivil_utc, hyear, hmonth]
  rcases hmonths with rfl | rfl
  · rfl
  · rfl

/-- A valid date leads on where the month it leads to is whole within the range. -/
theorem advanceMonths_eq {start months : Int} (hstart : timeClip start = some start)
    (hmonths : 0 < months) :
    advanceMonths start months =
      if utcMonth (monthOf start + months) ≤ lastMonth then
        some (instantOn start (utcMonth (monthOf start + months))
          (min (dayOf start) (monthLength (utcMonth (monthOf start + months)))))
      else none := by
  obtain ⟨hself, hday, hlength⟩ := instantOn_self start
  obtain ⟨-, hlow, hhigh⟩ := timeClip_eq_some.mp hstart
  have hlater := utcMonth_ge (monthOf start + months)
  have hlow' : -100000000 ≤ start / msPerDay := by
    unfold maxTime at hlow
    unfold msPerDay
    omega
  have hhere : start / msPerDay < monthStart (monthOf start + 1) := by
    obtain ⟨-, hend, -, -⟩ := instantOn_day start hday hlength
    rwa [hself] at hend
  have hreached : monthStart (monthOf start + 1) ≤
      monthStart (utcMonth (monthOf start + months)) :=
    monthStart_strictMono.monotone (by omega)
  have hsucc := monthStart_succ (utcMonth (monthOf start + months))
  have hbounds := monthLength_bounds (utcMonth (monthOf start + months))
  have hrange : monthStart (lastMonth + 1) = 100000000 - 12 := by decide
  have hpast : monthStart (lastMonth + 2) = 100000000 + 18 := by decide
  unfold advanceMonths
  rw [lastDayOf_eq]
  generalize utcMonth (monthOf start + months) = index at *
  by_cases hwithin : index ≤ lastMonth
  · have hbefore : monthStart (index + 1) ≤ monthStart (lastMonth + 1) :=
      monthStart_strictMono.monotone (by omega)
    have hlast : timeClip ((monthStart (index + 1) - 1) * msPerDay) =
        some ((monthStart (index + 1) - 1) * msPerDay) := by
      rw [timeClip_eq_some]
      unfold maxTime msPerDay
      omega
    rw [if_pos hwithin, hlast, Option.map_some]
    dsimp only
    rw [timeClip_eq_some]
    have hrest := Int.emod_nonneg start (show msPerDay ≠ 0 by decide)
    have hrest' := Int.emod_lt_of_pos start (show 0 < msPerDay by decide)
    unfold instantOn maxTime
    unfold msPerDay at hrest hrest' ⊢
    omega
  · have hafter : monthStart (lastMonth + 2) ≤ monthStart (index + 1) :=
      monthStart_strictMono.monotone (by omega)
    have hlast : timeClip ((monthStart (index + 1) - 1) * msPerDay) = none := by
      unfold timeClip maxTime msPerDay
      rw [if_neg]
      omega
    rw [if_neg hwithin, hlast]
    rfl

end WaslaCore.Billing
