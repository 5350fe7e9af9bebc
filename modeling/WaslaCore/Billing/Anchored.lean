import WaslaCore.Billing.Advancing
import WaslaCore.Billing.Conduct

/-!
Where renewals end. Each period is advanced from the end of the one before it, so the day
of the month is clamped by every month on the way and never grows back. It is the day of
the first start exactly while no month an earlier period ended in was shorter than the day
the last one is due on.
-/

namespace WaslaCore.Billing

open Data Platform Interleaving

/-! ### Renewals -/

/-- The periods of a subscription: the first from its start, each later one as a renewal
builds it, from the end of the latest. -/
inductive Renewals (subscription : Subscription) (plan : Plan) (start : Int) :
    Nat → SubscriptionPeriod → Prop where
  | first {seen period}
      (h : Finishes (buildPeriod subscription plan 1 start) seen (.ok period)) :
      Renewals subscription plan start 1 period
  | next {count latest seen period} (hlatest : Renewals subscription plan start count latest)
      (h : Finishes (buildPeriod subscription plan (latest.sequence + 1) latest.endsAt) seen
        (.ok period)) :
      Renewals subscription plan start (count + 1) period

/-- A period that was built ends where its interval does. -/
theorem buildPeriod_ok {subscription : Subscription} {plan : Plan} {sequence start : Int}
    {seen : Seen} {period : SubscriptionPeriod}
    (h : Finishes (buildPeriod subscription plan sequence start) seen (.ok period)) :
    advanceInterval start plan.billingInterval plan.intervalCount = .ok (some period.endsAt) := by
  obtain ⟨periodId, rest, -, h⟩ := finishes_act.mp h
  cases hends : advanceInterval start plan.billingInterval plan.intervalCount with
  | error error =>
      rw [hends] at h
      cases h
  | ok finish =>
      rw [hends] at h
      cases finish with
      | none => cases h
      | some finish =>
          obtain ⟨createdAt, rest, -, h⟩ := finishes_act.mp h
          obtain ⟨-, hsame⟩ := finishes_done.mp h
          obtain rfl := Except.ok.inj hsame
          rfl

/-! ### Months and days on the way -/

section Way

variable (start months : Int)

/-- The month so many intervals after the start. -/
def dueMonth (count : Nat) : Int := monthOf start + count * months

/-- The month the period of a number ends in, each counted from the one before. -/
def endMonth : Nat → Int
  | 0 => monthOf start
  | count + 1 => utcMonth (endMonth count + months)

/-- The day of the month it ends on. -/
def endDay : Nat → Int
  | 0 => dayOf start
  | count + 1 => min (endDay count) (monthLength (endMonth start months (count + 1)))

/-- The years 0 to 99. -/
def InFirstCentury (index : Int) : Prop := 0 ≤ index ∧ index < 1200

theorem utcMonth_first {index : Int} (h : InFirstCentury index) :
    utcMonth index = index + 22800 := by
  obtain ⟨hlow, hhigh⟩ := h
  unfold utcMonth fullYear
  split <;> omega

theorem utcMonth_later {index : Int} (h : ¬InFirstCentury index) : utcMonth index = index := by
  unfold InFirstCentury at h
  unfold utcMonth fullYear
  split <;> omega

theorem dueMonth_succ (count : Nat) :
    dueMonth start months (count + 1) = dueMonth start months count + months := by
  unfold dueMonth
  rw [Nat.cast_succ, add_mul, one_mul, add_assoc]

variable {months} (hmonths : 0 < months)

include hmonths

theorem dueMonth_le {first second : Nat} (h : first ≤ second) :
    dueMonth start months first ≤ dueMonth start months second := by
  induction second with
  | zero =>
      obtain rfl : first = 0 := by omega
      exact le_refl _
  | succ second ih =>
      rcases Nat.lt_or_eq_of_le h with hlt | rfl
      · have hstep := dueMonth_succ start months second
        have hbefore := ih (by omega)
        omega
      · exact le_refl _

/-- A period ends in the month it is due in, 1900 years later once one was due in the first
century. -/
theorem endMonth_eq (count : Nat) :
    (∃ earlier, 1 ≤ earlier ∧ earlier ≤ count ∧ InFirstCentury (dueMonth start months earlier)) ∧
        0 ≤ dueMonth start months count ∧
        endMonth start months count = dueMonth start months count + 22800 ∨
      (∀ earlier, 1 ≤ earlier → earlier ≤ count →
          ¬InFirstCentury (dueMonth start months earlier)) ∧
        endMonth start months count = dueMonth start months count := by
  induction count with
  | zero =>
      refine .inr ⟨fun earlier hfirst hlast => by omega, ?_⟩
      simp [endMonth, dueMonth]
  | succ count ih =>
      have hstep := dueMonth_succ start months count
      rcases ih with ⟨⟨earlier, hfirst, hlast, hcentury⟩, hnonneg, hmonth⟩ | ⟨hnone, hmonth⟩
      · refine .inl ⟨⟨earlier, hfirst, by omega, hcentury⟩, by omega, ?_⟩
        have hpast : ¬InFirstCentury (endMonth start months count + months) := by
          unfold InFirstCentury
          omega
        rw [endMonth, utcMonth_later hpast]
        omega
      · have hnext : endMonth start months (count + 1) =
            utcMonth (dueMonth start months (count + 1)) := by
          rw [endMonth, hmonth, hstep]
        by_cases hcentury : InFirstCentury (dueMonth start months (count + 1))
        · exact .inl ⟨⟨count + 1, by omega, le_refl _, hcentury⟩, hcentury.1,
            hnext.trans (utcMonth_first hcentury)⟩
        · refine .inr ⟨fun earlier hfirst hlast => ?_, hnext.trans (utcMonth_later hcentury)⟩
          rcases Nat.lt_or_eq_of_le hlast with hlt | rfl
          · exact hnone earlier hfirst (by omega)
          · exact hcentury

/-- No period was due in the years that are read 1900 years later, or this one is too. -/
def CenturyKept (start months : Int) (count : Nat) : Prop :=
  ∀ earlier, 1 ≤ earlier → earlier ≤ count → InFirstCentury (dueMonth start months earlier) →
    InFirstCentury (dueMonth start months count)

/-- The month a period ends in is where its due month leads, exactly while the century is
kept. -/
theorem endMonth_due_iff (count : Nat) (hcount : 1 ≤ count) :
    endMonth start months count = utcMonth (dueMonth start months count) ↔
      CenturyKept start months count := by
  rcases endMonth_eq start hmonths count with
    ⟨⟨earlier, hfirst, hlast, hcentury⟩, hnonneg, hmonth⟩ | ⟨hnone, hmonth⟩
  · rw [hmonth]
    constructor
    · intro hsame _ _ _ _
      by_contra hpast
      rw [utcMonth_later hpast] at hsame
      omega
    · intro hkept
      rw [utcMonth_first (hkept earlier hfirst hlast hcentury)]
  · rw [hmonth, utcMonth_later (hnone count hcount (le_refl _))]
    exact iff_of_true rfl fun earlier hfirst hlast hcentury =>
      absurd hcentury (hnone earlier hfirst hlast)

/-- While the century is kept it was kept all along. -/
theorem CenturyKept.earlier {start : Int} {count earlier : Nat} (h : CenturyKept start months count)
    (hlast : earlier ≤ count) : CenturyKept start months earlier := by
  intro other hone hother hcentury
  have hlater := h other hone (le_trans hother hlast) hcentury
  have hbelow := dueMonth_le start hmonths hlast
  have habove := dueMonth_le start hmonths hother
  exact ⟨le_trans hcentury.1 habove, lt_of_le_of_lt hbelow hlater.2⟩

omit hmonths

variable (months)

/-- The day is the smallest of the first day and the lengths of the months on the way. -/
theorem endDay_le (count : Nat) : endDay start months count ≤ dayOf start ∧
    ∀ earlier, 1 ≤ earlier → earlier ≤ count →
      endDay start months count ≤ monthLength (endMonth start months earlier) := by
  induction count with
  | zero => exact ⟨le_refl _, fun earlier hfirst hlast => by omega⟩
  | succ count ih =>
      obtain ⟨hday, hlengths⟩ := ih
      have hclamped : endDay start months (count + 1) ≤ endDay start months count :=
        min_le_left _ _
      refine ⟨le_trans hclamped hday, fun earlier hfirst hlast => ?_⟩
      rcases Nat.lt_or_eq_of_le hlast with hlt | rfl
      · exact le_trans hclamped (hlengths earlier hfirst (by omega))
      · exact min_le_right _ _

/-- A day no month on the way is shorter than is kept. -/
theorem le_endDay {day : Int} (count : Nat) (hday : day ≤ dayOf start)
    (hlengths : ∀ earlier, 1 ≤ earlier → earlier ≤ count →
      day ≤ monthLength (endMonth start months earlier)) : day ≤ endDay start months count := by
  induction count with
  | zero => exact hday
  | succ count ih =>
      refine le_min (ih fun earlier hfirst hlast => hlengths earlier hfirst (by omega)) ?_
      exact hlengths (count + 1) (by omega) (le_refl _)

theorem endDay_pos (count : Nat) : 1 ≤ endDay start months count := by
  apply le_endDay start months count (instantOn_self start).2.1
  intro earlier _ _
  have hlength := (monthLength_bounds (endMonth start months earlier)).1
  omega

/-- The day is the one the first start asks for exactly while no month before was shorter. -/
theorem endDay_due_iff (count : Nat) (hcount : 1 ≤ count) :
    endDay start months count =
        min (dayOf start) (monthLength (endMonth start months count)) ↔
      ∀ earlier, 1 ≤ earlier → earlier < count →
        min (dayOf start) (monthLength (endMonth start months count)) ≤
          monthLength (endMonth start months earlier) := by
  obtain ⟨hday, hlengths⟩ := endDay_le start months count
  constructor
  · intro hsame earlier hfirst hlast
    rw [← hsame]
    exact hlengths earlier hfirst (by omega)
  · intro hlong
    apply le_antisymm
    · exact le_min hday (hlengths count hcount (le_refl _))
    · apply le_endDay start months count (min_le_left _ _)
      intro earlier hfirst hlast
      rcases Nat.lt_or_eq_of_le hlast with hlt | rfl
      · exact hlong earlier hfirst hlt
      · exact min_le_right _ _

end Way

/-! ### The end of a period -/

theorem instantOn_instantOn {start month day month' day' : Int} (hday : 1 ≤ day)
    (hlength : day ≤ monthLength month) :
    instantOn (instantOn start month day) month' day' = instantOn start month' day' := by
  obtain ⟨-, -, -, hrest⟩ := instantOn_day start hday hlength
  rw [instantOn, hrest]
  rfl

theorem advanceMonths_valid {start months finish : Int}
    (h : advanceMonths start months = some finish) : timeClip finish = some finish := by
  unfold advanceMonths at h
  split at h
  · cases h
  · obtain ⟨rfl, hlow, hhigh⟩ := timeClip_eq_some.mp h
    exact timeClip_eq_some.mpr ⟨rfl, hlow, hhigh⟩

/-- An interval that was advanced by has a positive count. -/
theorem advanceInterval_positive {start count finish : Int} {interval : BillingInterval}
    (h : advanceInterval start interval count = .ok (some finish)) : 0 < count := by
  by_contra hnone
  rw [advanceInterval, if_pos (by omega)] at h
  cases h

/-- Advancing from the end of a period leads to the end of the next. -/
theorem advanceMonths_next {start months finish : Int} {count : Nat} (hmonths : 0 < months)
    (hvalid : timeClip (instantOn start (endMonth start months count) (endDay start months count)) =
      some (instantOn start (endMonth start months count) (endDay start months count)))
    (h : advanceMonths (instantOn start (endMonth start months count)
      (endDay start months count)) months = some finish) :
    finish = instantOn start (endMonth start months (count + 1)) (endDay start months (count + 1)) ∧
      endMonth start months (count + 1) ≤ lastMonth := by
  have hday := endDay_pos start months count
  have hlength : endDay start months count ≤ monthLength (endMonth start months count) := by
    cases count with
    | zero => exact (instantOn_self start).2.2
    | succ count => exact (endDay_le start months (count + 1)).2 (count + 1) (by omega) (le_refl _)
  rw [advanceMonths_eq hvalid hmonths, monthOf_instantOn start hday hlength,
    dayOf_instantOn start hday hlength, instantOn_instantOn hday hlength] at h
  by_cases hwithin : utcMonth (endMonth start months count + months) ≤ lastMonth
  · rw [if_pos hwithin] at h
    exact ⟨(Option.some.inj h).symm, hwithin⟩
  · rw [if_neg hwithin] at h
    cases h

section Ends

variable {subscription : Subscription} {plan : Plan} {start : Int} {periods : Nat}
  {period : SubscriptionPeriod}

theorem Renewals.numbered (h : Renewals subscription plan start periods period) :
    1 ≤ periods ∧ 0 < plan.intervalCount := by
  cases h with
  | first h => exact ⟨le_refl _, advanceInterval_positive (buildPeriod_ok h)⟩
  | next hlatest h => exact ⟨by omega, advanceInterval_positive (buildPeriod_ok h)⟩

/-- Under a plan of months or years a period ends on the day and in the month that were
reached from the end before. -/
theorem Renewals.end_months (h : Renewals subscription plan start periods period)
    (hstart : timeClip start = some start)
    (hinterval : plan.billingInterval = .month ∨ plan.billingInterval = .year) :
    timeClip period.endsAt = some period.endsAt ∧
      period.endsAt = instantOn start
        (endMonth start (monthsOf plan.billingInterval plan.intervalCount) periods)
        (endDay start (monthsOf plan.billingInterval plan.intervalCount) periods) ∧
      endMonth start (monthsOf plan.billingInterval plan.intervalCount) periods ≤ lastMonth := by
  have hcount := h.numbered.2
  have hmonths : 0 < monthsOf plan.billingInterval plan.intervalCount := by
    rcases hinterval with hmonth | hyear
    · rw [hmonth]
      exact hcount
    · rw [hyear, monthsOf]
      omega
  induction h with
  | first h =>
      have hends := buildPeriod_ok h
      rw [advanceInterval_months hinterval hcount] at hends
      have hadvanced := Except.ok.inj hends
      have hself := (instantOn_self start).1
      refine ⟨advanceMonths_valid hadvanced, ?_⟩
      apply advanceMonths_next hmonths
      · rw [endMonth, endDay, hself]
        exact hstart
      · rw [endMonth, endDay, hself]
        exact hadvanced
  | next hlatest h ih =>
      obtain ⟨hvalid, hend, -⟩ := ih
      have hends := buildPeriod_ok h
      rw [advanceInterval_months hinterval hcount] at hends
      have hadvanced := Except.ok.inj hends
      refine ⟨advanceMonths_valid hadvanced, ?_⟩
      rw [hend] at hvalid hadvanced
      exact advanceMonths_next hmonths hvalid hadvanced

/-- Under a plan of days or weeks a period ends so many days after the start. -/
theorem Renewals.end_days (h : Renewals subscription plan start periods period) {days : Int}
    (hadvances : ∀ instant, advanceInterval instant plan.billingInterval plan.intervalCount =
      .ok (timeClip (instant + days * msPerDay))) :
    timeClip (start + periods * days * msPerDay) = some period.endsAt := by
  induction h with
  | first h =>
      have hends := buildPeriod_ok h
      rw [hadvances] at hends
      rw [Nat.cast_one, one_mul]
      exact Except.ok.inj hends
  | @next count latest seen period hlatest h ih =>
      have hends := buildPeriod_ok h
      rw [hadvances] at hends
      have hbefore := (timeClip_eq_some.mp ih).1
      have hsum : start + count * days * msPerDay + days * msPerDay =
          start + (count + 1 : Nat) * days * msPerDay := by
        rw [Nat.cast_succ, add_mul, add_mul, one_mul, add_assoc]
      rw [← hsum, ← hbefore]
      exact Except.ok.inj hends

end Ends

/-! ### The anchor -/

/-- What keeps the end of a period at the day of the first start: it is counted in days or
weeks, or none of the months that earlier periods ended in is shorter than the day it is
due on, and none of the years on the way was read 1900 years later unless its own is. -/
def KeepsAnchor (start : Int) (interval : BillingInterval) (count : Int) (periods : Nat) : Prop :=
  interval = .day ∨ interval = .week ∨
    CenturyKept start (monthsOf interval count) periods ∧
      ∀ earlier, 1 ≤ earlier → earlier < periods →
        min (dayOf start)
            (monthLength (utcMonth (dueMonth start (monthsOf interval count) periods))) ≤
          monthLength (utcMonth (dueMonth start (monthsOf interval count) earlier))

/-- Two ends in months are one instant where month and day agree. -/
theorem instantOn_inj {start month day month' day' : Int} (hday : 1 ≤ day)
    (hlength : day ≤ monthLength month) (hday' : 1 ≤ day') (hlength' : day' ≤ monthLength month') :
    instantOn start month day = instantOn start month' day' ↔ month = month' ∧ day = day' := by
  constructor
  · intro hsame
    constructor
    · rw [← monthOf_instantOn start hday hlength, hsame, monthOf_instantOn start hday' hlength']
    · rw [← dayOf_instantOn start hday hlength, hsame, dayOf_instantOn start hday' hlength']
  · rintro ⟨rfl, rfl⟩
    rfl

/-- The month and the day that were reached are those of one advance exactly where the
century is kept and no month before is shorter than the day due. -/
theorem advanceMonths_anchored_iff {start months : Int} {periods : Nat}
    (hstart : timeClip start = some start) (hmonths : 0 < months) (hperiods : 1 ≤ periods)
    (hwithin : endMonth start months periods ≤ lastMonth) :
    advanceMonths start (periods * months) =
        some (instantOn start (endMonth start months periods) (endDay start months periods)) ↔
      CenturyKept start months periods ∧
        ∀ earlier, 1 ≤ earlier → earlier < periods →
          min (dayOf start) (monthLength (utcMonth (dueMonth start months periods))) ≤
            monthLength (utcMonth (dueMonth start months earlier)) := by
  have hpositive : 0 < (periods : Int) * months := by
    apply Int.mul_pos _ hmonths
    omega
  have hday := (instantOn_self start).2.1
  have hdue := (monthLength_bounds (utcMonth (dueMonth start months periods))).1
  have hreached : ∀ earlier, earlier ≤ periods → 1 ≤ earlier → CenturyKept start months periods →
      endMonth start months earlier = utcMonth (dueMonth start months earlier) :=
    fun earlier hlast hfirst hkept =>
      (endMonth_due_iff start hmonths earlier hfirst).mpr (hkept.earlier hmonths hlast)
  rw [advanceMonths_eq hstart hpositive, ← dueMonth]
  constructor
  · intro hsame
    have hfits : utcMonth (dueMonth start months periods) ≤ lastMonth := by
      by_contra hbeyond
      rw [if_neg hbeyond] at hsame
      cases hsame
    rw [if_pos hfits, Option.some.injEq] at hsame
    have hlength := (endDay_le start months periods).2 periods hperiods (le_refl _)
    obtain ⟨hmonth, hday⟩ := (instantOn_inj (by omega) (min_le_right _ _)
      (endDay_pos start months periods) hlength).mp hsame
    have hkept := (endMonth_due_iff start hmonths periods hperiods).mp hmonth.symm
    refine ⟨hkept, fun earlier hfirst hlast => ?_⟩
    rw [hmonth] at hday
    have hlong := (endDay_due_iff start months periods hperiods).mp hday.symm earlier hfirst hlast
    rwa [← hmonth, hreached earlier (by omega) hfirst hkept] at hlong
  · rintro ⟨hkept, hlong⟩
    have hmonth := hreached periods (le_refl _) hperiods hkept
    have hends : endDay start months periods =
        min (dayOf start) (monthLength (endMonth start months periods)) := by
      rw [endDay_due_iff start months periods hperiods]
      intro earlier hfirst hlast
      rw [hmonth, hreached earlier (by omega) hfirst hkept]
      exact hlong earlier hfirst hlast
    rw [hmonth] at hwithin hends
    rw [if_pos hwithin, hmonth, hends]

/-- For every plan and every start: after any number of renewals the end of the last period
is the start advanced by that many intervals at once exactly where the anchor is kept. -/
theorem renewals_anchored_iff {subscription : Subscription} {plan : Plan} {start : Int}
    {periods : Nat} {period : SubscriptionPeriod} (hstart : timeClip start = some start)
    (h : Renewals subscription plan start periods period) :
    advanceInterval start plan.billingInterval (periods * plan.intervalCount) =
        .ok (some period.endsAt) ↔
      KeepsAnchor start plan.billingInterval plan.intervalCount periods := by
  obtain ⟨hperiods, hcount⟩ := h.numbered
  have hcounts : 0 < (periods : Int) * plan.intervalCount := by
    apply Int.mul_pos _ hcount
    omega
  have hrefused : ¬(periods : Int) * plan.intervalCount ≤ 0 := by omega
  have honce : ¬plan.intervalCount ≤ 0 := by omega
  cases hinterval : plan.billingInterval with
  | day =>
      have hadvances : ∀ instant, advanceInterval instant plan.billingInterval
          plan.intervalCount = .ok (timeClip (instant + plan.intervalCount * msPerDay)) := by
        intro instant
        rw [hinterval, advanceInterval, if_neg honce]
      have hends := h.end_days hadvances
      rw [advanceInterval, if_neg hrefused]
      exact iff_of_true (congrArg Except.ok hends) (.inl rfl)
  | week =>
      have hadvances : ∀ instant, advanceInterval instant plan.billingInterval
          plan.intervalCount = .ok (timeClip (instant + 7 * plan.intervalCount * msPerDay)) := by
        intro instant
        rw [hinterval, advanceInterval, if_neg honce]
      have hends := h.end_days hadvances
      rw [advanceInterval, if_neg hrefused]
      rw [mul_left_comm] at hends
      exact iff_of_true (congrArg Except.ok hends) (.inr (.inl rfl))
  | month =>
      obtain ⟨-, hend, hwithin⟩ := h.end_months hstart (.inl hinterval)
      simp only [hinterval, monthsOf] at hend hwithin
      rw [advanceInterval_months (.inl rfl) hcounts, hend, Except.ok.injEq]
      simp only [monthsOf, KeepsAnchor, reduceCtorEq, false_or]
      exact advanceMonths_anchored_iff hstart hcount hperiods hwithin
  | year =>
      obtain ⟨-, hend, hwithin⟩ := h.end_months hstart (.inr hinterval)
      simp only [hinterval, monthsOf] at hend hwithin
      rw [advanceInterval_months (.inr rfl) hcounts, hend, Except.ok.injEq]
      simp only [monthsOf, KeepsAnchor, reduceCtorEq, false_or, mul_assoc]
      exact advanceMonths_anchored_iff hstart (by omega) hperiods hwithin

/-! ### The last day of January -/

/-- 31 January 2023. -/
def lastOfJanuary : Int := daysFromCivil 2023 1 31 * msPerDay

def anchoredSubscription : Subscription :=
  ⟨"s", .identity, "o", "p", "w", .active, 0, none, none, none⟩

/-- The first month, and the one a renewal adds to it. -/
def toFebruary : SubscriptionPeriod :=
  ⟨"p-1", "s", 1, lastOfJanuary, daysFromCivil 2023 2 28 * msPerDay, "SAR", 60, .pending, none, 0,
    none, none⟩

def toMarch : SubscriptionPeriod :=
  ⟨"p-2", "s", 2, daysFromCivil 2023 2 28 * msPerDay, daysFromCivil 2023 3 28 * msPerDay, "SAR",
    60, .pending, none, 0, none, none⟩

theorem toFebruary_built : Finishes (buildPeriod anchoredSubscription monthly 1 lastOfJanuary)
    [⟨.core .newId, "p-1"⟩, ⟨.core .clock, (0 : Int)⟩] (.ok toFebruary) :=
  .act (.act (.done _))

theorem toMarch_built : Finishes
    (buildPeriod anchoredSubscription monthly (toFebruary.sequence + 1) toFebruary.endsAt)
    [⟨.core .newId, "p-2"⟩, ⟨.core .clock, (0 : Int)⟩] (.ok toMarch) :=
  .act (.act (.done _))

theorem renewals_anchored_iff_february :
    advanceInterval lastOfJanuary .month 1 = .ok (some toFebruary.endsAt) ↔
      KeepsAnchor lastOfJanuary .month 1 1 :=
  renewals_anchored_iff (by decide) (.first toFebruary_built)

/-- A subscription that starts on 31 January ends its second month on 28 March. -/
theorem renewals_anchored_fails : ¬∀ (subscription : Subscription) (plan : Plan) (start : Int)
    (periods : Nat) (period : SubscriptionPeriod), timeClip start = some start →
    Renewals subscription plan start periods period →
    advanceInterval start plan.billingInterval (periods * plan.intervalCount) =
      .ok (some period.endsAt) := by
  intro htrue
  have hsame := htrue _ _ _ _ _ (by decide) (.next (.first toFebruary_built) toMarch_built)
  have hanchored : advanceInterval lastOfJanuary .month (2 * 1) =
      .ok (some (daysFromCivil 2023 3 31 * msPerDay)) := by rfl
  have hends := Option.some.inj (Except.ok.inj (hanchored.symm.trans hsame))
  exact absurd hends (by decide)

end WaslaCore.Billing
