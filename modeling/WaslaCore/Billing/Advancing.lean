import WaslaCore.Billing.Intervals
import WaslaCore.Billing.Plans
import WaslaCore.Interleaving.Isolation

/-!
Which intervals lead on. A later instant is always what an interval asks for; whether it is
a date depends on the start and the count, and a plan may be published whose count leaves
the range of dates from any start.
-/

namespace WaslaCore.Billing

open Data Platform Interleaving

/-- The interval ends within the range of dates: by its last instant for days and weeks, by
its last whole month for months and years. -/
def Fits (start : Int) : BillingInterval → Int → Prop
  | .day, count => start + count * msPerDay ≤ maxTime
  | .week, count => start + 7 * count * msPerDay ≤ maxTime
  | .month, count => monthOf start + count ≤ lastMonth
  | .year, count => monthOf start + count * 12 ≤ lastMonth

/-- Opening or renewing a period under the plan goes on: the interval ends at a date after
the start, and whatever the service is answered it builds a period that is not empty. -/
structure LeadsOn (start : Int) (plan : Plan) : Prop where
  advances : ∃ finish, advanceInterval start plan.billingInterval plan.intervalCount =
    .ok (some finish) ∧ start < finish
  builds : ∀ (subscription : Subscription) (sequence : Int) (seen : Seen)
    (result : Except Thrown SubscriptionPeriod),
    Finishes (buildPeriod subscription plan sequence start) seen result →
      ∃ period, result = .ok period ∧ period.startsAt = start ∧ period.startsAt < period.endsAt

section Advances

variable {start count : Int}

/-- Days are added as such. -/
theorem timeClip_later {days : Int} (hstart : timeClip start = some start) (hdays : 0 < days) :
    (∃ finish, timeClip (start + days * msPerDay) = some finish ∧ start < finish) ↔
      start + days * msPerDay ≤ maxTime := by
  obtain ⟨-, hlow, hhigh⟩ := timeClip_eq_some.mp hstart
  have hpositive : 0 < msPerDay := by decide
  have hlater : 0 < days * msPerDay := Int.mul_pos hdays hpositive
  constructor
  · rintro ⟨finish, hfinish, -⟩
    exact (timeClip_eq_some.mp hfinish).2.2
  · intro hfits
    refine ⟨start + days * msPerDay, timeClip_eq_some.mpr ⟨rfl, ?_, hfits⟩, ?_⟩
    · omega
    · omega

/-- The month `Date.UTC` takes a month for is within the range where the month is. -/
theorem utcMonth_within (index : Int) : utcMonth index ≤ lastMonth ↔ index ≤ lastMonth := by
  unfold utcMonth fullYear lastMonth
  split <;> omega

/-- A later month starts later. -/
theorem instantOn_later {index day : Int} (hindex : monthOf start < index) (hday : 1 ≤ day)
    (hlength : day ≤ monthLength index) : start < instantOn start index day := by
  obtain ⟨hself, hown, hownLength⟩ := instantOn_self start
  obtain ⟨-, hend, -, -⟩ := instantOn_day start hown hownLength
  rw [hself] at hend
  obtain ⟨hbegins, -, -, -⟩ := instantOn_day start hday hlength
  have hmonths : monthStart (monthOf start + 1) ≤ monthStart index :=
    monthStart_strictMono.monotone (by omega)
  have hdays : start / msPerDay < instantOn start index day / msPerDay := by omega
  unfold msPerDay at hdays
  omega

theorem advanceMonths_later {months : Int} (hstart : timeClip start = some start)
    (hmonths : 0 < months) :
    (∃ finish, advanceMonths start months = some finish ∧ start < finish) ↔
      monthOf start + months ≤ lastMonth := by
  rw [advanceMonths_eq hstart hmonths, ← utcMonth_within (monthOf start + months)]
  constructor
  · rintro ⟨finish, hfinish, -⟩
    by_contra hbeyond
    rw [if_neg hbeyond] at hfinish
    cases hfinish
  · intro hwithin
    rw [if_pos hwithin]
    have hindex := utcMonth_ge (monthOf start + months)
    have hlength := (monthLength_bounds (utcMonth (monthOf start + months))).1
    have hday := (instantOn_self start).2.1
    refine ⟨_, rfl, instantOn_later (by omega) (by omega) (min_le_right _ _)⟩

/-- An interval leads on exactly where it fits. -/
theorem advanceInterval_iff {interval : BillingInterval} (hstart : timeClip start = some start)
    (hcount : 0 < count) :
    (∃ finish, advanceInterval start interval count = .ok (some finish) ∧ start < finish) ↔
      Fits start interval count := by
  have hrefused : ¬count ≤ 0 := by omega
  cases interval with
  | day =>
      rw [Fits, ← timeClip_later hstart hcount]
      simp only [advanceInterval, if_neg hrefused, Except.ok.injEq]
  | week =>
      rw [Fits, ← timeClip_later hstart (by omega)]
      simp only [advanceInterval, if_neg hrefused, Except.ok.injEq]
  | month =>
      rw [Fits, ← advanceMonths_later hstart hcount]
      simp only [advanceInterval_months (.inl rfl) hcount, Except.ok.injEq, monthsOf]
  | year =>
      rw [Fits, ← advanceMonths_later hstart (by omega)]
      simp only [advanceInterval_months (.inr rfl) hcount, Except.ok.injEq, monthsOf]

end Advances

/-- What a period ends at is where its interval does. -/
theorem buildPeriod_ends {subscription : Subscription} {plan : Plan} {sequence start finish : Int}
    (hends : advanceInterval start plan.billingInterval plan.intervalCount = .ok (some finish))
    {seen : Seen} {result : Except Thrown SubscriptionPeriod}
    (h : Finishes (buildPeriod subscription plan sequence start) seen result) :
    ∃ period, result = .ok period ∧ period.startsAt = start ∧ period.endsAt = finish := by
  unfold buildPeriod at h
  rw [hends] at h
  obtain ⟨periodId, rest, -, h⟩ := finishes_act.mp h
  obtain ⟨createdAt, rest, -, h⟩ := finishes_act.mp h
  obtain ⟨-, rfl⟩ := finishes_done.mp h
  exact ⟨_, rfl, rfl, rfl⟩

/-- Under every plan that can be published and from every valid start, periods are opened
and renewed exactly where the interval fits. -/
theorem createPlan_leadsOn_iff {store store' : Store} {planId : String} {now start : Int}
    {input : CreatePlanInput} {plan : Plan} {grants : List PlanGrant}
    (h : createPlan store planId now input = .ok (store', plan, grants))
    (hstart : timeClip start = some start) :
    LeadsOn start plan ↔ Fits start plan.billingInterval plan.intervalCount := by
  obtain ⟨-, -, hcount, -⟩ := createPlan_interval h
  rw [← advanceInterval_iff hstart hcount]
  refine ⟨LeadsOn.advances, fun hadvances => ⟨hadvances, ?_⟩⟩
  intro subscription sequence seen result hfinishes
  obtain ⟨finish, hfinish, hlater⟩ := hadvances
  obtain ⟨period, hresult, hstarts, hends⟩ := buildPeriod_ends hfinish hfinishes
  refine ⟨period, hresult, hstarts, ?_⟩
  rw [hstarts, hends]
  exact hlater

/-! ### A plan billed every so many years -/

/-- A plan for so many years at a time. -/
def yearly (count : Int) : CreatePlanInput :=
  ⟨"archive", "Archive", "SAR", 100, .year, some count, [⟨"storage", none⟩]⟩

/-- The plan and its grant. -/
def yearlyPlan (count : Int) : Plan :=
  ⟨"p", "archive", "Archive", "SAR", 100, .year, count, .draft, 0, none, none⟩

def yearlyStore (count : Int) : Store :=
  { Store.offering (Table.empty.put "p" (yearlyPlan count))
      (Table.empty.put (grantKey "p" "storage") ⟨"p", "storage", none⟩) with }

theorem yearly_published (count : Int) (hcount : count = 1 ∨ count = 300000) :
    createPlan (Store.offering Table.empty Table.empty) "p" 0 (yearly count) =
      .ok (yearlyStore count, yearlyPlan count, [⟨"p", "storage", none⟩]) := by
  rcases hcount with rfl | rfl
  · rfl
  · rfl

theorem createPlan_leadsOn_iff_yearly :
    LeadsOn 0 (yearlyPlan 1) ↔ Fits 0 .year 1 :=
  createPlan_leadsOn_iff (yearly_published 1 (.inl rfl)) (by decide)

/-- A plan for 300000 years is published, and no period can be opened under it. -/
theorem createPlan_leadsOn_fails : ¬∀ (store store' : Store) (planId : String) (now start : Int)
    (input : CreatePlanInput) (plan : Plan) (grants : List PlanGrant),
    createPlan store planId now input = .ok (store', plan, grants) →
    timeClip start = some start → LeadsOn start plan := by
  intro htrue
  obtain ⟨finish, hfinish, -⟩ := (htrue _ _ _ _ 0 _ _ _ (yearly_published 300000 (.inr rfl))
    (by decide)).advances
  have hbeyond : advanceInterval 0 .year 300000 = .ok none := by rfl
  have hsame := hbeyond.symm.trans hfinish
  cases hsame

end WaslaCore.Billing
