import WaslaCore.Billing.Coverage

/-!
Entitlement without an order. The answer is found by a loop over the subscriptions of an
owner that stops at the first allowance and otherwise keeps the best refusal; what it
decides is that some paid period of some standing subscription covers the instant under a
plan that leaves room for the quantity. The keys of the tables and the exclusion of
overlapping periods are what makes the rows a lookup finds the only ones.
-/

namespace WaslaCore.Billing

open Data Platform

/-! ### What the tables admit -/

/-- Rows under their own keys, periods of a subscription apart, one grant of a feature
to a plan. -/
structure Admitted (store : Store) : Prop where
  keyed : store.Keyed
  disjoint : Disjoint store
  granted : ∀ grant ∈ store.grants.values, ∀ other ∈ store.grants.values,
    grant.planId = other.planId → grant.featureKey = other.featureKey → grant = other

section Writes

variable {store store' : Store}

/-- A period that is written overlaps no other of its subscription. -/
theorem writePeriod_apart {period : SubscriptionPeriod}
    (h : store.writePeriod period = .ok store') : store.periodOverlapClash period = false := by
  unfold Store.writePeriod at h
  split at h
  · cases h
  split at h
  · cases h
  rename_i hapart
  simpa using hapart

/-- A period that overlaps no other shares no instant with another. -/
theorem not_both_cover {period other : SubscriptionPeriod} {instant : Int}
    (hapart : store.periodOverlapClash period = false) (hother : other ∈ store.periods.values)
    (hmine : other.subscriptionId = period.subscriptionId)
    (hid : other.periodId ≠ period.periodId) (hcovers : periodCovers period instant = true) :
    periodCovers other instant ≠ true := by
  intro hboth
  have hclash := List.any_eq_false.mp hapart other hother
  simp only [periodCovers, Bool.and_eq_true, decide_eq_true_eq] at hcovers hboth
  simp only [hmine, hid, Bool.and_eq_true, decide_eq_true_eq, ne_eq, not_false_eq_true,
    true_and, not_and] at hclash
  omega

/-- The exclusion constraint keeps the periods of a subscription apart. -/
theorem Disjoint.written (h : Disjoint store) (hkeyed : store.Keyed) {period : SubscriptionPeriod}
    (hwrite : store.writePeriod period = .ok store') : Disjoint store' := by
  have hapart := writePeriod_apart hwrite
  obtain ⟨-, rfl⟩ := Store.writePeriod_ok hwrite
  have hold : ∀ {row : SubscriptionPeriod} {subscriptionId : String},
      row ∈ ({ store with periods := store.periods.put period.periodId period } : Store).periodsOf
        subscriptionId → row = period ∧ period.subscriptionId = subscriptionId ∨
          row ∈ store.periodsOf subscriptionId ∧ row.periodId ≠ period.periodId := by
    intro row subscriptionId hrow
    obtain ⟨hvalue, hmine⟩ := List.mem_filter.mp hrow
    obtain ⟨key, hstored⟩ := Table.mem_values.mp hvalue
    rw [Table.get_put] at hstored
    split at hstored
    · obtain rfl := Option.some.inj hstored
      exact .inl ⟨rfl, of_decide_eq_true hmine⟩
    · rename_i hkey
      have hown := hkeyed.periods key row hstored
      exact .inr ⟨List.mem_filter.mpr ⟨Table.mem_values.mpr ⟨key, hstored⟩, hmine⟩,
        fun hid => hkey (hid.symm.trans hown)⟩
  intro subscriptionId row hrow other hother hne instant hboth
  rcases hold hrow with ⟨rfl, howner⟩ | ⟨hkept, hid⟩
  · rcases hold hother with ⟨rfl, -⟩ | ⟨hkept, hid⟩
    · exact hne rfl
    · obtain ⟨hvalue, hmine⟩ := List.mem_filter.mp hkept
      exact not_both_cover hapart hvalue ((of_decide_eq_true hmine).trans howner.symm) hid
        hboth.1 hboth.2
  · rcases hold hother with ⟨rfl, howner⟩ | ⟨hother, -⟩
    · obtain ⟨hvalue, hmine⟩ := List.mem_filter.mp hkept
      exact not_both_cover hapart hvalue ((of_decide_eq_true hmine).trans howner.symm) hid
        hboth.2 hboth.1
    · exact h subscriptionId row hkept other hother hne instant hboth

/-- Whatever is written, the tables admit it. -/
theorem Admitted.applied (h : Admitted store) {write : Write}
    (happly : write.apply store = .ok store') : Admitted store' := by
  have hwrote := apply_wrote h.keyed happly
  have hkeyed := hwrote.keyed h.keyed
  have hdisjoint : Disjoint store' := by
    cases write with
    | insertSubscription subscription =>
        cases hwrote
        exact h.disjoint
    | updateSubscription next =>
        cases hwrote
        · exact h.disjoint
        · exact h.disjoint
    | insertPeriod period =>
        simp only [Write.apply, Store.insertPeriod] at happly
        split at happly
        · cases happly
        · exact h.disjoint.written h.keyed happly
    | updatePeriod next =>
        simp only [Write.apply, Store.updatePeriod] at happly
        split at happly
        · obtain rfl := Except.ok.inj happly
          exact h.disjoint
        · exact h.disjoint.written h.keyed happly
  have hgrants : store'.grants = store.grants := by
    cases hwrote <;> rfl
  exact ⟨hkeyed, hdisjoint, hgrants ▸ h.granted⟩

theorem Admitted.appliedAll (h : Admitted store) {writes : List Write}
    (happly : applyAll store writes = .ok store') : Admitted store' := by
  induction writes generalizing store with
  | nil =>
      obtain rfl := Except.ok.inj happly
      exact h
  | cons write rest ih =>
      obtain ⟨middle, hwrite, hrest⟩ := applyAll_cons happly
      exact ih (h.applied hwrite) hrest

/-- Before anything is sold. -/
theorem Admitted.offering (plans : Table Plan) {grants : Table PlanGrant}
    (hgrants : ∀ grant ∈ grants.values, ∀ other ∈ grants.values,
      grant.planId = other.planId → grant.featureKey = other.featureKey → grant = other) :
    Admitted (Store.offering plans grants) where
  keyed := Store.keyed_offering plans grants
  disjoint := by
    intro subscriptionId period hperiod
    cases hperiod
  granted := hgrants

end Writes

/-! ### The answer -/

/-- What an owner is entitled to: some subscription that is active or cancelled has a paid
period covering the instant, and its plan grants the feature without a limit or with the
quantity left of it. -/
def Entitled (store : Store) (usage : Table UsageRecord) (ownerType : SubscriptionOwnerType)
    (ownerId featureKey : String) (quantity instant : Int) : Prop :=
  ∃ subscription ∈ store.subscriptions.values,
    subscription.ownerType = ownerType ∧ subscription.ownerId = ownerId ∧
    (subscription.status = .active ∨ subscription.status = .cancelled) ∧
    ∃ period ∈ store.periods.values,
      period.subscriptionId = subscription.subscriptionId ∧ period.status = .settled ∧
      period.startsAt ≤ instant ∧ instant < period.endsAt ∧
      ∃ grant ∈ store.grants.values,
        grant.planId = subscription.planId ∧ grant.featureKey = featureKey ∧
        ∀ limit, grant.limitValue = some limit →
          usageTotal usage period.periodId featureKey + quantity ≤ limit

section Decision

variable {store : Store} {usage : Table UsageRecord} {featureKey : String} {quantity instant : Int}

/-- The grant a lookup finds is the one there is. -/
theorem Admitted.findGrant_iff (h : Admitted store) {planId : String} {grant : PlanGrant} :
    store.findGrant planId featureKey = some grant ↔
      grant ∈ store.grants.values ∧ grant.planId = planId ∧ grant.featureKey = featureKey := by
  constructor
  · intro hfound
    have hkeys := List.find?_some hfound
    simp only [Bool.and_eq_true, decide_eq_true_eq] at hkeys
    exact ⟨List.mem_of_find?_eq_some hfound, hkeys⟩
  · rintro ⟨hgrant, rfl, rfl⟩
    cases hfound : store.findGrant grant.planId grant.featureKey with
    | none =>
        have hnone := List.find?_eq_none.mp hfound grant hgrant
        simp at hnone
    | some found =>
        have hkeys := List.find?_some hfound
        simp only [Bool.and_eq_true, decide_eq_true_eq] at hkeys
        exact congrArg some (h.granted found (List.mem_of_find?_eq_some hfound) grant hgrant
          hkeys.1 hkeys.2)

/-- The period a lookup finds is the one that covers the instant. -/
theorem Admitted.findPeriodCovering_iff (h : Admitted store) {subscriptionId : String}
    {period : SubscriptionPeriod} :
    store.findPeriodCovering subscriptionId instant = some period ↔
      period ∈ store.periods.values ∧ period.subscriptionId = subscriptionId ∧
        period.startsAt ≤ instant ∧ instant < period.endsAt := by
  constructor
  · intro hfound
    obtain ⟨hvalue, hmine⟩ := List.mem_filter.mp (List.mem_of_find?_eq_some hfound)
    have hcovers := List.find?_some hfound
    simp only [periodCovers, Bool.and_eq_true, decide_eq_true_eq] at hcovers
    exact ⟨hvalue, of_decide_eq_true hmine, hcovers⟩
  · rintro ⟨hvalue, rfl, hcovers⟩
    have hcovering : periodCovers period instant = true := by
      simpa only [periodCovers, Bool.and_eq_true, decide_eq_true_eq] using hcovers
    have hmember : period ∈ store.periodsOf period.subscriptionId :=
      List.mem_filter.mpr ⟨hvalue, by simp⟩
    cases hfound : store.findPeriodCovering period.subscriptionId instant with
    | none => exact absurd hcovering (List.find?_eq_none.mp hfound period hmember)
    | some found =>
        by_contra hne
        refine h.disjoint period.subscriptionId found (List.mem_of_find?_eq_some hfound) period
          hmember (fun hsame => hne (congrArg some hsame)) instant ⟨?_, hcovering⟩
        simpa using List.find?_some hfound

/-- A decision allows what a standing subscription, a paid period and a grant with enough
left allow. -/
theorem decideEntitlement_allowed (subscription : Subscription)
    (period : Option SubscriptionPeriod) (grant : Option PlanGrant) (used : Int) :
    (decideEntitlement ⟨featureKey, quantity, some subscription, period, grant, used⟩).allowed =
        true ↔
      (subscription.status = .active ∨ subscription.status = .cancelled) ∧
        ∃ covering, period = some covering ∧ covering.status = .settled ∧
          ∃ granted, grant = some granted ∧
            ∀ limit, granted.limitValue = some limit → used + quantity ≤ limit := by
  unfold decideEntitlement
  cases hstatus : subscription.status with
  | pastDue => simp [hstatus]
  | expired => simp [hstatus]
  | active | cancelled =>
      cases period with
      | none => simp [hstatus]
      | some covering =>
          by_cases hpaid : covering.status = .settled
          · cases grant with
            | none => simp [hstatus, periodIsPaid, hpaid]
            | some granted =>
                cases hlimit : granted.limitValue with
                | none => simp [hstatus, periodIsPaid, hpaid, hlimit]
                | some limit =>
                    by_cases hroom : quantity > limit - used
                    · simp [hstatus, periodIsPaid, hpaid, hlimit, hroom]
                      omega
                    · simp [hstatus, periodIsPaid, hpaid, hlimit, hroom]
                      omega
          · simp [hstatus, periodIsPaid, hpaid]

/-- What one subscription answers, without the order its rows are looked up in. -/
theorem Admitted.decideFor_iff (h : Admitted store) (subscription : Subscription) :
    (decideFor store usage featureKey quantity instant subscription).allowed = true ↔
      (subscription.status = .active ∨ subscription.status = .cancelled) ∧
        ∃ period ∈ store.periods.values,
          period.subscriptionId = subscription.subscriptionId ∧ period.status = .settled ∧
          period.startsAt ≤ instant ∧ instant < period.endsAt ∧
          ∃ grant ∈ store.grants.values,
            grant.planId = subscription.planId ∧ grant.featureKey = featureKey ∧
            ∀ limit, grant.limitValue = some limit →
              usageTotal usage period.periodId featureKey + quantity ≤ limit := by
  unfold decideFor
  rw [decideEntitlement_allowed]
  refine and_congr_right fun _ => ?_
  constructor
  · rintro ⟨period, hfound, hsettled, grant, hgrant, hroom⟩
    obtain ⟨hvalue, hmine, hcovers⟩ := h.findPeriodCovering_iff.mp hfound
    obtain ⟨hstored, hplan, hfeature⟩ := h.findGrant_iff.mp hgrant
    rw [hfound] at hroom
    exact ⟨period, hvalue, hmine, hsettled, hcovers.1, hcovers.2, grant, hstored, hplan, hfeature,
      hroom⟩
  · rintro ⟨period, hvalue, hmine, hsettled, hstarted, hends, grant, hstored, hplan, hfeature,
      hroom⟩
    have hfound := h.findPeriodCovering_iff.mpr ⟨hvalue, hmine, hstarted, hends⟩
    refine ⟨period, hfound, hsettled, grant, h.findGrant_iff.mpr ⟨hstored, hplan, hfeature⟩, ?_⟩
    rw [hfound]
    exact hroom

/-- The loop allows where one of the subscriptions does: what it carries on is a refusal. -/
theorem decideAmong_allowed {rows : List Subscription} {best : Option EntitlementDecision}
    (hbest : ∀ kept, best = some kept → kept.allowed = false) :
    (decideAmong store usage featureKey quantity instant rows best).allowed = true ↔
      ∃ row ∈ rows, (decideFor store usage featureKey quantity instant row).allowed = true := by
  induction rows generalizing best with
  | nil =>
      cases best with
      | none => simp [decideAmong, decideEntitlement]
      | some kept => simp [decideAmong, hbest kept rfl]
  | cons row rest ih =>
      by_cases hallowed :
          (decideFor store usage featureKey quantity instant row).allowed = true
      · simp [decideAmong, hallowed]
      · have hrefused := Bool.eq_false_iff.mpr hallowed
        rw [decideAmong, if_neg hallowed, ih]
        · simp [hrefused]
        · intro kept hkept
          cases best with
          | none =>
              obtain rfl := Option.some.inj hkept
              exact hrefused
          | some earlier =>
              simp only [moreInformative] at hkept
              split at hkept
              · obtain rfl := Option.some.inj hkept
                exact hrefused
              · obtain rfl := Option.some.inj hkept
                exact hbest earlier rfl

end Decision

/-- The request is answered, and the answer is whether the owner is entitled. -/
theorem Admitted.answered {now instant : Int} {store : Store} (h : Admitted store)
    (usage : Table UsageRecord) {input : EntitlementInput} (hvalid : input.Valid)
    (hasked : askedInstant now input.askedAt = .ok instant) :
    ∃ decision, checkEntitlement now store usage input = .ok decision ∧
      (decision.allowed = true ↔ Entitled store usage input.ownerType input.ownerId
        (trim input.featureKey) (input.quantity.getD 1) instant) := by
  refine ⟨decideAmong store usage (trim input.featureKey) (input.quantity.getD 1) instant
    (orderedBy (fun item => [.number item.createdAt])
      (store.listSubscriptionsForOwner input.ownerType input.ownerId)) none, ?_, ?_⟩
  · simp only [checkEntitlement, hvalid.owner, hvalid.feature, hvalid.quantity, hasked]
    rfl
  · have hnone : ∀ kept, (none : Option EntitlementDecision) = some kept →
        kept.allowed = false := by
      intro kept hkept
      cases hkept
    rw [decideAmong_allowed hnone]
    simp only [mem_orderedBy, Store.listSubscriptionsForOwner, List.mem_filter, Bool.and_eq_true,
      decide_eq_true_eq, h.decideFor_iff, Entitled]
    constructor
    · rintro ⟨row, ⟨hrow, htype, hid⟩, hrest⟩
      exact ⟨row, hrow, htype, hid, hrest⟩
    · rintro ⟨row, hrow, htype, hid, hrest⟩
      exact ⟨row, ⟨hrow, htype, hid⟩, hrest⟩

/-! ### Any order of the rows -/

/-- The same rows under the same keys, in another order. -/
structure Rearranged (store store' : Store) : Prop where
  subscriptions : store.subscriptions.entries.Perm store'.subscriptions.entries
  periods : store.periods.entries.Perm store'.periods.entries
  grants : store.grants.entries.Perm store'.grants.entries

section Orders

variable {store store' : Store}

theorem get_rearranged {α : Type} {table table' : Table α}
    (h : table.entries.Perm table'.entries) (key : String) : table'.get key = table.get key := by
  refine Option.ext fun row => ?_
  rw [Table.get_eq_some, Table.get_eq_some]
  exact h.symm.mem_iff

theorem values_rearranged {α : Type} {table table' : Table α}
    (h : table.entries.Perm table'.entries) : table.values.Perm table'.values :=
  h.map Prod.snd

theorem Rearranged.admitted (h : Rearranged store store') (hadmitted : Admitted store) :
    Admitted store' where
  keyed :=
    { subscriptions := by
        intro key row hrow
        rw [get_rearranged h.subscriptions] at hrow
        exact hadmitted.keyed.subscriptions key row hrow
      periods := by
        intro key row hrow
        rw [get_rearranged h.periods] at hrow
        exact hadmitted.keyed.periods key row hrow }
  disjoint := by
    intro subscriptionId period hperiod other hother
    have hsame := (values_rearranged h.periods).symm.filter
      (fun period => decide (period.subscriptionId = subscriptionId))
    exact hadmitted.disjoint subscriptionId period (hsame.mem_iff.mp hperiod) other
      (hsame.mem_iff.mp hother)
  granted := by
    intro grant hgrant other hother
    have hsame := (values_rearranged h.grants).symm
    exact hadmitted.granted grant (hsame.mem_iff.mp hgrant) other (hsame.mem_iff.mp hother)

theorem usageTotal_rearranged {usage usage' : Table UsageRecord}
    (h : usage.entries.Perm usage'.entries) (periodId featureKey : String) :
    usageTotal usage' periodId featureKey = usageTotal usage periodId featureKey :=
  (((values_rearranged h).symm.filter _).map UsageRecord.quantity).sum_eq

/-- What an owner is entitled to does not depend on the order of the rows. -/
theorem Rearranged.entitled (h : Rearranged store store') {usage usage' : Table UsageRecord}
    (husage : usage.entries.Perm usage'.entries) (ownerType : SubscriptionOwnerType)
    (ownerId featureKey : String) (quantity instant : Int) :
    Entitled store' usage' ownerType ownerId featureKey quantity instant ↔
      Entitled store usage ownerType ownerId featureKey quantity instant := by
  simp only [Entitled, usageTotal_rearranged husage, (values_rearranged h.subscriptions).mem_iff,
    (values_rearranged h.periods).mem_iff, (values_rearranged h.grants).mem_iff]

end Orders

/-- For every store the tables admit, a request is allowed exactly where some active or
cancelled subscription of the owner has a paid period covering the instant whose plan
grants the feature with enough left of it, in whatever order the rows stand. -/
theorem checkEntitlement_existential {now instant : Int} {store : Store}
    {usage : Table UsageRecord} {input : EntitlementInput} (h : Admitted store)
    (hvalid : input.Valid) (hasked : askedInstant now input.askedAt = .ok instant) :
    ∃ decision, checkEntitlement now store usage input = .ok decision ∧
      (decision.allowed = true ↔ Entitled store usage input.ownerType input.ownerId
        (trim input.featureKey) (input.quantity.getD 1) instant) ∧
      ∀ (store' : Store) (usage' : Table UsageRecord), Rearranged store store' →
        usage.entries.Perm usage'.entries →
        ∃ decision', checkEntitlement now store' usage' input = .ok decision' ∧
          decision'.allowed = decision.allowed := by
  obtain ⟨decision, hdecided, hentitled⟩ := h.answered usage hvalid hasked
  refine ⟨decision, hdecided, hentitled, fun store' usage' hstores husage => ?_⟩
  obtain ⟨decision', hdecided', hentitled'⟩ :=
    (hstores.admitted h).answered usage' hvalid hasked
  refine ⟨decision', hdecided', Bool.eq_iff_iff.mpr ?_⟩
  rw [hentitled, hentitled', hstores.entitled husage]

/-- An owner on the monthly plan, with a paid period. -/
def paidUp : Store :=
  match applyAll (Store.offering (priceList [monthly]) supported)
    [.insertSubscription ⟨idOf '4', .identity, idOf '1', idOf '9', idOf '2', .active, 0, none, none,
      none⟩,
     .insertPeriod ⟨idOf '5', idOf '4', 1, 0, 2678400000, "SAR", 0, .settled, none, 0, some 0,
      none⟩] with
  | .ok store => store
  | .error _ => Store.offering (priceList [monthly]) supported

theorem paidUp_admitted : Admitted paidUp := by
  have hoffered : Admitted (Store.offering (priceList [monthly]) supported) := by
    apply Admitted.offering
    decide +kernel
  unfold paidUp
  split
  · rename_i store happlied
    exact hoffered.appliedAll happlied
  · exact hoffered

theorem checkEntitlement_existential_paidUp :
    ∃ decision, checkEntitlement 0 paidUp Table.empty supportAsked = .ok decision ∧
      (decision.allowed = true ↔ Entitled paidUp Table.empty .identity (idOf '1')
        (trim "support") 1 864000000) ∧
      ∀ (store' : Store) (usage' : Table UsageRecord), Rearranged paidUp store' →
        (Table.empty : Table UsageRecord).entries.Perm usage'.entries →
        ∃ decision', checkEntitlement 0 store' usage' supportAsked = .ok decision' ∧
          decision'.allowed = decision.allowed :=
  checkEntitlement_existential paidUp_admitted supportAsked_valid rfl

end WaslaCore.Billing
