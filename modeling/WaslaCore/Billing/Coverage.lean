import WaslaCore.Billing.Entitlement
import WaslaCore.Billing.Solo

/-!
The end of coverage a cancellation announces. It is computed from the one period that
covers the instant of the cancellation, while an entitlement is decided by whichever paid
period covers the instant asked for: the two agree unless a period that starts after the
cancellation is paid for.
-/

namespace WaslaCore.Billing

open Data Interleaving Platform

/-! ### Nothing paid ahead -/

/-- A write that cancels a subscription finds none of its paid periods starting later,
and one that settles a period of a cancelled subscription settles one that had started
when it was cancelled. -/
def Write.honours (store : Store) : Write → Bool
  | .updateSubscription next =>
      next.status ≠ .cancelled || (store.periodsOf next.subscriptionId).all (fun period =>
        period.status ≠ .settled || next.cancelledAt.all (fun instant => period.startsAt ≤ instant))
  | .updatePeriod next =>
      next.status ≠ .settled || (store.getSubscription next.subscriptionId).all (fun row =>
        row.cancelledAt.all (fun instant => next.startsAt ≤ instant))
  | _ => true

/-- No commit leaves a cancelled subscription with a paid period that starts after its
cancellation. -/
def honouring : Action → Books → Bool
  | .commit _ writes, books => writes.all (Write.honours books.store)
  | _, _ => true

/-! ### Coverage -/

/-- A paid period covers the instant. -/
def Store.covered (store : Store) (subscriptionId : String) (instant : Int) : Prop :=
  ∃ periodId period, store.getPeriod periodId = some period ∧
    period.subscriptionId = subscriptionId ∧ period.status = .settled ∧
    periodCovers period instant = true

/-- What a cancelled subscription keeps: from its cancellation on it is covered up to
its end, and no period that could still be paid for covers any of that time. -/
structure CoveredUntil (store : Store) (subscriptionId : String) (instant finish : Int) : Prop where
  covered : ∀ later, instant ≤ later → (store.covered subscriptionId later ↔ later < finish)
  closed : ∀ periodId period, store.getPeriod periodId = some period →
    period.subscriptionId = subscriptionId → period.isOpen → period.startsAt ≤ instant →
    period.endsAt ≤ instant

/-- Every cancelled subscription is covered until the end it carries. -/
def Honoured (store : Store) : Prop :=
  ∀ subscriptionId row, store.getSubscription subscriptionId = some row → row.status = .cancelled →
    ∃ instant finish, row.cancelledAt = some instant ∧ row.endedAt = some finish ∧
      CoveredUntil store subscriptionId instant finish

/-- Every announcement of a cancellation is of a subscription that stopped, and names the
end it carries while it is cancelled. -/
def Announces (store : Store) (outbox : List Event) : Prop :=
  ∀ event ∈ outbox, event.eventType = "core.subscription.cancelled" →
    ∃ row, store.getSubscription event.entityId = some row ∧ row.isStopped = true ∧
      (row.status = .cancelled → ∀ value, ("coverage_ends_at", value) ∈ event.payload →
        value = .optionalNumber row.endedAt)

/-- Periods of a subscription do not overlap. -/
def Disjoint (store : Store) : Prop :=
  ∀ subscriptionId, ∀ period ∈ store.periodsOf subscriptionId,
    ∀ other ∈ store.periodsOf subscriptionId, period ≠ other →
      ∀ instant, ¬(periodCovers period instant = true ∧ periodCovers other instant = true)

section Rows

variable {store : Store}

/-- Of the periods of a subscription the covering one is the only one. -/
theorem Disjoint.unique (h : Disjoint store) (hkeyed : store.Keyed) {subscriptionId : String}
    {instant : Int} {first second : SubscriptionPeriod} {firstId secondId : String}
    (hfirst : store.getPeriod firstId = some first) (hmine : first.subscriptionId = subscriptionId)
    (hcovers : periodCovers first instant = true)
    (hsecond : store.getPeriod secondId = some second)
    (hmine' : second.subscriptionId = subscriptionId)
    (hcovers' : periodCovers second instant = true) : first = second := by
  by_contra hne
  have hkey := hkeyed.periods firstId first hfirst
  have hkey' := hkeyed.periods secondId second hsecond
  exact h subscriptionId first ((mem_periodsOf hkeyed).mpr ⟨hkey ▸ hfirst, hmine⟩) second
    ((mem_periodsOf hkeyed).mpr ⟨hkey' ▸ hsecond, hmine'⟩) hne instant ⟨hcovers, hcovers'⟩

/-- The period a read finds is the paid one, where there is one. -/
theorem covered_iff (hkeyed : store.Keyed) (hdisjoint : Disjoint store) {subscriptionId : String}
    {instant : Int} : store.covered subscriptionId instant ↔
      ∃ period, store.findPeriodCovering subscriptionId instant = some period ∧
        period.status = .settled := by
  constructor
  · rintro ⟨periodId, period, hstored, hmine, hsettled, hcovers⟩
    have hkey := hkeyed.periods periodId period hstored
    have hmember : period ∈ store.periodsOf subscriptionId :=
      (mem_periodsOf hkeyed).mpr ⟨hkey ▸ hstored, hmine⟩
    cases hfound : store.findPeriodCovering subscriptionId instant with
    | none =>
        have hnone := List.find?_eq_none.mp hfound period hmember
        exact absurd hcovers hnone
    | some found =>
        obtain ⟨hother, howner, hcovers'⟩ := covering_stored hkeyed hfound
        have hsame := hdisjoint.unique hkeyed hstored hmine hcovers hother howner hcovers'
        exact ⟨found, rfl, hsame ▸ hsettled⟩
  · rintro ⟨period, hfound, hsettled⟩
    obtain ⟨hstored, hmine, hcovers⟩ := covering_stored hkeyed hfound
    exact ⟨period.periodId, period, hstored, hmine, hsettled, hcovers⟩

theorem CoveredUntil.of_periods {store' : Store} {subscriptionId : String} {instant finish : Int}
    (h : CoveredUntil store subscriptionId instant finish)
    (hperiods : store'.periods = store.periods) :
    CoveredUntil store' subscriptionId instant finish := by
  have hsame : ∀ periodId, store'.getPeriod periodId = store.getPeriod periodId :=
    fun periodId => congrArg (fun periods => periods.get periodId) hperiods
  refine ⟨fun later hlater => ?_, fun periodId period hstored => ?_⟩
  · rw [← h.covered later hlater]
    simp only [Store.covered, hsame]
  · rw [hsame] at hstored
    exact h.closed periodId period hstored

/-- Coverage from the cancellation on is carried by what was paid before, whatever is
written of a period that is over or could not be collected. -/
theorem CoveredUntil.put {subscriptionId : String} {instant finish : Int}
    (h : CoveredUntil store subscriptionId instant finish) (next : SubscriptionPeriod)
    (subscriptions : Table Subscription)
    (hunpaid : ∀ old, store.getPeriod next.periodId = some old → old.status ≠ .settled)
    (hnext : next.subscriptionId = subscriptionId → next.endsAt ≤ instant ∨
      next.status = .uncollectible ∧ ∃ old, store.getPeriod next.periodId = some old ∧
        old.subscriptionId = subscriptionId ∧ old.isOpen ∧ old.startsAt = next.startsAt ∧
        old.endsAt = next.endsAt) :
    CoveredUntil { store with
      subscriptions := subscriptions
      periods := store.periods.put next.periodId next } subscriptionId instant finish where
  covered := by
    intro later hlater
    rw [← h.covered later hlater]
    constructor
    · rintro ⟨periodId, period, hstored, hmine, hsettled, hcovers⟩
      simp only [Store.getPeriod, Table.get_put] at hstored
      split at hstored
      · obtain rfl := Option.some.inj hstored
        rcases hnext hmine with hover | ⟨huncollectible, -⟩
        · simp only [periodCovers, Bool.and_eq_true, decide_eq_true_eq] at hcovers
          omega
        · rw [huncollectible] at hsettled
          cases hsettled
      · exact ⟨periodId, period, hstored, hmine, hsettled, hcovers⟩
    · rintro ⟨periodId, period, hstored, hmine, hsettled, hcovers⟩
      have hother : next.periodId ≠ periodId :=
        fun hid => hunpaid period (hid ▸ hstored) hsettled
      exact ⟨periodId, period, (Table.get_put_ne _ _ hother).trans hstored, hmine, hsettled,
        hcovers⟩
  closed := by
    intro periodId period hstored hmine hopen hstarted
    simp only [Store.getPeriod, Table.get_put] at hstored
    split at hstored
    · obtain rfl := Option.some.inj hstored
      rcases hnext hmine with hover | ⟨-, old, hold, hmine', hopen', hstarts, hends⟩
      · exact hover
      · rw [← hends]
        exact h.closed next.periodId old hold hmine' hopen' (hstarts ▸ hstarted)
    · exact h.closed periodId period hstored hmine hopen hstarted

/-- The end a cancellation announces. -/
def coverageEnd (current : Option SubscriptionPeriod) (instant : Int) : Int :=
  match current with
  | none => instant
  | some period => if period.status = .settled then period.endsAt else instant

theorem voiding_settled (store : Store) {period : SubscriptionPeriod}
    (h : period.status = .settled) : store.voiding (some period) = store.periods := by
  simp [Store.voiding, voidable, Option.filter_some, h]

theorem voiding_unsettled (store : Store) {period : SubscriptionPeriod}
    (h : period.status ≠ .settled) :
    store.voiding (some period) = store.periods.put period.periodId (voidedRow period) := by
  simp [Store.voiding, voidable, Option.filter_some, h]

theorem mem_of_stored (hkeyed : store.Keyed) {periodId : String} {period : SubscriptionPeriod}
    (hstored : store.getPeriod periodId = some period) :
    period ∈ store.periodsOf period.subscriptionId :=
  (mem_periodsOf hkeyed).mpr ⟨hkeyed.periods periodId period hstored ▸ hstored, rfl⟩

/-- A period that has started and is not over covers the instant. -/
theorem covers_of_reached {period : SubscriptionPeriod} {instant : Int}
    (hstart : period.startsAt ≤ instant) (hend : ¬period.endsAt ≤ instant) :
    periodCovers period instant = true := by
  simp only [periodCovers, Bool.and_eq_true, decide_eq_true_eq]
  omega

/-- No paid period of the subscription starts after the instant. -/
def StartedBy (store : Store) (subscriptionId : String) (instant : Int) : Prop :=
  ∀ period ∈ store.periodsOf subscriptionId, period.status = .settled → period.startsAt ≤ instant

/-- A paid period that covers a later instant covers the cancellation. -/
theorem StartedBy.covers {subscriptionId : String} {instant later : Int}
    (h : StartedBy store subscriptionId instant) (hkeyed : store.Keyed) (hlater : instant ≤ later)
    {periodId : String} {period : SubscriptionPeriod}
    (hstored : store.getPeriod periodId = some period)
    (hmine : period.subscriptionId = subscriptionId) (hsettled : period.status = .settled)
    (hcovers : periodCovers period later = true) : periodCovers period instant = true := by
  have hstart := h period (hmine ▸ mem_of_stored hkeyed hstored) hsettled
  simp only [periodCovers, Bool.and_eq_true, decide_eq_true_eq] at hcovers ⊢
  omega

theorem isOpen_ne_settled {period : SubscriptionPeriod} (h : period.isOpen) :
    period.status ≠ .settled := by
  rcases h with hpending | huncollectible
  · simp [hpending]
  · simp [huncollectible]

section Cancelled

variable {subscriptionId : String} {instant : Int} (subscriptions : Table Subscription)
  (hkeyed : store.Keyed) (hstarted : StartedBy store subscriptionId instant)

include hkeyed hstarted

/-- Cancelled in no period: covered no more. -/
theorem CoveredUntil.uncovered
    (hcurrent : store.findPeriodCovering subscriptionId instant = none) :
    CoveredUntil { store with subscriptions := subscriptions } subscriptionId instant instant := by
  have hnone : ∀ {periodId period}, store.getPeriod periodId = some period →
      period.subscriptionId = subscriptionId → periodCovers period instant ≠ true :=
    fun hstored hmine => List.find?_eq_none.mp hcurrent _ (hmine ▸ mem_of_stored hkeyed hstored)
  refine ⟨fun later hlater => ⟨?_, fun hbefore => ?_⟩, fun periodId period hstored hmine _ hstart => ?_⟩
  · rintro ⟨periodId, period, hstored, hmine, hsettled, hcovers⟩
    exact absurd (hstarted.covers hkeyed hlater hstored hmine hsettled hcovers)
      (hnone hstored hmine)
  · omega
  · by_contra hend
    exact hnone hstored hmine (covers_of_reached hstart hend)

variable (hdisjoint : Disjoint store) {period : SubscriptionPeriod}
  (hcurrent : store.findPeriodCovering subscriptionId instant = some period)

include hdisjoint hcurrent

/-- Cancelled in a paid period: covered to its end. -/
theorem CoveredUntil.paid (hsettled : period.status = .settled) :
    CoveredUntil { store with subscriptions := subscriptions } subscriptionId instant
      period.endsAt := by
  obtain ⟨hthere, howner, hcovering⟩ := covering_stored hkeyed hcurrent
  refine ⟨fun later hlater => ⟨?_, fun hbefore => ?_⟩, fun periodId other hstored hmine hopen hstart => ?_⟩
  · rintro ⟨periodId, other, hstored, hmine, hpaid, hcovers⟩
    have hcovers' := hstarted.covers hkeyed hlater hstored hmine hpaid hcovers
    obtain rfl := hdisjoint.unique hkeyed hstored hmine hcovers' hthere howner hcovering
    simp only [periodCovers, Bool.and_eq_true, decide_eq_true_eq] at hcovers
    exact hcovers.2
  · refine ⟨period.periodId, period, hthere, howner, hsettled, ?_⟩
    simp only [periodCovers, Bool.and_eq_true, decide_eq_true_eq] at hcovering ⊢
    omega
  · by_contra hend
    obtain rfl := hdisjoint.unique hkeyed hstored hmine (covers_of_reached hstart hend) hthere
      howner hcovering
    exact isOpen_ne_settled hopen hsettled

/-- Cancelled in a period that was never paid, which is voided: covered no more. -/
theorem CoveredUntil.unpaid (hunsettled : period.status ≠ .settled) :
    CoveredUntil { store with
      subscriptions := subscriptions
      periods := store.periods.put period.periodId (voidedRow period) } subscriptionId instant
      instant := by
  obtain ⟨hthere, howner, hcovering⟩ := covering_stored hkeyed hcurrent
  have hother : ∀ {periodId other},
      (store.periods.put period.periodId (voidedRow period)).get periodId = some other →
      other.status ≠ .voided → store.getPeriod periodId = some other ∧ period.periodId ≠ periodId := by
    intro periodId other hstored hstatus
    rw [Table.get_put] at hstored
    split at hstored
    · rw [← Option.some.inj hstored] at hstatus
      exact absurd rfl hstatus
    · rename_i hne
      exact ⟨hstored, hne⟩
  refine ⟨fun later hlater => ⟨?_, fun hbefore => ?_⟩, fun periodId other hstored hmine hopen hstart => ?_⟩
  · rintro ⟨periodId, other, hstored, hmine, hpaid, hcovers⟩
    obtain ⟨hbefore, -⟩ := hother hstored (by simp [hpaid])
    have hcovers' := hstarted.covers hkeyed hlater hbefore hmine hpaid hcovers
    obtain rfl := hdisjoint.unique hkeyed hbefore hmine hcovers' hthere howner hcovering
    exact absurd hpaid hunsettled
  · omega
  · have hstatus : other.status ≠ .voided := by
      rcases hopen with hpending | huncollectible
      · simp [hpending]
      · simp [huncollectible]
    obtain ⟨hbefore, hne⟩ := hother hstored hstatus
    by_contra hend
    obtain rfl := hdisjoint.unique hkeyed hbefore hmine (covers_of_reached hstart hend) hthere
      howner hcovering
    exact hne (hkeyed.periods _ _ hbefore)

end Cancelled

/-- Where nothing was paid ahead, a cancelled subscription is covered up to the end of
the period that covers its cancellation, if that was paid. -/
theorem CoveredUntil.cancelled (hkeyed : store.Keyed) (hdisjoint : Disjoint store)
    {subscriptionId : String} {instant : Int} {current : Option SubscriptionPeriod}
    (subscriptions : Table Subscription)
    (hcurrent : store.findPeriodCovering subscriptionId instant = current)
    (hstarted : StartedBy store subscriptionId instant) :
    CoveredUntil { store with
      subscriptions := subscriptions
      periods := store.voiding current } subscriptionId instant (coverageEnd current instant) := by
  cases current with
  | none => exact .uncovered subscriptions hkeyed hstarted hcurrent
  | some period =>
      by_cases hsettled : period.status = .settled
      · rw [voiding_settled store hsettled, coverageEnd, if_pos hsettled]
        exact .paid subscriptions hkeyed hstarted hdisjoint hcurrent hsettled
      · rw [voiding_unsettled store hsettled, coverageEnd, if_neg hsettled]
        exact .unpaid subscriptions hkeyed hstarted hdisjoint hcurrent hsettled

/-! ### What a commit leaves -/

theorem Honoured.settled (h : Honoured store) {period : SubscriptionPeriod}
    {subscription : Subscription} {authorizationId : Option String} {instant : Int}
    (hcollecting : Collecting store period subscription)
    (htest : Write.honours store (.updatePeriod (settledRow period authorizationId instant)) =
      true) :
    Honoured { store with
      periods := store.periods.put period.periodId (settledRow period authorizationId instant)
      subscriptions := store.revived subscription } := by
  intro subscriptionId row hrow hcancelled
  have hbefore : store.getSubscription subscriptionId = some row := by
    by_cases hlapsed : subscription.status = .pastDue
    · simp only [Store.getSubscription, Store.revived, if_pos hlapsed, Table.get_put] at hrow
      split at hrow
      · rw [← Option.some.inj hrow] at hcancelled
        cases hcancelled
      · exact hrow
    · simp only [Store.getSubscription, Store.revived, if_neg hlapsed] at hrow
      exact hrow
  obtain ⟨ended, finish, hended, hfinish, hcovered⟩ := h subscriptionId row hbefore hcancelled
  refine ⟨ended, finish, hended, hfinish, ?_⟩
  have hstored := hcollecting.stored
  refine hcovered.put (settledRow period authorizationId instant) (store.revived subscription)
    ?_ ?_
  · intro old hold
    rw [show store.getPeriod period.periodId = some old from hold] at hstored
    rw [Option.some.inj hstored]
    exact isOpen_ne_settled hcollecting.unpaid
  · intro hmine
    have hmine' : period.subscriptionId = subscriptionId := hmine
    -- a period that is still to be paid had ended by the cancellation, if it had started
    have hsold := hcollecting.sold
    rw [hmine', hbefore] at hsold
    obtain rfl := Option.some.inj hsold
    have hstart : period.startsAt ≤ ended := by
      simpa [Write.honours, settledRow, hmine', hbefore, hended] using htest
    exact .inl (hcovered.closed period.periodId period hstored hmine' hcollecting.unpaid hstart)

theorem Honoured.uncollectible (h : Honoured store) {period : SubscriptionPeriod}
    {subscription : Subscription} {reason : String}
    (hcollecting : Collecting store period subscription) :
    Honoured { store with
      periods := store.periods.put period.periodId (uncollectibleRow period reason)
      subscriptions := store.lapsed subscription } := by
  intro subscriptionId row hrow hcancelled
  have hbefore : store.getSubscription subscriptionId = some row := by
    by_cases hactive : subscription.status = .active
    · simp only [Store.getSubscription, Store.lapsed, if_pos hactive, Table.get_put] at hrow
      split at hrow
      · rw [← Option.some.inj hrow] at hcancelled
        cases hcancelled
      · exact hrow
    · simp only [Store.getSubscription, Store.lapsed, if_neg hactive] at hrow
      exact hrow
  obtain ⟨ended, finish, hended, hfinish, hcovered⟩ := h subscriptionId row hbefore hcancelled
  refine ⟨ended, finish, hended, hfinish, ?_⟩
  have hstored := hcollecting.stored
  refine hcovered.put (uncollectibleRow period reason) (store.lapsed subscription) ?_ ?_
  · intro old hold
    rw [show store.getPeriod period.periodId = some old from hold] at hstored
    rw [Option.some.inj hstored]
    exact isOpen_ne_settled hcollecting.unpaid
  · intro hmine
    exact .inr ⟨rfl, period, hstored, hmine, hcollecting.unpaid, rfl, rfl⟩

/-- A cancellation that finds nothing paid ahead is honoured, and touches no other. -/
theorem Honoured.cancelled (h : Honoured store) (hkeyed : store.Keyed) (hdisjoint : Disjoint store)
    {subscription : Subscription} {reason : String} {instant : Int}
    {current : Option SubscriptionPeriod}
    (hcurrent : store.findPeriodCovering subscription.subscriptionId instant = current)
    (hstarted : StartedBy store subscription.subscriptionId instant) :
    Honoured { store with
      subscriptions := store.subscriptions.put subscription.subscriptionId
        (cancelledRow subscription reason current instant)
      periods := store.voiding current } := by
  intro subscriptionId row hrow hcancelled
  by_cases hsame : subscription.subscriptionId = subscriptionId
  · subst hsame
    simp only [Store.getSubscription, Table.get_put_self] at hrow
    obtain rfl := Option.some.inj hrow
    exact ⟨instant, coverageEnd current instant, rfl, rfl,
      .cancelled hkeyed hdisjoint _ hcurrent hstarted⟩
  · have hbefore : store.getSubscription subscriptionId = some row :=
      (Table.get_put_ne _ _ hsame).symm.trans hrow
    obtain ⟨ended, finish, hended, hfinish, hcovered⟩ := h subscriptionId row hbefore hcancelled
    refine ⟨ended, finish, hended, hfinish, ?_⟩
    cases current with
    | none => exact hcovered.of_periods rfl
    | some period =>
        by_cases hsettled : period.status = .settled
        · rw [voiding_settled store hsettled]
          exact hcovered.of_periods rfl
        · rw [voiding_unsettled store hsettled]
          obtain ⟨hthere, howner, -⟩ := covering_stored hkeyed hcurrent
          refine hcovered.put (voidedRow period) _ ?_ ?_
          · intro old hold
            rw [show store.getPeriod period.periodId = some old from hold] at hthere
            rwa [Option.some.inj hthere]
          · exact fun hmine => absurd (howner.symm.trans hmine) hsame

theorem Honoured.deed {store' : Store} {now : Int} {uow : Work} {writes : List Write}
    (h : Honoured store) (hkeyed : store.Keyed) (hdisjoint : Disjoint store)
    (hdeed : Deed store now uow writes) (htest : writes.all (Write.honours store) = true)
    (happly : applyAll store writes = .ok store') : Honoured store' := by
  cases hdeed with
  | subscribed subscription plan period hactive hpending hown =>
      obtain ⟨hnew, hfresh, rfl⟩ := applied_subscribed hkeyed happly
      intro subscriptionId row hrow hcancelled
      have hother : subscription.subscriptionId ≠ subscriptionId := by
        rintro rfl
        simp only [Store.getSubscription, Table.get_put_self] at hrow
        rw [← Option.some.inj hrow, hactive] at hcancelled
        cases hcancelled
      have hbefore : store.getSubscription subscriptionId = some row :=
        (Table.get_put_ne _ _ hother).symm.trans hrow
      obtain ⟨ended, finish, hended, hfinish, hcovered⟩ := h subscriptionId row hbefore hcancelled
      refine ⟨ended, finish, hended, hfinish, hcovered.put period _ ?_ ?_⟩
      · intro old hold
        rw [hfresh] at hold
        cases hold
      · exact fun hmine => absurd (hown.symm.trans hmine) hother
  | renewed subscription row next hpending hrow hlive =>
      obtain ⟨hfresh, rfl⟩ := applied_renewed hkeyed happly
      intro subscriptionId other hother hcancelled
      obtain ⟨ended, finish, hended, hfinish, hcovered⟩ := h subscriptionId other hother hcancelled
      refine ⟨ended, finish, hended, hfinish, hcovered.put next store.subscriptions ?_ ?_⟩
      · intro old hold
        rw [hfresh] at hold
        cases hold
      · rintro rfl
        rw [show store.getSubscription next.subscriptionId = some other from hother] at hrow
        rw [← Option.some.inj hrow] at hlive
        simp [isLive, hcancelled] at hlive
  | settled period subscription authorizationId instant uow hcollecting hquiet =>
      rw [applied_settled hkeyed hcollecting happly]
      exact h.settled hcollecting (List.all_eq_true.mp htest _ List.mem_cons_self)
  | uncollectible period subscription reason hcollecting =>
      rw [applied_uncollectible hkeyed hcollecting happly]
      exact h.uncollectible hcollecting
  | cancelled subscription reason instant current hrow hlive hpassed hcurrent =>
      rw [applied_cancelled hkeyed hrow hcurrent happly]
      apply h.cancelled hkeyed hdisjoint hcurrent
      have hfirst := List.all_eq_true.mp htest _ List.mem_cons_self
      intro period hmember hsettled
      simp only [Write.honours, cancelledRow, Bool.or_eq_true, List.all_eq_true, decide_eq_true_eq,
        Option.all_some] at hfirst
      rcases hfirst with hne | hall
      · exact absurd rfl (of_decide_eq_true hne)
      · rcases hall period hmember with hunsettled | hstart
        · exact absurd hsettled hunsettled
        · exact hstart
  | expired subscription instant hcancelled =>
      rcases applied_expired hkeyed happly with rfl | ⟨stored, hstored, rfl⟩
      · exact h
      · intro subscriptionId row hrow hstill
        simp only [Store.getSubscription, Table.get_put] at hrow
        split at hrow
        · rw [← Option.some.inj hrow] at hstill
          cases hstill
        · obtain ⟨ended, finish, hended, hfinish, hcovered⟩ := h subscriptionId row hrow hstill
          exact ⟨ended, finish, hended, hfinish, hcovered.of_periods rfl⟩

/-- A subscription that stopped stays stopped, and carries what it carried while it is
cancelled. -/
theorem Deed.stopped {store' : Store} {now : Int} {uow : Work} {writes : List Write}
    (hkeyed : store.Keyed) (hdeed : Deed store now uow writes)
    (happly : applyAll store writes = .ok store') {subscriptionId : String} {row : Subscription}
    (hrow : store.getSubscription subscriptionId = some row) (hstopped : row.isStopped = true) :
    ∃ row', store'.getSubscription subscriptionId = some row' ∧ row'.isStopped = true ∧
      (row'.status = .cancelled → row' = row) := by
  -- what is written of another subscription leaves this one as it was
  have hput : ∀ (next : Subscription) (periods : Table SubscriptionPeriod),
      next.subscriptionId ≠ subscriptionId →
      ∃ row', ({ store with
          subscriptions := store.subscriptions.put next.subscriptionId next
          periods := periods } : Store).getSubscription subscriptionId = some row' ∧
        row'.isStopped = true ∧ (row'.status = .cancelled → row' = row) :=
    fun _ _ hne => ⟨row, (Table.get_put_ne _ _ hne).trans hrow, hstopped, fun _ => rfl⟩
  have hrunning : ∀ {other : Subscription}, isLive other = true → other ≠ row := by
    rintro other hlive rfl
    revert hlive hstopped
    unfold isLive Subscription.isStopped
    cases other.status <;> simp
  cases hdeed with
  | subscribed subscription plan period hactive hpending hown =>
      obtain ⟨hnew, hfresh, rfl⟩ := applied_subscribed hkeyed happly
      refine hput _ _ fun hsame => ?_
      rw [hsame, hrow] at hnew
      cases hnew
  | renewed subscription live next hpending hlived hlive =>
      obtain ⟨hfresh, rfl⟩ := applied_renewed hkeyed happly
      exact ⟨row, hrow, hstopped, fun _ => rfl⟩
  | settled period subscription authorizationId instant uow hcollecting hquiet =>
      rw [applied_settled hkeyed hcollecting happly]
      by_cases hlapsed : subscription.status = .pastDue
      · rw [Store.revived, if_pos hlapsed]
        refine hput { subscription with status := .active } _ fun hsame => ?_
        have hsold := hcollecting.sold
        rw [← hkeyed.subscriptions _ _ hsold, hsame, hrow] at hsold
        exact hrunning (by simp [isLive, hlapsed]) (Option.some.inj hsold).symm
      · rw [Store.revived, if_neg hlapsed]
        exact ⟨row, hrow, hstopped, fun _ => rfl⟩
  | uncollectible period subscription reason hcollecting =>
      rw [applied_uncollectible hkeyed hcollecting happly]
      by_cases hactive : subscription.status = .active
      · rw [Store.lapsed, if_pos hactive]
        refine hput { subscription with status := .pastDue } _ fun hsame => ?_
        have hsold := hcollecting.sold
        rw [← hkeyed.subscriptions _ _ hsold, hsame, hrow] at hsold
        exact hrunning (by simp [isLive, hactive]) (Option.some.inj hsold).symm
      · rw [Store.lapsed, if_neg hactive]
        exact ⟨row, hrow, hstopped, fun _ => rfl⟩
  | cancelled subscription reason instant current hlived hlive hpassed hcurrent =>
      rw [applied_cancelled hkeyed hlived hcurrent happly]
      refine hput (cancelledRow subscription reason current instant) _ fun hsame => ?_
      rw [show subscription.subscriptionId = subscriptionId from hsame, hrow] at hlived
      exact hrunning hlive (Option.some.inj hlived).symm
  | expired subscription instant hcancelled =>
      rcases applied_expired hkeyed happly with rfl | ⟨stored, hstored, rfl⟩
      · exact ⟨row, hrow, hstopped, fun _ => rfl⟩
      · by_cases hsame : subscription.subscriptionId = subscriptionId
        · subst hsame
          exact ⟨_, Table.get_put_self _ _ _, by simp [Subscription.isStopped, Subscription.revise,
            expiredRow], by simp [Subscription.revise, expiredRow]⟩
        · exact ⟨row, (Table.get_put_ne _ _ hsame).trans hrow, hstopped, fun _ => rfl⟩

/-- Only a cancellation is announced as one. -/
theorem Deed.announced {now : Int} {uow : Work} {writes : List Write}
    (hdeed : Deed store now uow writes) {event : Event} (hevent : event ∈ uow.events)
    (htype : event.eventType = "core.subscription.cancelled") :
    ∃ subscription reason instant current,
      store.getSubscription subscription.subscriptionId = some subscription ∧
        store.findPeriodCovering subscription.subscriptionId instant = current ∧
        event.entityId = subscription.subscriptionId ∧
        writes = .updateSubscription (cancelledRow subscription reason current instant) ::
          (((voidable current).map voidedRow).map Write.updatePeriod).toList ∧
        ∀ value, ("coverage_ends_at", value) ∈ event.payload →
          value = .optionalNumber (cancelledRow subscription reason current instant).endedAt := by
  cases hdeed with
  | subscribed subscription plan period hactive hpending hown =>
      obtain rfl := List.mem_singleton.mp hevent
      simp at htype
  | renewed subscription row next hpending hrow hlive =>
      obtain rfl := List.mem_singleton.mp hevent
      simp at htype
  | settled period subscription authorizationId instant uow hcollecting hquiet =>
      rcases List.mem_append.mp hevent with hmoney | hown
      · exact absurd (htype ▸ by simp [subscriptionFacts]) (hquiet event hmoney)
      · obtain rfl := List.mem_singleton.mp hown
        simp [periodSettled] at htype
  | uncollectible period subscription reason hcollecting =>
      obtain rfl := List.mem_singleton.mp hevent
      simp [pastDue] at htype
  | cancelled subscription reason instant current hrow hlive hpassed hcurrent =>
      obtain rfl := List.mem_singleton.mp hevent
      refine ⟨subscription, reason, instant, current, hrow, hcurrent, rfl, rfl, ?_⟩
      intro value hvalue
      simpa using hvalue
  | expired subscription instant hcancelled =>
      obtain rfl := List.mem_singleton.mp hevent
      simp at htype

/-- What was announced stays true of the rows. -/
theorem Announces.deed {store' : Store} {now : Int} {uow : Work} {writes : List Write}
    {outbox : List Event} (h : Announces store outbox) (hkeyed : store.Keyed)
    (hdeed : Deed store now uow writes) (happly : applyAll store writes = .ok store') :
    Announces store' (outbox ++ uow.events) := by
  intro event hevent htype
  rcases List.mem_append.mp hevent with hbefore | hnew
  · obtain ⟨row, hrow, hstopped, hsays⟩ := h event hbefore htype
    obtain ⟨row', hrow', hstopped', hkept⟩ := hdeed.stopped hkeyed happly hrow hstopped
    refine ⟨row', hrow', hstopped', fun hcancelled => ?_⟩
    have hsame := hkept hcancelled
    rw [hsame] at hcancelled ⊢
    exact hsays hcancelled
  · obtain ⟨subscription, reason, instant, current, hrow, hcurrent, hentity, rfl, hsays⟩ :=
      hdeed.announced hnew htype
    rw [applied_cancelled hkeyed hrow hcurrent happly, hentity]
    exact ⟨_, Table.get_put_self _ _ _, rfl, fun _ => hsays⟩

end Rows

/-! ### Serial runs -/

/-- Consistent stores whose cancellations are honoured and announced as they are. -/
structure Honouring (books : Books) : Prop where
  consistent : Consistent books
  honoured : Honoured books.store
  announces : Announces books.store books.core.outbox

theorem Honouring.opened (now : Int) (plans : Table Plan) (grants : Table PlanGrant) :
    Honouring (Books.opened now plans grants) where
  consistent := .opened now plans grants
  honoured := by rintro subscriptionId row ⟨⟩
  announces := by rintro event ⟨⟩

theorem honouring_performs {books books' : Books} {action : Action} {choice : Choice}
    {answer : action.Answer} (h : Honouring books) (hdisjoint : Disjoint books.store)
    (htest : honouring action books = true) (howed : owes action books)
    (hperform : billing.perform action choice books = some (answer, books')) :
    Honouring books' := by
  have hconsistent := consistent_performs h.consistent howed hperform
  rcases perform_cases hperform with rfl | ⟨own, core, answer', rfl, hown, rfl⟩ |
    ⟨uow, writes, rfl, hcommit⟩
  · exact h
  · refine ⟨hconsistent, h.honoured, ?_⟩
    rcases WaslaCore.perform_cases hown with rfl | ⟨entry, rfl, rfl⟩ | ⟨uow, rfl, hdone⟩
    · exact h.announces
    · exact h.announces
    · intro event hevent htype
      rw [show core.outbox = books.core.outbox ++ uow.events from commit_outbox hdone] at hevent
      rcases List.mem_append.mp hevent with hbefore | hnew
      · exact h.announces event hbefore htype
      · exact absurd (htype ▸ by simp [subscriptionFacts]) (howed event hnew)
  · obtain ⟨hcore, happly, -⟩ := commit_ok hcommit
    have hdeed : Deed books.store books.core.now uow writes := howed
    refine ⟨hconsistent, h.honoured.deed h.consistent.keyed hdisjoint hdeed htest happly, ?_⟩
    rw [commit_outbox hcore]
    exact h.announces.deed h.consistent.keyed hdeed happly

theorem allRequests_opening {call : Call Unit} (h : allRequests call) :
    Keeps opening anyEnd call [] := by
  rcases h with hown | ⟨request, rfl⟩
  · exact requests_opening call hown
  · exact (opening_of_avoids (avoids_lift request.call)).mono (fun _ _ _ => trivial)

/-- In every run the periods tile time, and the plans stay as they were. -/
theorem run_tiling {now : Int} {plans : List Plan} {grants : Table PlanGrant}
    {world : World Books Action Action.Answer Thrown Unit}
    (hrun : Run billing allRequests anything
      (World.initial (Books.opened now (priceList plans) grants)) world) :
    Tiled world.store.store ∧ world.store.store.plans = priceList plans := by
  have hupheld : Upheld tilingContract billing allRequests anything :=
    { tilingContract_upheld with call := fun call hcall => allRequests_opening hcall }
  obtain ⟨hkept, hlasting⟩ := hupheld.run (Kept.initial (Tiled.opened now plans grants)) hrun
  exact ⟨hkept.inv, hlasting.plans⟩

/-- In every run the periods of a subscription do not overlap. -/
theorem run_disjoint {now : Int} {plans : List Plan} {grants : Table PlanGrant}
    {world : World Books Action Action.Answer Thrown Unit}
    (hrun : Run billing allRequests anything
      (World.initial (Books.opened now (priceList plans) grants)) world) :
    Disjoint world.store.store :=
  fun subscriptionId => ((run_tiling hrun).1.tiles subscriptionId).disjoint

/-! ### What an owner of one subscription is told -/

/-- A cancelled subscription grants an unmetered feature where a paid period covers the
instant. -/
theorem decideFor_allowed {store : Store} {usage : Table UsageRecord} {featureKey : String}
    {quantity instant : Int} {row : Subscription} {grant : PlanGrant}
    (hcancelled : row.status = .cancelled)
    (hgrant : store.findGrant row.planId featureKey = some grant)
    (hunmetered : grant.limitValue = none) :
    (decideFor store usage featureKey quantity instant row).allowed = true ↔
      ∃ period, store.findPeriodCovering row.subscriptionId instant = some period ∧
        period.status = .settled := by
  unfold decideFor decideEntitlement
  cases hfound : store.findPeriodCovering row.subscriptionId instant with
  | none => simp [hcancelled]
  | some period =>
      by_cases hsettled : period.status = .settled
      · simp [hcancelled, hgrant, hunmetered, periodIsPaid, hsettled]
      · simp [hcancelled, periodIsPaid, hsettled]

/-- One subscription answers for its owner. -/
theorem decideAmong_single (store : Store) (usage : Table UsageRecord) (featureKey : String)
    (quantity instant : Int) (row : Subscription) :
    decideAmong store usage featureKey quantity instant [row] none =
      decideFor store usage featureKey quantity instant row := by
  simp only [decideAmong, moreInformative, Option.getD_some, ite_self]

/-- In a serial run that pays for nothing ahead of a cancellation, an owner of one
subscription to a plan that grants the feature without a limit is entitled to it, from
the cancellation on, exactly until the end the cancellation announced. -/
theorem run_coverage {now time instant finish asked : Int} {plans : List Plan}
    {grants : Table PlanGrant} {world : World Books Action Action.Answer Thrown Unit}
    {usage : Table UsageRecord} {input : EntitlementInput} {row : Subscription}
    {grant : PlanGrant} {event : Event}
    (hrun : SerialRun (billing.guarded honouring) allRequests
      (World.initial (Books.opened now (priceList plans) grants)) world)
    (hsingle : world.store.store.listSubscriptionsForOwner input.ownerType input.ownerId = [row])
    (hgrant : world.store.store.findGrant row.planId (trim input.featureKey) = some grant)
    (hunmetered : grant.limitValue = none)
    (hevent : event ∈ world.store.core.outbox)
    (htype : event.eventType = "core.subscription.cancelled")
    (hentity : event.entityId = row.subscriptionId)
    (hannounced : ("coverage_ends_at", .number finish) ∈ event.payload)
    (hstanding : row.status ≠ .expired) (hcancelled : row.cancelledAt = some instant)
    (hvalid : input.Valid) (hasked : input.askedAt = .at asked) (hlater : instant ≤ asked) :
    (checkEntitlement time world.store.store usage input).map EntitlementDecision.allowed =
      .ok (decide (asked < finish)) := by
  have hhonouring : Honouring world.store := by
    refine SerialRun.solo owes ?_ ?_ ?_ (Honouring.opened now _ grants) hrun
    · intro call hcall books _
      exact (request_lone hcall).weaken (fun _ h => h.consistent) (fun _ _ _ h => h)
    · intro tasks action choice answer books books' hreached hinv htest howed hperform
      exact honouring_performs hinv (run_disjoint hreached.unguarded.run) htest howed hperform
    · intro choice books books' hinv htick
      have hconsistent := consistent_tick hinv.consistent htick
      obtain ⟨core, hcore, rfl⟩ := tick_ok htick
      obtain ⟨elapsed, rfl⟩ := WaslaCore.tick_ok hcore
      exact ⟨hconsistent, hinv.honoured, hinv.announces⟩
  have hkeyed := hhonouring.consistent.keyed
  have hdisjoint : Disjoint world.store.store := run_disjoint hrun.unguarded.run
  have hstored : world.store.store.getSubscription row.subscriptionId = some row := by
    have hmember : row ∈ world.store.store.listSubscriptionsForOwner input.ownerType
        input.ownerId := hsingle ▸ List.mem_singleton.mpr rfl
    rw [Store.listSubscriptionsForOwner, mem_orderedBy, List.mem_filter] at hmember
    obtain ⟨key, hrow⟩ := Table.mem_values.mp hmember.1
    rw [hkeyed.subscriptions key row hrow]
    exact hrow
  have hstatus : row.status = .cancelled ∧ row.endedAt = some finish := by
    obtain ⟨told, htold, hstopped, hsays⟩ := hhonouring.announces event hevent htype
    rw [hentity, hstored] at htold
    obtain rfl := Option.some.inj htold
    have hcancelled : row.status = .cancelled := by
      simpa [Subscription.isStopped, hstanding] using hstopped
    have hend := hsays hcancelled _ hannounced
    cases hfinish : row.endedAt with
    | none =>
        rw [hfinish] at hend
        cases hend
    | some last =>
        rw [hfinish] at hend
        exact ⟨hcancelled, congrArg some (Scalar.number.inj hend).symm⟩
  obtain ⟨ended, last, hended, hlast, hcovered⟩ :=
    hhonouring.honoured row.subscriptionId row hstored hstatus.1
  obtain rfl : instant = ended := Option.some.inj (hcancelled.symm.trans hended)
  obtain rfl : finish = last := Option.some.inj (hstatus.2.symm.trans hlast)
  have hallowed : (decideFor world.store.store usage (trim input.featureKey)
      (input.quantity.getD 1) asked row).allowed = true ↔ asked < finish := by
    rw [decideFor_allowed hstatus.1 hgrant hunmetered, ← covered_iff hkeyed hdisjoint]
    exact hcovered.covered asked hlater
  rw [checkEntitlement_ok hvalid hasked, hsingle]
  have hordered : orderedBy (fun item : Subscription => [.number item.createdAt]) [row] = [row] := rfl
  rw [hordered, decideAmong_single]
  simp only [Except.map, ← hallowed, Bool.decide_eq_true]

/-- Support is granted without a limit. -/
def supported : Table PlanGrant := Table.empty.put "basic" ⟨idOf '9', "support", none⟩

/-- Whether the owner may have support ten days on. -/
def supportAsked : EntitlementInput := ⟨.identity, idOf '1', "support", none, .at 864000000⟩

theorem supportAsked_valid : supportAsked.Valid :=
  ⟨by decide +kernel, by decide +kernel, by decide +kernel⟩

/-- A world in which the cancellation of the one subscription of the owner announced the
end, and it is not expired. -/
def announcedAs (finish : Int) (world : World Books Action Action.Answer Thrown Unit) : Bool :=
  match world.store.store.listSubscriptionsForOwner .identity (idOf '1') with
  | [row] =>
      row.planId = idOf '9' && row.status ≠ .expired && row.cancelledAt = some 0 &&
        world.store.core.outbox.any (fun event =>
          event.eventType = "core.subscription.cancelled" &&
            event.entityId = row.subscriptionId &&
            event.payload.any (fun entry => entry = ("coverage_ends_at", .number finish)))
  | _ => false

/-- What such a world offers. -/
theorem announcedAs_row {finish : Int} {world : World Books Action Action.Answer Thrown Unit}
    (h : announcedAs finish world = true) :
    ∃ row event, world.store.store.listSubscriptionsForOwner .identity (idOf '1') = [row] ∧
      row.planId = idOf '9' ∧ row.status ≠ .expired ∧ row.cancelledAt = some 0 ∧
      event ∈ world.store.core.outbox ∧ event.eventType = "core.subscription.cancelled" ∧
      event.entityId = row.subscriptionId ∧
      ("coverage_ends_at", .number finish) ∈ event.payload := by
  unfold announcedAs at h
  split at h
  · rename_i row hsingle
    simp only [Bool.and_eq_true, decide_eq_true_eq, List.any_eq_true] at h
    obtain ⟨⟨⟨hplan, hstanding⟩, hcancelled⟩, event, hevent, ⟨htype, hentity⟩, entry, hentry,
      rfl⟩ := h
    exact ⟨row, event, hsingle, hplan, hstanding, hcancelled, hevent, htype, hentity, hentry⟩
  · cases h

set_option maxRecDepth 20000 in
theorem run_coverage_paid :
    ∃ world, play (billing.guarded honouring) unrestricted paidThenCancelled
        (World.initial (Books.opened 0 (priceList [monthly]) supported)) = some world ∧
      (checkEntitlement 0 world.store.store Table.empty supportAsked).map
        EntitlementDecision.allowed = .ok (decide ((864000000 : Int) < 2678400000)) := by
  have hplays : (play (billing.guarded honouring) unrestricted paidThenCancelled
      (World.initial (Books.opened 0 (priceList [monthly]) supported))).any (fun world =>
        announcedAs 2678400000 world && (world.store.store.findGrant (idOf '9')
          (trim supportAsked.featureKey)).any (fun grant => grant.limitValue = none)) = true := by
    decide +kernel
  obtain ⟨world, hworld, hstate⟩ := (Option.any_eq_true _ _).mp hplays
  obtain ⟨hannounced, hgrant⟩ := Bool.and_eq_true_iff.mp hstate
  obtain ⟨grant, hgrant, hunmetered⟩ := (Option.any_eq_true _ _).mp hgrant
  obtain ⟨row, event, hsingle, hplan, hstanding, hcancelled, hevent, htype, hentity, hends⟩ :=
    announcedAs_row hannounced
  refine ⟨world, hworld, run_coverage (play_serial hworld ?_ (by decide +kernel)) hsingle
    (hplan ▸ hgrant) (of_decide_eq_true hunmetered) hevent htype hentity hends hstanding
    hcancelled supportAsked_valid rfl (by decide)⟩
  intro call hcall
  refine .inl ?_
  revert call
  simp [paidThenCancelled, periodPaid, walletFunded, subscribed, holdTaken, settledBy,
    cancelDecided, committed, acts, request_call]

/-- A subscription that starts in five days is paid for, and cancelled at once. -/
def paidAhead : Schedule :=
  walletFunded ++
  .start (Request.subscribe ⟨.identity, idOf '1', idOf '9', idOf '2', .at 432000000⟩).call ::
    acts 2 [.proceed, .proceed, .proceed, .drawn (idOf '4'), .proceed, .drawn (idOf '5'), .proceed,
      .proceed] ++
  holdTaken 2 ++ settledBy 2 ++ cancelDecided 3 ++ committed 3

set_option maxRecDepth 20000 in
/-- Without the condition the period paid ahead entitles after the announced end. -/
theorem run_coverage_fails : ¬∀ (now time instant finish asked : Int) (plans : List Plan)
    (grants : Table PlanGrant) (world : World Books Action Action.Answer Thrown Unit)
    (usage : Table UsageRecord) (input : EntitlementInput) (row : Subscription)
    (grant : PlanGrant) (event : Event),
    SerialRun billing allRequests
      (World.initial (Books.opened now (priceList plans) grants)) world →
    world.store.store.listSubscriptionsForOwner input.ownerType input.ownerId = [row] →
    world.store.store.findGrant row.planId (trim input.featureKey) = some grant →
    grant.limitValue = none →
    event ∈ world.store.core.outbox → event.eventType = "core.subscription.cancelled" →
    event.entityId = row.subscriptionId →
    ("coverage_ends_at", .number finish) ∈ event.payload →
    row.status ≠ .expired → row.cancelledAt = some instant →
    input.Valid → input.askedAt = .at asked → instant ≤ asked →
    (checkEntitlement time world.store.store usage input).map EntitlementDecision.allowed =
      .ok (decide (asked < finish)) := by
  intro htrue
  have hplays : (play billing unrestricted paidAhead
      (World.initial (Books.opened 0 (priceList [monthly]) supported))).any (fun world =>
        announcedAs 0 world && ((world.store.store.findGrant (idOf '9')
          (trim supportAsked.featureKey)).any (fun grant => grant.limitValue = none) &&
        (match checkEntitlement 0 world.store.store Table.empty supportAsked with
          | .ok decision => decision.allowed
          | .error _ => false))) = true := by
    decide +kernel
  obtain ⟨world, hworld, hstate⟩ := (Option.any_eq_true _ _).mp hplays
  obtain ⟨hannounced, hstate⟩ := Bool.and_eq_true_iff.mp hstate
  obtain ⟨hgrant, hallowed⟩ := Bool.and_eq_true_iff.mp hstate
  obtain ⟨grant, hgrant, hunmetered⟩ := (Option.any_eq_true _ _).mp hgrant
  obtain ⟨row, event, hsingle, hplan, hstanding, hcancelled, hevent, htype, hentity, hends⟩ :=
    announcedAs_row hannounced
  have hsaid := htrue 0 0 0 0 864000000 [monthly] supported world Table.empty supportAsked row
    grant event (play_serial hworld (fun call hcall => .inl (by
      revert call
      simp [paidAhead, walletFunded, holdTaken, settledBy, cancelDecided, committed, acts,
        request_call])) (by decide +kernel)) hsingle (hplan ▸ hgrant)
    (of_decide_eq_true hunmetered) hevent htype hentity hends hstanding hcancelled
    supportAsked_valid rfl (by decide)
  revert hallowed hsaid
  cases checkEntitlement 0 world.store.store Table.empty supportAsked with
  | error error => simp
  | ok decision => simp [Except.map]

end WaslaCore.Billing
