import WaslaCore.Billing.Solo

/-!
What `past_due` says of the periods. A subscription becomes past due with the period it
could not collect, and active again with whichever period is collected next: the
settlement looks at no other, so a renewal that is paid puts a subscription in good
standing over a period that never was.
-/

namespace WaslaCore.Billing

open Data Interleaving Platform

/-! ### Settlements that forgive nothing -/

/-- A staged settlement of the period. -/
def Write.settlesPeriod (periodId : String) : Write → Bool
  | .updatePeriod next => next.periodId = periodId && next.status = .settled
  | _ => false

/-- A write that makes a subscription active finds none of its periods uncollectible,
apart from one that is settled beside it. -/
def Write.reinstates (store : Store) (writes : List Write) : Write → Bool
  | .updateSubscription next =>
      next.status ≠ .active || (store.periodsOf next.subscriptionId).all (fun period =>
        period.status ≠ .uncollectible || writes.any (Write.settlesPeriod period.periodId))
  | _ => true

/-- No commit makes a subscription active over a period it leaves uncollectible. -/
def reinstating : Action → Books → Bool
  | .commit _ writes, books => writes.all (Write.reinstates books.store writes)
  | _, _ => true

/-! ### Good standing -/

/-- An active subscription has no period that could not be collected. -/
def GoodStanding (store : Store) : Prop :=
  ∀ subscriptionId row, store.getSubscription subscriptionId = some row → row.status = .active →
    ∀ periodId period, store.getPeriod periodId = some period →
      period.subscriptionId = subscriptionId → period.status ≠ .uncollectible

section Rows

variable {store : Store}

/-- A period that is not uncollectible is written. -/
theorem GoodStanding.putPeriod (h : GoodStanding store) (next : SubscriptionPeriod)
    (hnext : next.status ≠ .uncollectible) :
    GoodStanding { store with periods := store.periods.put next.periodId next } := by
  intro subscriptionId row hrow hactive periodId period hperiod hown
  rw [Store.getPeriod_put] at hperiod
  split at hperiod
  · rw [← Option.some.inj hperiod]
    exact hnext
  · exact h subscriptionId row hrow hactive periodId period hperiod hown

/-- A subscription that is not active is written. -/
theorem GoodStanding.putSubscription (h : GoodStanding store) {subscriptionId : String}
    {next : Subscription} (hnext : next.status ≠ .active) :
    GoodStanding { store with subscriptions := store.subscriptions.put subscriptionId next } := by
  intro other row hrow hactive periodId period hperiod hown
  rw [Store.getSubscription_put] at hrow
  split at hrow
  · rw [← Option.some.inj hrow] at hactive
    exact absurd hactive hnext
  · exact h other row hrow hactive periodId period hperiod hown

/-- The other periods of a subscription that becomes active were all collected. -/
theorem reinstated_others {period : SubscriptionPeriod} {subscription : Subscription}
    {authorizationId : Option String} {instant : Int}
    (htest : (Write.updatePeriod (settledRow period authorizationId instant) ::
      revival subscription).all (Write.reinstates store
        (.updatePeriod (settledRow period authorizationId instant) :: revival subscription)) = true)
    (hlapsed : subscription.status = .pastDue) :
    ∀ other ∈ store.periodsOf subscription.subscriptionId, period.periodId ≠ other.periodId →
      other.status ≠ .uncollectible := by
  rw [revival, if_pos hlapsed] at htest
  simp only [List.all_cons, List.all_nil, List.any_cons, List.any_nil, Write.reinstates,
    Write.settlesPeriod, settledRow, Bool.true_and, Bool.and_true, Bool.or_false, List.all_eq_true,
    Bool.or_eq_true, decide_eq_true_eq, decide_true] at htest
  rcases htest with hfalse | hall
  · exact absurd rfl hfalse
  · intro other hother hne
    rcases hall other hother with hcollected | hsettled
    · exact hcollected
    · exact absurd hsettled hne

/-- The settled period is the only one its subscription was past due for. -/
theorem GoodStanding.settled (h : GoodStanding store) (hkeyed : store.Keyed)
    {period : SubscriptionPeriod} {subscription : Subscription} {authorizationId : Option String}
    {instant : Int} (htest : (Write.updatePeriod (settledRow period authorizationId instant) ::
      revival subscription).all (Write.reinstates store
        (.updatePeriod (settledRow period authorizationId instant) :: revival subscription)) = true) :
    GoodStanding { store with
      periods := store.periods.put period.periodId (settledRow period authorizationId instant)
      subscriptions := store.revived subscription } := by
  have hput : GoodStanding { store with
      periods := store.periods.put period.periodId (settledRow period authorizationId instant) } :=
    h.putPeriod (settledRow period authorizationId instant) (by simp [settledRow])
  by_cases hlapsed : subscription.status = .pastDue
  · rw [Store.revived, if_pos hlapsed]
    have hothers := reinstated_others htest hlapsed
    intro subscriptionId row hrow hactive periodId next hnext hown
    by_cases hsame : subscription.subscriptionId = subscriptionId
    · subst hsame
      simp only [Store.getPeriod, Table.get_put] at hnext
      split at hnext
      · rw [← Option.some.inj hnext]
        simp [settledRow]
      · rename_i hother
        have hkey := hkeyed.periods periodId next hnext
        exact hothers next ((mem_periodsOf hkeyed).mpr ⟨hkey ▸ hnext, hown⟩)
          (fun h => hother (h.trans hkey))
    · refine hput subscriptionId row ?_ hactive periodId next hnext hown
      exact (Table.get_put_ne _ _ hsame).symm.trans hrow
  · rw [Store.revived, if_neg hlapsed]
    exact hput

/-- A refused collection leaves nobody active over it. -/
theorem GoodStanding.uncollectible (h : GoodStanding store) (hkeyed : store.Keyed)
    {period : SubscriptionPeriod} {subscription : Subscription} {reason : String}
    (hcollecting : Collecting store period subscription) :
    GoodStanding { store with
      periods := store.periods.put period.periodId (uncollectibleRow period reason)
      subscriptions := store.lapsed subscription } := by
  have hsold : subscription.subscriptionId = period.subscriptionId :=
    hkeyed.subscriptions _ _ hcollecting.sold
  intro subscriptionId row hrow hactive periodId next hnext hown
  have hbefore : store.getSubscription subscriptionId = some row ∧
      subscriptionId ≠ period.subscriptionId := by
    by_cases hstanding : subscription.status = .active
    · simp only [Store.getSubscription, Store.lapsed, if_pos hstanding] at hrow
      by_cases hsame : subscription.subscriptionId = subscriptionId
      · rw [hsame, Table.get_put_self] at hrow
        rw [← Option.some.inj hrow] at hactive
        cases hactive
      · exact ⟨(Table.get_put_ne _ _ hsame).symm.trans hrow, fun hid => hsame (hsold.trans hid.symm)⟩
    · simp only [Store.getSubscription, Store.lapsed, if_neg hstanding] at hrow
      refine ⟨hrow, fun hid => hstanding ?_⟩
      have hstored := hcollecting.sold
      rw [← hid] at hstored
      have hrow' : some row = some subscription := hrow.symm.trans hstored
      rw [← Option.some.inj hrow']
      exact hactive
  simp only [Store.getPeriod, Table.get_put] at hnext
  split at hnext
  · rw [← Option.some.inj hnext] at hown
    exact absurd hown.symm hbefore.2
  · exact h subscriptionId row hbefore.1 hactive periodId next hnext hown

/-- What a deed leaves, where it passes the test. -/
theorem GoodStanding.deed {store' : Store} {now : Int} {uow : Work} {writes : List Write}
    (h : GoodStanding store) (hkeyed : store.Keyed)
    (hhomed : ∀ periodId period, store.getPeriod periodId = some period →
      ∃ subscription, store.getSubscription period.subscriptionId = some subscription)
    (hdeed : Deed store now uow writes)
    (htest : writes.all (Write.reinstates store writes) = true)
    (happly : applyAll store writes = .ok store') : GoodStanding store' := by
  cases hdeed with
  | subscribed subscription plan period hactive hpending hown =>
      obtain ⟨hnew, hfresh, rfl⟩ := applied_subscribed hkeyed happly
      have hput := h.putPeriod period (by rw [hpending]; decide)
      intro subscriptionId row hrow hstanding periodId next hnext hmine
      by_cases hsame : subscription.subscriptionId = subscriptionId
      · -- the periods of a new subscription are the one inserted with it
        subst hsame
        simp only [Store.getPeriod, Table.get_put] at hnext
        split at hnext
        · rw [← Option.some.inj hnext, hpending]
          decide
        · obtain ⟨other, hother⟩ := hhomed periodId next hnext
          rw [hmine, hnew] at hother
          cases hother
      · exact hput subscriptionId row ((Table.get_put_ne _ _ hsame).symm.trans hrow) hstanding
          periodId next hnext hmine
  | renewed subscription row next hpending hrow hlive =>
      obtain ⟨hfresh, rfl⟩ := applied_renewed hkeyed happly
      exact h.putPeriod next (by rw [hpending]; decide)
  | settled period subscription authorizationId instant uow hcollecting hquiet =>
      rw [applied_settled hkeyed hcollecting happly]
      exact h.settled hkeyed htest
  | uncollectible period subscription reason hcollecting =>
      rw [applied_uncollectible hkeyed hcollecting happly]
      exact h.uncollectible hkeyed hcollecting
  | cancelled subscription reason instant current hrow hlive hpassed hcurrent =>
      rw [applied_cancelled hkeyed hrow hcurrent happly]
      have hcancelled : (cancelledRow subscription reason current instant).status ≠ .active := by
        simp [cancelledRow]
      unfold Store.voiding
      cases hvoidable : voidable current with
      | none => exact h.putSubscription hcancelled
      | some period =>
          have hput := h.putPeriod (voidedRow period) (by simp [voidedRow])
          exact hput.putSubscription hcancelled
  | expired subscription instant hcancelled =>
      rcases applied_expired hkeyed happly with rfl | ⟨stored, hstored, rfl⟩
      · exact h
      · exact h.putSubscription (by simp [Subscription.revise, expiredRow])

end Rows

/-! ### Serial runs -/

/-- Consistent stores in which nobody is active over an unpaid period. -/
structure Standing (books : Books) : Prop where
  consistent : Consistent books
  good : GoodStanding books.store

theorem Standing.opened (now : Int) (plans : Table Plan) (grants : Table PlanGrant) :
    Standing (Books.opened now plans grants) where
  consistent := .opened now plans grants
  good := by rintro subscriptionId row ⟨⟩

theorem standing_performs {books books' : Books} {action : Action} {choice : Choice}
    {answer : action.Answer} (h : Standing books) (htest : reinstating action books = true)
    (howed : owes action books)
    (hperform : billing.perform action choice books = some (answer, books')) :
    Standing books' := by
  refine ⟨consistent_performs h.consistent howed hperform, ?_⟩
  rcases perform_cases hperform with rfl | ⟨own, core, answer', rfl, hown, rfl⟩ |
    ⟨uow, writes, rfl, hcommit⟩
  · exact h.good
  · exact h.good
  · exact h.good.deed h.consistent.keyed h.consistent.homed howed htest (commit_ok hcommit).2.1

/-- In a serial run whose settlements put nobody in good standing over another unpaid
period, an active subscription has none. -/
theorem run_standing {now : Int} {plans : Table Plan} {grants : Table PlanGrant}
    {world : World Books Action Action.Answer Thrown Unit} {subscriptionId periodId : String}
    {subscription : Subscription} {period : SubscriptionPeriod}
    (hrun : SerialRun (billing.guarded reinstating) allRequests
      (World.initial (Books.opened now plans grants)) world)
    (hsubscription : world.store.store.getSubscription subscriptionId = some subscription)
    (hactive : subscription.status = .active)
    (hperiod : world.store.store.getPeriod periodId = some period)
    (hown : period.subscriptionId = subscriptionId) : period.status ≠ .uncollectible := by
  have hstanding : Standing world.store := by
    refine SerialRun.solo owes ?_ ?_ ?_ (Standing.opened now plans grants) hrun
    · intro call hcall books _
      exact (request_lone hcall).weaken (fun _ h => h.consistent) (fun _ _ _ h => h)
    · intro tasks action choice answer books books' _ hinv htest howed hperform
      exact standing_performs hinv htest howed hperform
    · intro choice books books' hinv htick
      exact ⟨consistent_tick hinv.consistent htick, (tick_since htick).store ▸ hinv.good⟩
  exact hstanding.good subscriptionId subscription hsubscription hactive periodId period hperiod
    hown

/-- A wallet with nothing in it. -/
def walletEmpty : Schedule :=
  .start (Request.createWallet ⟨.identity, idOf '1', "SAR"⟩).call ::
    acts 0 [.proceed, .drawn (idOf '2'), .proceed, .proceed]

/-- `subscribe`, whose first charge finds no money. -/
def subscribedUnpaid : Schedule :=
  .start (Request.subscribe ⟨.identity, idOf '1', idOf '9', idOf '2', .absent⟩).call ::
    acts 1 [.proceed, .proceed, .proceed, .proceed, .drawn (idOf '4'), .proceed,
      .drawn (idOf '5'), .proceed, .proceed] ++
    acts 1 [.proceed, .proceed, .proceed, .proceed, .proceed, .proceed, .proceed, .proceed,
      .proceed, .proceed]

def walletCredited : Schedule :=
  .start (Request.credit ⟨idOf '2', 100, "topup"⟩).call ::
    acts 2 [.proceed, .proceed, .drawn (idOf '3'), .proceed, .proceed]

/-- The unpaid period is retried, and collected. -/
def unpaidRetried : Schedule :=
  walletEmpty ++ subscribedUnpaid ++ walletCredited ++
  .start (Request.chargePeriod (idOf '5')).call ::
    acts 3 [.proceed, .proceed, .proceed, .proceed, .proceed, .proceed, .proceed, .proceed,
      .drawn (idOf '6'), .proceed, .proceed, .proceed] ++
    acts 3 [.proceed, .proceed, .proceed, .proceed, .proceed, .drawn (idOf '7'), .proceed,
      .proceed, .proceed]

set_option maxRecDepth 20000 in
theorem run_standing_retried :
    ∃ world subscription period, play (billing.guarded reinstating) unrestricted unpaidRetried
        (World.initial (Books.opened 0 offered Table.empty)) = some world ∧
      world.store.store.getSubscription (idOf '4') = some subscription ∧
      subscription.status = .active ∧
      world.store.store.getPeriod (idOf '5') = some period ∧
      period.status ≠ .uncollectible := by
  have hplays : (play (billing.guarded reinstating) unrestricted unpaidRetried
      (World.initial (Books.opened 0 offered Table.empty))).any (fun world =>
        (world.store.store.getSubscription (idOf '4')).any (fun row => row.status = .active) &&
        (world.store.store.getPeriod (idOf '5')).any (fun row =>
          row.subscriptionId = idOf '4')) = true := by
    decide +kernel
  obtain ⟨world, hworld, hstate⟩ := (Option.any_eq_true _ _).mp hplays
  obtain ⟨hsubscription, hperiod⟩ := Bool.and_eq_true_iff.mp hstate
  obtain ⟨subscription, hsubscription, hactive⟩ := (Option.any_eq_true _ _).mp hsubscription
  obtain ⟨period, hperiod, hown⟩ := (Option.any_eq_true _ _).mp hperiod
  refine ⟨world, subscription, period, hworld, hsubscription, of_decide_eq_true hactive, hperiod, ?_⟩
  refine run_standing (play_serial hworld ?_ (by decide +kernel)) hsubscription
    (of_decide_eq_true hactive) hperiod (of_decide_eq_true hown)
  intro call hcall
  refine .inl ?_
  revert call
  simp [unpaidRetried, walletEmpty, subscribedUnpaid, walletCredited, acts, request_call]

/-- A sweep forty days on, which opens the second period and collects it. -/
def renewalPaid : Schedule :=
  .tick (.elapsed 3456000000) :: .start Request.renewDuePeriods.call ::
    acts 3 [.proceed, .proceed, .proceed, .proceed, .drawn (idOf '6'), .proceed, .proceed] ++
    acts 3 [.proceed, .proceed, .proceed, .proceed, .proceed, .proceed, .proceed, .proceed,
      .drawn (idOf '7'), .proceed, .proceed, .proceed] ++
    acts 3 [.proceed, .proceed, .proceed, .proceed, .proceed, .drawn (idOf '8'), .proceed,
      .proceed, .proceed]

set_option maxRecDepth 20000 in
/-- Without the condition a paid renewal forgives the period before it. -/
theorem run_standing_fails : ¬∀ (now : Int) (plans : Table Plan) (grants : Table PlanGrant)
    (world : World Books Action Action.Answer Thrown Unit) (subscriptionId periodId : String)
    (subscription : Subscription) (period : SubscriptionPeriod),
    SerialRun billing allRequests (World.initial (Books.opened now plans grants)) world →
    world.store.store.getSubscription subscriptionId = some subscription →
    subscription.status = .active →
    world.store.store.getPeriod periodId = some period →
    period.subscriptionId = subscriptionId → period.status ≠ .uncollectible := by
  intro htrue
  have hplays : (play billing unrestricted
      (walletEmpty ++ subscribedUnpaid ++ walletCredited ++ renewalPaid)
      (World.initial (Books.opened 0 offered Table.empty))).any (fun world =>
        (world.store.store.getSubscription (idOf '4')).any (fun row => row.status = .active) &&
        (world.store.store.getPeriod (idOf '5')).any (fun row =>
          row.subscriptionId = idOf '4' && row.status = .uncollectible)) = true := by
    decide +kernel
  obtain ⟨world, hworld, hstate⟩ := (Option.any_eq_true _ _).mp hplays
  obtain ⟨hsubscription, hperiod⟩ := Bool.and_eq_true_iff.mp hstate
  obtain ⟨subscription, hsubscription, hactive⟩ := (Option.any_eq_true _ _).mp hsubscription
  obtain ⟨period, hperiod, hunpaid⟩ := (Option.any_eq_true _ _).mp hperiod
  obtain ⟨hown, hunpaid⟩ := Bool.and_eq_true_iff.mp hunpaid
  refine htrue 0 offered Table.empty world _ _ subscription period
    (play_serial hworld ?_ (by decide +kernel)) hsubscription (of_decide_eq_true hactive) hperiod
    (of_decide_eq_true hown) (of_decide_eq_true hunpaid)
  intro call hcall
  refine .inl ?_
  revert call
  simp [walletEmpty, subscribedUnpaid, walletCredited, renewalPaid, acts, request_call]

end WaslaCore.Billing
