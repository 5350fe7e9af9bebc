import WaslaCore.Billing.Service

/-!
What a write to the subscription store, and a commit of both stores, did where it
went through. A period or a subscription that is stored stays stored, and only the
columns an update sets ever change.
-/

namespace WaslaCore.Billing

open Data Platform

namespace Store

/-- Every row stands under its own identifier. -/
structure Keyed (store : Store) : Prop where
  subscriptions : store.subscriptions.KeyedBy Subscription.subscriptionId
  periods : store.periods.KeyedBy SubscriptionPeriod.periodId

theorem keyed_offering (plans : Table Plan) (grants : Table PlanGrant) :
    (offering plans grants).Keyed := by
  constructor <;>
    · intro key row h
      cases h

theorem getSubscription_put (store : Store) (key subscriptionId : String) (row : Subscription) :
    ({ store with subscriptions := store.subscriptions.put key row } : Store).getSubscription
        subscriptionId =
      if key = subscriptionId then some row else store.getSubscription subscriptionId :=
  Table.get_put store.subscriptions key subscriptionId row

theorem getPeriod_put (store : Store) (key periodId : String) (row : SubscriptionPeriod) :
    ({ store with periods := store.periods.put key row } : Store).getPeriod periodId =
      if key = periodId then some row else store.getPeriod periodId :=
  Table.get_put store.periods key periodId row

/-- What the table asks of a period that is written. -/
structure Writable (store : Store) (period : SubscriptionPeriod) : Prop where
  shape : assertPeriodShape period = .ok ()
  own : store.authorizationClash period = false

theorem writePeriod_ok {store store' : Store} {period : SubscriptionPeriod}
    (h : store.writePeriod period = .ok store') :
    store.Writable period ∧
      store' = { store with periods := store.periods.put period.periodId period } := by
  unfold writePeriod at h
  split at h
  · cases h
  rename_i hshape
  split at h
  · cases h
  split at h
  · cases h
  split at h
  · cases h
  rename_i hown
  exact ⟨⟨hshape, by simpa using hown⟩, (Except.ok.inj h).symm⟩

end Store

/-- What one write did to the store, where it went through. -/
inductive Wrote (store : Store) : Write → Store → Prop where
  | insertedSubscription (subscription : Subscription)
      (hnew : store.getSubscription subscription.subscriptionId = none) :
      Wrote store (.insertSubscription subscription)
        { store with
          subscriptions := store.subscriptions.put subscription.subscriptionId subscription }
  | missedSubscription (next : Subscription)
      (hmissing : store.getSubscription next.subscriptionId = none) :
      Wrote store (.updateSubscription next) store
  | updatedSubscription (next stored : Subscription)
      (hstored : store.getSubscription next.subscriptionId = some stored) :
      Wrote store (.updateSubscription next)
        { store with
          subscriptions := store.subscriptions.put next.subscriptionId (stored.revise next) }
  | insertedPeriod (period : SubscriptionPeriod) (hnew : store.getPeriod period.periodId = none)
      (hwritable : store.Writable period) :
      Wrote store (.insertPeriod period)
        { store with periods := store.periods.put period.periodId period }
  | missedPeriod (next : SubscriptionPeriod) (hmissing : store.getPeriod next.periodId = none) :
      Wrote store (.updatePeriod next) store
  | updatedPeriod (next stored : SubscriptionPeriod)
      (hstored : store.getPeriod next.periodId = some stored)
      (hwritable : store.Writable (stored.revise next)) :
      Wrote store (.updatePeriod next)
        { store with periods := store.periods.put next.periodId (stored.revise next) }

theorem apply_wrote {store store' : Store} {write : Write} (hkeyed : store.Keyed)
    (h : write.apply store = .ok store') : Wrote store write store' := by
  cases write with
  | insertSubscription subscription =>
      simp only [Write.apply, Store.insertSubscription] at h
      split at h
      · cases h
      split at h
      · cases h
      rename_i hnew
      obtain rfl := Except.ok.inj h
      exact .insertedSubscription subscription (by simpa [Store.getSubscription] using hnew)
  | updateSubscription next =>
      simp only [Write.apply, Store.updateSubscription] at h
      split at h
      · rename_i hmissing
        obtain rfl := Except.ok.inj h
        exact .missedSubscription next hmissing
      · rename_i stored hstored
        split at h
        · cases h
        obtain rfl := Except.ok.inj h
        exact .updatedSubscription next stored hstored
  | insertPeriod period =>
      simp only [Write.apply, Store.insertPeriod] at h
      split at h
      · cases h
      rename_i hnew
      obtain ⟨hwritable, rfl⟩ := Store.writePeriod_ok h
      exact .insertedPeriod period (by simpa [Store.getPeriod] using hnew) hwritable
  | updatePeriod next =>
      simp only [Write.apply, Store.updatePeriod] at h
      split at h
      · rename_i hmissing
        obtain rfl := Except.ok.inj h
        exact .missedPeriod next hmissing
      · rename_i stored hstored
        obtain ⟨hwritable, rfl⟩ := Store.writePeriod_ok h
        have hown : (stored.revise next).periodId = next.periodId :=
          hkeyed.periods next.periodId stored hstored
        rw [hown]
        exact .updatedPeriod next stored hstored hwritable

/-- A write leaves every row under its own identifier. -/
theorem Wrote.keyed {store store' : Store} {write : Write} (h : Wrote store write store')
    (hkeyed : store.Keyed) : store'.Keyed := by
  cases h with
  | insertedSubscription subscription hnew =>
      exact ⟨hkeyed.subscriptions.put subscription, hkeyed.periods⟩
  | missedSubscription next hmissing => exact hkeyed
  | updatedSubscription next stored hstored =>
      have hown : (stored.revise next).subscriptionId = next.subscriptionId :=
        hkeyed.subscriptions next.subscriptionId stored hstored
      rw [← hown]
      exact ⟨hkeyed.subscriptions.put (stored.revise next), hkeyed.periods⟩
  | insertedPeriod period hnew hwritable =>
      exact ⟨hkeyed.subscriptions, hkeyed.periods.put period⟩
  | missedPeriod next hmissing => exact hkeyed
  | updatedPeriod next stored hstored hwritable =>
      have hown : (stored.revise next).periodId = next.periodId :=
        hkeyed.periods next.periodId stored hstored
      rw [← hown]
      exact ⟨hkeyed.subscriptions, hkeyed.periods.put (stored.revise next)⟩

theorem applyAll_cons {store store' : Store} {write : Write} {rest : List Write}
    (h : applyAll store (write :: rest) = .ok store') :
    ∃ middle, write.apply store = .ok middle ∧ applyAll middle rest = .ok store' := by
  simp only [applyAll] at h
  split at h
  · rename_i middle hwrite
    exact ⟨middle, hwrite, h⟩
  · cases h

/-- What each of the writes keeps, the list of them keeps. -/
theorem applyAll_keeps {P : Store → Prop} {writes : List Write}
    (hstep : ∀ write ∈ writes, ∀ {before after : Store}, write.apply before = .ok after →
      P before → P after) {store store' : Store} (h : applyAll store writes = .ok store')
    (hstart : P store) : P store' := by
  induction writes generalizing store with
  | nil =>
      obtain rfl := Except.ok.inj h
      exact hstart
  | cons write rest ih =>
      obtain ⟨middle, hwrite, hrest⟩ := applyAll_cons h
      apply ih (fun other hother => hstep other (List.mem_cons_of_mem _ hother)) hrest
      exact hstep write List.mem_cons_self hwrite hstart

theorem applyAll_keyed {store store' : Store} {writes : List Write} (hkeyed : store.Keyed)
    (h : applyAll store writes = .ok store') : store'.Keyed :=
  applyAll_keeps (fun _ _ _ _ hwrite hbefore => (apply_wrote hbefore hwrite).keyed hbefore) h hkeyed

/-- On keyed stores each write is one that was written. -/
theorem applyAll_wrote {P : Store → Prop} {writes : List Write}
    (hstep : ∀ write ∈ writes, ∀ {before after : Store}, Wrote before write after →
      P before → P after) {store store' : Store} (hkeyed : store.Keyed)
    (h : applyAll store writes = .ok store') (hstart : P store) : P store' := by
  have hboth : store'.Keyed ∧ P store' := by
    apply applyAll_keeps (P := fun later => later.Keyed ∧ P later) _ h ⟨hkeyed, hstart⟩
    intro write hmember before after hwrite hbefore
    have hwrote := apply_wrote hbefore.1 hwrite
    exact ⟨hwrote.keyed hbefore.1, hstep write hmember hwrote hbefore.2⟩
  exact hboth.2

/-- A settled period that passed the deferred check is settled for what its hold
captured. -/
theorem assertMoneyAgreement_ok {money : Money.Store} {store : Store} {period : SubscriptionPeriod}
    {periodId authorizationId : String} {row : Money.PaymentAuthorization}
    (h : assertMoneyAgreement money store periodId = .ok ())
    (hperiod : store.getPeriod periodId = some period) (hsettled : period.status = .settled)
    (hpays : period.authorizationId = some authorizationId)
    (hrow : money.authorizations.get authorizationId = some row) :
    row.capturedMinor = period.amountMinor := by
  simp only [Store.getPeriod] at hperiod
  simp only [assertMoneyAgreement, hperiod, hsettled, hpays, Money.Store.getAuthorization, hrow,
    not_true_eq_false, if_false, ne_eq] at h
  split at h
  · cases h
  rename_i hamount
  simpa using hamount

theorem verifyAll_mem {money : Money.Store} {store : Store} {writes : List Write}
    (h : verifyAll money store writes = .ok ()) {write : Write} (hmember : write ∈ writes)
    {periodId : String} (hdeferred : write.deferred = some periodId) :
    assertMoneyAgreement money store periodId = .ok () := by
  induction writes with
  | nil => cases hmember
  | cons first rest ih =>
      simp only [verifyAll] at h
      rcases List.mem_cons.mp hmember with rfl | hrest
      · rw [hdeferred] at h
        simp only at h
        split at h
        · assumption
        · cases h
      · split at h
        · exact ih h hrest
        · split at h
          · exact ih h hrest
          · cases h

/-- Each write in turn finds the store as the test asks. -/
def eachFinds (test : Store → Write → Bool) (store : Store) : List Write → Bool
  | [] => true
  | write :: rest =>
      test store write &&
        match write.apply store with
        | .ok next => eachFinds test next rest
        | .error _ => true

theorem eachFinds_cons {test : Store → Write → Bool} {store : Store} {write : Write}
    {rest : List Write} (h : eachFinds test store (write :: rest) = true) :
    test store write = true ∧ ∀ middle, write.apply store = .ok middle →
      eachFinds test middle rest = true := by
  simp only [eachFinds, Bool.and_eq_true] at h
  exact ⟨h.1, fun middle hmiddle => by simpa [hmiddle] using h.2⟩

/-- What each of the writes keeps where it finds the store as it is tested for, the list keeps. -/
theorem applyAll_finds {P : Store → Prop} {test : Store → Write → Bool} {writes : List Write}
    (hstep : ∀ {write : Write} {before after : Store}, before.Keyed → test before write = true →
      Wrote before write after → P before → P after) {store store' : Store}
    (hkeyed : store.Keyed) (hfinds : eachFinds test store writes = true)
    (h : applyAll store writes = .ok store') (hstart : P store) : P store' := by
  induction writes generalizing store with
  | nil =>
      obtain rfl := Except.ok.inj h
      exact hstart
  | cons write rest ih =>
      obtain ⟨middle, hwrite, hrest⟩ := applyAll_cons h
      obtain ⟨hfirst, hlater⟩ := eachFinds_cons hfinds
      have hwrote := apply_wrote hkeyed hwrite
      exact ih (hwrote.keyed hkeyed) (hlater middle hwrite) hrest
        (hstep hkeyed hfirst hwrote hstart)

/-- A commit that went through: the core half, then the subscription half, and
the agreement of every period written. -/
theorem commit_ok {books books' : Books} {uow : Work} {writes : List Write}
    (h : books.commit uow writes = .ok books') :
    books.core.commit uow = .ok books'.core ∧
      applyAll books.store writes = .ok books'.store ∧
      verifyAll books'.core.money books'.store writes = .ok () := by
  unfold Books.commit at h
  split at h
  · cases h
  rename_i core hcore
  split at h
  · cases h
  rename_i store hstore
  split at h
  · cases h
  rename_i hverified
  obtain rfl := Except.ok.inj h
  exact ⟨hcore, hstore, hverified⟩

/-- An action leaves both stores alone, is one of the core, or is a commit that
went through. -/
theorem perform_cases {action : Action} {choice : Choice} {answer : action.Answer}
    {books books' : Books} (h : perform action choice books = some (answer, books')) :
    books' = books ∨
      (∃ own core, ∃ answer' : own.Answer, action = .core own ∧
        WaslaCore.perform own choice books.core = some (answer', core) ∧
        books' = { books with core := core }) ∨
      ∃ uow writes, action = .commit uow writes ∧ books.commit uow writes = .ok books' := by
  cases action with
  | core own =>
      simp only [perform] at h
      split at h
      · rename_i answer' core hperform
        obtain ⟨rfl, rfl⟩ := Prod.mk.inj (Option.some.inj h)
        exact .inr (.inl ⟨own, core, answer', rfl, hperform, rfl⟩)
      · cases h
  | read query =>
      cases choice with
      | proceed => exact .inl (Prod.mk.inj (Option.some.inj h)).2.symm
      | failing message => exact .inl (Prod.mk.inj (Option.some.inj h)).2.symm
      | drawn id => cases h
      | elapsed milliseconds => cases h
  | commit uow writes =>
      cases choice with
      | proceed =>
          simp only [perform] at h
          split at h
          · rename_i after hcommit
            obtain ⟨-, rfl⟩ := Prod.mk.inj (Option.some.inj h)
            exact .inr (.inr ⟨uow, writes, rfl, hcommit⟩)
          · exact .inl (Prod.mk.inj (Option.some.inj h)).2.symm
      | failing message => exact .inl (Prod.mk.inj (Option.some.inj h)).2.symm
      | drawn id => cases h
      | elapsed milliseconds => cases h

theorem tick_ok {choice : Choice} {books books' : Books} (h : tick choice books = some books') :
    ∃ core, WaslaCore.tick choice books.core = some core ∧ books' = { books with core := core } := by
  simp only [tick] at h
  split at h
  · rename_i core hcore
    exact ⟨core, hcore, (Option.some.inj h).symm⟩
  · cases h

end WaslaCore.Billing
