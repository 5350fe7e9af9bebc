import WaslaCore.Billing.Stopped
import WaslaCore.Billing.Tiled
import WaslaCore.Conduct
import WaslaCore.Interleaving.Solo
import WaslaCore.Laws

/-!
Subscription calls in serial runs. A call that has both stores to itself commits what it
decided from rows that still stand: each of its commits is one of six deeds, which say
what the call had read, and what became of the rows is read off them.
-/

namespace WaslaCore.Billing

open Data Platform Interleaving

/-! ### What the stores keep -/

/-- Rows stand under their own identifiers, and every period has its subscription. -/
structure Consistent (books : Books) : Prop where
  core : Stocked books.core
  keyed : books.store.Keyed
  homed : ∀ periodId period, books.store.getPeriod periodId = some period →
    ∃ subscription, books.store.getSubscription period.subscriptionId = some subscription

/-- The subscription store stands, and time has not gone back. -/
structure Since (books later : Books) : Prop where
  store : later.store = books.store
  now : books.core.now ≤ later.core.now

theorem Since.refl (books : Books) : Since books books := ⟨rfl, Int.le_refl _⟩

theorem Since.trans {first second third : Books} (h : Since first second)
    (h' : Since second third) : Since first third :=
  ⟨h'.store.trans h.store, Int.le_trans h.now h'.now⟩

theorem tick_since {choice : Choice} {books books' : Books} (h : tick choice books = some books') :
    Since books books' := by
  obtain ⟨core, hcore, rfl⟩ := tick_ok h
  obtain ⟨elapsed, rfl⟩ := WaslaCore.tick_ok hcore
  exact ⟨rfl, by dsimp only; omega⟩

theorem drifts_since {books later : Books} (h : Drifts billing books later) : Since books later := by
  induction h with
  | refl => exact .refl books
  | tail _ hstep ih =>
      obtain ⟨choice, htick⟩ := hstep
      exact ih.trans (tick_since htick)

/-! ### Deeds -/

/-- A period that is still to be collected. -/
def SubscriptionPeriod.isOpen (period : SubscriptionPeriod) : Prop :=
  period.status = .pending ∨ period.status = .uncollectible

/-- The rows a collection was decided from still stand. -/
structure Collecting (store : Store) (period : SubscriptionPeriod) (subscription : Subscription) :
    Prop where
  stored : store.getPeriod period.periodId = some period
  unpaid : period.isOpen
  sold : store.getSubscription period.subscriptionId = some subscription

/-- What a call with the stores to itself commits, and what it had read by then. -/
inductive Deed (store : Store) (now : Int) : Work → List Write → Prop where
  | subscribed (subscription : Subscription) (plan : Plan) (period : SubscriptionPeriod)
      (hactive : subscription.status = .active) (hpending : period.status = .pending)
      (hown : period.subscriptionId = subscription.subscriptionId) :
      Deed store now (createdWork subscription plan period)
        [.insertSubscription subscription, .insertPeriod period]
  | renewed (subscription row : Subscription) (next : SubscriptionPeriod)
      (hpending : next.status = .pending)
      (hrow : store.getSubscription next.subscriptionId = some row) (hlive : isLive row = true) :
      Deed store now (renewedWork subscription next) [.insertPeriod next]
  | settled (period : SubscriptionPeriod) (subscription : Subscription)
      (authorizationId : Option String) (instant : Int) (uow : Work)
      (hcollecting : Collecting store period subscription) (hquiet : Unannounced uow) :
      Deed store now (settleWork uow subscription (settledRow period authorizationId instant))
        (.updatePeriod (settledRow period authorizationId instant) :: revival subscription)
  | uncollectible (period : SubscriptionPeriod) (subscription : Subscription) (reason : String)
      (hcollecting : Collecting store period subscription) :
      Deed store now (uncollectibleWork subscription (uncollectibleRow period reason) reason)
        (.updatePeriod (uncollectibleRow period reason) :: lapse subscription)
  | cancelled (subscription : Subscription) (reason : String) (instant : Int)
      (current : Option SubscriptionPeriod)
      (hrow : store.getSubscription subscription.subscriptionId = some subscription)
      (hlive : isLive subscription = true) (hpassed : instant ≤ now)
      (hcurrent : store.findPeriodCovering subscription.subscriptionId instant = current) :
      Deed store now
        (cancelledWork subscription (cancelledRow subscription reason current instant) reason
          ((voidable current).map voidedRow))
        (.updateSubscription (cancelledRow subscription reason current instant) ::
          (((voidable current).map voidedRow).map Write.updatePeriod).toList)
  | expired (subscription : Subscription) (instant : Int)
      (hcancelled : subscription.status = .cancelled) :
      Deed store now (expiredWork subscription (expiredRow subscription instant))
        [.updateSubscription (expiredRow subscription instant)]

/-- What an action of a call with the stores to itself owes. -/
def owes (action : Action) (books : Books) : Prop :=
  match action with
  | .commit uow writes => Deed books.store books.core.now uow writes
  | .core (.commit uow) => Unannounced uow
  | _ => True

/-- Every subscription is still there, live where it was and ended where it was. -/
def SameLife (store store' : Store) : Prop :=
  ∀ id row, store.getSubscription id = some row →
    ∃ row', store'.getSubscription id = some row' ∧ isLive row' = isLive row

theorem SameLife.refl (store : Store) : SameLife store store :=
  fun _ row hrow => ⟨row, hrow, rfl⟩

theorem SameLife.trans {first second third : Store} (h : SameLife first second)
    (h' : SameLife second third) : SameLife first third := by
  intro id row hrow
  obtain ⟨row', hrow', hlife⟩ := h id row hrow
  obtain ⟨row'', hrow'', hlife'⟩ := h' id row' hrow'
  exact ⟨row'', hrow'', hlife'.trans hlife⟩

/-- One row rewritten, as live as it was. -/
theorem SameLife.put {store : Store} {id : String} {row next : Subscription}
    (hrow : store.getSubscription id = some row) (hlife : isLive next = isLive row)
    (periods : Table SubscriptionPeriod) :
    SameLife store
      { store with subscriptions := store.subscriptions.put id next, periods := periods } := by
  intro other found hfound
  by_cases hid : id = other
  · subst hid
    rw [hrow] at hfound
    obtain rfl := Option.some.inj hfound
    exact ⟨next, Table.get_put_self _ _ _, hlife⟩
  · exact ⟨found, (Table.get_put_ne _ _ hid).trans hfound, rfl⟩

/-! ### What became of the rows -/

/-- The subscriptions once a collection has cleared past due. -/
def Store.revived (store : Store) (subscription : Subscription) : Table Subscription :=
  if subscription.status = .pastDue then
    store.subscriptions.put subscription.subscriptionId { subscription with status := .active }
  else store.subscriptions

/-- The subscriptions once a collection was refused. -/
def Store.lapsed (store : Store) (subscription : Subscription) : Table Subscription :=
  if subscription.status = .active then
    store.subscriptions.put subscription.subscriptionId { subscription with status := .pastDue }
  else store.subscriptions

/-- The periods once a cancellation has voided the covering one. -/
def Store.voiding (store : Store) (current : Option SubscriptionPeriod) :
    Table SubscriptionPeriod :=
  match voidable current with
  | none => store.periods
  | some period => store.periods.put period.periodId (voidedRow period)

/-- What a deed did. -/
inductive Did (store : Store) (now : Int) : Work → Store → Prop where
  | subscribed (subscription : Subscription) (plan : Plan) (period : SubscriptionPeriod)
      (hactive : subscription.status = .active) (hpending : period.status = .pending)
      (hown : period.subscriptionId = subscription.subscriptionId)
      (hnew : store.getSubscription subscription.subscriptionId = none)
      (hfresh : store.getPeriod period.periodId = none) :
      Did store now (createdWork subscription plan period)
        { store with
          subscriptions := store.subscriptions.put subscription.subscriptionId subscription
          periods := store.periods.put period.periodId period }
  | renewed (subscription row : Subscription) (next : SubscriptionPeriod)
      (hpending : next.status = .pending)
      (hrow : store.getSubscription next.subscriptionId = some row) (hlive : isLive row = true)
      (hfresh : store.getPeriod next.periodId = none) :
      Did store now (renewedWork subscription next)
        { store with periods := store.periods.put next.periodId next }
  | settled (period : SubscriptionPeriod) (subscription : Subscription)
      (authorizationId : Option String) (instant : Int) (uow : Work)
      (hcollecting : Collecting store period subscription) (hquiet : Unannounced uow) :
      Did store now (settleWork uow subscription (settledRow period authorizationId instant))
        { store with
          periods := store.periods.put period.periodId (settledRow period authorizationId instant)
          subscriptions := store.revived subscription }
  | uncollectible (period : SubscriptionPeriod) (subscription : Subscription) (reason : String)
      (hcollecting : Collecting store period subscription) :
      Did store now (uncollectibleWork subscription (uncollectibleRow period reason) reason)
        { store with
          periods := store.periods.put period.periodId (uncollectibleRow period reason)
          subscriptions := store.lapsed subscription }
  | cancelled (subscription : Subscription) (reason : String) (instant : Int)
      (current : Option SubscriptionPeriod)
      (hrow : store.getSubscription subscription.subscriptionId = some subscription)
      (hlive : isLive subscription = true) (hpassed : instant ≤ now)
      (hcurrent : store.findPeriodCovering subscription.subscriptionId instant = current) :
      Did store now
        (cancelledWork subscription (cancelledRow subscription reason current instant) reason
          ((voidable current).map voidedRow))
        { store with
          subscriptions := store.subscriptions.put subscription.subscriptionId
            (cancelledRow subscription reason current instant)
          periods := store.voiding current }
  | expired (subscription stored : Subscription) (instant : Int)
      (hstored : store.getSubscription subscription.subscriptionId = some stored) :
      Did store now (expiredWork subscription (expiredRow subscription instant))
        { store with
          subscriptions := store.subscriptions.put subscription.subscriptionId
            (stored.revise (expiredRow subscription instant)) }
  | missed (subscription : Subscription) (instant : Int) :
      Did store now (expiredWork subscription (expiredRow subscription instant)) store

section Effects

variable {store store' : Store}

/-- An update of a stored period sets the columns it may set. -/
theorem applied_period (next : SubscriptionPeriod) {stored : SubscriptionPeriod} {rest : List Write}
    (hkeyed : store.Keyed) (hstored : store.getPeriod next.periodId = some stored)
    (h : applyAll store (.updatePeriod next :: rest) = .ok store') :
    applyAll { store with periods := store.periods.put next.periodId (stored.revise next) } rest =
      .ok store' := by
  obtain ⟨middle, hwrite, hrest⟩ := applyAll_cons h
  cases apply_wrote hkeyed hwrite with
  | missedPeriod _ hmissing =>
      rw [hmissing] at hstored
      cases hstored
  | updatedPeriod _ found hfound hwritable =>
      rw [hfound] at hstored
      obtain rfl := Option.some.inj hstored
      exact hrest

/-- An update of a stored subscription sets the columns it may set. -/
theorem applied_subscription (next : Subscription) {stored : Subscription} {rest : List Write}
    (hkeyed : store.Keyed) (hstored : store.getSubscription next.subscriptionId = some stored)
    (h : applyAll store (.updateSubscription next :: rest) = .ok store') :
    applyAll { store with
        subscriptions := store.subscriptions.put next.subscriptionId (stored.revise next) } rest =
      .ok store' := by
  obtain ⟨middle, hwrite, hrest⟩ := applyAll_cons h
  cases apply_wrote hkeyed hwrite with
  | missedSubscription _ hmissing =>
      rw [hmissing] at hstored
      cases hstored
  | updatedSubscription _ found hfound =>
      rw [hfound] at hstored
      obtain rfl := Option.some.inj hstored
      exact hrest

theorem keyed_period {next : SubscriptionPeriod} (hkeyed : store.Keyed) :
    ({ store with periods := store.periods.put next.periodId next } : Store).Keyed :=
  ⟨hkeyed.subscriptions, hkeyed.periods.put next⟩

theorem keyed_subscription {next : Subscription} (hkeyed : store.Keyed) :
    ({ store with
      subscriptions := store.subscriptions.put next.subscriptionId next } : Store).Keyed :=
  ⟨hkeyed.subscriptions.put next, hkeyed.periods⟩

/-- A covering period is a stored one. -/
theorem covering_stored (hkeyed : store.Keyed) {subscriptionId : String} {instant : Int}
    {period : SubscriptionPeriod}
    (h : store.findPeriodCovering subscriptionId instant = some period) :
    store.getPeriod period.periodId = some period ∧ period.subscriptionId = subscriptionId ∧
      periodCovers period instant = true :=
  have hmember := List.mem_of_find?_eq_some h
  have hfound := (mem_periodsOf hkeyed).mp hmember
  ⟨hfound.1, hfound.2, by simpa using List.find?_some h⟩

/-- A settlement stores the settled period, and revives what was past due. -/
theorem applied_settled {period : SubscriptionPeriod} {subscription : Subscription}
    {authorizationId : Option String} {instant : Int} (hkeyed : store.Keyed)
    (hcollecting : Collecting store period subscription)
    (h : applyAll store
      (.updatePeriod (settledRow period authorizationId instant) :: revival subscription) =
        .ok store') :
    store' = { store with
      periods := store.periods.put period.periodId (settledRow period authorizationId instant)
      subscriptions := store.revived subscription } := by
  have hrest := applied_period (settledRow period authorizationId instant) hkeyed
    hcollecting.stored h
  have hsold : store.getSubscription subscription.subscriptionId = some subscription := by
    rw [hkeyed.subscriptions _ _ hcollecting.sold]
    exact hcollecting.sold
  by_cases hlapsed : subscription.status = .pastDue
  · rw [revival, if_pos hlapsed] at hrest
    have hdone := applied_subscription { subscription with status := .active }
      (keyed_period hkeyed) hsold hrest
    obtain rfl := Except.ok.inj hdone
    rw [Store.revived, if_pos hlapsed]
    rfl
  · rw [revival, if_neg hlapsed] at hrest
    obtain rfl := Except.ok.inj hrest
    rw [Store.revived, if_neg hlapsed]
    rfl

/-- A refused collection stores why, and what was active is past due. -/
theorem applied_uncollectible {period : SubscriptionPeriod} {subscription : Subscription}
    {reason : String} (hkeyed : store.Keyed) (hcollecting : Collecting store period subscription)
    (h : applyAll store (.updatePeriod (uncollectibleRow period reason) :: lapse subscription) =
      .ok store') :
    store' = { store with
      periods := store.periods.put period.periodId (uncollectibleRow period reason)
      subscriptions := store.lapsed subscription } := by
  have hrest := applied_period (uncollectibleRow period reason) hkeyed hcollecting.stored h
  have hsold : store.getSubscription subscription.subscriptionId = some subscription := by
    rw [hkeyed.subscriptions _ _ hcollecting.sold]
    exact hcollecting.sold
  by_cases hactive : subscription.status = .active
  · rw [lapse, if_pos hactive] at hrest
    have hdone := applied_subscription { subscription with status := .pastDue }
      (keyed_period hkeyed) hsold hrest
    obtain rfl := Except.ok.inj hdone
    rw [Store.lapsed, if_pos hactive]
    rfl
  · rw [lapse, if_neg hactive] at hrest
    obtain rfl := Except.ok.inj hrest
    rw [Store.lapsed, if_neg hactive]
    rfl

theorem applied_subscribed {subscription : Subscription} {period : SubscriptionPeriod}
    (hkeyed : store.Keyed)
    (h : applyAll store [.insertSubscription subscription, .insertPeriod period] = .ok store') :
    store.getSubscription subscription.subscriptionId = none ∧
      store.getPeriod period.periodId = none ∧
      store' = { store with
        subscriptions := store.subscriptions.put subscription.subscriptionId subscription
        periods := store.periods.put period.periodId period } := by
  obtain ⟨middle, hfirst, hrest⟩ := applyAll_cons h
  obtain ⟨last, hsecond, hdone⟩ := applyAll_cons hrest
  obtain rfl := Except.ok.inj hdone
  cases apply_wrote hkeyed hfirst with
  | insertedSubscription _ hnew =>
      cases apply_wrote (keyed_subscription hkeyed) hsecond with
      | insertedPeriod _ hfresh hwritable => exact ⟨hnew, hfresh, rfl⟩

theorem applied_renewed {next : SubscriptionPeriod} (hkeyed : store.Keyed)
    (h : applyAll store [.insertPeriod next] = .ok store') :
    store.getPeriod next.periodId = none ∧
      store' = { store with periods := store.periods.put next.periodId next } := by
  obtain ⟨last, hwrite, hdone⟩ := applyAll_cons h
  obtain rfl := Except.ok.inj hdone
  cases apply_wrote hkeyed hwrite with
  | insertedPeriod _ hfresh hwritable => exact ⟨hfresh, rfl⟩

theorem applied_cancelled {subscription : Subscription} {reason : String} {instant : Int}
    {current : Option SubscriptionPeriod} (hkeyed : store.Keyed)
    (hrow : store.getSubscription subscription.subscriptionId = some subscription)
    (hcurrent : store.findPeriodCovering subscription.subscriptionId instant = current)
    (h : applyAll store
      (.updateSubscription (cancelledRow subscription reason current instant) ::
        (((voidable current).map voidedRow).map Write.updatePeriod).toList) = .ok store') :
    store' = { store with
      subscriptions := store.subscriptions.put subscription.subscriptionId
        (cancelledRow subscription reason current instant)
      periods := store.voiding current } := by
  have hrest := applied_subscription (cancelledRow subscription reason current instant) hkeyed
    hrow h
  unfold Store.voiding
  cases hvoidable : voidable current with
  | none =>
      rw [hvoidable] at hrest
      exact (Except.ok.inj hrest).symm
  | some period =>
      obtain ⟨hcovering, -⟩ := Option.filter_eq_some_iff.mp hvoidable
      obtain ⟨hstored, -, -⟩ := covering_stored hkeyed (hcurrent.trans hcovering)
      rw [hvoidable] at hrest
      have hdone := applied_period (voidedRow period) (keyed_subscription hkeyed) hstored hrest
      exact (Except.ok.inj hdone).symm

theorem applied_expired {subscription : Subscription} {instant : Int} (hkeyed : store.Keyed)
    (h : applyAll store [.updateSubscription (expiredRow subscription instant)] = .ok store') :
    store' = store ∨ ∃ stored, store.getSubscription subscription.subscriptionId = some stored ∧
      store' = { store with
        subscriptions := store.subscriptions.put subscription.subscriptionId
          (stored.revise (expiredRow subscription instant)) } := by
  obtain ⟨last, hwrite, hdone⟩ := applyAll_cons h
  obtain rfl := Except.ok.inj hdone
  cases apply_wrote hkeyed hwrite with
  | missedSubscription _ hmissing => exact .inl rfl
  | updatedSubscription _ stored hstored => exact .inr ⟨stored, hstored, rfl⟩

theorem Deed.did {now : Int} {uow : Work} {writes : List Write} (hkeyed : store.Keyed)
    (hdeed : Deed store now uow writes) (h : applyAll store writes = .ok store') :
    Did store now uow store' := by
  cases hdeed with
  | subscribed subscription plan period hactive hpending hown =>
      obtain ⟨hnew, hfresh, rfl⟩ := applied_subscribed hkeyed h
      exact .subscribed subscription plan period hactive hpending hown hnew hfresh
  | renewed subscription row next hpending hrow hlive =>
      obtain ⟨hfresh, rfl⟩ := applied_renewed hkeyed h
      exact .renewed subscription row next hpending hrow hlive hfresh
  | settled period subscription authorizationId instant uow hcollecting hquiet =>
      rw [applied_settled hkeyed hcollecting h]
      exact .settled period subscription authorizationId instant uow hcollecting hquiet
  | uncollectible period subscription reason hcollecting =>
      rw [applied_uncollectible hkeyed hcollecting h]
      exact .uncollectible period subscription reason hcollecting
  | cancelled subscription reason instant current hrow hlive hpassed hcurrent =>
      rw [applied_cancelled hkeyed hrow hcurrent h]
      exact .cancelled subscription reason instant current hrow hlive hpassed hcurrent
  | expired subscription instant hcancelled =>
      rcases applied_expired hkeyed h with rfl | ⟨stored, hstored, rfl⟩
      · exact .missed subscription instant
      · exact .expired subscription stored instant hstored

end Effects

/-! ### The rules -/

/-- The call alone, in this system. -/
abbrev Lone {β : Type} (post : Except Thrown β → Books → Prop) (call : Call β) (books : Books) :
    Prop :=
  Solo billing Consistent owes post call books

section Rules

variable {β γ : Type} {books : Books} {post : Except Thrown γ → Books → Prop}

theorem lone_settled {result : Except Thrown β} {next : β → Call γ}
    (hok : ∀ value, result = .ok value → Lone post (next value) books)
    (herror : ∀ error, post (.error error) books) :
    Lone post (settled result >>= next) books := by
  cases result with
  | ok value => exact hok value rfl
  | error error => exact herror error

theorem lone_read {query : Query} {next : query.Answer → Call γ}
    (hok : ∀ later, Since books later → Consistent later →
      Lone post (next (query.eval books.store)) later)
    (herror : ∀ later error, Since books later → post (.error error) later) :
    Lone post (read query >>= next) books := by
  intro later hdrift hinv
  refine ⟨trivial, fun choice answer after hperform _ => ?_⟩
  have hsince := drifts_since hdrift
  cases choice with
  | proceed =>
      obtain ⟨rfl, rfl⟩ := Prod.mk.inj (Option.some.inj hperform)
      have hnext := hok later hsince hinv
      rw [← hsince.store] at hnext
      exact hnext
  | failing message =>
      obtain ⟨rfl, rfl⟩ := Prod.mk.inj (Option.some.inj hperform)
      exact herror later _ hsince
  | drawn id => cases hperform
  | elapsed milliseconds => cases hperform

/-- A commit goes through with what it wrote, or leaves the stores as they were. -/
theorem commit_lone {uow : Work} {writes : List Write}
    (hdeed : ∀ later, Since books later → Deed later.store later.core.now uow writes) :
    Lone (fun result later =>
        (result = .ok () → applyAll books.store writes = .ok later.store ∧ Consistent later) ∧
          ∀ error, result = .error error → Since books later)
      (commit uow writes) books := by
  intro later hdrift hinv
  have hsince := drifts_since hdrift
  refine ⟨hdeed later hsince, fun choice answer after hperform hafter => ?_⟩
  cases choice with
  | proceed =>
      simp only [billing, perform] at hperform
      split at hperform
      · rename_i books' hcommit
        obtain ⟨rfl, rfl⟩ := Prod.mk.inj (Option.some.inj hperform)
        have happly := (commit_ok hcommit).2.1
        rw [hsince.store] at happly
        exact ⟨fun _ => ⟨happly, hafter⟩, by rintro error ⟨⟩⟩
      · obtain ⟨rfl, rfl⟩ := Prod.mk.inj (Option.some.inj hperform)
        exact ⟨by rintro ⟨⟩, fun _ _ => hsince⟩
  | failing message =>
      obtain ⟨rfl, rfl⟩ := Prod.mk.inj (Option.some.inj hperform)
      exact ⟨by rintro ⟨⟩, fun _ _ => hsince⟩
  | drawn id => cases hperform
  | elapsed milliseconds => cases hperform

theorem lone_commit {uow : Work} {writes : List Write} {next : Unit → Call γ}
    (hdeed : ∀ later, Since books later → Deed later.store later.core.now uow writes)
    (hok : ∀ later, applyAll books.store writes = .ok later.store → Consistent later →
      Lone post (next ()) later)
    (herror : ∀ later error, Since books later → post (.error error) later) :
    Lone post (commit uow writes >>= next) books := by
  refine solo_bind (commit_lone hdeed) ?_ ?_
  · rintro ⟨⟩ later ⟨hdone, -⟩
    obtain ⟨happly, hinv⟩ := hdone rfl
    exact hok later happly hinv
  · rintro error later ⟨-, hfailed⟩
    exact herror later error (hfailed error rfl)

/-- A call of the money service leaves the subscription store alone. -/
theorem lone_lift {discipline : Discipline WaslaCore.Action WaslaCore.Action.Answer}
    {result : WaslaCore.Seen → Except Thrown β → Prop} {call : WaslaCore.Call β}
    {post : Except Thrown β → Books → Prop}
    (htold : ∀ action answer, foreseen action answer → discipline.told action answer)
    (howed : ∀ seen uow, discipline.owed seen (.commit uow) → Unannounced uow)
    (hkeeps : Keeps discipline result call [])
    (hpost : ∀ later final seen, Since books later → result seen final → post final later) :
    Lone post (lift call) books := by
  have hall : ∀ seen, Keeps discipline result call seen →
      ∀ later, Since books later → Lone post (lift call) later := by
    clear hkeeps
    induction call with
    | done value => exact fun seen hkeeps later hsince => hpost later _ _ hsince hkeeps
    | fail error => exact fun seen hkeeps later hsince => hpost later _ _ hsince hkeeps
    | act action next ih =>
        intro seen hkeeps later hsince drifted hdrift hinv
        refine ⟨?_, fun choice answer after hperform _ => ?_⟩
        · cases action with
          | commit uow => exact howed _ _ hkeeps.1
          | read query => trivial
          | clock => trivial
          | newId => trivial
          | record entry => trivial
        · simp only [billing, perform] at hperform
          split at hperform
          · rename_i answer' core hown
            obtain ⟨rfl, rfl⟩ := Prod.mk.inj (Option.some.inj hperform)
            have hforeseen := foreseen_perform hinv.core hown
            apply ih answer' _ (hkeeps.2 answer' (htold _ _ hforeseen)) _
            refine (hsince.trans (drifts_since hdrift)).trans ⟨rfl, ?_⟩
            rcases WaslaCore.perform_cases hown with rfl | ⟨entry, rfl, rfl⟩ | ⟨uow, rfl, hcommit⟩
            · exact Int.le_refl _
            · exact Int.le_refl _
            · exact Int.le_of_eq (commit_now hcommit).symm
          · cases hperform
  exact hall [] hkeeps books (.refl books)

theorem lone_clock {next : Int → Call γ}
    (h : ∀ now later, Since books later → Consistent later → now = later.core.now →
      Lone post (next now) later) :
    Lone post (clock >>= next) books := by
  intro later hdrift hinv
  refine ⟨trivial, fun choice answer after hperform _ => ?_⟩
  cases choice with
  | proceed =>
      obtain ⟨rfl, rfl⟩ := Prod.mk.inj (Option.some.inj hperform)
      exact h later.core.now later (drifts_since hdrift) hinv rfl
  | failing message => cases hperform
  | drawn id => cases hperform
  | elapsed milliseconds => cases hperform

theorem lone_newId {next : String → Call γ}
    (h : ∀ id later, Since books later → Lone post (next id) later) :
    Lone post (newId >>= next) books := by
  intro later hdrift hinv
  refine ⟨trivial, fun choice answer after hperform _ => ?_⟩
  cases choice with
  | drawn id =>
      simp only [billing, perform, WaslaCore.perform] at hperform
      split at hperform
      · rename_i answer' core hown
        split at hown
        · obtain ⟨rfl, rfl⟩ := Prod.mk.inj (Option.some.inj hown)
          obtain ⟨rfl, rfl⟩ := Prod.mk.inj (Option.some.inj hperform)
          exact h id later (drifts_since hdrift)
        · cases hown
      · cases hperform
  | proceed => cases hperform
  | failing message => cases hperform
  | elapsed milliseconds => cases hperform

end Rules

/-! ### The money operations beside them -/

theorem closureEvent_type (fulfillment : Fulfillment.Fulfillment) (capturedMinor : Option Int) :
    (Fulfillment.closureEvent fulfillment capturedMinor).eventType ∉ subscriptionFacts := by
  unfold Fulfillment.closureEvent
  split <;> simp [subscriptionFacts]

/-- The services below tell nothing of subscriptions. -/
theorem operation_unannounced (operation : Operation) : Unannounced operation.staged := by
  obtain ⟨movement, coordination⟩ := operation
  intro event hevent
  unfold Operation.staged at hevent
  rw [Fulfillment.Coordination.staged_events] at hevent
  rcases List.mem_append.mp hevent with hmoney | hcoordination
  · revert hmoney
    cases movement <;>
      simp +contextual [Money.Movement.staged, Money.stageWallet, Money.stageCredit,
        Money.stageAuthorize, Money.stageCapture, Money.stageRefund, Money.stageVoid,
        UnitOfWork.empty, subscriptionFacts]
  · revert hcoordination
    cases coordination <;>
      simp +contextual [Fulfillment.Coordination.staged, Fulfillment.stageCreated,
        Fulfillment.stageRefused, Fulfillment.stageDispatched, Fulfillment.stageClosed,
        Fulfillment.stageTraced, Fulfillment.stageMarked, UnitOfWork.empty,
        Fulfillment.createdEvent, Fulfillment.dispatchedEvent,
        Fulfillment.executedAfterCancellationEvent, closureEvent_type]
    all_goals simp [subscriptionFacts]

/-- The operations that act on subscriptions, and every money operation beside them. -/
def allRequests (call : Call Unit) : Prop :=
  requests call ∨ ∃ request : Money.Request, call = lift request.call

theorem moneyRequest_lone (request : Money.Request) (books : Books) :
    Lone (fun _ _ => True) (lift request.call) books := by
  refine lone_lift (fun _ _ h => h) ?_ request.keeps (fun _ _ _ _ _ => trivial)
  rintro seen uow ⟨operation, -, rfl⟩
  exact operation_unannounced operation

/-! ### Steps keep the stores consistent -/

section Steps

variable {books books' : Books}

theorem Did.homed {now : Int} {uow : Work} {store store' : Store} (h : Did store now uow store')
    (hkeyed : store.Keyed) (hhomed : ∀ periodId period, store.getPeriod periodId = some period →
      ∃ subscription, store.getSubscription period.subscriptionId = some subscription)
    {periodId : String} {period : SubscriptionPeriod}
    (hperiod : store'.getPeriod periodId = some period) :
    ∃ subscription, store'.getSubscription period.subscriptionId = some subscription := by
  -- a subscription that is there stays there, whatever row it is given
  have hput : ∀ {id own : String} {next : Subscription},
      (∃ subscription, store.getSubscription own = some subscription) →
      ∃ subscription, (store.subscriptions.put id next).get own = some subscription := by
    rintro id own next ⟨subscription, hsubscription⟩
    by_cases hid : id = own
    · subst hid
      exact ⟨next, Table.get_put_self _ _ _⟩
    · exact ⟨subscription, (Table.get_put_ne _ _ hid).trans hsubscription⟩
  have hwritten : ∀ next : SubscriptionPeriod,
      (store.periods.put next.periodId next).get periodId = some period →
      period = next ∨ store.getPeriod periodId = some period := by
    intro next hfound
    rw [Table.get_put] at hfound
    split at hfound
    · exact .inl (Option.some.inj hfound).symm
    · exact .inr hfound
  cases h with
  | subscribed subscription plan first hactive hpending hown hnew hfresh =>
      rcases hwritten _ hperiod with rfl | hbefore
      · exact ⟨subscription, hown ▸ Table.get_put_self _ _ _⟩
      · exact hput (hhomed periodId period hbefore)
  | renewed subscription row next hpending hrow hlive hfresh =>
      rcases hwritten _ hperiod with rfl | hbefore
      · exact ⟨row, hrow⟩
      · exact hhomed periodId period hbefore
  | settled collected subscription authorizationId instant uow hcollecting hquiet =>
      have hsold : ∃ subscription,
          store.getSubscription period.subscriptionId = some subscription := by
        rcases hwritten (settledRow collected authorizationId instant) hperiod with
          rfl | hbefore
        · exact ⟨subscription, hcollecting.sold⟩
        · exact hhomed periodId period hbefore
      unfold Store.getSubscription Store.revived
      dsimp only
      split
      · exact hput hsold
      · exact hsold
  | uncollectible collected subscription reason hcollecting =>
      have hsold : ∃ subscription,
          store.getSubscription period.subscriptionId = some subscription := by
        rcases hwritten (uncollectibleRow collected reason) hperiod with rfl | hbefore
        · exact ⟨subscription, hcollecting.sold⟩
        · exact hhomed periodId period hbefore
      unfold Store.getSubscription Store.lapsed
      dsimp only
      split
      · exact hput hsold
      · exact hsold
  | cancelled subscription reason instant current hrow hlive hpassed hcurrent =>
      apply hput
      cases hvoidable : voidable current with
      | none =>
          have hbefore : store.getPeriod periodId = some period := by
            simpa [Store.getPeriod, Store.voiding, hvoidable] using hperiod
          exact hhomed periodId period hbefore
      | some covering =>
          obtain ⟨hcovering, -⟩ := Option.filter_eq_some_iff.mp hvoidable
          obtain ⟨hstored, -, -⟩ := covering_stored hkeyed (hcurrent.trans hcovering)
          have hafter : (store.periods.put covering.periodId (voidedRow covering)).get periodId =
              some period := by
            simpa [Store.getPeriod, Store.voiding, hvoidable] using hperiod
          rcases hwritten (voidedRow covering) hafter with rfl | hbefore
          · exact hhomed covering.periodId covering hstored
          · exact hhomed periodId period hbefore
  | expired subscription stored instant hstored => exact hput (hhomed periodId period hperiod)
  | missed subscription instant => exact hhomed periodId period hperiod

theorem Consistent.opened (now : Int) (plans : Table Plan) (grants : Table PlanGrant) :
    Consistent (Books.opened now plans grants) where
  core := stocked_empty now
  keyed := Store.keyed_offering plans grants
  homed := by rintro periodId period ⟨⟩

theorem consistent_tick {choice : Choice} (h : Consistent books)
    (htick : billing.tick choice books = some books') : Consistent books' := by
  obtain ⟨core, hcore, rfl⟩ := tick_ok htick
  obtain ⟨elapsed, rfl⟩ := WaslaCore.tick_ok hcore
  exact ⟨⟨h.core.money, h.core.wallets, h.core.ruled⟩, h.keyed, h.homed⟩

/-- An action that pays what it owes keeps the stores consistent. -/
theorem consistent_performs {action : Action} {choice : Choice} {answer : action.Answer}
    (h : Consistent books) (howed : owes action books)
    (hperform : billing.perform action choice books = some (answer, books')) :
    Consistent books' := by
  rcases perform_cases hperform with rfl | ⟨own, core, answer', rfl, hown, rfl⟩ |
    ⟨uow, writes, rfl, hcommit⟩
  · exact h
  · refine ⟨?_, h.keyed, h.homed⟩
    rcases WaslaCore.perform_cases hown with rfl | ⟨entry, rfl, rfl⟩ | ⟨uow, rfl, hcommit⟩
    · exact h.core
    · exact ⟨h.core.money, h.core.wallets, h.core.ruled⟩
    · exact h.core.commit hcommit
  · obtain ⟨hcore, hstore, -⟩ := commit_ok hcommit
    have hdeed : Deed books.store books.core.now uow writes := howed
    exact ⟨h.core.commit hcore, applyAll_keyed h.keyed hstore,
      fun _ _ hperiod => (hdeed.did h.keyed hstore).homed h.keyed h.homed hperiod⟩

end Steps

/-! ### The operations -/

section Operations

-- a check is one step, whatever text it compares
attribute [local irreducible] trim

variable {books : Books}

/-- A collection leaves every subscription as live as it was; one that raises has
committed nothing. -/
def Charged {β : Type} (books : Books) (result : Except Thrown β) (later : Books) : Prop :=
  SameLife books.store later.store ∧ ∀ error, result = .error error → Since books later

theorem Charged.since {β : Type} {later : Books} {result : Except Thrown β}
    (h : Since books later) : Charged books result later :=
  ⟨h.store ▸ SameLife.refl _, fun _ _ => h⟩

theorem Collecting.later {later : Books} {period : SubscriptionPeriod}
    {subscription : Subscription} (h : Collecting books.store period subscription)
    (hsince : Since books later) : Collecting later.store period subscription :=
  hsince.store ▸ h

theorem plainly_foreseen (action : WaslaCore.Action) (answer : action.Answer)
    (h : foreseen action answer) : plainly.told action answer := by
  cases action with
  | read query =>
      cases query with
      | getAuthorization authorizationId =>
          cases answer with
          | error error => trivial
          | ok found =>
              revert h
              cases (found : Option Money.PaymentAuthorization) with
              | none => exact fun _ => trivial
              | some row => exact fun h => h.1
      | _ => trivial
  | _ => trivial

theorem plainly_quiet (seen : WaslaCore.Seen) (uow : Work) (h : plainly.owed seen (.commit uow)) :
    Unannounced uow :=
  h.unannounced

/-- A plain money call. -/
theorem lone_plain {β : Type} {result : WaslaCore.Seen → Except Thrown β → Prop}
    {call : WaslaCore.Call β} {post : Except Thrown β → Books → Prop}
    (hkeeps : Keeps plainly result call [])
    (hpost : ∀ later final seen, Since books later → result seen final → post final later) :
    Lone post (lift call) books :=
  lone_lift plainly_foreseen plainly_quiet hkeeps hpost

theorem captureFor_lone (authorizationId : Option String) :
    Lone (fun result later => Since books later ∧ ∀ uow, result = .ok uow → Unannounced uow)
      (captureFor authorizationId) books := by
  cases authorizationId with
  | none =>
      refine ⟨.refl books, ?_⟩
      rintro uow ⟨rfl⟩
      intro event hevent
      cases hevent
  | some authorizationId =>
      refine solo_bind (p := fun result later => Since books later ∧
        ∀ staged, result = .ok staged → Unannounced staged.1) ?_ ?_ ?_
      · apply lone_plain (captureWithin_plain authorizationId)
        intro later final seen hsince hcaptures
        exact ⟨hsince, fun staged hstaged => (hcaptures staged.1 staged.2 hstaged).unannounced⟩
      · rintro ⟨uow, moved⟩ later ⟨hsince, hquiet⟩
        refine ⟨hsince, ?_⟩
        rintro other ⟨rfl⟩
        exact hquiet (uow, moved) rfl
      · rintro error later ⟨hsince, -⟩
        exact ⟨hsince, by rintro uow ⟨⟩⟩

/-- A settlement leaves every subscription as live as it was. -/
theorem revived_sameLife {store : Store} {period : SubscriptionPeriod} {subscription : Subscription}
    (hkeyed : store.Keyed) (hcollecting : Collecting store period subscription)
    (periods : Table SubscriptionPeriod) :
    SameLife store { store with subscriptions := store.revived subscription, periods := periods } := by
  have hsold : store.getSubscription subscription.subscriptionId = some subscription := by
    rw [hkeyed.subscriptions _ _ hcollecting.sold]
    exact hcollecting.sold
  unfold Store.revived
  split
  · rename_i hlapsed
    exact SameLife.put hsold (by simp [isLive, hlapsed]) periods
  · exact fun _ row hrow => ⟨row, hrow, rfl⟩

/-- So does a refused collection. -/
theorem lapsed_sameLife {store : Store} {period : SubscriptionPeriod} {subscription : Subscription}
    (hkeyed : store.Keyed) (hcollecting : Collecting store period subscription)
    (periods : Table SubscriptionPeriod) :
    SameLife store { store with subscriptions := store.lapsed subscription, periods := periods } := by
  have hsold : store.getSubscription subscription.subscriptionId = some subscription := by
    rw [hkeyed.subscriptions _ _ hcollecting.sold]
    exact hcollecting.sold
  unfold Store.lapsed
  split
  · rename_i hactive
    exact SameLife.put hsold (by simp [isLive, hactive]) periods
  · exact fun _ row hrow => ⟨row, hrow, rfl⟩

theorem settlePeriod_lone {period : SubscriptionPeriod} {subscription : Subscription}
    {authorizationId : Option String}
    (hcollecting : Collecting books.store period subscription) :
    Lone (Charged books) (settlePeriod period subscription authorizationId) books := by
  unfold settlePeriod
  refine lone_clock fun now started hstarted hinv _ => ?_
  have hkeyed : books.store.Keyed := hstarted.store ▸ hinv.keyed
  refine solo_bind (captureFor_lone authorizationId) ?_ ?_
  · rintro uow later ⟨hlater, hquiet⟩
    have hsince := hstarted.trans hlater
    refine lone_commit ?_ ?_ ?_
    · intro final hfinal
      exact .settled period subscription authorizationId now uow
        (hcollecting.later (hsince.trans hfinal)) (hquiet uow rfl)
    · intro final happly _
      rw [hsince.store] at happly
      refine ⟨?_, by rintro error ⟨⟩⟩
      rw [applied_settled hkeyed hcollecting happly]
      exact revived_sameLife hkeyed hcollecting _
    · intro final error hfinal
      exact Charged.since (hsince.trans hfinal)
  · rintro error later ⟨hlater, -⟩
    exact Charged.since (hstarted.trans hlater)

theorem markUncollectible_lone {period : SubscriptionPeriod} {subscription : Subscription}
    {reason : String} (hcollecting : Collecting books.store period subscription) :
    Lone (Charged books) (markUncollectible period subscription reason) books := by
  unfold markUncollectible
  refine lone_clock fun now started hstarted hinv _ => ?_
  have hkeyed : books.store.Keyed := hstarted.store ▸ hinv.keyed
  refine lone_commit ?_ ?_ ?_
  · intro final hfinal
    exact .uncollectible period subscription reason (hcollecting.later (hstarted.trans hfinal))
  · intro final happly _
    rw [hstarted.store] at happly
    refine ⟨?_, by rintro error ⟨⟩⟩
    rw [applied_uncollectible hkeyed hcollecting happly]
    exact lapsed_sameLife hkeyed hcollecting _
  · intro final error hfinal
    exact Charged.since (hstarted.trans hfinal)

theorem authorizePeriod_lone (period : SubscriptionPeriod) (subscription : Subscription) :
    Lone (fun _ later => Since books later) (authorizePeriod period subscription) books := by
  unfold authorizePeriod
  refine solo_tryCatch (p := fun _ later => Since books later) ?_ (fun _ _ hsince => hsince) ?_
  · refine solo_bind (p := fun _ later => Since books later) ?_ (fun _ _ hsince => hsince)
      (fun _ _ hsince => hsince)
    exact lone_plain (authorize_plain _) (fun _ _ _ hsince _ => hsince)
  · intro error later hsince
    split <;> exact hsince

/-- Where an absent row is refused, what goes on from it goes on from a stored row. -/
theorem lone_requireSubscription {γ : Type} {subscriptionId : String}
    {next : Subscription → Call γ} {post : Except Thrown γ → Books → Prop}
    (hok : ∀ subscription later, Since books later → Consistent later →
      later.store.getSubscription subscriptionId = some subscription →
        Lone post (next subscription) later)
    (herror : ∀ later error, Since books later → post (.error error) later) :
    Lone post (requireSubscription subscriptionId >>= next) books := by
  refine solo_bind (p := fun result later => Since books later ∧
    ∀ subscription, result = .ok subscription → Consistent later ∧
      later.store.getSubscription subscriptionId = some subscription) ?_ ?_ ?_
  · unfold requireSubscription
    refine lone_read (fun later hsince hinv => ?_) (fun later error hsince => ?_)
    · cases hfound : Query.eval books.store (.getSubscription subscriptionId) with
      | none => exact ⟨hsince, by rintro subscription ⟨⟩⟩
      | some found =>
          refine ⟨hsince, ?_⟩
          rintro subscription ⟨rfl⟩
          exact ⟨hinv, hsince.store ▸ hfound⟩
    · exact ⟨hsince, by rintro subscription ⟨⟩⟩
  · rintro subscription later ⟨hsince, hfound⟩
    obtain ⟨hinv, hrow⟩ := hfound subscription rfl
    exact hok subscription later hsince hinv hrow
  · rintro error later ⟨hsince, -⟩
    exact herror later error hsince

theorem lone_requirePeriod {γ : Type} {periodId : String}
    {next : SubscriptionPeriod → Call γ} {post : Except Thrown γ → Books → Prop}
    (hok : ∀ period later, Since books later → Consistent later →
      later.store.getPeriod periodId = some period → Lone post (next period) later)
    (herror : ∀ later error, Since books later → post (.error error) later) :
    Lone post (requirePeriod periodId >>= next) books := by
  refine solo_bind (p := fun result later => Since books later ∧
    ∀ period, result = .ok period → Consistent later ∧
      later.store.getPeriod periodId = some period) ?_ ?_ ?_
  · unfold requirePeriod
    refine lone_read (fun later hsince hinv => ?_) (fun later error hsince => ?_)
    · cases hfound : Query.eval books.store (.getPeriod periodId) with
      | none => exact ⟨hsince, by rintro period ⟨⟩⟩
      | some found =>
          refine ⟨hsince, ?_⟩
          rintro period ⟨rfl⟩
          exact ⟨hinv, hsince.store ▸ hfound⟩
    · exact ⟨hsince, by rintro period ⟨⟩⟩
  · rintro period later ⟨hsince, hfound⟩
    obtain ⟨hinv, hrow⟩ := hfound period rfl
    exact hok period later hsince hinv hrow
  · rintro error later ⟨hsince, -⟩
    exact herror later error hsince

theorem isOpen_of_ne {period : SubscriptionPeriod} (hsettled : period.status ≠ .settled)
    (hvoided : period.status ≠ .voided) : period.isOpen := by
  unfold SubscriptionPeriod.isOpen
  cases hstatus : period.status <;> simp_all

/-- A charge leaves every subscription as live as it was. -/
theorem chargePeriod_lone (periodId : String) :
    Lone (fun _ later => SameLife books.store later.store) (chargePeriod periodId) books := by
  have hsame : ∀ {later}, Since books later → SameLife books.store later.store :=
    fun hsince => hsince.store ▸ SameLife.refl _
  unfold chargePeriod
  refine lone_settled (fun _ _ => ?_) (fun _ => .refl _)
  refine lone_requirePeriod ?_ (fun _ _ hsince => hsame hsince)
  intro period shown hshown hinv hperiod
  split
  · exact hsame hshown
  split
  · exact hsame hshown
  rename_i hsettled hvoided
  refine lone_requireSubscription ?_ (fun _ _ hsince => hsame (hshown.trans hsince))
  intro subscription asked hasked hinv' hsold
  have hsince := hshown.trans hasked
  have hown : period.periodId = periodId := hinv.keyed.periods _ _ hperiod
  have hcollecting : Collecting asked.store period subscription :=
    ⟨hasked.store ▸ hown ▸ hperiod, isOpen_of_ne hsettled hvoided, hsold⟩
  have hcharged : ∀ {held final : Books} {result : Except Thrown ChargeResult}, Since asked held →
      Charged held result final → SameLife books.store final.store := by
    intro held final result hheld hdone
    have hlife := hdone.1
    rwa [(hsince.trans hheld).store] at hlife
  split
  · exact (settlePeriod_lone hcollecting).mono (fun _ _ hdone => hcharged (.refl _) hdone)
  refine solo_bind (authorizePeriod_lone period subscription) ?_
    (fun error later hlater => hsame (hsince.trans hlater))
  intro outcome held hheld
  have hstill := hcollecting.later hheld
  cases outcome with
  | error reason =>
      exact (markUncollectible_lone hstill).mono (fun _ _ hdone => hcharged hheld hdone)
  | ok own =>
      refine solo_tryCatch (settlePeriod_lone hstill)
        (fun _ _ hdone => hcharged hheld hdone) ?_
      intro error refused hdone
      have hrefused := hheld.trans (hdone.2 error rfl)
      split
      · exact (markUncollectible_lone (hcollecting.later hrefused)).mono
          (fun _ _ hdone' => hcharged hrefused hdone')
      · exact hsame (hsince.trans hrefused)

/-- A built period is still to be collected. -/
theorem buildPeriod_lone (subscription : Subscription) (plan : Plan) (sequence startsAt : Int) :
    Lone (fun result later => Since books later ∧ ∀ period, result = .ok period →
        period.status = .pending ∧ period.subscriptionId = subscription.subscriptionId)
      (buildPeriod subscription plan sequence startsAt) books := by
  unfold buildPeriod
  refine lone_newId fun periodId drawn hdrawn => ?_
  refine lone_settled (fun endsAt _ => ?_) (fun _ => ⟨hdrawn, by rintro period ⟨⟩⟩)
  refine lone_clock fun createdAt later hlater _ _ => ?_
  refine ⟨hdrawn.trans hlater, ?_⟩
  rintro period ⟨rfl⟩
  exact ⟨rfl, rfl⟩

theorem subscribe_lone (input : SubscribeInput) :
    Lone (fun _ _ => True) (subscribe input) books := by
  unfold subscribe
  refine lone_settled (fun _ _ => ?_) (fun _ => trivial)
  refine lone_settled (fun _ _ => ?_) (fun _ => trivial)
  refine lone_settled (fun _ _ => ?_) (fun _ => trivial)
  refine solo_bind (p := fun _ _ => True) ?_ (fun plan planned _ => ?_) (fun _ _ _ => trivial)
  · unfold requirePlan
    refine lone_read (fun later _ _ => ?_) (fun _ _ _ => trivial)
    cases Query.eval books.store (.getPlan input.planId) <;> trivial
  split
  · trivial
  refine solo_bind (p := fun _ _ => True) ?_ (fun (found : Option Money.Wallet) held _ => ?_)
    (fun _ _ _ => trivial)
  · exact lone_plain (getWallet_plain input.walletId) (fun _ _ _ _ _ => trivial)
  cases found with
  | none => trivial
  | some wallet =>
      dsimp only
      split
      · trivial
      split
      · trivial
      refine lone_read (fun listed _ _ => ?_) (fun _ _ _ => trivial)
      split
      · trivial
      refine solo_bind (p := fun _ _ => True) ?_ (fun startsAt started _ => ?_)
        (fun _ _ _ => trivial)
      · cases input.startsAt with
        | absent =>
            have hclock : Keeps plainly anyEnd WaslaCore.clock [] := ⟨trivial, fun _ _ => trivial⟩
            exact lone_plain hclock (fun _ _ _ _ _ => trivial)
        | «at» instant => trivial
        | malformed => trivial
      refine lone_newId fun subscriptionId drawn _ => ?_
      refine lone_clock fun createdAt created _ _ _ => ?_
      refine solo_bind (buildPeriod_lone _ plan 1 startsAt) ?_ (fun _ _ _ => trivial)
      rintro period built ⟨-, hbuilt⟩
      obtain ⟨hpending, hown⟩ := hbuilt period rfl
      refine lone_commit (fun later _ => ?_) (fun opened _ _ => ?_) (fun _ _ _ => trivial)
      · exact .subscribed _ plan period rfl hpending hown
      refine solo_bind (chargePeriod_lone period.periodId) (fun charge charged _ => ?_)
        (fun _ _ _ => trivial)
      exact lone_read (fun _ _ _ => trivial) (fun _ _ _ => trivial)

theorem cancelSubscription_lone (subscriptionId reason : String) :
    Lone (fun _ _ => True) (cancelSubscription subscriptionId reason) books := by
  unfold cancelSubscription
  refine lone_settled (fun _ _ => ?_) (fun _ => trivial)
  dsimp only
  split
  · trivial
  refine lone_requireSubscription ?_ (fun _ _ _ => trivial)
  intro subscription shown hshown hinv hrow
  split
  · trivial
  split
  · trivial
  rename_i hcancelled hexpired
  refine lone_clock fun now asked hasked _ hnow => ?_
  refine lone_read (fun read hread _ => ?_) (fun _ _ _ => trivial)
  refine lone_commit (fun later hlater => ?_) (fun _ _ _ => trivial) (fun _ _ _ => trivial)
  have hsince := (hasked.trans hread).trans hlater
  refine .cancelled subscription _ now _ ?_ ?_ ?_ ?_
  · rw [hsince.store, hinv.keyed.subscriptions _ _ hrow]
    exact hrow
  · unfold isLive
    cases hstatus : subscription.status <;> simp_all
  · exact hnow ▸ (hread.trans hlater).now
  · rw [(hread.trans hlater).store]
    rfl

/-- The candidates of a sweep stand, as live as they were listed. -/
def Listed (store : Store) (due : List Subscription) : Prop :=
  ∀ subscription ∈ due, subscription.status ≠ .expired ∧
    ∃ row, store.getSubscription subscription.subscriptionId = some row ∧
      isLive row = isLive subscription

theorem Listed.later {store store' : Store} {due : List Subscription} (h : Listed store due)
    (hlife : SameLife store store') : Listed store' due := by
  intro subscription hmember
  obtain ⟨hstatus, row, hrow, hsame⟩ := h subscription hmember
  obtain ⟨row', hrow', hsame'⟩ := hlife _ row hrow
  exact ⟨hstatus, row', hrow', hsame'.trans hsame⟩

/-- A cancelled candidate expires, and what it stands for was not live. -/
theorem expireSubscription_lone {subscription row : Subscription}
    (hcancelled : subscription.status = .cancelled)
    (hrow : books.store.getSubscription subscription.subscriptionId = some row)
    (hended : isLive row = false) :
    Lone (fun _ later => SameLife books.store later.store) (expireSubscription subscription)
      books := by
  have hsame : ∀ {later}, Since books later → SameLife books.store later.store :=
    fun hsince => hsince.store ▸ SameLife.refl _
  unfold expireSubscription
  refine lone_clock fun now asked hasked hinv _ => ?_
  have hkeyed : books.store.Keyed := hasked.store ▸ hinv.keyed
  refine (commit_lone fun later _ => .expired subscription now hcancelled).mono ?_
  rintro result later ⟨hdone, hfailed⟩
  cases result with
  | error error => exact hsame (hasked.trans (hfailed error rfl))
  | ok value =>
      have happly := (hdone rfl).1
      rw [hasked.store] at happly
      have hstore := Except.ok.inj
        (applied_subscription (expiredRow subscription now) hkeyed hrow happly)
      rw [← hstore]
      refine SameLife.put hrow ?_ books.store.periods
      rw [hended]
      simp [isLive, Subscription.revise, expiredRow]

theorem renewFrom_lone {subscription : Subscription} {latest : SubscriptionPeriod}
    (result : Renewal) (hlisted : Listed books.store [subscription]) :
    Lone (fun _ later => SameLife books.store later.store)
      (renewFrom subscription latest result) books := by
  have hsame : ∀ {later}, Since books later → SameLife books.store later.store :=
    fun hsince => hsince.store ▸ SameLife.refl _
  obtain ⟨hexpired, row, hrow, hlife⟩ := hlisted subscription (List.mem_singleton.mpr rfl)
  unfold renewFrom
  split
  · rename_i hcancelled
    have hended : isLive row = false := by rw [hlife]; simp [isLive, hcancelled]
    exact solo_bind (expireSubscription_lone hcancelled hrow hended) (fun _ _ hdone => hdone)
      (fun _ _ hdone => hdone)
  rename_i hcancelled
  refine lone_read (fun planned hplanned hinv => ?_) (fun _ _ hsince => hsame hsince)
  cases Query.eval books.store (.getPlan subscription.planId) with
  | none => exact hsame hplanned
  | some plan =>
      refine solo_bind (buildPeriod_lone subscription plan _ _) ?_
        (fun _ _ hbuilt => hsame (hplanned.trans hbuilt.1))
      rintro next built ⟨hsince, hbuilt⟩
      obtain ⟨hpending, hown⟩ := hbuilt next rfl
      have hbefore := hplanned.trans hsince
      refine lone_commit (fun later hlater => ?_) (fun opened happly _ => ?_)
        (fun _ _ hlater => hsame (hbefore.trans hlater))
      · refine .renewed subscription row next hpending ?_ ?_
        · rw [(hbefore.trans hlater).store, hown]
          exact hrow
        · rw [hlife]
          unfold isLive
          cases hstatus : subscription.status <;> simp_all
      · have hopened : SameLife books.store opened.store := by
          rw [hsince.store, hplanned.store] at happly
          obtain ⟨store, hwrite, hdone⟩ := applyAll_cons happly
          rw [← Except.ok.inj hdone]
          cases apply_wrote (hplanned.store ▸ hinv.keyed) hwrite with
          | insertedPeriod _ hfresh hwritable => exact fun _ row hrow => ⟨row, hrow, rfl⟩
        refine solo_bind (chargePeriod_lone next.periodId) (fun charge charged hcharged => ?_)
          (fun _ _ hcharged => hopened.trans hcharged)
        exact hopened.trans hcharged

theorem renewOne_lone {subscription : Subscription} (now : Int) (result : Renewal)
    (hlisted : Listed books.store [subscription]) :
    Lone (fun _ later => SameLife books.store later.store) (renewOne now subscription result)
      books := by
  have hsame : ∀ {later}, Since books later → SameLife books.store later.store :=
    fun hsince => hsince.store ▸ SameLife.refl _
  unfold renewOne
  refine lone_read (fun shown hshown _ => ?_) (fun _ _ hsince => hsame hsince)
  cases Query.eval books.store (.latestPeriod subscription.subscriptionId) with
  | none => exact hsame hshown
  | some latest =>
      dsimp only
      split
      · exact hsame hshown
      · refine (renewFrom_lone result (hshown.store ▸ hlisted)).mono fun _ later hdone => ?_
        rwa [hshown.store] at hdone

theorem renewEach_lone (now : Int) (due : List Subscription) (result : Renewal)
    (hlisted : Listed books.store due) :
    Lone (fun _ _ => True) (renewEach now due result) books := by
  induction due generalizing result books with
  | nil => trivial
  | cons subscription rest ih =>
      have hfirst : Listed books.store [subscription] :=
        fun item hitem => hlisted item (List.mem_singleton.mp hitem ▸ List.mem_cons_self)
      have hrest : Listed books.store rest :=
        fun item hitem => hlisted item (List.mem_cons_of_mem _ hitem)
      refine solo_bind (renewOne_lone now result hfirst) ?_ (fun _ _ _ => trivial)
      exact fun renewed later hlife => ih renewed (hrest.later hlife)

theorem listed_candidates {store : Store} (hkeyed : store.Keyed) :
    Listed store (store.listSubscriptionsByStatus [.active, .pastDue, .cancelled]) := by
  intro subscription hmember
  rw [Store.listSubscriptionsByStatus, mem_orderedBy, List.mem_filter] at hmember
  obtain ⟨hvalue, hstatus⟩ := hmember
  obtain ⟨key, hrow⟩ := Table.mem_values.mp hvalue
  obtain rfl := hkeyed.subscriptions key subscription hrow
  refine ⟨?_, subscription, hrow, rfl⟩
  intro hexpired
  rw [hexpired] at hstatus
  simp at hstatus

theorem renewDuePeriods_lone : Lone (fun _ _ => True) renewDuePeriods books := by
  unfold renewDuePeriods
  refine lone_clock fun now asked hasked _ _ => ?_
  refine lone_read (fun listed hlisted hinv => ?_) (fun _ _ _ => trivial)
  have hcandidates := listed_candidates hinv.keyed
  rw [hlisted.store] at hcandidates
  exact renewEach_lone now _ _ (hlisted.store ▸ hcandidates)

theorem request_lone {call : Call Unit} (h : allRequests call) :
    Lone (fun _ _ => True) call books := by
  have hanswered : ∀ {β : Type} {inner : Call β}, Lone (fun _ _ => True) inner books →
      Lone (fun _ _ => True) (answered inner) books :=
    fun hinner => solo_bind hinner (fun _ _ _ => trivial) (fun _ _ _ => trivial)
  rcases h with ⟨request, rfl⟩ | ⟨request, rfl⟩
  · cases request with
    | createWallet input =>
        exact hanswered (lone_plain (createWallet_plain input) (fun _ _ _ _ _ => trivial))
    | credit input => exact hanswered (lone_plain (credit_plain input) (fun _ _ _ _ _ => trivial))
    | expireDueAuthorizations =>
        exact hanswered (lone_plain expireDueAuthorizations_plain (fun _ _ _ _ _ => trivial))
    | subscribe input => exact hanswered (subscribe_lone input)
    | chargePeriod periodId => exact hanswered ((chargePeriod_lone periodId).mono fun _ _ _ => trivial)
    | cancelSubscription subscriptionId reason =>
        exact hanswered (cancelSubscription_lone subscriptionId reason)
    | renewDuePeriods => exact hanswered renewDuePeriods_lone
  · exact moneyRequest_lone request books

end Operations

end WaslaCore.Billing
