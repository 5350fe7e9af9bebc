import WaslaCore.Billing.Conduct

/-!
The facts about subscriptions and periods are announced once where every update
finds its row in a status it may still leave. Nothing in the code makes an update
conditional on that status, so calls that read one old row each announce what
they decided from it.
-/

namespace WaslaCore.Billing

open Data Interleaving Platform

/-! ### Announcements -/

/-- The event is of the type and names the period. -/
def tells (eventType periodId : String) (event : Event) : Bool :=
  event.eventType = eventType && event.payload.contains ("period_id", Scalar.text periodId)

/-- How many events of one type name one period. -/
def toldOf (eventType periodId : String) (events : List Event) : Nat :=
  events.countP (tells eventType periodId)

/-- The later event calls a period past due that the earlier one settled. -/
def Contradicts (earlier later : Event) : Prop :=
  ∃ periodId, tells "core.subscription.period_settled" periodId earlier = true ∧
    tells "core.subscription.past_due" periodId later = true

/-- What the outbox says about subscriptions is said once and stands. -/
structure Announced (outbox : List Event) : Prop where
  settled : ∀ periodId, toldOf "core.subscription.period_settled" periodId outbox ≤ 1
  cancelled : ∀ subscriptionId, eventsOf "core.subscription.cancelled" subscriptionId outbox ≤ 1
  expired : ∀ subscriptionId, eventsOf "core.subscription.expired" subscriptionId outbox ≤ 1
  standing : outbox.Pairwise (fun earlier later => ¬Contradicts earlier later)

/-! ### How far a row has come -/

/-- An ended subscription never runs again, and only a cancelled one may expire. -/
def SubscriptionStatus.progress : SubscriptionStatus → Nat
  | .active => 0
  | .pastDue => 0
  | .cancelled => 1
  | .expired => 2

def PeriodStatus.progress : PeriodStatus → Nat
  | .settled => 1
  | _ => 0

namespace Store

def subscriptionProgress (store : Store) (subscriptionId : String) : Nat :=
  (store.getSubscription subscriptionId).elim 0 (fun row => row.status.progress)

def periodProgress (store : Store) (periodId : String) : Nat :=
  (store.getPeriod periodId).elim 0 (fun row => row.status.progress)

end Store

/-- An update finds a period that is not settled, or a subscription that is not
expired and leaves it no less ended than it was. -/
def Write.timely (store : Store) : Write → Bool
  | .insertSubscription _ => true
  | .insertPeriod _ => true
  | .updateSubscription next =>
      (store.getSubscription next.subscriptionId).any (fun stored =>
        stored.status ≠ .expired && (stored.status ≠ .cancelled || next.status = .expired))
  | .updatePeriod next =>
      (store.getPeriod next.periodId).any (fun stored => stored.status ≠ .settled)

/-- Every commit is of timely writes. -/
def Timely (_ : Seen) (action : Action) (books : Books) : Prop :=
  match action with
  | .commit _ writes => eachFinds Write.timely books.store writes = true
  | _ => True

instance (seen : Seen) (action : Action) (books : Books) : Decidable (Timely seen action books) :=
  match action with
  | .commit _ writes => inferInstanceAs (Decidable (eachFinds Write.timely books.store writes = true))
  | .core _ => isTrue trivial
  | .read _ => isTrue trivial

/-! ### What writes add to the progress -/

/-- The announcements a write stands for. -/
def Write.settles (periodId : String) : Write → Nat
  | .updatePeriod next => if next.periodId = periodId then next.status.progress else 0
  | _ => 0

def Write.cancels (subscriptionId : String) : Write → Nat
  | .updateSubscription next =>
      if next.subscriptionId = subscriptionId ∧ next.status = .cancelled then 1 else 0
  | _ => 0

def Write.expires (subscriptionId : String) : Write → Nat
  | .updateSubscription next =>
      if next.subscriptionId = subscriptionId ∧ next.status = .expired then 1 else 0
  | _ => 0

/-- What a list of writes stands for, each weighed on its own. -/
def weight (weigh : Write → Nat) (writes : List Write) : Nat := (writes.map weigh).sum

section Progress

variable {store store' : Store} {write : Write}

/-- A timely update finds a period that is not settled. -/
theorem periodProgress_of_timely {next : SubscriptionPeriod}
    (h : (Write.updatePeriod next).timely store = true) :
    store.periodProgress next.periodId = 0 := by
  unfold Store.periodProgress
  simp only [Write.timely] at h
  cases hstored : store.getPeriod next.periodId with
  | none => rfl
  | some stored =>
      rw [hstored, Option.any_some] at h
      rw [Option.elim_some]
      cases hstatus : stored.status with
      | settled => simp [hstatus] at h
      | pending => rfl
      | uncollectible => rfl
      | voided => rfl

/-- A timely write takes no period back, and moves the one it names by what it
stands for. -/
theorem Wrote.settles_le (h : Wrote store write store') (htimely : write.timely store = true)
    (periodId : String) :
    store.periodProgress periodId + write.settles periodId ≤ store'.periodProgress periodId := by
  cases h with
  | insertedSubscription subscription hnew => exact Nat.le_refl _
  | missedSubscription next hmissing => exact Nat.le_refl _
  | updatedSubscription next stored hstored => exact Nat.le_refl _
  | insertedPeriod period hnew hwritable =>
      simp only [Store.periodProgress, Store.getPeriod_put, Write.settles]
      split
      · rename_i hid
        subst hid
        simp [hnew]
      · exact Nat.le_refl _
  | missedPeriod next hmissing => simp [Write.timely, hmissing] at htimely
  | updatedPeriod next stored hstored hwritable =>
      simp only [Store.periodProgress, Store.getPeriod_put, Write.settles]
      split
      · rename_i hid
        subst hid
        have hopen := periodProgress_of_timely htimely
        simp only [Store.periodProgress] at hopen
        rw [hopen]
        simp [SubscriptionPeriod.revise]
      · exact Nat.le_refl _

/-- A timely write takes no subscription back, and moves the one it names by what
it stands for. -/
theorem Wrote.ends_le (h : Wrote store write store') (htimely : write.timely store = true)
    (subscriptionId : String) :
    min 1 (store.subscriptionProgress subscriptionId) + write.cancels subscriptionId ≤
        min 1 (store'.subscriptionProgress subscriptionId) ∧
      store.subscriptionProgress subscriptionId - 1 + write.expires subscriptionId ≤
        store'.subscriptionProgress subscriptionId - 1 := by
  cases h with
  | insertedSubscription subscription hnew =>
      simp only [Store.subscriptionProgress, Store.getSubscription_put, Write.cancels,
        Write.expires]
      split
      · rename_i hid
        subst hid
        simp [hnew]
      · exact ⟨Nat.le_refl _, Nat.le_refl _⟩
  | missedSubscription next hmissing => simp [Write.timely, hmissing] at htimely
  | updatedSubscription next stored hstored =>
      simp only [Store.subscriptionProgress, Store.getSubscription_put, Write.cancels,
        Write.expires]
      by_cases hid : next.subscriptionId = subscriptionId
      · subst hid
        simp only [Write.timely, hstored, Option.any_some] at htimely
        simp only [hstored, if_true, true_and, Option.elim_some, Subscription.revise]
        revert htimely
        cases stored.status <;> cases next.status <;> simp [SubscriptionStatus.progress]
      · simp [hid]
  | insertedPeriod period hnew hwritable => exact ⟨Nat.le_refl _, Nat.le_refl _⟩
  | missedPeriod next hmissing => simp [Write.timely, hmissing] at htimely
  | updatedPeriod next stored hstored hwritable => exact ⟨Nat.le_refl _, Nat.le_refl _⟩

end Progress

/-- A list of timely writes moves every row at least by what the list stands for. -/
theorem applyAll_progress {store store' : Store} {writes : List Write} (hkeyed : store.Keyed)
    (htimely : eachFinds Write.timely store writes = true) (h : applyAll store writes = .ok store') :
    store'.Keyed ∧
      (∀ periodId, store.periodProgress periodId + weight (Write.settles periodId) writes ≤
        store'.periodProgress periodId) ∧
      ∀ subscriptionId,
        min 1 (store.subscriptionProgress subscriptionId) +
            weight (Write.cancels subscriptionId) writes ≤
          min 1 (store'.subscriptionProgress subscriptionId) ∧
        store.subscriptionProgress subscriptionId - 1 +
            weight (Write.expires subscriptionId) writes ≤
          store'.subscriptionProgress subscriptionId - 1 := by
  induction writes generalizing store with
  | nil =>
      obtain rfl := Except.ok.inj h
      exact ⟨hkeyed, fun _ => Nat.le_refl _, fun _ => ⟨Nat.le_refl _, Nat.le_refl _⟩⟩
  | cons write rest ih =>
      obtain ⟨middle, hwrite, hrest⟩ := applyAll_cons h
      obtain ⟨hfirst, hlater⟩ := eachFinds_cons htimely
      have hwrote := apply_wrote hkeyed hwrite
      obtain ⟨hkeyed', hperiods, hsubscriptions⟩ :=
        ih (hwrote.keyed hkeyed) (hlater middle hwrite) hrest
      refine ⟨hkeyed', fun periodId => ?_, fun subscriptionId => ?_⟩
      · have hstep := hwrote.settles_le hfirst periodId
        have hrun := hperiods periodId
        simp only [weight, List.map_cons, List.sum_cons] at hrun ⊢
        omega
      · have hstep := hwrote.ends_le hfirst subscriptionId
        have hrun := hsubscriptions subscriptionId
        simp only [weight, List.map_cons, List.sum_cons] at hrun ⊢
        omega

/-! ### What a commit announces -/

theorem Unannounced.toldOf {uow : Work} (h : Unannounced uow) {eventType : String}
    (hfact : eventType ∈ subscriptionFacts) (periodId : String) :
    toldOf eventType periodId uow.events = 0 := by
  refine List.countP_eq_zero.mpr fun event hevent htells => h event hevent ?_
  simp only [tells, Bool.and_eq_true, decide_eq_true_eq] at htells
  rwa [htells.1]

theorem Unannounced.eventsOf {uow : Work} (h : Unannounced uow) {eventType : String}
    (hfact : eventType ∈ subscriptionFacts) (entityId : String) :
    eventsOf eventType entityId uow.events = 0 := by
  refine List.countP_eq_zero.mpr fun event hevent hof => h event hevent ?_
  simp only [decide_eq_true_eq] at hof
  rwa [hof.1]

theorem toldOf_append (eventType periodId : String) (first second : List Event) :
    toldOf eventType periodId (first ++ second) =
      toldOf eventType periodId first + toldOf eventType periodId second :=
  List.countP_append

@[simp] theorem tells_periodSettled (subscription : Subscription) (period : SubscriptionPeriod)
    (periodId : String) :
    tells "core.subscription.period_settled" periodId (periodSettled subscription period) =
      decide (period.periodId = periodId) := by
  simp [tells, periodSettled, eq_comm]

theorem weight_cons (weigh : Write → Nat) (write : Write) (rest : List Write) :
    weight weigh (write :: rest) = weigh write + weight weigh rest := by
  simp [weight]

/-- A settlement announces the period it settles and nothing else. -/
theorem settleWork_announces {uow : Work} (h : Unannounced uow) (subscription : Subscription)
    (settled : SubscriptionPeriod) :
    (∀ periodId, toldOf "core.subscription.period_settled" periodId
        (settleWork uow subscription settled).events =
      if settled.periodId = periodId then 1 else 0) ∧
    (∀ periodId, toldOf "core.subscription.past_due" periodId
        (settleWork uow subscription settled).events = 0) ∧
    ∀ subscriptionId,
      eventsOf "core.subscription.cancelled" subscriptionId
        (settleWork uow subscription settled).events = 0 ∧
      eventsOf "core.subscription.expired" subscriptionId
        (settleWork uow subscription settled).events = 0 := by
  have hevents : (settleWork uow subscription settled).events =
      uow.events ++ [periodSettled subscription settled] := rfl
  refine ⟨fun periodId => ?_, fun periodId => ?_, fun subscriptionId => ⟨?_, ?_⟩⟩
  · rw [hevents, toldOf_append, h.toldOf (by simp [subscriptionFacts])]
    by_cases hid : settled.periodId = periodId <;> simp [toldOf, hid]
  · rw [hevents, toldOf_append, h.toldOf (by simp [subscriptionFacts])]
    simp [toldOf, tells, periodSettled]
  · rw [hevents, eventsOf_append, h.eventsOf (by simp [subscriptionFacts])]
    simp [eventsOf, periodSettled]
  · rw [hevents, eventsOf_append, h.eventsOf (by simp [subscriptionFacts])]
    simp [eventsOf, periodSettled]

theorem settlement_announces {uow : Work} (h : Unannounced uow) (subscription : Subscription)
    {settled : SubscriptionPeriod} (hsettled : settled.status = .settled) (rest : List Write) :
    (∀ periodId, toldOf "core.subscription.period_settled" periodId
        (settleWork uow subscription settled).events ≤
      weight (Write.settles periodId) (.updatePeriod settled :: rest)) ∧
    ∀ subscriptionId,
      eventsOf "core.subscription.cancelled" subscriptionId
          (settleWork uow subscription settled).events ≤
        weight (Write.cancels subscriptionId) (.updatePeriod settled :: rest) ∧
      eventsOf "core.subscription.expired" subscriptionId
          (settleWork uow subscription settled).events ≤
        weight (Write.expires subscriptionId) (.updatePeriod settled :: rest) := by
  obtain ⟨hsettles, -, hends⟩ := settleWork_announces h subscription settled
  refine ⟨fun periodId => ?_, fun subscriptionId => ?_⟩
  · rw [hsettles, weight_cons]
    by_cases hid : settled.periodId = periodId <;>
      simp [Write.settles, hid, hsettled, PeriodStatus.progress]
  · rw [(hends subscriptionId).1, (hends subscriptionId).2]
    exact ⟨Nat.zero_le _, Nat.zero_le _⟩

theorem unannounced_empty : Unannounced (UnitOfWork.empty : Work) := by
  simp [Unannounced, UnitOfWork.empty]

/-- What a commit announces is no more than its writes stand for. -/
theorem Staged.announces {seen : Seen} {uow : Work} {writes : List Write}
    (h : Staged seen uow writes) :
    (∀ periodId, toldOf "core.subscription.period_settled" periodId uow.events ≤
      weight (Write.settles periodId) writes) ∧
    ∀ subscriptionId,
      eventsOf "core.subscription.cancelled" subscriptionId uow.events ≤
        weight (Write.cancels subscriptionId) writes ∧
      eventsOf "core.subscription.expired" subscriptionId uow.events ≤
        weight (Write.expires subscriptionId) writes := by
  cases h with
  | created subscription plan period hactive hpending =>
      simp [createdWork, UnitOfWork.empty, toldOf, tells, eventsOf]
  | renewed subscription next hpending =>
      simp [renewedWork, UnitOfWork.empty, toldOf, tells, eventsOf]
  | settledFree subscription period now =>
      exact settlement_announces unannounced_empty subscription rfl (revival subscription)
  | settled subscription period authorizationId now uow hcaptures hheld =>
      exact settlement_announces hcaptures.unannounced subscription rfl (revival subscription)
  | uncollectible subscription period reason =>
      simp [uncollectibleWork, UnitOfWork.empty, pastDue, toldOf, tells, eventsOf]
  | cancelled subscription reason current now =>
      refine ⟨fun periodId => ?_, fun subscriptionId => ⟨?_, ?_⟩⟩
      · simp [cancelledWork, UnitOfWork.empty, toldOf, tells]
      · rw [weight_cons]
        refine le_trans (le_of_eq ?_) (Nat.le_add_right _ _)
        simp [cancelledWork, cancelledRow, UnitOfWork.empty, eventsOf, Write.cancels,
          List.countP_cons]
      · simp [cancelledWork, UnitOfWork.empty, eventsOf]
  | expired subscription now =>
      refine ⟨fun periodId => ?_, fun subscriptionId => ⟨?_, ?_⟩⟩
      · simp [expiredWork, UnitOfWork.empty, toldOf, tells]
      · simp [expiredWork, UnitOfWork.empty, eventsOf]
      · simp [expiredWork, expiredRow, UnitOfWork.empty, eventsOf, weight, Write.expires,
          List.countP_cons]

/-- A commit that calls a period past due rewrites that period first. -/
theorem Staged.past_due {seen : Seen} {uow : Work} {writes : List Write}
    (h : Staged seen uow writes) {periodId : String}
    (htold : toldOf "core.subscription.past_due" periodId uow.events ≠ 0) :
    ∃ next rest, writes = .updatePeriod next :: rest ∧ next.periodId = periodId := by
  cases h with
  | created subscription plan period hactive hpending =>
      simp [createdWork, UnitOfWork.empty, toldOf, tells] at htold
  | renewed subscription next hpending =>
      simp [renewedWork, UnitOfWork.empty, toldOf, tells] at htold
  | settledFree subscription period now =>
      exact absurd ((settleWork_announces unannounced_empty subscription _).2.1 periodId) htold
  | settled subscription period authorizationId now uow hcaptures hheld =>
      exact absurd ((settleWork_announces hcaptures.unannounced subscription _).2.1 periodId) htold
  | uncollectible subscription period reason =>
      refine ⟨_, _, rfl, ?_⟩
      by_contra hid
      apply htold
      have hne : ¬periodId = (uncollectibleRow period reason).periodId := fun heq => hid heq.symm
      simp [uncollectibleWork, UnitOfWork.empty, pastDue, toldOf, tells, hne]
  | cancelled subscription reason current now =>
      simp [cancelledWork, UnitOfWork.empty, toldOf, tells] at htold
  | expired subscription now =>
      simp [expiredWork, UnitOfWork.empty, toldOf, tells] at htold

/-- One commit never both settles a period and calls one past due. -/
theorem Staged.stands {seen : Seen} {uow : Work} {writes : List Write}
    (h : Staged seen uow writes) :
    uow.events.Pairwise (fun earlier later => ¬Contradicts earlier later) := by
  have hnone : (∀ periodId, toldOf "core.subscription.past_due" periodId uow.events = 0) ∨
      ∀ periodId, toldOf "core.subscription.period_settled" periodId uow.events = 0 := by
    cases h with
    | created subscription plan period hactive hpending =>
        simp [createdWork, UnitOfWork.empty, toldOf, tells]
    | renewed subscription next hpending =>
        simp [renewedWork, UnitOfWork.empty, toldOf, tells]
    | settledFree subscription period now =>
        exact .inl (settleWork_announces unannounced_empty subscription _).2.1
    | settled subscription period authorizationId now uow hcaptures hheld =>
        exact .inl (settleWork_announces hcaptures.unannounced subscription _).2.1
    | uncollectible subscription period reason =>
        right
        simp [uncollectibleWork, UnitOfWork.empty, pastDue, toldOf, tells]
    | cancelled subscription reason current now =>
        simp [cancelledWork, UnitOfWork.empty, toldOf, tells]
    | expired subscription now =>
        simp [expiredWork, UnitOfWork.empty, toldOf, tells]
  apply List.pairwise_of_forall_mem_list
  rintro earlier hearlier later hlater ⟨periodId, hsettled, hpastDue⟩
  rcases hnone with hnone | hnone
  · exact List.countP_eq_zero.mp (hnone periodId) later hlater hpastDue
  · exact List.countP_eq_zero.mp (hnone periodId) earlier hearlier hsettled

/-! ### The invariant -/

/-- What has been announced is recorded in the rows. -/
structure Recorded (store : Store) (outbox : List Event) : Prop where
  keyed : store.Keyed
  settled : ∀ periodId,
    toldOf "core.subscription.period_settled" periodId outbox ≤ store.periodProgress periodId
  cancelled : ∀ subscriptionId, eventsOf "core.subscription.cancelled" subscriptionId outbox ≤
    min 1 (store.subscriptionProgress subscriptionId)
  expired : ∀ subscriptionId, eventsOf "core.subscription.expired" subscriptionId outbox ≤
    store.subscriptionProgress subscriptionId - 1
  standing : outbox.Pairwise (fun earlier later => ¬Contradicts earlier later)

theorem Store.periodProgress_le (store : Store) (periodId : String) :
    store.periodProgress periodId ≤ 1 := by
  unfold periodProgress
  cases store.getPeriod periodId with
  | none => exact Nat.zero_le 1
  | some row =>
      rw [Option.elim_some]
      cases row.status <;> decide

theorem Store.subscriptionProgress_le (store : Store) (subscriptionId : String) :
    store.subscriptionProgress subscriptionId ≤ 2 := by
  unfold subscriptionProgress
  cases store.getSubscription subscriptionId with
  | none => exact Nat.zero_le 2
  | some row =>
      rw [Option.elim_some]
      cases row.status <;> decide

theorem Recorded.announced {store : Store} {outbox : List Event} (h : Recorded store outbox) :
    Announced outbox where
  settled periodId := (h.settled periodId).trans (store.periodProgress_le periodId)
  cancelled subscriptionId := (h.cancelled subscriptionId).trans (Nat.min_le_left 1 _)
  expired subscriptionId := by
    have hrecorded := h.expired subscriptionId
    have hbound := store.subscriptionProgress_le subscriptionId
    omega
  standing := h.standing

/-- Events that are not about subscriptions change nothing. -/
theorem Recorded.unannounced {store : Store} {outbox : List Event} {uow : Work}
    (h : Recorded store outbox) (hnone : Unannounced uow) :
    Recorded store (outbox ++ uow.events) where
  keyed := h.keyed
  settled periodId := by
    rw [toldOf_append, hnone.toldOf (by simp [subscriptionFacts])]
    exact h.settled periodId
  cancelled subscriptionId := by
    rw [eventsOf_append, hnone.eventsOf (by simp [subscriptionFacts])]
    exact h.cancelled subscriptionId
  expired subscriptionId := by
    rw [eventsOf_append, hnone.eventsOf (by simp [subscriptionFacts])]
    exact h.expired subscriptionId
  standing := by
    have hnot : ∀ event ∈ uow.events, ∀ earlier, ¬Contradicts earlier event := by
      rintro event hevent earlier ⟨periodId, -, hpastDue⟩
      exact List.countP_eq_zero.mp
        (hnone.toldOf (by simp [subscriptionFacts]) periodId) event hevent hpastDue
    exact List.pairwise_append.mpr ⟨h.standing,
      List.pairwise_of_forall_mem_list fun earlier _ event hevent => hnot event hevent earlier,
      fun earlier _ event hevent => hnot event hevent earlier⟩

/-- A commit of timely writes announces what its rows then record. -/
theorem Recorded.commit {store store' : Store} {outbox : List Event} {seen : Seen} {uow : Work}
    {writes : List Write} (h : Recorded store outbox) (hstaged : Staged seen uow writes)
    (htimely : eachFinds Write.timely store writes = true) (happly : applyAll store writes = .ok store') :
    Recorded store' (outbox ++ uow.events) := by
  obtain ⟨hkeyed, hperiods, hsubscriptions⟩ := applyAll_progress h.keyed htimely happly
  obtain ⟨hsettles, hends⟩ := hstaged.announces
  refine ⟨hkeyed, fun periodId => ?_, fun subscriptionId => ?_, fun subscriptionId => ?_, ?_⟩
  · rw [toldOf_append]
    exact (Nat.add_le_add (h.settled periodId) (hsettles periodId)).trans (hperiods periodId)
  · rw [eventsOf_append]
    exact (Nat.add_le_add (h.cancelled subscriptionId) (hends subscriptionId).1).trans
      (hsubscriptions subscriptionId).1
  · rw [eventsOf_append]
    exact (Nat.add_le_add (h.expired subscriptionId) (hends subscriptionId).2).trans
      (hsubscriptions subscriptionId).2
  · refine List.pairwise_append.mpr ⟨h.standing, hstaged.stands, ?_⟩
    rintro earlier hearlier later hlater ⟨periodId, hsettled, hpastDue⟩
    have htold : toldOf "core.subscription.past_due" periodId uow.events ≠ 0 := fun hzero =>
      List.countP_eq_zero.mp hzero later hlater hpastDue
    obtain ⟨next, rest, rfl, rfl⟩ := hstaged.past_due htold
    have hopen : store.periodProgress next.periodId = 0 :=
      periodProgress_of_timely (eachFinds_cons htimely).1
    have hbefore := h.settled next.periodId
    rw [hopen] at hbefore
    exact List.countP_eq_zero.mp (Nat.le_zero.mp hbefore) earlier hearlier hsettled

theorem Recorded.performs {action : Action} {choice : Choice} {answer : action.Answer}
    {books books' : Books} {seen : Seen} (h : Recorded books.store books.core.outbox)
    (howed : bookkeeping.owed seen action) (hallowed : Timely seen action books)
    (hperform : perform action choice books = some (answer, books')) :
    Recorded books'.store books'.core.outbox := by
  rcases perform_cases hperform with rfl | ⟨own, core, answer', rfl, hown, rfl⟩ |
    ⟨uow, writes, rfl, hcommit⟩
  · exact h
  · rcases WaslaCore.perform_cases hown with rfl | ⟨entry, rfl, rfl⟩ | ⟨uow, rfl, hcommit⟩
    · exact h
    · exact h
    · have hplain : Plain uow := howed
      rw [show core.outbox = books.core.outbox ++ uow.events from commit_outbox hcommit]
      exact h.unannounced hplain.unannounced
  · obtain ⟨hcore, hstore, -⟩ := commit_ok hcommit
    rw [commit_outbox hcore]
    exact h.commit howed hallowed hstore

theorem Recorded.opened (now : Int) (plans : Table Plan) (grants : Table PlanGrant) :
    Recorded (Books.opened now plans grants).store (Books.opened now plans grants).core.outbox where
  keyed := Store.keyed_offering plans grants
  settled _ := Nat.zero_le _
  cancelled _ := Nat.zero_le _
  expired _ := Nat.zero_le _
  standing := List.Pairwise.nil

/-- In every run whose commits are timely, every fact is announced once and no
period is called past due after it was settled. -/
theorem run_announced {now : Int} {plans : Table Plan} {grants : Table PlanGrant}
    {world : World Books Action Action.Answer Thrown Unit}
    (hrun : Run billing requests Timely (World.initial (Books.opened now plans grants)) world) :
    Announced world.store.core.outbox := by
  have hstart : Money.Agreement (Books.opened now plans grants).core.money ∧
      Recorded (Books.opened now plans grants).store (Books.opened now plans grants).core.outbox :=
    ⟨Money.agreement_empty, Recorded.opened now plans grants⟩
  have hkept := Run.maintains
    (I := fun world : World Books Action Action.Answer Thrown Unit =>
      Money.Agreement world.store.core.money ∧
        Recorded world.store.store world.store.core.outbox)
    requests_keep (fun _ h => h) ?_ ?_ (orderly_initial _) hstart hrun
  · exact hkept.2.2.announced
  · rintro before after seen action answer ⟨hagree, hrecorded⟩ howed hallowed ⟨choice, hperform⟩
    exact ⟨bookkeeping_told hagree hperform, agreement_performs hagree hperform,
      hrecorded.performs howed hallowed hperform⟩
  · rintro books books' tasks choice ⟨hagree, hrecorded⟩ htick
    obtain ⟨core, hcore, rfl⟩ := tick_ok htick
    obtain ⟨elapsed, rfl⟩ := WaslaCore.tick_ok hcore
    exact ⟨hagree, hrecorded⟩

/-- A subscription paid for, and then one cancellation of it. -/
def paidAndCancelled : Schedule :=
  walletFunded ++ subscribed ++ holdTaken 2 ++ settledBy 2 ++ cancelDecided 3 ++ committed 3

set_option maxRecDepth 20000 in
theorem run_announced_cancelled :
    ∃ world, play billing (fun seen action books => Timely seen action books) paidAndCancelled
        (World.initial (Books.opened 0 offered Table.empty)) = some world ∧
      eventsOf "core.subscription.cancelled" (idOf '4') world.store.core.outbox = 1 ∧
      Announced world.store.core.outbox := by
  have hplays : (play billing (fun seen action books => Timely seen action books)
      paidAndCancelled (World.initial (Books.opened 0 offered Table.empty))).any
        (fun world => eventsOf "core.subscription.cancelled" (idOf '4')
          world.store.core.outbox = 1) = true := by
    decide +kernel
  obtain ⟨world, hworld, htold⟩ := (Option.any_eq_true _ _).mp hplays
  refine ⟨world, hworld, of_decide_eq_true htold,
    run_announced (play_run hworld ?_ (fun _ _ _ h => of_decide_eq_true h))⟩
  simp [paidAndCancelled, walletFunded, subscribed, holdTaken, settledBy, cancelDecided, committed,
    acts, request_call]

/-- Two cancellations that both read the subscription as active. -/
def cancelledTwice : Schedule :=
  walletFunded ++ subscribed ++ holdTaken 2 ++ settledBy 2 ++ cancelDecided 3 ++ cancelDecided 4 ++
    committed 3 ++ committed 4

set_option maxRecDepth 20000 in
/-- Without the condition one subscription is announced cancelled twice. -/
theorem announced_fails : ¬∀ (now : Int) (plans : Table Plan) (grants : Table PlanGrant)
    (world : World Books Action Action.Answer Thrown Unit),
    Run billing requests anything (World.initial (Books.opened now plans grants)) world →
      Announced world.store.core.outbox := by
  intro htrue
  have hplays : (play billing unrestricted cancelledTwice
      (World.initial (Books.opened 0 offered Table.empty))).any
        (fun world => eventsOf "core.subscription.cancelled" (idOf '4')
          world.store.core.outbox = 2) = true := by
    decide +kernel
  obtain ⟨world, hworld, htold⟩ := (Option.any_eq_true _ _).mp hplays
  have hrun := unrestricted_run hworld (by
    simp [cancelledTwice, walletFunded, subscribed, holdTaken, settledBy, cancelDecided, committed,
      acts, request_call])
  have honce := (htrue 0 offered Table.empty world hrun).cancelled (idOf '4')
  rw [of_decide_eq_true htold] at honce
  exact absurd honce (by decide)

end WaslaCore.Billing
