import WaslaCore.Billing.Stopped
import WaslaCore.Data.Tiling

/-!
The periods of a subscription tile time. A period is built from the plan the
subscription was sold on, and a renewal builds on the latest period it was shown; what
either was shown may be old when it commits, but the columns it reads never change and a
sequence that is taken refuses the commit.
-/

namespace WaslaCore.Billing

open Data Interleaving Platform

/-! ### What a commit opens a period from -/

/-- A period built for the subscription from the plan. -/
structure Billed (plan : Plan) (subscriptionId : String) (sequence startsAt : Int)
    (period : SubscriptionPeriod) : Prop where
  owner : period.subscriptionId = subscriptionId
  sequence : period.sequence = sequence
  starts : period.startsAt = startsAt
  currency : period.currency = plan.currency
  amount : period.amountMinor = plan.amountMinor

/-- An update, which leaves every other column of its row alone. -/
def Write.revises : Write → Bool
  | .insertSubscription _ => false
  | .updateSubscription _ => true
  | .insertPeriod _ => false
  | .updatePeriod _ => true

/-- What a call was shown when it commits: a first period is built from the plan, a
renewal from the latest period and the plan of the subscription. -/
inductive Opens (seen : Seen) : List Write → Prop where
  | created (subscription : Subscription) (plan : Plan) (period : SubscriptionPeriod)
      (planId : String) (startsAt : Int)
      (hplan : ⟨.read (.getPlan planId), .ok (some plan)⟩ ∈ seen)
      (hsold : subscription.planId = plan.planId)
      (hbilled : Billed plan subscription.subscriptionId 1 startsAt period) :
      Opens seen [.insertSubscription subscription, .insertPeriod period]
  | renewed (subscription : Subscription) (latest : SubscriptionPeriod) (plan : Plan)
      (next : SubscriptionPeriod) (statuses : List SubscriptionStatus)
      (candidates : List Subscription)
      (hcandidates : ⟨.read (.listSubscriptionsByStatus statuses), .ok candidates⟩ ∈ seen)
      (hcandidate : subscription ∈ candidates)
      (hlatest : ⟨.read (.latestPeriod subscription.subscriptionId), .ok (some latest)⟩ ∈ seen)
      (hplan : ⟨.read (.getPlan subscription.planId), .ok (some plan)⟩ ∈ seen)
      (hbilled : Billed plan subscription.subscriptionId (latest.sequence + 1) latest.endsAt
        next) :
      Opens seen [.insertPeriod next]
  | revised (writes : List Write) (h : ∀ write ∈ writes, write.revises = true) :
      Opens seen writes

/-- Every commit of a call is one of these. -/
def opening : Discipline Action Action.Answer where
  told _ _ := True
  owed seen action :=
    match action with
    | .commit _ writes => Opens seen writes
    | _ => True

/-- A commit that inserts. -/
def Inserting : Action → Prop
  | .commit _ writes => ¬∀ write ∈ writes, write.revises = true
  | _ => False

section Opening

variable {β γ : Type} {seen : Seen} {post : Seen → Except Thrown γ → Prop}

theorem opening_of_avoids {call : Call β} (h : Avoids Inserting call) :
    Keeps opening (fun later _ => seen <+: later) call seen := by
  refine (h.keeps ?_ seen).mono ?_
  · intro seen action hplain
    cases action with
    | commit uow writes => exact .revised writes (not_not.mp hplain)
    | core action => trivial
    | read query => trivial
  · rintro later result ⟨rest, rfl, -⟩
    exact List.prefix_append seen rest

theorem opening_settled_bind {result : Except Thrown β} {next : β → Call γ}
    (hok : ∀ value, result = .ok value → Keeps opening post (next value) seen)
    (herror : ∀ error, post seen (.error error)) :
    Keeps opening post (settled result >>= next) seen := by
  cases result with
  | ok value => exact hok value rfl
  | error error => exact herror error

theorem opening_read_bind {query : Query} {next : query.Answer → Call γ}
    (hok : ∀ value, Keeps opening post (next value) (seen ++ [⟨.read query, .ok value⟩]))
    (herror : ∀ error, post (seen ++ [⟨.read query, .error error⟩]) (.error error)) :
    Keeps opening post (read query >>= next) seen := by
  refine ⟨trivial, fun answer _ => ?_⟩
  cases answer with
  | ok value => exact hok value
  | error error => exact herror error

theorem opening_commit_bind {uow : Work} {writes : List Write} {next : Unit → Call γ}
    (howed : Opens seen writes)
    (hok : Keeps opening post (next ()) (seen ++ [⟨.commit uow writes, .ok ()⟩]))
    (herror : ∀ error, post (seen ++ [⟨.commit uow writes, .error error⟩]) (.error error)) :
    Keeps opening post (commit uow writes >>= next) seen := by
  refine ⟨howed, fun answer _ => ?_⟩
  cases answer with
  | ok value => exact hok
  | error error => exact herror error

end Opening

/-! ### Calls that insert nothing -/

theorem avoids_lift {β : Type} (call : WaslaCore.Call β) : Avoids Inserting (lift call) :=
  avoids_embed (avoids_impossible (fun _ => id) call)

theorem avoids_settled {β : Type} (result : Except Thrown β) :
    Avoids Inserting (settled result) := by
  cases result <;> trivial

theorem avoids_read (query : Query) : Avoids Inserting (read query) :=
  ⟨id, fun answer => avoids_settled answer⟩

theorem avoids_commit {uow : Work} {writes : List Write}
    (h : ∀ write ∈ writes, write.revises = true) : Avoids Inserting (commit uow writes) :=
  ⟨fun hinserting => hinserting h, fun answer => avoids_settled answer⟩

theorem avoids_clock : Avoids Inserting clock := avoids_lift _

theorem avoids_newId : Avoids Inserting newId := avoids_lift _

theorem revival_revises (subscription : Subscription) :
    ∀ write ∈ revival subscription, write.revises = true := by
  unfold revival
  split <;> simp [Write.revises]

theorem lapse_revises (subscription : Subscription) :
    ∀ write ∈ lapse subscription, write.revises = true := by
  unfold lapse
  split <;> simp [Write.revises]

theorem avoids_settlePeriod (period : SubscriptionPeriod) (subscription : Subscription)
    (authorizationId : Option String) :
    Avoids Inserting (settlePeriod period subscription authorizationId) := by
  unfold settlePeriod
  refine avoids_bind avoids_clock fun now => avoids_bind ?_ fun uow => ?_
  · cases authorizationId with
    | none => trivial
    | some own => exact avoids_bind (avoids_lift _) (fun _ => trivial)
  · refine avoids_bind (avoids_commit ?_) (fun _ => trivial)
    exact List.forall_mem_cons.mpr ⟨rfl, revival_revises subscription⟩

theorem avoids_markUncollectible (period : SubscriptionPeriod) (subscription : Subscription)
    (reason : String) : Avoids Inserting (markUncollectible period subscription reason) := by
  unfold markUncollectible
  refine avoids_bind avoids_clock fun _ => avoids_bind (avoids_commit ?_) (fun _ => trivial)
  exact List.forall_mem_cons.mpr ⟨rfl, lapse_revises subscription⟩

theorem avoids_authorizePeriod (period : SubscriptionPeriod) (subscription : Subscription) :
    Avoids Inserting (authorizePeriod period subscription) := by
  unfold authorizePeriod
  refine avoids_tryCatch (avoids_bind (avoids_lift _) fun _ => trivial) fun error => ?_
  cases refusalAmong [.conflict, .notFound] error <;> trivial

theorem avoids_requirePeriod (periodId : String) : Avoids Inserting (requirePeriod periodId) := by
  unfold requirePeriod
  refine avoids_bind (avoids_read _) fun (found : Option SubscriptionPeriod) => ?_
  cases found <;> trivial

theorem avoids_requireSubscription (subscriptionId : String) :
    Avoids Inserting (requireSubscription subscriptionId) := by
  unfold requireSubscription
  refine avoids_bind (avoids_read _) fun (found : Option Subscription) => ?_
  cases found <;> trivial

theorem avoids_chargePeriod (periodId : String) : Avoids Inserting (chargePeriod periodId) := by
  unfold chargePeriod
  refine avoids_bind (avoids_settled _) fun _ => ?_
  refine avoids_bind (avoids_requirePeriod periodId) fun period => ?_
  split
  · trivial
  split
  · trivial
  refine avoids_bind (avoids_requireSubscription _) fun subscription => ?_
  split
  · exact avoids_settlePeriod period subscription none
  refine avoids_bind (avoids_authorizePeriod period subscription) fun outcome => ?_
  cases outcome with
  | error reason => exact avoids_markUncollectible period subscription reason
  | ok own =>
      refine avoids_tryCatch (avoids_settlePeriod period subscription (some own)) fun error => ?_
      cases refusalAmong [.conflict] error with
      | none => trivial
      | some reason => exact avoids_markUncollectible period subscription reason

section Cancelling

-- a check is one step, whatever text it compares
attribute [local irreducible] trim

theorem avoids_cancelSubscription (subscriptionId reason : String) :
    Avoids Inserting (cancelSubscription subscriptionId reason) := by
  unfold cancelSubscription
  refine avoids_bind (avoids_settled _) fun _ => ?_
  dsimp only
  split
  · trivial
  refine avoids_bind (avoids_requireSubscription _) fun subscription => ?_
  split
  · trivial
  split
  · trivial
  refine avoids_bind avoids_clock fun now => ?_
  refine avoids_bind (avoids_read _) fun (current : Option SubscriptionPeriod) => ?_
  refine avoids_bind (avoids_commit ?_) (fun _ => trivial)
  refine List.forall_mem_cons.mpr ⟨rfl, ?_⟩
  cases voidable current <;> simp [Write.revises]

end Cancelling

theorem avoids_expireSubscription (subscription : Subscription) :
    Avoids Inserting (expireSubscription subscription) := by
  unfold expireSubscription
  refine avoids_bind avoids_clock fun now => avoids_commit ?_
  simp [Write.revises]

/-! ### Calls that open a period -/

section Opened

variable {seen : Seen}

/-- A period is billed for what it is built from. -/
theorem buildPeriod_opening (subscription : Subscription) (plan : Plan)
    (sequence startsAt : Int) :
    Keeps opening (fun later result => seen <+: later ∧ ∀ period, result = .ok period →
        Billed plan subscription.subscriptionId sequence startsAt period)
      (buildPeriod subscription plan sequence startsAt) seen := by
  apply Keeps.grows
  unfold buildPeriod
  refine ⟨trivial, fun periodId _ => ?_⟩
  refine opening_settled_bind (fun endsAt _ => ?_) (fun _ => by rintro period ⟨⟩)
  refine ⟨trivial, fun createdAt _ => ?_⟩
  rintro period ⟨rfl⟩
  exact ⟨rfl, rfl, rfl, rfl, rfl⟩

/-- A plan that is found was read. -/
theorem requirePlan_opening (planId : String) :
    Keeps opening (fun later result => ∀ plan, result = .ok plan →
        ⟨.read (.getPlan planId), .ok (some plan)⟩ ∈ later)
      (requirePlan planId) seen := by
  unfold requirePlan
  refine opening_read_bind (fun (found : Option Plan) => ?_) (fun _ => by rintro plan ⟨⟩)
  cases found with
  | none => rintro plan ⟨⟩
  | some found =>
      rintro plan ⟨rfl⟩
      simp

theorem subscribe_opening (input : SubscribeInput) :
    Keeps opening anyEnd (subscribe input) seen := by
  unfold subscribe
  refine opening_settled_bind (fun _ _ => ?_) (fun _ => trivial)
  refine opening_settled_bind (fun _ _ => ?_) (fun _ => trivial)
  refine opening_settled_bind (fun _ _ => ?_) (fun _ => trivial)
  refine (requirePlan_opening input.planId).bind ?_ (fun _ _ _ => trivial)
  intro shown plan hplan
  split
  · trivial
  refine (opening_of_avoids (avoids_lift (Money.getWallet input.walletId))).bind ?_
    (fun _ _ _ => trivial)
  intro walletShown (found : Option Money.Wallet) hwallet
  cases found with
  | none => trivial
  | some wallet =>
      dsimp only
      split
      · trivial
      split
      · trivial
      refine opening_read_bind (fun (existing : List Subscription) => ?_) (fun _ => trivial)
      split
      · trivial
      have hstartOf : Avoids Inserting (startOf input.startsAt) := by
        unfold startOf
        split
        · exact avoids_clock
        · exact avoids_settled _
      refine (opening_of_avoids hstartOf).bind (fun afterStart startsAt hstart => ?_)
        (fun _ _ _ => trivial)
      refine (opening_of_avoids avoids_newId).bind (fun afterId subscriptionId hid => ?_)
        (fun _ _ _ => trivial)
      refine (opening_of_avoids avoids_clock).bind (fun afterClock createdAt hclock => ?_)
        (fun _ _ _ => trivial)
      refine (buildPeriod_opening _ plan 1 startsAt).bind ?_ (fun _ _ _ => trivial)
      rintro built period ⟨hbuilt, hbilled⟩
      have hgrown : shown <+: built := hwallet.trans ((List.prefix_append _ _).trans
        (hstart.trans (hid.trans (hclock.trans hbuilt))))
      refine opening_commit_bind ?_ ?_ (fun _ => trivial)
      · exact .created _ plan period input.planId startsAt (hgrown.subset (hplan plan rfl)) rfl
          (hbilled period rfl)
      · refine (opening_of_avoids (avoids_chargePeriod period.periodId)).bind
          (fun _ charge _ => ?_) (fun _ _ _ => trivial)
        exact opening_read_bind (fun _ => trivial) (fun _ => trivial)

/-- A renewal of a candidate of the sweep that was shown its latest period. -/
theorem renewFrom_opening {subscription : Subscription} {latest : SubscriptionPeriod}
    {statuses : List SubscriptionStatus} {candidates : List Subscription}
    (hcandidates : ⟨.read (.listSubscriptionsByStatus statuses), .ok candidates⟩ ∈ seen)
    (hcandidate : subscription ∈ candidates)
    (hlatest : ⟨.read (.latestPeriod subscription.subscriptionId), .ok (some latest)⟩ ∈ seen)
    (result : Renewal) : Keeps opening anyEnd (renewFrom subscription latest result) seen := by
  unfold renewFrom
  split
  · exact (opening_of_avoids (avoids_expireSubscription subscription)).bind
      (fun _ _ _ => trivial) (fun _ _ _ => trivial)
  refine opening_read_bind (fun (found : Option Plan) => ?_) (fun _ => trivial)
  cases found with
  | none => trivial
  | some plan =>
      refine (buildPeriod_opening _ plan _ _).bind ?_ (fun _ _ _ => trivial)
      rintro built next ⟨hbuilt, hbilled⟩
      have hgrown : seen <+: built := (List.prefix_append _ _).trans hbuilt
      refine opening_commit_bind ?_ ?_ (fun _ => trivial)
      · exact .renewed subscription latest plan next statuses candidates
          (hgrown.subset hcandidates) hcandidate (hgrown.subset hlatest)
          (hbuilt.subset (by simp)) (hbilled next rfl)
      · exact (opening_of_avoids (avoids_chargePeriod next.periodId)).bind (fun _ _ _ => trivial)
          (fun _ _ _ => trivial)

theorem renewOne_opening {subscription : Subscription} {statuses : List SubscriptionStatus}
    {candidates : List Subscription}
    (hcandidates : ⟨.read (.listSubscriptionsByStatus statuses), .ok candidates⟩ ∈ seen)
    (hcandidate : subscription ∈ candidates) (now : Int) (result : Renewal) :
    Keeps opening anyEnd (renewOne now subscription result) seen := by
  unfold renewOne
  refine opening_read_bind (fun (found : Option SubscriptionPeriod) => ?_) (fun _ => trivial)
  cases found with
  | none => trivial
  | some latest =>
      dsimp only
      split
      · trivial
      · exact renewFrom_opening (List.mem_append_left _ hcandidates) hcandidate (by simp) result

theorem renewEach_opening {statuses : List SubscriptionStatus} {candidates : List Subscription}
    (hcandidates : ⟨.read (.listSubscriptionsByStatus statuses), .ok candidates⟩ ∈ seen)
    (now : Int) {due : List Subscription} (hdue : ∀ subscription ∈ due, subscription ∈ candidates)
    (result : Renewal) : Keeps opening anyEnd (renewEach now due result) seen := by
  induction due generalizing seen result with
  | nil => trivial
  | cons subscription rest ih =>
      obtain ⟨hfirst, hrest⟩ := List.forall_mem_cons.mp hdue
      refine (renewOne_opening hcandidates hfirst now result).grows.bind ?_ (fun _ _ _ => trivial)
      rintro later result' ⟨hgrown, -⟩
      exact ih (hgrown.subset hcandidates) hrest result'

theorem renewDuePeriods_opening : Keeps opening anyEnd renewDuePeriods seen := by
  unfold renewDuePeriods
  refine ⟨trivial, fun now _ => ?_⟩
  refine opening_read_bind (fun (candidates : List Subscription) => ?_) (fun _ => trivial)
  exact renewEach_opening (List.mem_append_right _ (List.mem_singleton_self _)) now
    (fun _ h => h) _

end Opened

/-- Every request commits only what it was shown the rows for. -/
theorem requests_opening (call : Call Unit) (hcall : requests call) :
    Keeps opening anyEnd call [] := by
  obtain ⟨request, rfl⟩ := hcall
  have hanswered : ∀ {β : Type} {call : Call β}, Keeps opening anyEnd call [] →
      Keeps opening anyEnd (answered call) [] :=
    fun h => h.bind (fun _ _ _ => trivial) (fun _ _ _ => trivial)
  have hquiet : ∀ {β : Type} {call : Call β}, Avoids Inserting call →
      Keeps opening anyEnd call [] :=
    fun h => (opening_of_avoids h).mono (fun _ _ _ => trivial)
  cases request with
  | createWallet input => exact hanswered (hquiet (avoids_lift _))
  | credit input => exact hanswered (hquiet (avoids_lift _))
  | expireDueAuthorizations => exact hanswered (hquiet (avoids_lift _))
  | subscribe input => exact hanswered (subscribe_opening input)
  | chargePeriod periodId => exact hanswered (hquiet (avoids_chargePeriod periodId))
  | cancelSubscription subscriptionId reason =>
      exact hanswered (hquiet (avoids_cancelSubscription subscriptionId reason))
  | renewDuePeriods => exact hanswered renewDuePeriods_opening

/-! ### What the rows keep -/

/-- The period as it was billed: the columns an update leaves alone. -/
def SubscriptionPeriod.billed (period : SubscriptionPeriod) : SubscriptionPeriod :=
  { period with
    status := .pending
    authorizationId := none
    settledAt := none
    uncollectibleReason := none }

def SubscriptionPeriod.tile (period : SubscriptionPeriod) : Tile Int :=
  ⟨period.sequence, period.startsAt, period.endsAt⟩

theorem of_billed {period other : SubscriptionPeriod} (h : period.billed = other.billed) :
    period.subscriptionId = other.subscriptionId ∧ period.tile = other.tile ∧
      period.currency = other.currency ∧ period.amountMinor = other.amountMinor := by
  simp only [SubscriptionPeriod.billed, SubscriptionPeriod.mk.injEq] at h
  simp [SubscriptionPeriod.tile, h]

/-- The periods of a subscription as tiles. -/
def Store.tiles (store : Store) (subscriptionId periodId : String) : Option (Tile Int) :=
  ((store.getPeriod periodId).filter
    (fun period => period.subscriptionId = subscriptionId)).map SubscriptionPeriod.tile

theorem Store.tiles_eq_some {store : Store} {subscriptionId periodId : String} {tile : Tile Int} :
    store.tiles subscriptionId periodId = some tile ↔
      ∃ period, store.getPeriod periodId = some period ∧
        period.subscriptionId = subscriptionId ∧ period.tile = tile := by
  simp [Store.tiles, Option.filter_eq_some_iff, and_assoc]

/-- Rows stay, with the columns no update sets. -/
structure Lasting (store store' : Store) : Prop where
  plans : store'.plans = store.plans
  subscriptions : ∀ subscriptionId row, store.getSubscription subscriptionId = some row →
    ∃ row', store'.getSubscription subscriptionId = some row' ∧ row'.planId = row.planId
  periods : ∀ periodId period, store.getPeriod periodId = some period →
    ∃ period', store'.getPeriod periodId = some period' ∧ period'.billed = period.billed

section Rows

variable {store store' : Store}

theorem Lasting.refl (store : Store) : Lasting store store where
  plans := rfl
  subscriptions _ row h := ⟨row, h, rfl⟩
  periods _ period h := ⟨period, h, rfl⟩

theorem Lasting.trans {last : Store} (h : Lasting store store') (h' : Lasting store' last) :
    Lasting store last where
  plans := h'.plans.trans h.plans
  subscriptions subscriptionId row hrow := by
    obtain ⟨middle, hmiddle, hplan⟩ := h.subscriptions subscriptionId row hrow
    obtain ⟨row', hrow', hplan'⟩ := h'.subscriptions subscriptionId middle hmiddle
    exact ⟨row', hrow', hplan'.trans hplan⟩
  periods periodId period hperiod := by
    obtain ⟨middle, hmiddle, hbilled⟩ := h.periods periodId period hperiod
    obtain ⟨period', hperiod', hbilled'⟩ := h'.periods periodId middle hmiddle
    exact ⟨period', hperiod', hbilled'.trans hbilled⟩

theorem Wrote.lasting {write : Write} (h : Wrote store write store') : Lasting store store' := by
  cases h with
  | insertedSubscription subscription hnew =>
      refine ⟨rfl, fun subscriptionId row hrow => ⟨row, ?_, rfl⟩,
        fun periodId period hperiod => ⟨period, hperiod, rfl⟩⟩
      rw [Store.getSubscription_put, if_neg, hrow]
      rintro rfl
      rw [hnew] at hrow
      cases hrow
  | missedSubscription next hmissing => exact .refl store
  | updatedSubscription next stored hstored =>
      refine ⟨rfl, fun subscriptionId row hrow => ?_,
        fun periodId period hperiod => ⟨period, hperiod, rfl⟩⟩
      rw [Store.getSubscription_put]
      split
      · rename_i hid
        subst hid
        rw [hstored] at hrow
        obtain rfl := Option.some.inj hrow
        exact ⟨_, rfl, rfl⟩
      · exact ⟨row, hrow, rfl⟩
  | insertedPeriod period hnew hwritable =>
      refine ⟨rfl, fun subscriptionId row hrow => ⟨row, hrow, rfl⟩,
        fun periodId other hother => ⟨other, ?_, rfl⟩⟩
      rw [Store.getPeriod_put, if_neg, hother]
      rintro rfl
      rw [hnew] at hother
      cases hother
  | missedPeriod next hmissing => exact .refl store
  | updatedPeriod next stored hstored hwritable =>
      refine ⟨rfl, fun subscriptionId row hrow => ⟨row, hrow, rfl⟩,
        fun periodId period hperiod => ?_⟩
      rw [Store.getPeriod_put]
      split
      · rename_i hid
        subst hid
        rw [hstored] at hperiod
        obtain rfl := Option.some.inj hperiod
        exact ⟨_, rfl, rfl⟩
      · exact ⟨period, hperiod, rfl⟩

theorem applyAll_lasting {writes : List Write} (hkeyed : store.Keyed)
    (h : applyAll store writes = .ok store') : Lasting store store' :=
  applyAll_wrote (P := Lasting store) (fun _ _ _ _ hwrote hbefore => hbefore.trans hwrote.lasting)
    hkeyed h (.refl store)

/-- A row that was there after an update was there before it, billed the same. -/
theorem applyAll_revised {writes : List Write} (hkeyed : store.Keyed)
    (hrevises : ∀ write ∈ writes, write.revises = true) (h : applyAll store writes = .ok store')
    {periodId : String} {period' : SubscriptionPeriod}
    (hperiod : store'.getPeriod periodId = some period') :
    ∃ period, store.getPeriod periodId = some period ∧ period'.billed = period.billed := by
  have hbilled : ∀ period', store'.getPeriod periodId = some period' →
      ∃ period, store.getPeriod periodId = some period ∧ period'.billed = period.billed := by
    apply applyAll_wrote (P := fun later => ∀ period', later.getPeriod periodId = some period' →
      ∃ period, store.getPeriod periodId = some period ∧ period'.billed = period.billed) _ hkeyed h
      (fun period' hstored => ⟨period', hstored, rfl⟩)
    intro write hmember before after hwrote hbefore period' hafter
    have hupdates := hrevises write hmember
    cases hwrote with
    | insertedSubscription subscription hnew => cases hupdates
    | missedSubscription next hmissing => exact hbefore period' hafter
    | updatedSubscription next stored hstored => exact hbefore period' hafter
    | insertedPeriod period hnew hwritable => cases hupdates
    | missedPeriod next hmissing => exact hbefore period' hafter
    | updatedPeriod next stored hstored hwritable =>
        rw [Store.getPeriod_put] at hafter
        split at hafter
        · rename_i hid
          subst hid
          obtain rfl := Option.some.inj hafter
          exact hbefore stored hstored
        · exact hbefore period' hafter
  exact hbilled period' hperiod

end Rows

/-! ### The periods as tiles -/

/-- Every period is priced by the plan of its subscription, and the periods of each
subscription tile time. -/
structure Tiled (store : Store) : Prop where
  keyed : store.Keyed
  plans : store.plans.KeyedBy Plan.planId
  tiling : ∀ subscriptionId, Tiling (store.tiles subscriptionId)
  priced : ∀ periodId period, store.getPeriod periodId = some period →
    ∃ subscription plan, store.getSubscription period.subscriptionId = some subscription ∧
      store.getPlan subscription.planId = some plan ∧ period.currency = plan.currency ∧
      period.amountMinor = plan.amountMinor

section Tiles

variable {store store' : Store}

theorem writePeriod_unclashed {period : SubscriptionPeriod}
    (h : store.writePeriod period = .ok store') : store.sequenceClash period = false := by
  unfold Store.writePeriod at h
  split at h
  · cases h
  split at h
  · cases h
  split at h
  · cases h
  rename_i hclash
  simpa using hclash

theorem ordered_shape {period : SubscriptionPeriod} (h : assertPeriodShape period = .ok ()) :
    period.startsAt < period.endsAt := by
  unfold assertPeriodShape at h
  split at h
  · cases h
  split at h
  · cases h
  rename_i hordered
  exact Int.not_le.mp hordered

/-- A period that is inserted is a tile of its own subscription. -/
theorem tiles_insert {period : SubscriptionPeriod} (subscriptionId : String) :
    ({ store with periods := store.periods.put period.periodId period } : Store).tiles
        subscriptionId =
      fun periodId =>
        if period.periodId = periodId then
          if period.subscriptionId = subscriptionId then some period.tile else none
        else store.tiles subscriptionId periodId := by
  funext periodId
  simp only [Store.tiles, Store.getPeriod_put]
  split
  · by_cases hmine : period.subscriptionId = subscriptionId <;> simp [Option.filter, hmine]
  · rfl

/-- The insert that goes through lays its tile at the end. -/
theorem Tiled.inserted {period : SubscriptionPeriod} {plan : Plan} {subscription : Subscription}
    (h : Tiled store) (hinsert : store.insertPeriod period = .ok store')
    (hsubscription : store.getSubscription period.subscriptionId = some subscription)
    (hplan : store.getPlan subscription.planId = some plan)
    (hcurrency : period.currency = plan.currency)
    (hamount : period.amountMinor = plan.amountMinor)
    (hjoined : period.sequence = 1 ∨ ∃ previousId previous,
      store.getPeriod previousId = some previous ∧
      previous.subscriptionId = period.subscriptionId ∧
      period.sequence = previous.sequence + 1 ∧ period.startsAt = previous.endsAt) :
    Tiled store' := by
  unfold Store.insertPeriod at hinsert
  split at hinsert
  · cases hinsert
  rename_i hnew
  have hfree : store.getPeriod period.periodId = none := by simpa [Store.getPeriod] using hnew
  have hunclashed := writePeriod_unclashed hinsert
  obtain ⟨hwritable, rfl⟩ := Store.writePeriod_ok hinsert
  have hkeyed := (Wrote.insertedPeriod period hfree hwritable).keyed h.keyed
  refine ⟨hkeyed, h.plans, fun subscriptionId => ?_, fun periodId other hother => ?_⟩
  · rw [tiles_insert]
    by_cases hmine : period.subscriptionId = subscriptionId
    · simp only [hmine, if_true]
      refine (h.tiling subscriptionId).extend ?_ ⟨?_, ?_, ordered_shape hwritable.shape⟩
      · simp [Store.tiles, hfree]
      · intro periodId tile htile hnumber
        obtain ⟨other, hother, hsame, rfl⟩ := Store.tiles_eq_some.mp htile
        have hvalues : other ∈ store.periods.values := Table.mem_values.mpr ⟨periodId, hother⟩
        have hclash := List.any_eq_false.mp hunclashed other hvalues
        have hid : other.periodId ≠ period.periodId := by
          rintro hid
          rw [h.keyed.periods periodId other hother] at hid
          rw [hid, hfree] at hother
          cases hother
        have hsequence : other.sequence = period.sequence := hnumber
        simp [hsame, hmine, hsequence, hid] at hclash
      · rcases hjoined with hfirst | ⟨previousId, previous, hprevious, howner, hnext, hstart⟩
        · exact .inl hfirst
        · refine .inr ⟨previousId, previous.tile, ?_, hnext, hstart⟩
          exact Store.tiles_eq_some.mpr ⟨previous, hprevious, howner.trans hmine, rfl⟩
    · have hsame : (fun periodId => if period.periodId = periodId then
          if period.subscriptionId = subscriptionId then some period.tile else none
          else store.tiles subscriptionId periodId) = store.tiles subscriptionId := by
        funext periodId
        split
        · rename_i hid
          subst hid
          simp [Store.tiles, hfree]
        · rfl
      rw [hsame]
      exact h.tiling subscriptionId
  · rw [Store.getPeriod_put] at hother
    split at hother
    · obtain rfl := Option.some.inj hother
      exact ⟨subscription, plan, hsubscription, hplan, hcurrency, hamount⟩
    · exact h.priced periodId other hother

/-- An update leaves the tiles where they are. -/
theorem Tiled.revised {writes : List Write} (h : Tiled store)
    (hrevises : ∀ write ∈ writes, write.revises = true)
    (happly : applyAll store writes = .ok store') : Tiled store' := by
  have hlasting := applyAll_lasting h.keyed happly
  have hsame : ∀ subscriptionId, store'.tiles subscriptionId = store.tiles subscriptionId := by
    intro subscriptionId
    funext periodId
    refine Option.ext fun tile => ?_
    simp only [Store.tiles_eq_some]
    constructor
    · rintro ⟨period', hperiod', rfl, rfl⟩
      obtain ⟨period, hperiod, hbilled⟩ := applyAll_revised h.keyed hrevises happly hperiod'
      obtain ⟨howner, htile, -, -⟩ := of_billed hbilled
      exact ⟨period, hperiod, howner.symm, htile.symm⟩
    · rintro ⟨period, hperiod, rfl, rfl⟩
      obtain ⟨period', hperiod', hbilled⟩ := hlasting.periods periodId period hperiod
      obtain ⟨howner, htile, -, -⟩ := of_billed hbilled
      exact ⟨period', hperiod', howner, htile⟩
  refine ⟨applyAll_keyed h.keyed happly, hlasting.plans ▸ h.plans,
    fun subscriptionId => hsame subscriptionId ▸ h.tiling subscriptionId,
    fun periodId period' hperiod' => ?_⟩
  obtain ⟨period, hperiod, hbilled⟩ := applyAll_revised h.keyed hrevises happly hperiod'
  obtain ⟨subscription, plan, hsubscription, hplan, hcurrency, hamount⟩ :=
    h.priced periodId period hperiod
  obtain ⟨subscription', hsubscription', hsold⟩ :=
    hlasting.subscriptions period.subscriptionId subscription hsubscription
  obtain ⟨howner, -, hcurrency', hamount'⟩ := of_billed hbilled
  refine ⟨subscription', plan, howner ▸ hsubscription', ?_, hcurrency'.trans hcurrency,
    hamount'.trans hamount⟩
  rw [hsold, Store.getPlan, hlasting.plans]
  exact hplan

end Tiles

/-! ### Runs -/

/-- What a read shows keeps holding of the columns it showed. -/
def Query.shows (store : Store) : (query : Query) → query.Answer → Prop
  | .getPlan planId, found => ∀ plan, found = some plan → store.getPlan planId = some plan
  | .listSubscriptionsByStatus _, rows =>
      ∀ row : Subscription, List.Mem row rows →
        ∃ row', store.getSubscription row.subscriptionId = some row' ∧ row'.planId = row.planId
  | .latestPeriod subscriptionId, found =>
      ∀ latest : SubscriptionPeriod, found = some latest →
        latest.subscriptionId = subscriptionId ∧ ∃ period,
          store.getPeriod latest.periodId = some period ∧ period.billed = latest.billed
  | _, _ => True

theorem Query.shows_later {store store' : Store} (h : Lasting store store') {query : Query}
    {answer : query.Answer} (hshows : query.shows store answer) : query.shows store' answer := by
  cases query with
  | getPlan planId =>
      intro plan hplan
      rw [Store.getPlan, h.plans]
      exact hshows plan hplan
  | listSubscriptionsByStatus statuses =>
      intro row hrow
      obtain ⟨middle, hmiddle, hplan⟩ := hshows row hrow
      obtain ⟨row', hrow', hplan'⟩ := h.subscriptions _ middle hmiddle
      exact ⟨row', hrow', hplan'.trans hplan⟩
  | latestPeriod subscriptionId =>
      intro latest hlatest
      obtain ⟨howner, middle, hmiddle, hbilled⟩ := hshows latest hlatest
      obtain ⟨period, hperiod, hbilled'⟩ := h.periods _ middle hmiddle
      exact ⟨howner, period, hperiod, hbilled'.trans hbilled⟩
  | getSubscription subscriptionId => trivial
  | listSubscriptionsForOwner ownerType ownerId => trivial
  | getPeriod periodId => trivial
  | findPeriodCovering subscriptionId instant => trivial

theorem Query.eval_shows {store : Store} (hkeyed : store.Keyed) (query : Query) :
    query.shows store (query.eval store) := by
  cases query with
  | getPlan planId => exact fun plan hplan => hplan
  | listSubscriptionsByStatus statuses =>
      intro row hrow
      have hlisted : row ∈ store.listSubscriptionsByStatus statuses := hrow
      rw [Store.listSubscriptionsByStatus, mem_orderedBy, List.mem_filter] at hlisted
      obtain ⟨key, hstored⟩ := Table.mem_values.mp hlisted.1
      have hown := hkeyed.subscriptions key row hstored
      exact ⟨row, hown ▸ hstored, rfl⟩
  | latestPeriod subscriptionId =>
      intro latest hlatest
      have hmember := List.mem_of_mem_head? hlatest
      rw [mem_orderedBy, Store.periodsOf, List.mem_filter] at hmember
      obtain ⟨key, hstored⟩ := Table.mem_values.mp hmember.1
      have hown := hkeyed.periods key latest hstored
      exact ⟨by simpa using hmember.2, latest, hown ▸ hstored, rfl⟩
  | getSubscription subscriptionId => trivial
  | listSubscriptionsForOwner ownerType ownerId => trivial
  | getPeriod periodId => trivial
  | findPeriodCovering subscriptionId instant => trivial

/-- The contract of a store whose periods tile time. -/
def tilingContract : Contract Books Action Action.Answer where
  toDiscipline := opening
  inv books := Tiled books.store
  guar books books' := Lasting books.store books'.store
  guar_refl books := .refl books.store
  guar_trans h h' := h.trans h'
  known action answer books :=
    match action, answer with
    | .read query, .ok value => query.shows books.store value
    | _, _ => True
  known_stable := by
    intro action answer books books' hlasting hknown
    cases action with
    | core own => trivial
    | commit uow writes => trivial
    | read query =>
        cases answer with
        | error error => trivial
        | ok value => exact query.shows_later hlasting hknown

/-- A new subscription has no periods yet. -/
theorem Tiled.subscribed {store store' : Store} {subscription : Subscription} (h : Tiled store)
    (hinsert : (Write.insertSubscription subscription).apply store = .ok store') :
    Tiled store' ∧ store'.plans = store.plans ∧
      store'.getSubscription subscription.subscriptionId = some subscription := by
  have hwrote := apply_wrote h.keyed hinsert
  have hkeyed := hwrote.keyed h.keyed
  have hlasting := hwrote.lasting
  cases hwrote with
  | insertedSubscription subscription hnew =>
      refine ⟨⟨hkeyed, h.plans, h.tiling, fun periodId period hperiod => ?_⟩, rfl, ?_⟩
      · obtain ⟨sold, plan, hsold, hplan, hprice⟩ := h.priced periodId period hperiod
        obtain ⟨sold', hsold', hsame⟩ := hlasting.subscriptions _ sold hsold
        exact ⟨sold', plan, hsold', by rw [hsame]; exact hplan, hprice⟩
      · rw [Store.getSubscription_put, if_pos rfl]

/-- A commit of what a call was shown keeps the periods tiling. -/
theorem Tiled.commit {seen : Seen} {writes : List Write} {books books' : Books} {uow : Work}
    (h : Tiled books.store)
    (hseen : ∀ entry ∈ seen, tilingContract.known entry.1 entry.2 books)
    (hopens : Opens seen writes) (hcommit : books.commit uow writes = .ok books') :
    Tiled books'.store := by
  obtain ⟨-, happly, -⟩ := commit_ok hcommit
  cases hopens with
  | created subscription plan period planId startsAt hplan hsold hbilled =>
      obtain ⟨middle, hfirst, hrest⟩ := applyAll_cons happly
      obtain ⟨last, hsecond, hnil⟩ := applyAll_cons hrest
      obtain rfl := Except.ok.inj hnil
      have hstored : books.store.getPlan planId = some plan := hseen _ hplan plan rfl
      have hown : plan.planId = planId := h.plans planId plan hstored
      obtain ⟨hmiddle, hplans, hsubscription⟩ := h.subscribed hfirst
      have hpriced : middle.getPlan subscription.planId = some plan := by
        rw [hsold, hown, Store.getPlan, hplans]
        exact hstored
      exact hmiddle.inserted hsecond (hbilled.owner ▸ hsubscription) hpriced hbilled.currency
        hbilled.amount (.inl hbilled.sequence)
  | renewed subscription latest plan next statuses candidates hcandidates hcandidate hlatest hplan
      hbilled =>
      obtain ⟨last, hinsert, hnil⟩ := applyAll_cons happly
      obtain rfl := Except.ok.inj hnil
      obtain ⟨row, hrow, hsold⟩ := hseen _ hcandidates subscription hcandidate
      obtain ⟨howner, stored, hstored, hsame⟩ := hseen _ hlatest latest rfl
      have hpriced : books.store.getPlan subscription.planId = some plan :=
        hseen _ hplan plan rfl
      obtain ⟨howner', htile, -, -⟩ := of_billed hsame
      obtain ⟨hsequence, -, hends⟩ := Tile.mk.inj htile
      refine h.inserted hinsert (hbilled.owner ▸ hrow) (hsold ▸ hpriced) hbilled.currency
        hbilled.amount (.inr ⟨latest.periodId, stored, hstored, ?_, ?_, ?_⟩)
      · rw [howner', howner, hbilled.owner]
      · rw [hbilled.sequence, hsequence]
      · rw [hbilled.starts, hends]
  | revised writes hrevises => exact h.revised hrevises happly

theorem tilingContract_upheld : Upheld tilingContract billing requests anything where
  call := requests_opening
  act := by
    intro seen action choice answer books books' hinv hseen howed _ hperform
    refine ⟨trivial, ?_⟩
    rcases perform_cases hperform with rfl | ⟨own, core, answer', rfl, -, rfl⟩ |
      ⟨uow, writes, rfl, hcommit⟩
    · refine ⟨hinv, .refl _, ?_⟩
      cases action with
      | core own => trivial
      | commit uow writes => trivial
      | read query =>
          cases choice with
          | proceed =>
              obtain ⟨rfl, -⟩ := Prod.mk.inj (Option.some.inj hperform)
              exact query.eval_shows hinv.keyed
          | failing message =>
              obtain ⟨rfl, -⟩ := Prod.mk.inj (Option.some.inj hperform)
              trivial
          | drawn id => cases hperform
          | elapsed milliseconds => cases hperform
    · exact ⟨hinv, .refl _, trivial⟩
    · have happly := (commit_ok hcommit).2.1
      exact ⟨hinv.commit hseen howed hcommit, applyAll_lasting hinv.keyed happly, trivial⟩
  tick := by
    rintro choice books books' hinv htick
    obtain ⟨core, -, rfl⟩ := tick_ok htick
    exact ⟨hinv, .refl _⟩

/-- The plans an operator has configured. -/
def priceList (plans : List Plan) : Table Plan := Table.empty.putRows Plan.planId plans

theorem Tiled.opened (now : Int) (plans : List Plan) (grants : Table PlanGrant) :
    Tiled (Books.opened now (priceList plans) grants).store where
  keyed := Store.keyed_offering _ grants
  plans := by
    have hempty : (Table.empty : Table Plan).KeyedBy Plan.planId := by rintro key row ⟨⟩
    exact hempty.putRows plans
  tiling _ := .empty
  priced := by rintro periodId period ⟨⟩

/-- The periods of one subscription, laid end to end and billed as it was sold. -/
structure Tiles (plans : Table Plan) (store : Store) (subscriptionId : String) : Prop where
  numbered : ∃ n : Nat, ∀ k : Int,
    (∃ period ∈ store.periodsOf subscriptionId, period.sequence = k) ↔ 1 ≤ k ∧ k ≤ n
  single : ∀ period ∈ store.periodsOf subscriptionId, ∀ other ∈ store.periodsOf subscriptionId,
    period.sequence = other.sequence → period = other
  joined : ∀ period ∈ store.periodsOf subscriptionId, ∀ next ∈ store.periodsOf subscriptionId,
    next.sequence = period.sequence + 1 → next.startsAt = period.endsAt
  disjoint : ∀ period ∈ store.periodsOf subscriptionId,
    ∀ other ∈ store.periodsOf subscriptionId, period ≠ other →
      ∀ instant, ¬(periodCovers period instant = true ∧ periodCovers other instant = true)
  billed : ∀ period ∈ store.periodsOf subscriptionId, ∃ subscription plan,
    store.getSubscription subscriptionId = some subscription ∧
      plans.get subscription.planId = some plan ∧ period.currency = plan.currency ∧
      period.amountMinor = plan.amountMinor
  boundary : ∀ period ∈ store.periodsOf subscriptionId,
    ∀ other ∈ store.periodsOf subscriptionId, period.startsAt = other.startsAt → period = other

section Reading

variable {store : Store}

theorem mem_periodsOf (hkeyed : store.Keyed) {subscriptionId : String}
    {period : SubscriptionPeriod} :
    period ∈ store.periodsOf subscriptionId ↔
      store.getPeriod period.periodId = some period ∧ period.subscriptionId = subscriptionId := by
  rw [Store.periodsOf, List.mem_filter, Table.mem_values]
  simp only [decide_eq_true_eq]
  refine and_congr_left fun _ => ⟨?_, fun h => ⟨period.periodId, h⟩⟩
  rintro ⟨key, hstored⟩
  have hown := hkeyed.periods key period hstored
  exact hown ▸ hstored

/-- A stored period is a tile under its own identifier. -/
theorem tile_of_mem (hkeyed : store.Keyed) {subscriptionId : String} {period : SubscriptionPeriod}
    (h : period ∈ store.periodsOf subscriptionId) :
    store.tiles subscriptionId period.periodId = some period.tile := by
  obtain ⟨hstored, howner⟩ := (mem_periodsOf hkeyed).mp h
  exact Store.tiles_eq_some.mpr ⟨period, hstored, howner, rfl⟩

theorem eq_of_periodId (hkeyed : store.Keyed) {subscriptionId : String}
    {period other : SubscriptionPeriod} (h : period ∈ store.periodsOf subscriptionId)
    (hother : other ∈ store.periodsOf subscriptionId) (hid : period.periodId = other.periodId) :
    period = other := by
  have hstored := ((mem_periodsOf hkeyed).mp h).1
  rw [hid, ((mem_periodsOf hkeyed).mp hother).1] at hstored
  exact (Option.some.inj hstored).symm

/-- The numbers of the stored periods are bounded. -/
theorem sequence_bounded (store : Store) (subscriptionId : String) :
    ∃ bound : Int, ∀ period ∈ store.periodsOf subscriptionId, period.sequence ≤ bound := by
  induction store.periodsOf subscriptionId with
  | nil => exact ⟨0, by simp⟩
  | cons first rest ih =>
      obtain ⟨bound, hbound⟩ := ih
      refine ⟨max first.sequence bound, List.forall_mem_cons.mpr ⟨Int.le_max_left _ _, ?_⟩⟩
      exact fun period hperiod => le_trans (hbound period hperiod) (Int.le_max_right _ _)

theorem Tiled.tiles (h : Tiled store) (subscriptionId : String) :
    Tiles store.plans store subscriptionId where
  numbered := by
    obtain ⟨bound, hbound⟩ := sequence_bounded store subscriptionId
    have hmem : ∀ periodId tile, store.tiles subscriptionId periodId = some tile →
        ∃ period ∈ store.periodsOf subscriptionId, period.tile = tile := by
      intro periodId tile htile
      obtain ⟨period, hstored, howner, hsame⟩ := Store.tiles_eq_some.mp htile
      have hown := h.keyed.periods periodId period hstored
      exact ⟨period, (mem_periodsOf h.keyed).mpr ⟨hown ▸ hstored, howner⟩, hsame⟩
    have hmost : ∀ periodId tile, store.tiles subscriptionId periodId = some tile →
        tile.number ≤ bound := by
      intro periodId tile htile
      obtain ⟨period, hperiod, rfl⟩ := hmem periodId tile htile
      exact hbound period hperiod
    obtain ⟨n, hn⟩ := (h.tiling subscriptionId).numbered hmost
    refine ⟨n, fun k => (Iff.trans ?_ (hn k))⟩
    constructor
    · rintro ⟨period, hperiod, hsequence⟩
      exact ⟨period.periodId, period.tile, tile_of_mem h.keyed hperiod, hsequence⟩
    · rintro ⟨periodId, tile, htile, hnumber⟩
      obtain ⟨period, hperiod, rfl⟩ := hmem periodId tile htile
      exact ⟨period, hperiod, hnumber⟩
  single period hperiod other hother hsequence :=
    eq_of_periodId h.keyed hperiod hother ((h.tiling subscriptionId).single _ _ _ _
      (tile_of_mem h.keyed hperiod) (tile_of_mem h.keyed hother) hsequence)
  joined period hperiod next hnext hsequence :=
    (h.tiling subscriptionId).start_eq_finish (tile_of_mem h.keyed hnext)
      (tile_of_mem h.keyed hperiod) hsequence
  disjoint := by
    rintro period hperiod other hother hne instant ⟨hcovers, hcovers'⟩
    simp only [periodCovers, Bool.and_eq_true, decide_eq_true_eq] at hcovers hcovers'
    have hids : period.periodId ≠ other.periodId :=
      fun hid => hne (eq_of_periodId h.keyed hperiod hother hid)
    have happart := (h.tiling subscriptionId).disjoint (tile_of_mem h.keyed hperiod)
      (tile_of_mem h.keyed hother) hids
    simp only [SubscriptionPeriod.tile] at happart
    omega
  billed period hperiod := by
    obtain ⟨hstored, rfl⟩ := (mem_periodsOf h.keyed).mp hperiod
    exact h.priced period.periodId period hstored
  boundary period hperiod other hother hstart :=
    eq_of_periodId h.keyed hperiod hother ((h.tiling subscriptionId).start_unique
      (tile_of_mem h.keyed hperiod) (tile_of_mem h.keyed hother) hstart)

end Reading

/-- In every run the periods of every subscription tile time. -/
theorem run_tiled {now : Int} {plans : List Plan} {grants : Table PlanGrant}
    {world : World Books Action Action.Answer Thrown Unit}
    (hrun : Run billing requests anything
      (World.initial (Books.opened now (priceList plans) grants)) world)
    (subscriptionId : String) : Tiles (priceList plans) world.store.store subscriptionId := by
  obtain ⟨hkept, hlasting⟩ :=
    tilingContract_upheld.run (Kept.initial (Tiled.opened now plans grants)) hrun
  have htiles := Tiled.tiles hkept.inv subscriptionId
  have hplans : world.store.store.plans = priceList plans := hlasting.plans
  rwa [hplans] at htiles

/-- The first period has ended, and two sweeps were shown it. -/
def sweptTwice : Schedule :=
  walletFunded ++ subscribed ++ [.tick (.elapsed 3456000000)] ++
  .start Request.renewDuePeriods.call :: acts 3 [.proceed, .proceed, .proceed, .proceed,
    .drawn (idOf '6'), .proceed] ++
  .start Request.renewDuePeriods.call :: acts 4 [.proceed, .proceed, .proceed, .proceed,
    .drawn (idOf '7'), .proceed] ++
  committed 3 ++ committed 4

set_option maxRecDepth 20000 in
/-- One of two sweeps at the same boundary opens the second period. -/
theorem run_tiled_sweptTwice :
    ∃ world, play billing unrestricted sweptTwice
        (World.initial (Books.opened 0 (priceList [monthly]) Table.empty)) = some world ∧
      (world.store.store.listPeriods (idOf '4')).map SubscriptionPeriod.periodId =
        [idOf '5', idOf '6'] ∧
      Tiles (priceList [monthly]) world.store.store (idOf '4') := by
  have hplays : (play billing unrestricted sweptTwice
      (World.initial (Books.opened 0 (priceList [monthly]) Table.empty))).any (fun world =>
        (world.store.store.listPeriods (idOf '4')).map SubscriptionPeriod.periodId =
          [idOf '5', idOf '6']) = true := by
    decide +kernel
  obtain ⟨world, hworld, hperiods⟩ := (Option.any_eq_true _ _).mp hplays
  refine ⟨world, hworld, of_decide_eq_true hperiods, ?_⟩
  refine run_tiled (unrestricted_run hworld ?_) (idOf '4')
  simp [sweptTwice, walletFunded, subscribed, committed, acts, request_call]

end WaslaCore.Billing
