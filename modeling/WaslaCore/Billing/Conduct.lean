import WaslaCore.Billing.Effects
import WaslaCore.Money.Reconciliation

/-!
What a subscription call may commit, whatever the stores answer. The money calls
it makes capture nothing and announce nothing about subscriptions, except the one
capture that is enlisted in the settlement of the period its hold belongs to.
-/

namespace WaslaCore.Billing

open Data Platform Interleaving

/-! ### The money calls -/

/-- The facts about subscriptions and periods that are told once. -/
def subscriptionFacts : List String :=
  ["core.subscription.period_settled", "core.subscription.past_due",
    "core.subscription.cancelled", "core.subscription.expired"]

/-- The unit of work tells none of them. -/
def Unannounced (uow : Work) : Prop := ∀ event ∈ uow.events, event.eventType ∉ subscriptionFacts

/-- The captures a unit of work would post. -/
def captures (uow : Work) : List Money.LedgerTransaction :=
  uow.writes.filterMap fun write =>
    match write with
    | .money (.insertTransaction moved) => if moved.kind = .capture then some moved else none
    | _ => none

/-- A money commit outside a settlement. -/
structure Plain (uow : Work) : Prop where
  unannounced : Unannounced uow
  captureless : captures uow = []

/-- What a settlement enlists: at most captures of the one hold, unkeyed. -/
structure Captures (uow : Work) (authorizationId : String) : Prop where
  unannounced : Unannounced uow
  own : ∀ moved ∈ captures uow, moved.authorizationId = some authorizationId

/-- The call was shown the hold under the reference, or inserted it. -/
def HeldIn (seen : WaslaCore.Seen) (reference authorizationId : String) : Prop :=
  ∃ row : Money.PaymentAuthorization, row.authorizationId = authorizationId ∧
    (⟨.read (.findAuthorizationByReference reference), .ok (some row)⟩ ∈ seen ∨
      row.businessReference = reference ∧
        ⟨.commit (Money.stageAuthorize UnitOfWork.empty row), .ok ()⟩ ∈ seen)

/-- A money call outside a settlement commits plainly, and a hold is shown under
the identifier it was asked for by. -/
def plainly : Discipline WaslaCore.Action WaslaCore.Action.Answer where
  told action answer :=
    match action, answer with
    | .read (.getAuthorization authorizationId), .ok (some row) =>
        Money.PaymentAuthorization.authorizationId row = authorizationId
    | _, _ => True
  owed _ action :=
    match action with
    | .commit uow => Plain uow
    | _ => True

section Plainly

variable {β γ : Type} {seen : WaslaCore.Seen} {post : WaslaCore.Seen → Except Thrown γ → Prop}

theorem plain_settled_bind {result : Except Thrown β} {next : β → WaslaCore.Call γ}
    (hok : ∀ value, result = .ok value → Keeps plainly post (next value) seen)
    (herror : ∀ error, post seen (.error error)) :
    Keeps plainly post (WaslaCore.settled result >>= next) seen := by
  cases result with
  | ok value => exact hok value rfl
  | error error => exact herror error

theorem plain_checked_bind {result : Except String β} {next : β → WaslaCore.Call γ}
    (hok : ∀ value, Keeps plainly post (next value) seen)
    (herror : ∀ error, post seen (.error error)) :
    Keeps plainly post (Money.checked result >>= next) seen := by
  cases result with
  | ok value => exact hok value
  | error message => exact herror _

theorem plain_read_bind {query : WaslaCore.Query} {next : query.Answer → WaslaCore.Call γ}
    (hok : ∀ value, plainly.told (.read query) (.ok value) →
      Keeps plainly post (next value) (seen ++ [⟨.read query, .ok value⟩]))
    (herror : ∀ error, post (seen ++ [⟨.read query, .error error⟩]) (.error error)) :
    Keeps plainly post (WaslaCore.read query >>= next) seen := by
  refine ⟨trivial, fun answer htold => ?_⟩
  cases answer with
  | ok value => exact hok value htold
  | error error => exact herror error

theorem plain_clock_bind {next : Int → WaslaCore.Call γ}
    (h : ∀ instant, Keeps plainly post (next instant) (seen ++ [⟨.clock, instant⟩])) :
    Keeps plainly post (WaslaCore.clock >>= next) seen :=
  ⟨trivial, fun instant _ => h instant⟩

theorem plain_newId_bind {next : String → WaslaCore.Call γ}
    (h : ∀ id, Keeps plainly post (next id) (seen ++ [⟨.newId, id⟩])) :
    Keeps plainly post (WaslaCore.newId >>= next) seen :=
  ⟨trivial, fun id _ => h id⟩

/-- One unit of work, decided already, and what follows its commit. -/
theorem plain_commit_bind {uow : Work} {next : WaslaCore.Call γ} (hplain : Plain uow)
    (hok : Keeps plainly post next (seen ++ [⟨.commit uow, .ok ()⟩]))
    (herror : ∀ error, post (seen ++ [⟨.commit uow, .error error⟩]) (.error error)) :
    Keeps plainly post
      (WaslaCore.withTransaction (fun _ => pure (uow, ())) >>= fun _ => next) seen := by
  refine ⟨hplain, fun answer _ => ?_⟩
  cases answer with
  | ok value => exact hok
  | error error => exact herror error

end Plainly

/-! ### What the money calls commit -/

section MoneyCalls

variable {seen : WaslaCore.Seen}

/-- A transaction the service builds is of the kind and on the hold it was asked for. -/
theorem transaction_plain (kind : Money.LedgerKind)
    (reference currency creditAccount debitAccount : String) (amount : Int)
    (authorizationId : Option String) :
    Keeps plainly (fun _ result => ∀ moved, result = .ok moved →
        moved.kind = kind ∧ moved.authorizationId = authorizationId)
      (Money.transaction kind reference currency creditAccount debitAccount amount authorizationId)
      seen := by
  unfold Money.transaction
  refine plain_newId_bind fun transactionId => ?_
  refine plain_checked_bind (fun _ => ?_) (fun _ => by rintro moved ⟨⟩)
  refine plain_clock_bind fun occurredAt => ?_
  rintro moved ⟨rfl⟩
  exact ⟨rfl, rfl⟩

theorem requireWallet_plain (walletId : String) :
    Keeps plainly (fun _ _ => True) (Money.requireWallet walletId) seen := by
  unfold Money.requireWallet
  refine plain_settled_bind (fun _ _ => ?_) (fun _ => trivial)
  refine plain_read_bind (fun (found : Option Money.Wallet) _ => ?_) (fun _ => trivial)
  cases found <;> trivial

theorem balance_plain (walletId : String) :
    Keeps plainly (fun _ _ => True) (Money.balance walletId) seen := by
  unfold Money.balance
  refine (requireWallet_plain walletId).bind (fun _ _ _ => ?_) (fun _ _ _ => trivial)
  refine plain_read_bind (fun _ _ => ?_) (fun _ => trivial)
  refine plain_read_bind (fun _ _ => ?_) (fun _ => trivial)
  exact plain_clock_bind fun _ => trivial

theorem getWallet_plain (walletId : String) :
    Keeps plainly (fun _ _ => True) (Money.getWallet walletId) seen := by
  unfold Money.getWallet
  exact ⟨trivial, fun answer _ => by cases answer <;> trivial⟩

theorem createWallet_plain (input : Money.CreateWalletInput) :
    Keeps plainly (fun _ _ => True) (Money.createWallet input) seen := by
  unfold Money.createWallet
  refine plain_settled_bind (fun _ _ => ?_) (fun _ => trivial)
  split
  · trivial
  refine plain_read_bind (fun (found : Option Money.Wallet) _ => ?_) (fun _ => trivial)
  cases found with
  | some wallet => trivial
  | none =>
      refine plain_newId_bind fun walletId => plain_clock_bind fun createdAt => ?_
      refine plain_commit_bind ⟨?_, rfl⟩ trivial (fun _ => trivial)
      simp [Unannounced, subscriptionFacts, Money.stageWallet, UnitOfWork.empty]

theorem credit_plain (input : Money.CreditInput) :
    Keeps plainly (fun _ _ => True) (Money.credit input) seen := by
  unfold Money.credit
  refine (requireWallet_plain input.walletId).bind (fun _ wallet _ => ?_) (fun _ _ _ => trivial)
  refine plain_settled_bind (fun _ _ => ?_) (fun _ => trivial)
  refine plain_read_bind (fun (found : Option Money.LedgerTransaction) _ => ?_) (fun _ => trivial)
  cases found with
  | some existing => trivial
  | none =>
      refine (transaction_plain _ _ _ _ _ _ _).bind ?_ (fun _ _ _ => trivial)
      intro later moved hmoved
      refine plain_commit_bind ⟨?_, ?_⟩ trivial (fun _ => trivial)
      · simp [Unannounced, subscriptionFacts, Money.stageCredit, UnitOfWork.empty]
      · simp [captures, Money.stageCredit, UnitOfWork.empty, (hmoved moved rfl).1]

/-- A hold that `authorize` answers with is the one under the reference. -/
theorem authorize_plain (input : Money.AuthorizeInput) :
    Keeps plainly (fun later result => ∀ row, result = .ok row →
        HeldIn later input.businessReference row.authorizationId)
      (Money.authorize input) seen := by
  unfold Money.authorize
  refine (requireWallet_plain input.walletId).bind (fun start wallet _ => ?_)
    (fun _ _ _ => by rintro row ⟨⟩)
  refine plain_settled_bind (fun _ _ => ?_) (fun _ => by rintro row ⟨⟩)
  refine plain_read_bind (fun (found : Option Money.PaymentAuthorization) _ => ?_)
    (fun _ => by rintro row ⟨⟩)
  cases found with
  | some existing =>
      rintro row ⟨rfl⟩
      exact ⟨existing, rfl, .inl (by simp)⟩
  | none =>
      dsimp only
      split
      · rintro row ⟨⟩
      refine (balance_plain wallet.walletId).bind (fun afterBalance current _ => ?_)
        (fun _ _ _ => by rintro row ⟨⟩)
      split
      · rintro row ⟨⟩
      refine plain_newId_bind fun authorizationId => plain_clock_bind fun createdAt =>
        plain_clock_bind fun now => ?_
      refine plain_settled_bind (fun expiresAt _ => ?_) (fun _ => by rintro row ⟨⟩)
      refine plain_commit_bind ⟨?_, rfl⟩ ?_ (fun _ => by rintro row ⟨⟩)
      · simp [Unannounced, subscriptionFacts, Money.stageAuthorize, UnitOfWork.empty]
      · rintro row ⟨rfl⟩
        exact ⟨_, rfl, .inr ⟨rfl, List.mem_append_right _ (List.mem_singleton_self _)⟩⟩

theorem expireEach_plain (rows : List Money.PaymentAuthorization) :
    Keeps plainly (fun _ _ => True) (Money.expireEach rows) seen := by
  induction rows generalizing seen with
  | nil => trivial
  | cons row rest ih =>
      unfold Money.expireEach
      refine Keeps.bind (p := fun _ _ => True) ?_ (fun _ _ _ => ?_) (fun _ _ _ => trivial)
      · unfold WaslaCore.withTransaction Money.applyVoidWithin
        refine plain_clock_bind fun voidedAt => plain_clock_bind fun closedAt => ?_
        refine ⟨⟨?_, rfl⟩, fun answer _ => by cases answer <;> trivial⟩
        simp [Unannounced, subscriptionFacts, Money.stageVoid, UnitOfWork.empty]
      · exact ih.bind (fun _ _ _ => trivial) (fun _ _ _ => trivial)

theorem expireDueAuthorizations_plain :
    Keeps plainly (fun _ _ => True) Money.expireDueAuthorizations seen := by
  unfold Money.expireDueAuthorizations
  refine plain_read_bind (fun rows _ => ?_) (fun _ => trivial)
  exact plain_clock_bind fun now => expireEach_plain _

/-- A capture enlisted in a settlement is of the hold it names. -/
theorem captureWithin_plain (authorizationId : String) :
    Keeps plainly (fun _ result => ∀ uow moved, result = .ok (uow, moved) →
        Captures uow authorizationId)
      (Money.captureWithin UnitOfWork.empty ⟨authorizationId, none, none⟩) seen := by
  unfold Money.captureWithin
  refine Keeps.bind (p := fun _ result => ∀ uow captured, result = .ok (uow, captured) →
    Captures uow authorizationId) ?_ ?_ (fun _ _ _ => by rintro uow moved ⟨⟩)
  · unfold Money.applyCaptureWithin
    refine plain_settled_bind (fun _ _ => ?_) (fun _ => by rintro uow captured ⟨⟩)
    refine plain_read_bind (fun (found : Option Money.PaymentAuthorization) hshown => ?_)
      (fun _ => by rintro uow captured ⟨⟩)
    cases found with
    | none => rintro uow captured ⟨⟩
    | some row =>
        have hid : row.authorizationId = authorizationId := hshown
        refine plain_read_bind (fun (existing : Option Money.LedgerTransaction) _ => ?_)
          (fun _ => by rintro uow captured ⟨⟩)
        cases existing with
        | some transaction =>
            rintro uow captured ⟨rfl⟩
            exact ⟨by simp [Unannounced, subscriptionFacts, UnitOfWork.empty], by simp [captures, UnitOfWork.empty]⟩
        | none =>
            refine plain_clock_bind fun now => ?_
            refine plain_settled_bind (fun requested _ => ?_) (fun _ => by rintro uow captured ⟨⟩)
            refine (requireWallet_plain row.walletId).bind (fun _ wallet _ => ?_)
              (fun _ _ _ => by rintro uow captured ⟨⟩)
            refine (transaction_plain _ _ _ _ _ _ _).bind ?_
              (fun _ _ _ => by rintro uow captured ⟨⟩)
            intro later moved hmoved
            refine plain_clock_bind fun closedAt => ?_
            rintro uow captured ⟨rfl⟩
            obtain ⟨hkind, hhold⟩ := hmoved moved rfl
            refine ⟨by simp [Unannounced, subscriptionFacts, Money.stageCapture, UnitOfWork.empty], ?_⟩
            intro other hother
            have : other = moved := by
              simpa [captures, Money.stageCapture, UnitOfWork.empty, hkind] using hother
            rw [this, hhold, hid]
  · rintro later ⟨uow, captured⟩ hcaptured
    rintro uow' moved ⟨rfl⟩
    exact hcaptured uow captured rfl

end MoneyCalls

/-! ### The subscription calls -/

/-- The call was shown the hold under the reference, or inserted it. -/
def Held (seen : Seen) (reference authorizationId : String) : Prop :=
  ∃ row : Money.PaymentAuthorization, row.authorizationId = authorizationId ∧
    (⟨.core (.read (.findAuthorizationByReference reference)), .ok (some row)⟩ ∈ seen ∨
      row.businessReference = reference ∧
        ⟨.core (.commit (Money.stageAuthorize UnitOfWork.empty row)), .ok ()⟩ ∈ seen)

theorem HeldIn.held {own : WaslaCore.Seen} {reference authorizationId : String}
    (h : HeldIn own reference authorizationId) (seen : Seen) :
    Held (seen ++ History.embed Action.core own) reference authorizationId := by
  obtain ⟨row, hid, hshown | ⟨hreference, hinserted⟩⟩ := h
  · exact ⟨row, hid, .inl (List.mem_append_right _ (History.mem_embed Action.core hshown))⟩
  · exact ⟨row, hid, .inr ⟨hreference, List.mem_append_right _ (History.mem_embed Action.core hinserted)⟩⟩

theorem Held.later {seen later : Seen} {reference authorizationId : String}
    (h : Held seen reference authorizationId) (hlater : seen <+: later) :
    Held later reference authorizationId := by
  obtain ⟨row, hid, hshown | ⟨hreference, hinserted⟩⟩ := h
  · exact ⟨row, hid, .inl (hlater.subset hshown)⟩
  · exact ⟨row, hid, .inr ⟨hreference, hlater.subset hinserted⟩⟩

/-- What a subscription call commits, one case for each operation. A settlement
enlists captures of the period's own hold only. -/
inductive Staged (seen : Seen) : Work → List Write → Prop where
  | created (subscription : Subscription) (plan : Plan) (period : SubscriptionPeriod)
      (hactive : subscription.status = .active) (hpending : period.status = .pending) :
      Staged seen (createdWork subscription plan period)
        [.insertSubscription subscription, .insertPeriod period]
  | renewed (subscription : Subscription) (next : SubscriptionPeriod)
      (hpending : next.status = .pending) :
      Staged seen (renewedWork subscription next) [.insertPeriod next]
  | settledFree (subscription : Subscription) (period : SubscriptionPeriod) (now : Int) :
      Staged seen (settleWork UnitOfWork.empty subscription (settledRow period none now))
        (.updatePeriod (settledRow period none now) :: revival subscription)
  | settled (subscription : Subscription) (period : SubscriptionPeriod) (authorizationId : String)
      (now : Int) (uow : Work) (hcaptures : Captures uow authorizationId)
      (hheld : Held seen (periodChargeReference period.periodId) authorizationId) :
      Staged seen (settleWork uow subscription (settledRow period (some authorizationId) now))
        (.updatePeriod (settledRow period (some authorizationId) now) :: revival subscription)
  | uncollectible (subscription : Subscription) (period : SubscriptionPeriod) (reason : String) :
      Staged seen (uncollectibleWork subscription (uncollectibleRow period reason) reason)
        (.updatePeriod (uncollectibleRow period reason) :: lapse subscription)
  | cancelled (subscription : Subscription) (reason : String)
      (current : Option SubscriptionPeriod) (now : Int) :
      Staged seen
        (cancelledWork subscription (cancelledRow subscription reason current now) reason
          ((voidable current).map voidedRow))
        (.updateSubscription (cancelledRow subscription reason current now) ::
          (((voidable current).map voidedRow).map Write.updatePeriod).toList)
  | expired (subscription : Subscription) (now : Int) :
      Staged seen (expiredWork subscription (expiredRow subscription now))
        [.updateSubscription (expiredRow subscription now)]

/-- The money calls of a subscription call stay plain, and what it commits itself
is one of its own operations. -/
def bookkeeping : Discipline Action Action.Answer where
  told action answer :=
    match action, answer with
    | .core action, answer => plainly.told action answer
    | _, _ => True
  owed seen action :=
    match action with
    | .core action => plainly.owed [] action
    | .commit uow writes => Staged seen uow writes
    | _ => True

section Calls

variable {β γ : Type} {seen : Seen} {post : Seen → Except Thrown γ → Prop}

theorem lift_keeps {call : WaslaCore.Call β} {post : WaslaCore.Seen → Except Thrown β → Prop}
    (h : Keeps plainly post call []) :
    Keeps bookkeeping
      (fun later result => ∃ own, later = seen ++ History.embed Action.core own ∧ post own result)
      (lift call) seen :=
  keeps_embed_start h (fun _ action howed => by cases action <;> exact howed)
    (fun _ _ htold => htold)

theorem keeps_settled_bind {result : Except Thrown β} {next : β → Call γ}
    (hok : ∀ value, result = .ok value → Keeps bookkeeping post (next value) seen)
    (herror : ∀ error, post seen (.error error)) :
    Keeps bookkeeping post (settled result >>= next) seen := by
  cases result with
  | ok value => exact hok value rfl
  | error error => exact herror error

theorem keeps_read_bind {query : Query} {next : query.Answer → Call γ}
    (hok : ∀ value, Keeps bookkeeping post (next value) (seen ++ [⟨.read query, .ok value⟩]))
    (herror : ∀ error, post (seen ++ [⟨.read query, .error error⟩]) (.error error)) :
    Keeps bookkeeping post (read query >>= next) seen := by
  refine ⟨trivial, fun answer _ => ?_⟩
  cases answer with
  | ok value => exact hok value
  | error error => exact herror error

theorem keeps_clock_bind {next : Int → Call γ}
    (h : ∀ instant, Keeps bookkeeping post (next instant)
      (seen ++ [⟨.core .clock, instant⟩])) : Keeps bookkeeping post (clock >>= next) seen :=
  ⟨trivial, fun instant _ => h instant⟩

theorem keeps_newId_bind {next : String → Call γ}
    (h : ∀ id, Keeps bookkeeping post (next id) (seen ++ [⟨.core .newId, id⟩])) :
    Keeps bookkeeping post (newId >>= next) seen :=
  ⟨trivial, fun id _ => h id⟩

theorem keeps_commit_bind {uow : Work} {writes : List Write} {next : Unit → Call γ}
    (howed : Staged seen uow writes)
    (hok : Keeps bookkeeping post (next ()) (seen ++ [⟨.commit uow writes, .ok ()⟩]))
    (herror : ∀ error, post (seen ++ [⟨.commit uow writes, .error error⟩]) (.error error)) :
    Keeps bookkeeping post (commit uow writes >>= next) seen := by
  refine ⟨howed, fun answer _ => ?_⟩
  cases answer with
  | ok value => exact hok
  | error error => exact herror error

end Calls

section Operations

-- a check is one step, whatever text it compares
attribute [local irreducible] trim

variable {seen : Seen}

theorem requirePlan_keeps (planId : String) :
    Keeps bookkeeping anyEnd (requirePlan planId) seen := by
  unfold requirePlan
  refine keeps_read_bind (fun (found : Option Plan) => ?_) (fun _ => trivial)
  cases found <;> trivial

theorem requireSubscription_keeps (subscriptionId : String) :
    Keeps bookkeeping anyEnd (requireSubscription subscriptionId) seen := by
  unfold requireSubscription
  refine keeps_read_bind (fun (found : Option Subscription) => ?_) (fun _ => trivial)
  cases found <;> trivial

theorem requirePeriod_keeps (periodId : String) :
    Keeps bookkeeping anyEnd (requirePeriod periodId) seen := by
  unfold requirePeriod
  refine keeps_read_bind (fun (found : Option SubscriptionPeriod) => ?_) (fun _ => trivial)
  cases found <;> trivial

/-- What a settlement enlists is captures of the hold it was given. -/
theorem captureFor_keeps (authorizationId : Option String) :
    Keeps bookkeeping (fun later result => seen <+: later ∧ ∀ uow, result = .ok uow →
        match authorizationId with
        | none => uow = UnitOfWork.empty
        | some own => Captures uow own)
      (captureFor authorizationId) seen := by
  cases authorizationId with
  | none => exact ⟨List.prefix_refl _, by rintro uow ⟨rfl⟩; rfl⟩
  | some own =>
      refine (lift_keeps (captureWithin_plain own)).bind ?_ ?_
      · rintro later ⟨uow, moved⟩ ⟨earlier, rfl, hcaptures⟩
        exact ⟨List.prefix_append _ _, by rintro uow' ⟨rfl⟩; exact hcaptures uow moved rfl⟩
      · rintro later error ⟨earlier, rfl, -⟩
        exact ⟨List.prefix_append _ _, by rintro uow ⟨⟩⟩

theorem settlePeriod_keeps (period : SubscriptionPeriod) (subscription : Subscription)
    (authorizationId : Option String)
    (hheld : ∀ own, authorizationId = some own →
      Held seen (periodChargeReference period.periodId) own) :
    Keeps bookkeeping anyEnd (settlePeriod period subscription authorizationId) seen := by
  unfold settlePeriod
  refine keeps_clock_bind fun now => ?_
  refine (captureFor_keeps authorizationId).bind ?_ (fun _ _ _ => trivial)
  rintro later uow ⟨hgrown, huow⟩
  have hbefore : seen <+: later := (List.prefix_append _ _).trans hgrown
  refine keeps_commit_bind ?_ trivial (fun _ => trivial)
  cases authorizationId with
  | none =>
      have hempty : uow = UnitOfWork.empty := huow uow rfl
      rw [hempty]
      exact .settledFree subscription period now
  | some own =>
      exact .settled subscription period own now uow (huow uow rfl)
        ((hheld own rfl).later hbefore)

theorem markUncollectible_keeps (period : SubscriptionPeriod) (subscription : Subscription)
    (reason : String) :
    Keeps bookkeeping anyEnd (markUncollectible period subscription reason) seen := by
  unfold markUncollectible
  refine keeps_clock_bind fun _ => ?_
  exact keeps_commit_bind (.uncollectible subscription period reason) trivial (fun _ => trivial)

/-- A hold a charge goes on with is the one under the period's own reference. -/
theorem authorizePeriod_keeps (period : SubscriptionPeriod) (subscription : Subscription) :
    Keeps bookkeeping (fun later result => ∀ own, result = .ok (.ok own) →
        Held later (periodChargeReference period.periodId) own)
      (authorizePeriod period subscription) seen := by
  unfold authorizePeriod
  refine Keeps.tryCatch (p := fun later result => ∀ own, result = .ok (.ok own) →
    Held later (periodChargeReference period.periodId) own) ?_ (fun _ _ h => h) ?_
  · refine (lift_keeps (authorize_plain _)).bind ?_ ?_
    · rintro later row ⟨earlier, rfl, hheld⟩
      rintro own ⟨rfl⟩
      exact (hheld row rfl).held seen
    · rintro later error - own ⟨⟩
  · intro later error _
    cases refusalAmong [.conflict, .notFound] error with
    | none => rintro own ⟨⟩
    | some reason => rintro own ⟨⟩

theorem chargePeriod_keeps (periodId : String) :
    Keeps bookkeeping anyEnd (chargePeriod periodId) seen := by
  unfold chargePeriod
  refine keeps_settled_bind (fun _ _ => ?_) (fun _ => trivial)
  refine (requirePeriod_keeps periodId).bind (fun _ period _ => ?_) (fun _ _ _ => trivial)
  split
  · trivial
  split
  · trivial
  refine (requireSubscription_keeps _).bind (fun _ subscription _ => ?_) (fun _ _ _ => trivial)
  split
  · exact settlePeriod_keeps period subscription none (by rintro own ⟨⟩)
  refine (authorizePeriod_keeps period subscription).bind ?_ (fun _ _ _ => trivial)
  intro later outcome hheld
  cases outcome with
  | error reason => exact markUncollectible_keeps period subscription reason
  | ok own =>
      refine (settlePeriod_keeps period subscription (some own) ?_).tryCatch
        (fun _ _ _ => trivial) ?_
      · rintro other ⟨rfl⟩
        exact hheld own rfl
      · intro later error _
        cases refusalAmong [.conflict] error with
        | none => trivial
        | some reason => exact markUncollectible_keeps period subscription reason

/-- A period starts pending. -/
theorem buildPeriod_keeps (subscription : Subscription) (plan : Plan) (sequence startsAt : Int) :
    Keeps bookkeeping (fun _ result => ∀ period, result = .ok period → period.status = .pending)
      (buildPeriod subscription plan sequence startsAt) seen := by
  unfold buildPeriod
  refine keeps_newId_bind fun periodId => ?_
  refine keeps_settled_bind (fun endsAt _ => ?_) (fun _ => by rintro period ⟨⟩)
  refine keeps_clock_bind fun createdAt => ?_
  rintro period ⟨rfl⟩
  rfl

theorem startOf_keeps (startsAt : StartsAt) :
    Keeps bookkeeping anyEnd (startOf startsAt) seen := by
  cases startsAt with
  | absent => exact ⟨trivial, fun _ _ => trivial⟩
  | «at» instant => trivial
  | malformed => trivial

theorem subscribe_keeps (input : SubscribeInput) :
    Keeps bookkeeping anyEnd (subscribe input) seen := by
  unfold subscribe
  refine keeps_settled_bind (fun _ _ => ?_) (fun _ => trivial)
  refine keeps_settled_bind (fun _ _ => ?_) (fun _ => trivial)
  refine keeps_settled_bind (fun _ _ => ?_) (fun _ => trivial)
  refine (requirePlan_keeps input.planId).bind (fun _ plan _ => ?_) (fun _ _ _ => trivial)
  split
  · trivial
  refine (lift_keeps (getWallet_plain input.walletId)).bind ?_ (fun _ _ _ => trivial)
  rintro later (found : Option Money.Wallet) -
  cases found with
  | none => trivial
  | some wallet =>
      dsimp only
      split
      · trivial
      split
      · trivial
      refine keeps_read_bind (fun (existing : List Subscription) => ?_) (fun _ => trivial)
      split
      · trivial
      refine (startOf_keeps input.startsAt).bind (fun _ startsAt _ => ?_) (fun _ _ _ => trivial)
      refine keeps_newId_bind fun subscriptionId => keeps_clock_bind fun createdAt => ?_
      refine (buildPeriod_keeps _ plan 1 startsAt).bind ?_ (fun _ _ _ => trivial)
      intro later period hpending
      refine keeps_commit_bind (.created _ plan period rfl (hpending period rfl)) ?_
        (fun _ => trivial)
      refine (chargePeriod_keeps period.periodId).bind (fun _ charge _ => ?_) (fun _ _ _ => trivial)
      exact keeps_read_bind (fun _ => trivial) (fun _ => trivial)

theorem cancelSubscription_keeps (subscriptionId reason : String) :
    Keeps bookkeeping anyEnd (cancelSubscription subscriptionId reason) seen := by
  unfold cancelSubscription
  refine keeps_settled_bind (fun _ _ => ?_) (fun _ => trivial)
  dsimp only
  split
  · trivial
  refine (requireSubscription_keeps _).bind (fun _ subscription _ => ?_) (fun _ _ _ => trivial)
  split
  · trivial
  split
  · trivial
  refine keeps_clock_bind fun now => ?_
  refine keeps_read_bind (fun (current : Option SubscriptionPeriod) => ?_) (fun _ => trivial)
  exact keeps_commit_bind (.cancelled subscription _ current now) trivial (fun _ => trivial)

theorem renewFrom_keeps (subscription : Subscription) (latest : SubscriptionPeriod)
    (result : Renewal) : Keeps bookkeeping anyEnd (renewFrom subscription latest result) seen := by
  unfold renewFrom
  split
  · refine Keeps.bind (p := anyEnd) ?_ (fun _ _ _ => trivial) (fun _ _ _ => trivial)
    unfold expireSubscription
    refine keeps_clock_bind fun now => ?_
    exact ⟨.expired subscription now, fun answer _ => by cases answer <;> trivial⟩
  refine keeps_read_bind (fun (found : Option Plan) => ?_) (fun _ => trivial)
  cases found with
  | none => trivial
  | some plan =>
      refine (buildPeriod_keeps _ plan _ _).bind ?_ (fun _ _ _ => trivial)
      intro later next hpending
      refine keeps_commit_bind (.renewed subscription next (hpending next rfl)) ?_
        (fun _ => trivial)
      exact (chargePeriod_keeps next.periodId).bind (fun _ _ _ => trivial) (fun _ _ _ => trivial)

theorem renewOne_keeps (now : Int) (subscription : Subscription) (result : Renewal) :
    Keeps bookkeeping anyEnd (renewOne now subscription result) seen := by
  unfold renewOne
  refine keeps_read_bind (fun (found : Option SubscriptionPeriod) => ?_) (fun _ => trivial)
  cases found with
  | none => trivial
  | some latest =>
      dsimp only
      split
      · trivial
      · exact renewFrom_keeps subscription latest result

theorem renewEach_keeps (now : Int) (candidates : List Subscription) (result : Renewal) :
    Keeps bookkeeping anyEnd (renewEach now candidates result) seen := by
  induction candidates generalizing seen result with
  | nil => trivial
  | cons subscription rest ih =>
      exact (renewOne_keeps now subscription result).bind (fun _ later _ => ih later)
        (fun _ _ _ => trivial)

theorem renewDuePeriods_keeps : Keeps bookkeeping anyEnd renewDuePeriods seen := by
  unfold renewDuePeriods
  refine keeps_clock_bind fun now => ?_
  exact keeps_read_bind (fun candidates => renewEach_keeps now candidates _) (fun _ => trivial)

end Operations

theorem answered_keeps {β : Type} {call : Call β} {post : Seen → Except Thrown β → Prop}
    (h : Keeps bookkeeping post call []) : Keeps bookkeeping anyEnd (answered call) [] :=
  h.bind (fun _ _ _ => trivial) (fun _ _ _ => trivial)

/-- Every request commits only what its operation stages. -/
theorem requests_keep (call : Call Unit) (hcall : requests call) :
    Keeps bookkeeping anyEnd call [] := by
  obtain ⟨request, rfl⟩ := hcall
  cases request with
  | createWallet input => exact answered_keeps (lift_keeps (createWallet_plain input))
  | credit input => exact answered_keeps (lift_keeps (credit_plain input))
  | expireDueAuthorizations => exact answered_keeps (lift_keeps expireDueAuthorizations_plain)
  | subscribe input => exact answered_keeps (subscribe_keeps input)
  | chargePeriod periodId => exact answered_keeps (chargePeriod_keeps periodId)
  | cancelSubscription subscriptionId reason =>
      exact answered_keeps (cancelSubscription_keeps subscriptionId reason)
  | renewDuePeriods => exact answered_keeps renewDuePeriods_keeps

/-! ### What the stores keep whatever is committed -/

section Stores

variable {books books' : Books} {choice : Choice}

/-- Any commit that goes through leaves holds and ledger in agreement. -/
theorem agreement_performs {action : Action} {answer : action.Answer}
    (hagree : Money.Agreement books.core.money)
    (h : perform action choice books = some (answer, books')) :
    Money.Agreement books'.core.money := by
  rcases perform_cases h with rfl | ⟨own, core, answer', rfl, hown, rfl⟩ |
    ⟨uow, writes, rfl, hcommit⟩
  · exact hagree
  · rcases WaslaCore.perform_cases hown with rfl | ⟨entry, rfl, rfl⟩ | ⟨uow, rfl, hcommit⟩
    · exact hagree
    · exact hagree
    · obtain ⟨happly, hverify⟩ := commit_money hcommit
      exact hagree.commit happly hverify
  · obtain ⟨happly, hverify⟩ := commit_money (commit_ok hcommit).1
    exact hagree.commit happly hverify

theorem plainly_told {action : WaslaCore.Action} {answer : action.Answer} {db db' : Db}
    (hagree : Money.Agreement db.money)
    (h : WaslaCore.perform action choice db = some (answer, db')) : plainly.told action answer := by
  cases action with
  | read query =>
      cases query with
      | getAuthorization authorizationId =>
          cases answer with
          | error error => trivial
          | ok found =>
              have hread := perform_read h
              revert hread
              cases (found : Option Money.PaymentAuthorization) with
              | none => exact fun _ => trivial
              | some row => exact fun hread => hagree.keyed authorizationId row hread.symm
      | _ => trivial
  | _ => trivial

theorem bookkeeping_told {action : Action} {answer : action.Answer}
    (hagree : Money.Agreement books.core.money)
    (h : perform action choice books = some (answer, books')) :
    bookkeeping.told action answer := by
  cases action with
  | core own =>
      simp only [perform] at h
      split at h
      · rename_i answer' core hown
        obtain ⟨rfl, -⟩ := Prod.mk.inj (Option.some.inj h)
        exact plainly_told hagree hown
      · cases h
  | read query => trivial
  | commit uow writes => trivial

end Stores

/-! ### Explicit histories -/

abbrev Schedule := List (Move Action Action.Answer Choice Thrown Unit)

/-- A schedule of requests that plays through is a run of the billing system. -/
theorem unrestricted_run {schedule : Schedule}
    {world world' : World Books Action Action.Answer Thrown Unit}
    (h : play billing unrestricted schedule world = some world')
    (hcalls : ∀ call, Move.start call ∈ schedule → requests call) :
    Run billing requests anything world world' :=
  play_run h hcalls (fun _ _ _ _ => trivial)

theorem request_call (request : Request) : requests request.call := ⟨request, rfl⟩

/-- A plan of 60 a month, and nothing sold yet. -/
def monthly : Plan :=
  ⟨idOf '9', "basic", "Basic", "SAR", 60, .month, 1, .active, 0, some 0, none⟩

def offered : Table Plan := Table.empty.put monthly.planId monthly

/-- An identity with a wallet of 100. -/
def walletFunded : Schedule :=
  .start (Request.createWallet ⟨.identity, idOf '1', "SAR"⟩).call ::
    acts 0 [.proceed, .drawn (idOf '2'), .proceed, .proceed] ++
  .start (Request.credit ⟨idOf '2', 100, "topup"⟩).call ::
    acts 1 [.proceed, .proceed, .drawn (idOf '3'), .proceed, .proceed]

/-- `subscribe` up to the commit of the subscription and its first period. -/
def subscribed : Schedule :=
  .start (Request.subscribe ⟨.identity, idOf '1', idOf '9', idOf '2', .absent⟩).call ::
    acts 2 [.proceed, .proceed, .proceed, .proceed, .drawn (idOf '4'), .proceed,
      .drawn (idOf '5'), .proceed, .proceed]

/-- `chargePeriod` up to the commit of the hold. -/
def holdTaken (index : Nat) : Schedule :=
  acts index [.proceed, .proceed, .proceed, .proceed, .proceed, .proceed, .proceed, .proceed,
    .drawn (idOf '6'), .proceed, .proceed, .proceed]

/-- `settlePeriod`: the capture is decided and commits with the period. -/
def settledBy (index : Nat) : Schedule :=
  acts index [.proceed, .proceed, .proceed, .proceed, .proceed, .drawn (idOf '7'), .proceed,
    .proceed, .proceed]

/-- `cancelSubscription` up to its commit. -/
def cancelDecided (index : Nat) : Schedule :=
  .start (Request.cancelSubscription (idOf '4') "moved away").call ::
    acts index [.proceed, .proceed, .proceed]

def committed (index : Nat) : Schedule := acts index [.proceed]

end WaslaCore.Billing
