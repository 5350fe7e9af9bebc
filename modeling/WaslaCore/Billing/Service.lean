import WaslaCore.Billing.Repository
import WaslaCore.Interleaving.Embed
import WaslaCore.Money.Service

/-!
The subscription service over the money service and its own store. A period is
collected through an ordinary payment authorization, and its settlement and the
capture commit together. Every `←` is an `await` at which other calls may act,
and no write is conditional on the row it was decided from.
-/

namespace WaslaCore.Billing

open Platform Interleaving

/-! ### The shared stores -/

structure Books where
  core : Db
  store : Store

/-- The commit point: the staged writes of both stores and the checks each defers.
An error leaves both alone. -/
def Books.commit (books : Books) (uow : Work) (writes : List Write) : Except Thrown Books :=
  match books.core.commit uow with
  | .error error => .error error
  | .ok core =>
      match applyAll books.store writes with
      | .error message => .error (.other message)
      | .ok store =>
          match verifyAll core.money store writes with
          | .error message => .error (.other message)
          | .ok () => .ok ⟨core, store⟩

inductive Query where
  | getPlan (planId : String)
  | getSubscription (subscriptionId : String)
  | listSubscriptionsForOwner (ownerType : SubscriptionOwnerType) (ownerId : String)
  | listSubscriptionsByStatus (statuses : List SubscriptionStatus)
  | getPeriod (periodId : String)
  | findPeriodCovering (subscriptionId : String) (instant : Int)
  | latestPeriod (subscriptionId : String)

def Query.Answer : Query → Type
  | .getPlan _ => Option Plan
  | .getSubscription _ => Option Subscription
  | .listSubscriptionsForOwner _ _ => List Subscription
  | .listSubscriptionsByStatus _ => List Subscription
  | .getPeriod _ => Option SubscriptionPeriod
  | .findPeriodCovering _ _ => Option SubscriptionPeriod
  | .latestPeriod _ => Option SubscriptionPeriod

def Query.eval (store : Store) : (query : Query) → query.Answer
  | .getPlan planId => store.getPlan planId
  | .getSubscription subscriptionId => store.getSubscription subscriptionId
  | .listSubscriptionsForOwner ownerType ownerId =>
      store.listSubscriptionsForOwner ownerType ownerId
  | .listSubscriptionsByStatus statuses => store.listSubscriptionsByStatus statuses
  | .getPeriod periodId => store.getPeriod periodId
  | .findPeriodCovering subscriptionId instant =>
      store.findPeriodCovering subscriptionId instant
  | .latestPeriod subscriptionId => store.latestPeriod subscriptionId

/-- An action of the services below, a read of the subscription store, or the commit
of a unit of work that writes both. -/
inductive Action where
  | core (action : WaslaCore.Action)
  | read (query : Query)
  | commit (uow : Work) (writes : List Write)

@[reducible] def Action.Answer : Action → Type
  | .core action => action.Answer
  | .read query => Except Thrown query.Answer
  | .commit _ _ => Except Thrown Unit

def perform : (action : Action) → Choice → Books → Option (action.Answer × Books)
  | .core action, choice, books =>
      match WaslaCore.perform action choice books.core with
      | some (answer, core) => some (answer, { books with core := core })
      | none => none
  | .read query, .proceed, books => some (.ok (query.eval books.store), books)
  | .read _, .failing message, books => some (.error (.other message), books)
  | .commit uow writes, .proceed, books =>
      match books.commit uow writes with
      | .ok books' => some (.ok (), books')
      | .error error => some (.error error, books)
  | .commit _ _, .failing message, books => some (.error (.other message), books)
  | _, _, _ => none

def tick (choice : Choice) (books : Books) : Option Books :=
  match WaslaCore.tick choice books.core with
  | some core => some { books with core := core }
  | none => none

/-- The two stores as calls see them. -/
def billing : System Books Action Action.Answer Choice := ⟨perform, tick⟩

abbrev Call (β : Type) := Process Action Action.Answer Thrown β

abbrev Seen := History Action Action.Answer

/-- An awaited answer: its error is thrown where it was awaited. -/
def settled {β : Type} : Except Thrown β → Call β
  | .ok value => .done value
  | .error error => .fail error

def read (query : Query) : Call query.Answer := .act (.read query) settled

def commit (uow : Work) (writes : List Write) : Call Unit := .act (.commit uow writes) settled

/-- A call of the services below. -/
def lift {β : Type} (call : WaslaCore.Call β) : Call β := call.embed Action.core

def clock : Call Int := lift WaslaCore.clock

def newId : Call String := lift WaslaCore.newId

/-! ### Reads that refuse an absent row -/

def requirePlan (planId : String) : Call Plan := do
  let found : Option Plan ← read (.getPlan planId)
  match found with
  | none => throw (notFound "plan not found")
  | some plan => pure plan

def requireSubscription (subscriptionId : String) : Call Subscription := do
  let found : Option Subscription ← read (.getSubscription subscriptionId)
  match found with
  | none => throw (notFound "subscription not found")
  | some subscription => pure subscription

def requirePeriod (periodId : String) : Call SubscriptionPeriod := do
  let found : Option SubscriptionPeriod ← read (.getPeriod periodId)
  match found with
  | none => throw (notFound "subscription period not found")
  | some period => pure period

/-! ### Collecting a period -/

/-- `collected` is false when the charge was attempted and refused. -/
structure ChargeResult where
  period : SubscriptionPeriod
  collected : Bool
  reason : Option String
  deriving DecidableEq, Repr

/-- The period as a collection leaves it. -/
def settledRow (period : SubscriptionPeriod) (authorizationId : Option String) (now : Int) :
    SubscriptionPeriod :=
  { period with
    status := .settled
    authorizationId := authorizationId
    settledAt := some now
    uncollectibleReason := none }

/-- The period as a refused collection leaves it. -/
def uncollectibleRow (period : SubscriptionPeriod) (reason : String) : SubscriptionPeriod :=
  { period with
    status := .uncollectible
    authorizationId := none
    settledAt := none
    uncollectibleReason := some reason }

/-- The period as a cancellation leaves it. -/
def voidedRow (period : SubscriptionPeriod) : SubscriptionPeriod :=
  { period with
    status := .voided
    authorizationId := none
    settledAt := none
    uncollectibleReason := none }

def periodSettled (subscription : Subscription) (period : SubscriptionPeriod) : Event :=
  ⟨"core.subscription.period_settled", "subscription", period.subscriptionId,
    [("subscription_id", .text subscription.subscriptionId), ("period_id", .text period.periodId),
      ("sequence", .number period.sequence), ("period_starts_at", .number period.startsAt),
      ("period_ends_at", .number period.endsAt), ("currency", .text period.currency),
      ("amount_minor", .number period.amountMinor),
      ("authorization_id", .optionalText period.authorizationId)]⟩

def pastDue (subscription : Subscription) (period : SubscriptionPeriod) (reason : String) : Event :=
  ⟨"core.subscription.past_due", "subscription", subscription.subscriptionId,
    [("subscription_id", .text subscription.subscriptionId),
      ("owner_type", .text subscription.ownerType.text), ("owner_id", .text subscription.ownerId),
      ("period_id", .text period.periodId), ("currency", .text period.currency),
      ("amount_minor", .number period.amountMinor), ("reason", .text reason)]⟩

/-- Collecting clears past due, and only past due. -/
def revival (subscription : Subscription) : List Write :=
  if subscription.status = .pastDue then
    [.updateSubscription { subscription with status := .active }]
  else []

/-- A failed collection makes only an active subscription past due. -/
def lapse (subscription : Subscription) : List Write :=
  if subscription.status = .active then
    [.updateSubscription { subscription with status := .pastDue }]
  else []

def settleWork (uow : Work) (subscription : Subscription) (settled : SubscriptionPeriod) : Work :=
  (uow.emit (periodSettled subscription settled)).audit
    ⟨"subscription.period_settled", "subscription_period", settled.periodId,
      [("subscription_id", .text subscription.subscriptionId),
        ("amount_minor", .number settled.amountMinor),
        ("authorization_id", .optionalText settled.authorizationId)]⟩

/-- The capture a settlement enlists, where money is owed. -/
def captureFor : Option String → Call Work
  | none => pure UnitOfWork.empty
  | some authorizationId => do
      let (uow, _) ← lift (Money.captureWithin UnitOfWork.empty ⟨authorizationId, none, none⟩)
      pure uow

/-- The period settled and the money captured in one transaction. -/
def settlePeriod (period : SubscriptionPeriod) (subscription : Subscription)
    (authorizationId : Option String) : Call ChargeResult := do
  let now ← clock
  let settled := settledRow period authorizationId now
  let uow ← captureFor authorizationId
  commit (settleWork uow subscription settled) (.updatePeriod settled :: revival subscription)
  pure ⟨settled, true, none⟩

def uncollectibleWork (subscription : Subscription) (updated : SubscriptionPeriod)
    (reason : String) : Work :=
  ((UnitOfWork.empty : Work).emit (pastDue subscription updated reason)).audit
    ⟨"subscription.period_uncollectible", "subscription_period", updated.periodId,
      [("subscription_id", .text subscription.subscriptionId), ("reason", .text reason)]⟩

/-- A refused collection, in a transaction of its own. -/
def markUncollectible (period : SubscriptionPeriod) (subscription : Subscription)
    (reason : String) : Call ChargeResult := do
  let _ ← clock
  let updated := uncollectibleRow period reason
  commit (uncollectibleWork subscription updated reason)
    (.updatePeriod updated :: lapse subscription)
  pure ⟨updated, false, some reason⟩

/-- The refusals of the money service that are business outcomes here. -/
def refusalAmong (codes : List ErrorCode) : Thrown → Option String
  | .core error => if codes.contains error.code then some error.message else none
  | _ => none

/-- The hold of a period, or why the money service refused one. -/
def authorizePeriod (period : SubscriptionPeriod) (subscription : Subscription) :
    Call (Except String String) :=
  tryCatch (do
    let authorization ← lift (Money.authorize ⟨subscription.walletId, period.amountMinor,
      periodChargeReference period.periodId, .absent⟩)
    pure (.ok authorization.authorizationId)) fun error =>
      match refusalAmong [.conflict, .notFound] error with
      | some reason => pure (.error reason)
      | none => throw error

def chargePeriod (periodId : String) : Call ChargeResult := do
  settled (assertId "period_id" periodId)
  let period ← requirePeriod periodId
  if period.status = .settled then pure ⟨period, true, none⟩
  else if period.status = .voided then
    throw (conflict "period was voided and cannot be collected")
  else
    let subscription ← requireSubscription period.subscriptionId
    if period.amountMinor = 0 then settlePeriod period subscription none
    else
      match ← authorizePeriod period subscription with
      | .error reason => markUncollectible period subscription reason
      | .ok authorizationId =>
          tryCatch (settlePeriod period subscription (some authorizationId)) fun error =>
            match refusalAmong [.conflict] error with
            | some reason => markUncollectible period subscription reason
            | none => throw error

/-! ### Subscribing -/

/-- `starts_at` as a caller may send it. -/
inductive StartsAt where
  | absent
  | at (instant : Int)
  | malformed
  deriving DecidableEq, Repr

structure SubscribeInput where
  ownerType : SubscriptionOwnerType
  ownerId : String
  planId : String
  walletId : String
  startsAt : StartsAt
  deriving DecidableEq, Repr

/-- Copied from the plan, not read through it: this row is the invoice. -/
def buildPeriod (subscription : Subscription) (plan : Plan) (sequence startsAt : Int) :
    Call SubscriptionPeriod := do
  let periodId ← newId
  let endsAt ← settled
    (advanceInterval startsAt plan.billingInterval plan.intervalCount >>= toISOString)
  let createdAt ← clock
  pure
    { periodId := periodId
      subscriptionId := subscription.subscriptionId
      sequence := sequence
      startsAt := startsAt
      endsAt := endsAt
      currency := plan.currency
      amountMinor := plan.amountMinor
      status := .pending
      authorizationId := none
      createdAt := createdAt
      settledAt := none
      uncollectibleReason := none }

def createdWork (subscription : Subscription) (plan : Plan) (period : SubscriptionPeriod) : Work :=
  ((UnitOfWork.empty : Work).emit
    ⟨"core.subscription.created", "subscription", subscription.subscriptionId,
      [("subscription_id", .text subscription.subscriptionId),
        ("owner_type", .text subscription.ownerType.text),
        ("owner_id", .text subscription.ownerId), ("plan_id", .text plan.planId),
        ("plan_code", .text plan.code), ("period_id", .text period.periodId),
        ("period_starts_at", .number period.startsAt), ("period_ends_at", .number period.endsAt),
        ("currency", .text period.currency), ("amount_minor", .number period.amountMinor)]⟩).audit
    ⟨"subscription.created", "subscription", subscription.subscriptionId,
      [("plan_code", .text plan.code), ("period_id", .text period.periodId)]⟩

def isLive (subscription : Subscription) : Bool :=
  subscription.status = .active || subscription.status = .pastDue

def startInstant (now : Int) : StartsAt → Except Thrown Int
  | .absent => .ok now
  | .at instant => .ok instant
  | .malformed => .error (invalid "starts_at is not a valid instant")

/-- The clock is read only where no start was sent. -/
def startOf (startsAt : StartsAt) : Call Int :=
  match startsAt with
  | .absent => clock
  | other => settled (startInstant 0 other)

def subscribe (input : SubscribeInput) : Call ChargeResult := do
  settled (assertId "owner_id" input.ownerId)
  settled (assertId "plan_id" input.planId)
  settled (assertId "wallet_id" input.walletId)
  let plan ← requirePlan input.planId
  if plan.status ≠ .active then
    throw (conflict ("plan is " ++ plan.status.text ++ " and cannot be subscribed to"))
  else
    let found : Option Money.Wallet ← lift (Money.getWallet input.walletId)
    match found with
    | none => throw (notFound "wallet not found")
    | some wallet =>
        if wallet.currency ≠ plan.currency then
          throw (invalid ("plan is priced in " ++ plan.currency ++ " but the wallet holds " ++
            wallet.currency))
        else if wallet.ownerType ≠ input.ownerType ∨ wallet.ownerId ≠ input.ownerId then
          throw (invalid "wallet belongs to a different owner")
        else
          let existing : List Subscription ←
            read (.listSubscriptionsForOwner input.ownerType input.ownerId)
          if existing.any (fun item => item.planId = plan.planId && isLive item) then
            throw (conflict "owner already has a live subscription to this plan")
          else
            let startsAt ← startOf input.startsAt
            let subscriptionId ← newId
            let createdAt ← clock
            let subscription : Subscription :=
              ⟨subscriptionId, input.ownerType, input.ownerId, plan.planId, input.walletId, .active,
                createdAt, none, none, none⟩
            let period ← buildPeriod subscription plan 1 startsAt
            commit (createdWork subscription plan period)
              [.insertSubscription subscription, .insertPeriod period]
            let charge ← chargePeriod period.periodId
            -- the answer shows the subscription as it is by now
            let _ : Option Subscription ← read (.getSubscription subscription.subscriptionId)
            pure charge

/-! ### Cancelling -/

structure CancelResult where
  subscription : Subscription
  voidedPeriodId : Option String
  deriving DecidableEq, Repr

/-- Paid time is honoured; unpaid time ends now. -/
def cancelledRow (subscription : Subscription) (reason : String)
    (current : Option SubscriptionPeriod) (now : Int) : Subscription :=
  { subscription with
    status := .cancelled
    cancelledAt := some now
    cancelReason := some reason
    endedAt := some (match current with
      | none => now
      | some period => if period.status = .settled then period.endsAt else now) }

/-- The covering period a cancellation voids: one that was never settled. -/
def voidable (current : Option SubscriptionPeriod) : Option SubscriptionPeriod :=
  current.filter (fun period => period.status ≠ .settled)

def cancelledWork (subscription updated : Subscription) (reason : String)
    (voided : Option SubscriptionPeriod) : Work :=
  ((UnitOfWork.empty : Work).emit
    ⟨"core.subscription.cancelled", "subscription", subscription.subscriptionId,
      [("subscription_id", .text subscription.subscriptionId),
        ("owner_type", .text subscription.ownerType.text),
        ("owner_id", .text subscription.ownerId), ("plan_id", .text subscription.planId),
        ("reason", .text reason), ("coverage_ends_at", .optionalNumber updated.endedAt),
        ("voided_period_id", .optionalText (voided.map SubscriptionPeriod.periodId))]⟩).audit
    ⟨"subscription.cancelled", "subscription", subscription.subscriptionId,
      [("reason", .text reason), ("coverage_ends_at", .optionalNumber updated.endedAt)]⟩

def cancelSubscription (subscriptionId reason : String) : Call CancelResult := do
  settled (assertId "subscription_id" subscriptionId)
  let reason := trim reason
  if reason.isEmpty then throw (invalid "reason is required")
  else
    let subscription ← requireSubscription subscriptionId
    if subscription.status = .cancelled then pure ⟨subscription, none⟩
    else if subscription.status = .expired then
      throw (conflict "subscription has already expired")
    else
      let now ← clock
      let current : Option SubscriptionPeriod ←
        read (.findPeriodCovering subscription.subscriptionId now)
      let updated := cancelledRow subscription reason current now
      let voided := (voidable current).map voidedRow
      commit (cancelledWork subscription updated reason voided)
        (.updateSubscription updated :: (voided.map Write.updatePeriod).toList)
      pure ⟨updated, voided.map SubscriptionPeriod.periodId⟩

/-! ### The renewal sweep -/

structure Renewal where
  renewed : List SubscriptionPeriod
  expired : List String
  uncollectible : List String
  deriving DecidableEq, Repr

/-- `cancelled_at` goes with the status; the reason and the end of coverage stay. -/
def expiredRow (subscription : Subscription) (now : Int) : Subscription :=
  { subscription with
    status := .expired
    cancelledAt := none
    endedAt := some (subscription.endedAt.getD now) }

def expiredWork (subscription updated : Subscription) : Work :=
  ((UnitOfWork.empty : Work).emit
    ⟨"core.subscription.expired", "subscription", subscription.subscriptionId,
      [("subscription_id", .text subscription.subscriptionId),
        ("owner_type", .text subscription.ownerType.text),
        ("owner_id", .text subscription.ownerId), ("plan_id", .text subscription.planId),
        ("ended_at", .optionalNumber updated.endedAt)]⟩).audit
    ⟨"subscription.expired", "subscription", subscription.subscriptionId,
      [("ended_at", .optionalNumber updated.endedAt)]⟩

def expireSubscription (subscription : Subscription) : Call Unit := do
  let now ← clock
  let updated := expiredRow subscription now
  commit (expiredWork subscription updated) [.updateSubscription updated]

def renewedWork (subscription : Subscription) (next : SubscriptionPeriod) : Work :=
  ((UnitOfWork.empty : Work).emit
    ⟨"core.subscription.renewed", "subscription", next.subscriptionId,
      [("subscription_id", .text subscription.subscriptionId), ("period_id", .text next.periodId),
        ("sequence", .number next.sequence), ("period_starts_at", .number next.startsAt),
        ("period_ends_at", .number next.endsAt), ("currency", .text next.currency),
        ("amount_minor", .number next.amountMinor)]⟩).audit
    ⟨"subscription.renewed", "subscription_period", next.periodId,
      [("subscription_id", .text subscription.subscriptionId),
        ("sequence", .number next.sequence)]⟩

/-- One subscription whose latest period has ended: a cancelled one expires, any
other gets its next period and is charged for it. -/
def renewFrom (subscription : Subscription) (latest : SubscriptionPeriod) (result : Renewal) :
    Call Renewal := do
  if subscription.status = .cancelled then
    expireSubscription subscription
    pure { result with expired := result.expired ++ [subscription.subscriptionId] }
  else
    let found : Option Plan ← read (.getPlan subscription.planId)
    match found with
    | none => pure result
    | some plan =>
        let next ← buildPeriod subscription plan (latest.sequence + 1) latest.endsAt
        commit (renewedWork subscription next) [.insertPeriod next]
        let charge ← chargePeriod next.periodId
        pure { result with
          renewed := result.renewed ++ [charge.period]
          uncollectible :=
            if charge.collected then result.uncollectible
            else result.uncollectible ++ [next.periodId] }

def renewOne (now : Int) (subscription : Subscription) (result : Renewal) : Call Renewal := do
  let found : Option SubscriptionPeriod ← read (.latestPeriod subscription.subscriptionId)
  match found with
  | none => pure result
  | some latest =>
      if now < latest.endsAt then pure result
      else renewFrom subscription latest result

def renewEach (now : Int) : List Subscription → Renewal → Call Renewal
  | [], result => pure result
  | subscription :: rest, result => do
      let result ← renewOne now subscription result
      renewEach now rest result

def renewDuePeriods : Call Renewal := do
  let now ← clock
  let candidates : List Subscription ←
    read (.listSubscriptionsByStatus [.active, .pastDue, .cancelled])
  renewEach now candidates ⟨[], [], []⟩

/-! ### Requests -/

/-- The operations that act on subscriptions, and the money operations beside them:
wallets are opened and credited, and the sweep expires due holds. -/
inductive Request where
  | createWallet (input : Money.CreateWalletInput)
  | credit (input : Money.CreditInput)
  | expireDueAuthorizations
  | subscribe (input : SubscribeInput)
  | chargePeriod (periodId : String)
  | cancelSubscription (subscriptionId reason : String)
  | renewDuePeriods

/-- A call whose answer goes to a client and to nobody else. -/
def answered {β : Type} (call : Call β) : Call Unit := call >>= fun _ => pure ()

def Request.call : Request → Call Unit
  | .createWallet input => answered (lift (Money.createWallet input))
  | .credit input => answered (lift (Money.credit input))
  | .expireDueAuthorizations => answered (lift Money.expireDueAuthorizations)
  | .subscribe input => answered (Billing.subscribe input)
  | .chargePeriod periodId => answered (Billing.chargePeriod periodId)
  | .cancelSubscription subscriptionId reason =>
      answered (Billing.cancelSubscription subscriptionId reason)
  | .renewDuePeriods => answered Billing.renewDuePeriods

def requests (call : Call Unit) : Prop := ∃ request : Request, call = request.call

/-- Both stores before anything was sold. -/
def Books.opened (now : Int) (plans : Data.Table Plan) (grants : Data.Table PlanGrant) : Books :=
  ⟨Db.empty now, Store.offering plans grants⟩

end WaslaCore.Billing
