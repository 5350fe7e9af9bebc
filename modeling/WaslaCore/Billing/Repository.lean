import WaslaCore.Data.Table
import WaslaCore.Money.Repository
import WaslaCore.Platform.ListOrder
import WaslaCore.Billing.Domain

/-!
The subscription store: its reads, its writes, and the agreement with the money
store that the schema defers to the commit. An update sets its columns whatever
the stored row has become since it was read. Where the reference store and
Postgres differ on a write no service stages (a primary key met twice, an update
of a row that is not there) Postgres decides, and references between tables and
column formats, which only ever refuse a write, are left out.
-/

namespace WaslaCore.Billing

open Data Platform

/-- Grants are kept under their plan and feature. -/
structure Store where
  plans : Table Plan
  grants : Table PlanGrant
  subscriptions : Table Subscription
  periods : Table SubscriptionPeriod

/-- The store of an operator who has configured plans and sold nothing. -/
def Store.offering (plans : Table Plan) (grants : Table PlanGrant) : Store :=
  ⟨plans, grants, Table.empty, Table.empty⟩

namespace Store

/-! ### Reads -/

def getPlan (store : Store) (planId : String) : Option Plan := store.plans.get planId

def getSubscription (store : Store) (subscriptionId : String) : Option Subscription :=
  store.subscriptions.get subscriptionId

def listSubscriptionsForOwner (store : Store) (ownerType : SubscriptionOwnerType)
    (ownerId : String) : List Subscription :=
  orderedBy (fun item => [.number item.createdAt, .text item.subscriptionId])
    (store.subscriptions.values.filter
      (fun item => item.ownerType = ownerType && item.ownerId = ownerId))

def listSubscriptionsByStatus (store : Store) (statuses : List SubscriptionStatus) :
    List Subscription :=
  orderedBy (fun item => [.number item.createdAt, .text item.subscriptionId])
    (store.subscriptions.values.filter (fun item => statuses.contains item.status))

def getPeriod (store : Store) (periodId : String) : Option SubscriptionPeriod :=
  store.periods.get periodId

def periodsOf (store : Store) (subscriptionId : String) : List SubscriptionPeriod :=
  store.periods.values.filter (fun period => period.subscriptionId = subscriptionId)

def listPeriods (store : Store) (subscriptionId : String) : List SubscriptionPeriod :=
  orderedBy (fun period => [.number period.sequence]) (store.periodsOf subscriptionId)

/-- The period whose half-open window contains the instant, if any. -/
def findPeriodCovering (store : Store) (subscriptionId : String) (instant : Int) :
    Option SubscriptionPeriod :=
  (store.periodsOf subscriptionId).find? (fun period => periodCovers period instant)

/-- Highest sequence, which is what a renewal continues from. -/
def latestPeriod (store : Store) (subscriptionId : String) : Option SubscriptionPeriod :=
  (orderedBy (fun period => [.number (-period.sequence)])
    (store.periodsOf subscriptionId)).head?

end Store

/-! ### Row checks -/

def assertSubscriptionShape (subscription : Subscription) : Except String Unit :=
  if (subscription.status = .cancelled) ≠ (subscription.cancelledAt ≠ none) then
    .error "new row violates check constraint \"subscription_cancel_fields\""
  else if subscription.status = .cancelled ∧ isBlank (subscription.cancelReason.getD "") then
    .error "new row violates check constraint \"subscription_cancel_reason_required\""
  else if subscription.status ≠ .cancelled ∧ subscription.status ≠ .expired ∧
      subscription.endedAt ≠ none then
    .error "new row violates check constraint \"subscription_ended_fields\""
  else .ok ()

/-- A settled period has a hold if and only if money was owed. -/
def assertPeriodShape (period : SubscriptionPeriod) : Except String Unit :=
  if period.sequence ≤ 0 then
    .error "new row violates check constraint \"subscription_period_sequence_positive\""
  else if period.endsAt ≤ period.startsAt then
    .error "new row violates check constraint \"subscription_period_ordered\""
  else if period.amountMinor < 0 then
    .error "new row violates check constraint \"subscription_period_amount_non_negative\""
  else if period.status = .settled ∧ (period.settledAt = none ∨
      (period.amountMinor = 0) ≠ (period.authorizationId = none)) then
    .error "new row violates check constraint \"subscription_period_settlement_fields\""
  else if period.status ≠ .settled ∧ period.settledAt ≠ none then
    .error "new row violates check constraint \"subscription_period_settlement_fields\""
  else if period.status ≠ .settled ∧ period.authorizationId ≠ none then
    .error "new row violates check constraint \"subscription_period_authorization_only_when_settled\""
  else if (period.status = .uncollectible) ≠
      (isBlank (period.uncollectibleReason.getD "") = false) then
    .error "new row violates check constraint \"subscription_period_uncollectible_reason\""
  else .ok ()

/-! ### Writes -/

/-- Half-open ranges overlap iff each starts before the other ends. -/
def Store.periodOverlapClash (store : Store) (period : SubscriptionPeriod) : Bool :=
  store.periods.values.any (fun existing =>
    existing.subscriptionId = period.subscriptionId && existing.periodId ≠ period.periodId &&
      period.startsAt < existing.endsAt && existing.startsAt < period.endsAt)

def Store.sequenceClash (store : Store) (period : SubscriptionPeriod) : Bool :=
  store.periods.values.any (fun existing =>
    existing.subscriptionId = period.subscriptionId && existing.sequence = period.sequence &&
      existing.periodId ≠ period.periodId)

/-- One hold settles one period. -/
def Store.authorizationClash (store : Store) (period : SubscriptionPeriod) : Bool :=
  period.authorizationId.isSome && store.periods.values.any (fun existing =>
    existing.authorizationId = period.authorizationId && existing.periodId ≠ period.periodId)

def Store.writePeriod (store : Store) (period : SubscriptionPeriod) : Except String Store :=
  match assertPeriodShape period with
  | .error message => .error message
  | .ok () =>
      if store.periodOverlapClash period then
        .error "conflicting key value violates exclusion constraint \"subscription_period_no_overlap\""
      else if store.sequenceClash period then
        .error "duplicate key value violates unique constraint \"subscription_period_sequence_unique\""
      else if store.authorizationClash period then
        .error "duplicate key value violates unique constraint \"subscription_period_authorization_unique\""
      else .ok { store with periods := store.periods.put period.periodId period }

def Store.insertPeriod (store : Store) (period : SubscriptionPeriod) : Except String Store :=
  if (store.periods.get period.periodId).isSome then
    .error "duplicate key value violates unique constraint \"subscription_period_pkey\""
  else store.writePeriod period

/-- The stored row with the columns an update sets: the others never change. -/
def SubscriptionPeriod.revise (stored next : SubscriptionPeriod) : SubscriptionPeriod :=
  { stored with
    status := next.status
    authorizationId := next.authorizationId
    settledAt := next.settledAt
    uncollectibleReason := next.uncollectibleReason }

def Store.updatePeriod (store : Store) (next : SubscriptionPeriod) : Except String Store :=
  match store.periods.get next.periodId with
  | none => .ok store
  | some stored => store.writePeriod (stored.revise next)

def Store.insertSubscription (store : Store) (subscription : Subscription) : Except String Store :=
  match assertSubscriptionShape subscription with
  | .error message => .error message
  | .ok () =>
      if (store.subscriptions.get subscription.subscriptionId).isSome then
        .error "duplicate key value violates unique constraint \"subscription_pkey\""
      else
        .ok { store with
          subscriptions := store.subscriptions.put subscription.subscriptionId subscription }

/-- The stored row with the columns an update sets: the others never change. -/
def Subscription.revise (stored next : Subscription) : Subscription :=
  { stored with
    status := next.status
    cancelledAt := next.cancelledAt
    cancelReason := next.cancelReason
    endedAt := next.endedAt }

def Store.updateSubscription (store : Store) (next : Subscription) : Except String Store :=
  match store.subscriptions.get next.subscriptionId with
  | none => .ok store
  | some stored =>
      match assertSubscriptionShape (stored.revise next) with
      | .error message => .error message
      | .ok () =>
          .ok { store with
            subscriptions := store.subscriptions.put next.subscriptionId (stored.revise next) }

/-- A staged write. -/
inductive Write where
  | insertSubscription (subscription : Subscription)
  | updateSubscription (next : Subscription)
  | insertPeriod (period : SubscriptionPeriod)
  | updatePeriod (next : SubscriptionPeriod)
  deriving DecidableEq, Repr

def Write.apply (store : Store) : Write → Except String Store
  | .insertSubscription subscription => store.insertSubscription subscription
  | .updateSubscription next => store.updateSubscription next
  | .insertPeriod period => store.insertPeriod period
  | .updatePeriod next => store.updatePeriod next

def applyAll (store : Store) : List Write → Except String Store
  | [] => .ok store
  | write :: rest =>
      match write.apply store with
      | .ok next => applyAll next rest
      | .error message => .error message

/-! ### The check deferred to the commit -/

/-- A period settled by a hold is settled for what that hold captured. -/
def assertMoneyAgreement (money : Money.Store) (store : Store) (periodId : String) :
    Except String Unit :=
  match store.periods.get periodId with
  | none => .ok ()
  | some period =>
      if period.status ≠ .settled then .ok ()
      else
        match period.authorizationId with
        | none => .ok ()
        | some authorizationId =>
            match money.getAuthorization authorizationId with
            | none =>
                .error ("period " ++ periodId ++ " is settled against authorization " ++
                  authorizationId ++ " which does not exist")
            | some snapshot =>
                if snapshot.capturedMinor ≠ period.amountMinor then
                  .error ("period " ++ periodId ++ " is settled for " ++
                    toString period.amountMinor ++ " but authorization " ++ authorizationId ++
                    " captured " ++ toString snapshot.capturedMinor)
                else if snapshot.currency ≠ period.currency then
                  .error ("period " ++ periodId ++ " is priced in " ++ period.currency ++
                    " but was settled in " ++ snapshot.currency)
                else .ok ()

/-- The period whose agreement a write defers. -/
def Write.deferred : Write → Option String
  | .insertPeriod period => some period.periodId
  | .updatePeriod next => some next.periodId
  | _ => none

def verifyAll (money : Money.Store) (store : Store) : List Write → Except String Unit
  | [] => .ok ()
  | write :: rest =>
      match write.deferred with
      | none => verifyAll money store rest
      | some periodId =>
          match assertMoneyAgreement money store periodId with
          | .ok () => verifyAll money store rest
          | .error message => .error message

end WaslaCore.Billing
