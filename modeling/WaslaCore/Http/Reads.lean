import WaslaCore.Billing.Repository
import WaslaCore.Fulfillment.Service
import WaslaCore.Http.Query
import WaslaCore.Reputation.Repository

/-!
The reads a tenant has of its fulfillments, of the standings it keeps, and of plans and
subscriptions. Each is answered from the tables as one moment shows them, to a caller the
router has already authenticated. Of the four services only what these routes call is here.
-/

namespace WaslaCore

open Data Platform

/-! ### Fulfillments -/

namespace Fulfillment

def Store.all (store : Store) : List Fulfillment :=
  orderedBy (fun item => [.number item.createdAt, .text item.fulfillmentId]) store.rows.values

def isFinanciallyConsistent (fulfillment : Fulfillment) : Bool :=
  let disposition := financialDisposition fulfillment
  disposition = .settled || disposition = .noMoney || disposition = .awaitingExecution

/-- `!organizationId || item.organization_id === organizationId`. -/
def isOf (organizationId : Option String) (item : Fulfillment) : Bool :=
  organizationId.all fun name => name.isEmpty || item.organizationId = name

def Store.listFinanciallyInconsistent (store : Store) (organizationId : Option String) :
    List Fulfillment :=
  (store.all.filter (isOf organizationId)).filter fun item => !isFinanciallyConsistent item

def Store.listPendingFinancialDecision (store : Store) (organizationId : Option String) :
    List Fulfillment :=
  (store.all.filter (isOf organizationId)).filter requiresFinancialDecision

/-- The hold behind a fulfillment, as intake would judge it. -/
def inspectStored (money : Money.Store) (now : Int) : Option String → HoldInspection
  | none => ⟨true, true, .none, none, none⟩
  | some hold =>
      match money.getAuthorization hold with
      | none => unknownHold
      | some authorization => inspectRow now authorization

/-- Open work whose hold can no longer settle it, with the fulfillment as the service lists it
or as the route shows it. -/
structure StaleHold (α : Type) where
  fulfillment : α
  reason : String
  holdCapturedMinor : Option Int
  settlementStateIfClosed : SettlementState
  deriving DecidableEq, Repr

def staleHold (money : Money.Store) (now : Int) (item : Fulfillment) :
    Option (StaleHold Fulfillment) :=
  let hold := inspectStored money now item.paymentAuthorizationId
  if hold.usable then none
  else some ⟨item, hold.reason.getD "payment_hold_unusable", hold.capturedMinor, hold.settlement⟩

def isOpenFunded (organizationId : Option String) (item : Fulfillment) : Bool :=
  !isClosed item.status && item.paymentAuthorizationId.isSome && isOf organizationId item

def Store.listStaleHolds (store : Store) (money : Money.Store) (now : Int)
    (organizationId : Option String) : List (StaleHold Fulfillment) :=
  (store.all.filter (isOpenFunded organizationId)).filterMap (staleHold money now)

end Fulfillment

/-! ### Standings -/

namespace Reputation

def maxSignalPage : Nat := 200

/-- `order by recorded_at desc, reputation_signal_id desc`. -/
def newerFirst (left right : ReputationSignal) : Prop :=
  right.recordedAt < left.recordedAt ∨
    (right.recordedAt = left.recordedAt ∧ right.reputationSignalId ≤ left.reputationSignalId)

instance : DecidableRel newerFirst := fun left right =>
  inferInstanceAs (Decidable (right.recordedAt < left.recordedAt ∨
    (right.recordedAt = left.recordedAt ∧ right.reputationSignalId ≤ left.reputationSignalId)))

def ReputationStore.listForSubject (store : ReputationStore) (subject : ReputationSubject)
    (limit : Nat) : List ReputationSignal :=
  ((store.forSubject subject).insertionSort newerFirst).take limit

end Reputation

/-! ### Plans and subscriptions -/

namespace Billing

/-- `order by code`, of all plans or of those in one status. -/
def Store.listPlans (store : Store) (status : Option PlanStatus) : List Plan :=
  orderedBy (fun plan => [.text plan.code])
    (store.plans.values.filter fun plan => status.all fun wanted => plan.status = wanted)

def Store.listGrants (store : Store) (planId : String) : List PlanGrant :=
  orderedBy (fun grant => [.text grant.featureKey])
    (store.grants.values.filter fun grant => grant.planId = planId)

end Billing

/-! ### Routes -/

namespace Http

open Identity

/-- The tables the reads are answered from. A fulfillment stands under its own identifier, the
hold it names is there, and so is the subscription a period belongs to. -/
structure ReadStores where
  fulfillments : Fulfillment.Store
  money : Money.Store
  reputation : Reputation.ReputationStore
  billing : Billing.Store
  keyed : fulfillments.rows.KeyedBy Fulfillment.Fulfillment.fulfillmentId
  identified : ∀ row ∈ fulfillments.rows.values, isId row.fulfillmentId = true
  funded : ∀ row ∈ fulfillments.rows.values, ∀ hold, row.paymentAuthorizationId = some hold →
    (money.getAuthorization hold).isSome = true
  billed : ∀ period ∈ billing.periods.values,
    (billing.getSubscription period.subscriptionId).isSome = true

/-- The registered reads, with what the path says. -/
inductive ReadRoute where
  | inconsistent
  | pendingFinancialDecision
  | staleHolds
  | fulfillment (fulfillmentId : String)
  | standing (subjectType subjectId : String)
  | signals (subjectType subjectId : String)
  | plans
  | plan (planId : String)
  | subscription (subscriptionId : String)
  deriving DecidableEq, Repr

def organizationParam : ParamSpec := .text "organization_id" true

def planStatuses : List Billing.PlanStatus := [.draft, .active, .retired]

def ReadRoute.params : ReadRoute → List ParamSpec
  | .inconsistent => [organizationParam]
  | .pendingFinancialDecision => [organizationParam]
  | .staleHolds => [organizationParam]
  | .fulfillment _ => []
  | .standing _ _ => [organizationParam]
  | .signals _ _ => [organizationParam, .limit "limit" ⟨50, 1, Reputation.maxSignalPage⟩]
  | .plans => [.enum "status" (planStatuses.map Billing.PlanStatus.text)]
  | .plan _ => []
  | .subscription _ => []

/-- A fulfillment with what its money came to, computed for the answer. -/
structure Disposed where
  record : Fulfillment.Fulfillment
  financialDisposition : Fulfillment.FinancialDisposition
  deriving DecidableEq, Repr

def withDisposition (record : Fulfillment.Fulfillment) : Disposed :=
  ⟨record, Fulfillment.financialDisposition record⟩

/-- The body of a read that is answered; the status is 200 on every route. -/
inductive ReadBody where
  | fulfillments (count : Nat) (items : List Disposed)
  | staleHolds (count : Nat) (items : List (Fulfillment.StaleHold Disposed))
  | fulfillment (record : Disposed)
  | standing (standing : Reputation.ReputationStanding)
  | signals (count : Nat) (items : List Reputation.ReputationSignal)
  | plans (plans : List Billing.Plan)
  | plan (plan : Billing.Plan) (grants : List Billing.PlanGrant)
  | subscription (subscription : Billing.Subscription) (periods : List Billing.SubscriptionPeriod)

def reconciled (items : List Fulfillment.Fulfillment) : ReadBody :=
  .fulfillments items.length (items.map withDisposition)

/-- The organization a reconciliation read is about, which the caller has to be in. -/
def authorizedOrganization (actor : AuthenticatedPrincipal) (selection : Selected) :
    Except Refusal String := do
  let organizationId ← selection.requiredText "organization_id"
  authorize actor .fulfillmentRead (some organizationId)
  pure organizationId

/-- The subject and tenant of a read, from the path and the query string. -/
def subjectOf (subjectType subjectId : String) (selection : Selected) :
    Except Refusal Reputation.ReputationSubject := do
  let organizationId ← selection.requiredText "organization_id"
  match Reputation.ReputationSubjectType.ofName subjectType with
  | none => throw (invalidRequest "subject_type must be identity or organization")
  | some kind => pure ⟨organizationId, kind, subjectId⟩

/-- The identifiers of a subject, as both reads of it check them. -/
def assertSubject (subject : Reputation.ReputationSubject) : Except Refusal Unit := do
  assertIdentifier "organization_id" subject.organizationId
  assertIdentifier "subject_id" subject.subjectId

def requireFulfillment (stores : ReadStores) (fulfillmentId : String) :
    Except Refusal Fulfillment.Fulfillment :=
  match stores.fulfillments.get fulfillmentId with
  | none => .error (refused .notFound "fulfillment not found" [])
  | some record => .ok record

def listSignals (stores : ReadStores) (subject : Reputation.ReputationSubject) (limit : Nat) :
    Except Refusal (List Reputation.ReputationSignal) := do
  assertSubject subject
  if limit = 0 ∨ Reputation.maxSignalPage < limit then
    throw (invalidRequest ("limit must be an integer between 1 and " ++
      toString Reputation.maxSignalPage))
  else pure (stores.reputation.listForSubject subject limit)

def getPlan (stores : ReadStores) (planId : String) :
    Except Refusal (Billing.Plan × List Billing.PlanGrant) := do
  assertIdentifier "plan_id" planId
  match stores.billing.getPlan planId with
  | none => throw (refused .notFound "plan not found" [])
  | some plan => pure (plan, stores.billing.listGrants planId)

def getSubscription (stores : ReadStores) (subscriptionId : String) :
    Except Refusal (Billing.Subscription × List Billing.SubscriptionPeriod) := do
  assertIdentifier "subscription_id" subscriptionId
  match stores.billing.getSubscription subscriptionId with
  | none => throw (refused .notFound "subscription not found" [])
  | some subscription => pure (subscription, stores.billing.listPeriods subscriptionId)

/-- One handler each. A fulfillment is loaded before its organization can be asked about, and
a subscription is read without one. -/
def handleRead (stores : ReadStores) (now : Int) (actor : AuthenticatedPrincipal)
    (selection : Selected) : ReadRoute → Except Refusal ReadBody
  | .inconsistent => do
      let organizationId ← authorizedOrganization actor selection
      pure (reconciled (stores.fulfillments.listFinanciallyInconsistent (some organizationId)))
  | .pendingFinancialDecision => do
      let organizationId ← authorizedOrganization actor selection
      pure (reconciled (stores.fulfillments.listPendingFinancialDecision (some organizationId)))
  | .staleHolds => do
      let organizationId ← authorizedOrganization actor selection
      let items := stores.fulfillments.listStaleHolds stores.money now (some organizationId)
      pure (.staleHolds items.length (items.map fun item =>
        { item with fulfillment := withDisposition item.fulfillment }))
  | .fulfillment fulfillmentId => do
      let record ← requireFulfillment stores fulfillmentId
      authorize actor .fulfillmentRead (some record.organizationId)
      pure (.fulfillment (withDisposition record))
  | .standing subjectType subjectId => do
      let subject ← subjectOf subjectType subjectId selection
      authorize actor .reputationRead (some subject.organizationId)
      assertSubject subject
      pure (.standing (stores.reputation.standing subject))
  | .signals subjectType subjectId => do
      let subject ← subjectOf subjectType subjectId selection
      authorize actor .reputationRead (some subject.organizationId)
      let limit ← selection.number "limit"
      let items ← listSignals stores subject limit
      pure (.signals items.length items)
  | .plans => do
      authorize actor .subscriptionRead none
      let status ← selection.text "status"
      pure (.plans (stores.billing.listPlans (planStatuses.find? fun wanted =>
        some wanted.text = status)))
  | .plan planId => do
      authorize actor .subscriptionRead none
      let (plan, grants) ← getPlan stores planId
      pure (.plan plan grants)
  | .subscription subscriptionId => do
      authorize actor .subscriptionRead none
      let (subscription, periods) ← getSubscription stores subscriptionId
      pure (.subscription subscription periods)

/-- The query string is read before the handler runs. -/
def respondRead (stores : ReadStores) (now : Int) (actor : AuthenticatedPrincipal)
    (route : ReadRoute) (query : QueryString) : Except Refusal ReadBody := do
  let selection ← parseSelection query route.params
  handleRead stores now actor selection route

end Http

end WaslaCore
