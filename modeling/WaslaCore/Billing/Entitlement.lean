import WaslaCore.Billing.Service

/-!
Entitlement. The answer is computed from the status of each subscription of an owner,
the period that covers the asked instant, what the plan grants and what of it was used;
no row records it.
-/

namespace WaslaCore.Billing

open Data Platform

/-! ### The decision -/

structure UsageRecord where
  usageId : String
  periodId : String
  featureKey : String
  quantity : Int
  usageReference : String
  recordedAt : Int
  deriving DecidableEq, Repr

inductive EntitlementReason where
  | granted
  | noSubscription
  | subscriptionPastDue
  | subscriptionExpired
  | noCurrentPeriod
  | periodUnpaid
  | notInPlan
  | limitExhausted
  deriving DecidableEq, Repr

/-- `limitValue` and `remaining` are null where the grant is not metered. -/
structure EntitlementDecision where
  allowed : Bool
  reason : EntitlementReason
  featureKey : String
  subscriptionId : Option String
  periodId : Option String
  limitValue : Option Int
  used : Int
  remaining : Option Int
  deriving DecidableEq, Repr

/-- `uncollectible` is deliberately not paid. -/
def periodIsPaid (period : SubscriptionPeriod) : Bool := period.status = .settled

structure DecisionInput where
  featureKey : String
  quantity : Int
  subscription : Option Subscription
  period : Option SubscriptionPeriod
  grant : Option PlanGrant
  used : Int

/-- `remaining` is the state of the quota, whatever was asked for. -/
def decideEntitlement (input : DecisionInput) : EntitlementDecision :=
  let base : EntitlementDecision :=
    { allowed := false
      reason := .noSubscription
      featureKey := input.featureKey
      subscriptionId := input.subscription.map Subscription.subscriptionId
      periodId := input.period.map SubscriptionPeriod.periodId
      limitValue := input.grant.bind PlanGrant.limitValue
      used := input.used
      remaining := none }
  match input.subscription with
  | none => { base with limitValue := none }
  | some subscription =>
      if subscription.status = .pastDue then { base with reason := .subscriptionPastDue }
      else if subscription.status = .expired then { base with reason := .subscriptionExpired }
      else
        -- a cancelled subscription still entitles while a paid period covers the instant
        match input.period with
        | none => { base with reason := .noCurrentPeriod }
        | some period =>
            if periodIsPaid period = false then { base with reason := .periodUnpaid }
            else
              match input.grant with
              | none => { base with reason := .notInPlan, limitValue := none }
              | some grant =>
                  match grant.limitValue with
                  | none => { base with allowed := true, reason := .granted, limitValue := none }
                  | some limit =>
                      let remaining := max (limit - input.used) 0
                      if input.quantity > limit - input.used then
                        { base with reason := .limitExhausted, remaining := some remaining }
                      else
                        { base with
                          allowed := true, reason := .granted, remaining := some remaining }

/-! ### The service -/

/-- A plan grants a feature once. -/
def Store.findGrant (store : Store) (planId featureKey : String) : Option PlanGrant :=
  store.grants.values.find? (fun grant => grant.planId = planId && grant.featureKey = featureKey)

def usageTotal (usage : Table UsageRecord) (periodId featureKey : String) : Int :=
  ((usage.values.filter
    (fun item => item.periodId = periodId && item.featureKey = featureKey)).map
      UsageRecord.quantity).sum

/-- `quantity` is one where none is sent, `at` the time of the call. -/
structure EntitlementInput where
  ownerType : SubscriptionOwnerType
  ownerId : String
  featureKey : String
  quantity : Option Int
  askedAt : StartsAt

section Check

variable (store : Store) (usage : Table UsageRecord) (featureKey : String) (quantity instant : Int)

/-- The answer of one subscription. -/
def decideFor (subscription : Subscription) : EntitlementDecision :=
  let period := store.findPeriodCovering subscription.subscriptionId instant
  decideEntitlement
    { featureKey := featureKey
      quantity := quantity
      subscription := some subscription
      period := period
      grant := store.findGrant subscription.planId featureKey
      used := match period with
        | none => 0
        | some period => usageTotal usage period.periodId featureKey }

/-- A refusal that found the feature in a plan explains more than one that did not. -/
def moreInformative (best : Option EntitlementDecision) (decision : EntitlementDecision) :
    Option EntitlementDecision :=
  match best with
  | none => some decision
  | some kept =>
      if kept.reason = .notInPlan ∧ decision.reason ≠ .notInPlan then some decision else some kept

/-- The first allowance in a fixed order, or the best of the refusals. -/
def decideAmong : List Subscription → Option EntitlementDecision → EntitlementDecision
  | [], best => best.getD (decideEntitlement ⟨featureKey, quantity, none, none, none, 0⟩)
  | subscription :: rest, best =>
      let decision := decideFor store usage featureKey quantity instant subscription
      if decision.allowed then decision
      else decideAmong rest (moreInformative best decision)

end Check

def checkQuantity (quantity : Int) : Except Thrown Unit :=
  if 0 < quantity ∧ quantity ≤ Money.maxSafeInteger then .ok ()
  else .error (invalid "quantity must be a positive integer")

def askedInstant (now : Int) : StartsAt → Except Thrown Int
  | .absent => .ok now
  | .at instant => .ok instant
  | .malformed => .error (invalid "at is not a valid instant")

/-- `checkEntitlement` over the store its reads find. It writes nothing. -/
def checkEntitlement (now : Int) (store : Store) (usage : Table UsageRecord)
    (input : EntitlementInput) : Except Thrown EntitlementDecision := do
  assertId "owner_id" input.ownerId
  let featureKey := trim input.featureKey
  if featureKey.isEmpty then throw (invalid "feature_key is required")
  let quantity := input.quantity.getD 1
  checkQuantity quantity
  let instant ← askedInstant now input.askedAt
  let subscriptions := store.listSubscriptionsForOwner input.ownerType input.ownerId
  let ordered := orderedBy (fun item => [.number item.createdAt]) subscriptions
  pure (decideAmong store usage featureKey quantity instant ordered none)

/-- A request the service answers. -/
structure EntitlementInput.Valid (input : EntitlementInput) : Prop where
  owner : assertId "owner_id" input.ownerId = .ok ()
  feature : (trim input.featureKey).isEmpty = false
  quantity : checkQuantity (input.quantity.getD 1) = .ok ()

theorem checkEntitlement_ok {now instant : Int} {store : Store} {usage : Table UsageRecord}
    {input : EntitlementInput} (h : input.Valid) (hinstant : input.askedAt = .at instant) :
    checkEntitlement now store usage input =
      .ok (decideAmong store usage (trim input.featureKey) (input.quantity.getD 1) instant
        (orderedBy (fun item => [.number item.createdAt])
          (store.listSubscriptionsForOwner input.ownerType input.ownerId)) none) := by
  simp only [checkEntitlement, h.owner, h.feature, h.quantity, hinstant, askedInstant]
  rfl

end WaslaCore.Billing
