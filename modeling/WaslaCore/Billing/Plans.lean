import WaslaCore.Billing.Service

/-!
Publishing a plan. The interval of a plan is bounded by the service to the integers a
number holds exactly, and by its column to those of four bytes; neither bounds the dates
it leads to.
-/

namespace WaslaCore.Billing

open Data Platform

/-! ### The tables -/

/-- The range of an `integer` column. -/
def int4Max : Int := 2147483647

def Store.findPlanByCode (store : Store) (code : String) : Option Plan :=
  store.plans.values.find? (fun plan => plan.code = code)

def assertPlanShape (plan : Plan) : Except String Unit :=
  if plan.amountMinor < 0 then
    .error "new row violates check constraint \"plan_amount_non_negative\""
  else if plan.intervalCount ≤ 0 then
    .error "new row violates check constraint \"plan_interval_count_positive\""
  else if (plan.status = .draft) ≠ (plan.activatedAt = none) ∨
      (plan.status = .retired) ≠ (plan.retiredAt ≠ none) then
    .error "new row violates check constraint \"plan_status_timestamps\""
  else .ok ()

def Store.insertPlan (store : Store) (plan : Plan) : Except String Store :=
  match assertPlanShape plan with
  | .error message => .error message
  | .ok () =>
      if store.plans.values.any (fun existing =>
          existing.code = plan.code && existing.planId ≠ plan.planId) then
        .error "duplicate key value violates unique constraint \"plan_code_key\""
      else if int4Max < plan.intervalCount then
        .error ("value \"" ++ toString plan.intervalCount ++ "\" is out of range for type integer")
      else .ok { store with plans := store.plans.put plan.planId plan }

def grantKey (planId featureKey : String) : String := planId ++ "::" ++ featureKey

def Store.insertGrants (store : Store) : List PlanGrant → Except String Store
  | [] => .ok store
  | grant :: rest =>
      let key := grantKey grant.planId grant.featureKey
      if (store.grants.get key).isSome then
        .error "duplicate key value violates unique constraint \"plan_grant_pkey\""
      else Store.insertGrants { store with grants := store.grants.put key grant } rest

/-! ### The service -/

structure GrantInput where
  featureKey : String
  limitValue : Option Int
  deriving DecidableEq, Repr

/-- `intervalCount` is one where none is sent. -/
structure CreatePlanInput where
  code : String
  name : String
  currency : String
  amountMinor : Int
  billingInterval : BillingInterval
  intervalCount : Option Int
  grants : List GrantInput
  deriving DecidableEq, Repr

/-- `Number.isSafeInteger`, of a number no smaller than the bound. -/
def isSafeFrom (bound value : Int) : Bool := bound ≤ value && value ≤ Money.maxSafeInteger

/-- Every grant names a feature of its own, with no limit or a countable one. -/
def checkGrants (seen : List String) : List GrantInput → Except Thrown Unit
  | [] => .ok ()
  | grant :: rest =>
      let key := trim grant.featureKey
      if key.isEmpty then .error (invalid "feature_key is required")
      else if seen.contains key then .error (invalid ("feature_key " ++ key ++ " appears twice"))
      else if grant.limitValue.any (fun limit => !isSafeFrom 0 limit) then
        .error (invalid "limit_value must be null or a non-negative integer")
      else checkGrants (key :: seen) rest

/-- A draft, with its grants, over the store its reads find. -/
def createPlan (store : Store) (planId : String) (now : Int) (input : CreatePlanInput) :
    Except Thrown (Store × Plan × List PlanGrant) :=
  let code := trim input.code
  let intervalCount := input.intervalCount.getD 1
  if code.isEmpty then .error (invalid "code is required")
  else if isBlank input.name then .error (invalid "name is required")
  else if !isSafeFrom 0 input.amountMinor then
    .error (invalid "amount_minor must be a non-negative integer")
  else if !isSafeFrom 1 intervalCount then
    .error (invalid "interval_count must be a positive integer")
  else if (store.findPlanByCode code).isSome then .error (conflict "plan code already exists")
  else
    match checkGrants [] input.grants with
    | .error error => .error error
    | .ok () =>
        match Money.normalizeCurrency input.currency with
        | .error message => .error (.other message)
        | .ok currency =>
            let plan : Plan :=
              ⟨planId, code, trim input.name, currency, input.amountMinor, input.billingInterval,
                intervalCount, .draft, now, none, none⟩
            let grants := input.grants.map (fun grant =>
              (⟨planId, trim grant.featureKey, grant.limitValue⟩ : PlanGrant))
            match store.insertPlan plan with
            | .error message => .error (.other message)
            | .ok published =>
                match published.insertGrants grants with
                | .error message => .error (.other message)
                | .ok granted => .ok (granted, plan, grants)

theorem insertPlan_fits {store store' : Store} {plan : Plan}
    (h : store.insertPlan plan = .ok store') : plan.intervalCount ≤ int4Max := by
  unfold Store.insertPlan at h
  split at h
  · cases h
  split at h
  · cases h
  split at h
  · cases h
  · omega

/-- A plan that is stored has the interval asked for, and a count its column holds. -/
theorem createPlan_interval {store store' : Store} {planId : String} {now : Int}
    {input : CreatePlanInput} {plan : Plan} {grants : List PlanGrant}
    (h : createPlan store planId now input = .ok (store', plan, grants)) :
    plan.billingInterval = input.billingInterval ∧
      plan.intervalCount = input.intervalCount.getD 1 ∧
      0 < plan.intervalCount ∧ plan.intervalCount ≤ int4Max := by
  unfold createPlan at h
  dsimp only at h
  split at h
  · cases h
  split at h
  · cases h
  split at h
  · cases h
  split at h
  · cases h
  rename_i hcount
  split at h
  · cases h
  split at h
  · cases h
  split at h
  · cases h
  split at h
  · cases h
  rename_i published hinsert
  split at h
  · cases h
  simp only [Except.ok.injEq, Prod.mk.injEq] at h
  obtain ⟨-, rfl, -⟩ := h
  refine ⟨rfl, rfl, ?_, insertPlan_fits hinsert⟩
  simp only [isSafeFrom, Bool.not_eq_true, Bool.not_eq_false', Bool.and_eq_true,
    decide_eq_true_eq] at hcount
  dsimp only
  omega

end WaslaCore.Billing
