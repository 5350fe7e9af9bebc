import WaslaCore.Billing.Entitled

/-!
Metered usage. A record is kept once under its period, its feature and its reference, and
the period is looked up for the instant of the call, which is now where none is sent. A
repetition counts once while it is looked up in the period it was first recorded in.
-/

namespace WaslaCore.Billing

open Data Platform

/-! ### The table -/

def findUsageByReference (usage : Table UsageRecord) (periodId featureKey reference : String) :
    Option UsageRecord :=
  usage.values.find? (fun item =>
    item.periodId = periodId && item.featureKey = featureKey && item.usageReference = reference)

/-- The checks of the row, and the trigger that keeps it within its period. -/
def assertUsageRow (period : SubscriptionPeriod) (row : UsageRecord) : Except String Unit :=
  if isBlank row.featureKey then
    .error "new row violates check constraint \"usage_record_feature_key_present\""
  else if row.quantity ≤ 0 then
    .error "new row violates check constraint \"usage_record_quantity_positive\""
  else if isBlank row.usageReference then
    .error "new row violates check constraint \"usage_record_reference_present\""
  else if period.status = .voided then
    .error ("period " ++ row.periodId ++ " was voided and cannot accrue usage")
  else if periodCovers period row.recordedAt = false then
    .error ("usage falls outside period " ++ row.periodId)
  else .ok ()

def insertUsage (store : Store) (usage : Table UsageRecord) (row : UsageRecord) :
    Except String (Table UsageRecord) :=
  match store.getPeriod row.periodId with
  | none =>
      .error "insert violates foreign key constraint \"usage_record_period_id_fkey\""
  | some period =>
      if (findUsageByReference usage row.periodId row.featureKey row.usageReference).any
          (fun existing => existing.usageId ≠ row.usageId) then
        .error "duplicate key value violates unique constraint \"usage_record_once\""
      else if (usage.get row.usageId).isSome then
        .error "duplicate key value violates unique constraint \"usage_record_pkey\""
      else
        match assertUsageRow period row with
        | .error message => .error message
        | .ok () => .ok (usage.put row.usageId row)

/-! ### The service -/

structure UsageInput where
  subscriptionId : String
  featureKey : String
  quantity : Int
  usageReference : String
  askedAt : StartsAt
  deriving DecidableEq, Repr

def UsageInput.check (input : UsageInput) : Except Thrown Unit := do
  assertId "subscription_id" input.subscriptionId
  if isBlank input.featureKey then throw (invalid "feature_key is required")
  if isBlank input.usageReference then throw (invalid "usage_reference is required")
  checkQuantity input.quantity

/-- What a call answers, and the table it leaves. -/
structure UsageAnswer where
  usage : Table UsageRecord
  record : UsageRecord
  recorded : Bool

/-- `recordUsage` over the stores its reads find, with the identifier it draws. Usage is
recorded past its limit. -/
def recordUsage (now : Int) (store : Store) (usage : Table UsageRecord) (usageId : String)
    (input : UsageInput) : Except Thrown UsageAnswer :=
  match input.check with
  | .error error => .error error
  | .ok () =>
      match store.getSubscription input.subscriptionId with
      | none => .error (notFound "subscription not found")
      | some subscription =>
          match askedInstant now input.askedAt with
          | .error error => .error error
          | .ok instant =>
              match store.findPeriodCovering subscription.subscriptionId instant with
              | none => .error (conflict "no period covers that instant")
              | some period =>
                  if period.status = .voided then
                    .error (conflict "period was voided and cannot accrue usage")
                  else
                    match findUsageByReference usage period.periodId (trim input.featureKey)
                      (trim input.usageReference) with
                    | some existing => .ok ⟨usage, existing, false⟩
                    | none =>
                        let row : UsageRecord :=
                          ⟨usageId, period.periodId, trim input.featureKey, input.quantity,
                            trim input.usageReference, instant⟩
                        match insertUsage store usage row with
                        | .error message => .error (.other message)
                        | .ok usage => .ok ⟨usage, row, true⟩

/-! ### What is counted -/

/-- What a repetition repeats. -/
@[ext] structure UsageKey where
  subscriptionId : String
  featureKey : String
  usageReference : String
  deriving DecidableEq, Repr

def UsageInput.key (input : UsageInput) : UsageKey :=
  ⟨input.subscriptionId, trim input.featureKey, trim input.usageReference⟩

/-- The record is of the key, in whichever period of the subscription. -/
def UsageRecord.isOf (store : Store) (key : UsageKey) (record : UsageRecord) : Bool :=
  record.featureKey = key.featureKey && record.usageReference = key.usageReference &&
    (store.getPeriod record.periodId).any (fun period => period.subscriptionId = key.subscriptionId)

/-- The quantity counted for a reference over all periods. -/
def counted (store : Store) (usage : Table UsageRecord) (key : UsageKey) : Int :=
  ((usage.values.filter (fun record => record.isOf store key)).map UsageRecord.quantity).sum

section Calls

variable {store : Store} {usage : Table UsageRecord} {now : Int} {usageId : String}
  {input : UsageInput}

theorem findUsage_some {periodId featureKey reference : String} {record : UsageRecord}
    (h : findUsageByReference usage periodId featureKey reference = some record) :
    record ∈ usage.values ∧ record.periodId = periodId ∧ record.featureKey = featureKey ∧
      record.usageReference = reference := by
  have hkeys := List.find?_some h
  simp only [Bool.and_eq_true, decide_eq_true_eq] at hkeys
  exact ⟨List.mem_of_find?_eq_some h, hkeys.1.1, hkeys.1.2, hkeys.2⟩

theorem findUsage_none {periodId featureKey reference : String}
    (h : findUsageByReference usage periodId featureKey reference = none) {record : UsageRecord}
    (hrecord : record ∈ usage.values) (hperiod : record.periodId = periodId)
    (hfeature : record.featureKey = featureKey) : record.usageReference ≠ reference := by
  intro hreference
  have hmissed := List.find?_eq_none.mp h record hrecord
  simp [hperiod, hfeature, hreference] at hmissed

/-- What a call that went through did: it found a record of its key in the covering period,
or it added one. -/
inductive UsageRecorded (now : Int) (store : Store) (usage : Table UsageRecord) (usageId : String)
    (input : UsageInput) : UsageAnswer → Prop where
  | found (record : UsageRecord) (hrecord : record ∈ usage.values)
      (hof : record.isOf store input.key = true) :
      UsageRecorded now store usage usageId input ⟨usage, record, false⟩
  | added (instant : Int) (period : SubscriptionPeriod) (subscription : Subscription)
      (hsubscription : store.getSubscription input.subscriptionId = some subscription)
      (hperiod : store.getPeriod period.periodId = some period)
      (hmine : period.subscriptionId = input.subscriptionId)
      (hnew : usage.get usageId = none) :
      UsageRecorded now store usage usageId input
        ⟨usage.put usageId ⟨usageId, period.periodId, input.key.featureKey, input.quantity,
            input.key.usageReference, instant⟩,
          ⟨usageId, period.periodId, input.key.featureKey, input.quantity,
            input.key.usageReference, instant⟩, true⟩

theorem insertUsage_ok {usage' : Table UsageRecord} {row : UsageRecord}
    (h : insertUsage store usage row = .ok usage') :
    usage.get row.usageId = none ∧ usage' = usage.put row.usageId row := by
  unfold insertUsage at h
  split at h
  · cases h
  split at h
  · cases h
  split at h
  · cases h
  rename_i hnew
  split at h
  · cases h
  · exact ⟨by simpa using hnew, (Except.ok.inj h).symm⟩

theorem recordUsage_recorded {answer : UsageAnswer} (hkeyed : store.Keyed)
    (h : recordUsage now store usage usageId input = .ok answer) :
    UsageRecorded now store usage usageId input answer := by
  unfold recordUsage at h
  split at h
  · cases h
  split at h
  · cases h
  rename_i subscription hsubscription
  split at h
  · cases h
  rename_i instant hinstant
  split at h
  · cases h
  rename_i period hfound
  obtain ⟨hstored, hmine, -⟩ := covering_stored hkeyed hfound
  have howner : subscription.subscriptionId = input.subscriptionId :=
    hkeyed.subscriptions _ _ hsubscription
  rw [howner] at hmine
  split at h
  · cases h
  split at h
  · rename_i existing hexisting
    obtain rfl := Except.ok.inj h
    obtain ⟨hrecord, hperiod, hfeature, hreference⟩ := findUsage_some hexisting
    refine .found existing hrecord ?_
    simp [UsageRecord.isOf, UsageInput.key, hfeature, hreference, hperiod, hstored, hmine]
  · dsimp only at h
    split at h
    · cases h
    · rename_i usage' hinsert
      obtain rfl := Except.ok.inj h
      obtain ⟨hnew, rfl⟩ := insertUsage_ok hinsert
      exact .added instant period subscription hsubscription hstored hmine hnew

end Calls

end WaslaCore.Billing
