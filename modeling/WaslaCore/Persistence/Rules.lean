import WaslaCore.Platform.Journal

/-!
What the reference backend refuses beyond a row's own columns and checks: a row that names one
which is not there, and a change the schema's triggers do not permit. A row is its columns, as
the rules read them.
-/

namespace WaslaCore.Platform.InMemory

open Data

section Cells

variable {N α : Type}

/-- The row a store keeps under a key. -/
def Memory.rowAt (memory : Memory N α) (store : N) (key : String) : Option α :=
  (memory.stores store).get key

variable [DecidableEq N]

/-- A row written under a key is all that changes. -/
theorem rowAt_write (memory : Memory N α) (store other : N) (key id : String) (row : α) :
    (memory.write (.row store key row)).rowAt other id =
      if store = other ∧ key = id then some row else memory.rowAt other id := by
  unfold Memory.rowAt Memory.write Memory.setStore
  by_cases hstore : store = other
  · subst hstore
    simp [Table.get_put]
  · simp [hstore, Function.update_of_ne (Ne.symm hstore)]

end Cells

end WaslaCore.Platform.InMemory

namespace WaslaCore.Persistence

open Platform Platform.InMemory Data

/-! ### Rows -/

/-- A column's value. `other` is any value that the rules only ever spell. -/
inductive Value where
  | null
  | text (value : String)
  | number (value : Int)
  | flag (value : Bool)
  | other (spelled : String)
  deriving DecidableEq, Repr

/-- `String(value)`. -/
def Value.spelled : Value → String
  | .null => "null"
  | .text value => value
  | .number value => toString value
  | .flag true => "true"
  | .flag false => "false"
  | .other spelled => spelled

abbrev Row := List (String × Value)

namespace Row

/-- `row[column]`, where the row has the column. -/
def value (row : Row) (column : String) : Option Value := row.lookup column

def text (row : Row) (field : String) : String :=
  match row.value field with
  | none => "undefined"
  | some value => value.spelled

/-- `Number(row[field])`, or nothing where that is `NaN`. The columns read so hold numbers. -/
def num (row : Row) (field : String) : Option Int :=
  match row.value field with
  | some .null => some 0
  | some (.number value) => some value
  | some (.flag value) => some (if value then 1 else 0)
  | some (.text _) => none
  | some (.other _) => none
  | none => none

/-- `null` and `undefined`. -/
def isNull (row : Row) (field : String) : Bool := (row.value field).all (· = .null)

end Row

/-- The tables that a store writes through `putRow`. -/
inductive RuledTable where
  | auditEntry
  | country
  | region
  | city
  | serviceArea
  | identity
  | identityLink
  | principal
  | membership
  | organization
  | wallet
  | paymentAuthorization
  | ledgerTransaction
  | ledgerEntry
  | fulfillment
  | outbox
  | inboundEvent
  | eventSubscription
  | eventDelivery
  | notificationRecipient
  | notification
  | plan
  | subscription
  | subscriptionPeriod
  | planGrant
  | usageRecord
  | session
  | inbox
  | idempotencyKey
  | rateLimitCounter
  | reputationSignal
  deriving DecidableEq, Repr

def RuledTable.name : RuledTable → String
  | .auditEntry => "audit_entry"
  | .country => "country"
  | .region => "region"
  | .city => "city"
  | .serviceArea => "service_area"
  | .identity => "identity"
  | .identityLink => "identity_link"
  | .principal => "principal"
  | .membership => "membership"
  | .organization => "organization"
  | .wallet => "wallet"
  | .paymentAuthorization => "payment_authorization"
  | .ledgerTransaction => "ledger_transaction"
  | .ledgerEntry => "ledger_entry"
  | .fulfillment => "fulfillment"
  | .outbox => "outbox"
  | .inboundEvent => "inbound_event"
  | .eventSubscription => "event_subscription"
  | .eventDelivery => "event_delivery"
  | .notificationRecipient => "notification_recipient"
  | .notification => "notification"
  | .plan => "plan"
  | .subscription => "subscription"
  | .subscriptionPeriod => "subscription_period"
  | .planGrant => "plan_grant"
  | .usageRecord => "usage_record"
  | .session => "session"
  | .inbox => "inbox"
  | .idempotencyKey => "idempotency_key"
  | .rateLimitCounter => "rate_limit_counter"
  | .reputationSignal => "reputation_signal"

abbrev Database := Memory RuledTable Row

/-- Whether a store of the bundle attaches the table to the registry. -/
def RuledTable.attached : RuledTable → Bool
  | .auditEntry | .ledgerEntry | .inboundEvent | .inbox | .idempotencyKey | .rateLimitCounter =>
      false
  | _ => true

/-! ### Foreign keys -/

structure ForeignKeyRule where
  constraint : String
  column : String
  parent : RuledTable
  nullable : Bool

def fk (constraint column : String) (parent : RuledTable) (nullable : Bool) : ForeignKeyRule :=
  ⟨constraint, column, parent, nullable⟩

/-- `FOREIGN_KEYS`. -/
def foreignKeys : RuledTable → List ForeignKeyRule
  | .region => [fk "region_country_code_fkey" "country_code" .country false]
  | .city =>
      [fk "city_country_code_fkey" "country_code" .country false,
        fk "city_region_id_fkey" "region_id" .region false]
  | .serviceArea =>
      [fk "service_area_city_id_fkey" "city_id" .city false,
        fk "service_area_country_code_fkey" "country_code" .country false]
  | .identity =>
      [fk "identity_canonical_identity_id_fkey" "canonical_identity_id" .identity true]
  | .identityLink => [fk "identity_link_identity_id_fkey" "identity_id" .identity false]
  | .principal => [fk "principal_identity_id_fkey" "identity_id" .identity false]
  | .session => [fk "session_principal_id_fkey" "principal_id" .principal false]
  | .membership =>
      [fk "membership_organization_id_fkey" "organization_id" .organization false,
        fk "membership_principal_id_fkey" "principal_id" .principal false]
  | .paymentAuthorization =>
      [fk "payment_authorization_wallet_id_fkey" "wallet_id" .wallet false]
  | .ledgerTransaction =>
      [fk "ledger_transaction_authorization_id_fkey" "authorization_id" .paymentAuthorization true]
  | .fulfillment =>
      [fk "fulfillment_organization_id_fkey" "organization_id" .organization false,
        fk "fulfillment_payment_authorization_id_fkey" "payment_authorization_id"
          .paymentAuthorization true]
  | .eventDelivery =>
      [fk "event_delivery_event_id_fkey" "event_id" .outbox false,
        fk "event_delivery_subscription_id_fkey" "subscription_id" .eventSubscription false]
  | .notificationRecipient =>
      [fk "notification_recipient_identity_id_fkey" "identity_id" .identity false,
        fk "notification_recipient_organization_id_fkey" "organization_id" .organization true]
  | .notification =>
      [fk "notification_event_id_fkey" "event_id" .outbox false,
        fk "notification_organization_id_fkey" "organization_id" .organization true,
        fk "notification_recipient_id_fkey" "recipient_id" .notificationRecipient false]
  | .planGrant => [fk "plan_grant_plan_id_fkey" "plan_id" .plan false]
  | .subscription =>
      [fk "subscription_plan_id_fkey" "plan_id" .plan false,
        fk "subscription_wallet_id_fkey" "wallet_id" .wallet false]
  | .subscriptionPeriod =>
      [fk "subscription_period_subscription_id_fkey" "subscription_id" .subscription false,
        fk "subscription_period_authorization_id_fkey" "authorization_id" .paymentAuthorization
          true]
  | .usageRecord => [fk "usage_record_period_id_fkey" "period_id" .subscriptionPeriod false]
  | .reputationSignal =>
      [fk "reputation_signal_organization_id_fkey" "organization_id" .organization false]
  | _ => []

/-- One key of `assertReferences`. A null names nothing, whether or not the column admits it. -/
def ForeignKeyRule.check (rule : ForeignKeyRule) (table : RuledTable) (row : Row)
    (database : Database) : Except String Unit :=
  match row.value rule.column with
  | none =>
      .error ("foreign key \"" ++ rule.constraint ++ "\" reads \"" ++ rule.column ++
        "\", which relation \"" ++ table.name ++ "\" no longer has")
  | some .null => .ok ()
  | some value =>
      if !rule.parent.attached then .ok ()
      else if (database.rowAt rule.parent value.spelled).isSome then .ok ()
      else .error ("insert or update on table \"" ++ table.name ++
        "\" violates foreign key constraint \"" ++ rule.constraint ++ "\"")

def assertReferences (table : RuledTable) (row : Row) (database : Database) : Except String Unit :=
  if table.attached then (foreignKeys table).forM fun rule => rule.check table row database
  else .ok ()

/-! ### Transitions -/

inductive TransitionOp where
  | insert
  | update
  deriving DecidableEq, Repr

/-- A row of another table, as the registry finds it. -/
abbrev ParentReader := RuledTable → String → Option Row

structure TransitionRule where
  trigger : String
  on : List TransitionOp
  reads : List RuledTable
  refusal : TransitionOp → Row → Option Row → ParentReader → Option String

/-- `!==` of two numbers, of which `NaN` is none equal to itself. -/
def numbersDiffer : Option Int → Option Int → Bool
  | some left, some right => left ≠ right
  | _, _ => true

/-- Whether the commercial terms moved. -/
def termsMoved (previous next : Row) : Bool :=
  previous.text "code" ≠ next.text "code" || previous.text "currency" ≠ next.text "currency" ||
    numbersDiffer (previous.num "amount_minor") (next.num "amount_minor") ||
    previous.text "billing_interval" ≠ next.text "billing_interval" ||
    numbersDiffer (previous.num "interval_count") (next.num "interval_count")

def planTermsImmutable : TransitionRule where
  trigger := "plan_terms_immutable"
  on := [.update]
  reads := []
  refusal := fun _ next previous _ =>
    match previous with
    | none => none
    | some previous =>
        let was := previous.text "status"
        let now := next.text "status"
        let id := next.text "plan_id"
        if was = "retired" ∧ now ≠ "retired" then
          some ("plan " ++ id ++ " is retired and cannot return to " ++ now)
        else if now = "draft" ∧ was ≠ "draft" then
          some ("plan " ++ id ++ " has been offered and cannot return to draft")
        else if was = "draft" then none
        else if termsMoved previous next then
          some ("plan " ++ id ++ " is " ++ was ++ "; its commercial terms cannot change because " ++
            "periods have already been priced from them - publish a new plan instead")
        else none

def planGrantImmutable : TransitionRule where
  trigger := "plan_grant_immutable"
  on := [.insert, .update]
  reads := [.plan]
  refusal := fun _ next _ parent =>
    let planId := next.text "plan_id"
    match parent .plan planId with
    | none => none
    | some plan =>
        let status := plan.text "status"
        if status = "draft" then none
        else some ("plan " ++ planId ++ " is " ++ status ++ "; its grants cannot change because " ++
          "usage has already been measured against them - publish a new plan instead")

/-- A retired plan keeps its subscriptions, so an update is judged by its currency alone. -/
def subscriptionCurrencyCheck : TransitionRule where
  trigger := "subscription_currency_check"
  on := [.insert, .update]
  reads := [.plan, .wallet]
  refusal := fun op next _ parent =>
    let planId := next.text "plan_id"
    match parent .plan planId, parent .wallet (next.text "wallet_id") with
    | some plan, some wallet =>
        let planCurrency := trim (plan.text "currency")
        let walletCurrency := trim (wallet.text "currency")
        if planCurrency ≠ walletCurrency then
          some ("subscription " ++ next.text "subscription_id" ++ " bills a " ++ planCurrency ++
            " plan against a " ++ walletCurrency ++ " wallet")
        else
          let status := plan.text "status"
          if op = .insert ∧ status ≠ "active" then
            some ("plan " ++ planId ++ " is " ++ status ++ ", so it cannot be subscribed to")
          else none
    | _, _ => none

/-- An instant that does not parse is neither before the window nor after it. -/
def usageWithinPeriod (parse : String → Option Int) : TransitionRule where
  trigger := "usage_record_within_period"
  on := [.insert]
  reads := [.subscriptionPeriod]
  refusal := fun _ next _ parent =>
    let periodId := next.text "period_id"
    match parent .subscriptionPeriod periodId with
    | none => none
    | some period =>
        if period.text "status" = "voided" then
          some ("period " ++ periodId ++ " was voided and cannot accrue usage")
        else
          let at_ := parse (next.text "recorded_at")
          let starts := parse (period.text "starts_at")
          let ends := parse (period.text "ends_at")
          let before := at_.any fun instant => starts.any fun start => instant < start
          let after := at_.any fun instant => ends.any fun stop => stop ≤ instant
          if before || after then
            some ("usage recorded at " ++ next.text "recorded_at" ++ " falls outside period " ++
              periodId ++ " (" ++ period.text "starts_at" ++ " to " ++ period.text "ends_at" ++ ")")
          else none

/-- The fields of a signal that no update may touch. -/
def frozenFields : List String :=
  ["reputation_signal_id", "organization_id", "subject_type", "subject_id", "signal_kind",
    "rating_value", "source_system", "source_reference", "occurred_at", "recorded_at",
    "correlation_id"]

def reputationAppendOnly : TransitionRule where
  trigger := "reputation_signal_append_only"
  on := [.update]
  reads := []
  refusal := fun _ next previous _ =>
    match previous with
    | none => none
    | some previous =>
        let id := previous.text "reputation_signal_id"
        if !previous.isNull "retracted_at" then
          some ("reputation signal " ++ id ++ " was already retracted at " ++
            previous.text "retracted_at" ++ "; a retraction is single-valued")
        else if frozenFields.any fun field => previous.value field ≠ next.value field then
          some ("reputation_signal is append-only; only the retraction marker may be written " ++
            "after insert")
        else if next.isNull "retracted_at" then some "a reputation signal may not be un-retracted"
        else none

/-- `TRANSITION_RULES`. -/
def transitionRules (parse : String → Option Int) : RuledTable → List TransitionRule
  | .plan => [planTermsImmutable]
  | .planGrant => [planGrantImmutable]
  | .subscription => [subscriptionCurrencyCheck]
  | .usageRecord => [usageWithinPeriod parse]
  | .reputationSignal => [reputationAppendOnly]
  | _ => []

/-- What one rule says of a write, where it judges the operation and can read what it reads. -/
def TransitionRule.check (rule : TransitionRule) (op : TransitionOp) (next : Row)
    (previous : Option Row) (parent : ParentReader) : Except String Unit :=
  if op ∉ rule.on then .ok ()
  else if rule.reads.any fun table => !table.attached then .ok ()
  else
    match rule.refusal op next previous parent with
    | some refusal => .error refusal
    | none => .ok ()

def assertTransition (parse : String → Option Int) (table : RuledTable) (previous : Option Row)
    (next : Row) (database : Database) : Except String Unit :=
  let op := if previous.isNone then TransitionOp.insert else .update
  (transitionRules parse table).forM fun rule => rule.check op next previous database.rowAt

/-! ### Writes -/

/-- What is left of `putRow` once a row is admitted: the columns and the checks, which read
nothing but the row, come first and refuse what `rowRules` refuses. -/
def putRules (rowRules : RuledTable → Row → Except String Unit) (parse : String → Option Int)
    (database : Database) (table : RuledTable) (key : String) (row : Row) : Except String Unit := do
  rowRules table row
  assertReferences table row database
  assertTransition parse table (database.rowAt table key) row database

def putRow (rowRules : RuledTable → Row → Except String Unit) (parse : String → Option Int)
    (database : Database) (table : RuledTable) (key : String) (row : Row) :
    Except String Database := do
  putRules rowRules parse database table key row
  pure (database.write (.row table key row))

/-! ### What an accepted write found -/

section Accepted

variable {rowRules : RuledTable → Row → Except String Unit} {parse : String → Option Int}
variable {database after : Database} {table : RuledTable} {key : String} {row : Row}

theorem forM_ok {α : Type} {check : α → Except String Unit} {list : List α} :
    list.forM check = .ok () ↔ ∀ item ∈ list, check item = .ok () := by
  induction list with
  | nil =>
      rw [List.forM_eq_forM, List.forM_nil]
      simp [pure, Except.pure]
  | cons first rest ih =>
      rw [List.forM_eq_forM] at ih ⊢
      rw [List.forM_cons]
      cases hfirst : check first with
      | error message =>
          constructor
          · intro h
            cases h
          · intro hall
            rw [hall first List.mem_cons_self] at hfirst
            cases hfirst
      | ok _ =>
          constructor
          · intro hrest item hitem
            rcases List.mem_cons.mp hitem with rfl | hmember
            · exact hfirst
            · exact ih.mp hrest item hmember
          · exact fun hall => ih.mpr fun item hitem => hall item (List.mem_cons_of_mem _ hitem)

theorem putRules_ok (h : putRules rowRules parse database table key row = .ok ()) :
    assertReferences table row database = .ok () ∧
      assertTransition parse table (database.rowAt table key) row database = .ok () := by
  unfold putRules at h
  cases hrow : rowRules table row with
  | error message => rw [hrow] at h; cases h
  | ok _ =>
      rw [hrow] at h
      cases hreferences : assertReferences table row database with
      | error message => rw [hreferences] at h; cases h
      | ok _ =>
          rw [hreferences] at h
          exact ⟨rfl, h⟩

/-- An accepted write passed its rules and changed one row. -/
theorem putRow_ok (h : putRow rowRules parse database table key row = .ok after) :
    putRules rowRules parse database table key row = .ok () ∧
      after = database.write (.row table key row) := by
  unfold putRow at h
  cases hrules : putRules rowRules parse database table key row with
  | error message => rw [hrules] at h; cases h
  | ok _ =>
      rw [hrules] at h
      exact ⟨rfl, (Except.ok.inj h).symm⟩

/-- A rule that judges the operation did not refuse it. -/
theorem transition_permits
    (h : assertTransition parse table (database.rowAt table key) row database = .ok ())
    (rule : TransitionRule) (hrule : rule ∈ transitionRules parse table)
    (hattached : ∀ read ∈ rule.reads, read.attached = true)
    (hop : (if (database.rowAt table key).isNone then TransitionOp.insert else .update) ∈ rule.on) :
    rule.refusal (if (database.rowAt table key).isNone then .insert else .update) row
      (database.rowAt table key) database.rowAt = none := by
  have hcheck := forM_ok.mp h rule hrule
  rw [TransitionRule.check, if_neg (not_not_intro hop), if_neg] at hcheck
  · split at hcheck
    · cases hcheck
    · assumption
  · simpa using hattached

end Accepted

end WaslaCore.Persistence
