import WaslaCore.Platform.Errors

/-!
The fulfillment coordination rows: a lifecycle status, the money state it must
agree with, and what CORE can say about the money behind a fulfillment.
-/

namespace WaslaCore.Fulfillment

inductive FulfillmentStatus where
  | coordinating
  | dispatched
  | completed
  | failed
  | cancelled
  deriving DecidableEq, Repr

def FulfillmentStatus.text : FulfillmentStatus → String
  | .coordinating => "coordinating"
  | .dispatched => "dispatched"
  | .completed => "completed"
  | .failed => "failed"
  | .cancelled => "cancelled"

/-- Where the money that guards a fulfillment stands, as known by CORE. -/
inductive SettlementState where
  | none
  | held
  | captured
  | partiallyCaptured
  | released
  | unsettled
  deriving DecidableEq, Repr

def SettlementState.text : SettlementState → String
  | .none => "none"
  | .held => "held"
  | .captured => "captured"
  | .partiallyCaptured => "partially_captured"
  | .released => "released"
  | .unsettled => "unsettled"

structure Fulfillment where
  fulfillmentId : String
  organizationId : String
  marketOrderReference : String
  moveJobReference : Option String
  paymentAuthorizationId : Option String
  status : FulfillmentStatus
  settlementState : SettlementState
  createdAt : Int
  completedAt : Option Int
  closureReason : Option String
  executedAfterCancellationAt : Option Int
  executedAfterCancellationJobReference : Option String
  deriving DecidableEq, Repr

def isClosed : FulfillmentStatus → Bool
  | .completed => true
  | .failed => true
  | .cancelled => true
  | .coordinating => false
  | .dispatched => false

/-- Every status a fulfillment can hold, in lifecycle order. -/
def allStatuses : List FulfillmentStatus :=
  [.coordinating, .dispatched, .completed, .failed, .cancelled]

/-- The statuses from which a fulfillment can still be closed. -/
def openStatuses : List FulfillmentStatus := allStatuses.filter (fun status => !isClosed status)

theorem mem_openStatuses {status : FulfillmentStatus} :
    status ∈ openStatuses ↔ isClosed status = false := by
  cases status <;> simp [openStatuses, allStatuses, isClosed]

inductive FinancialDisposition where
  | noMoney
  | awaitingExecution
  | settled
  | decisionRequired
  | inconsistent
  deriving DecidableEq, Repr

/-- What CORE can say about the money behind a fulfillment, never stored. -/
def financialDisposition (fulfillment : Fulfillment) : FinancialDisposition :=
  let settlement := fulfillment.settlementState
  if settlement = .unsettled then .inconsistent
  else if !isClosed fulfillment.status then
    if settlement = .none then .noMoney
    else if settlement = .held then .awaitingExecution else .inconsistent
  else if settlement = .held then .inconsistent
  else if fulfillment.executedAfterCancellationAt.isSome then .decisionRequired
  else if settlement = .none then .noMoney
  else if fulfillment.status = .completed then
    if settlement = .captured ∨ settlement = .partiallyCaptured then .settled else .inconsistent
  else if settlement = .released then .settled
  else if settlement = .partiallyCaptured then .decisionRequired
  else .inconsistent

def requiresFinancialDecision (fulfillment : Fulfillment) : Bool :=
  financialDisposition fulfillment = .decisionRequired

/-- The pairs of lifecycle status and money state a row may hold. -/
def settlementAligned : FulfillmentStatus → SettlementState → Bool
  | .coordinating, settlement => settlement = .none || settlement = .held
  | .dispatched, settlement => settlement = .none || settlement = .held
  | .completed, settlement =>
      settlement = .none || settlement = .captured || settlement = .partiallyCaptured ||
        settlement = .unsettled
  | .failed, settlement =>
      settlement = .none || settlement = .released || settlement = .partiallyCaptured ||
        settlement = .unsettled
  | .cancelled, settlement =>
      settlement = .none || settlement = .released || settlement = .partiallyCaptured ||
        settlement = .unsettled

/-- The row checks of the table. -/
def assertRow (row : Fulfillment) : Except String Unit :=
  if !settlementAligned row.status row.settlementState then
    .error "new row for relation \"fulfillment\" violates check constraint \"fulfillment_settlement_alignment_check\""
  else if row.executedAfterCancellationAt.isNone ≠
      row.executedAfterCancellationJobReference.isNone then
    .error "new row for relation \"fulfillment\" violates check constraint \"fulfillment_execution_after_cancellation_check\""
  else if row.executedAfterCancellationAt.isSome && row.status ≠ .cancelled then
    .error "new row for relation \"fulfillment\" violates check constraint \"fulfillment_execution_after_cancellation_status_check\""
  else .ok ()

/-- The row checks as one condition. -/
theorem assertRow_ok {row : Fulfillment} :
    assertRow row = .ok () ↔
      settlementAligned row.status row.settlementState = true ∧
        (row.executedAfterCancellationAt.isNone ↔
          row.executedAfterCancellationJobReference.isNone) ∧
        (row.executedAfterCancellationAt.isSome → row.status = .cancelled) := by
  unfold assertRow
  cases haligned : settlementAligned row.status row.settlementState with
  | false => simp
  | true =>
      cases row.executedAfterCancellationAt <;> cases row.executedAfterCancellationJobReference <;>
        simp

end WaslaCore.Fulfillment
