import WaslaCore.Money.Service

/-!
The fulfillment service, wired to the money service as production wires it. A
closure stages the settlement of the hold, the row, the event and the audit
entry on one unit of work; the row write is conditional, and a call that loses
it answers from the row that won. Inbound payloads are canonical already: what
normalisation refuses never reaches a consumer.
-/

namespace WaslaCore.Fulfillment

open WaslaCore.Platform WaslaCore.Interleaving

structure MarketOrderCreatedPayload where
  orderId : String
  organizationId : String
  requestedService : String
  paymentAuthorizationId : Option String

structure MoveJobAcceptedPayload where
  fulfillmentId : String
  jobId : String
  acceptedAt : Int

structure MoveJobRejectedPayload where
  fulfillmentId : String
  reason : String
  rejectedAt : Int

inductive JobOutcome where
  | completed
  | failed
  deriving DecidableEq, Repr

structure MoveJobCompletedPayload where
  fulfillmentId : String
  jobId : String
  outcome : JobOutcome
  completedAt : Int

structure CancelInput where
  fulfillmentId : String
  reason : String

/-! ### Reads -/

def get (fulfillmentId : String) : Call (Option Fulfillment) := read (.getFulfillment fulfillmentId)

def findByOrderReference (orderReference : String) : Call (Option Fulfillment) :=
  read (.findByOrderReference orderReference)

def require (fulfillmentId : String) : Call Fulfillment := do
  match ← get fulfillmentId with
  | none => throw (notFound "fulfillment not found")
  | some fulfillment => pure fulfillment

/-! ### Events and audit entries -/

def auditEntry (action : String) (fulfillment : Fulfillment) (extra : Payload) : AuditEntry :=
  ⟨action, "fulfillment", fulfillment.fulfillmentId,
    [("status", .text fulfillment.status.text),
      ("settlement_state", .text fulfillment.settlementState.text)] ++ extra⟩

/-- The amount is present only when CORE observed one. -/
def moneyFacts (fulfillment : Fulfillment) (capturedMinor : Option Int) : Payload :=
  [("settlement_state", .text fulfillment.settlementState.text),
    ("financial_decision_required", .flag (requiresFinancialDecision fulfillment))] ++
  match capturedMinor with
  | none => []
  | some amount => [("captured_minor", .number amount)]

/-- The closure event: one for cancellations, one for every other outcome. -/
def closureEvent (fulfillment : Fulfillment) (capturedMinor : Option Int) : Event :=
  if fulfillment.status = .cancelled then
    ⟨"core.fulfillment.cancelled", "fulfillment", fulfillment.fulfillmentId,
      [("fulfillment_id", .text fulfillment.fulfillmentId),
        ("organization_id", .text fulfillment.organizationId),
        ("order_reference", .text fulfillment.marketOrderReference),
        ("reason", .text (fulfillment.closureReason.getD "cancelled")),
        ("cancelled_at", .optionalNumber fulfillment.completedAt)] ++
      moneyFacts fulfillment capturedMinor⟩
  else
    ⟨"core.fulfillment.completed", "fulfillment", fulfillment.fulfillmentId,
      [("fulfillment_id", .text fulfillment.fulfillmentId),
        ("organization_id", .text fulfillment.organizationId),
        ("order_reference", .text fulfillment.marketOrderReference),
        ("outcome", .text fulfillment.status.text),
        ("completed_at", .optionalNumber fulfillment.completedAt),
        ("reason", .optionalText fulfillment.closureReason)] ++
      moneyFacts fulfillment capturedMinor⟩

def createdEvent (fulfillment : Fulfillment) (requestedService : String) : Event :=
  ⟨"core.fulfillment.created", "fulfillment", fulfillment.fulfillmentId,
    [("fulfillment_id", .text fulfillment.fulfillmentId),
      ("organization_id", .text fulfillment.organizationId),
      ("order_reference", .text fulfillment.marketOrderReference),
      ("requested_service", .text requestedService)]⟩

def dispatchedEvent (fulfillment : Fulfillment) (payload : MoveJobAcceptedPayload) : Event :=
  ⟨"core.fulfillment.dispatched", "fulfillment", fulfillment.fulfillmentId,
    [("fulfillment_id", .text fulfillment.fulfillmentId),
      ("organization_id", .text fulfillment.organizationId),
      ("order_reference", .text fulfillment.marketOrderReference),
      ("job_reference", .text payload.jobId), ("dispatched_at", .number payload.acceptedAt)]⟩

def executedAfterCancellationEvent (fulfillment : Fulfillment)
    (payload : MoveJobCompletedPayload) : Event :=
  ⟨"core.fulfillment.executed_after_cancellation", "fulfillment", fulfillment.fulfillmentId,
    [("fulfillment_id", .text fulfillment.fulfillmentId),
      ("organization_id", .text fulfillment.organizationId),
      ("order_reference", .text fulfillment.marketOrderReference),
      ("job_id", .text payload.jobId), ("executed_at", .number payload.completedAt),
      ("cancelled_at", .optionalNumber fulfillment.completedAt),
      ("cancellation_reason", .optionalText fulfillment.closureReason),
      ("settlement_state", .text fulfillment.settlementState.text),
      ("financial_decision_required", .flag true)]⟩

/-! ### What each path stages -/

def stageCreated (uow : Work) (fulfillment : Fulfillment) (requestedService : String) : Work :=
  ((uow.stage [.fulfillment (.intake fulfillment)]).emit
    (createdEvent fulfillment requestedService)).audit (auditEntry "fulfillment.created" fulfillment [])

def stageRefused (uow : Work) (refused : Fulfillment) (capturedMinor : Option Int)
    (extra : Payload) : Work :=
  ((uow.stage [.fulfillment (.intake refused)]).emit (closureEvent refused capturedMinor)).audit
    (auditEntry "fulfillment.refused" refused extra)

def stageDispatched (uow : Work) (updated : Fulfillment) (payload : MoveJobAcceptedPayload) : Work :=
  ((uow.stage [.fulfillment (.transition updated [.coordinating])]).emit
    (dispatchedEvent updated payload)).audit (auditEntry "fulfillment.dispatched" updated [])

def stageClosed (uow : Work) (closed : Fulfillment) (capturedMinor : Option Int)
    (action : String) : Work :=
  ((uow.stage [.fulfillment (.transition closed openStatuses)]).emit
    (closureEvent closed capturedMinor)).audit (auditEntry action closed [])

def stageTraced (uow : Work) (traced : Fulfillment) : Work :=
  (uow.stage [.fulfillment (.update traced)]).audit
    (auditEntry "fulfillment.acceptance_after_cancellation" traced [])

def stageMarked (uow : Work) (cancelled : Fulfillment) (payload : MoveJobCompletedPayload) : Work :=
  let marked := markRow cancelled payload.completedAt payload.jobId
  ((uow.stage [.fulfillment (.mark cancelled.fulfillmentId payload.completedAt payload.jobId)]).emit
    (executedAfterCancellationEvent marked payload)).audit
    (auditEntry "fulfillment.executed_after_cancellation" marked
      [("job_id", .text payload.jobId), ("executed_at", .number payload.completedAt),
        ("cancelled_at", .optionalNumber cancelled.completedAt),
        ("cancellation_reason", .optionalText cancelled.closureReason),
        ("financial_decision_required", .flag true)])

/-! ### Settling the hold -/

/-- Where the money ended up, and the amount where CORE was told one. -/
structure SettlementOutcome where
  settlement : SettlementState
  capturedMinor : Option Int
  deriving DecidableEq, Repr

/-- Releases the hold. A void that cannot be applied leaves an audit entry of its
own, outside the unit of work on purpose, and the closure proceeds unsettled. -/
def release (uow : Work) (fulfillment : Fulfillment) (reason : String) :
    Call (Work × SettlementOutcome) :=
  match fulfillment.paymentAuthorizationId with
  | none => pure (uow, ⟨.none, none⟩)
  | some hold =>
      tryCatch
        (do
          let (uow, voided) ← Money.voidWithin uow ⟨hold, reason⟩
          pure (uow, ⟨if 0 < voided.capturedMinor then .partiallyCaptured else .released,
            some voided.capturedMinor⟩))
        (fun error => do
          recordAudit ⟨"fulfillment.settlement_inconsistent", "fulfillment",
            fulfillment.fulfillmentId,
            [("hold_reference", .text hold), ("attempted", .text "void"),
              ("release_reason", .text reason), ("error", .text error.message)]⟩
          pure (uow, ⟨.unsettled, none⟩))

/-- What `settle` reports: the outcome, and why the capture was refused if it was. -/
structure Settled where
  outcome : SettlementOutcome
  refusal : Option String

/-- Captures the hold; a capture that is refused releases it instead. -/
def settle (uow : Work) (fulfillment : Fulfillment) : Call (Work × Settled) :=
  match fulfillment.paymentAuthorizationId with
  | none => pure (uow, ⟨⟨.none, none⟩, none⟩)
  | some hold =>
      tryCatch
        (do
          let (uow, captured) ← Money.captureHoldWithin uow ⟨hold, none, none⟩
          pure (uow, ⟨⟨if captured.status = .captured then .captured else .partiallyCaptured,
            some captured.capturedMinor⟩, none⟩))
        (fun error => do
          let (uow, released) ← release uow fulfillment ("settlement_failed:" ++ error.message)
          pure (uow, ⟨released, some ("payment_settlement_failed:" ++ error.message)⟩))

structure HoldInspection where
  usable : Bool
  known : Bool
  settlement : SettlementState
  reason : Option String
  capturedMinor : Option Int
  deriving DecidableEq, Repr

/-- What intake makes of a hold it could read. -/
def inspectRow (now : Int) (authorization : Money.PaymentAuthorization) : HoldInspection :=
  match authorization.status with
  | .captured =>
      ⟨false, true, .unsettled, some "payment_hold_already_captured",
        some authorization.capturedMinor⟩
  | .partiallyCaptured =>
      ⟨false, true, .partiallyCaptured, some "payment_hold_partially_captured",
        some authorization.capturedMinor⟩
  | .voided =>
      ⟨false, true, .released, some "payment_hold_not_authorized",
        some authorization.capturedMinor⟩
  | .authorized =>
      if Money.isExpired now authorization then
        ⟨false, true, .held, some "payment_hold_expired", some authorization.capturedMinor⟩
      else ⟨true, true, .held, none, some authorization.capturedMinor⟩

def unknownHold : HoldInspection :=
  ⟨false, false, .none, some "payment_hold_not_found", none⟩

/-- Any failure to read the hold counts as a hold CORE does not have. -/
def inspectHold : Option String → Call HoldInspection
  | none => pure ⟨true, true, .none, none, none⟩
  | some hold => do
      let found ← tryCatch (Money.getAuthorization hold) (fun _ => pure none)
      match found with
      | none => pure unknownHold
      | some authorization =>
          let now ← clock
          pure (inspectRow now authorization)

/-! ### Transitions and intakes -/

/-- Runs a transition and, if another transaction got there first, answers from
the row that committed. -/
def transition (body : Work → Call (Work × Fulfillment))
    (whenLost : Fulfillment → Call Fulfillment) : Call Fulfillment :=
  tryCatch (withTransaction body)
    (fun error =>
      match error with
      | .transitionLost fulfillmentId => do
          let winner ← require fulfillmentId
          whenLost winner
      | other => throw other)

/-- Runs an intake and, if another transaction created the row, answers with it. -/
def intake (body : Work → Call (Work × Fulfillment)) : Call Fulfillment :=
  tryCatch (withTransaction body)
    (fun error =>
      match error with
      | .intakeLost orderReference => do
          match ← findByOrderReference orderReference with
          | none => throw (conflict "fulfillment for this order is not readable yet")
          | some winner => pure winner
      | other => throw other)

def rejectionOn (closed : Fulfillment) : Call Fulfillment :=
  if closed.status = .failed then pure closed
  else throw (conflict "fulfillment is already closed")

def cancellationOn (closed : Fulfillment) : Call Fulfillment :=
  if closed.status = .cancelled then pure closed
  else throw (conflict "fulfillment is already closed")

/-- MOVE reported work for a fulfillment CORE had already cancelled: the fact is
recorded once, and no money moves. -/
def recordExecutionAfterCancellation (cancelled : Fulfillment)
    (payload : MoveJobCompletedPayload) : Call Fulfillment :=
  if payload.outcome ≠ .completed then pure cancelled
  else if cancelled.executedAfterCancellationAt.isSome then pure cancelled
  else
    tryCatch
      (withTransaction (fun uow => pure
        (stageMarked uow cancelled payload, markRow cancelled payload.completedAt payload.jobId)))
      (fun error =>
        match error with
        | .transitionLost _ => require cancelled.fulfillmentId
        | other => throw other)

def completionOn (closed : Fulfillment) (payload : MoveJobCompletedPayload) : Call Fulfillment :=
  if closed.status = .cancelled then recordExecutionAfterCancellation closed payload
  else if closed.moveJobReference ≠ some payload.jobId then
    throw (conflict "fulfillment already closed by another job")
  else pure closed

/-- An acceptance that finds the fulfillment moved on. A cancelled row still
records the job, by a write that is unconditional on purpose. -/
def acceptanceOn (current : Fulfillment) (jobId : String) : Call Fulfillment :=
  if current.status = .dispatched then
    if current.moveJobReference ≠ some jobId then
      throw (conflict "fulfillment already dispatched to another job")
    else pure current
  else if current.status ≠ .cancelled then throw (conflict "fulfillment is already closed")
  else if current.moveJobReference = some jobId then pure current
  else do
    let traced : Fulfillment := { current with moveJobReference := some jobId }
    withTransaction (fun uow => pure (stageTraced uow traced, ()))
    pure traced

/-- The closing row of a rejection or a cancellation, staged beside the money. -/
def closeWithin (uow : Work) (current : Fulfillment) (status : FulfillmentStatus)
    (reason : Option String) (settled : SettlementOutcome) : Call (Work × Fulfillment) := do
  let completedAt ← clock
  let closed : Fulfillment :=
    { current with
      status := status
      settlementState := settled.settlement
      completedAt := some completedAt
      closureReason := reason }
  let action := if status = .cancelled then "fulfillment.cancelled" else "fulfillment.closed"
  pure (stageClosed uow closed settled.capturedMinor action, closed)

/-! ### The operations -/

/-- The row an order is taken up as, before the hold's usability is considered. -/
def coordinatingRow (fulfillmentId : String) (payload : MarketOrderCreatedPayload)
    (hold : HoldInspection) (createdAt : Int) : Fulfillment :=
  { fulfillmentId := fulfillmentId
    organizationId := payload.organizationId
    marketOrderReference := payload.orderId
    moveJobReference := none
    paymentAuthorizationId := if hold.known then payload.paymentAuthorizationId else none
    status := .coordinating
    settlementState := hold.settlement
    createdAt := createdAt
    completedAt := none
    closureReason := none
    executedAfterCancellationAt := none
    executedAfterCancellationJobReference := none }

/-- A refused order must not leave money parked: a hold that is still authorized
is released as part of the refusal. -/
def releaseRefused (uow : Work) (fulfillment : Fulfillment) (hold : HoldInspection) :
    Call (Work × SettlementOutcome) :=
  if hold.settlement = .held then
    release uow fulfillment ("refused:" ++ hold.reason.getD "null")
  else pure (uow, ⟨hold.settlement, hold.capturedMinor⟩)

def refuseWithin (uow : Work) (fulfillment : Fulfillment) (hold : HoldInspection)
    (declared : Option String) : Call (Work × Fulfillment) := do
  let (uow, outcome) ← releaseRefused uow fulfillment hold
  let completedAt ← clock
  let refused : Fulfillment :=
    { fulfillment with
      status := .failed
      settlementState := outcome.settlement
      completedAt := some completedAt
      closureReason := hold.reason }
  let extra : Payload :=
    [("refusal_reason", .optionalText hold.reason)] ++
      if hold.known then [] else [("unresolved_hold_reference", .optionalText declared)]
  pure (stageRefused uow refused outcome.capturedMinor extra, refused)

def consumeMarketOrder (payload : MarketOrderCreatedPayload) : Call Fulfillment := do
  match ← findByOrderReference payload.orderId with
  | some existing => pure existing
  | none =>
      let hold ← inspectHold payload.paymentAuthorizationId
      let fulfillmentId ← newId
      let createdAt ← clock
      let fulfillment := coordinatingRow fulfillmentId payload hold createdAt
      if !hold.usable then
        intake (fun uow => refuseWithin uow fulfillment hold payload.paymentAuthorizationId)
      else
        intake (fun uow => pure
          (stageCreated uow fulfillment payload.requestedService, fulfillment))

def consumeJobAccepted (payload : MoveJobAcceptedPayload) : Call Fulfillment := do
  let current ← require payload.fulfillmentId
  if isClosed current.status || current.status = .dispatched then
    acceptanceOn current payload.jobId
  else
    let updated : Fulfillment :=
      { current with moveJobReference := some payload.jobId, status := .dispatched }
    transition (fun uow => pure (stageDispatched uow updated payload, updated))
      (fun winner => acceptanceOn winner payload.jobId)

def consumeJobRejected (payload : MoveJobRejectedPayload) : Call Fulfillment := do
  let current ← require payload.fulfillmentId
  if isClosed current.status then rejectionOn current
  else
    transition
      (fun uow => do
        let (uow, outcome) ← release uow current ("move_rejected:" ++ payload.reason)
        closeWithin uow current .failed (some payload.reason) outcome)
      rejectionOn

/-- A successful execution captures the hold; anything else releases it. -/
def settleReport (uow : Work) (current : Fulfillment) (payload : MoveJobCompletedPayload) :
    Call (Work × Settled) :=
  if payload.outcome = .completed then settle uow current
  else do
    let (uow, released) ← release uow current "move_execution_failed"
    pure (uow, ⟨released, some "move_execution_failed"⟩)

/-- The settlement and the closure of a completion report, on one unit of work. -/
def completeWithin (uow : Work) (current : Fulfillment) (payload : MoveJobCompletedPayload) :
    Call (Work × Fulfillment) := do
  let (uow, settled) ← settleReport uow current payload
  let closed : Fulfillment :=
    { current with
      moveJobReference := some payload.jobId
      status := if settled.refusal.isNone then .completed else .failed
      settlementState := settled.outcome.settlement
      completedAt := some payload.completedAt
      closureReason := settled.refusal }
  pure (stageClosed uow closed settled.outcome.capturedMinor "fulfillment.closed", closed)

def consumeMoveCompletion (payload : MoveJobCompletedPayload) : Call Fulfillment := do
  let current ← require payload.fulfillmentId
  if isClosed current.status then completionOn current payload
  else
    transition (fun uow => completeWithin uow current payload)
      (fun winner => completionOn winner payload)

def cancel (input : CancelInput) : Call Fulfillment := do
  let current ← require input.fulfillmentId
  if isBlank input.reason then throw (invalid "reason is required")
  else if isClosed current.status then cancellationOn current
  else
    transition
      (fun uow => do
        let (uow, outcome) ← release uow current ("cancelled:" ++ trim input.reason)
        closeWithin uow current .cancelled (some (trim input.reason)) outcome)
      cancellationOn

/-! ### Requests -/

inductive Request where
  | marketOrder (payload : MarketOrderCreatedPayload)
  | jobAccepted (payload : MoveJobAcceptedPayload)
  | jobRejected (payload : MoveJobRejectedPayload)
  | moveCompletion (payload : MoveJobCompletedPayload)
  | cancel (input : CancelInput)

def Request.call : Request → Call Unit
  | .marketOrder payload => Money.answered (consumeMarketOrder payload)
  | .jobAccepted payload => Money.answered (consumeJobAccepted payload)
  | .jobRejected payload => Money.answered (consumeJobRejected payload)
  | .moveCompletion payload => Money.answered (consumeMoveCompletion payload)
  | .cancel input => Money.answered (Fulfillment.cancel input)

end WaslaCore.Fulfillment
