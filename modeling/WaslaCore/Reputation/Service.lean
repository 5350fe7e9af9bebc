import WaslaCore.Identity.Service
import WaslaCore.Interleaving.Process
import WaslaCore.Reputation.Repository

/-!
The reputation service: a report is recorded once per source and withdrawn once. The
event and the audit entry of a write are staged behind it, so a write that decides
against itself unwinds them all; the error it unwinds them with never leaves the
service. Each call reads before it commits, and a commit is one moment.
-/

namespace WaslaCore.Reputation

open Platform Data Interleaving Identity

/-! ### What a call stages -/

inductive Staged where
  | insert (signal : ReputationSignal)
  | retract (retraction : Retraction)
  deriving DecidableEq, Repr

/-- Why a commit did not land. -/
inductive Failure where
  | duplicateSignal
  | store (message : String)
  deriving DecidableEq, Repr

abbrev Work := UnitOfWork Staged

/-- A staged write, with the error it throws where it finds its fact already there. -/
def Staged.run (store : ReputationStore) : Staged → Except Failure ReputationStore
  | .insert signal =>
      match store.insertIfAbsent signal with
      | .error message => .error (.store message)
      | .ok (.inserted, written) => .ok written
      | .ok (.duplicateSourceReference, _) => .error .duplicateSignal
  | .retract retraction =>
      match store.retractIfStanding retraction with
      | .error message => .error (.store message)
      | .ok (.applied, written) => .ok written
      | .ok (.stale, _) => .error .duplicateSignal

def runAll (store : ReputationStore) : List Staged → Except Failure ReputationStore
  | [] => .ok store
  | staged :: rest =>
      match staged.run store with
      | .ok next => runAll next rest
      | .error failure => .error failure

namespace ReputationStore

/-- The staged writes in order, then the events and the audit entries; all of it or
nothing. -/
def commit (store : ReputationStore) (work : Work) : Except Failure ReputationStore :=
  match runAll store work.writes with
  | .error failure => .error failure
  | .ok written =>
      .ok { written with
        outbox := written.outbox ++ work.events
        audit := written.audit ++ work.audits.map AuditEntry.recorded }

end ReputationStore

/-! ### What a call awaits -/

inductive Effect where
  | newId
  | clock
  | findBySource (source : SignalSource)
  | get (signalId : String)
  | commit (work : Work)

@[reducible] def Effect.Answer : Effect → Type
  | .newId => String
  | .clock => Int
  | .findBySource _ => Option ReputationSignal
  | .get _ => Option ReputationSignal
  | .commit _ => Except Failure Unit

/-- Whatever a call raises. -/
inductive Raised where
  | refused (refusal : Refusal)
  | failure (failure : Failure)
  deriving DecidableEq, Repr

abbrev Call (β : Type) := Process Effect Effect.Answer Raised β

def await (effect : Effect) : Call effect.Answer := .act effect .done

def invalid (message : String) (details : Payload) : Raised :=
  .refused (Identity.refused .invalidRequest message details)

def require (condition : Bool) (refusal : Raised) : Call Unit :=
  if condition then pure () else throw refusal

def assertId (field value : String) : Call Unit :=
  require (isId value) (invalid (field ++ " must be a UUID") [])

/-- `withTransaction`: the unit of work lands whole, or its error is thrown. -/
def withTransaction (work : Work) : Call Unit := do
  let outcome : Except Failure Unit ← await (.commit work)
  match outcome with
  | .ok () => pure ()
  | .error failure => throw (.failure failure)

/-- Whether the unit of work landed: the one error of its own is swallowed. -/
def landed (work : Work) : Call Bool :=
  tryCatch (do withTransaction work; pure true) (fun raised =>
    if raised = .failure .duplicateSignal then pure false else throw raised)

/-! ### Recording -/

/-- A report as its caller gives it; instants are texts. -/
structure RecordSignalInput where
  organizationId : String
  subjectType : String
  subjectId : String
  signalKind : String
  ratingValue : Option Int
  sourceSystem : String
  sourceReference : String
  occurredAt : String
  correlationId : String
  deriving DecidableEq, Repr

structure RecordSignalResult where
  signal : ReputationSignal
  recorded : Bool

def signalRecorded (signal : ReputationSignal) : Event where
  eventType := "core.reputation.signal_recorded"
  entityType := "reputation_signal"
  entityId := signal.reputationSignalId
  payload :=
    [("reputation_signal_id", .text signal.reputationSignalId),
      ("organization_id", .text signal.organizationId),
      ("subject_type", .text signal.subjectType.name),
      ("subject_id", .text signal.subjectId),
      ("signal_kind", .text signal.signalKind.name),
      ("rating_value", Scalar.optionalNumber signal.ratingValue),
      ("source_system", .text signal.sourceSystem),
      ("source_reference", .text signal.sourceReference),
      ("occurred_at", .number signal.occurredAt),
      ("recorded_at", .number signal.recordedAt)]

def recordedEntry (signal : ReputationSignal) : AuditEntry where
  action := "reputation.signal_recorded"
  entityType := "reputation_signal"
  entityId := signal.reputationSignalId
  metadata :=
    [("organization_id", .text signal.organizationId),
      ("subject_type", .text signal.subjectType.name),
      ("subject_id", .text signal.subjectId),
      ("signal_kind", .text signal.signalKind.name),
      ("source_system", .text signal.sourceSystem)]

def recordWork (signal : ReputationSignal) : Work :=
  ((UnitOfWork.empty.stage [.insert signal]).emit (signalRecorded signal)).audit
    (recordedEntry signal)

/-- What is left of a report once it is judged. -/
structure Judged where
  subjectType : ReputationSubjectType
  signalKind : ReputationSignalKind
  source : SignalSource
  occurredAt : Int
  deriving DecidableEq, Repr

/-- The service, with how it reads an instant. -/
structure ReputationService where
  readInstant : String → Option Int

namespace ReputationService

/-- The checks of a report, in order. -/
def judge (service : ReputationService) (input : RecordSignalInput) : Call Judged := do
  assertId "organization_id" input.organizationId
  assertId "subject_id" input.subjectId
  match ReputationSubjectType.ofName input.subjectType with
  | none => throw (invalid "subject_type must be identity or organization" [])
  | some subjectType =>
      match ReputationSignalKind.ofName input.signalKind with
      | none =>
          throw (invalid "signal_kind is not a declared reputation signal kind"
            [("signal_kind", .text input.signalKind)])
      | some signalKind => do
          require (ratingShapeIsValid signalKind input.ratingValue)
            (invalid (if signalKind = ratedKind then
              "rating_value must be an integer between 1 and 5"
              else "rating_value is only carried by a service_rating") [])
          let source : SignalSource :=
            ⟨input.organizationId, trim input.sourceSystem, trim input.sourceReference⟩
          require (!source.sourceSystem.isEmpty) (invalid "source_system is required" [])
          require (!source.sourceReference.isEmpty) (invalid "source_reference is required" [])
          match service.readInstant input.occurredAt with
          | none => throw (invalid "occurred_at is not a readable timestamp" [])
          | some occurredAt => do
              require (!isBlank input.correlationId) (invalid "correlation_id is required" [])
              pure ⟨subjectType, signalKind, source, occurredAt⟩

def signalOf (input : RecordSignalInput) (judged : Judged) (signalId : String) (now : Int) :
    ReputationSignal where
  reputationSignalId := signalId
  organizationId := judged.source.organizationId
  subjectType := judged.subjectType
  subjectId := input.subjectId
  signalKind := judged.signalKind
  ratingValue := input.ratingValue
  sourceSystem := judged.source.sourceSystem
  sourceReference := judged.source.sourceReference
  occurredAt := judged.occurredAt
  recordedAt := now
  correlationId := input.correlationId
  retractedAt := none
  retractionReason := none

/-- A report that was there already is answered with the signal that is stored. -/
def recordSignal (service : ReputationService) (input : RecordSignalInput) :
    Call RecordSignalResult := do
  let judged ← service.judge input
  let signalId : String ← await .newId
  let now : Int ← await .clock
  let signal := signalOf input judged signalId now
  let recorded ← landed (recordWork signal)
  if recorded then pure ⟨signal, true⟩
  else
    let stored : Option ReputationSignal ← await (.findBySource judged.source)
    pure ⟨stored.getD signal, false⟩

/-! ### Retracting -/

end ReputationService

structure RetractSignalInput where
  organizationId : String
  sourceSystem : String
  sourceReference : String
  retractedAt : String
  reason : String
  correlationId : String
  deriving DecidableEq, Repr

structure RetractSignalResult where
  signal : Option ReputationSignal
  retracted : Bool

def signalRetracted (existing : ReputationSignal) (retractedAt : Int) : Event where
  eventType := "core.reputation.signal_retracted"
  entityType := "reputation_signal"
  entityId := existing.reputationSignalId
  payload :=
    [("reputation_signal_id", .text existing.reputationSignalId),
      ("organization_id", .text existing.organizationId),
      ("subject_type", .text existing.subjectType.name),
      ("subject_id", .text existing.subjectId),
      ("signal_kind", .text existing.signalKind.name),
      ("source_system", .text existing.sourceSystem),
      ("source_reference", .text existing.sourceReference),
      ("retracted_at", .number retractedAt)]

def retractedEntry (existing : ReputationSignal) (reason : String) : AuditEntry where
  action := "reputation.signal_retracted"
  entityType := "reputation_signal"
  entityId := existing.reputationSignalId
  metadata :=
    [("organization_id", .text existing.organizationId),
      ("subject_type", .text existing.subjectType.name),
      ("subject_id", .text existing.subjectId),
      ("signal_kind", .text existing.signalKind.name),
      ("reason", .text reason)]

/-- The marker goes to the source of the signal that was read, in the caller's
organization. -/
def retractWork (existing : ReputationSignal) (organizationId : String) (retractedAt : Int)
    (reason : String) : Work :=
  ((UnitOfWork.empty.stage [.retract ⟨⟨organizationId, existing.sourceSystem,
    existing.sourceReference⟩, retractedAt, reason⟩]).emit
      (signalRetracted existing retractedAt)).audit (retractedEntry existing reason)

namespace ReputationService

/-- Where nothing stands to be withdrawn, the call is answered and writes nothing. -/
def retractSignal (service : ReputationService) (input : RetractSignalInput) :
    Call RetractSignalResult := do
  assertId "organization_id" input.organizationId
  let reason := trim input.reason
  require (!reason.isEmpty) (invalid "reason is required to retract a signal" [])
  match service.readInstant input.retractedAt with
  | none => throw (invalid "retracted_at is not a readable timestamp" [])
  | some retractedAt => do
      let existing : Option ReputationSignal ← await (.findBySource
        ⟨input.organizationId, trim input.sourceSystem, trim input.sourceReference⟩)
      match existing with
      | none => pure ⟨none, false⟩
      | some existing =>
          if existing.retractedAt.isSome then pure ⟨some existing, false⟩
          else do
            let applied ← landed
              (retractWork existing input.organizationId retractedAt reason)
            let stored : Option ReputationSignal ← await (.get existing.reputationSignalId)
            pure ⟨stored, applied⟩

/-! ### Review events -/

end ReputationService

/-- What `market.review.rated` is normalised to. -/
structure MarketReviewRated where
  reviewReference : String
  organizationId : String
  subjectType : String
  subjectId : String
  rating : Int
  ratedAt : String
  deriving DecidableEq, Repr

/-- What `market.review.retracted` is normalised to. -/
structure MarketReviewRetracted where
  reviewReference : String
  organizationId : String
  reason : String
  retractedAt : String
  deriving DecidableEq, Repr

/-- A review event as it reaches its handler. -/
inductive ReviewEvent where
  | rated (producer correlationId : String) (payload : MarketReviewRated)
  | retracted (producer correlationId : String) (payload : MarketReviewRetracted)
  deriving DecidableEq, Repr

namespace ReputationService

def ratedInput (producer correlationId : String) (payload : MarketReviewRated) :
    RecordSignalInput where
  organizationId := payload.organizationId
  subjectType := payload.subjectType
  subjectId := payload.subjectId
  signalKind := ratedKind.name
  ratingValue := some payload.rating
  sourceSystem := producer
  sourceReference := payload.reviewReference
  occurredAt := payload.ratedAt
  correlationId := correlationId

def retractedInput (producer correlationId : String) (payload : MarketReviewRetracted) :
    RetractSignalInput where
  organizationId := payload.organizationId
  sourceSystem := producer
  sourceReference := payload.reviewReference
  retractedAt := payload.retractedAt
  reason := payload.reason
  correlationId := correlationId

/-- `consumeReviewRated` and `consumeReviewRetracted`. -/
def consume (service : ReputationService) : ReviewEvent → Call Unit
  | .rated producer correlationId payload => do
      let _ ← service.recordSignal (ratedInput producer correlationId payload)
      pure ()
  | .retracted producer correlationId payload => do
      let _ ← service.retractSignal (retractedInput producer correlationId payload)
      pure ()

end ReputationService

/-! ### The store and its calls -/

/-- What the store does not decide: the identifier that is drawn, which no stored row
has, and the instant a clock shows. -/
inductive Choice where
  | proceed
  | drawn (id : String)
  | reading (now : Int)

def ReputationStore.answer (store : ReputationStore) :
    (effect : Effect) → Choice → Option (effect.Answer × ReputationStore)
  | .newId, .drawn id => if isId id && (store.get id).isNone then some (id, store) else none
  | .clock, .reading now => some (now, store)
  | .findBySource source, .proceed => some (store.findBySource source, store)
  | .get signalId, .proceed => some (store.get signalId, store)
  | .commit work, .proceed =>
      match store.commit work with
      | .ok written => some (.ok (), written)
      | .error failure => some (.error failure, store)
  | _, _ => none

def reputation : System ReputationStore Effect Effect.Answer Choice where
  perform := fun effect choice store => store.answer effect choice
  tick := fun _ _ => none

/-- The two calls of the service that write, each with its result. -/
inductive SignalResult where
  | recording (result : RecordSignalResult)
  | retracting (result : RetractSignalResult)

/-- Any recording and any retraction, whatever is asked of it. -/
inductive Signalling : Call SignalResult → Prop where
  | recording (service : ReputationService) (input : RecordSignalInput) :
      Signalling (do
        let result ← service.recordSignal input
        pure (.recording result))
  | retracting (service : ReputationService) (input : RetractSignalInput) :
      Signalling (do
        let result ← service.retractSignal input
        pure (.retracting result))

end WaslaCore.Reputation
