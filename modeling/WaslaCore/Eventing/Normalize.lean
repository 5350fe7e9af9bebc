import WaslaCore.Data.Table
import WaslaCore.Fulfillment.Service
import WaslaCore.Http.Json
import WaslaCore.Reputation.Service

/-!
What arrives at the edge, and the one reading CORE has of it. An envelope is its ten
fields; a canonical event is an envelope whose type and version CORE has a rule for and
whose payload that rule reads field by field. An event that cannot be read is refused with
a reason, never guessed.
-/

namespace WaslaCore.Eventing

open Platform Data Http

/-! ### Envelopes -/

/-- A validated envelope; its version is kept as the text of the number. -/
structure Envelope where
  eventId : String
  eventType : String
  version : String
  producer : String
  occurredAt : String
  correlationId : String
  causationId : Option String
  entityType : String
  entityId : String
  payload : Json

def textMember (entries : List (String × Json)) (name : String) : Option String :=
  match findEntry name entries with
  | some (.text value) => some value
  | _ => none

/-- `isValidEnvelope`, with what it lets through. -/
def readEnvelope : Json → Option Envelope
  | .object entries => do
      let eventId ← textMember entries "event_id"
      let eventType ← textMember entries "event_type"
      let version ← match findEntry "version" entries with
        | some (.number literal) => some literal
        | _ => none
      let producer ← textMember entries "producer"
      let occurredAt ← textMember entries "occurred_at"
      let correlationId ← textMember entries "correlation_id"
      let causationId ← match findEntry "causation_id" entries with
        | some .null => some none
        | some (.text value) => some (some value)
        | _ => none
      let entityType ← textMember entries "entity_type"
      let entityId ← textMember entries "entity_id"
      let payload ← findEntry "payload" entries
      pure ⟨eventId, eventType, version, producer, occurredAt, correlationId, causationId, entityType,
        entityId, payload⟩
  | _ => none

/-! ### Payload fields -/

/-- How the platform reads a date and writes an instant. -/
structure Dates where
  parse : String → Option Int
  toISOString : Int → String

abbrev Fields := List (String × Json)

def requiredString (payload : Fields) (field : String) : Except String String :=
  match findEntry field payload with
  | some (.text value) =>
      if isBlank value then .error (field ++ " must be a non-empty string") else .ok value
  | _ => .error (field ++ " must be a non-empty string")

def requiredId (payload : Fields) (field : String) : Except String String :=
  match findEntry field payload with
  | some (.text value) => if isId value then .ok value else .error (field ++ " must be a UUID")
  | _ => .error (field ++ " must be a UUID")

def requiredInstant (dates : Dates) (payload : Fields) (field : String) : Except String Int :=
  match findEntry field payload with
  | some (.text value) =>
      match dates.parse value with
      | some instant => .ok instant
      | none => .error (field ++ " is not a readable timestamp")
  | _ => .error (field ++ " must be a timestamp string")

/-- Absent and null are the same fact; present but wrong is another. -/
def optionalReference (payload : Fields) (field : String) : Except String (Option String) :=
  match findEntry field payload with
  | none => .ok none
  | some .null => .ok none
  | some (.text value) =>
      if isBlank value then .error (field ++ " must be a non-empty string or null")
      else .ok (some value)
  | some _ => .error (field ++ " must be a non-empty string or null")

def noExtraFields (payload : Fields) (allowed : List String) : Except String Unit :=
  let extra := (payload.map Prod.fst).filter (fun name => name ∉ allowed)
  if extra.isEmpty then .ok ()
  else .error ("unexpected field(s): " ++
    ", ".intercalate (orderedBy (fun name => [SortKey.text name]) extra))

/-- An integer from one to five, by the text of the number. -/
def readRating : Option Json → Option Int
  | some (.number literal) =>
      [("1", 1), ("2", 2), ("3", 3), ("4", 4), ("5", 5)].lookup literal
  | _ => none

/-! ### Rules -/

/-- What a payload is reduced to. -/
inductive CanonicalPayload where
  | orderCreated (payload : Fulfillment.MarketOrderCreatedPayload)
  | reviewRated (payload : Reputation.MarketReviewRated)
  | reviewRetracted (payload : Reputation.MarketReviewRetracted)
  | jobAccepted (payload : Fulfillment.MoveJobAcceptedPayload)
  | jobRejected (payload : Fulfillment.MoveJobRejectedPayload)
  | jobCompleted (payload : Fulfillment.MoveJobCompletedPayload)

abbrev PayloadNormalizer := Fields → Except String CanonicalPayload

structure TypeRules where
  versions : List (String × PayloadNormalizer)
  tenant : CanonicalPayload → Option String

def orderCreatedV1 : PayloadNormalizer := fun payload => do
  noExtraFields payload
    ["order_id", "organization_id", "requested_service", "payment_authorization_id"]
  let orderId ← requiredString payload "order_id"
  let organizationId ← requiredId payload "organization_id"
  let requestedService ← requiredString payload "requested_service"
  let paymentAuthorizationId ← optionalReference payload "payment_authorization_id"
  pure (.orderCreated ⟨orderId, organizationId, requestedService, paymentAuthorizationId⟩)

def reviewRatedV1 (dates : Dates) : PayloadNormalizer := fun payload => do
  noExtraFields payload
    ["review_reference", "organization_id", "subject_type", "subject_id", "rating", "rated_at"]
  let subjectType ← requiredString payload "subject_type"
  if subjectType ≠ "identity" ∧ subjectType ≠ "organization" then
    throw "subject_type must be \"identity\" or \"organization\""
  let rating ← match readRating (findEntry "rating" payload) with
    | some rating => pure rating
    | none => throw "rating must be an integer between 1 and 5"
  let reviewReference ← requiredString payload "review_reference"
  let organizationId ← requiredId payload "organization_id"
  let subjectId ← requiredId payload "subject_id"
  let ratedAt ← requiredInstant dates payload "rated_at"
  pure (.reviewRated
    ⟨reviewReference, organizationId, subjectType, subjectId, rating, dates.toISOString ratedAt⟩)

def reviewRetractedV1 (dates : Dates) : PayloadNormalizer := fun payload => do
  noExtraFields payload ["review_reference", "organization_id", "reason", "retracted_at"]
  let reviewReference ← requiredString payload "review_reference"
  let organizationId ← requiredId payload "organization_id"
  let reason ← requiredString payload "reason"
  let retractedAt ← requiredInstant dates payload "retracted_at"
  pure (.reviewRetracted ⟨reviewReference, organizationId, reason, dates.toISOString retractedAt⟩)

def jobAcceptedV1 (dates : Dates) : PayloadNormalizer := fun payload => do
  noExtraFields payload ["fulfillment_id", "job_id", "accepted_at"]
  let fulfillmentId ← requiredId payload "fulfillment_id"
  let jobId ← requiredString payload "job_id"
  let acceptedAt ← requiredInstant dates payload "accepted_at"
  pure (.jobAccepted ⟨fulfillmentId, jobId, acceptedAt⟩)

def jobRejectedV1 (dates : Dates) : PayloadNormalizer := fun payload => do
  noExtraFields payload ["fulfillment_id", "reason", "rejected_at"]
  let fulfillmentId ← requiredId payload "fulfillment_id"
  let reason ← requiredString payload "reason"
  let rejectedAt ← requiredInstant dates payload "rejected_at"
  pure (.jobRejected ⟨fulfillmentId, reason, rejectedAt⟩)

def jobCompletedV1 (dates : Dates) : PayloadNormalizer := fun payload => do
  noExtraFields payload ["fulfillment_id", "job_id", "outcome", "completed_at"]
  let text ← requiredString payload "outcome"
  let outcome ← if text = "completed" then pure Fulfillment.JobOutcome.completed
    else if text = "failed" then pure Fulfillment.JobOutcome.failed
    else throw "outcome must be \"completed\" or \"failed\""
  let fulfillmentId ← requiredId payload "fulfillment_id"
  let jobId ← requiredString payload "job_id"
  let completedAt ← requiredInstant dates payload "completed_at"
  pure (.jobCompleted ⟨fulfillmentId, jobId, outcome, completedAt⟩)

/-- The tenant a payload names. -/
def CanonicalPayload.organizationId : CanonicalPayload → Option String
  | .orderCreated payload => some payload.organizationId
  | .reviewRated payload => some payload.organizationId
  | .reviewRetracted payload => some payload.organizationId
  | _ => none

/-- `RULES`: every inbound type CORE has a consumer for. -/
def rules (dates : Dates) : List (String × TypeRules) :=
  [("market.order.created", ⟨[("1", orderCreatedV1)], CanonicalPayload.organizationId⟩),
    ("market.review.rated", ⟨[("1", reviewRatedV1 dates)], CanonicalPayload.organizationId⟩),
    ("market.review.retracted", ⟨[("1", reviewRetractedV1 dates)], CanonicalPayload.organizationId⟩),
    ("move.job.accepted", ⟨[("1", jobAcceptedV1 dates)], fun _ => none⟩),
    ("move.job.rejected", ⟨[("1", jobRejectedV1 dates)], fun _ => none⟩),
    ("move.job.completed", ⟨[("1", jobCompletedV1 dates)], fun _ => none⟩)]

/-! ### Normalisation -/

inductive NormalizationRejection where
  | envelopeMalformed
  | unknownEventType
  | unsupportedVersion
  | payloadMalformed
  deriving DecidableEq, Repr

def NormalizationRejection.name : NormalizationRejection → String
  | .envelopeMalformed => "envelope_malformed"
  | .unknownEventType => "unknown_event_type"
  | .unsupportedVersion => "unsupported_version"
  | .payloadMalformed => "payload_malformed"

/-- A normalised event: the envelope as it came, and what CORE reasons about. -/
structure CanonicalEvent where
  envelope : Envelope
  occurredAt : Int
  receivedAt : Int
  organizationId : Option String
  payload : CanonicalPayload

/-- Why there is no canonical event. A type named like a property every object inherits
finds that property in place of its rules, and the look into it throws. -/
inductive NormalizationFailure where
  | rejected (rejection : NormalizationRejection) (detail : String)
  | raised (message : String)
  deriving DecidableEq, Repr

abbrev NormalizationResult := Except NormalizationFailure CanonicalEvent

def inheritedNames : List String :=
  ["constructor", "__defineGetter__", "__defineSetter__", "hasOwnProperty", "__lookupGetter__",
    "__lookupSetter__", "isPrototypeOf", "propertyIsEnumerable", "toString", "valueOf", "__proto__",
    "toLocaleString"]

def supportedVersions (rules : TypeRules) : String := ", ".intercalate (rules.versions.map Prod.fst)

/-- `normalize`, of an envelope that is well-formed. -/
def normalize (dates : Dates) (envelope : Envelope) (receivedAt : Int) : NormalizationResult :=
  if envelope.eventType ∈ inheritedNames then
    .error (.raised ("Cannot read properties of undefined (reading '" ++ envelope.version ++ "')"))
  else
    match findEntry envelope.eventType (rules dates) with
    | none =>
        .error (.rejected .unknownEventType ("no consumer for event type " ++ envelope.eventType))
    | some rules =>
        match findEntry envelope.version rules.versions with
        | none =>
            .error (.rejected .unsupportedVersion (envelope.eventType ++ " version " ++
              envelope.version ++ " is not supported (supported: " ++ supportedVersions rules ++ ")"))
        | some normalizer =>
            match envelope.payload with
            | .object payload =>
                match normalizer payload with
                | .error detail => .error (.rejected .payloadMalformed detail)
                | .ok canonical =>
                    match dates.parse envelope.occurredAt with
                    | none => .error (.rejected .envelopeMalformed
                        "occurred_at is not a readable timestamp")
                    | some occurredAt =>
                        .ok ⟨envelope, occurredAt, receivedAt, rules.tenant canonical, canonical⟩
            | _ => .error (.rejected .payloadMalformed "payload must be an object")

def normalizes (dates : Dates) (envelope : Envelope) : Bool := (normalize dates envelope 0).isOk

/-- What an event is read as does not turn on when CORE received it. -/
theorem normalize_isOk (dates : Dates) (envelope : Envelope) (receivedAt : Int) :
    (normalize dates envelope receivedAt).isOk = normalizes dates envelope := by
  unfold normalizes normalize
  split
  · rfl
  split
  · rfl
  split
  · rfl
  split
  · split
    · rfl
    · split <;> rfl
  · rfl

/-- The canonical event keeps the envelope as it came. -/
theorem normalize_envelope {dates : Dates} {envelope : Envelope} {receivedAt : Int}
    {event : CanonicalEvent} (h : normalize dates envelope receivedAt = .ok event) :
    event.envelope = envelope ∧ event.receivedAt = receivedAt := by
  unfold normalize at h
  split at h
  · cases h
  split at h
  · cases h
  split at h
  · cases h
  split at h
  · split at h
    · cases h
    · split at h
      · cases h
      · obtain rfl := Except.ok.inj h
        exact ⟨rfl, rfl⟩
  · cases h

end WaslaCore.Eventing
