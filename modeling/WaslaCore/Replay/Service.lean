import WaslaCore.Eventing.Positions

/-!
Replay of stored events. A run takes a page of the inbound history, decides each event in
turn and offers it once more to the consumers of its type; a plan decides and does nothing.
A handler is what it throws, where it throws, and what it leaves of the domain's own state:
it holds neither the inbound store nor the inbox. No other worker acts while a call runs.
-/

namespace WaslaCore.Replay

open Platform Data Eventing

/-! ### Stores -/

/-- `InboundRecord`. -/
structure Record extends InboundRow where
  attempts : Nat
  lastError : Option String
  nextAttemptAt : String
  processedAt : Option String
  claimedAt : Option String
  reclaims : Nat
  claimToken : Option String

def Record.position (record : Record) : Position := record.toInboundRow.position

def Record.processed (record : Record) (processedAt : String) : Record :=
  { record with
    status := .processed, lastError := none, processedAt := some processedAt
    claimedAt := none, claimToken := none }

abbrev Inbound := Rows Record fun record => record.event.eventId

def Inbound.select (inbound : Inbound) (selection : InboundSelection) : List Record :=
  (inPositionOrder Record.position (inbound.table.values.filter fun record =>
    matchesSelection record.toInboundRow selection)).take selection.limit

def Inbound.putRow (inbound : Inbound) (record : Record) : Inbound :=
  ⟨inbound.table.put record.event.eventId record, inbound.keyed.put record⟩

/-- `markProcessed` under `UNFENCED`, which no claim of the row fences off. -/
def Inbound.markProcessed (inbound : Inbound) (eventId processedAt : String) : Inbound :=
  match inbound.table.get eventId with
  | none => inbound
  | some record => inbound.putRow (record.processed processedAt)

structure DeadLetter where
  event : Envelope
  consumer : String
  error : String
  attempts : Nat

inductive ReplayMode where
  | pendingOnly
  | reapply
  deriving DecidableEq, Repr

/-- What to replay. A limit that is no integer is refused as one out of range is. -/
structure ReplayScope where
  eventIds : Option (List String) := none
  eventTypes : Option (List String) := none
  producer : Option String := none
  statuses : Option (List InboundStatus) := none
  receivedFrom : Option String := none
  receivedTo : Option String := none
  occurredFrom : Option String := none
  occurredTo : Option String := none
  organizationId : Option String := none
  after : Option Position := none
  limit : Int

inductive ReplayOutcomeKind where
  | applied
  | skippedDuplicate
  | skippedNoConsumer
  | skippedTenantUnknown
  | skippedTenantMismatch
  | notNormalizable
  | failed
  deriving DecidableEq, Repr

def outcomeKinds : List ReplayOutcomeKind :=
  [.applied, .skippedDuplicate, .skippedNoConsumer, .skippedTenantUnknown, .skippedTenantMismatch,
    .notNormalizable, .failed]

structure ReplayOutcome where
  eventId : String
  eventType : String
  version : String
  receivedAt : String
  status : InboundStatus
  outcome : ReplayOutcomeKind
  reason : Option String := none
  rejection : Option NormalizationRejection := none
  consumers : Option (List String) := none

def ReplayOutcome.position (outcome : ReplayOutcome) : Position :=
  ⟨outcome.receivedAt, outcome.eventId⟩

structure ReplayActor where
  actorType : String
  actorId : Option String

structure ReplayFailure where
  eventId : String
  eventType : String
  reason : String

structure ReplayReport where
  replayId : String
  mode : ReplayMode
  dryRun : Bool
  scope : ReplayScope
  actor : ReplayActor
  startedAt : String
  finishedAt : String
  discovered : Nat
  counts : List (ReplayOutcomeKind × Nat)
  outcomes : List ReplayOutcome
  stoppedEarly : Bool
  failure : Option ReplayFailure
  resumeAfter : Option Position
  moreAvailable : Bool

/-- What the journal keeps of a run. -/
inductive ReplayMetadata where
  | started (mode : ReplayMode) (scope : ReplayScope) (discovered : Nat)
  | finished (mode : ReplayMode) (scope : ReplayScope) (discovered : Nat)
      (counts : List (ReplayOutcomeKind × Nat)) (stoppedEarly : Bool)
      (failure : Option ReplayFailure) (resumeAfter : Option Position) (moreAvailable : Bool)
      (failedEventIds : List String)

structure JournalEntry where
  actor : ReplayActor
  action : String
  entityType : String
  entityId : String
  correlationId : String
  metadata : ReplayMetadata

/-- The stores a replay works on, the replay lock, and what the handlers act on. -/
structure World (σ : Type) where
  inbound : Inbound
  inbox : List (String × String)
  deadLetters : List DeadLetter
  journal : List JournalEntry
  held : Bool
  domain : σ

section Inbox

variable {σ : Type}

def World.claim (world : World σ) (consumer eventId : String) : Bool × World σ :=
  if (consumer, eventId) ∈ world.inbox then (false, world)
  else (true, { world with inbox := world.inbox ++ [(consumer, eventId)] })

def World.seen (world : World σ) (consumer eventId : String) : Bool :=
  (consumer, eventId) ∈ world.inbox

def World.release (world : World σ) (consumer eventId : String) : World σ :=
  { world with inbox := world.inbox.filter fun entry => entry ≠ (consumer, eventId) }

end Inbox

/-! ### The bus -/

structure Subscription (σ : Type) where
  consumer : String
  eventType : String
  handler : Envelope → σ → Option String × σ

/-- The bus of one process, with the handlers its consumers subscribed. -/
structure LocalEventBus (σ : Type) where
  subs : List (Subscription σ)
  maxAttempts : Nat := 3

namespace LocalEventBus

variable {σ : Type}

def consumersFor (bus : LocalEventBus σ) (eventType : String) : List String :=
  ((bus.subs.filter fun sub => sub.eventType = eventType).map Subscription.consumer).eraseDups

/-- The attempts still left, and the error that ended the last one. -/
def attempt (sub : Subscription σ) (event : Envelope) (maxAttempts : Nat) :
    Nat → String → World σ → Option String × World σ
  | 0, lastError, world =>
      let letter := ⟨event, sub.consumer, lastError, maxAttempts⟩
      (some lastError, { world with deadLetters := world.deadLetters ++ [letter] })
  | left + 1, _, world =>
      match sub.handler event world.domain with
      | (none, domain) => (none, { world with domain := domain })
      | (some message, domain) =>
          let attempts := maxAttempts - left
          let released := { world with domain := domain }.release sub.consumer event.eventId
          let claimed := if attempts < maxAttempts then
            (released.claim sub.consumer event.eventId).2 else released
          attempt sub event maxAttempts left message claimed

/-- The error that ended the attempts, or nothing on success. -/
def deliver (bus : LocalEventBus σ) (sub : Subscription σ) (event : Envelope) (world : World σ) :
    Option String × World σ :=
  match world.claim sub.consumer event.eventId with
  | (false, world) => (none, world)
  | (true, world) => attempt sub event bus.maxAttempts bus.maxAttempts "" world

/-- `if (failure) failures.push(…)`: an empty error text counts as no failure. -/
def addFailure (failures : List String) (consumer : String) : Option String → List String
  | none => failures
  | some message => if message = "" then failures else failures ++ [consumer ++ ": " ++ message]

/-- Every subscriber is attempted before anything is thrown. -/
def deliverAll (bus : LocalEventBus σ) (event : Envelope) :
    List (Subscription σ) → List String → World σ → List String × World σ
  | [], failures, world => (failures, world)
  | sub :: rest, failures, world =>
      if sub.eventType = event.eventType then
        match bus.deliver sub event world with
        | (failure, world) =>
            bus.deliverAll event rest (addFailure failures sub.consumer failure) world
      else bus.deliverAll event rest failures world

/-- The message of the error it throws, if it throws one. -/
def publish (bus : LocalEventBus σ) (event : Envelope) (world : World σ) : Option String × World σ :=
  match bus.deliverAll event bus.subs [] world with
  | ([], world) => (none, world)
  | (failures, world) =>
      (some ("event " ++ event.eventId ++ " was not consumed by " ++ "; ".intercalate failures),
        world)

end LocalEventBus

/-! ### The service -/

def maxLimit : Int := 1000

def assertNarrow (scope : ReplayScope) : Except Thrown Unit :=
  let narrowing := scope.eventIds.isSome || scope.eventTypes.isSome || scope.producer.isSome ||
    scope.receivedFrom.isSome || scope.receivedTo.isSome || scope.occurredFrom.isSome ||
    scope.occurredTo.isSome || scope.organizationId.isSome
  if !narrowing then
    .error (invalid ("replay scope must narrow by at least one of: event_ids, event_types, " ++
      "producer, received_from/received_to, occurred_from/occurred_to, organization_id"))
  else if scope.limit < 1 ∨ maxLimit < scope.limit then
    .error (invalid "replay limit must be an integer between 1 and 1000")
  else if scope.eventIds = some [] then .error (invalid "event_ids must not be empty")
  else if scope.eventTypes = some [] then .error (invalid "event_types must not be empty")
  else .ok ()

def defaultStatuses : List InboundStatus := [.pending, .dead]

def selectionFor (scope : ReplayScope) : InboundSelection where
  eventIds := scope.eventIds
  eventTypes := scope.eventTypes
  producer := scope.producer
  statuses := some (scope.statuses.getD defaultStatuses)
  receivedFrom := scope.receivedFrom
  receivedTo := scope.receivedTo
  occurredFrom := scope.occurredFrom
  occurredTo := scope.occurredTo
  after := scope.after
  limit := scope.limit.toNat

structure ReplayOptions where
  stopOnError : Option Bool := none

/-- What the clock and `newId` answer in the course of one call. A call marks an event
processed once at most. -/
structure Readings where
  replayId : String
  startedAt : String
  finishedAt : String
  processedAt : String → String

structure ReplayService (σ : Type) where
  dates : Dates
  bus : LocalEventBus σ

namespace ReplayService

variable {σ : Type}

def decided (record : Record) (outcome : ReplayOutcomeKind) : ReplayOutcome where
  eventId := record.event.eventId
  eventType := record.event.eventType
  version := record.event.version
  receivedAt := record.receivedAt
  status := record.status
  outcome := outcome

/-- Why the event is not this tenant's. -/
def offTenant (record : Record) (organizationId : String) : Option String → Option ReplayOutcome
  | none => some { decided record .skippedTenantUnknown with
      reason := some (record.event.eventType ++ " carries no organization scope, so it cannot be " ++
        "attributed to a tenant without guessing (dependency B-23)") }
  | some tenant =>
      if tenant ≠ organizationId then
        some { decided record .skippedTenantMismatch with
          reason := some "event belongs to a different organization" }
      else none

/-- Decides an event's fate without causing it. When it was received is read by nothing that
follows. -/
def classify (service : ReplayService σ) (record : Record) (scope : ReplayScope)
    (mode : ReplayMode) (world : World σ) : Except Thrown ReplayOutcome :=
  match normalize service.dates record.event ((service.dates.parse record.receivedAt).getD 0) with
  | .error (.raised message) => .error (.other message)
  | .error (.rejected rejection detail) =>
      .ok { decided record .notNormalizable with rejection := some rejection, reason := some detail }
  | .ok canonical =>
      match scope.organizationId.bind fun organizationId =>
          offTenant record organizationId canonical.organizationId with
      | some skipped => .ok skipped
      | none =>
          let consumers := service.bus.consumersFor record.event.eventType
          if consumers = [] then
            .ok { decided record .skippedNoConsumer with
              reason := some ("no consumer is subscribed to " ++ record.event.eventType)
              consumers := some consumers }
          else if mode = .pendingOnly ∧
              consumers.all fun consumer => world.seen consumer record.event.eventId then
            .ok { decided record .skippedDuplicate with
              reason := some "every consumer has already processed this event"
              consumers := some consumers }
          else .ok { decided record .applied with consumers := some consumers }

/-- `reapply` clears the event's inbox entries first, the only way to a second execution. -/
def cleared (service : ReplayService σ) (record : Record) (mode : ReplayMode) (world : World σ) :
    World σ :=
  if mode = .reapply then
    (service.bus.consumersFor record.event.eventType).foldl
      (fun world consumer => world.release consumer record.event.eventId) world
  else world

/-- The message of the error it throws, if it throws one. -/
def deliver (service : ReplayService σ) (record : Record) (mode : ReplayMode) (processedAt : String)
    (world : World σ) : Option String × World σ :=
  match service.bus.publish record.event (service.cleared record mode world) with
  | (some message, world) => (some message, world)
  | (none, world) =>
      if record.status ≠ .processed then
        (none, { world with
          inbound := world.inbound.markProcessed record.event.eventId processedAt })
      else (none, world)

/-- How far a run has come. -/
structure Progress where
  outcomes : List ReplayOutcome
  stoppedEarly : Bool
  failure : Option ReplayFailure
  resumeAfter : Option Position

def Progress.begin (scope : ReplayScope) : Progress := ⟨[], false, none, scope.after⟩

/-- The event is decided, and the cursor moves past it. -/
def Progress.past (progress : Progress) (record : Record) (outcome : ReplayOutcome) : Progress :=
  { progress with
    outcomes := progress.outcomes ++ [outcome], resumeAfter := some record.position }

/-- The event failed, and the cursor stays. -/
def Progress.failing (progress : Progress) (record : Record) (classified : ReplayOutcome)
    (reason : String) : Progress :=
  { progress with
    outcomes := progress.outcomes ++
      [{ classified with outcome := .failed, reason := some reason }]
    failure := some ⟨record.event.eventId, record.event.eventType, reason⟩ }

def replayEach (service : ReplayService σ) (scope : ReplayScope) (mode : ReplayMode)
    (stopOnError : Bool) (readings : Readings) :
    List Record → Progress → World σ → Except Thrown Progress × World σ
  | [], progress, world => (.ok progress, world)
  | record :: rest, progress, world =>
      match service.classify record scope mode world with
      | .error thrown => (.error thrown, world)
      | .ok classified =>
          if classified.outcome ≠ .applied then
            service.replayEach scope mode stopOnError readings rest
              (progress.past record classified) world
          else
            match service.deliver record mode (readings.processedAt record.event.eventId) world with
            | (none, world) =>
                service.replayEach scope mode stopOnError readings rest
                  (progress.past record classified) world
            | (some reason, world) =>
                if stopOnError then
                  (.ok { progress.failing record classified reason with stoppedEarly := true }, world)
                else
                  service.replayEach scope mode stopOnError readings rest
                    (progress.failing record classified reason) world

def report (readings : Readings) (mode : ReplayMode) (dryRun : Bool) (scope : ReplayScope)
    (actor : ReplayActor) (records : List Record) (progress : Progress) : ReplayReport where
  replayId := readings.replayId
  mode := mode
  dryRun := dryRun
  scope := scope
  actor := actor
  startedAt := readings.startedAt
  finishedAt := readings.finishedAt
  discovered := records.length
  counts := outcomeKinds.map fun kind =>
    (kind, progress.outcomes.countP fun outcome => outcome.outcome = kind)
  outcomes := progress.outcomes
  stoppedEarly := progress.stoppedEarly
  failure := progress.failure
  resumeAfter := progress.resumeAfter
  moreAvailable := records.length = scope.limit

def journalled (readings : Readings) (actor : ReplayActor) (action : String)
    (metadata : ReplayMetadata) : JournalEntry :=
  ⟨actor, action, "event_replay", readings.replayId, readings.replayId, metadata⟩

/-- The journal keeps the counts, and enough failing ids to act on. -/
def finishedMetadata (report : ReplayReport) : ReplayMetadata :=
  .finished report.mode report.scope report.discovered report.counts report.stoppedEarly
    report.failure report.resumeAfter report.moreAvailable
    (((report.outcomes.filter fun outcome => outcome.outcome = .failed).take 20).map
      ReplayOutcome.eventId)

/-- What a replay would do, without doing any of it. -/
def plan (service : ReplayService σ) (scope : ReplayScope) (mode : ReplayMode) (readings : Readings)
    (world : World σ) : Except Thrown ReplayReport × World σ :=
  match assertNarrow scope with
  | .error thrown => (.error thrown, world)
  | .ok () =>
      let records := world.inbound.select (selectionFor scope)
      match records.mapM fun record => service.classify record scope mode world with
      | .error thrown => (.error thrown, world)
      | .ok outcomes =>
          (.ok (report readings mode true scope ⟨"system", none⟩ records
            { Progress.begin scope with outcomes := outcomes }), world)

/-- Replay the scope for real, one event at a time. The lock is released on every way out. -/
def run (service : ReplayService σ) (scope : ReplayScope) (mode : ReplayMode) (actor : ReplayActor)
    (options : ReplayOptions) (readings : Readings) (world : World σ) :
    Except Thrown ReplayReport × World σ :=
  match assertNarrow scope with
  | .error thrown => (.error thrown, world)
  | .ok () =>
      if world.held then (.error (conflict "another replay is already running"), world)
      else
        let records := world.inbound.select (selectionFor scope)
        let started := journalled readings actor "event_replay.started"
          (.started mode scope records.length)
        let begun := { world with held := true, journal := world.journal ++ [started] }
        match service.replayEach scope mode (options.stopOnError.getD true) readings records
            (Progress.begin scope) begun with
        | (.error thrown, after) => (.error thrown, { after with held := false })
        | (.ok progress, after) =>
            let finished := report readings mode false scope actor records progress
            (.ok finished, { after with
              journal := after.journal ++
                [journalled readings actor "event_replay.finished" (finishedMetadata finished)]
              held := false })

end ReplayService

end WaslaCore.Replay
