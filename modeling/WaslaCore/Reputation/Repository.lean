import WaslaCore.Data.Table
import WaslaCore.Platform.UnitOfWork
import WaslaCore.Reputation.Domain

/-!
The reputation store. Its two writes decide for themselves: an insert whose source is
already there, and a marker for a signal that is not standing, are answered and change
nothing. Every stored row is judged by the rules of its table on the way in, and an
update against the row it replaces.
-/

namespace WaslaCore.Reputation

open Platform Data

inductive SignalInsertOutcome where
  | inserted
  | duplicateSourceReference
  deriving DecidableEq, Repr

inductive RetractionOutcome where
  | applied
  | stale
  deriving DecidableEq, Repr

/-- The withdrawal of what a producer reported under one source. -/
structure Retraction where
  source : SignalSource
  retractedAt : Int
  reason : String
  deriving DecidableEq, Repr

/-- The row with its marker. -/
def ReputationSignal.marked (signal : ReputationSignal) (retraction : Retraction) :
    ReputationSignal :=
  { signal with
    retractedAt := some retraction.retractedAt
    retractionReason := some retraction.reason }

def violates (constraint : String) : String :=
  "new row violates check constraint \"" ++ constraint ++ "\""

/-- The rules of a new row, in the order they are asked. -/
def assertSignalShape (signal : ReputationSignal) : Except String Unit :=
  if !ratingShapeIsValid signal.signalKind signal.ratingValue then
    .error (violates "reputation_signal_rating_shape")
  else if isBlank signal.sourceSystem then
    .error (violates "reputation_signal_source_system_present")
  else if isBlank signal.sourceReference then
    .error (violates "reputation_signal_source_reference_present")
  else if isBlank signal.correlationId then
    .error (violates "reputation_signal_correlation_present")
  else if signal.retractedAt.isNone ≠ signal.retractionReason.all isBlank then
    .error (violates "reputation_signal_retraction_fields")
  else .ok ()

/-- Everything a row may not change once it is there. -/
def ReputationSignal.sameFrozen (previous next : ReputationSignal) : Bool :=
  { previous with retractedAt := none, retractionReason := none } =
    { next with retractedAt := none, retractionReason := none }

/-- `reputation_signal_append_only`. -/
def assertAppendOnly (previous next : ReputationSignal) : Except String Unit :=
  match previous.retractedAt with
  | some at' =>
      .error ("reputation signal " ++ previous.reputationSignalId ++ " was already retracted at " ++
        toString at' ++ "; a retraction is single-valued")
  | none =>
      if !previous.sameFrozen next then
        .error ("reputation_signal is append-only; only the retraction marker may be written " ++
          "after insert")
      else if next.retractedAt.isNone then
        .error "a reputation signal may not be un-retracted"
      else .ok ()

/-- The store, with the organizations a signal may name. -/
structure ReputationStore where
  organizations : List String
  signals : Table ReputationSignal
  outbox : List Event
  audit : List AuditEntry

namespace ReputationStore

def empty (organizations : List String) : ReputationStore := ⟨organizations, .empty, [], []⟩

/-- `putRow`: the parent of the row, then the row it replaces. -/
def putRow (store : ReputationStore) (signal : ReputationSignal) :
    Except String ReputationStore := do
  if signal.organizationId ∉ store.organizations then
    throw ("insert or update on table \"reputation_signal\" violates foreign key constraint " ++
      "\"reputation_signal_organization_id_fkey\"")
  match store.signals.get signal.reputationSignalId with
  | some previous => assertAppendOnly previous signal
  | none => pure ()
  pure { store with signals := store.signals.put signal.reputationSignalId signal }

def findBySource (store : ReputationStore) (source : SignalSource) : Option ReputationSignal :=
  store.signals.values.find? (fun row => row.source = source)

def get (store : ReputationStore) (signalId : String) : Option ReputationSignal :=
  store.signals.get signalId

def insertIfAbsent (store : ReputationStore) (signal : ReputationSignal) :
    Except String (SignalInsertOutcome × ReputationStore) := do
  assertSignalShape signal
  if (store.findBySource signal.source).isSome then
    pure (.duplicateSourceReference, store)
  else
    let written ← store.putRow signal
    pure (.inserted, written)

def retractIfStanding (store : ReputationStore) (retraction : Retraction) :
    Except String (RetractionOutcome × ReputationStore) := do
  if isBlank retraction.reason then
    throw (violates "reputation_signal_retraction_fields")
  match store.findBySource retraction.source with
  | none => pure (.stale, store)
  | some stored =>
      if stored.retractedAt.isSome then pure (.stale, store)
      else
        let written ← store.putRow (stored.marked retraction)
        pure (.applied, written)

def forSubject (store : ReputationStore) (subject : ReputationSubject) : List ReputationSignal :=
  store.signals.values.filter (fun row => row.subject = subject)

def groupsForSubject (store : ReputationStore) (subject : ReputationSubject) :
    List ReputationKindGroup :=
  groupSignals (store.forSubject subject)

def standing (store : ReputationStore) (subject : ReputationSubject) : ReputationStanding :=
  deriveStanding subject (store.groupsForSubject subject)

end ReputationStore

end WaslaCore.Reputation
