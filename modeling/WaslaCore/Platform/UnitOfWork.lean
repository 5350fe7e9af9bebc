import WaslaCore.Platform.Errors

/-!
What a call hands to its commit: the staged writes, the events for the outbox
and the audit entries, all of which land together or not at all. Events and
audit entries carry what some modelled function reads; envelope fields that are
only passed on (event and audit identifiers, correlation, producer, instant) are
left out.
-/

namespace WaslaCore.Platform

/-- One value of a payload or of audit metadata. -/
inductive Scalar where
  | null
  | text (value : String)
  | number (value : Int)
  | flag (value : Bool)
  deriving DecidableEq, Repr

namespace Scalar

def optionalText : Option String → Scalar
  | none => .null
  | some value => .text value

def optionalNumber : Option Int → Scalar
  | none => .null
  | some value => .number value

end Scalar

abbrev Payload := List (String × Scalar)

/-- An event as `makeEvent` builds it. -/
structure Event where
  eventType : String
  entityType : String
  entityId : String
  payload : Payload
  deriving DecidableEq, Repr

/-- An audit entry as a caller supplies it. -/
structure AuditEntry where
  action : String
  entityType : String
  entityId : String
  metadata : Payload
  deriving DecidableEq, Repr

/-- `part` stands somewhere in `text`. -/
def containsText (part text : List Char) : Bool :=
  match text with
  | [] => part.isEmpty
  | _ :: rest => part.isPrefixOf text || containsText part rest

/-- `/token|secret|password|authorization|api[_-]?key/i`. -/
def isSensitive (key : String) : Bool :=
  ["token", "secret", "password", "authorization", "apikey", "api_key", "api-key"].any
    (fun word => containsText word.toList (key.toList.map Char.toLower))

/-- Metadata is scrubbed before it is stored. -/
def scrub (metadata : Payload) : Payload :=
  metadata.map (fun item => if isSensitive item.1 then (item.1, .text "[redacted]") else item)

/-- The entry as `AuditLog.record` stores it. -/
def AuditEntry.recorded (entry : AuditEntry) : AuditEntry :=
  { entry with metadata := scrub entry.metadata }

/-- How many events of one type are about one entity. -/
def eventsOf (eventType entityId : String) (events : List Event) : Nat :=
  events.countP (fun event => event.eventType = eventType ∧ event.entityId = entityId)

/-- How many audit entries name one action on one entity. -/
def entriesOf (action entityId : String) (audit : List AuditEntry) : Nat :=
  audit.countP (fun entry => entry.action = action ∧ entry.entityId = entityId)

@[simp] theorem eventsOf_append (eventType entityId : String) (first second : List Event) :
    eventsOf eventType entityId (first ++ second) =
      eventsOf eventType entityId first + eventsOf eventType entityId second :=
  List.countP_append

@[simp] theorem entriesOf_append (action entityId : String) (first second : List AuditEntry) :
    entriesOf action entityId (first ++ second) =
      entriesOf action entityId first + entriesOf action entityId second :=
  List.countP_append

/-- Scrubbing changes no action and no entity. -/
@[simp] theorem entriesOf_recorded (action entityId : String) (entries : List AuditEntry) :
    entriesOf action entityId (entries.map AuditEntry.recorded) =
      entriesOf action entityId entries := by
  rw [entriesOf, List.countP_map]
  rfl

/-- A unit of work over writes `W`. Nothing in it is visible before the commit. -/
structure UnitOfWork (W : Type) where
  writes : List W
  events : List Event
  audits : List AuditEntry

namespace UnitOfWork

variable {W : Type}

def empty : UnitOfWork W := ⟨[], [], []⟩

def stage (uow : UnitOfWork W) (writes : List W) : UnitOfWork W :=
  { uow with writes := uow.writes ++ writes }

def emit (uow : UnitOfWork W) (event : Event) : UnitOfWork W :=
  { uow with events := uow.events ++ [event] }

def audit (uow : UnitOfWork W) (entry : AuditEntry) : UnitOfWork W :=
  { uow with audits := uow.audits ++ [entry] }

@[simp] theorem stage_writes (uow : UnitOfWork W) (writes : List W) :
    (uow.stage writes).writes = uow.writes ++ writes := rfl

@[simp] theorem stage_events (uow : UnitOfWork W) (writes : List W) :
    (uow.stage writes).events = uow.events := rfl

@[simp] theorem stage_audits (uow : UnitOfWork W) (writes : List W) :
    (uow.stage writes).audits = uow.audits := rfl

@[simp] theorem emit_writes (uow : UnitOfWork W) (event : Event) :
    (uow.emit event).writes = uow.writes := rfl

@[simp] theorem emit_events (uow : UnitOfWork W) (event : Event) :
    (uow.emit event).events = uow.events ++ [event] := rfl

@[simp] theorem emit_audits (uow : UnitOfWork W) (event : Event) :
    (uow.emit event).audits = uow.audits := rfl

@[simp] theorem audit_writes (uow : UnitOfWork W) (entry : AuditEntry) :
    (uow.audit entry).writes = uow.writes := rfl

@[simp] theorem audit_events (uow : UnitOfWork W) (entry : AuditEntry) :
    (uow.audit entry).events = uow.events := rfl

@[simp] theorem audit_audits (uow : UnitOfWork W) (entry : AuditEntry) :
    (uow.audit entry).audits = uow.audits ++ [entry] := rfl

end UnitOfWork

end WaslaCore.Platform
