import Mathlib.Logic.Function.Basic
import WaslaCore.Data.Undo
import WaslaCore.Interleaving.Process
import WaslaCore.Platform.UnitOfWork

/-!
The in-memory transaction boundary. A write registers its inverse before it is
applied; a failure anywhere runs the inverses, the last one first. Rows of all the
in-memory stores are `α`, a store is named by `N`, and the outbox is one of them.
-/

namespace WaslaCore.Platform.InMemory

open Data Interleaving

/-- Every in-memory store, and the audit log. -/
structure Memory (N α : Type) where
  stores : N → Table α
  audit : List AuditEntry

/-- What a write that is applied changes. -/
inductive Write (N α : Type) where
  | row (store : N) (key : String) (value : α)
  | entry (entry : AuditEntry)

/-- How a write is undone. -/
inductive Inverse (N α : Type) where
  | restore (store : N) (key : String) (previous : α)
  | remove (store : N) (key : String)
  | truncate (lengthBefore : Nat)

section Journal

variable {N α : Type}

/-- `MemoryJournal`: inverses, the last registered first, and the checks put off to
the commit. -/
structure MemoryJournal (N α : Type) where
  undo : List (Inverse N α)
  deferred : List (String × (Memory N α → Except Thrown Unit))

namespace MemoryJournal

def empty : MemoryJournal N α := ⟨[], []⟩

def record (journal : MemoryJournal N α) (inverse : Inverse N α) : MemoryJournal N α :=
  { journal with undo := inverse :: journal.undo }

/-- Checks of one key are run once. -/
def defer (journal : MemoryJournal N α) (key : String) (check : Memory N α → Except Thrown Unit) :
    MemoryJournal N α :=
  if journal.deferred.any (fun known => known.1 = key) then journal
  else { journal with deferred := journal.deferred ++ [(key, check)] }

/-- The first violation is thrown. -/
def verify (journal : MemoryJournal N α) (memory : Memory N α) : Except Thrown Unit :=
  journal.deferred.forM (fun deferred => deferred.2 memory)

theorem verify_congr {journal journal' : MemoryJournal N α}
    (h : journal.deferred = journal'.deferred) (memory : Memory N α) :
    journal.verify memory = journal'.verify memory := by
  rw [verify, verify, h]

@[simp] theorem record_undo (journal : MemoryJournal N α) (inverse : Inverse N α) :
    (journal.record inverse).undo = inverse :: journal.undo := rfl

@[simp] theorem record_deferred (journal : MemoryJournal N α) (inverse : Inverse N α) :
    (journal.record inverse).deferred = journal.deferred := rfl

@[simp] theorem defer_undo (journal : MemoryJournal N α) (key : String)
    (check : Memory N α → Except Thrown Unit) : (journal.defer key check).undo = journal.undo := by
  unfold defer
  split <;> rfl

end MemoryJournal

end Journal

section Writes

variable {N α : Type} [DecidableEq N]

namespace Memory

def setStore (memory : Memory N α) (store : N) (table : Table α) : Memory N α :=
  { memory with stores := Function.update memory.stores store table }

def write (memory : Memory N α) : Write N α → Memory N α
  | .row store key value => memory.setStore store ((memory.stores store).put key value)
  | .entry entry => { memory with audit := memory.audit ++ [entry] }

def writeAll (memory : Memory N α) (writes : List (Write N α)) : Memory N α :=
  writes.foldl write memory

/-- `journalMapWrite` and `journalAppend`: the inverse as the memory before shows it. -/
def inverse (memory : Memory N α) : Write N α → Inverse N α
  | .row store key _ =>
      match (memory.stores store).get key with
      | some previous => .restore store key previous
      | none => .remove store key
  | .entry _ => .truncate memory.audit.length

def revert (memory : Memory N α) : Inverse N α → Memory N α
  | .restore store key previous => memory.setStore store ((memory.stores store).put key previous)
  | .remove store key => memory.setStore store ((memory.stores store).erase key)
  | .truncate lengthBefore => { memory with audit := memory.audit.take lengthBefore }

/-- The inverses in the order they are popped. -/
def rollback (memory : Memory N α) : List (Inverse N α) → Memory N α
  | [] => memory
  | inverse :: earlier => (memory.revert inverse).rollback earlier

@[simp] theorem writeAll_nil (memory : Memory N α) : memory.writeAll [] = memory := rfl

@[simp] theorem writeAll_cons (memory : Memory N α) (first : Write N α) (rest : List (Write N α)) :
    memory.writeAll (first :: rest) = (memory.write first).writeAll rest := rfl

theorem writeAll_append (memory : Memory N α) (first second : List (Write N α)) :
    memory.writeAll (first ++ second) = (memory.writeAll first).writeAll second :=
  List.foldl_append

@[simp] theorem setStore_self (memory : Memory N α) (store : N) :
    memory.setStore store (memory.stores store) = memory := by
  simp [setStore]

@[simp] theorem setStore_stores (memory : Memory N α) (store : N) (table : Table α) :
    (memory.setStore store table).stores store = table := by
  simp [setStore]

@[simp] theorem setStore_setStore (memory : Memory N α) (store : N) (first second : Table α) :
    (memory.setStore store first).setStore store second = memory.setStore store second := by
  simp [setStore]

/-- An inverse takes back the write it was registered for. -/
theorem revert_write (memory : Memory N α) (write : Write N α) :
    (memory.write write).revert (memory.inverse write) = memory := by
  cases write with
  | row store key value =>
      simp only [Memory.write, inverse]
      cases hget : (memory.stores store).get key with
      | some previous => simp [revert, Table.put_put_old hget]
      | none => simp [revert, Table.erase_put_new hget]
  | entry entry => simp [Memory.write, inverse, revert]

/-- An inverse registered for a write that was refused changes nothing. -/
theorem revert_refused (memory : Memory N α) (write : Write N α) :
    memory.revert (memory.inverse write) = memory := by
  cases write with
  | row store key value =>
      simp only [inverse]
      cases hget : (memory.stores store).get key with
      | some previous => simp [revert, Table.put_same hget]
      | none => simp [revert, Table.erase_absent hget]
  | entry entry => simp [inverse, revert]

end Memory

/-! ### Statements -/

/-- One awaited step of a commit. `put` is a repository write: its own checks, which
refuse it, leave the stores alone or name the row to write, and then the rules of
the row, checked once its inverse is registered. `append` is `AuditLog.record`. -/
inductive Statement (N α : Type) where
  | put (check : Memory N α → Except Thrown (Option (N × String × α)))
      (rules : Memory N α → Except Thrown Unit)
  | append (entry : AuditEntry) (rules : Except Thrown Unit)
  | defer (key : String) (check : Memory N α → Except Thrown Unit)

/-- A repository write tells whether it wrote. -/
@[reducible] def Statement.Answer : Statement N α → Type
  | .put _ _ => Except Thrown Bool
  | .append _ _ => Except Thrown Unit
  | .defer _ _ => Unit

/-- The answer, and the write the statement makes. -/
def Statement.effect (memory : Memory N α) :
    (statement : Statement N α) → statement.Answer × Option (Write N α)
  | .put check rules =>
      match check memory with
      | .error error => (.error error, none)
      | .ok none => (.ok false, none)
      | .ok (some (store, key, value)) =>
          match rules memory with
          | .error error => (.error error, none)
          | .ok () => (.ok true, some (.row store key value))
  | .append entry rules =>
      match rules with
      | .error error => (.error error, none)
      | .ok () => (.ok (), some (.entry entry.recorded))
  | .defer _ _ => ((), none)

/-- The journal after the statement. -/
def Statement.journal (memory : Memory N α) (journal : MemoryJournal N α) :
    Statement N α → MemoryJournal N α
  | .put check _ =>
      match check memory with
      | .error _ => journal
      | .ok none => journal
      | .ok (some (store, key, value)) => journal.record (memory.inverse (.row store key value))
  | .append entry rules =>
      match rules with
      | .error _ => journal
      | .ok () => journal.record (memory.inverse (.entry entry.recorded))
  | .defer key check => journal.defer key check

/-- The memory after the statement. -/
def Statement.after (memory : Memory N α) (statement : Statement N α) : Memory N α :=
  memory.writeAll (statement.effect memory).2.toList

/-- Whatever a statement does, its journal takes back. -/
theorem Statement.rollback_after (memory : Memory N α) (journal : MemoryJournal N α)
    (statement : Statement N α) :
    (statement.after memory).rollback (statement.journal memory journal).undo =
      memory.rollback journal.undo := by
  cases statement with
  | put check rules =>
      simp only [Statement.after, Statement.effect, Statement.journal]
      cases check memory with
      | error error => rfl
      | ok found =>
          cases found with
          | none => rfl
          | some row =>
              obtain ⟨store, key, value⟩ := row
              cases rules memory with
              | error error =>
                  simp [Memory.rollback, Memory.revert_refused]
              | ok _ =>
                  simp [Memory.rollback, Memory.revert_write]
  | append entry rules =>
      cases rules with
      | error error => rfl
      | ok _ =>
          simp [Statement.after, Statement.effect, Statement.journal, Memory.rollback,
            Memory.revert_write]
  | defer key check => simp [Statement.after, Statement.effect, Statement.journal]

/-- Staged work: statements, each continued by what it was answered. -/
abbrev Mutation (N α β : Type) := Process (Statement N α) Statement.Answer Thrown β

/-! ### The boundary -/

/-- `InMemoryTransactionBoundary.run` from here on, nothing else running: the deferred
checks once the work is done, the inverses where anything was thrown. -/
def boundaryRun {β : Type} : Mutation N α β → MemoryJournal N α → Memory N α →
    Except Thrown β × Memory N α
  | .done value, journal, memory =>
      match journal.verify memory with
      | .ok () => (.ok value, memory)
      | .error error => (.error error, memory.rollback journal.undo)
  | .fail error, journal, memory => (.error error, memory.rollback journal.undo)
  | .act statement next, journal, memory =>
      boundaryRun (next (statement.effect memory).1) (statement.journal memory journal)
        (statement.after memory)

/-- The writes the work makes, each once and in order. -/
def writesOf {β : Type} : Mutation N α β → Memory N α → List (Write N α)
  | .done _, _ => []
  | .fail _, _ => []
  | .act statement next, memory =>
      (statement.effect memory).2.toList ++
        writesOf (next (statement.effect memory).1) (statement.after memory)

/-- A failure, wherever it happens, leaves what the journal takes it back to. -/
theorem boundaryRun_error {β : Type} {work : Mutation N α β} {journal : MemoryJournal N α}
    {memory after : Memory N α} {error : Thrown}
    (h : boundaryRun work journal memory = (.error error, after)) :
    after = memory.rollback journal.undo := by
  induction work generalizing journal memory with
  | done value =>
      simp only [boundaryRun] at h
      split at h
      · cases h
      · exact (Prod.mk.inj h).2.symm
  | fail thrown => exact (Prod.mk.inj h).2.symm
  | act statement next ih =>
      rw [ih _ h, Statement.rollback_after]

/-- A success leaves the writes made, and nothing else. -/
theorem boundaryRun_ok {β : Type} {work : Mutation N α β} {journal : MemoryJournal N α}
    {memory after : Memory N α} {value : β}
    (h : boundaryRun work journal memory = (.ok value, after)) :
    after = memory.writeAll (writesOf work memory) := by
  induction work generalizing journal memory with
  | done result =>
      simp only [boundaryRun] at h
      split at h
      · exact (Prod.mk.inj h).2.symm
      · cases h
  | fail thrown => cases (Prod.mk.inj h).1
  | act statement next ih =>
      rw [ih _ h, writesOf, Memory.writeAll_append]
      rfl

end Writes

end WaslaCore.Platform.InMemory
