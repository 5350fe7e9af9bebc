import WaslaCore.Platform.Journal

/-!
Two transactions whose commits overlap over the in-memory stores, and audit entries
recorded outside. A rollback puts old rows back and cuts the log to an old length, so
it takes with it whatever was written meanwhile in the cells its transaction journaled;
where nothing was, the other transaction cannot tell that the first one ever ran.
-/

namespace WaslaCore.Platform.InMemory

open Data Interleaving

section Outcomes

variable {N α β : Type}

/-- A transaction in its commit: `outcome` once it committed or was rolled back. -/
structure Committing (N α β : Type) where
  work : Mutation N α β
  journal : MemoryJournal N α
  outcome : Option (Except Thrown β)

namespace Committing

def begin (work : Mutation N α β) : Committing N α β := ⟨work, .empty, none⟩

def Committed (side : Committing N α β) : Prop := ∃ value, side.outcome = some (.ok value)

def Aborted (side : Committing N α β) : Prop := ∃ error, side.outcome = some (.error error)

theorem Aborted.ended {side : Committing N α β} (h : side.Aborted) : side.outcome ≠ none := by
  obtain ⟨error, herror⟩ := h
  simp [herror]

theorem Committed.ended {side : Committing N α β} (h : side.Committed) : side.outcome ≠ none := by
  obtain ⟨value, hvalue⟩ := h
  simp [hvalue]

theorem Committed.not_aborted {side : Committing N α β} (h : side.Committed) : ¬side.Aborted := by
  rintro ⟨error, herror⟩
  obtain ⟨value, hvalue⟩ := h
  rw [hvalue] at herror
  cases herror

end Committing

/-- What a statement puts off does not depend on the memory or on the inverses. -/
theorem journal_deferred (statement : Statement N α) {journal journal' : MemoryJournal N α}
    {memory loneMemory : Memory N α} (h : journal.deferred = journal'.deferred) :
    (statement.journal memory journal).deferred =
      (statement.journal loneMemory journal').deferred := by
  cases statement with
  | put check rules =>
      have hkept : ∀ (memory : Memory N α) (journal : MemoryJournal N α),
          ((Statement.put check rules).journal memory journal).deferred = journal.deferred := by
        intro memory journal
        simp only [Statement.journal]
        split <;> rfl
      rw [hkept, hkept, h]
  | append entry rules =>
      simp only [Statement.journal]
      cases rules with
      | error error => exact h
      | ok _ => exact h
  | defer key check =>
      simp only [Statement.journal, MemoryJournal.defer, h]
      split
      · exact h
      · rfl

end Outcomes

section Overlap

variable {N α β : Type} [DecidableEq N]

namespace Committing

/-- The next statement of the commit, or its end: the deferred checks and the rollback
run without anything in between. -/
def advance (side : Committing N α β) (memory : Memory N α) : Committing N α β × Memory N α :=
  match side.outcome with
  | some _ => (side, memory)
  | none =>
      match side.work with
      | .done value =>
          match side.journal.verify memory with
          | .ok () => ({ side with outcome := some (.ok value) }, memory)
          | .error error =>
              ({ side with outcome := some (.error error) }, memory.rollback side.journal.undo)
      | .fail error =>
          ({ side with outcome := some (.error error) }, memory.rollback side.journal.undo)
      | .act statement next =>
          (⟨next (statement.effect memory).1, statement.journal memory side.journal, none⟩,
            statement.after memory)

/-- What the next step writes. -/
def writes (side : Committing N α β) (memory : Memory N α) : List (Write N α) :=
  match side.outcome, side.work with
  | none, .act statement _ => (statement.effect memory).2.toList
  | _, _ => []

end Committing

/-- Whose turn it is. -/
inductive Turn where
  | first
  | second
  | outside (entry : AuditEntry)

structure Overlap (N α β : Type) where
  first : Committing N α β
  second : Committing N α β
  memory : Memory N α

namespace Overlap

def advance (overlap : Overlap N α β) : Turn → Overlap N α β
  | .first =>
      let (first, memory) := overlap.first.advance overlap.memory
      { overlap with first := first, memory := memory }
  | .second =>
      let (second, memory) := overlap.second.advance overlap.memory
      { overlap with second := second, memory := memory }
  | .outside entry => { overlap with memory := overlap.memory.write (.entry entry.recorded) }

theorem advance_first (overlap : Overlap N α β) : overlap.advance .first =
    ⟨(overlap.first.advance overlap.memory).1, overlap.second,
      (overlap.first.advance overlap.memory).2⟩ := rfl

theorem advance_second (overlap : Overlap N α β) : overlap.advance .second =
    ⟨overlap.first, (overlap.second.advance overlap.memory).1,
      (overlap.second.advance overlap.memory).2⟩ := rfl

def run (overlap : Overlap N α β) (turns : List Turn) : Overlap N α β :=
  turns.foldl advance overlap

end Overlap

/-- The second transaction and the outside entries alone, in the same order. -/
def alone (second : Committing N α β) (memory : Memory N α) : List Turn →
    Committing N α β × Memory N α
  | [] => (second, memory)
  | .first :: rest => alone second memory rest
  | .second :: rest => alone (second.advance memory).1 (second.advance memory).2 rest
  | .outside entry :: rest => alone second (memory.write (.entry entry.recorded)) rest

/-! ### Writes that a rollback does not reach -/

/-- The inverse restores a cell, or a part of the log, that the write changes. -/
def Inverse.reaches (inverse : Inverse N α) (write : Write N α) : Prop :=
  match inverse, write with
  | .restore store key _, .row other otherKey _ => store = other ∧ key = otherKey
  | .remove store key, .row other otherKey _ => store = other ∧ key = otherKey
  | .truncate _, .entry _ => True
  | _, _ => False

/-- The row an inverse puts back has a row to replace. -/
def Inverse.present (inverse : Inverse N α) (memory : Memory N α) : Prop :=
  match inverse with
  | .restore store key _ => ((memory.stores store).get key).isSome
  | .remove _ _ => True
  | .truncate _ => True

/-- Every inverse finds its row when its turn comes. -/
def Live (memory : Memory N α) : List (Inverse N α) → Prop
  | [] => True
  | inverse :: earlier => inverse.present memory ∧ Live (memory.revert inverse) earlier

theorem write_stores (memory : Memory N α) (store other : N) (key otherKey : String) (value : α) :
    ((memory.write (.row other otherKey value)).stores store).get key =
      if store = other ∧ otherKey = key then some value else (memory.stores store).get key := by
  simp only [Memory.write, Memory.setStore]
  by_cases hstore : store = other
  · subst hstore
    simp [Table.get_put]
  · simp [hstore]

theorem present_write {inverse : Inverse N α} {memory : Memory N α} (write : Write N α)
    (h : inverse.present memory) : inverse.present (memory.write write) := by
  cases inverse with
  | restore store key previous =>
      cases write with
      | row other otherKey value =>
          simp only [Inverse.present, write_stores] at h ⊢
          split
          · rfl
          · exact h
      | entry entry => exact h
  | remove store key => trivial
  | truncate lengthBefore => trivial

/-- A write in another store does not meet a write of a table. -/
theorem setStore_comm (memory : Memory N α) {store other : N} (hne : store ≠ other)
    (first second : Table α) :
    (memory.setStore other second).setStore store first =
      (memory.setStore store first).setStore other second := by
  simp only [Memory.setStore, Memory.mk.injEq, and_true]
  exact Function.update_comm (Ne.symm hne) second first memory.stores

/-- A write the inverse does not reach may as well come after it. -/
theorem revert_comm {inverse : Inverse N α} {memory : Memory N α} {write : Write N α}
    (hpresent : inverse.present memory) (hapart : ¬inverse.reaches write) :
    (memory.write write).revert inverse = (memory.revert inverse).write write := by
  cases write with
  | entry entry =>
      cases inverse with
      | restore store key previous => rfl
      | remove store key => rfl
      | truncate lengthBefore => exact absurd trivial hapart
  | row other otherKey value =>
      cases inverse with
      | restore store key previous =>
          obtain ⟨stored, hstored⟩ := Option.isSome_iff_exists.mp hpresent
          by_cases hstore : store = other
          · subst hstore
            have hkey : key ≠ otherKey := fun hsame => hapart ⟨rfl, hsame⟩
            simp [Memory.write, Memory.revert, Table.put_comm hkey hstored]
          · simp only [Memory.write, Memory.revert]
            rw [setStore_comm memory hstore]
            simp [Memory.setStore, Function.update_of_ne hstore, Function.update_of_ne (Ne.symm hstore)]
      | remove store key =>
          by_cases hstore : store = other
          · subst hstore
            have hkey : key ≠ otherKey := fun hsame => hapart ⟨rfl, hsame⟩
            simp [Memory.write, Memory.revert, Table.erase_put_comm hkey]
          · simp only [Memory.write, Memory.revert]
            rw [setStore_comm memory hstore]
            simp [Memory.setStore, Function.update_of_ne hstore, Function.update_of_ne (Ne.symm hstore)]
      | truncate lengthBefore => rfl

theorem rollback_comm {undo : List (Inverse N α)} {memory : Memory N α} {write : Write N α}
    (hlive : Live memory undo) (hapart : ∀ inverse ∈ undo, ¬inverse.reaches write) :
    Live (memory.write write) undo ∧
      (memory.write write).rollback undo = (memory.rollback undo).write write := by
  induction undo generalizing memory with
  | nil => exact ⟨trivial, rfl⟩
  | cons inverse earlier ih =>
      have hrevert := revert_comm hlive.1 (hapart inverse (List.mem_cons_self ..))
      have hrest := ih hlive.2 fun other hother => hapart other (List.mem_cons_of_mem _ hother)
      refine ⟨⟨present_write write hlive.1, ?_⟩, ?_⟩
      · rw [hrevert]
        exact hrest.1
      · rw [Memory.rollback, hrevert]
        exact hrest.2

/-! ### A turn that the other transaction's rollback would not change -/

/-- While the first transaction is open, a turn of anybody else reads the same in the
memory as a rollback would leave it, and writes no cell the rollback restores. -/
def Undisturbed (overlap : Overlap N α β) : Turn → Prop
  | .first => True
  | .second => overlap.first.outcome = none → overlap.second.outcome = none →
      match overlap.second.work with
      | .done _ => overlap.second.journal.verify overlap.memory =
          overlap.second.journal.verify (overlap.memory.rollback overlap.first.journal.undo)
      | .fail _ => True
      | .act statement _ =>
          statement.effect overlap.memory =
              statement.effect (overlap.memory.rollback overlap.first.journal.undo) ∧
            ∀ write ∈ (statement.effect overlap.memory).2.toList,
              ∀ inverse ∈ overlap.first.journal.undo, ¬inverse.reaches write
  | .outside entry => overlap.first.outcome = none →
      ∀ inverse ∈ overlap.first.journal.undo, ¬inverse.reaches (.entry entry.recorded)

/-- Every turn of the run is undisturbed. -/
def AllUndisturbed (overlap : Overlap N α β) : List Turn → Prop
  | [] => True
  | turn :: rest => Undisturbed overlap turn ∧ AllUndisturbed (overlap.advance turn) rest

/-- The second transaction as it would be alone, but for its inverses. -/
structure Alike (second lone : Committing N α β) : Prop where
  work : second.work = lone.work
  deferred : second.journal.deferred = lone.journal.deferred
  outcome : second.outcome = lone.outcome

/-- How a run compares with the second transaction alone: the first one's rollback
would give the other memory, or has given it. -/
inductive Shadows : Overlap N α β → Committing N α β × Memory N α → Prop where
  | open_ {first second memory lone loneMemory} (hopen : first.outcome = none)
      (hlive : Live memory first.journal.undo)
      (hmemory : memory.rollback first.journal.undo = loneMemory) (halike : Alike second lone) :
      Shadows ⟨first, second, memory⟩ (lone, loneMemory)
  | rolledBack {first second memory lone} (haborted : first.Aborted) (halike : Alike second lone) :
      Shadows ⟨first, second, memory⟩ (lone, memory)
  | stood {first second memory lone} (hcommitted : first.Committed) :
      Shadows ⟨first, second, memory⟩ lone
  | gaveUp {first second memory lone} (haborted : second.Aborted) :
      Shadows ⟨first, second, memory⟩ lone

section Steps

variable {first second lone : Committing N α β} {memory loneMemory : Memory N α}

theorem Committing.advance_ended (h : second.outcome ≠ none) :
    second.advance memory = (second, memory) := by
  unfold Committing.advance
  cases houtcome : second.outcome with
  | none => exact absurd houtcome h
  | some outcome => rfl

/-- Journaling a statement keeps every inverse good for its turn. -/
theorem Live.statement {journal : MemoryJournal N α} (h : Live memory journal.undo)
    (statement : Statement N α) :
    Live (statement.after memory) (statement.journal memory journal).undo := by
  have hrestored : ∀ (store : N) (key : String) (value : α) (after : Memory N α),
      (((memory.stores store).get key).isSome → ((after.stores store).get key).isSome) →
      after.revert (memory.inverse (.row store key value)) = memory →
      Live after (memory.inverse (.row store key value) :: journal.undo) := by
    intro store key value after hsome hrevert
    refine ⟨?_, by rwa [hrevert]⟩
    simp only [Memory.inverse]
    cases hget : (memory.stores store).get key with
    | none => trivial
    | some previous => exact hsome (by simp [hget])
  cases statement with
  | put check rules =>
      simp only [Statement.after, Statement.effect, Statement.journal]
      cases check memory with
      | error error => exact h
      | ok found =>
          cases found with
          | none => exact h
          | some row =>
              obtain ⟨store, key, value⟩ := row
              cases rules memory with
              | error error =>
                  exact hrestored store key value memory (fun hsome => hsome)
                    (Memory.revert_refused memory (.row store key value))
              | ok _ =>
                  refine hrestored store key value (memory.write (.row store key value)) ?_
                    (Memory.revert_write memory (.row store key value))
                  intro _
                  rw [write_stores, if_pos ⟨rfl, rfl⟩]
                  rfl
  | append entry rules =>
      simp only [Statement.after, Statement.effect, Statement.journal]
      cases rules with
      | error error => exact h
      | ok _ =>
          have hrevert := Memory.revert_write memory (.entry entry.recorded)
          refine ⟨trivial, ?_⟩
          change Live ((memory.write (.entry entry.recorded)).revert _) journal.undo
          rwa [hrevert]
  | defer key check =>
      simp only [Statement.after, Statement.effect, Statement.journal, MemoryJournal.defer_undo]
      exact h

/-- The first transaction's turn is nothing to the second alone. -/
theorem Shadows.first_turn {overlap : Overlap N α β} {lone : Committing N α β × Memory N α}
    (h : Shadows overlap lone) : Shadows (overlap.advance .first) lone := by
  cases h with
  | @open_ first second memory lone loneMemory hopen hlive hmemory halike =>
      obtain ⟨work, journal, outcome⟩ := first
      obtain rfl : outcome = none := hopen
      cases work with
      | done value =>
          simp only [Overlap.advance, Committing.advance]
          split
          · exact .stood ⟨value, rfl⟩
          · rename_i error _
            rw [hmemory]
            exact .rolledBack ⟨error, rfl⟩ halike
      | fail error =>
          simp only [Overlap.advance, Committing.advance]
          rw [hmemory]
          exact .rolledBack ⟨error, rfl⟩ halike
      | act statement next =>
          refine .open_ rfl (hlive.statement statement) ?_ halike
          rw [Statement.rollback_after, hmemory]
  | rolledBack haborted halike =>
      rw [Overlap.advance_first, Committing.advance_ended haborted.ended]
      exact .rolledBack haborted halike
  | stood hcommitted =>
      rw [Overlap.advance_first, Committing.advance_ended hcommitted.ended]
      exact .stood hcommitted
  | gaveUp haborted => exact .gaveUp haborted

/-- Two transactions alike that read the same write the same. -/
theorem Alike.advance (halike : Alike second lone)
    (hreads : second.outcome = none →
      match second.work with
      | .done _ => second.journal.verify memory = second.journal.verify loneMemory
      | .fail _ => True
      | .act statement _ => statement.effect memory = statement.effect loneMemory) :
    (second.advance memory).1.Aborted ∨
      Alike (second.advance memory).1 (lone.advance loneMemory).1 ∧
        ∃ writes, writes = second.writes memory ∧
          (second.advance memory).2 = memory.writeAll writes ∧
          (lone.advance loneMemory).2 = loneMemory.writeAll writes := by
  obtain ⟨work, journal, outcome⟩ := second
  obtain ⟨loneWork, loneJournal, loneOutcome⟩ := lone
  obtain ⟨rfl, hdeferred, rfl⟩ := halike
  cases outcome with
  | some ended => exact .inr ⟨⟨rfl, hdeferred, rfl⟩, [], rfl, rfl, rfl⟩
  | none =>
      have hreads := hreads rfl
      cases work with
      | done value =>
          simp only at hreads hdeferred
          simp only [Committing.advance, Committing.writes]
          rw [← MemoryJournal.verify_congr hdeferred loneMemory, ← hreads]
          split
          · exact .inr ⟨⟨rfl, hdeferred, rfl⟩, [], rfl, rfl, rfl⟩
          · rename_i error _
            exact .inl ⟨error, rfl⟩
      | fail error => exact .inl ⟨error, rfl⟩
      | act statement next =>
          simp only at hreads
          refine .inr ⟨⟨?_, journal_deferred statement hdeferred, rfl⟩,
            (statement.effect memory).2.toList, rfl, rfl, ?_⟩
          · simp only [Committing.advance, hreads]
          · simp only [Committing.advance, Statement.after, hreads]

theorem writeAll_comm {undo : List (Inverse N α)} {writes : List (Write N α)}
    (hlive : Live memory undo)
    (hapart : ∀ write ∈ writes, ∀ inverse ∈ undo, ¬inverse.reaches write) :
    Live (memory.writeAll writes) undo ∧
      (memory.writeAll writes).rollback undo = (memory.rollback undo).writeAll writes := by
  induction writes generalizing memory with
  | nil => exact ⟨hlive, rfl⟩
  | cons write rest ih =>
      obtain ⟨hfirst, hcomm⟩ := rollback_comm hlive (hapart write (List.mem_cons_self ..))
      obtain ⟨hrest, hall⟩ := ih hfirst fun other hother =>
        hapart other (List.mem_cons_of_mem _ hother)
      exact ⟨hrest, by rw [Memory.writeAll_cons, hall, hcomm, Memory.writeAll_cons]⟩

/-- An undisturbed turn of the second transaction is the turn it would take alone. -/
theorem Shadows.second_turn {overlap : Overlap N α β} {lone : Committing N α β × Memory N α}
    (h : Shadows overlap lone) (hundisturbed : Undisturbed overlap .second) :
    Shadows (overlap.advance .second) (lone.1.advance lone.2) := by
  cases h with
  | @open_ first second memory lone loneMemory hopen hlive hmemory halike =>
      subst hmemory
      have hundisturbed := hundisturbed hopen
      have hsame : second.outcome = none →
          match second.work with
          | .done _ => second.journal.verify memory =
              second.journal.verify (memory.rollback first.journal.undo)
          | .fail _ => True
          | .act statement _ => statement.effect memory =
              statement.effect (memory.rollback first.journal.undo) := by
        intro hrunning
        have hundisturbed := hundisturbed hrunning
        revert hundisturbed
        cases second.work with
        | done value => exact fun h => h
        | fail error => exact fun _ => trivial
        | act statement next => exact fun h => h.1
      rcases halike.advance hsame with haborted | ⟨halike', writes, hwrites, hafter, hlone⟩
      · exact .gaveUp haborted
      · have hapart : ∀ write ∈ writes, ∀ inverse ∈ first.journal.undo,
            ¬inverse.reaches write := by
          subst hwrites
          intro write hwrite
          obtain ⟨work, journal, outcome⟩ := second
          cases outcome with
          | some ended => cases hwrite
          | none =>
              cases work with
              | done value => cases hwrite
              | fail error => cases hwrite
              | act statement next => exact (hundisturbed rfl).2 write hwrite
        obtain ⟨hlive', hcomm⟩ := writeAll_comm hlive hapart
        rw [Overlap.advance_second, hafter]
        exact .open_ hopen hlive' (hcomm.trans hlone.symm) halike'
  | @rolledBack first second memory lone haborted halike =>
      have hsame : second.outcome = none →
          match second.work with
          | .done _ => second.journal.verify memory = second.journal.verify memory
          | .fail _ => True
          | .act statement _ => statement.effect memory = statement.effect memory := by
        intro _
        cases second.work with
        | done value => rfl
        | fail error => trivial
        | act statement next => rfl
      rcases halike.advance hsame with hgaveUp | ⟨halike', writes, -, hafter, hlone⟩
      · exact .gaveUp hgaveUp
      · have hmemory : (second.advance memory).2 = (lone.advance memory).2 := by
          rw [hafter, hlone]
        rw [Overlap.advance_second,
          show lone.advance memory = ((lone.advance memory).1, (second.advance memory).2) from
            Prod.ext rfl hmemory.symm]
        exact .rolledBack haborted halike'
  | stood hcommitted => exact .stood hcommitted
  | gaveUp haborted =>
      rw [Overlap.advance_second, Committing.advance_ended haborted.ended]
      exact .gaveUp haborted

theorem Shadows.outside_turn {overlap : Overlap N α β} {lone : Committing N α β × Memory N α}
    {entry : AuditEntry} (h : Shadows overlap lone)
    (hundisturbed : Undisturbed overlap (.outside entry)) :
    Shadows (overlap.advance (.outside entry)) (lone.1, lone.2.write (.entry entry.recorded)) := by
  cases h with
  | open_ hopen hlive hmemory halike =>
      obtain ⟨hlive', hcomm⟩ := rollback_comm hlive (hundisturbed hopen)
      exact .open_ hopen hlive' (by rw [hcomm, hmemory]) halike
  | rolledBack haborted halike => exact .rolledBack haborted halike
  | stood hcommitted => exact .stood hcommitted
  | gaveUp haborted => exact .gaveUp haborted

/-- A run of undisturbed turns shadows the second transaction alone. -/
theorem Shadows.run {overlap : Overlap N α β} {second : Committing N α β} {memory : Memory N α}
    (h : Shadows overlap (second, memory)) {turns : List Turn}
    (hundisturbed : AllUndisturbed overlap turns) :
    Shadows (overlap.run turns) (alone second memory turns) := by
  induction turns generalizing overlap second memory with
  | nil => exact h
  | cons turn rest ih =>
      obtain ⟨hturn, hrest⟩ := hundisturbed
      cases turn with
      | first => exact ih h.first_turn hrest
      | second => exact ih (h.second_turn hturn) hrest
      | outside entry => exact ih (h.outside_turn hturn) hrest

end Steps

/-! ### What nobody takes back -/

/-- Every write of the run, in the order it was made. -/
def performed (overlap : Overlap N α β) : List Turn → List (Write N α)
  | [] => []
  | turn :: rest =>
      (match turn with
        | .first => overlap.first.writes overlap.memory
        | .second => overlap.second.writes overlap.memory
        | .outside entry => [.entry entry.recorded]) ++ performed (overlap.advance turn) rest

theorem Committing.advance_writes {side : Committing N α β} {memory : Memory N α}
    (h : ¬(side.advance memory).1.Aborted) :
    (side.advance memory).2 = memory.writeAll (side.writes memory) := by
  obtain ⟨work, journal, outcome⟩ := side
  cases outcome with
  | some ended => rfl
  | none =>
      cases work with
      | done value =>
          cases hverify : journal.verify memory with
          | ok _ => simp [Committing.advance, Committing.writes, hverify]
          | error error =>
              refine absurd ⟨error, ?_⟩ h
              simp [Committing.advance, hverify]
      | fail error => exact absurd ⟨error, rfl⟩ h
      | act statement next => rfl

theorem Committing.advance_aborted {side : Committing N α β} {memory : Memory N α}
    (h : side.Aborted) : (side.advance memory).1.Aborted := by
  rw [Committing.advance_ended h.ended]
  exact h

/-- What was rolled back stays rolled back. -/
theorem run_aborted (overlap : Overlap N α β) (turns : List Turn) :
    (overlap.first.Aborted → (overlap.run turns).first.Aborted) ∧
      (overlap.second.Aborted → (overlap.run turns).second.Aborted) := by
  induction turns generalizing overlap with
  | nil => exact ⟨id, id⟩
  | cons turn rest ih =>
      obtain ⟨hfirst, hsecond⟩ := ih (overlap.advance turn)
      cases turn with
      | first => exact ⟨fun h => hfirst (Committing.advance_aborted h), hsecond⟩
      | second => exact ⟨hfirst, fun h => hsecond (Committing.advance_aborted h)⟩
      | outside entry => exact ⟨hfirst, hsecond⟩

/-- Where neither was rolled back, every write of the run is there, in its order. -/
theorem run_performed {overlap : Overlap N α β} {turns : List Turn}
    (hfirst : ¬(overlap.run turns).first.Aborted) (hsecond : ¬(overlap.run turns).second.Aborted) :
    (overlap.run turns).memory = overlap.memory.writeAll (performed overlap turns) := by
  induction turns generalizing overlap with
  | nil => rfl
  | cons turn rest ih =>
      apply (ih hfirst hsecond).trans
      cases turn with
      | first =>
          have hwrites : (overlap.advance .first).memory =
              overlap.memory.writeAll (overlap.first.writes overlap.memory) :=
            Committing.advance_writes fun h => hfirst ((run_aborted _ rest).1 h)
          rw [hwrites, ← Memory.writeAll_append]
          rfl
      | second =>
          have hwrites : (overlap.advance .second).memory =
              overlap.memory.writeAll (overlap.second.writes overlap.memory) :=
            Committing.advance_writes fun h => hsecond ((run_aborted _ rest).2 h)
          rw [hwrites, ← Memory.writeAll_append]
          rfl
      | outside entry => rfl

/-- Two transactions over the in-memory stores, their commits overlapping in any way,
with entries recorded outside. In a run whose turns are all undisturbed, where the
first is rolled back and the second commits, every store and the log are what the
second and the outside entries alone would have left, and the second commits alone
too. In any run where both commit, every write of either is there, in its order. -/
theorem rollback_isolated (first second : Mutation N α β) (memory : Memory N α)
    (turns : List Turn) :
    (AllUndisturbed ⟨.begin first, .begin second, memory⟩ turns →
      (Overlap.run ⟨.begin first, .begin second, memory⟩ turns).first.Aborted →
      (Overlap.run ⟨.begin first, .begin second, memory⟩ turns).second.Committed →
      (alone (.begin second) memory turns).1.outcome =
          (Overlap.run ⟨.begin first, .begin second, memory⟩ turns).second.outcome ∧
        (alone (.begin second) memory turns).2 =
          (Overlap.run ⟨.begin first, .begin second, memory⟩ turns).memory) ∧
    ((Overlap.run ⟨.begin first, .begin second, memory⟩ turns).first.Committed →
      (Overlap.run ⟨.begin first, .begin second, memory⟩ turns).second.Committed →
      (Overlap.run ⟨.begin first, .begin second, memory⟩ turns).memory =
        memory.writeAll (performed ⟨.begin first, .begin second, memory⟩ turns)) := by
  constructor
  · intro hundisturbed haborted hcommitted
    have hstart : Shadows (⟨.begin first, .begin second, memory⟩ : Overlap N α β)
        (.begin second, memory) := .open_ rfl trivial rfl ⟨rfl, rfl, rfl⟩
    have hend := hstart.run hundisturbed
    revert haborted hcommitted hend
    generalize Overlap.run ⟨.begin first, .begin second, memory⟩ turns = final
    generalize alone (.begin second) memory turns = lone
    intro haborted hcommitted hend
    cases hend with
    | open_ hopen => exact absurd hopen haborted.ended
    | rolledBack _ halike => exact ⟨halike.outcome.symm, rfl⟩
    | stood hstood => exact absurd haborted hstood.not_aborted
    | gaveUp hgaveUp => exact absurd hgaveUp hcommitted.not_aborted
  · intro hfirst hsecond
    exact run_performed hfirst.not_aborted hsecond.not_aborted

end Overlap

/-! ### One cell each, and one log for both -/

namespace OverlapExample

def put (key : String) (value : Int) (rest : Mutation String Int Unit) :
    Mutation String Int Unit :=
  .act (.put (fun _ => .ok (some ("wallet", key, value))) (fun _ => .ok ())) fun _ => rest

def record (entry : AuditEntry) (rest : Mutation String Int Unit) : Mutation String Int Unit :=
  .act (.append entry (.ok ())) fun _ => rest

def credited : AuditEntry := ⟨"wallet.credited", "wallet", "x", []⟩

def opened : AuditEntry := ⟨"wallet.created", "wallet", "w", []⟩

def refused : Mutation String Int Unit := .fail (.other "refused")

def start : Memory String Int := ⟨fun _ => .empty, []⟩

/-- The second writes another row and the log while the first is open, and the first,
which has not come to the log, is rolled back. -/
theorem rollback_isolated_apart :
    (alone (.begin (put "x" 5 (record credited (.done ())))) start
      [.first, .second, .second, .second, .first]).2 =
    (Overlap.run ⟨.begin (put "w" 1 refused), .begin (put "x" 5 (record credited (.done ()))), start⟩
      [.first, .second, .second, .second, .first]).memory := by
  refine ((rollback_isolated (put "w" 1 refused) (put "x" 5 (record credited (.done ()))) start
    [.first, .second, .second, .second, .first]).1 ?_ ⟨_, rfl⟩ ⟨_, rfl⟩).2
  refine ⟨trivial, fun _ _ => ⟨rfl, ?_⟩, fun _ _ => ⟨rfl, ?_⟩, fun _ _ => rfl, trivial, trivial⟩
  · intro write hwrite inverse hinverse
    obtain rfl := List.mem_singleton.mp hwrite
    obtain rfl := List.mem_singleton.mp hinverse
    rintro ⟨-, hkey⟩
    exact absurd hkey (by decide)
  · intro write hwrite inverse hinverse
    obtain rfl := List.mem_singleton.mp hwrite
    obtain rfl := List.mem_singleton.mp hinverse
    exact fun h => h

/-- Both come to the log. The first cuts it to the length it found, and the entry of
the second, which has committed, is gone. -/
theorem rollback_isolated_fails :
    ¬∀ (first second : Mutation String Int Unit) (memory : Memory String Int) (turns : List Turn),
      (Overlap.run ⟨.begin first, .begin second, memory⟩ turns).first.Aborted →
      (Overlap.run ⟨.begin first, .begin second, memory⟩ turns).second.Committed →
      (alone (.begin second) memory turns).2 =
        (Overlap.run ⟨.begin first, .begin second, memory⟩ turns).memory := by
  intro hclaim
  have hsame := hclaim (record opened refused) (record credited (.done ())) start
    [.first, .second, .second, .first] ⟨_, rfl⟩ ⟨_, rfl⟩
  have haudit := congrArg Memory.audit hsame
  exact absurd haudit (by decide)

end OverlapExample

end WaslaCore.Platform.InMemory
