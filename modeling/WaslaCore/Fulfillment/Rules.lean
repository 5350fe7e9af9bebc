import WaslaCore.Fulfillment.Settlement

/-!
The services and the row checks of the table are two encodings of one policy.
Whatever a call has read and whatever hold it settles, the row it stages passes
the checks, so that no commit is refused by them.
-/

namespace WaslaCore.Fulfillment

open WaslaCore.Data WaslaCore.Platform WaslaCore.Interleaving

/-! ### Conditions on what a commit writes -/

/-- Every write of a commit that goes through passes a test of the database it
finds. -/
def EachWrite (test : Db → WaslaCore.Write → Bool) (_ : Seen) : Action → Db → Prop
  | .commit uow, db => (db.commit uow).isOk = true → ∀ write ∈ uow.writes, test db write = true
  | _, _ => True

instance (test : Db → WaslaCore.Write → Bool) (seen : Seen) (action : Action) (db : Db) :
    Decidable (EachWrite test seen action db) :=
  match action with
  | .commit uow => inferInstanceAs (Decidable ((db.commit uow).isOk = true →
      ∀ write ∈ uow.writes, test db write = true))
  | .read _ => .isTrue trivial
  | .clock => .isTrue trivial
  | .newId => .isTrue trivial
  | .record _ => .isTrue trivial

theorem EachWrite.coordination {test : Db → WaslaCore.Write → Bool} {seen : Seen}
    {operation : Operation} {db db' : Db}
    (h : EachWrite test seen (.commit operation.staged) db)
    (hcommit : db.commit operation.staged = .ok db') {write : Write}
    (hwrite : write ∈ operation.coordination.write) : test db (.fulfillment write) = true := by
  apply h (by rw [hcommit]; rfl) _
  rw [operation.staged_writes]
  exact List.mem_append_right _ (List.mem_map_of_mem hwrite)

/-! ### Rows that pass -/

def marked (row : Fulfillment) : Bool := row.executedAfterCancellationAt.isSome

/-- A marker carries the instant it was set at. -/
theorem marked_marker {row row' : Fulfillment} (h : marker row' = marker row) :
    marked row' = marked row :=
  congrArg Option.isSome (congrArg Prod.fst h)

/-- An open row that passes its checks carries no marker. -/
theorem open_marker {row : Fulfillment} (h : assertRow row = .ok ())
    (hopen : isClosed row.status = false) : marker row = (none, none) := by
  obtain ⟨-, hpaired, hcancelled⟩ := assertRow_ok.mp h
  have hat : row.executedAfterCancellationAt = none := by
    cases hat : row.executedAfterCancellationAt with
    | none => rfl
    | some executedAt =>
        rw [hcancelled (by rw [hat]; rfl)] at hopen
        cases hopen
  have hjob : row.executedAfterCancellationJobReference = none :=
    Option.isNone_iff_eq_none.mp (hpaired.mp (by rw [hat]; rfl))
  rw [marker, hat, hjob]

theorem unmarked_of_marker {row : Fulfillment} (h : marker row = (none, none)) :
    marked row = false :=
  congrArg Option.isSome (congrArg Prod.fst h)

theorem passes_unmarked {row : Fulfillment}
    (haligned : settlementAligned row.status row.settlementState = true)
    (hmarker : marker row = (none, none)) : assertRow row = .ok () := by
  have hat : row.executedAfterCancellationAt = none := congrArg Prod.fst hmarker
  have hjob : row.executedAfterCancellationJobReference = none := congrArg Prod.snd hmarker
  exact assertRow_ok.mpr ⟨haligned, by simp [hat, hjob], by simp [hat]⟩

/-- A cancelled row that passes goes on passing with a marker of its own. -/
theorem passes_marked {row : Fulfillment} (h : assertRow row = .ok ())
    (hcancelled : row.status = .cancelled) (executedAt : Int) (jobReference : String) :
    assertRow (markRow row executedAt jobReference) = .ok () := by
  have haligned := (assertRow_ok.mp h).1
  exact assertRow_ok.mpr ⟨haligned, by simp [markRow], fun _ => hcancelled⟩

/-- Work that is dispatched may hold the money it was arranged with. -/
theorem aligned_dispatched (settlement : SettlementState) :
    settlementAligned .dispatched settlement = settlementAligned .coordinating settlement := rfl

/-! ### Staged rows -/

/-- The row a write was built as; the marker is written by itself. -/
def Write.stagedRow : Write → Option Fulfillment
  | .intake fulfillment => some fulfillment
  | .transition next _ => some next
  | .update next => some next
  | .mark _ _ _ => none

/-- The row a step of coordination stages passes the checks, if what the call
read did. -/
theorem staged_passes {seen : Seen} {operation : Operation} (hlegal : operation.Legal seen)
    (hread : ∀ row ∈ fulfillmentsRead seen, assertRow row = .ok ()) {write : Write}
    (hwrite : write ∈ operation.coordination.write) {row : Fulfillment}
    (hrow : write.stagedRow = some row) : assertRow row = .ok () := by
  obtain ⟨-, hlegal, hdrawn⟩ := hlegal
  generalize operation.coordination = coordination at hlegal hdrawn hwrite
  cases coordination with
  | none => cases hwrite
  | created fulfillment requestedService =>
      obtain rfl := List.mem_singleton.mp hwrite
      obtain rfl := Option.some.inj hrow
      exact passes_unmarked hdrawn.2.2 hdrawn.2.1
  | refused fulfillment capturedMinor extra =>
      obtain rfl := List.mem_singleton.mp hwrite
      obtain rfl := Option.some.inj hrow
      exact passes_unmarked hdrawn.2.2 hdrawn.2.1
  | dispatched current payload =>
      obtain rfl := List.mem_singleton.mp hwrite
      obtain rfl := Option.some.inj hrow
      obtain ⟨hcurrent, hopen, -⟩ := hlegal
      have hpasses := hread current hcurrent
      have haligned := (assertRow_ok.mp hpasses).1
      rw [hopen, ← aligned_dispatched] at haligned
      have hmarker := open_marker hpasses (by rw [hopen]; rfl)
      exact passes_unmarked haligned hmarker
  | closed current closing capturedMinor action =>
      obtain rfl := List.mem_singleton.mp hwrite
      obtain rfl := Option.some.inj hrow
      obtain ⟨hcurrent, hopen, -⟩ := hlegal
      obtain ⟨-, hmarker, haligned, -⟩ := hdrawn
      exact passes_unmarked haligned (hmarker.trans (open_marker (hread current hcurrent) hopen))
  | traced current jobId =>
      obtain rfl := List.mem_singleton.mp hwrite
      obtain rfl := Option.some.inj hrow
      -- the checks do not look at the job
      exact hread current hlegal.1
  | marked cancelled payload =>
      obtain rfl := List.mem_singleton.mp hwrite
      cases hrow

/-! ### What the table refuses -/

def duplicateJob : String :=
  "duplicate key value violates unique constraint \"fulfillment_move_job_reference_key\""

/-- A row that passes its checks is refused for its job only. -/
theorem putRow_refused {store : Store} {key : String} {row : Fulfillment} {message : String}
    (hpasses : assertRow row = .ok ()) (h : store.putRow key row = .error message) :
    message = duplicateJob := by
  unfold Store.putRow at h
  rw [hpasses] at h
  dsimp only at h
  split at h
  · exact (Except.error.inj h).symm
  · cases h

theorem thrown_refused {result : Except String ConditionalWrite} {signal : Thrown}
    {message : String} (hsignal : ∀ message, signal ≠ .other message)
    (h : thrown result signal = .error (.other message)) : result = .error message := by
  cases result with
  | error refusal =>
      obtain rfl := Thrown.other.inj (Except.error.inj h)
      rfl
  | ok done =>
      cases done with
      | applied store => cases h
      | stale => exact absurd (Except.error.inj h) (hsignal message)

/-- The revised row has the columns the checks look at from the row it was built as. -/
theorem assertRow_revise (stored next : Fulfillment) :
    assertRow (reviseRow stored next) = assertRow next := rfl

/-- The table refuses a write that is built to pass for its job only. -/
theorem write_refused {store : Store} {write : Write} {message : String}
    (hruled : Ruled store)
    (hpasses : ∀ row, write.stagedRow = some row → assertRow row = .ok ())
    (h : write.apply store = .error (.other message)) : message = duplicateJob := by
  cases write with
  | intake fulfillment =>
      have h := thrown_refused (by rintro other ⟨⟩) h
      unfold Store.insertIfAbsent at h
      rw [hpasses _ rfl] at h
      dsimp only at h
      split at h <;> cases h
  | transition next expected =>
      have h := thrown_refused (by rintro other ⟨⟩) h
      unfold Store.updateIfStatusIn at h
      cases hstored : store.get next.fulfillmentId with
      | none =>
          rw [hstored] at h
          cases h
      | some stored =>
          rw [hstored] at h
          dsimp only at h
          split at h
          · cases hput : store.putRow next.fulfillmentId (reviseRow stored next) with
            | ok after =>
                rw [hput] at h
                cases h
            | error refusal =>
                rw [hput] at h
                obtain rfl := Except.error.inj h
                exact putRow_refused ((assertRow_revise stored next).trans (hpasses _ rfl)) hput
          · cases h
  | update next =>
      simp only [Write.apply, Store.update] at h
      cases hstored : store.get next.fulfillmentId with
      | none =>
          rw [hstored] at h
          cases h
      | some stored =>
          rw [hstored] at h
          dsimp only at h
          cases hput : store.putRow next.fulfillmentId (reviseRow stored next) with
          | ok after =>
              rw [hput] at h
              cases h
          | error refusal =>
              rw [hput] at h
              obtain rfl := Thrown.other.inj (Except.error.inj h)
              exact putRow_refused ((assertRow_revise stored next).trans (hpasses _ rfl)) hput
  | mark fulfillmentId executedAt jobReference =>
      have h := thrown_refused (by rintro other ⟨⟩) h
      unfold Store.markExecutedAfterCancellation at h
      cases hstored : store.get fulfillmentId with
      | none =>
          rw [hstored] at h
          cases h
      | some stored =>
          rw [hstored] at h
          dsimp only at h
          split at h
          · rename_i hmarkable
            cases hput : store.putRow fulfillmentId (markRow stored executedAt jobReference) with
            | ok after =>
                rw [hput] at h
                cases h
            | error refusal =>
                rw [hput] at h
                obtain rfl := Except.error.inj h
                have hstoredPasses := hruled.passes _ _ hstored
                exact putRow_refused (passes_marked hstoredPasses hmarkable.1 _ _) hput
          · cases h

section Landings

variable {β : Type}

/-- The unit of work a call is about to commit. -/
def committing (task : Task Action Action.Answer Thrown β) : Option Work :=
  match task.rest with
  | .act (.commit uow) _ => some uow
  | _ => none

theorem committing_owed {task : Task Action Action.Answer Thrown β} {uow : Work}
    (hkeeps : Keeps services anyEnd task.rest task.seen) (h : committing task = some uow) :
    ∃ operation : Operation, operation.Legal task.seen ∧ uow = operation.staged := by
  unfold committing at h
  split at h
  · rename_i staged next hrest
    obtain rfl := Option.some.inj h
    rw [hrest] at hkeeps
    exact hkeeps.1
  · cases h

/-- A commit that a call of the world is about to make goes through. -/
structure Landing (allowed : Seen → Action → Db → Prop)
    (world : World Db Action Action.Answer Thrown β) (task : Task Action Action.Answer Thrown β)
    (uow : Work) (db' : Db) : Prop where
  member : task ∈ world.tasks
  commits : committing task = some uow
  lands : world.store.commit uow = .ok db'
  allowed : allowed task.seen (.commit uow) world.store

/-- A commit that goes through is the commit of a legal operation. -/
theorem Landing.commit {allowed : Seen → Action → Db → Prop} {law : Law}
    {world : World Db Action Action.Answer Thrown β} {task : Task Action Action.Answer Thrown β}
    {uow : Work} {db' : Db} (h : Landing allowed world task uow db')
    (hkept : Kept law.contract world) :
    ∃ operation : Operation, uow = operation.staged ∧ Commit task.seen operation world.store db' ∧
      law.Told task.seen world.store := by
  obtain ⟨operation, hlegal, rfl⟩ := committing_owed (hkept.orderly task h.member) h.commits
  have hknown := hkept.known task h.member
  exact ⟨operation, rfl, ⟨hkept.inv.1, hkept.inv.1.commit h.lands,
    fun entry hentry => (hknown entry hentry).1, hlegal, h.lands⟩,
    fun entry hentry => (hknown entry hentry).2⟩

end Landings

/-- In every run, every fulfillment row a call is about to commit passes the row
checks, and a write of its unit of work that the table refuses is refused for its
job alone. -/
theorem run_staged_rows {start : Int} {world : World Db Action Action.Answer Thrown Unit}
    (hrun : Run core requests anything (World.initial (Db.empty start)) world)
    {task : Task Action Action.Answer Thrown Unit} (htask : task ∈ world.tasks) {uow : Work}
    (hcommits : committing task = some uow) {write : Write}
    (hwrite : .fulfillment write ∈ uow.writes) :
    (∀ row, write.stagedRow = some row → assertRow row = .ok ()) ∧
      ∀ message, write.apply world.store.fulfillments = .error (.other message) →
        message = duplicateJob := by
  have hkept := Law.plain_holds.run trivial hrun
  obtain ⟨operation, hlegal, rfl⟩ := committing_owed (hkept.orderly task htask) hcommits
  have hread : ∀ row ∈ fulfillmentsRead task.seen, assertRow row = .ok () := by
    intro row hrow
    obtain ⟨entry, hentry, hshown⟩ := List.mem_flatMap.mp hrow
    exact (hkept.known task htask entry hentry).1.passed row hshown
  have hstaged : write ∈ operation.coordination.write := by
    rw [operation.staged_writes] at hwrite
    rcases List.mem_append.mp hwrite with hmoney | hcoordination
    · obtain ⟨money, -, hmoney⟩ := List.mem_map.mp hmoney
      cases hmoney
    · obtain ⟨other, hother, hsame⟩ := List.mem_map.mp hcoordination
      obtain rfl := WaslaCore.Write.fulfillment.inj hsame
      exact hother
  have hpasses : ∀ row, write.stagedRow = some row → assertRow row = .ok () :=
    fun row hrow => staged_passes hlegal hread hstaged hrow
  exact ⟨hpasses, fun message h => write_refused hkept.inv.1.ruled hpasses h⟩

set_option maxRecDepth 20000 in
theorem run_staged_rows_cancelled :
    ∃ (world : World Db Action Action.Answer Thrown Unit) (write : Write) (row : Fulfillment),
      play core unrestricted cancellationDecided (World.initial (Db.empty 0)) = some world ∧
      write.stagedRow = some row ∧ row.settlementState = .released ∧ assertRow row = .ok () ∧
      ∀ message, write.apply world.store.fulfillments = .error (.other message) →
        message = duplicateJob := by
  have hplays : (play core unrestricted cancellationDecided (World.initial (Db.empty 0))).any
      (fun world => world.tasks.any (fun task => (committing task).any (fun uow =>
        uow.writes.any (fun write => write.fulfillment?.any (fun write =>
          write.stagedRow.any (fun row => row.settlementState = .released)))))) = true := by
    decide +kernel
  obtain ⟨world, hworld, htasks⟩ := (Option.any_eq_true _ _).mp hplays
  obtain ⟨task, htask, huow⟩ := List.any_eq_true.mp htasks
  obtain ⟨uow, hcommits, hwrites⟩ := (Option.any_eq_true _ _).mp huow
  obtain ⟨staged, hstaged, hwrite⟩ := List.any_eq_true.mp hwrites
  cases staged with
  | money write => cases hwrite
  | fulfillment write =>
      have hrows : write.stagedRow.any (fun row => row.settlementState = .released) = true := hwrite
      obtain ⟨row, hrow, hreleased⟩ := (Option.any_eq_true _ _).mp hrows
      have hrows := run_staged_rows (unrestricted_run hworld (by
        simp [cancellationDecided, holdPlaced, walletOpened, creditPosted, authorizeDecided,
          authorizeCommitted, acts])) htask hcommits hstaged
      exact ⟨world, write, row, hworld, hrow, of_decide_eq_true hreleased, hrows.1 row hrow, hrows.2⟩

end WaslaCore.Fulfillment
