import WaslaCore.Fulfillment.Losers
import WaslaCore.Fulfillment.Rules

/-!
Which job closes a fulfillment. A dispatch acceptance records its job and a second
one is refused; a completion report overwrites the job without looking at it. A
fulfillment closes on its own job's report, and keeps its job, where the report
names the job the stored row records.
-/

namespace WaslaCore.Fulfillment

open WaslaCore.Data WaslaCore.Platform WaslaCore.Interleaving

/-- A committed acceptance dispatched the fulfillment to this job. -/
def DispatchedTo (db : Db) (id job : String) : Prop :=
  ∃ event ∈ db.outbox, event.eventType = "core.fulfillment.dispatched" ∧ event.entityId = id ∧
    ("job_reference", .text job) ∈ event.payload

instance (db : Db) (id job : String) : Decidable (DispatchedTo db id job) :=
  inferInstanceAs (Decidable (∃ event ∈ db.outbox, _))

/-! ### When a job is kept -/

/-- A transition that finds a job recorded writes that job, or none. -/
def keepsJob (db : Db) : WaslaCore.Write → Bool
  | .fulfillment (.transition next _) =>
      (db.fulfillments.get next.fulfillmentId).all (fun stored =>
        stored.moveJobReference.isNone || next.moveJobReference.isNone ||
          next.moveJobReference = stored.moveJobReference)
  | _ => true

/-- A commit that goes through writes no job over another. -/
abbrev JobAsRecorded : Seen → Action → Db → Prop := EachWrite keepsJob

/-! ### Dispatched fulfillments as a law -/

/-- Where a dispatched fulfillment stands: closed, or dispatched with its job. -/
def StandsFor (job : String) (row : Fulfillment) : Prop :=
  isClosed row.status = true ∨ row.status = .dispatched ∧ row.moveJobReference = some job

/-- Dispatches as a law of the database. -/
def dispatches : Law where
  inv := fun db => ∀ id job, DispatchedTo db id job →
    ∃ row, db.fulfillments.get id = some row ∧ StandsFor job row
  guar := ClosuresStay
  guar_refl := ClosuresStay.refl
  guar_trans := ClosuresStay.trans
  known := closure.known
  known_stable := closure.known_stable

section Landed

variable {seen : Seen} {operation : Operation} {db db' : Db}

/-- The only dispatch a commit announces is its own. -/
theorem dispatched_staged (operation : Operation) {event : Event}
    (hmember : event ∈ operation.staged.events)
    (htype : event.eventType = "core.fulfillment.dispatched") :
    ∃ current payload, operation.coordination = .dispatched current payload ∧
      event.entityId = current.fulfillmentId ∧
      ∀ job, ("job_reference", .text job) ∈ event.payload → job = payload.jobId := by
  have hmovement : ∀ event ∈ (operation.movement.staged UnitOfWork.empty).events,
      event.eventType ≠ "core.fulfillment.dispatched" := by
    cases operation.movement <;> simp [Money.Movement.staged, UnitOfWork.empty, Money.stageWallet,
      Money.stageCredit, Money.stageAuthorize, Money.stageCapture, Money.stageRefund,
      Money.stageVoid]
  have hclosure : ∀ row capturedMinor, event = closureEvent row capturedMinor → False := by
    rintro row capturedMinor rfl
    rw [(closureEvent_type row capturedMinor).2] at htype
    split at htype <;> simp at htype
  unfold Operation.staged at hmember
  rw [Coordination.staged_events] at hmember
  rcases List.mem_append.mp hmember with hmoney | hcoordination
  · exact absurd htype (hmovement event hmoney)
  cases hcase : operation.coordination <;> rw [hcase] at hcoordination
  case dispatched current payload =>
    rw [List.mem_singleton.mp hcoordination]
    exact ⟨current, payload, rfl, rfl, fun job hjob => by simpa [dispatchedEvent] using hjob⟩
  case closed current row capturedMinor action =>
    exact (hclosure row capturedMinor (List.mem_singleton.mp hcoordination)).elim
  case refused row capturedMinor extra =>
    exact (hclosure row capturedMinor (List.mem_singleton.mp hcoordination)).elim
  case none => cases hcoordination
  case created row requestedService =>
    rw [List.mem_singleton.mp hcoordination] at htype
    simp [createdEvent] at htype
  case traced current jobId => cases hcoordination
  case marked cancelled payload =>
    rw [List.mem_singleton.mp hcoordination] at htype
    simp [executedAfterCancellationEvent] at htype

/-- A commit leaves every dispatched fulfillment dispatched, or closes it. -/
theorem standsFor_commit (h : Commit seen operation db db') (htold : ClosuresTold seen db)
    {id job : String} {row : Fulfillment} (hrow : db.fulfillments.get id = some row)
    (hstands : StandsFor job row) :
    ∃ row', db'.fulfillments.get id = some row' ∧ StandsFor job row' := by
  have hlegal := h.legal.coordination
  have heffect := coordination_effect h.committed
  rcases hstands with hclosed | ⟨hdispatched, hjob⟩
  · obtain ⟨row', hrow', hsame⟩ := closuresStay_commit h htold id row hrow hclosed
    exact ⟨row', hrow', .inl (by rw [hsame.status, hclosed])⟩
  have hkept : ∀ {key put}, Placed db.fulfillments db'.fulfillments key put →
      (key = id → StandsFor job put) →
      ∃ row', db'.fulfillments.get id = some row' ∧ StandsFor job row' := by
    intro key put hplaced hput
    by_cases hid : key = id
    · exact ⟨put, by rw [← hid, hplaced.get_self], hput hid⟩
    · exact ⟨row, by rw [hplaced.get_ne hid, hrow], .inr ⟨hdispatched, hjob⟩⟩
  generalize operation.coordination = coordination at hlegal heffect
  cases heffect with
  | idle hrows _ => exact ⟨row, by rw [hrows, hrow], .inr ⟨hdispatched, hjob⟩⟩
  | created hfresh _ hplaced =>
      refine hkept hplaced (fun hid => ?_)
      rw [hid, hrow] at hfresh
      cases hfresh
  | refused hfresh _ hplaced =>
      refine hkept hplaced (fun hid => ?_)
      rw [hid, hrow] at hfresh
      cases hfresh
  | dispatched _ hstored hopen hplaced =>
      refine hkept hplaced (fun hid => ?_)
      rw [hid, hrow] at hstored
      rw [← Option.some.inj hstored, hdispatched] at hopen
      cases hopen
  | closed _ _ hplaced => exact hkept hplaced (fun _ => .inl hlegal.2.2.2.2.1)
  | traced _ hplaced =>
      refine hkept hplaced (fun _ => .inl ?_)
      simp [reviseRow, hlegal.2.1, isClosed]
  | marked _ hcancelled _ hplaced =>
      refine hkept hplaced (fun _ => .inl ?_)
      simp [markRow, hcancelled, isClosed]

theorem dispatches_commit (h : Commit seen operation db db') (htold : ClosuresTold seen db)
    (hinv : dispatches.inv db) : dispatches.inv db' := by
  rintro id job ⟨event, hmember, htype, hentity, hjob⟩
  rw [commit_outbox h.committed] at hmember
  rcases List.mem_append.mp hmember with hold | hnew
  · obtain ⟨row, hrow, hstands⟩ := hinv id job ⟨event, hold, htype, hentity, hjob⟩
    exact standsFor_commit h htold hrow hstands
  · obtain ⟨current, payload, hcoordination, hcurrent, hjobs⟩ :=
      dispatched_staged operation hnew htype
    have heffect := coordination_effect h.committed
    rw [hcoordination] at heffect
    obtain rfl := hjobs job hjob
    rw [← hentity, hcurrent]
    cases heffect with
    | idle _ hidle => rcases hidle with hnone | ⟨current, jobId, hnone⟩ <;> cases hnone
    | dispatched hnext _ _ hplaced =>
        refine ⟨_, hplaced.get_self, .inr ?_⟩
        rw [hnext]
        exact ⟨rfl, rfl⟩

end Landed

theorem dispatches_holds : dispatches.Holds anything where
  commit := fun h hinv htold _ =>
    have hclosures := htold.shown (fun _ _ hknown => hknown)
      (fun _ hother => (shown_nothing hother).2.1)
    ⟨dispatches_commit h hclosures hinv, closuresStay_commit h hclosures⟩
  record := fun _ hinv => ⟨hinv, ClosuresStay.refl _⟩
  tick := fun _ _ hinv => ⟨hinv, ClosuresStay.refl _⟩
  read := fun _ hstocked _ => closure_read hstocked rfl

/-! ### What a completion report stages -/

/-- A write a report of this job may make: it takes up no order, and a transition
of it records the job. -/
def ReportsJob (jobId : String) : WaslaCore.Write → Prop
  | .fulfillment (.intake _) => False
  | .fulfillment (.transition next _) => next.moveJobReference = some jobId
  | _ => True

/-- What the report of a job owes when it commits. -/
def reporting (jobId : String) : Discipline Action Action.Answer where
  told := foreseen
  owed := fun _ action =>
    match action with
    | .commit uow => ∀ write ∈ uow.writes, ReportsJob jobId write
    | _ => True

section Reports

variable {seen : Seen} {jobId : String} {β : Type}

theorem reporting_commitless {post : Seen → Except Thrown β → Prop} {call : Call β}
    (h : Keeps services post call seen) (hcommitless : Commitless call) :
    Keeps (reporting jobId) post call seen := by
  refine h.avoiding hcommitless (fun _ _ htold => htold) ?_
  intro seen action hcommit
  cases action with
  | commit uow => exact absurd ⟨uow, rfl⟩ hcommit
  | read query => trivial
  | clock => trivial
  | newId => trivial
  | record entry => trivial

/-- A unit of work whose writes report the job may be committed. -/
theorem reporting_commit {body : Work → Call (Work × β)}
    (h : Keeps (reporting jobId) (fun _ result => ∀ uow value, result = .ok (uow, value) →
      ∀ write ∈ uow.writes, ReportsJob jobId write) (body UnitOfWork.empty) seen) :
    Keeps (reporting jobId) (fun _ _ => True) (withTransaction body) seen := by
  unfold withTransaction
  refine h.bind ?_ (fun _ _ _ => trivial)
  rintro later ⟨uow, value⟩ hreports
  refine ⟨hreports uow value rfl, fun answer _ => ?_⟩
  cases answer <;> trivial

theorem completeWithin_reports (current : Fulfillment) (payload : MoveJobCompletedPayload) :
    Keeps (reporting payload.jobId) (fun _ result => ∀ uow value, result = .ok (uow, value) →
      ∀ write ∈ uow.writes, ReportsJob payload.jobId write)
      (completeWithin UnitOfWork.empty current payload) seen := by
  have hsettles := @settleReport_keeps seen UnitOfWork.empty current payload
  unfold completeWithin
  refine (reporting_commitless hsettles ?_).bind ?_ ?_
  · unfold settleReport
    split
    · exact commitless_settle _ current
    · exact avoids_bind (commitless_release _ current _) (fun _ => trivial)
  · rintro later ⟨uow, settled⟩ ⟨-, hends⟩
    obtain ⟨⟨movement, -, -, rfl⟩, -⟩ := hends uow settled rfl
    apply keeps_done.mpr
    rintro uow' value ⟨rfl⟩ write hwrite
    rw [stageClosed, UnitOfWork.audit_writes, UnitOfWork.emit_writes, UnitOfWork.stage_writes,
      Money.Movement.staged_writes] at hwrite
    rcases List.mem_append.mp hwrite with hmoney | hclosing
    · obtain ⟨money, -, rfl⟩ := List.mem_map.mp hmoney
      trivial
    · rw [List.mem_singleton.mp hclosing]
      rfl
  · rintro later error - uow value ⟨⟩

theorem completionOn_reports (closed : Fulfillment) (payload : MoveJobCompletedPayload) :
    Keeps (reporting jobId) (fun _ _ => True) (completionOn closed payload) seen := by
  unfold completionOn
  split
  · unfold recordExecutionAfterCancellation
    split
    · trivial
    split
    · trivial
    refine (reporting_commit (keeps_done.mpr ?_)).tryCatch (fun _ _ _ => trivial) ?_
    · rintro uow value ⟨rfl⟩ write hwrite
      rw [List.mem_singleton.mp hwrite]
      trivial
    · intro later error _
      cases error with
      | transitionLost fulfillmentId =>
          exact reporting_commitless ((require_keeps _).mono (fun _ _ _ => trivial))
            (commitless_require _)
      | core error => trivial
      | other message => trivial
      | intakeLost orderReference => trivial
  split <;> trivial

/-- A completion report records its own job wherever it closes. -/
theorem consumeMoveCompletion_reports (payload : MoveJobCompletedPayload) :
    Keeps (reporting payload.jobId) anyEnd (Request.moveCompletion payload).call [] := by
  refine Keeps.bind (p := fun _ _ => True) ?_ (fun _ _ _ => trivial) (fun _ _ _ => trivial)
  unfold consumeMoveCompletion
  refine (reporting_commitless (require_keeps _) (commitless_require _)).bind ?_
    (fun _ _ _ => trivial)
  rintro later current -
  split
  · exact completionOn_reports current payload
  · unfold transition
    refine (reporting_commit (completeWithin_reports current payload)).tryCatch
      (fun _ _ _ => trivial) ?_
    intro final error _
    cases error with
    | transitionLost fulfillmentId =>
        refine (reporting_commitless (require_keeps _) (commitless_require _)).bind ?_
          (fun _ _ _ => trivial)
        exact fun _ winner _ => completionOn_reports winner payload
    | core error => trivial
    | other message => trivial
    | intakeLost orderReference => trivial

end Reports

/-! ### Jobs over runs -/

section Landed

variable {seen : Seen} {operation : Operation} {db db' : Db}

/-- A commit writes no other job over the one of a dispatched fulfillment. -/
theorem job_commit (h : Commit seen operation db db') (htold : ClosuresTold seen db)
    (hkeeps : JobAsRecorded seen (.commit operation.staged) db) {id job other : String}
    {row row' : Fulfillment} (hrow : db.fulfillments.get id = some row)
    (hdispatched : row.status = .dispatched) (hjob : row.moveJobReference = some job)
    (hrow' : db'.fulfillments.get id = some row') (hother : row'.moveJobReference = some other) :
    other = job := by
  have hlegal := h.legal.coordination
  have heffect := coordination_effect h.committed
  have hkeeps : ∀ write ∈ operation.coordination.write,
      keepsJob db (.fulfillment write) = true :=
    fun write hwrite => hkeeps.coordination h.committed hwrite
  have hsame : db'.fulfillments.get id = db.fulfillments.get id → other = job := by
    intro hsame
    rw [hsame, hrow] at hrow'
    obtain rfl := Option.some.inj hrow'
    exact Option.some.inj (hother.symm.trans hjob)
  -- a write of another row, or one whose guard excludes a dispatched row, changes nothing here
  have hguarded : ∀ {key put}, Placed db.fulfillments db'.fulfillments key put →
      (∀ stored, db.fulfillments.get key = some stored → stored.status ≠ .dispatched) →
      other = job := by
    intro key put hplaced hguard
    refine hsame (hplaced.get_ne (fun hid => ?_))
    exact hguard row (by rw [hid, hrow]) hdispatched
  generalize operation.coordination = coordination at hlegal heffect hkeeps
  cases heffect with
  | idle hrows _ => exact hsame (by rw [hrows])
  | created hfresh _ hplaced =>
      exact hguarded hplaced (fun stored hstored => by rw [hfresh] at hstored; cases hstored)
  | refused hfresh _ hplaced =>
      exact hguarded hplaced (fun stored hstored => by rw [hfresh] at hstored; cases hstored)
  | dispatched _ hstored hopen hplaced =>
      refine hguarded hplaced (fun found hfound hfoundDispatched => ?_)
      rw [hstored] at hfound
      rw [← Option.some.inj hfound, hopen] at hfoundDispatched
      cases hfoundDispatched
  | @closed current closing capturedMinor action stored hstored _ hplaced =>
      by_cases hid : closing.fulfillmentId = id
      · have hkept := hkeeps _ (List.mem_singleton_self _)
        rw [← hid, hplaced.get_self] at hrow'
        rw [hid, hrow] at hstored
        obtain rfl := Option.some.inj hrow'
        have hclosing : closing.moveJobReference = some other := hother
        simp only [keepsJob, hid, hrow, hjob, hclosing, Option.all_some, Option.isNone_some,
          Bool.false_or, decide_eq_true_eq, Option.some.injEq] at hkept
        exact hkept
      · exact hsame (hplaced.get_ne hid)
  | traced hstored hplaced =>
      refine hguarded hplaced (fun found hfound hfoundDispatched => ?_)
      have hcancelled := (traced_closed htold hlegal.1 hlegal.2.1 hfound).status
      rw [hfoundDispatched, hlegal.2.1] at hcancelled
      cases hcancelled
  | marked hstored hcancelled _ hplaced =>
      refine hguarded hplaced (fun found hfound hfoundDispatched => ?_)
      rw [hstored] at hfound
      rw [← Option.some.inj hfound, hcancelled] at hfoundDispatched
      cases hfoundDispatched

/-- A report that closes a dispatched fulfillment names the job it was dispatched to. -/
theorem closing_job (h : Commit seen operation db db') (htold : ClosuresTold seen db)
    (hinv : dispatches.inv db) (hkeeps : JobAsRecorded seen (.commit operation.staged) db)
    {id job jobId : String} (hreports : ∀ write ∈ operation.staged.writes, ReportsJob jobId write)
    (hdispatched : DispatchedTo db id job) (hopen : closedNow id db = false)
    (hclosed : closedNow id db' = true) : jobId = job := by
  have hcloses : operation.coordination.closes = some id := by
    by_contra hother
    have hsame := closedNow_commit h htold id
    rw [if_neg hother, hopen, hclosed] at hsame
    cases hsame
  obtain ⟨row, hrow, hstands⟩ := hinv id job hdispatched
  have hstands := hstands.resolve_left (by simpa [closedNow, hrow] using hopen)
  have hstaged : ∀ write ∈ operation.coordination.write,
      ReportsJob jobId (.fulfillment write) := by
    intro write hwrite
    apply hreports _
    rw [operation.staged_writes]
    exact List.mem_append_right _ (List.mem_map_of_mem hwrite)
  have hkeeps : ∀ write ∈ operation.coordination.write,
      keepsJob db (.fulfillment write) = true :=
    fun write hwrite => hkeeps.coordination h.committed hwrite
  generalize operation.coordination = coordination at hcloses hstaged hkeeps
  cases coordination with
  | refused closing capturedMinor extra => exact (hstaged _ (List.mem_singleton_self _)).elim
  | closed current closing capturedMinor action =>
      obtain rfl := Option.some.inj hcloses
      have hreported : closing.moveJobReference = some jobId :=
        hstaged _ (List.mem_singleton_self _)
      have hkept := hkeeps _ (List.mem_singleton_self _)
      simp only [keepsJob, hrow, hstands.2, hreported, Option.all_some, Option.isNone_some,
        Bool.false_or, decide_eq_true_eq, Option.some.injEq] at hkept
      exact hkept
  | none => cases hcloses
  | created row requestedService => cases hcloses
  | dispatched current payload => cases hcloses
  | traced current jobId => cases hcloses
  | marked cancelled payload => cases hcloses

end Landed

/-- In every run in which no transition writes a job over another, no commit
replaces the job of a dispatched fulfillment by another's, and the call started
for a completion report closes a dispatched fulfillment only if the report names
the job it was dispatched to. -/
theorem run_own_job {start : Int} {before world : World Db Action Action.Answer Thrown Unit}
    {payload : MoveJobCompletedPayload}
    (hbefore : Run core requests JobAsRecorded (World.initial (Db.empty start)) before)
    (hafter : Run core requests JobAsRecorded
      ⟨before.store, before.tasks ++ [⟨[], (Request.moveCompletion payload).call⟩]⟩ world) :
    (∀ task uow db', Landing JobAsRecorded world task uow db' → ∀ id row job,
      world.store.fulfillments.get id = some row → row.status = .dispatched →
      row.moveJobReference = some job → ∀ row' other, db'.fulfillments.get id = some row' →
        row'.moveJobReference = some other → other = job) ∧
    ∀ task uow db', Landing JobAsRecorded world task uow db' →
      world.tasks[before.tasks.length]? = some task → ∀ id job, DispatchedTo world.store id job →
        closedNow id world.store = false → closedNow id db' = true → payload.jobId = job := by
  have hholds : dispatches.Holds JobAsRecorded :=
    { dispatches_holds with
      commit := fun h hinv htold _ => dispatches_holds.commit h hinv htold trivial
      lands := fun _ _ => trivial }
  have hstart : dispatches.inv (Db.empty start) := by rintro id job ⟨event, ⟨⟩, -⟩
  obtain ⟨hkept, task', htask', hreports⟩ := hholds.upheld.follows (hholds.run hstart hbefore)
    (requests_fulfillment (.moveCompletion payload)) (consumeMoveCompletion_reports payload)
    (fun _ _ htold => htold) hafter
  have hclosures : ∀ {seen}, dispatches.Told seen world.store → ClosuresTold seen world.store :=
    fun htold => htold.shown (fun _ _ hknown => hknown)
      (fun _ hother => (shown_nothing hother).2.1)
  constructor
  · intro task uow db' hlanding id row job hrow hdispatched hjob row' other hrow' hother
    obtain ⟨operation, rfl, hcommit, htold⟩ := hlanding.commit hkept
    exact job_commit hcommit (hclosures htold) hlanding.allowed hrow hdispatched hjob hrow' hother
  · intro task uow db' hlanding htask id job hdispatched hopen hclosed
    obtain ⟨operation, rfl, hcommit, htold⟩ := hlanding.commit hkept
    rw [htask] at htask'
    obtain rfl := Option.some.inj htask'
    have hcommits := hlanding.commits
    unfold committing at hcommits
    split at hcommits
    · rename_i staged next hrest
      obtain rfl := Option.some.inj hcommits
      rw [hrest] at hreports
      exact closing_job hcommit (hclosures htold) hkept.inv.2 hlanding.allowed hreports.1
        hdispatched hopen hclosed
    · cases hcommits

/-- The commit the call at one position is about to make, and what it leaves. -/
def landingAt (world : World Db Action Action.Answer Thrown Unit) (index : Nat) :
    Option (Task Action Action.Answer Thrown Unit × Work × Db) := do
  let task ← world.tasks[index]?
  let uow ← committing task
  let db' ← (world.store.commit uow).toOption
  pure (task, uow, db')

theorem landingAt_some {world : World Db Action Action.Answer Thrown Unit} {index : Nat}
    {task : Task Action Action.Answer Thrown Unit} {uow : Work} {db' : Db}
    (h : landingAt world index = some (task, uow, db')) :
    world.tasks[index]? = some task ∧ committing task = some uow ∧
      world.store.commit uow = .ok db' := by
  simp only [landingAt, bind, Option.bind_eq_some_iff, pure, Option.some.injEq, Prod.mk.injEq,
    Except.toOption] at h
  obtain ⟨task', htask, uow', huow, db'', hdb, rfl, rfl, rfl⟩ := h
  refine ⟨htask, huow, ?_⟩
  split at hdb
  · rename_i landed hlanded
    rw [hlanded, Option.some.inj hdb]
  · cases hdb

/-- An order without a hold, dispatched to a job. -/
def dispatchedToJob : Schedule :=
  .start (Request.marketOrder ⟨"order", idOf '1', "delivery", none⟩).call ::
    acts 0 [.proceed, .drawn (idOf '5'), .proceed, .proceed] ++
  .start (Request.jobAccepted ⟨idOf '5', "job", 1⟩).call :: acts 1 [.proceed, .proceed]

set_option maxRecDepth 20000 in
theorem run_own_job_completed :
    ∃ (world : World Db Action Action.Answer Thrown Unit) (db' : Db),
      DispatchedTo world.store (idOf '5') "job" ∧ closedNow (idOf '5') db' = true ∧
      ∀ job, DispatchedTo world.store (idOf '5') job → "job" = job := by
  have hplays : (play core (fun seen action db => JobAsRecorded seen action db) dispatchedToJob
      (World.initial (Db.empty 0))).any (fun before =>
        (play core (fun seen action db => JobAsRecorded seen action db) (acts 2 [.proceed])
          ⟨before.store, before.tasks ++
            [⟨[], (Request.moveCompletion ⟨idOf '5', "job", .completed, 2⟩).call⟩]⟩).any
          (fun world => (landingAt world before.tasks.length).any (fun landing =>
            JobAsRecorded landing.1.seen (.commit landing.2.1) world.store ∧
            DispatchedTo world.store (idOf '5') "job" ∧
            closedNow (idOf '5') world.store = false ∧ closedNow (idOf '5') landing.2.2 = true))) =
      true := by decide +kernel
  obtain ⟨before, hbefore, hlater⟩ := (Option.any_eq_true _ _).mp hplays
  obtain ⟨world, hworld, hlanding⟩ := (Option.any_eq_true _ _).mp hlater
  obtain ⟨⟨task, uow, db'⟩, hlands, hfacts⟩ := (Option.any_eq_true _ _).mp hlanding
  obtain ⟨hasRecorded, hdispatched, hopen, hclosed⟩ := of_decide_eq_true hfacts
  obtain ⟨htask, hcommits, hcommit⟩ := landingAt_some hlands
  refine ⟨world, db', hdispatched, hclosed, fun job hjob => ?_⟩
  refine (run_own_job (play_run hbefore ?_ (fun _ _ _ h => of_decide_eq_true h))
    (play_run hworld ?_ (fun _ _ _ h => of_decide_eq_true h))).2 task uow db'
      ⟨List.mem_of_getElem? htask, hcommits, hcommit, hasRecorded⟩ htask _ job hjob hopen hclosed
  · simp [dispatchedToJob, acts]
  · simp [acts]

set_option maxRecDepth 20000 in
/-- Without the condition the report of another job closes the fulfillment. -/
theorem own_job_fails : ¬∀ (start : Int) (before world : World Db Action Action.Answer Thrown Unit)
    (payload : MoveJobCompletedPayload),
    Run core requests anything (World.initial (Db.empty start)) before →
    Run core requests anything
      ⟨before.store, before.tasks ++ [⟨[], (Request.moveCompletion payload).call⟩]⟩ world →
    (∀ task uow db', Landing anything world task uow db' → ∀ id row job,
      world.store.fulfillments.get id = some row → row.status = .dispatched →
      row.moveJobReference = some job → ∀ row' other, db'.fulfillments.get id = some row' →
        row'.moveJobReference = some other → other = job) ∧
    ∀ task uow db', Landing anything world task uow db' →
      world.tasks[before.tasks.length]? = some task → ∀ id job, DispatchedTo world.store id job →
        closedNow id world.store = false → closedNow id db' = true → payload.jobId = job := by
  intro htrue
  have hplays : (play core unrestricted dispatchedToJob (World.initial (Db.empty 0))).any
      (fun before => (play core unrestricted (acts 2 [.proceed])
          ⟨before.store, before.tasks ++
            [⟨[], (Request.moveCompletion ⟨idOf '5', "other", .completed, 2⟩).call⟩]⟩).any
          (fun world => (landingAt world before.tasks.length).any (fun landing =>
            DispatchedTo world.store (idOf '5') "job" ∧
            closedNow (idOf '5') world.store = false ∧ closedNow (idOf '5') landing.2.2 = true))) =
      true := by decide +kernel
  obtain ⟨before, hbefore, hlater⟩ := (Option.any_eq_true _ _).mp hplays
  obtain ⟨world, hworld, hlanding⟩ := (Option.any_eq_true _ _).mp hlater
  obtain ⟨⟨task, uow, db'⟩, hlands, hfacts⟩ := (Option.any_eq_true _ _).mp hlanding
  obtain ⟨hdispatched, hopen, hclosed⟩ := of_decide_eq_true hfacts
  obtain ⟨htask, hcommits, hcommit⟩ := landingAt_some hlands
  have hjob := (htrue 0 before world _ (unrestricted_run hbefore (by simp [dispatchedToJob, acts]))
    (unrestricted_run hworld (by simp [acts]))).2 task uow db'
      ⟨List.mem_of_getElem? htask, hcommits, hcommit, trivial⟩ htask _ "job" hdispatched hopen hclosed
  simp at hjob

end WaslaCore.Fulfillment
