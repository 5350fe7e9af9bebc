import WaslaCore.Fulfillment.Rules

/-!
The in-memory fulfillment store behind the same services. It replaces rows
outright, and asks whether the job of a row is free only in the unconditional
writes: its two conditional writes leave the question to the caller. Jobs stay
unique in every run whose conditional writes name a free job, and in such a run
the two stores refuse the same writes.
-/

namespace WaslaCore.Fulfillment

open WaslaCore.Data WaslaCore.Platform WaslaCore.Interleaving

namespace InMemory

/-! ### The store -/

/-- `putRow`: the row rules, then the map. -/
def putRow (store : Store) (key : String) (row : Fulfillment) : Except String Store :=
  match assertRow row with
  | .error message => .error message
  | .ok () => .ok ⟨store.rows.put key row⟩

/-- `putRow` as the last step of a conditional write. -/
def applied : Except String Store → Except String ConditionalWrite
  | .ok store => .ok (.applied store)
  | .error message => .error message

def insertIfAbsent (store : Store) (fulfillment : Fulfillment) : Except String ConditionalWrite :=
  if (store.findByOrderReference fulfillment.marketOrderReference).isSome then .ok .stale
  else applied (putRow store fulfillment.fulfillmentId fulfillment)

def assertJobReferenceFree (store : Store) (fulfillment : Fulfillment) : Except String Unit :=
  if store.jobReferenceTaken fulfillment then .error duplicateJob else .ok ()

def update (store : Store) (fulfillment : Fulfillment) : Except String Store :=
  match assertJobReferenceFree store fulfillment with
  | .error message => .error message
  | .ok () => putRow store fulfillment.fulfillmentId fulfillment

def updateIfStatusIn (store : Store) (fulfillment : Fulfillment)
    (expected : List FulfillmentStatus) : Except String ConditionalWrite :=
  match store.get fulfillment.fulfillmentId with
  | none => .ok .stale
  | some stored =>
      if stored.status ∈ expected then applied (putRow store fulfillment.fulfillmentId fulfillment)
      else .ok .stale

def markExecutedAfterCancellation (store : Store) (fulfillmentId : String) (executedAt : Int)
    (jobReference : String) : Except String ConditionalWrite :=
  match store.get fulfillmentId with
  | none => .ok .stale
  | some stored =>
      if stored.status ≠ .cancelled then .ok .stale
      else if stored.executedAfterCancellationAt ≠ none then .ok .stale
      else applied (putRow store fulfillmentId (markRow stored executedAt jobReference))

/-- A staged write against this store. -/
def write (store : Store) : Write → Except Thrown Store
  | .intake fulfillment =>
      thrown (insertIfAbsent store fulfillment) (.intakeLost fulfillment.marketOrderReference)
  | .transition next expected =>
      thrown (updateIfStatusIn store next expected) (.transitionLost next.fulfillmentId)
  | .update next =>
      match update store next with
      | .ok store' => .ok store'
      | .error message => .error (.other message)
  | .mark fulfillmentId executedAt jobReference =>
      thrown (markExecutedAfterCancellation store fulfillmentId executedAt jobReference)
        (.transitionLost fulfillmentId)

/-! ### The database on this store -/

def apply (db : Db) : WaslaCore.Write → Except Thrown Db
  | .money write => db.apply (.money write)
  | .fulfillment staged =>
      if (referencedHold staged).any (fun hold => (db.money.getAuthorization hold).isNone) then
        .error (.other "insert or update on table \"fulfillment\" violates foreign key constraint \"fulfillment_payment_authorization_id_fkey\"")
      else
        match write db.fulfillments staged with
        | .ok fulfillments => .ok { db with fulfillments := fulfillments }
        | .error error => .error error

def applyAll (db : Db) : List WaslaCore.Write → Except Thrown Db
  | [] => .ok db
  | staged :: rest =>
      match apply db staged with
      | .ok next => applyAll next rest
      | .error error => .error error

def commit (db : Db) (uow : Work) : Except Thrown Db :=
  match applyAll db uow.writes with
  | .error error => .error error
  | .ok written =>
      match Money.verifyAll written.money (uow.writes.filterMap WaslaCore.Write.money?) with
      | .error message => .error (.other message)
      | .ok () =>
          .ok { written with
            audit := written.audit ++ uow.audits.map AuditEntry.recorded
            outbox := written.outbox ++ uow.events }

/-- As the relational database, except for what a commit writes. -/
def perform : (action : Action) → Choice → Db → Option (action.Answer × Db)
  | .commit uow, .proceed, db =>
      match commit db uow with
      | .ok db' => some (.ok (), db')
      | .error error => some (.error error, db)
  | action, choice, db => WaslaCore.perform action choice db

def memory : System Db Action Action.Answer Choice := ⟨perform, tick⟩

/-! ### When jobs are free -/

/-- A conditional write whose guard is true names a job no other row has. The
unconditional update asks by itself, of a row that is there; the marker carries
no job of its own. -/
def namesFreeJob (store : Store) : Write → Bool
  | .intake fulfillment => !store.jobReferenceTaken fulfillment
  | .transition next expected =>
      (store.get next.fulfillmentId).all (fun stored =>
        !decide (stored.status ∈ expected) || !store.jobReferenceTaken next)
  | .update next => (store.get next.fulfillmentId).isSome
  | .mark _ _ _ => true

/-- Every conditional write names a free job at the point where it is applied. -/
def namesFreeJobs (db : Db) : List WaslaCore.Write → Bool
  | [] => true
  | staged :: rest =>
      staged.fulfillment?.all (namesFreeJob db.fulfillments) &&
        match apply db staged with
        | .ok next => namesFreeJobs next rest
        | .error _ => true

/-- A commit that goes through names free jobs in its conditional writes. -/
def JobsFree (_ : Seen) : Action → Db → Prop
  | .commit uow, db => (commit db uow).isOk = true → namesFreeJobs db uow.writes = true
  | _, _ => True

instance (seen : Seen) (action : Action) (db : Db) : Decidable (JobsFree seen action db) :=
  match action with
  | .commit uow => inferInstanceAs (Decidable ((commit db uow).isOk = true →
      namesFreeJobs db uow.writes = true))
  | .read _ => .isTrue trivial
  | .clock => .isTrue trivial
  | .newId => .isTrue trivial
  | .record _ => .isTrue trivial

/-! ### Jobs stay unique -/

/-- Rows are under their keys, and no job has two of them. -/
structure JobsUnique (store : Store) : Prop where
  keyed : ∀ id row, store.get id = some row → row.fulfillmentId = id
  jobs : ∀ id id' row row' job, store.get id = some row → store.get id' = some row' →
    row.moveJobReference = some job → row'.moveJobReference = some job → id = id'

section Writes

variable {store store' : Store}

theorem putRow_ok {key : String} {row : Fulfillment} (h : putRow store key row = .ok store') :
    store' = ⟨store.rows.put key row⟩ := by
  unfold putRow at h
  split at h
  · cases h
  · exact (Except.ok.inj h).symm

theorem applied_ok {key : String} {row : Fulfillment} {signal : Thrown}
    (h : thrown (applied (putRow store key row)) signal = .ok store') :
    store' = ⟨store.rows.put key row⟩ := by
  cases hput : putRow store key row with
  | error message =>
      rw [hput] at h
      cases h
  | ok after =>
      rw [hput] at h
      obtain rfl := Except.ok.inj h
      exact putRow_ok hput

/-- A free job belongs to no other row. -/
theorem JobsUnique.free (h : JobsUnique store) {row : Fulfillment}
    (hfree : store.jobReferenceTaken row = false) {id job : String} {found : Fulfillment}
    (hfound : store.get id = some found) (hjob : row.moveJobReference = some job)
    (hsame : found.moveJobReference = some job) : id = row.fulfillmentId := by
  by_contra hid
  simp only [Store.jobReferenceTaken, hjob, Option.isSome_some, Bool.true_and,
    List.any_eq_false] at hfree
  refine hfree found (Table.mem_values.mpr ⟨id, hfound⟩) ?_
  simp [hsame, h.keyed id found hfound, hid]

/-- A row put under its own identifier keeps jobs unique if its job is its own. -/
theorem JobsUnique.put (h : JobsUnique store) (row : Fulfillment)
    (hown : ∀ id found job, store.get id = some found → row.moveJobReference = some job →
      found.moveJobReference = some job → id = row.fulfillmentId) :
    JobsUnique ⟨store.rows.put row.fulfillmentId row⟩ := by
  have hcases : ∀ id found, (⟨store.rows.put row.fulfillmentId row⟩ : Store).get id = some found →
      (id = row.fulfillmentId ∧ found = row) ∨ store.get id = some found := by
    intro id found hfound
    rw [Store.get, Table.get_put] at hfound
    split at hfound
    · rename_i hid
      exact .inl ⟨hid.symm, (Option.some.inj hfound).symm⟩
    · exact .inr hfound
  constructor
  · intro id found hfound
    rcases hcases id found hfound with ⟨rfl, rfl⟩ | hold
    · rfl
    · exact h.keyed id found hold
  · intro id id' found found' job hfound hfound' hjob hjob'
    rcases hcases id found hfound with ⟨rfl, rfl⟩ | hold <;>
      rcases hcases id' found' hfound' with ⟨rfl, rfl⟩ | hold'
    · rfl
    · exact (hown id' found' job hold' hjob hjob').symm
    · exact hown id found job hold hjob' hjob
    · exact h.jobs id id' found found' job hold hold' hjob hjob'

theorem JobsUnique.written (h : JobsUnique store) {staged : Write}
    (hfree : namesFreeJob store staged = true) (hwrite : write store staged = .ok store') :
    JobsUnique store' := by
  cases staged with
  | intake fulfillment =>
      simp only [namesFreeJob, Bool.not_eq_true'] at hfree
      simp only [write, insertIfAbsent] at hwrite
      split at hwrite
      · cases hwrite
      · rw [applied_ok hwrite]
        exact h.put _ (fun _ _ _ hfound hjob hsame => h.free hfree hfound hjob hsame)
  | transition next expected =>
      simp only [write, updateIfStatusIn] at hwrite
      cases hstored : store.get next.fulfillmentId with
      | none =>
          rw [hstored] at hwrite
          cases hwrite
      | some stored =>
          rw [hstored] at hwrite
          dsimp only at hwrite
          split at hwrite
          · rename_i hexpected
            rw [applied_ok hwrite]
            have hfree : store.jobReferenceTaken next = false := by
              simpa [namesFreeJob, hstored, hexpected] using hfree
            exact h.put _ (fun _ _ _ hfound hjob hsame => h.free hfree hfound hjob hsame)
          · cases hwrite
  | update next =>
      simp only [write, update, assertJobReferenceFree] at hwrite
      split at hwrite
      · rename_i after hafter
        obtain rfl := Except.ok.inj hwrite
        split at hafter
        · cases hafter
        · rename_i hchecked
          split at hchecked
          · cases hchecked
          · rename_i hfree
            rw [putRow_ok hafter]
            exact h.put _ (fun _ _ _ hfound hjob hsame =>
              h.free (by simpa using hfree) hfound hjob hsame)
      · cases hwrite
  | mark fulfillmentId executedAt jobReference =>
      simp only [write, markExecutedAfterCancellation] at hwrite
      cases hstored : store.get fulfillmentId with
      | none =>
          rw [hstored] at hwrite
          cases hwrite
      | some stored =>
          rw [hstored] at hwrite
          dsimp only at hwrite
          split at hwrite
          · cases hwrite
          split at hwrite
          · cases hwrite
          rw [applied_ok hwrite]
          -- the marked row keeps the job it had
          obtain rfl := h.keyed _ _ hstored
          exact h.put (markRow stored executedAt jobReference)
            (fun id found job hfound hjob hsame => h.jobs _ _ _ _ job hfound hstored hsame hjob)

end Writes

theorem JobsUnique.writtenAll {db db' : Db} {writes : List WaslaCore.Write}
    (h : JobsUnique db.fulfillments) (hfree : namesFreeJobs db writes = true)
    (hwrites : applyAll db writes = .ok db') : JobsUnique db'.fulfillments := by
  induction writes generalizing db with
  | nil =>
      obtain rfl := Except.ok.inj hwrites
      exact h
  | cons staged rest ih =>
      simp only [namesFreeJobs, Bool.and_eq_true] at hfree
      simp only [applyAll] at hwrites
      obtain ⟨hone, hrest⟩ := hfree
      split at hwrites
      · rename_i next hnext
        rw [hnext] at hrest
        refine ih ?_ hrest hwrites
        cases staged with
        | money staged =>
            have hnext : db.apply (.money staged) = .ok next := hnext
            rcases apply_ok hnext with ⟨money, write', -, -, rfl⟩ | ⟨rows, write', hother, -⟩
            · exact h
            · cases hother
        | fulfillment staged =>
            simp only [apply] at hnext
            split at hnext
            · cases hnext
            split at hnext
            · rename_i fulfillments hfulfillments
              obtain rfl := Except.ok.inj hnext
              exact h.written hone hfulfillments
            · cases hnext
      · cases hwrites

theorem JobsUnique.committed {db db' : Db} {uow : Work} (h : JobsUnique db.fulfillments)
    (hfree : (commit db uow).isOk = true → namesFreeJobs db uow.writes = true)
    (hcommit : commit db uow = .ok db') : JobsUnique db'.fulfillments := by
  have hfree := hfree (by rw [hcommit]; rfl)
  unfold commit at hcommit
  split at hcommit
  · cases hcommit
  rename_i written hwritten
  split at hcommit
  · cases hcommit
  obtain rfl := Except.ok.inj hcommit
  have hunique := h.writtenAll hfree hwritten
  exact hunique

/-! ### The two stores refuse the same writes -/

section Agreement

variable {store : Store}

theorem assertRow_not_duplicate (row : Fulfillment) : assertRow row ≠ .error duplicateJob := by
  unfold assertRow duplicateJob
  split
  · simp
  split
  · simp
  split <;> simp

/-- Neither half of a conditional write speaks of jobs. -/
theorem thrown_duplicate {result : Except String ConditionalWrite} {signal : Thrown}
    (hsignal : ∀ message, signal ≠ .other message) :
    thrown result signal = .error (.other duplicateJob) ↔ result = .error duplicateJob := by
  constructor
  · exact thrown_refused hsignal
  · rintro rfl
    rfl

theorem applied_not_duplicate (key : String) (row : Fulfillment) :
    applied (putRow store key row) ≠ .error duplicateJob := by
  unfold putRow
  have hrow := assertRow_not_duplicate row
  cases hcase : assertRow row with
  | error message =>
      rw [hcase] at hrow
      simpa [applied] using hrow
  | ok checked => simp [applied]

/-- Where a conditional write names a free job, and among writes whose row passes
the row rules, this store refuses for the job what the relational one does. -/
theorem same_refusals (h : JobsUnique store) {staged : Write}
    (hfree : namesFreeJob store staged = true)
    (hpasses : ∀ row, staged.stagedRow = some row → assertRow row = .ok ()) :
    write store staged = .error (.other duplicateJob) ↔
      staged.apply store = .error (.other duplicateJob) := by
  cases staged with
  | intake fulfillment =>
      refine iff_of_false ?_ ?_
      · rw [write, thrown_duplicate (by rintro message ⟨⟩), insertIfAbsent]
        split
        · simp
        · exact applied_not_duplicate _ _
      · rw [Write.apply, thrown_duplicate (by rintro message ⟨⟩), Store.insertIfAbsent,
          hpasses _ rfl]
        dsimp only
        split <;> simp
  | transition next expected =>
      refine iff_of_false ?_ ?_
      · rw [write, thrown_duplicate (by rintro message ⟨⟩), updateIfStatusIn]
        cases store.get next.fulfillmentId with
        | none => simp
        | some stored =>
            dsimp only
            split
            · exact applied_not_duplicate _ _
            · simp
      · rw [Write.apply, thrown_duplicate (by rintro message ⟨⟩), Store.updateIfStatusIn]
        cases hstored : store.get next.fulfillmentId with
        | none => simp
        | some stored =>
            dsimp only
            split
            · rename_i hexpected
              have hfree : store.jobReferenceTaken next = false := by
                simpa [namesFreeJob, hstored, hexpected] using hfree
              have hid : stored.fulfillmentId = next.fulfillmentId := h.keyed _ _ hstored
              have hrevised : store.jobReferenceTaken (reviseRow stored next) = false := by
                rw [← hfree]
                simp [Store.jobReferenceTaken, reviseRow, hid]
              rw [Store.putRow, assertRow_revise, hpasses _ rfl, hrevised]
              simp
            · simp
  | update next =>
      obtain ⟨stored, hstored⟩ := Option.isSome_iff_exists.mp hfree
      have hid : stored.fulfillmentId = next.fulfillmentId := h.keyed _ _ hstored
      have hrevised : store.jobReferenceTaken (reviseRow stored next) =
          store.jobReferenceTaken next := by
        simp [Store.jobReferenceTaken, reviseRow, hid]
      simp only [write, update, assertJobReferenceFree, putRow, hpasses _ rfl, Write.apply,
        Store.update, hstored, Store.putRow, assertRow_revise, hrevised]
      cases store.jobReferenceTaken next <;> simp [duplicateJob]
  | mark fulfillmentId executedAt jobReference =>
      refine iff_of_false ?_ ?_
      · rw [write, thrown_duplicate (by rintro message ⟨⟩), markExecutedAfterCancellation]
        cases store.get fulfillmentId with
        | none => simp
        | some stored =>
            dsimp only
            split
            · simp
            split
            · simp
            · exact applied_not_duplicate _ _
      · rw [Write.apply, thrown_duplicate (by rintro message ⟨⟩),
          Store.markExecutedAfterCancellation]
        cases hstored : store.get fulfillmentId with
        | none => simp
        | some stored =>
            dsimp only
            split
            · obtain rfl := h.keyed _ _ hstored
              have htaken : store.jobReferenceTaken (markRow stored executedAt jobReference) =
                  false := by
                by_contra htaken
                simp only [Store.jobReferenceTaken, Bool.not_eq_false, Bool.and_eq_true,
                  List.any_eq_true, decide_eq_true_eq] at htaken
                obtain ⟨hjob, other, hmember, hdistinct, hsame⟩ := htaken
                obtain ⟨id, hid⟩ := Table.mem_values.mp hmember
                obtain ⟨job, hjob⟩ := Option.isSome_iff_exists.mp hjob
                have := h.jobs _ _ _ _ job hid hstored (hsame.trans hjob) hjob
                exact hdistinct ((h.keyed _ _ hid).trans this)
              have hrow := assertRow_not_duplicate (markRow stored executedAt jobReference)
              rw [Store.putRow]
              cases hcase : assertRow (markRow stored executedAt jobReference) with
              | error message =>
                  rw [hcase] at hrow
                  simpa using hrow
              | ok checked => simp [htaken]
            · simp

end Agreement

/-- In every run on the in-memory store whose conditional writes name free jobs,
no two stored fulfillments have one job, and among writes whose row passes the row
rules the store refuses for the job exactly those the unique constraint refuses. -/
theorem run_jobs_unique {start : Int} {world : World Db Action Action.Answer Thrown Unit}
    (hrun : Run memory requests JobsFree (World.initial (Db.empty start)) world) :
    (∀ id id' row row' job, world.store.fulfillments.get id = some row →
      world.store.fulfillments.get id' = some row' → row.moveJobReference = some job →
      row'.moveJobReference = some job → id = id') ∧
    ∀ staged, namesFreeJob world.store.fulfillments staged = true →
      (∀ row, staged.stagedRow = some row → assertRow row = .ok ()) →
      (write world.store.fulfillments staged = .error (.other duplicateJob) ↔
        staged.apply world.store.fulfillments = .error (.other duplicateJob)) := by
  have hunique : JobsUnique world.store.fulfillments := by
    refine Run.stored (I := fun db : Db => JobsUnique db.fulfillments) ?_ ?_ ?_ hrun
    · intro seen action choice answer db db' hinv hallowed hperform
      have hcore : ∀ {action : Action} {answer : action.Answer}, (∀ uow, action ≠ .commit uow) →
          WaslaCore.perform action choice db = some (answer, db') → JobsUnique db'.fulfillments := by
        intro action answer hother hperform
        rcases perform_cases hperform with rfl | ⟨entry, -, rfl⟩ | ⟨uow, hcommit, -⟩
        · exact hinv
        · exact hinv
        · exact absurd hcommit (hother uow)
      cases action with
      | commit uow =>
          cases choice with
          | proceed =>
              simp only [memory, perform] at hperform
              split at hperform
              · rename_i after hcommit
                obtain ⟨-, rfl⟩ := Prod.mk.inj (Option.some.inj hperform)
                exact hinv.committed hallowed hcommit
              · obtain ⟨-, rfl⟩ := Prod.mk.inj (Option.some.inj hperform)
                exact hinv
          | failing message =>
              obtain ⟨-, rfl⟩ := Prod.mk.inj (Option.some.inj hperform)
              exact hinv
          | drawn id => cases hperform
          | elapsed milliseconds => cases hperform
      | read query => exact hcore (by rintro uow ⟨⟩) hperform
      | clock => exact hcore (by rintro uow ⟨⟩) hperform
      | newId => exact hcore (by rintro uow ⟨⟩) hperform
      | record entry => exact hcore (by rintro uow ⟨⟩) hperform
    · intro choice db db' hinv htick
      obtain ⟨elapsed, rfl⟩ := tick_ok htick
      exact hinv
    · exact ⟨by rintro id row ⟨⟩, by rintro id id' row row' job ⟨⟩⟩
  exact ⟨hunique.jobs, fun staged hfree hpasses => same_refusals hunique hfree hpasses⟩

/-- Two orders taken up, each accepted for the job given. -/
def twoAccepted (first second : String) : Schedule :=
  .start (Request.marketOrder ⟨"first", idOf '1', "delivery", none⟩).call ::
    acts 0 [.proceed, .drawn (idOf '5'), .proceed, .proceed] ++
  .start (Request.marketOrder ⟨"second", idOf '1', "delivery", none⟩).call ::
    acts 1 [.proceed, .drawn (idOf '6'), .proceed, .proceed] ++
  .start (Request.jobAccepted ⟨idOf '5', first, 1⟩).call :: acts 2 [.proceed, .proceed] ++
  .start (Request.jobAccepted ⟨idOf '6', second, 2⟩).call :: acts 3 [.proceed, .proceed]

def jobsOf (db : Db) : List (Option String) :=
  db.fulfillments.rows.values.map Fulfillment.moveJobReference

set_option maxRecDepth 20000 in
theorem run_jobs_unique_accepted :
    ∃ world, play memory (fun seen action db => JobsFree seen action db)
        (twoAccepted "job" "other") (World.initial (Db.empty 0)) = some world ∧
      jobsOf world.store = [some "job", some "other"] ∧
      ∀ id id' row row' job, world.store.fulfillments.get id = some row →
        world.store.fulfillments.get id' = some row' → row.moveJobReference = some job →
        row'.moveJobReference = some job → id = id' := by
  have hplays : (play memory (fun seen action db => JobsFree seen action db)
      (twoAccepted "job" "other") (World.initial (Db.empty 0))).any
        (fun world => jobsOf world.store = [some "job", some "other"]) = true := by decide +kernel
  obtain ⟨world, hworld, hjobs⟩ := (Option.any_eq_true _ _).mp hplays
  refine ⟨world, hworld, of_decide_eq_true hjobs,
    (run_jobs_unique (play_run hworld ?_ (fun _ _ _ h => of_decide_eq_true h))).1⟩
  simp [twoAccepted, acts]

set_option maxRecDepth 20000 in
/-- Without the condition two acceptances give one job two fulfillments. -/
theorem jobs_unique_fails : ¬∀ (start : Int) (world : World Db Action Action.Answer Thrown Unit),
    Run memory requests anything (World.initial (Db.empty start)) world →
    ∀ id id' row row' job, world.store.fulfillments.get id = some row →
      world.store.fulfillments.get id' = some row' → row.moveJobReference = some job →
      row'.moveJobReference = some job → id = id' := by
  intro htrue
  have hplays : (play memory unrestricted (twoAccepted "job" "job")
      (World.initial (Db.empty 0))).any (fun world =>
        (world.store.fulfillments.get (idOf '5')).any
          (fun row => row.moveJobReference = some "job") ∧
        (world.store.fulfillments.get (idOf '6')).any
          (fun row => row.moveJobReference = some "job")) = true := by decide +kernel
  obtain ⟨world, hworld, hboth⟩ := (Option.any_eq_true _ _).mp hplays
  obtain ⟨hfirst, hsecond⟩ := of_decide_eq_true hboth
  obtain ⟨row, hrow, hjob⟩ := (Option.any_eq_true _ _).mp hfirst
  obtain ⟨row', hrow', hjob'⟩ := (Option.any_eq_true _ _).mp hsecond
  have hsame := htrue 0 world
    (play_run hworld (by simp [twoAccepted, acts]) (fun _ _ _ _ => trivial)) _ _ row row' "job" hrow hrow' (of_decide_eq_true hjob)
    (of_decide_eq_true hjob')
  simp [idOf] at hsame

end InMemory

end WaslaCore.Fulfillment
