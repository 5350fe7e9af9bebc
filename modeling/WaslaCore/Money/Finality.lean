import WaslaCore.Money.Reconciliation

/-!
Finality of a closed hold. The service decides on the row it read and writes the
whole row back; nothing compares the status at the write. So a capture, a void or
a refund that commits after another call closed the hold overwrites the closure.
Where every commit finds the status it was decided on, a closed hold stays as it
was closed and its closure is published once.
-/

namespace WaslaCore.Money

open WaslaCore.Data WaslaCore.Platform WaslaCore.Interleaving

/-- The events that publish the release of a hold. -/
def voidedEvents (id : String) (db : Db) : Nat := eventsOf "core.payment.voided" id db.outbox

/-- The audit entries that record the release of a hold. -/
def voidedEntries (id : String) (db : Db) : Nat :=
  entriesOf "payment.authorization.voided" id db.audit

/-- A closed hold keeps its status and what it captured, and no capture of it is
added to the ledger. -/
structure ClosedStays (id : String) (before after : Db) : Prop where
  status : ∀ closed, before.money.getAuthorization id = some closed → closed.status ≠ .authorized →
    ∃ row, after.money.getAuthorization id = some row ∧ row.status = closed.status ∧
      row.capturedMinor = closed.capturedMinor
  captures : ∀ closed, before.money.getAuthorization id = some closed →
    closed.status ≠ .authorized → ∀ transaction ∈ after.money.ledger.values,
      transaction.kind = .capture → transaction.authorizationId = some id →
        transaction ∈ before.money.ledger.values

theorem ClosedStays.refl (id : String) (db : Db) : ClosedStays id db db :=
  ⟨fun closed hclosed _ => ⟨closed, hclosed, rfl, rfl⟩, fun _ _ _ _ hmember _ _ => hmember⟩

theorem ClosedStays.trans {id : String} {first second third : Db}
    (h : ClosedStays id first second) (h' : ClosedStays id second third) :
    ClosedStays id first third := by
  constructor
  · intro closed hclosed hstatus
    obtain ⟨middle, hmiddle, hsame, hamount⟩ := h.status closed hclosed hstatus
    obtain ⟨last, hlast, hsame', hamount'⟩ := h'.status middle hmiddle (by rwa [hsame])
    exact ⟨last, hlast, hsame'.trans hsame, hamount'.trans hamount⟩
  · intro closed hclosed hstatus transaction hmember hkind hid
    obtain ⟨middle, hmiddle, hsame, -⟩ := h.status closed hclosed hstatus
    exact h.captures closed hclosed hstatus transaction
      (h'.captures middle hmiddle (by rwa [hsame]) transaction hmember hkind hid) hkind hid

/-- What is final about one hold between two points of a run: once closed it
stays so, and it is released and published as released at most once. -/
structure Final (id : String) (before after : Db) : Prop extends ClosedStays id before after where
  published : voidedEvents id after ≤ 1
  released : voidedEntries id after ≤ 1

/-- A hold that is stored has the status the call last read. -/
def holdAsRead (seen : Seen) (db : Db) (id : String) : Bool :=
  match db.money.getAuthorization id with
  | none => true
  | some stored => (lastRead id seen).any (fun row => row.status = stored.status)

/-- The hold a write updates is stored with the status its call last read. -/
def updatesAsRead (seen : Seen) (db : Db) : WaslaCore.Write → Bool
  | .money (.updateAuthorization next) => holdAsRead seen db next.authorizationId
  | _ => true

/-- A commit that goes through finds every hold it writes in the status its call
last read. -/
def StatusAsRead (seen : Seen) : Action → Db → Prop
  | .commit uow, db =>
      (db.commit uow).isOk = true → ∀ write ∈ uow.writes, updatesAsRead seen db write = true
  | _, _ => True

instance (seen : Seen) (action : Action) (db : Db) : Decidable (StatusAsRead seen action db) :=
  match action with
  | .commit uow => inferInstanceAs (Decidable
      ((db.commit uow).isOk = true → ∀ write ∈ uow.writes, updatesAsRead seen db write = true))
  | .read _ => .isTrue trivial
  | .clock => .isTrue trivial
  | .newId => .isTrue trivial
  | .record _ => .isTrue trivial

/-! ### What a commit publishes -/

/-- The hold a movement releases. -/
def Movement.releases : Movement → Option String
  | .void authorization _ _ _ => some authorization.authorizationId
  | _ => Option.none

theorem Movement.voided_events (movement : Movement) (id : String) :
    eventsOf "core.payment.voided" id (movement.staged UnitOfWork.empty).events =
      if movement.releases = some id then 1 else 0 := by
  cases movement <;> simp [Movement.staged, Movement.releases, eventsOf, UnitOfWork.empty,
    stageWallet, stageCredit, stageAuthorize, stageCapture, stageRefund, stageVoid, voidedRow,
    List.countP_cons]

theorem Movement.voided_entries (movement : Movement) (id : String) :
    entriesOf "payment.authorization.voided" id (movement.staged UnitOfWork.empty).audits =
      if movement.releases = some id then 1 else 0 := by
  cases movement <;> simp [Movement.staged, Movement.releases, entriesOf, UnitOfWork.empty,
    stageWallet, stageCredit, stageAuthorize, stageCapture, stageRefund, stageVoid, voidedRow,
    moneyAudit, List.countP_cons]

/-- The fulfillment service neither publishes nor records a release itself. -/
theorem coordination_releases_nothing {seen : Seen} {movement : Movement}
    {coordination : Fulfillment.Coordination} (hlegal : coordination.Legal seen movement)
    (id : String) :
    eventsOf "core.payment.voided" id (coordination.staged UnitOfWork.empty).events = 0 ∧
      entriesOf "payment.authorization.voided" id
        (coordination.staged UnitOfWork.empty).audits = 0 := by
  have hclosure : ∀ row capturedMinor,
      (Fulfillment.closureEvent row capturedMinor).eventType ≠ "core.payment.voided" := by
    intro row capturedMinor
    unfold Fulfillment.closureEvent
    split <;> simp
  have haction : ∀ current row capturedMinor action,
      coordination = .closed current row capturedMinor action →
        action ≠ "payment.authorization.voided" := by
    rintro current row capturedMinor action rfl
    rw [hlegal.2.2.2.2.2.1]
    split <;> simp
  unfold eventsOf entriesOf
  simp only [List.countP_eq_zero]
  cases coordination <;> simp_all [Fulfillment.Coordination.staged, UnitOfWork.empty,
    Fulfillment.stageCreated, Fulfillment.stageRefused, Fulfillment.stageDispatched,
    Fulfillment.stageClosed, Fulfillment.stageTraced, Fulfillment.stageMarked,
    Fulfillment.createdEvent, Fulfillment.dispatchedEvent,
    Fulfillment.executedAfterCancellationEvent, Fulfillment.auditEntry]

/-- A hold that is not there or was never released is published as nothing. -/
def Unreleased (id : String) (db : Db) : Prop :=
  ∀ row, db.money.getAuthorization id = some row →
    row.status = .authorized ∨ row.status = .captured

/-- The invariant: a release is published at most once, and only for a hold that
stands released. -/
structure PublishedOnce (id : String) (db : Db) : Prop where
  events : voidedEvents id db ≤ 1
  entries : voidedEntries id db ≤ 1
  unreleased : Unreleased id db → voidedEvents id db = 0 ∧ voidedEntries id db = 0

section Landed

variable {seen : Seen} {operation : Operation} {db db' : Db}

/-- The stored hold has the status the movement was decided on. -/
theorem status_as_read (h : Commit seen operation db db')
    (hasRead : StatusAsRead seen (.commit operation.staged) db)
    {row stored : PaymentAuthorization} (hbase : operation.movement.base = some row)
    (hstored : db.money.authorizations.get row.authorizationId = some stored) :
    stored.status = row.status := by
  obtain ⟨next, hnext, hid⟩ := Movement.base_writes hbase
  have hwrite : WaslaCore.Write.money (.updateAuthorization next) ∈ operation.staged.writes := by
    rw [operation.staged_writes]
    exact List.mem_append_left _ (List.mem_map_of_mem hnext)
  have hsame := hasRead (by rw [h.committed]; rfl) _ hwrite
  simp only [updatesAsRead, holdAsRead, Store.getAuthorization, hid, hstored,
    Movement.base_read h.legal.movement hbase, Option.any_some, decide_eq_true_eq] at hsame
  exact hsame.symm

/-- A commit publishes the release of the hold its movement releases, once. -/
theorem voidedEvents_commit (h : Commit seen operation db db') (id : String) :
    voidedEvents id db' =
      voidedEvents id db + if operation.movement.releases = some id then 1 else 0 := by
  unfold voidedEvents
  rw [commit_outbox h.committed, eventsOf_append, operation.eventsOf_staged,
    operation.movement.voided_events, (coordination_releases_nothing h.legal.coordination id).1,
    Nat.add_zero]

theorem voidedEntries_commit (h : Commit seen operation db db') (id : String) :
    voidedEntries id db' =
      voidedEntries id db + if operation.movement.releases = some id then 1 else 0 := by
  unfold voidedEntries
  rw [commit_audit h.committed, entriesOf_append, entriesOf_recorded, operation.entriesOf_staged,
    operation.movement.voided_entries, (coordination_releases_nothing h.legal.coordination id).2,
    Nat.add_zero]

/-- A rewrite that keeps what closed a hold leaves every closed hold as it was. -/
theorem rewritten_closed {store store' : Store} {stored next : PaymentAuthorization}
    (hrow : Rewritten store store' stored next)
    (hkeeps : stored.status ≠ .authorized →
      next.status = stored.status ∧ next.capturedMinor = stored.capturedMinor) {id : String}
    {closed : PaymentAuthorization} (hclosed : store.authorizations.get id = some closed)
    (hstatus : closed.status ≠ .authorized) :
    ∃ row, store'.authorizations.get id = some row ∧ row.status = closed.status ∧
      row.capturedMinor = closed.capturedMinor := by
  by_cases hid : next.authorizationId = id
  · subst hid
    rw [hrow.stored_eq] at hclosed
    obtain rfl := Option.some.inj hclosed
    exact ⟨_, hrow.get_self, hkeeps hstatus⟩
  · exact ⟨closed, by rw [hrow.get_ne hid, hclosed], rfl, rfl⟩

/-- A commit that finds the status it was decided on keeps a closed hold as it is. -/
theorem closed_status_commit (h : Commit seen operation db db')
    (hasRead : StatusAsRead seen (.commit operation.staged) db) {id : String}
    {closed : PaymentAuthorization} (hclosed : db.money.authorizations.get id = some closed)
    (hstatus : closed.status ≠ .authorized) :
    ∃ row, db'.money.authorizations.get id = some row ∧ row.status = closed.status ∧
      row.capturedMinor = closed.capturedMinor := by
  obtain ⟨movement, coordination⟩ := operation
  have hlegal := h.legal.movement
  have heffect := h.effect
  dsimp only at hlegal heffect
  cases heffect with
  | unmoved _ hholds _ => exact ⟨closed, by rw [hholds, hclosed], rfl, rfl⟩
  | credited _ hholds _ => exact ⟨closed, by rw [hholds, hclosed], rfl, rfl⟩
  | authorized hfresh hholds _ =>
      refine ⟨closed, ?_, rfl, rfl⟩
      rw [hholds, Table.get_put_ne _ _ ?_, hclosed]
      rintro rfl
      rw [hfresh] at hclosed
      cases hclosed
  | captured hrow _ _ =>
      refine rewritten_closed hrow (fun hstored => absurd ?_ hstored) hclosed hstatus
      rw [status_as_read h hasRead rfl hrow.stored_eq]
      exact hlegal.2.1
  | refunded hrow hfresh hledger =>
      refine rewritten_closed hrow (fun _ => ⟨?_, ?_⟩) hclosed hstatus
      · exact (status_as_read h hasRead rfl hrow.stored_eq).symm
      · have hcaptured := refunded_as_stored h.before.money h.after.money hrow hfresh hledger
          hlegal.2.2.2.2.kind_eq
        exact hcaptured
  | voided hrow _ =>
      refine rewritten_closed hrow (fun hstored => absurd ?_ hstored) hclosed hstatus
      rw [status_as_read h hasRead rfl hrow.stored_eq]
      exact hlegal.2
  | missed _ hholds _ => exact ⟨closed, by rw [hholds, hclosed], rfl, rfl⟩

/-- A hold that is captured was open in the store. -/
theorem captured_open (h : Commit seen operation db db')
    (hasRead : StatusAsRead seen (.commit operation.staged) db)
    {row : PaymentAuthorization} {wallet : Wallet} {requested closedAt : Int}
    {moved : LedgerTransaction}
    (hmovement : operation.movement = .capture row wallet requested closedAt moved)
    {stored : PaymentAuthorization}
    (hstored : db.money.authorizations.get row.authorizationId = some stored) :
    stored.status = .authorized := by
  have hlegal := h.legal.movement
  rw [hmovement] at hlegal
  rw [status_as_read h hasRead (by rw [hmovement]; rfl) hstored]
  exact hlegal.2.1

theorem closedStays_commit (h : Commit seen operation db db')
    (hasRead : StatusAsRead seen (.commit operation.staged) db) (id : String) :
    ClosedStays id db db' := by
  refine ⟨fun closed hclosed hstatus => closed_status_commit h hasRead hclosed hstatus, ?_⟩
  intro closed hclosed hstatus transaction hmember hkind hid
  rcases h.effect.captures h.legal.movement hmember hkind hid with
    hold | ⟨row, wallet, requested, closedAt, hmovement, rfl⟩
  · exact hold
  · exact absurd (captured_open h hasRead hmovement hclosed) hstatus

/-- A hold that is released was open in the store. -/
theorem released_open (h : Commit seen operation db db')
    (hasRead : StatusAsRead seen (.commit operation.staged) db) {id : String}
    (hreleases : operation.movement.releases = some id) :
    (∃ stored, db.money.authorizations.get id = some stored ∧ stored.status = .authorized) ∧
      ∃ row, db'.money.authorizations.get id = some row ∧
        row.status ≠ .authorized ∧ row.status ≠ .captured := by
  obtain ⟨movement, coordination⟩ := operation
  have hlegal := h.legal.movement
  have heffect := h.effect
  have hbase := @Commit.base _ _ _ _ h
  dsimp only at hlegal heffect hreleases hbase
  cases heffect with
  | voided hrow _ =>
      obtain rfl := Option.some.inj hreleases
      refine ⟨⟨_, hrow.stored_eq, ?_⟩, ⟨_, hrow.get_self, ?_⟩⟩
      · rw [status_as_read h hasRead rfl hrow.stored_eq]
        exact hlegal.2
      · simp only [PaymentAuthorization.revise, voidedRow]
        split <;> simp
  | missed hmissing _ _ =>
      obtain ⟨stored, hstored, -⟩ := hbase rfl
      rw [hmissing] at hstored
      cases hstored
  | unmoved hnone _ _ => cases movement <;> cases hreleases; cases hnone
  | credited _ _ _ => cases hreleases
  | authorized _ _ _ => cases hreleases
  | captured _ _ _ => cases hreleases
  | refunded _ _ _ => cases hreleases

/-- A commit that finds the status it was decided on publishes no second release. -/
theorem publishedOnce_commit (h : Commit seen operation db db')
    (hasRead : StatusAsRead seen (.commit operation.staged) db) {id : String}
    (honce : PublishedOnce id db) : PublishedOnce id db' := by
  have hevents := voidedEvents_commit h id
  have hentries := voidedEntries_commit h id
  by_cases hreleases : operation.movement.releases = some id
  · obtain ⟨⟨stored, hstored, hopen⟩, row, hrow, hclosed⟩ := released_open h hasRead hreleases
    obtain ⟨hnoEvent, hnoEntry⟩ := honce.unreleased (by
      intro found hfound
      rw [Store.getAuthorization, hstored] at hfound
      obtain rfl := Option.some.inj hfound
      exact .inl hopen)
    rw [if_pos hreleases, hnoEvent] at hevents
    rw [if_pos hreleases, hnoEntry] at hentries
    refine ⟨by omega, by omega, fun hunreleased => absurd (hunreleased row hrow) ?_⟩
    rintro (hauthorized | hcaptured)
    · exact hclosed.1 hauthorized
    · exact hclosed.2 hcaptured
  · rw [if_neg hreleases, Nat.add_zero] at hevents hentries
    refine ⟨hevents ▸ honce.events, hentries ▸ honce.entries, fun hunreleased => ?_⟩
    rw [hevents, hentries]
    refine honce.unreleased (fun found hfound => ?_)
    by_contra hclosed
    obtain ⟨row, hrow, hsame, -⟩ := closed_status_commit h hasRead hfound
      (fun hauthorized => hclosed (.inl hauthorized))
    exact hclosed (hsame ▸ hunreleased row hrow)

end Landed

/-! ### Finality over runs -/

/-- Finality as a law of the database. -/
def finality : Law where
  inv := fun db => ∀ id, PublishedOnce id db
  guar := fun db db' => ∀ id, ClosedStays id db db'
  guar_refl := fun db id => ClosedStays.refl id db
  guar_trans := fun h h' id => (h id).trans (h' id)
  known := fun _ _ _ => True
  known_stable := fun _ _ => trivial

theorem finality_empty (start : Int) : finality.inv (Db.empty start) := by
  intro id
  exact ⟨Nat.zero_le 1, Nat.zero_le 1, fun _ => ⟨rfl, rfl⟩⟩

theorem finality_holds : finality.Holds StatusAsRead where
  commit := fun h hinv _ hasRead =>
    ⟨fun id => publishedOnce_commit h hasRead (hinv id), closedStays_commit h hasRead⟩
  record := by
    intro db entry haction hinv
    refine ⟨fun id => ?_, fun id => ⟨(ClosedStays.refl id db).status,
      (ClosedStays.refl id db).captures⟩⟩
    have hentries : voidedEntries id { db with audit := db.audit ++ [entry.recorded] } =
        voidedEntries id db := by
      simp [voidedEntries, entriesOf, AuditEntry.recorded, haction]
    exact ⟨(hinv id).events, hentries ▸ (hinv id).entries,
      fun hunreleased => hentries ▸ (hinv id).unreleased hunreleased⟩
  tick := fun elapsed _ hinv => ⟨fun id => ⟨(hinv id).events, (hinv id).entries, (hinv id).unreleased⟩,
    fun id => ⟨(ClosedStays.refl id _).status, (ClosedStays.refl id _).captures⟩⟩
  read := fun _ _ _ => trivial

/-- Between any two points of a run whose commits find the status they were
decided on, a closed hold stays closed, is captured no further, and is published
as released at most once. -/
theorem run_final {start : Int} {before after : World Db Action Action.Answer Thrown Unit}
    (hbefore : Run core requests StatusAsRead (World.initial (Db.empty start)) before)
    (hafter : Run core requests StatusAsRead before after) (id : String) :
    Final id before.store after.store := by
  have hkept := finality_holds.run (finality_empty start) hbefore
  obtain ⟨hkept', hguar⟩ := finality_holds.guar hkept hafter
  have honce := hkept'.inv.2 id
  exact ⟨hguar id, honce.events, honce.entries⟩

/-- A void decided on an open hold: one read and two clock readings before its
commit. -/
def voidDecided (index : Nat) : Schedule := acts index [.proceed, .proceed, .proceed]

/-- A hold of 60 that one void closes. -/
def voidedOnce : Schedule :=
  holdPlaced ++
  .start (Request.voidAuthorization ⟨idOf '4', "unused"⟩).call :: voidDecided 3 ++ committed 3

set_option maxRecDepth 20000 in
theorem run_final_voidedOnce :
    ∃ world, play core (fun seen action db => StatusAsRead seen action db) voidedOnce
        (World.initial (Db.empty 0)) = some world ∧
      voidedEvents (idOf '4') world.store = 1 ∧ Final (idOf '4') world.store world.store := by
  have hplays : (play core (fun seen action db => StatusAsRead seen action db) voidedOnce
      (World.initial (Db.empty 0))).any
        (fun world => voidedEvents (idOf '4') world.store = 1) = true := by decide +kernel
  obtain ⟨world, hworld, hevents⟩ := (Option.any_eq_true _ _).mp hplays
  refine ⟨world, hworld, of_decide_eq_true hevents,
    run_final (play_run hworld ?_ (fun _ _ _ h => of_decide_eq_true h)) .refl (idOf '4')⟩
  simp [voidedOnce, voidDecided, holdPlaced, walletOpened, creditPosted, authorizeDecided,
    authorizeCommitted, committed, acts]

/-- Two voids and a capture decide on one open hold, then the first void commits. -/
def decidedTogether : Schedule :=
  holdPlaced ++
  .start (Request.voidAuthorization ⟨idOf '4', "unused"⟩).call :: voidDecided 3 ++
  .start (Request.voidAuthorization ⟨idOf '4', "unused"⟩).call :: voidDecided 4 ++
  .start (Request.capture ⟨idOf '4', none, none⟩).call :: captureDecided 5 (idOf '5') ++
  committed 3

/-- The second void commits, then the capture. -/
def staleCommits : Schedule := committed 4 ++ committed 5

set_option maxRecDepth 20000 in
/-- Without the condition a voided hold is voided again and then captured in full. -/
theorem final_fails : ¬∀ (start : Int) (before after : World Db Action Action.Answer Thrown Unit),
    Run core requests anything (World.initial (Db.empty start)) before →
    Run core requests anything before after → ∀ id, Final id before.store after.store := by
  intro hfinal
  have hplays : (play core unrestricted decidedTogether (World.initial (Db.empty 0))).any
      (fun before => (play core unrestricted staleCommits before).any
        (fun after => voidedEvents (idOf '4') after.store = 2 ∧
          (after.store.money.getAuthorization (idOf '4')).map
            PaymentAuthorization.status = some .captured)) = true := by decide +kernel
  obtain ⟨before, hbefore, hrest⟩ := (Option.any_eq_true _ _).mp hplays
  obtain ⟨after, hafter, hevents⟩ := (Option.any_eq_true _ _).mp hrest
  have hpublished := (hfinal 0 before after
    (unrestricted_run hbefore (by
      simp [decidedTogether, voidDecided, holdPlaced, walletOpened, creditPosted,
        authorizeDecided, authorizeCommitted, captureDecided, committed, acts]))
    (unrestricted_run hafter (by simp [staleCommits, committed, acts])) (idOf '4')).published
  rw [(of_decide_eq_true hevents).1] at hpublished
  omega

end WaslaCore.Money
