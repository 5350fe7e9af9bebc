import WaslaCore.Fulfillment.Rules

/-!
The marker of an execution after cancellation. The write that sets it compares
the stored row, but the job a late acceptance traces is written over the whole
row as it was read, without a comparison. The marker is permanent, and announced
once, in every run whose unconditional updates find the marker they write.
-/

namespace WaslaCore.Fulfillment

open WaslaCore.Data WaslaCore.Platform WaslaCore.Interleaving

/-- The events that announce an execution after cancellation. -/
def executionEvents (id : String) (db : Db) : Nat :=
  eventsOf "core.fulfillment.executed_after_cancellation" id db.outbox

def markedNow (id : String) (db : Db) : Bool := (db.fulfillments.get id).any marked

/-! ### When a marker is safe -/

/-- An unconditional update that finds a marker writes that marker. -/
def keepsMarker (db : Db) : WaslaCore.Write → Bool
  | .fulfillment (.update next) =>
      (db.fulfillments.get next.fulfillmentId).all (fun stored =>
        !marked stored || marker next = marker stored)
  | _ => true

/-- A commit that goes through writes no marker over another. -/
abbrev MarkerAsRead : Seen → Action → Db → Prop := EachWrite keepsMarker

/-! ### The marker as a law -/

/-- Every marker that is set stays as it is. -/
def MarkersStay (before after : Db) : Prop :=
  ∀ id row, before.fulfillments.get id = some row → marked row = true →
    ∃ row', after.fulfillments.get id = some row' ∧ marker row' = marker row

theorem MarkersStay.refl (db : Db) : MarkersStay db db := fun _ row hrow _ => ⟨row, hrow, rfl⟩

theorem MarkersStay.trans {first second third : Db} (h : MarkersStay first second)
    (h' : MarkersStay second third) : MarkersStay first third := by
  intro id row hrow hmarked
  obtain ⟨middle, hmiddle, hsame⟩ := h id row hrow hmarked
  obtain ⟨last, hlast, hsame'⟩ := h' id middle hmiddle (by rw [marked_marker hsame, hmarked])
  exact ⟨last, hlast, hsame'.trans hsame⟩

/-- A marker that was read is the one that is stored. -/
def MarkerTold (row : Fulfillment) (db : Db) : Prop :=
  marked row = true →
    ∃ stored, db.fulfillments.get row.fulfillmentId = some stored ∧ marker stored = marker row

/-- The permanence of the marker as a law of the database. -/
def permanence : Law where
  inv := fun db => ∀ id, executionEvents id db = if markedNow id db then 1 else 0
  guar := MarkersStay
  guar_refl := MarkersStay.refl
  guar_trans := MarkersStay.trans
  known := fun query answer db =>
    ∀ row ∈ fulfillmentsShown ⟨.read query, .ok answer⟩, MarkerTold row db
  known_stable := by
    intro query answer db db' hguar hknown row hrow hmarked
    obtain ⟨stored, hstored, hsame⟩ := hknown row hrow hmarked
    obtain ⟨after, hafter, hsame'⟩ :=
      hguar _ stored hstored (by rw [marked_marker hsame, hmarked])
    exact ⟨after, hafter, hsame'.trans hsame⟩

/-! ### What a commit announces -/

/-- The fulfillment a step of coordination marks. -/
def Coordination.marks : Coordination → Option String
  | .marked cancelled _ => some cancelled.fulfillmentId
  | _ => Option.none

theorem coordination_execution_events (coordination : Coordination) (id : String) :
    eventsOf "core.fulfillment.executed_after_cancellation" id
        (coordination.staged UnitOfWork.empty).events =
      if coordination.marks = some id then 1 else 0 := by
  have hclosure : ∀ row capturedMinor,
      eventsOf "core.fulfillment.executed_after_cancellation" id [closureEvent row capturedMinor] =
        0 := by
    intro row capturedMinor
    have htype := (closureEvent_type row capturedMinor).2
    simp only [eventsOf, List.countP_cons, List.countP_nil, htype]
    split_ifs <;> simp_all
  cases coordination with
  | closed current row capturedMinor action => exact hclosure row capturedMinor
  | refused row capturedMinor extra => exact hclosure row capturedMinor
  | none => rfl
  | created row requestedService =>
      simp [Coordination.marks, Coordination.staged, stageCreated, createdEvent, UnitOfWork.empty,
        eventsOf]
  | dispatched current payload =>
      simp [Coordination.marks, Coordination.staged, stageDispatched, dispatchedEvent,
        UnitOfWork.empty, eventsOf]
  | traced current jobId => rfl
  | marked cancelled payload =>
      simp [Coordination.marks, Coordination.staged, stageMarked, executedAfterCancellationEvent,
        UnitOfWork.empty, eventsOf, markRow, List.countP_cons]

/-- Money announces no execution. -/
theorem movement_executes_nothing (movement : Money.Movement) (id : String) :
    eventsOf "core.fulfillment.executed_after_cancellation" id
      (movement.staged UnitOfWork.empty).events = 0 := by
  cases movement <;> simp [Money.Movement.staged, eventsOf, UnitOfWork.empty,
    Money.stageWallet, Money.stageCredit, Money.stageAuthorize, Money.stageCapture,
    Money.stageRefund, Money.stageVoid]

section Landed

variable {seen : Seen} {operation : Operation} {db db' : Db}

theorem executionEvents_commit (h : Commit seen operation db db') (id : String) :
    executionEvents id db' =
      executionEvents id db + if operation.coordination.marks = some id then 1 else 0 := by
  unfold executionEvents
  rw [commit_outbox h.committed, eventsOf_append, operation.eventsOf_staged,
    movement_executes_nothing, coordination_execution_events, Nat.zero_add]

/-! ### The marker under commits -/

/-- The row a commit puts, over the one that was stored, and what it does to its
marker: sets it where there was none, or keeps it. -/
inductive Remarks (db db' : Db) : Coordination → Prop where
  | idle {coordination} (hmarks : coordination.marks = Option.none)
      (hrows : db'.fulfillments = db.fulfillments) : Remarks db db' coordination
  | fresh {coordination key row} (hmarks : coordination.marks = Option.none)
      (hfresh : db.fulfillments.get key = Option.none) (hunmarked : marked row = false)
      (hplaced : Placed db.fulfillments db'.fulfillments key row) : Remarks db db' coordination
  | kept {coordination key row stored} (hmarks : coordination.marks = Option.none)
      (hstored : db.fulfillments.get key = some stored)
      (hmarked : marked row = marked stored)
      (hsame : marked stored = true → marker row = marker stored)
      (hplaced : Placed db.fulfillments db'.fulfillments key row) : Remarks db db' coordination
  | set {cancelled payload row stored}
      (hstored : db.fulfillments.get cancelled.fulfillmentId = some stored)
      (hunmarked : marked stored = false) (hmarked : marked row = true)
      (hplaced : Placed db.fulfillments db'.fulfillments cancelled.fulfillmentId row) :
      Remarks db db' (.marked cancelled payload)

/-- A transition writes an unmarked row over an unmarked one. -/
theorem Remarks.transition {coordination : Coordination} {key : String}
    {current next stored : Fulfillment} (h : Commit seen operation db db')
    (hmarks : coordination.marks = none) (hread : current ∈ fulfillmentsRead seen)
    (hopen : isClosed current.status = false) (hmarker : marker next = marker current)
    (hstored : db.fulfillments.get key = some stored) (hstoredOpen : isClosed stored.status = false)
    (hplaced : Placed db.fulfillments db'.fulfillments key (reviseRow stored next)) :
    Remarks db db' coordination := by
  have hstoredUnmarked :=
    unmarked_of_marker (open_marker (h.before.ruled.passes _ _ hstored) hstoredOpen)
  have hnext : marked next = false := by
    rw [marked_marker hmarker]
    exact unmarked_of_marker (open_marker (h.passed hread) hopen)
  have hrow : marked (reviseRow stored next) = false := hnext
  refine .kept hmarks hstored (hrow.trans hstoredUnmarked.symm) (fun hmarked => ?_) hplaced
  rw [hstoredUnmarked] at hmarked
  cases hmarked

theorem remarks_commit (h : Commit seen operation db db')
    (htold : ∀ row ∈ fulfillmentsRead seen, MarkerTold row db)
    (hasRead : MarkerAsRead seen (.commit operation.staged) db) :
    Remarks db db' operation.coordination := by
  have hlegal := h.legal.coordination
  have hdrawn := h.legal.drawn
  have heffect := coordination_effect h.committed
  have hkeeps : ∀ write ∈ operation.coordination.write,
      keepsMarker db (.fulfillment write) = true :=
    fun write hwrite => hasRead.coordination h.committed hwrite
  generalize operation.coordination = coordination at hlegal hdrawn heffect hkeeps ⊢
  cases heffect with
  | idle hrows hidle =>
      refine .idle ?_ hrows
      rcases hidle with rfl | ⟨current, jobId, rfl⟩ <;> rfl
  | created hfresh _ hplaced =>
      exact .fresh rfl hfresh (unmarked_of_marker hdrawn.2.1) hplaced
  | refused hfresh _ hplaced =>
      exact .fresh rfl hfresh (unmarked_of_marker hdrawn.2.1) hplaced
  | @dispatched current payload stored next hnext hstored hopen hplaced =>
      obtain ⟨hread, hcurrent, -⟩ := hlegal
      refine .transition h rfl hread (by rw [hcurrent]; rfl) ?_ hstored (by rw [hopen]; rfl) hplaced
      rw [hnext]
      rfl
  | closed hstored hopen hplaced =>
      exact .transition h rfl hlegal.1 hlegal.2.1 hdrawn.2.1 hstored hopen hplaced
  | @traced current jobId stored hstored hplaced =>
      -- the one write that compares nothing: it keeps a marker only if it writes it
      have hkeeps := hkeeps _ (List.mem_singleton_self _)
      simp only [keepsMarker, hstored, Option.all_some, Bool.or_eq_true, Bool.not_eq_true',
        decide_eq_true_eq] at hkeeps
      have hrow : ∀ job, marker (reviseRow stored { current with moveJobReference := job }) =
          marker current := fun _ => rfl
      cases hmarked : marked stored with
      | true =>
          have hsame := (hkeeps.resolve_left (by simp [hmarked])).symm.trans (hrow (some jobId)).symm
          exact .kept rfl hstored (by rw [marked_marker hsame.symm]) (fun _ => hsame.symm) hplaced
      | false =>
          have hcurrent : marked current = false := by
            by_contra hread
            obtain ⟨found, hfound, hsame⟩ := htold current hlegal.1 (by simpa using hread)
            rw [hstored] at hfound
            obtain rfl := Option.some.inj hfound
            exact hread (by rw [← marked_marker hsame, hmarked])
          have hunmarked := marked_marker (hrow (some jobId))
          refine .kept rfl hstored (by rw [hunmarked, hcurrent, hmarked]) (fun h => ?_) hplaced
          rw [hmarked] at h
          cases h
  | marked hstored _ hunmarked hplaced =>
      exact .set hstored (by simp [marked, hunmarked]) rfl hplaced

theorem Remarks.stay {coordination : Coordination} (h : Remarks db db' coordination) :
    MarkersStay db db' := by
  -- only the row that was put can differ, and it carries the marker it found
  have hother : ∀ {key row}, Placed db.fulfillments db'.fulfillments key row →
      (∀ stored, db.fulfillments.get key = some stored → marked stored = true →
        marker row = marker stored) → MarkersStay db db' := by
    intro key row hplaced hsame id found hfound hmarked
    by_cases hid : key = id
    · subst hid
      exact ⟨row, hplaced.get_self, hsame found hfound hmarked⟩
    · exact ⟨found, by rw [hplaced.get_ne hid, hfound], rfl⟩
  cases h with
  | idle _ hrows => exact fun id row hrow _ => ⟨row, by rw [hrows, hrow], rfl⟩
  | fresh _ hfresh _ hplaced =>
      refine hother hplaced (fun stored hstored => ?_)
      rw [hfresh] at hstored
      cases hstored
  | kept _ hstored _ hsame hplaced =>
      refine hother hplaced (fun found hfound hmarked => ?_)
      rw [hstored] at hfound
      obtain rfl := Option.some.inj hfound
      exact hsame hmarked
  | set hstored hunmarked _ hplaced =>
      refine hother hplaced (fun found hfound hmarked => ?_)
      rw [hstored] at hfound
      obtain rfl := Option.some.inj hfound
      rw [hunmarked] at hmarked
      cases hmarked

theorem markedNow_placed {key : String} {row : Fulfillment}
    (hplaced : Placed db.fulfillments db'.fulfillments key row) (id : String) :
    markedNow id db' = if key = id then marked row else markedNow id db := by
  unfold markedNow
  split
  · rename_i hid
    rw [← hid, hplaced.get_self, Option.any_some]
  · rename_i hid
    rw [hplaced.get_ne hid]

/-- A fulfillment becomes marked by the step that marks it, and is otherwise as
marked as it was. -/
theorem Remarks.now {coordination : Coordination} (h : Remarks db db' coordination) (id : String) :
    if coordination.marks = some id then markedNow id db = false ∧ markedNow id db' = true
    else markedNow id db' = markedNow id db := by
  cases h with
  | idle hmarks hrows =>
      rw [hmarks, if_neg (by rintro ⟨⟩), markedNow, markedNow, hrows]
  | fresh hmarks hfresh hunmarked hplaced =>
      rw [hmarks, if_neg (by rintro ⟨⟩), markedNow_placed hplaced, hunmarked]
      split
      · rename_i hid
        rw [markedNow, ← hid, hfresh, Option.any_none]
      · rfl
  | kept hmarks hstored hmarked _ hplaced =>
      rw [hmarks, if_neg (by rintro ⟨⟩), markedNow_placed hplaced, hmarked]
      split
      · rename_i hid
        rw [markedNow, ← hid, hstored, Option.any_some]
      · rfl
  | @set cancelled payload row stored hstored hunmarked hmarked hplaced =>
      rw [markedNow_placed hplaced, hmarked]
      split
      · rename_i hid
        obtain rfl := Option.some.inj hid
        rw [markedNow, hstored, Option.any_some, if_pos rfl]
        exact ⟨hunmarked, rfl⟩
      · rename_i hid
        rw [if_neg (fun heq => hid (congrArg some heq))]

end Landed

theorem permanence_holds : permanence.Holds MarkerAsRead where
  commit := by
    intro seen operation db db' h hinv htold hasRead
    have hmarkers : ∀ row ∈ fulfillmentsRead seen, MarkerTold row db :=
      htold.shown (fun _ _ hknown => hknown) (fun _ hother => (shown_nothing hother).2.1)
    have hremarks := remarks_commit h hmarkers hasRead
    refine ⟨fun id => ?_, hremarks.stay⟩
    have hevents := executionEvents_commit h id
    have hnow := hremarks.now id
    rw [hinv id] at hevents
    by_cases hmarks : operation.coordination.marks = some id
    · rw [if_pos hmarks] at hevents hnow
      rw [hevents, hnow.1, hnow.2]
      rfl
    · rw [if_neg hmarks] at hevents hnow
      rw [hevents, hnow, Nat.add_zero]
  record := fun _ hinv => ⟨hinv, MarkersStay.refl _⟩
  tick := fun _ _ hinv => ⟨hinv, MarkersStay.refl _⟩
  read := by
    intro db query hstocked _ row hrow hmarked
    obtain ⟨id, hid⟩ := fulfillment_stored rfl hrow
    exact ⟨row, by rw [hstocked.fulfillments id row hid, hid], rfl⟩

/-- In every run whose unconditional updates write no marker over another, a
marker once committed stays as it is, and one event at most announces it. -/
theorem run_marker {start : Int} {middle world : World Db Action Action.Answer Thrown Unit}
    (hbefore : Run core requests MarkerAsRead (World.initial (Db.empty start)) middle)
    (hafter : Run core requests MarkerAsRead middle world) :
    (∀ id row, middle.store.fulfillments.get id = some row →
      row.executedAfterCancellationAt.isSome = true →
      ∃ row', world.store.fulfillments.get id = some row' ∧
        row'.executedAfterCancellationAt = row.executedAfterCancellationAt ∧
        row'.executedAfterCancellationJobReference =
          row.executedAfterCancellationJobReference) ∧
    ∀ id, eventsOf "core.fulfillment.executed_after_cancellation" id world.store.outbox ≤ 1 := by
  have hkept := permanence_holds.run (fun _ => rfl) hbefore
  obtain ⟨hkept', hstay⟩ := permanence_holds.guar hkept hafter
  constructor
  · intro id row hrow hmarked
    obtain ⟨row', hrow', hsame⟩ := hstay id row hrow hmarked
    exact ⟨row', hrow', congrArg Prod.fst hsame, congrArg Prod.snd hsame⟩
  · intro id
    have hevents : executionEvents id world.store = if markedNow id world.store then 1 else 0 :=
      hkept'.inv.2 id
    unfold executionEvents at hevents
    rw [hevents]
    split
    · exact le_rfl
    · exact Nat.zero_le 1

/-- An order taken up without a hold and cancelled, and an acceptance that reads it. -/
def acceptanceReadsCancelled : Schedule :=
  .start (Request.marketOrder ⟨"order", idOf '1', "delivery", none⟩).call ::
    acts 0 [.proceed, .drawn (idOf '5'), .proceed, .proceed] ++
  .start (Request.cancel ⟨idOf '5', "changed"⟩).call :: acts 1 [.proceed, .proceed, .proceed] ++
  .start (Request.jobAccepted ⟨idOf '5', "job", 1⟩).call :: acts 2 [.proceed]

/-- A completion report of the job, at the given instant. -/
def executionReported (index : Nat) (executedAt : Int) : Schedule :=
  .start (Request.moveCompletion ⟨idOf '5', "job", .completed, executedAt⟩).call ::
    acts index [.proceed, .proceed]

set_option maxRecDepth 20000 in
theorem run_marker_reported :
    ∃ (middle world : World Db Action Action.Answer Thrown Unit) (row : Fulfillment),
      play core (fun seen action db => MarkerAsRead seen action db)
        (acceptanceReadsCancelled ++ committed 2 ++ executionReported 3 2)
          (World.initial (Db.empty 0)) = some middle ∧
      middle.store.fulfillments.get (idOf '5') = some row ∧
      row.executedAfterCancellationAt.isSome = true ∧
      ∃ row', world.store.fulfillments.get (idOf '5') = some row' ∧
        row'.executedAfterCancellationAt = row.executedAfterCancellationAt ∧
        row'.executedAfterCancellationJobReference =
          row.executedAfterCancellationJobReference := by
  have hplays : (play core (fun seen action db => MarkerAsRead seen action db)
      (acceptanceReadsCancelled ++ committed 2 ++ executionReported 3 2)
        (World.initial (Db.empty 0))).any (fun middle =>
          (middle.store.fulfillments.get (idOf '5')).any
            (fun row => row.executedAfterCancellationAt.isSome) ∧
          (play core (fun seen action db => MarkerAsRead seen action db)
            (Move.start (Request.jobAccepted ⟨idOf '5', "other", 3⟩).call ::
              acts 4 [.proceed, .proceed]) middle).isSome) = true := by
    decide +kernel
  obtain ⟨middle, hmiddle, hboth⟩ := (Option.any_eq_true _ _).mp hplays
  obtain ⟨hany, hlater⟩ := of_decide_eq_true hboth
  obtain ⟨row, hrow, hmarked⟩ := (Option.any_eq_true _ _).mp hany
  obtain ⟨world, hworld⟩ := Option.isSome_iff_exists.mp hlater
  refine ⟨middle, world, row, hmiddle, hrow, hmarked,
    (run_marker (play_run hmiddle ?_ (fun _ _ _ h => of_decide_eq_true h))
      (play_run hworld ?_ (fun _ _ _ h => of_decide_eq_true h))).1 _ row hrow hmarked⟩
  · simp [acceptanceReadsCancelled, executionReported, committed, acts]
  · simp [acts]

/-- The completion is reported between the read of a late acceptance and its
commit, and delivered again afterwards. -/
def markedAndTraced : Schedule :=
  acceptanceReadsCancelled ++ executionReported 3 2 ++ committed 2 ++ executionReported 4 2

set_option maxRecDepth 20000 in
/-- Without the condition a late acceptance clears the marker, and the next report
announces the same execution again. -/
theorem marker_fails : ¬∀ (start : Int) (middle world : World Db Action Action.Answer Thrown Unit),
    Run core requests anything (World.initial (Db.empty start)) middle →
    Run core requests anything middle world →
    (∀ id row, middle.store.fulfillments.get id = some row →
      row.executedAfterCancellationAt.isSome = true →
      ∃ row', world.store.fulfillments.get id = some row' ∧
        row'.executedAfterCancellationAt = row.executedAfterCancellationAt ∧
        row'.executedAfterCancellationJobReference =
          row.executedAfterCancellationJobReference) ∧
    ∀ id, eventsOf "core.fulfillment.executed_after_cancellation" id world.store.outbox ≤ 1 := by
  intro htrue
  have hplays : (play core unrestricted markedAndTraced (World.initial (Db.empty 0))).any
      (fun world => eventsOf "core.fulfillment.executed_after_cancellation" (idOf '5')
        world.store.outbox = 2) = true := by decide +kernel
  obtain ⟨world, hworld, htwice⟩ := (Option.any_eq_true _ _).mp hplays
  have hrun := unrestricted_run hworld (by
    simp [markedAndTraced, acceptanceReadsCancelled, executionReported, committed, acts])
  have honce := (htrue 0 world world hrun .refl).2 (idOf '5')
  rw [of_decide_eq_true htwice] at honce
  omega

end WaslaCore.Fulfillment
