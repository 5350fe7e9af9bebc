import WaslaCore.Completed
import WaslaCore.Fulfillment.Losers
import WaslaCore.Interleaving.Following
import WaslaCore.Laws

/-!
Events handled one after another. A handler that runs with nothing else going on finds the row
as it read it, so its guard cannot be lost; what its success left in the store stays true of the
store from then on, whatever is handled after it.
-/

namespace WaslaCore.Fulfillment

open Data Platform Interleaving

/-! ### Parts that commit nothing -/

/-- Nothing but the audit log has changed. -/
structure Untouched (db db' : Db) : Prop where
  money : db'.money = db.money
  fulfillments : db'.fulfillments = db.fulfillments
  outbox : db'.outbox = db.outbox

theorem Untouched.refl (db : Db) : Untouched db db := ⟨rfl, rfl, rfl⟩

theorem Untouched.trans {first second third : Db} (h : Untouched first second)
    (h' : Untouched second third) : Untouched first third :=
  ⟨h'.money.trans h.money, h'.fulfillments.trans h.fulfillments, h'.outbox.trans h.outbox⟩

section Commitless

variable {β : Type} {db db' : Db}

theorem untouched_perform {action : Action} {choice : Choice} {answer : action.Answer}
    (hcommit : ¬IsCommit action) (h : perform action choice db = some (answer, db')) :
    Untouched db db' := by
  rcases perform_cases h with rfl | ⟨entry, -, rfl⟩ | ⟨uow, rfl, -⟩
  · exact .refl _
  · exact ⟨rfl, rfl, rfl⟩
  · exact absurd ⟨uow, rfl⟩ hcommit

theorem completes_untouched {call : Call β} {result : Except Thrown β} (h : Commitless call)
    (hcompletes : Completes core call db result db') : Untouched db db' :=
  Avoids.completes Untouched.refl Untouched.trans untouched_perform h hcompletes

/-- A transaction that goes through commits what its body staged, on the store the call found. -/
theorem transaction_done {body : Work → Call (Work × β)} {value : β}
    (hbody : Commitless (body UnitOfWork.empty))
    (h : Completes core (withTransaction body) db (.ok value) db') :
    ∃ uow middle, Completes core (body UnitOfWork.empty) db (.ok (uow, value)) middle ∧
      Untouched db middle ∧ middle.commit uow = .ok db' := by
  obtain ⟨uow, middle, hstaged, hcommit⟩ := completes_transaction.mp h
  exact ⟨uow, middle, hstaged, completes_untouched hbody hstaged, hcommit⟩

/-- A transaction that fails leaves what it found: its body failed, the database did, or the
commit was refused. -/
theorem transaction_failed {body : Work → Call (Work × β)} {error : Thrown}
    (hbody : Commitless (body UnitOfWork.empty))
    (h : Completes core (withTransaction body) db (.error error) db') :
    Untouched db db' ∧ (Completes core (body UnitOfWork.empty) db (.error error) db' ∨
      (∃ message, error = .other message) ∨
      ∃ uow value, Completes core (body UnitOfWork.empty) db (.ok (uow, value)) db' ∧
        db'.commit uow = .error error) := by
  unfold withTransaction at h
  rcases completes_bind.mp h with ⟨⟨uow, value⟩, middle, hstaged, hrest⟩ | ⟨raised, hraised, hsame⟩
  · have huntouched := completes_untouched hbody hstaged
    obtain ⟨choice, answer, after, hperform, hlast⟩ := completes_act.mp hrest
    cases answer with
    | ok done =>
        obtain ⟨hok, -⟩ := completes_done.mp hlast
        cases hok
    | error refused =>
        obtain ⟨hsame, rfl⟩ := completes_fail.mp hlast
        obtain rfl := Except.error.inj hsame
        obtain rfl := perform_refused hperform
        refine ⟨huntouched, .inr ?_⟩
        cases choice with
        | proceed =>
            refine .inr ⟨uow, value, hstaged, ?_⟩
            simp only [core, perform] at hperform
            split at hperform
            · cases (Prod.mk.inj (Option.some.inj hperform)).1
            · rename_i refusal hcommit
              rw [hcommit, Except.error.inj (Prod.mk.inj (Option.some.inj hperform)).1]
        | failing message =>
            exact .inl ⟨message,
              (Except.error.inj (Prod.mk.inj (Option.some.inj hperform)).1).symm⟩
        | drawn id => cases hperform
        | elapsed milliseconds => cases hperform
  · obtain rfl := Except.error.inj hsame
    exact ⟨completes_untouched hbody hraised, .inl hraised⟩

end Commitless

/-! ### What the bodies stage -/

/-- Money first, and then this one write of the fulfillment store. -/
def Stages (uow : Work) (write : Write) : Prop :=
  ∃ movements : List Money.Write,
    uow.writes = movements.map WaslaCore.Write.money ++ [.fulfillment write]

/-- Only money so far. -/
def MoneyOnly (uow : Work) : Prop :=
  ∃ movements : List Money.Write, uow.writes = movements.map WaslaCore.Write.money

section Bodies

-- a check is one step, whatever text it compares
attribute [local irreducible] trim

theorem MoneyOnly.empty : MoneyOnly UnitOfWork.empty := ⟨[], rfl⟩

theorem MoneyOnly.stage {uow : Work} (h : MoneyOnly uow) (movements : List Money.Write) :
    MoneyOnly (uow.stage (movements.map WaslaCore.Write.money)) := by
  obtain ⟨before, hbefore⟩ := h
  refine ⟨before ++ movements, ?_⟩
  rw [UnitOfWork.stage_writes, hbefore, List.map_append]

theorem voidWithin_moneyOnly {uow : Work} (h : MoneyOnly uow) (input : Money.VoidInput) :
    Yields (fun staged => MoneyOnly staged.1) (Money.voidWithin uow input) := by
  unfold Money.voidWithin
  refine yields_bind fun _ => yields_bind fun found => ?_
  cases found with
  | none => trivial
  | some authorization =>
      dsimp only
      split
      · exact h
      split
      · trivial
      split
      · trivial
      · refine yields_bind fun voidedAt => yields_bind fun closedAt => ?_
        exact h.stage [_]

theorem applyCaptureWithin_moneyOnly {uow : Work} (h : MoneyOnly uow) (input : Money.CaptureInput) :
    Yields (fun staged => MoneyOnly staged.1) (Money.applyCaptureWithin uow input) := by
  unfold Money.applyCaptureWithin
  refine yields_bind fun _ => yields_bind fun found => ?_
  cases found with
  | none => trivial
  | some authorization =>
      refine yields_bind fun existing => ?_
      cases existing with
      | some existing => exact h
      | none =>
          refine yields_bind fun now => yields_bind fun requested => yields_bind fun wallet => ?_
          refine yields_bind fun moved => yields_bind fun closedAt => ?_
          exact h.stage [_, _]

theorem release_moneyOnly {uow : Work} (h : MoneyOnly uow) (fulfillment : Fulfillment)
    (reason : String) :
    Yields (fun staged => MoneyOnly staged.1) (release uow fulfillment reason) := by
  unfold release
  cases fulfillment.paymentAuthorizationId with
  | none => exact h
  | some hold =>
      refine yields_tryCatch ?_ fun error => yields_bind fun _ => h
      exact (voidWithin_moneyOnly h _).bind fun _ hstaged => hstaged

theorem settle_moneyOnly {uow : Work} (h : MoneyOnly uow) (fulfillment : Fulfillment) :
    Yields (fun staged => MoneyOnly staged.1) (settle uow fulfillment) := by
  unfold settle
  cases fulfillment.paymentAuthorizationId with
  | none => exact h
  | some hold =>
      refine yields_tryCatch ?_ fun error => ?_
      · refine Yields.bind ?_ fun _ hstaged => hstaged
        exact (applyCaptureWithin_moneyOnly h _).bind fun _ hstaged => hstaged
      · exact (release_moneyOnly h fulfillment _).bind fun _ hstaged => hstaged

/-- Only the note of a void that failed can fail a release. -/
theorem release_failed {uow : Work} {fulfillment : Fulfillment} {reason : String} {db db' : Db}
    {error : Thrown} (h : Completes core (release uow fulfillment reason) db (.error error) db') :
    ∃ message, error = .other message := by
  unfold release at h
  split at h
  · cases h
  rcases completes_tryCatch.mp h with ⟨value, -, ⟨⟩⟩ | ⟨raised, middle, -, hhandler⟩
  rcases completes_bind.mp hhandler with ⟨_, _, -, hlast⟩ | ⟨failed, hrecord, hsame⟩
  · cases hlast
  obtain rfl := Except.error.inj hsame
  obtain ⟨choice, answer, after, hperform, hlast⟩ := completes_act.mp hrecord
  cases answer with
  | ok done => cases hlast
  | error refused =>
      obtain ⟨hsame, -⟩ := completes_fail.mp hlast
      obtain rfl := Except.error.inj hsame
      cases choice with
      | proceed => cases (Prod.mk.inj (Option.some.inj hperform)).1
      | failing message =>
          exact ⟨message, (Except.error.inj (Prod.mk.inj (Option.some.inj hperform)).1).symm⟩
      | drawn id => cases hperform
      | elapsed milliseconds => cases hperform

end Bodies

/-! ### Guards that are not lost -/

section Guards

variable {db db' : Db} {uow : Work} {write : Write}

theorem applyAll_staged (db : Db) (movements : List Money.Write) (write : Write) :
    (∃ error message, error = Thrown.other message ∧
      db.applyAll (movements.map WaslaCore.Write.money ++ [.fulfillment write]) = .error error) ∨
      ∃ middle : Db, middle.fulfillments = db.fulfillments ∧
        db.applyAll (movements.map WaslaCore.Write.money ++ [.fulfillment write]) =
          middle.apply (.fulfillment write) := by
  induction movements generalizing db with
  | nil =>
      refine .inr ⟨db, rfl, ?_⟩
      simp only [List.map_nil, List.nil_append, Db.applyAll]
      cases db.apply (.fulfillment write) <;> rfl
  | cons movement rest ih =>
      simp only [List.map_cons, List.cons_append, Db.applyAll]
      cases hmoved : db.apply (.money movement) with
      | error error =>
          simp only [Db.apply] at hmoved
          split at hmoved
          · cases hmoved
          · rename_i message _
            exact .inl ⟨error, message, (Except.error.inj hmoved).symm, rfl⟩
      | ok next =>
          have hrows : next.fulfillments = db.fulfillments := by
            rcases apply_ok hmoved with ⟨money, _, -, -, rfl⟩ | ⟨rows, _, hother, -, -, -⟩
            · rfl
            · cases hother
          rcases ih next with hfailed | ⟨middle, hmiddle, hrest⟩
          · exact .inl hfailed
          · exact .inr ⟨middle, hmiddle.trans hrows, hrest⟩

/-- The write of a commit that goes through finds the rows as they were before it. -/
theorem commit_write (hstages : Stages uow write) (h : db.commit uow = .ok db') :
    write.apply db.fulfillments = .ok db'.fulfillments := by
  obtain ⟨movements, hwrites⟩ := hstages
  obtain ⟨written, hwritten, -, rfl⟩ := commit_ok h
  rw [hwrites] at hwritten
  rcases applyAll_staged db movements write with ⟨error, message, -, hfailed⟩ | ⟨middle, hrows, happly⟩
  · rw [hfailed] at hwritten
    cases hwritten
  · rw [happly] at hwritten
    rcases apply_ok hwritten with ⟨_, _, hother, -, -⟩ | ⟨rows, write', hsame, -, happlied, rfl⟩
    · cases hother
    · rw [← WaslaCore.Write.fulfillment.inj hsame, hrows] at happlied
      exact happlied

/-- A transition is lost by the write that guards it. -/
theorem commit_transitionLost {fulfillmentId : String} (hstages : Stages uow write)
    (h : db.commit uow = .error (.transitionLost fulfillmentId)) :
    write.apply db.fulfillments = .error (.transitionLost fulfillmentId) := by
  obtain ⟨movements, hwrites⟩ := hstages
  have happlied : db.applyAll uow.writes = .error (.transitionLost fulfillmentId) := by
    unfold Db.commit at h
    split at h
    · rename_i error happly
      rw [happly, Except.error.inj h]
    · split at h
      · cases h
      · cases h
  rw [hwrites] at happlied
  rcases applyAll_staged db movements write with ⟨error, message, hsaid, hfailed⟩ | ⟨middle, hrows, happly⟩
  · rw [hfailed, hsaid] at happlied
    cases happlied
  · rw [happly] at happlied
    simp only [Db.apply] at happlied
    split at happlied
    · cases happlied
    split at happlied
    · cases happlied
    · rename_i error hwrite
      rw [hrows] at hwrite
      rw [hwrite, Except.error.inj happlied]

end Guards

theorem transition_kept {store : Store} {next stored : Fulfillment}
    {expected : List FulfillmentStatus} {fulfillmentId : String}
    (hstored : store.get next.fulfillmentId = some stored) (hexpected : stored.status ∈ expected) :
    (Write.transition next expected).apply store ≠ .error (.transitionLost fulfillmentId) := by
  simp only [Write.apply, Store.updateIfStatusIn, hstored, if_pos hexpected]
  cases store.putRow next.fulfillmentId (reviseRow stored next) with
  | ok placed => rintro ⟨⟩
  | error message => rintro ⟨⟩

theorem mark_kept {store : Store} {stored : Fulfillment} {fulfillmentId jobReference lost : String}
    {executedAt : Int} (hstored : store.get fulfillmentId = some stored)
    (hcancelled : stored.status = .cancelled)
    (hunmarked : stored.executedAfterCancellationAt = none) :
    (Write.mark fulfillmentId executedAt jobReference).apply store ≠ .error (.transitionLost lost) := by
  simp only [Write.apply, Store.markExecutedAfterCancellation, hstored,
    if_pos (And.intro hcancelled hunmarked)]
  cases store.putRow fulfillmentId (markRow stored executedAt jobReference) with
  | ok placed => rintro ⟨⟩
  | error message => rintro ⟨⟩

/-! ### What a row stays -/

/-- How a row may be rewritten: it never starts over, a dispatched row keeps its job, and a
closed row keeps its status. -/
structure Onward (row row' : Fulfillment) : Prop where
  order : row'.marketOrderReference = row.marketOrderReference
  started : row.status ≠ .coordinating → row'.status ≠ .coordinating
  assigned : row.status = .dispatched → row'.status = .dispatched →
    row'.moveJobReference = row.moveJobReference
  closed : isClosed row.status = true → row'.status = row.status
  settled : isClosed row.status = true → row.status ≠ .cancelled → row' = row
  marked : row.executedAfterCancellationAt.isSome → isClosed row.status = true →
    row'.executedAfterCancellationAt.isSome

theorem Onward.refl (row : Fulfillment) : Onward row row :=
  ⟨rfl, id, fun _ _ => rfl, fun _ => rfl, fun _ _ => rfl, fun hmarked _ => hmarked⟩

/-- A row that is dispatched now and had started was dispatched already. -/
theorem Onward.dispatched {row row' : Fulfillment} (h : Onward row row')
    (hstarted : row.status ≠ .coordinating) (hdispatched : row'.status = .dispatched) :
    row.status = .dispatched := by
  cases hstatus : row.status with
  | dispatched => rfl
  | coordinating => exact absurd hstatus hstarted
  | completed | failed | cancelled =>
      have hkept := h.closed (by rw [hstatus]; rfl)
      rw [hdispatched, hstatus] at hkept
      cases hkept

theorem Onward.trans {first second third : Fulfillment} (h : Onward first second)
    (h' : Onward second third) : Onward first third where
  order := h'.order.trans h.order
  started := fun hstarted => h'.started (h.started hstarted)
  assigned := by
    intro hfirst hthird
    have hsecond := h'.dispatched (h.started (by rw [hfirst]; rintro ⟨⟩)) hthird
    exact (h'.assigned hsecond hthird).trans (h.assigned hfirst hsecond)
  closed := by
    intro hclosed
    have hsecond := h.closed hclosed
    exact (h'.closed (by rwa [hsecond])).trans hsecond
  settled := by
    intro hclosed hother
    obtain rfl := h.settled hclosed hother
    exact h'.settled hclosed hother
  marked := by
    intro hmarked hclosed
    exact h'.marked (h.marked hmarked hclosed) (by rwa [h.closed hclosed])

/-- An open row may be closed or dispatched. -/
theorem Onward.ofOpen {row row' : Fulfillment} (hopen : isClosed row.status = false)
    (horder : row'.marketOrderReference = row.marketOrderReference)
    (hstarted : row'.status ≠ .coordinating)
    (hassigned : row.status = .dispatched → row'.status ≠ .dispatched) : Onward row row' where
  order := horder
  started := fun _ => hstarted
  assigned := fun hrow hrow' => absurd hrow' (hassigned hrow)
  closed := fun hclosed => by
    rw [hopen] at hclosed
    cases hclosed
  settled := fun hclosed => by
    rw [hopen] at hclosed
    cases hclosed
  marked := fun _ hclosed => by
    rw [hopen] at hclosed
    cases hclosed

/-- A cancelled row may only be annotated. -/
theorem Onward.ofCancelled {row row' : Fulfillment} (hcancelled : row.status = .cancelled)
    (horder : row'.marketOrderReference = row.marketOrderReference)
    (hstatus : row'.status = row.status)
    (hmarked : row.executedAfterCancellationAt.isSome →
      row'.executedAfterCancellationAt.isSome) : Onward row row' where
  order := horder
  started := fun hrow => by rwa [hstatus]
  assigned := fun hrow => by
    rw [hcancelled] at hrow
    cases hrow
  closed := fun _ => hstatus
  settled := fun _ hother => absurd hcancelled hother
  marked := fun hrow _ => hmarked hrow

/-- Every stored row is still stored, further on. -/
def Later (store store' : Store) : Prop :=
  ∀ id row, store.get id = some row → ∃ row', store'.get id = some row' ∧ Onward row row'

theorem Later.refl (store : Store) : Later store store := fun _ row hrow => ⟨row, hrow, .refl row⟩

section Later

variable {store store' : Store} {key : String} {row row' : Fulfillment}

theorem Placed.later (h : Placed store store' key row') (hstored : store.get key = some row)
    (honward : Onward row row') : Later store store' := by
  intro id found hfound
  by_cases hid : key = id
  · subst hid
    rw [hstored] at hfound
    obtain rfl := Option.some.inj hfound
    exact ⟨row', h.get_self, honward⟩
  · exact ⟨found, by rw [h.get_ne hid, hfound], .refl found⟩

theorem Placed.later_fresh (h : Placed store store' key row') (hfree : store.get key = none) :
    Later store store' := by
  intro id found hfound
  have hid : key ≠ id := by
    rintro rfl
    rw [hfree] at hfound
    cases hfound
  exact ⟨found, by rw [h.get_ne hid, hfound], .refl found⟩

theorem findByOrderReference_isSome {orderReference : String} :
    (store.findByOrderReference orderReference).isSome ↔
      ∃ id row, store.get id = some row ∧ row.marketOrderReference = orderReference := by
  simp only [Store.findByOrderReference, List.find?_isSome, decide_eq_true_eq]
  constructor
  · rintro ⟨row, hrow, horder⟩
    obtain ⟨id, hid⟩ := Table.mem_values.mp hrow
    exact ⟨id, row, hid, horder⟩
  · rintro ⟨id, row, hid, horder⟩
    exact ⟨row, Table.mem_values.mpr ⟨id, hid⟩, horder⟩

end Later

/-- What a request that was answered left true of the store. -/
def Stands (store : Store) : Request → Prop
  | .marketOrder payload => (store.findByOrderReference payload.orderId).isSome
  | .jobAccepted payload =>
      ∃ row, store.get payload.fulfillmentId = some row ∧ row.status ≠ .coordinating ∧
        (row.status = .dispatched → row.moveJobReference = some payload.jobId)
  | .jobRejected payload =>
      ∃ row, store.get payload.fulfillmentId = some row ∧ row.status = .failed
  | .moveCompletion payload =>
      ∃ row, store.get payload.fulfillmentId = some row ∧ isClosed row.status = true ∧
        (row.status ≠ .cancelled → row.moveJobReference = some payload.jobId) ∧
        (row.status = .cancelled → payload.outcome = .completed →
          row.executedAfterCancellationAt.isSome)
  | .cancel input =>
      isBlank input.reason = false ∧
        ∃ row, store.get input.fulfillmentId = some row ∧ row.status = .cancelled

/-- It stays true whatever is done afterwards. -/
theorem Stands.later {store store' : Store} {request : Request} (h : Stands store request)
    (hlater : Later store store') : Stands store' request := by
  cases request with
  | marketOrder payload =>
      obtain ⟨id, row, hrow, horder⟩ := findByOrderReference_isSome.mp h
      obtain ⟨row', hrow', honward⟩ := hlater id row hrow
      exact findByOrderReference_isSome.mpr ⟨id, row', hrow', honward.order.trans horder⟩
  | jobAccepted payload =>
      obtain ⟨row, hrow, hstarted, hjob⟩ := h
      obtain ⟨row', hrow', honward⟩ := hlater _ row hrow
      refine ⟨row', hrow', honward.started hstarted, fun hdispatched => ?_⟩
      have hbefore := honward.dispatched hstarted hdispatched
      exact (honward.assigned hbefore hdispatched).trans (hjob hbefore)
  | jobRejected payload =>
      obtain ⟨row, hrow, hfailed⟩ := h
      obtain ⟨row', hrow', honward⟩ := hlater _ row hrow
      exact ⟨row', hrow', (honward.closed (by rw [hfailed]; rfl)).trans hfailed⟩
  | moveCompletion payload =>
      obtain ⟨row, hrow, hclosed, hjob, hmarked⟩ := h
      obtain ⟨row', hrow', honward⟩ := hlater _ row hrow
      have hstatus := honward.closed hclosed
      refine ⟨row', hrow', by rwa [hstatus], fun hother => ?_, fun hcancelled hdone => ?_⟩
      · rw [hstatus] at hother
        rw [honward.settled hclosed hother]
        exact hjob hother
      · rw [hstatus] at hcancelled
        exact honward.marked (hmarked hcancelled hdone) hclosed
  | cancel input =>
      obtain ⟨hreason, row, hrow, hcancelled⟩ := h
      obtain ⟨row', hrow', honward⟩ := hlater _ row hrow
      exact ⟨hreason, row', hrow', (honward.closed (by rw [hcancelled]; rfl)).trans hcancelled⟩

/-! ### Calls that were answered -/

section Answered

variable {db db' : Db}

/-- `require` goes on with the stored row. -/
theorem completes_require {β : Type} {fulfillmentId : String} {next : Fulfillment → Call β}
    {value : β} :
    Completes core (require fulfillmentId >>= next) db (.ok value) db' ↔
      ∃ row, db.fulfillments.get fulfillmentId = some row ∧
        Completes core (next row) db (.ok value) db' := by
  have hcall : ∀ (row : Fulfillment) (last : Db),
      Completes core (require fulfillmentId) db (.ok row) last ↔
        db.fulfillments.get fulfillmentId = some row ∧ last = db := by
    intro row last
    unfold require get
    apply completes_read.trans
    dsimp only [Query.eval]
    cases db.fulfillments.get fulfillmentId with
    | none =>
        constructor
        · intro h
          cases h
        · rintro ⟨⟨⟩, -⟩
    | some found => simp only [completes_pure, Option.some.injEq]
  rw [completes_then]
  constructor
  · rintro ⟨row, middle, hrow, hnext⟩
    obtain ⟨hstored, rfl⟩ := (hcall _ _).mp hrow
    exact ⟨row, hstored, hnext⟩
  · rintro ⟨row, hstored, hnext⟩
    exact ⟨row, db, (hcall _ _).mpr ⟨hstored, rfl⟩, hnext⟩

/-- A transition from the row as it is stored cannot lose, so it wrote what it staged. -/
theorem transition_done {body : Work → Call (Work × Fulfillment)}
    {whenLost : Fulfillment → Call Fulfillment} {current value : Fulfillment}
    {expected : List FulfillmentStatus} {P : Fulfillment → Prop}
    (hstored : db.fulfillments.get current.fulfillmentId = some current)
    (hexpected : current.status ∈ expected) (hbody : Commitless (body UnitOfWork.empty))
    (hstages : Yields (fun staged => Stages staged.1 (.transition staged.2 expected) ∧
      staged.2.fulfillmentId = current.fulfillmentId ∧ P staged.2) (body UnitOfWork.empty))
    (hfails : ∀ {error middle}, Completes core (body UnitOfWork.empty) db (.error error) middle →
      ∃ message, error = .other message)
    (h : Completes core (transition body whenLost) db (.ok value) db') :
    ∃ next, P next ∧ Placed db.fulfillments db'.fulfillments current.fulfillmentId
      (reviseRow current next) := by
  rcases completes_tryCatch.mp h with ⟨_, hdone, -⟩ | ⟨error, middle, hfailed, hhandler⟩
  · obtain ⟨uow, middle, hstaged, huntouched, hcommit⟩ := transaction_done hbody hdone
    obtain ⟨hwrite, hid, hnext⟩ := hstages.completes hstaged
    have happlied := commit_write hwrite hcommit
    rw [huntouched.fulfillments] at happlied
    obtain ⟨stored, hfound, -, hplaced⟩ := transition_ok happlied
    dsimp only at hid hfound hplaced
    rw [hid] at hfound hplaced
    rw [hstored] at hfound
    obtain rfl := Option.some.inj hfound
    exact ⟨_, hnext, hplaced⟩
  · obtain ⟨huntouched, hraised | ⟨message, rfl⟩ | ⟨uow, next, hstaged, hcommit⟩⟩ :=
      transaction_failed hbody hfailed
    · obtain ⟨message, rfl⟩ := hfails hraised
      cases hhandler
    · cases hhandler
    · cases error with
      | transitionLost fulfillmentId =>
          obtain ⟨hwrite, hid, -⟩ := hstages.completes hstaged
          have hlost := commit_transitionLost hwrite hcommit
          rw [huntouched.fulfillments] at hlost
          rw [← hid] at hstored
          exact absurd hlost (transition_kept hstored hexpected)
      | core | other | intakeLost => cases hhandler

theorem MoneyOnly.stages {uow : Work} (h : MoneyOnly uow) (write : Write) (event : Event)
    (entry : AuditEntry) :
    Stages (((uow.stage [.fulfillment write]).emit event).audit entry) write := by
  obtain ⟨movements, hwrites⟩ := h
  refine ⟨movements, ?_⟩
  rw [UnitOfWork.audit_writes, UnitOfWork.emit_writes, UnitOfWork.stage_writes, hwrites]

/-- A row that a rejection or a cancellation closes. -/
theorem closing_done {current value : Fulfillment} {status : FulfillmentStatus}
    {reason : Option String} {why : String} {whenLost : Fulfillment → Call Fulfillment}
    (hstored : db.fulfillments.get current.fulfillmentId = some current)
    (hopen : isClosed current.status = false) (hclosed : isClosed status = true)
    (h : Completes core
      (transition (fun uow => release uow current why >>= fun (uow, outcome) =>
        closeWithin uow current status reason outcome) whenLost) db (.ok value) db') :
    Later db.fulfillments db'.fulfillments ∧ ∃ row,
      db'.fulfillments.get current.fulfillmentId = some row ∧ row.status = status := by
  have hstages : Yields (fun staged => Stages staged.1 (.transition staged.2 openStatuses) ∧
      staged.2.fulfillmentId = current.fulfillmentId ∧ staged.2.status = status)
      (release UnitOfWork.empty current why >>= fun (uow, outcome) =>
        closeWithin uow current status reason outcome) := by
    refine (release_moneyOnly .empty current why).bind fun staged hmoney => ?_
    exact fun completedAt => ⟨hmoney.stages _ _ _, rfl, rfl⟩
  have hfails : ∀ {error middle}, Completes core (release UnitOfWork.empty current why >>=
      fun (uow, outcome) => closeWithin uow current status reason outcome) db (.error error) middle →
      ∃ message, error = .other message := by
    intro error middle hfailed
    rcases completes_bind.mp hfailed with ⟨staged, between, -, hclose⟩ | ⟨raised, hraised, hsame⟩
    · obtain ⟨_, _, _, -, hlast⟩ := completes_act.mp hclose
      cases hlast
    · obtain rfl := Except.error.inj hsame
      exact release_failed hraised
  obtain ⟨next, hstatus, hplaced⟩ := transition_done (P := fun next => next.status = status)
    hstored (mem_openStatuses.mpr hopen)
    (avoids_bind (commitless_release _ current why) fun _ => commitless_closeWithin _ _ _ _ _)
    hstages hfails h
  have hnew : isClosed (reviseRow current next).status = true := by rwa [← hstatus] at hclosed
  refine ⟨hplaced.later hstored (.ofOpen hopen rfl ?_ ?_), _, hplaced.get_self, hstatus⟩
  · intro hcoordinating
    rw [hcoordinating] at hnew
    cases hnew
  · intro _ hdispatched
    rw [hdispatched] at hnew
    cases hnew

theorem settleReport_moneyOnly {uow : Work} (h : MoneyOnly uow) (current : Fulfillment)
    (payload : MoveJobCompletedPayload) :
    Yields (fun staged => MoneyOnly staged.1) (settleReport uow current payload) := by
  unfold settleReport
  split
  · exact settle_moneyOnly h current
  · exact (release_moneyOnly h current _).bind fun _ hstaged => hstaged

theorem settleReport_failed {uow : Work} {current : Fulfillment}
    {payload : MoveJobCompletedPayload} {error : Thrown}
    (h : Completes core (settleReport uow current payload) db (.error error) db') :
    ∃ message, error = .other message := by
  unfold settleReport settle at h
  split at h
  · split at h
    · cases h
    rcases completes_tryCatch.mp h with ⟨value, -, ⟨⟩⟩ | ⟨refused, middle, -, hhandler⟩
    rcases completes_bind.mp hhandler with ⟨_, _, -, hlast⟩ | ⟨raised, hraised, hsame⟩
    · cases hlast
    · obtain rfl := Except.error.inj hsame
      exact release_failed hraised
  · rcases completes_bind.mp h with ⟨_, _, -, hlast⟩ | ⟨raised, hraised, hsame⟩
    · cases hlast
    · obtain rfl := Except.error.inj hsame
      exact release_failed hraised

/-- What an answered request did to the rows. -/
structure Marks (request : Request) (store store' : Store) : Prop where
  later : Later store store'
  stands : Stands store' request

theorem consumeJobRejected_marks {payload : MoveJobRejectedPayload} {value : Fulfillment}
    (hruled : Ruled db.fulfillments)
    (h : Completes core (consumeJobRejected payload) db (.ok value) db') :
    Marks (.jobRejected payload) db.fulfillments db'.fulfillments := by
  obtain ⟨current, hstored, hrest⟩ := completes_require.mp h
  have hkey := hruled.keyed _ _ hstored
  split at hrest
  · unfold rejectionOn at hrest
    split at hrest
    · rename_i hfailed
      obtain ⟨-, rfl⟩ := completes_pure.mp hrest
      exact ⟨.refl _, current, hstored, hfailed⟩
    · cases hrest
  · rename_i hopen
    rw [← hkey] at hstored
    obtain ⟨hlater, row, hrow, hstatus⟩ :=
      closing_done hstored (Bool.eq_false_iff.mpr hopen) rfl hrest
    exact ⟨hlater, row, hkey ▸ hrow, hstatus⟩

theorem cancel_marks {input : CancelInput} {value : Fulfillment} (hruled : Ruled db.fulfillments)
    (h : Completes core (cancel input) db (.ok value) db') :
    Marks (.cancel input) db.fulfillments db'.fulfillments := by
  obtain ⟨current, hstored, hrest⟩ := completes_require.mp h
  have hkey := hruled.keyed _ _ hstored
  split at hrest
  · cases hrest
  rename_i hreason
  have hreason := Bool.eq_false_iff.mpr hreason
  split at hrest
  · unfold cancellationOn at hrest
    split at hrest
    · rename_i hcancelled
      obtain ⟨-, rfl⟩ := completes_pure.mp hrest
      exact ⟨.refl _, hreason, current, hstored, hcancelled⟩
    · cases hrest
  · rename_i hopen
    rw [← hkey] at hstored
    obtain ⟨hlater, row, hrow, hstatus⟩ :=
      closing_done hstored (Bool.eq_false_iff.mpr hopen) rfl hrest
    exact ⟨hlater, hreason, row, hkey ▸ hrow, hstatus⟩

/-- A cancelled row that records another job of its own accord. -/
theorem traced_done {current : Fulfillment} {jobId : String}
    (hstored : db.fulfillments.get current.fulfillmentId = some current)
    (h : Completes core (withTransaction fun uow => pure
      (stageTraced uow { current with moveJobReference := some jobId }, ())) db (.ok ()) db') :
    Placed db.fulfillments db'.fulfillments current.fulfillmentId
      { current with moveJobReference := some jobId } := by
  obtain ⟨uow, middle, hstaged, hcommit⟩ := completes_transaction.mp h
  obtain ⟨hsame, hmiddle⟩ := completes_pure.mp hstaged
  obtain rfl := (Prod.mk.inj hsame).1
  rw [hmiddle] at hcommit
  have hwrite := commit_write ⟨[], rfl⟩ hcommit
  rcases update_ok hwrite with ⟨hnone, -⟩ | ⟨stored, hfound, hplaced⟩
  · rw [show db.fulfillments.get current.fulfillmentId = none from hnone] at hstored
    cases hstored
  · rw [show db.fulfillments.get current.fulfillmentId = some stored from hfound] at hstored
    obtain rfl := Option.some.inj hstored
    exact hplaced

theorem consumeJobAccepted_marks {payload : MoveJobAcceptedPayload} {value : Fulfillment}
    (hruled : Ruled db.fulfillments)
    (h : Completes core (consumeJobAccepted payload) db (.ok value) db') :
    Marks (.jobAccepted payload) db.fulfillments db'.fulfillments := by
  obtain ⟨current, hstored, hrest⟩ := completes_require.mp h
  have hkey := hruled.keyed _ _ hstored
  split at hrest
  · unfold acceptanceOn at hrest
    split at hrest
    · rename_i hdispatched
      split at hrest
      · cases hrest
      rename_i hjob
      obtain ⟨-, rfl⟩ := completes_pure.mp hrest
      refine ⟨.refl _, current, hstored, ?_, fun _ => not_not.mp hjob⟩
      rw [hdispatched]
      rintro ⟨⟩
    split at hrest
    · cases hrest
    rename_i hcancelled
    have hcancelled := not_not.mp hcancelled
    split at hrest
    · obtain ⟨-, rfl⟩ := completes_pure.mp hrest
      refine ⟨.refl _, current, hstored, ?_, ?_⟩ <;> rw [hcancelled] <;> rintro ⟨⟩
    · rw [← hkey] at hstored
      obtain ⟨_, middle, htraced, hlast⟩ := completes_then.mp hrest
      obtain ⟨-, rfl⟩ := completes_pure.mp hlast
      have hplaced := traced_done hstored htraced
      refine ⟨hplaced.later hstored (.ofCancelled hcancelled rfl rfl id), _,
        hkey ▸ hplaced.get_self, ?_, ?_⟩ <;> dsimp only <;> rw [hcancelled] <;> rintro ⟨⟩
  · rename_i hopen
    simp only [Bool.or_eq_true, decide_eq_true_eq, not_or, Bool.not_eq_true] at hopen
    obtain ⟨hopen, hundispatched⟩ := hopen
    have hcoordinating : current.status = .coordinating := by
      cases hstatus : current.status with
      | coordinating => rfl
      | dispatched => exact absurd hstatus hundispatched
      | completed | failed | cancelled =>
          rw [hstatus] at hopen
          cases hopen
    rw [← hkey] at hstored
    obtain ⟨next, ⟨hjob, hstatus⟩, hplaced⟩ := transition_done
      (P := fun next => next.moveJobReference = some payload.jobId ∧ next.status = .dispatched)
      hstored (by rw [hcoordinating]; exact List.mem_singleton.mpr rfl) (by exact trivial)
      (by exact ⟨MoneyOnly.empty.stages _ _ _, rfl, rfl, rfl⟩) (by rintro error middle ⟨⟩) hrest
    refine ⟨hplaced.later hstored (.ofOpen hopen rfl ?_ ?_), reviseRow current next,
      hkey ▸ hplaced.get_self, ?_, fun _ => hjob⟩
    · change next.status ≠ .coordinating
      rw [hstatus]
      rintro ⟨⟩
    · intro hdispatched
      rw [hcoordinating] at hdispatched
      cases hdispatched
    · change next.status ≠ .coordinating
      rw [hstatus]
      rintro ⟨⟩

/-- A completion that reports work on a cancelled row marks the row, once. -/
theorem marked_done {cancelled value : Fulfillment} {payload : MoveJobCompletedPayload}
    (hstored : db.fulfillments.get cancelled.fulfillmentId = some cancelled)
    (hcancelled : cancelled.status = .cancelled)
    (h : Completes core (recordExecutionAfterCancellation cancelled payload) db (.ok value) db') :
    Later db.fulfillments db'.fulfillments ∧ ∃ row,
      db'.fulfillments.get cancelled.fulfillmentId = some row ∧ row.status = .cancelled ∧
        (payload.outcome = .completed → row.executedAfterCancellationAt.isSome) := by
  unfold recordExecutionAfterCancellation at h
  split at h
  · rename_i hother
    obtain ⟨-, rfl⟩ := completes_pure.mp h
    exact ⟨.refl _, cancelled, hstored, hcancelled, fun hdone => absurd hdone hother⟩
  split at h
  · rename_i hmarked
    obtain ⟨-, rfl⟩ := completes_pure.mp h
    exact ⟨.refl _, cancelled, hstored, hcancelled, fun _ => hmarked⟩
  rename_i hunmarked
  have hnone : cancelled.executedAfterCancellationAt = none := by simpa using hunmarked
  rcases completes_tryCatch.mp h with ⟨_, hdone, -⟩ | ⟨error, middle, hfailed, hhandler⟩
  · obtain ⟨uow, middle, hstaged, hcommit⟩ := completes_transaction.mp hdone
    obtain ⟨hsame, hmiddle⟩ := completes_pure.mp hstaged
    obtain rfl := (Prod.mk.inj hsame).1
    rw [hmiddle] at hcommit
    obtain ⟨stored, hfound, -, -, hplaced⟩ := mark_ok (commit_write ⟨[], rfl⟩ hcommit)
    rw [hstored] at hfound
    obtain rfl := Option.some.inj hfound
    exact ⟨hplaced.later hstored (.ofCancelled hcancelled rfl rfl fun _ => rfl), _,
      hplaced.get_self, hcancelled, fun _ => rfl⟩
  · obtain ⟨huntouched, hraised | ⟨message, rfl⟩ | ⟨uow, next, hstaged, hcommit⟩⟩ :=
      transaction_failed (by exact trivial) hfailed
    · cases hraised
    · cases hhandler
    · obtain ⟨hsame, hmiddle⟩ := completes_done.mp hstaged
      obtain rfl := (Prod.mk.inj (Except.ok.inj hsame)).1
      cases error with
      | transitionLost fulfillmentId =>
          have hlost := commit_transitionLost ⟨[], rfl⟩ hcommit
          rw [huntouched.fulfillments] at hlost
          exact absurd hlost (mark_kept hstored hcancelled hnone)
      | core | other | intakeLost => cases hhandler

theorem consumeMoveCompletion_marks {payload : MoveJobCompletedPayload} {value : Fulfillment}
    (hruled : Ruled db.fulfillments)
    (h : Completes core (consumeMoveCompletion payload) db (.ok value) db') :
    Marks (.moveCompletion payload) db.fulfillments db'.fulfillments := by
  obtain ⟨current, hstored, hrest⟩ := completes_require.mp h
  have hkey := hruled.keyed _ _ hstored
  split at hrest
  · rename_i hclosed
    unfold completionOn at hrest
    split at hrest
    · rename_i hcancelled
      rw [← hkey] at hstored
      obtain ⟨hlater, row, hrow, hstatus, hmarked⟩ := marked_done hstored hcancelled hrest
      refine ⟨hlater, row, hkey ▸ hrow, by rw [hstatus]; rfl, ?_, fun _ => hmarked⟩
      exact fun hother => absurd hstatus hother
    split at hrest
    · cases hrest
    · rename_i hother hjob
      obtain ⟨-, rfl⟩ := completes_pure.mp hrest
      exact ⟨.refl _, current, hstored, hclosed, fun _ => not_not.mp hjob,
        fun hcancelled => absurd hcancelled hother⟩
  · rename_i hopen
    have hopen := Bool.eq_false_iff.mpr hopen
    rw [← hkey] at hstored
    have hstages : Yields (fun staged => Stages staged.1 (.transition staged.2 openStatuses) ∧
        staged.2.fulfillmentId = current.fulfillmentId ∧
        staged.2.moveJobReference = some payload.jobId ∧
        (staged.2.status = .completed ∨ staged.2.status = .failed))
        (completeWithin UnitOfWork.empty current payload) := by
      refine (settleReport_moneyOnly .empty current payload).bind fun staged hmoney => ?_
      refine ⟨hmoney.stages _ _ _, rfl, rfl, ?_⟩
      dsimp only
      split
      · exact .inl rfl
      · exact .inr rfl
    obtain ⟨next, ⟨hjob, hstatus⟩, hplaced⟩ := transition_done
      (P := fun next => next.moveJobReference = some payload.jobId ∧
        (next.status = .completed ∨ next.status = .failed))
      hstored (mem_openStatuses.mpr hopen) (commitless_completeWithin _ current payload) hstages
      (fun hfailed => by
        rcases completes_bind.mp hfailed with ⟨_, _, -, hlast⟩ | ⟨raised, hraised, hsame⟩
        · cases hlast
        · obtain rfl := Except.error.inj hsame
          exact settleReport_failed hraised) hrest
    have hclosed : isClosed next.status = true ∧ next.status ≠ .cancelled ∧
        next.status ≠ .coordinating ∧ next.status ≠ .dispatched := by
      rcases hstatus with hstatus | hstatus <;> rw [hstatus] <;> decide
    refine ⟨hplaced.later hstored (.ofOpen hopen rfl hclosed.2.2.1 fun _ => hclosed.2.2.2),
      reviseRow current next, hkey ▸ hplaced.get_self, hclosed.1, fun _ => hjob, ?_⟩
    exact fun hcancelled => absurd hcancelled hclosed.2.1

/-- What an intake stages, for the order it takes up. -/
def StagesOrder (orderReference : String) (staged : Work × Fulfillment) : Prop :=
  ∃ row, Stages staged.1 (.intake row) ∧ row.marketOrderReference = orderReference

theorem refuseWithin_stages {fulfillment : Fulfillment} {hold : HoldInspection}
    {declared : Option String} :
    Yields (StagesOrder fulfillment.marketOrderReference)
      (refuseWithin UnitOfWork.empty fulfillment hold declared) := by
  have hreleased : Yields (fun staged => MoneyOnly staged.1)
      (releaseRefused UnitOfWork.empty fulfillment hold) := by
    unfold releaseRefused
    split
    · exact release_moneyOnly .empty fulfillment _
    · exact MoneyOnly.empty
  refine hreleased.bind fun staged hmoney => ?_
  exact fun completedAt => ⟨_, hmoney.stages _ _ _, rfl⟩

theorem Stages.intake {uow : Work} {row row' : Fulfillment} (h : Stages uow (.intake row))
    (hwrite : .fulfillment (.intake row') ∈ uow.writes) : row' = row := by
  obtain ⟨movements, hwrites⟩ := h
  rw [hwrites] at hwrite
  rcases List.mem_append.mp hwrite with hmoney | hlast
  · obtain ⟨movement, -, hsame⟩ := List.mem_map.mp hmoney
    cases hsame
  · cases List.mem_singleton.mp hlast
    rfl

theorem refuseWithin_quiet {fulfillment : Fulfillment} {hold : HoldInspection}
    {declared : Option String} {lost : String} {middle : Db} :
    ¬Completes core (refuseWithin UnitOfWork.empty fulfillment hold declared) db
      (.error (.intakeLost lost)) middle := by
  intro h
  rcases completes_bind.mp h with ⟨staged, between, -, hclose⟩ | ⟨raised, hraised, hsame⟩
  · obtain ⟨_, _, _, -, hlast⟩ := completes_act.mp hclose
    cases hlast
  · obtain rfl := Except.error.inj hsame
    unfold releaseRefused at hraised
    split at hraised
    · obtain ⟨message, ⟨⟩⟩ := release_failed hraised
    · cases hraised

/-- An intake that answered has the order on a row, its own or the one that won. -/
theorem intake_done {body : Work → Call (Work × Fulfillment)} {orderReference : String}
    {value : Fulfillment} (hbody : Commitless (body UnitOfWork.empty))
    (hstages : Yields (StagesOrder orderReference) (body UnitOfWork.empty))
    (hquiet : ∀ {lost middle}, ¬Completes core (body UnitOfWork.empty) db
      (.error (.intakeLost lost)) middle)
    (h : Completes core (intake body) db (.ok value) db') :
    Later db.fulfillments db'.fulfillments ∧
      (db'.fulfillments.findByOrderReference orderReference).isSome := by
  rcases completes_tryCatch.mp h with ⟨_, hdone, -⟩ | ⟨error, middle, hfailed, hhandler⟩
  · obtain ⟨uow, middle, hstaged, huntouched, hcommit⟩ := transaction_done hbody hdone
    obtain ⟨row, hwrite, horder⟩ := hstages.completes hstaged
    have happlied := commit_write hwrite hcommit
    rw [huntouched.fulfillments] at happlied
    obtain ⟨hfree, -, hplaced⟩ := intake_ok happlied
    exact ⟨hplaced.later_fresh hfree,
      findByOrderReference_isSome.mpr ⟨_, row, hplaced.get_self, horder⟩⟩
  · obtain ⟨huntouched, hraised | ⟨message, rfl⟩ | ⟨uow, next, hstaged, hcommit⟩⟩ :=
      transaction_failed hbody hfailed
    · cases error with
      | intakeLost lost => exact absurd hraised hquiet
      | core | other | transitionLost => cases hhandler
    · cases hhandler
    · cases error with
      | intakeLost lost =>
          obtain ⟨row, hwrite, horder⟩ := hstages.completes hstaged
          obtain ⟨winner, hwinner, hlost⟩ := applyAll_intakeLost (commit_lost hcommit)
          obtain rfl := hwrite.intake hwinner
          have hread := completes_read.mp hhandler
          dsimp only [Query.eval] at hread
          cases hfound : middle.fulfillments.findByOrderReference lost with
          | none =>
              rw [hfound] at hread
              cases hread
          | some found =>
              rw [hfound] at hread
              obtain ⟨-, rfl⟩ := completes_pure.mp hread
              refine ⟨by rw [huntouched.fulfillments]; exact .refl _, ?_⟩
              rw [← horder, hlost, hfound]
              rfl
      | core | other | transitionLost => cases hhandler

theorem consumeMarketOrder_marks {payload : MarketOrderCreatedPayload} {value : Fulfillment}
    (h : Completes core (consumeMarketOrder payload) db (.ok value) db') :
    Marks (.marketOrder payload) db.fulfillments db'.fulfillments := by
  have hread := completes_read.mp h
  dsimp only [Query.eval] at hread
  cases hfound : db.fulfillments.findByOrderReference payload.orderId with
  | some existing =>
      rw [hfound] at hread
      obtain ⟨-, rfl⟩ := completes_pure.mp hread
      exact ⟨.refl _, by rw [Stands, hfound]; rfl⟩
  | none =>
      rw [hfound] at hread
      obtain ⟨hold, middle, hinspected, hrest⟩ := completes_then.mp hread
      have huntouched := completes_untouched (commitless_inspectHold _) hinspected
      obtain ⟨fulfillmentId, -, hrest⟩ := completes_newId.mp hrest
      have hrest := completes_clock.mp hrest
      rw [← huntouched.fulfillments]
      split at hrest
      · obtain ⟨hlater, hstands⟩ := intake_done (commitless_refuseWithin _ _ _ _)
          refuseWithin_stages refuseWithin_quiet hrest
        exact ⟨hlater, hstands⟩
      · have hstages : StagesOrder payload.orderId
            (stageCreated UnitOfWork.empty (coordinatingRow fulfillmentId payload hold middle.now)
              payload.requestedService, coordinatingRow fulfillmentId payload hold middle.now) :=
          ⟨_, MoneyOnly.empty.stages _ _ _, rfl⟩
        obtain ⟨hlater, hstands⟩ := intake_done (by exact trivial) (by exact hstages)
          (by rintro lost middle ⟨⟩) hrest
        exact ⟨hlater, hstands⟩

/-! ### Requests -/

theorem applyAll_ruled {writes : List WaslaCore.Write} (h : db.applyAll writes = .ok db')
    (hruled : Ruled db.fulfillments) : Ruled db'.fulfillments := by
  apply applyAll_keeps (P := fun db => Ruled db.fulfillments) _ h hruled
  intro write _ before after happly hbefore
  rcases apply_ok happly with ⟨money, _, -, -, rfl⟩ | ⟨rows, _, -, -, hwrite, rfl⟩
  · exact hbefore
  · exact hbefore.write hwrite

/-- The table upholds its rules whatever is called. -/
theorem completes_ruled {β : Type} {call : Call β} {result : Except Thrown β}
    (h : Completes core call db result db') (hruled : Ruled db.fulfillments) :
    Ruled db'.fulfillments := by
  refine h.keeps (fun db => Ruled db.fulfillments) ?_ hruled
  intro action choice answer store store' hperform hbefore
  rcases perform_cases hperform with rfl | ⟨entry, -, rfl⟩ | ⟨uow, -, hcommit⟩
  · exact hbefore
  · exact hbefore
  · obtain ⟨written, hwritten, -, rfl⟩ := commit_ok hcommit
    have hafter := applyAll_ruled hwritten hbefore
    exact hafter

theorem completes_answered {β : Type} {call : Call β}
    (h : Completes core (Money.answered call) db (.ok ()) db') :
    ∃ value, Completes core call db (.ok value) db' := by
  obtain ⟨value, middle, hcall, hlast⟩ := completes_then.mp h
  obtain ⟨-, rfl⟩ := completes_pure.mp hlast
  exact ⟨value, hcall⟩

/-- Whatever the request, an answer leaves its mark and undoes none. -/
theorem request_marks {request : Request} (hruled : Ruled db.fulfillments)
    (h : Completes core request.call db (.ok ()) db') :
    Marks request db.fulfillments db'.fulfillments := by
  cases request with
  | marketOrder payload =>
      obtain ⟨value, hcall⟩ := completes_answered h
      exact consumeMarketOrder_marks hcall
  | jobAccepted payload =>
      obtain ⟨value, hcall⟩ := completes_answered h
      exact consumeJobAccepted_marks hruled hcall
  | jobRejected payload =>
      obtain ⟨value, hcall⟩ := completes_answered h
      exact consumeJobRejected_marks hruled hcall
  | moveCompletion payload =>
      obtain ⟨value, hcall⟩ := completes_answered h
      exact consumeMoveCompletion_marks hruled hcall
  | cancel input =>
      obtain ⟨value, hcall⟩ := completes_answered h
      exact cancel_marks hruled hcall

end Answered

end WaslaCore.Fulfillment
