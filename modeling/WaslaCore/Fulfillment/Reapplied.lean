import WaslaCore.Fulfillment.Handled
import WaslaCore.Money.Calm

/-!
Handling an event again. What a request that was answered left in the store is what its
handler looks for first, so a second handling finds nothing to do. An acceptance is the
exception by design: it is answered while its fulfillment is dispatched or cancelled, and
refused once the fulfillment has completed or failed.
-/

namespace WaslaCore.Fulfillment

open Data Platform Interleaving

/-! ### What a request comes to when it is handled again -/

/-- The database with a cancelled row that records another job. -/
def retraced (db : Db) (traced : Fulfillment) : Db :=
  { db with
    fulfillments := ⟨db.fulfillments.rows.put traced.fulfillmentId traced⟩
    audit := db.audit ++
      [(auditEntry "fulfillment.acceptance_after_cancellation" traced []).recorded] }

/-- The hold the row names exists and no other row has its job. -/
structure Retraceable (db : Db) (traced : Fulfillment) : Prop where
  held : ∀ hold, traced.paymentAuthorizationId = some hold →
    (db.money.getAuthorization hold).isSome
  free : db.fulfillments.jobReferenceTaken traced = false

/-- What an acceptance of `jobId` comes to for a row that has moved on. -/
inductive Reaccepts (jobId : String) (current : Fulfillment) (db : Db) :
    Except Thrown Unit → Db → Prop where
  | recorded (h : current.status = .dispatched ∨
      current.status = .cancelled ∧ current.moveJobReference = some jobId) :
      Reaccepts jobId current db (.ok ()) db
  | closed (h : current.status = .completed ∨ current.status = .failed) :
      Reaccepts jobId current db (.error (conflict "fulfillment is already closed")) db
  | traced (hcancelled : current.status = .cancelled)
      (hother : current.moveJobReference ≠ some jobId)
      (h : Retraceable db { current with moveJobReference := some jobId }) :
      Reaccepts jobId current db (.ok ())
        (retraced db { current with moveJobReference := some jobId })
  | refused (message : String) (hcancelled : current.status = .cancelled)
      (hother : current.moveJobReference ≠ some jobId)
      (h : ¬Retraceable db { current with moveJobReference := some jobId }) :
      Reaccepts jobId current db (.error (.other message)) db

/-- What a request that was answered before comes to. -/
inductive Reanswers (db : Db) : Request → Except Thrown Unit → Db → Prop where
  | unchanged {request : Request} (h : ∀ payload, request ≠ .jobAccepted payload) :
      Reanswers db request (.ok ()) db
  | accepted {payload : MoveJobAcceptedPayload} {current : Fulfillment}
      {result : Except Thrown Unit} {db' : Db}
      (hstored : db.fulfillments.get payload.fulfillmentId = some current)
      (h : Reaccepts payload.jobId current db result db') :
      Reanswers db (.jobAccepted payload) result db'

/-! ### Handling it again -/

section Again

variable {β : Type} {db : Db}

theorem calm_answered {call : Call β} {post : Except Thrown Unit → Db → Prop}
    (h : Ends calm (fun result later => post (result.map fun _ => ()) later) call db) :
    Ends calm post (Money.answered call) db :=
  ends_bind h (fun _ _ hpost => hpost) (fun _ _ hpost => hpost)

theorem calm_require {post : Except Thrown β → Db → Prop} {fulfillmentId : String}
    {next : Fulfillment → Call β} {row : Fulfillment}
    (hstored : db.fulfillments.get fulfillmentId = some row)
    (h : Ends calm post (next row) db) : Ends calm post (require fulfillmentId >>= next) db := by
  refine ends_bind (p := fun result later => result = .ok row ∧ later = db) ?_ ?_ ?_
  · unfold require get
    apply calm_read
    dsimp only [Query.eval]
    rw [hstored]
    exact ⟨rfl, rfl⟩
  · rintro value later ⟨hsame, rfl⟩
    obtain rfl := Except.ok.inj hsame
    exact h
  · rintro error later ⟨⟨⟩, -⟩

/-- A transaction whose commit is refused. -/
theorem calm_refused {post : Except Thrown β → Db → Prop} {uow : Work} {error : Thrown}
    {next : Call β} (hcommit : db.commit uow = .error error) (h : post (.error error) db) :
    Ends calm post (withTransaction (fun _ => pure (uow, ())) >>= fun _ => next) db := by
  have hgoes : performCalmly (.commit uow) .proceed db = some (.error error, db) := by
    simp [performCalmly, perform, hcommit]
  refine ⟨⟨.proceed, _, _, hgoes⟩, fun choice answer final hperform => ?_⟩
  cases choice with
  | proceed =>
      rw [show calm.perform (.commit uow) .proceed db = some (.error error, db) from hgoes]
        at hperform
      obtain ⟨rfl, rfl⟩ := Prod.mk.inj (Option.some.inj hperform)
      exact h
  | failing message => cases hperform
  | drawn id => cases hperform
  | elapsed milliseconds => cases hperform

/-- Recording the job goes through exactly where the hold exists and the job is free. -/
theorem traced_commit {current : Fulfillment} (jobId : String) (hruled : Ruled db.fulfillments)
    (hstored : db.fulfillments.get current.fulfillmentId = some current) :
    let traced : Fulfillment := { current with moveJobReference := some jobId }
    (Retraceable db traced ∧
      db.commit (stageTraced UnitOfWork.empty traced) = .ok (retraced db traced)) ∨
    ¬Retraceable db traced ∧ ∃ message,
      db.commit (stageTraced UnitOfWork.empty traced) = .error (.other message) := by
  intro traced
  have hcurrent := hruled.passes _ _ hstored
  have hpasses : assertRow traced = .ok () := hcurrent
  have hfound : db.fulfillments.get traced.fulfillmentId = some current := hstored
  have hput : db.fulfillments.update traced =
      if db.fulfillments.jobReferenceTaken traced then
        .error "duplicate key value violates unique constraint \"fulfillment_move_job_reference_key\""
      else .ok ⟨db.fulfillments.rows.put traced.fulfillmentId traced⟩ := by
    simp only [Store.update, hfound, Store.putRow, show reviseRow current traced = traced from rfl,
      hpasses]
  by_cases hheld : ∀ hold, traced.paymentAuthorizationId = some hold →
      (db.money.getAuthorization hold).isSome
  · have hknown : (traced.paymentAuthorizationId.any fun hold =>
        (db.money.getAuthorization hold).isNone) = false := by
      cases hhold : traced.paymentAuthorizationId with
      | none => rfl
      | some hold => simpa [Option.isSome_iff_ne_none] using hheld hold hhold
    cases hfree : db.fulfillments.jobReferenceTaken traced with
    | false =>
        have hverified : Money.verifyAll db.money
            ([.fulfillment (.update traced)].filterMap WaslaCore.Write.money?) = .ok () := rfl
        refine .inl ⟨⟨hheld, hfree⟩, ?_⟩
        simp [Db.commit, stageTraced, UnitOfWork.empty, UnitOfWork.stage, UnitOfWork.audit,
          Db.applyAll, Db.apply, referencedHold, hknown, Write.apply, hput, hfree,
          hverified, retraced]
    | true =>
        refine .inr ⟨fun hretraceable => ?_, ?_⟩
        · rw [hretraceable.free] at hfree
          cases hfree
        · simp [Db.commit, stageTraced, UnitOfWork.empty, UnitOfWork.stage, UnitOfWork.audit,
            Db.applyAll, Db.apply, referencedHold, hknown, Write.apply, hput, hfree]
  · have hknown : (traced.paymentAuthorizationId.any fun hold =>
        (db.money.getAuthorization hold).isNone) = true := by
      simp only [not_forall, exists_prop] at hheld
      obtain ⟨hold, hhold, hmissing⟩ := hheld
      rw [hhold]
      simpa using hmissing
    refine .inr ⟨fun hretraceable => hheld hretraceable.held, ?_⟩
    simp [Db.commit, stageTraced, UnitOfWork.empty, UnitOfWork.stage, UnitOfWork.audit,
      Db.applyAll, Db.apply, referencedHold, hknown]

theorem acceptance_again {payload : MoveJobAcceptedPayload} (hruled : Ruled db.fulfillments)
    (hstands : Stands db.fulfillments (.jobAccepted payload)) :
    Ends calm (Reanswers db (.jobAccepted payload)) (Request.jobAccepted payload).call db := by
  obtain ⟨current, hstored, hstarted, hjob⟩ := hstands
  have hkey := hruled.keyed _ _ hstored
  have hmoved : (isClosed current.status || decide (current.status = .dispatched)) = true := by
    cases hstatus : current.status with
    | coordinating => exact absurd hstatus hstarted
    | dispatched | completed | failed | cancelled => rfl
  refine calm_answered (calm_require hstored ?_)
  rw [if_pos hmoved]
  unfold acceptanceOn
  split
  · rename_i hdispatched
    rw [if_neg (not_not.mpr (hjob hdispatched))]
    exact .accepted hstored (.recorded (.inl hdispatched))
  rename_i hundispatched
  split
  · rename_i huncancelled
    refine .accepted hstored (.closed ?_)
    cases hstatus : current.status with
    | completed => exact .inl rfl
    | failed => exact .inr rfl
    | coordinating => exact absurd hstatus hstarted
    | dispatched => exact absurd hstatus hundispatched
    | cancelled => exact absurd hstatus huncancelled
  rename_i hcancelled
  have hcancelled := not_not.mp hcancelled
  split
  · rename_i hsame
    exact .accepted hstored (.recorded (.inr ⟨hcancelled, hsame⟩))
  · rename_i hother
    have hcommit := traced_commit payload.jobId hruled (by rwa [hkey])
    dsimp only at hcommit
    rcases hcommit with ⟨hretraceable, hcommit⟩ | ⟨hrefused, message, hcommit⟩
    · exact calm_commit hcommit (.accepted hstored (.traced hcancelled hother hretraceable))
    · exact calm_refused hcommit (.accepted hstored (.refused message hcancelled hother hrefused))

/-- What was answered and left its mark is answered again as said. -/
theorem request_again {request : Request} (hruled : Ruled db.fulfillments)
    (hstands : Stands db.fulfillments request) :
    Ends calm (Reanswers db request) request.call db := by
  cases request with
  | jobAccepted payload => exact acceptance_again hruled hstands
  | marketOrder payload =>
      obtain ⟨existing, hfound⟩ := Option.isSome_iff_exists.mp hstands
      refine calm_answered (calm_read ?_)
      dsimp only [Query.eval]
      rw [hfound]
      exact .unchanged (by rintro payload ⟨⟩)
  | jobRejected payload =>
      obtain ⟨row, hstored, hfailed⟩ := hstands
      refine calm_answered (calm_require hstored ?_)
      rw [if_pos (by rw [hfailed]; rfl), rejectionOn, if_pos hfailed]
      exact .unchanged (by rintro payload ⟨⟩)
  | moveCompletion payload =>
      obtain ⟨row, hstored, hclosed, hjob, hmarked⟩ := hstands
      refine calm_answered (calm_require hstored ?_)
      rw [if_pos hclosed]
      unfold completionOn recordExecutionAfterCancellation
      split
      · rename_i hcancelled
        split
        · exact .unchanged (by rintro payload ⟨⟩)
        · rename_i hdone
          rw [if_pos (hmarked hcancelled (not_not.mp hdone))]
          exact .unchanged (by rintro payload ⟨⟩)
      · rename_i hother
        rw [if_neg (not_not.mpr (hjob hother))]
        exact .unchanged (by rintro payload ⟨⟩)
  | cancel input =>
      obtain ⟨hreason, row, hstored, hcancelled⟩ := hstands
      refine calm_answered (calm_require hstored ?_)
      rw [if_neg (by rw [hreason]; rintro ⟨⟩), if_pos (by rw [hcancelled]; rfl), cancellationOn,
        if_pos hcancelled]
      exact .unchanged (by rintro payload ⟨⟩)

end Again

/-! ### Histories -/

/-- A database in which these requests were handled, one after another and each answered.
Whatever else is done between them leaves the fulfillment rows alone. -/
inductive Handles : List Request → Db → Prop where
  | start {db : Db} (h : Ruled db.fulfillments) : Handles [] db
  | handled {request : Request} {requests : List Request} {db db' : Db} (h : Handles requests db)
      (hdone : Completes core request.call db (.ok ()) db') : Handles (request :: requests) db'
  | elsewhere {requests : List Request} {db db' : Db} (h : Handles requests db)
      (hsame : db'.fulfillments = db.fulfillments) : Handles requests db'

/-- Some of the requests handled again, in any order and any number of times, as time passes. -/
inductive Rehandled (requests : List Request) (db : Db) : Db → Prop where
  | refl : Rehandled requests db db
  | again {request : Request} {result : Except Thrown Unit} {middle db' : Db}
      (h : Rehandled requests db middle) (hmember : request ∈ requests)
      (hdone : Completes calm request.call middle result db') : Rehandled requests db db'
  | passes {middle : Db} (h : Rehandled requests db middle) (milliseconds : Nat) :
      Rehandled requests db { middle with now := middle.now + milliseconds }

theorem Handles.ruled {requests : List Request} {db : Db} (h : Handles requests db) :
    Ruled db.fulfillments := by
  induction h with
  | start hruled => exact hruled
  | handled _ hdone ih => exact completes_ruled hdone ih
  | elsewhere _ hsame ih => rwa [hsame]

/-- Every answered request has left its mark, whatever was handled after it. -/
theorem Handles.stands {requests : List Request} {db : Db} (h : Handles requests db) :
    ∀ request ∈ requests, Stands db.fulfillments request := by
  induction h with
  | start _ => rintro request ⟨⟩
  | handled hbefore hdone ih =>
      have hmarks := request_marks hbefore.ruled hdone
      intro request hrequest
      rcases List.mem_cons.mp hrequest with rfl | hearlier
      · exact hmarks.stands
      · exact (ih request hearlier).later hmarks.later
  | elsewhere _ hsame ih =>
      rw [hsame]
      exact ih

/-- No money moved, nothing was published, and no row changed but a cancelled one, which
records the job of an acceptance that was handled for it. -/
structure Undisturbed (requests : List Request) (db db' : Db) : Prop where
  money : db'.money = db.money
  outbox : db'.outbox = db.outbox
  rows : ∀ id, db'.fulfillments.get id = db.fulfillments.get id ∨
    ∃ payload row, .jobAccepted payload ∈ requests ∧ payload.fulfillmentId = id ∧
      db.fulfillments.get id = some row ∧ row.status = .cancelled ∧
      db'.fulfillments.get id = some { row with moveJobReference := some payload.jobId }

theorem Undisturbed.refl (requests : List Request) (db : Db) : Undisturbed requests db db :=
  ⟨rfl, rfl, fun _ => .inl rfl⟩

theorem Undisturbed.trans {requests : List Request} {first second third : Db}
    (h : Undisturbed requests first second) (h' : Undisturbed requests second third) :
    Undisturbed requests first third where
  money := h'.money.trans h.money
  outbox := h'.outbox.trans h.outbox
  rows := by
    intro id
    rcases h'.rows id with hkept | ⟨payload, row, hmember, hid, hrow, hcancelled, hnow⟩
    · rw [hkept]
      exact h.rows id
    rcases h.rows id with hkept | ⟨payload', row', -, -, hrow', hcancelled', hthen⟩
    · rw [hkept] at hrow
      exact .inr ⟨payload, row, hmember, hid, hrow, hcancelled, hnow⟩
    · rw [hthen] at hrow
      obtain rfl := Option.some.inj hrow
      exact .inr ⟨payload, row', hmember, hid, hrow', hcancelled', hnow⟩

section Run

variable {requests : List Request} {db db' : Db}

/-- What one more handling leaves as it was. -/
theorem Reanswers.harmless {request : Request} {result : Except Thrown Unit}
    (h : Reanswers db request result db') (hmember : request ∈ requests)
    (hruled : Ruled db.fulfillments) :
    Undisturbed requests db db' ∧ Later db.fulfillments db'.fulfillments ∧
      Ruled db'.fulfillments := by
  have hsame : Undisturbed requests db db ∧ Later db.fulfillments db.fulfillments ∧
      Ruled db.fulfillments := ⟨.refl _ _, .refl _, hruled⟩
  cases h with
  | unchanged _ => exact hsame
  | @accepted payload current _ _ hstored haccepts =>
      cases haccepts with
      | recorded _ => exact hsame
      | closed _ => exact hsame
      | refused message _ _ _ => exact hsame
      | traced hcancelled _ hretraceable =>
          have hkey := hruled.keyed _ _ hstored
          have hcurrent := hruled.passes _ _ hstored
          have hplaced : Placed db.fulfillments
              (retraced db { current with moveJobReference := some payload.jobId }).fulfillments
              payload.fulfillmentId { current with moveJobReference := some payload.jobId } :=
            ⟨hcurrent, hretraceable.free, by rw [← hkey]; rfl⟩
          refine ⟨⟨rfl, rfl, fun id => ?_⟩,
            hplaced.later hstored (.ofCancelled hcancelled rfl rfl (fun hmarked => hmarked)),
            hruled.replaced hplaced hstored rfl rfl⟩
          by_cases hid : payload.fulfillmentId = id
          · subst hid
            exact .inr ⟨payload, current, hmember, rfl, hstored, hcancelled, hplaced.get_self⟩
          · exact .inl (hplaced.get_ne hid)

theorem rehandled_keeps (hhandled : Handles requests db) (hagain : Rehandled requests db db') :
    Undisturbed requests db db' ∧ Ruled db'.fulfillments ∧
      ∀ request ∈ requests, Stands db'.fulfillments request := by
  induction hagain with
  | refl => exact ⟨.refl _ _, hhandled.ruled, hhandled.stands⟩
  | again _ hmember hdone ih =>
      obtain ⟨hundisturbed, hruled, hstands⟩ := ih
      have hanswer := (request_again hruled (hstands _ hmember)).post hdone
      obtain ⟨hharmless, hlater, hruled'⟩ := hanswer.harmless hmember hruled
      exact ⟨hundisturbed.trans hharmless, hruled',
        fun request hrequest => (hstands request hrequest).later hlater⟩
  | passes _ milliseconds ih =>
      obtain ⟨hundisturbed, hruled, hstands⟩ := ih
      exact ⟨⟨hundisturbed.money, hundisturbed.outbox, hundisturbed.rows⟩, hruled, hstands⟩

end Run

/-- Handling answered requests again is harmless: however often and in whatever order, no money
moves, nothing is published, and each further handling comes to what `Reanswers` says. -/
theorem reapply_harmless {requests : List Request} {db db' : Db} (hhandled : Handles requests db)
    (hagain : Rehandled requests db db') :
    Undisturbed requests db db' ∧
      ∀ request ∈ requests, Ends calm (Reanswers db' request) request.call db' := by
  obtain ⟨hundisturbed, hruled, hstands⟩ := rehandled_keeps hhandled hagain
  exact ⟨hundisturbed, fun request hrequest => request_again hruled (hstands request hrequest)⟩

/-! ### Two histories -/

/-- Handles requests one after another, with what is chosen at each of their actions. -/
def handleEach : List (Request × List Choice) → Db → Option Db
  | [], db => some db
  | (request, choices) :: rest, db =>
      match complete core choices request.call db with
      | some (.ok (), after) => handleEach rest after
      | _ => none

theorem handleEach_handles {steps : List (Request × List Choice)} {requests : List Request}
    {db db' : Db} (h : handleEach steps db = some db') (hhandled : Handles requests db) :
    Handles ((steps.map Prod.fst).reverse ++ requests) db' := by
  induction steps generalizing db requests with
  | nil =>
      cases h
      exact hhandled
  | cons step rest ih =>
      obtain ⟨request, choices⟩ := step
      simp only [handleEach] at h
      split at h
      · rename_i after hdone
        rw [List.map_cons, List.reverse_cons, List.append_assoc]
        exact ih h (.handled hhandled (complete_completes hdone))
      · cases h

def ordered : Request := .marketOrder ⟨"order-1", "org-1", "delivery", none⟩

def accepted (jobId : String) : Request := .jobAccepted ⟨idOf '1', jobId, 5⟩

def completed : Request := .moveCompletion ⟨idOf '1', "job-1", .completed, 9⟩

def cancelled : Request := .cancel ⟨idOf '1', "customer withdrew"⟩

/-- The choices of an order that is taken up. -/
def takenUp : List Choice := [.proceed, .drawn (idOf '1'), .proceed, .proceed]

/-- An order that was executed. -/
def executed : List (Request × List Choice) :=
  [(ordered, takenUp), (accepted "job-1", [.proceed, .proceed]),
    (completed, [.proceed, .proceed])]

/-- An order that was cancelled, and two jobs accepted for it nevertheless. -/
def calledOff : List (Request × List Choice) :=
  [(ordered, takenUp), (cancelled, [.proceed, .proceed, .proceed]),
    (accepted "job-1", [.proceed, .proceed]), (accepted "job-2", [.proceed, .proceed])]

/-- What handling a request again comes to, when it is refused. -/
def refusedAgain (request : Request) (choices : List Choice) (db : Db) : Option Thrown :=
  match complete calm choices request.call db with
  | some (.error error, _) => some error
  | _ => none

set_option maxRecDepth 20000 in
/-- The acceptance of an order that was executed is not accepted again. -/
theorem reapply_refused :
    ¬∀ (requests : List Request) (db : Db), Handles requests db → ∀ request ∈ requests,
      ∀ result db', Completes calm request.call db result db' → result = .ok () := by
  intro hclaim
  have hplays : (handleEach executed (Db.empty 0)).any (fun db =>
      refusedAgain (accepted "job-1") [.proceed] db =
        some (conflict "fulfillment is already closed")) = true := by
    decide +kernel
  obtain ⟨db, hdb, hrefused⟩ := (Option.any_eq_true _ _).mp hplays
  have hhandled := handleEach_handles hdb (.start Ruled.empty)
  unfold refusedAgain at hrefused
  split at hrefused
  · rename_i error after hcompletes
    have hok := hclaim _ db hhandled (accepted "job-1") (by simp [executed]) _ _
      (complete_completes hcompletes)
    cases hok
  · cases hrefused

set_option maxRecDepth 20000 in
/-- Two jobs accepted for a cancelled order: the first acceptance handled again records its own
job again, and moves and publishes nothing. -/
theorem reapply_harmless_calledOff :
    ∃ db db', Handles ((calledOff.map Prod.fst).reverse ++ []) db ∧
      Completes calm (accepted "job-1").call db (.ok ()) db' ∧
      db'.money = db.money ∧ db'.outbox = db.outbox ∧
      Ends calm (Reanswers db' cancelled) cancelled.call db' := by
  have hplays : (handleEach calledOff (Db.empty 0)).any (fun db =>
      (complete calm [.proceed, .proceed] (accepted "job-1").call db).any fun done =>
        done.1.toBool) = true := by
    decide +kernel
  obtain ⟨db, hdb, hagain⟩ := (Option.any_eq_true _ _).mp hplays
  obtain ⟨⟨result, db'⟩, hcompletes, hok⟩ := (Option.any_eq_true _ _).mp hagain
  have hhandled := handleEach_handles hdb (.start Ruled.empty)
  cases result with
  | error error => cases hok
  | ok done =>
      have hdone := complete_completes hcompletes
      obtain ⟨hundisturbed, hends⟩ :=
        reapply_harmless hhandled (.again .refl (by simp [calledOff]) hdone)
      exact ⟨db, db', hhandled, hdone, hundisturbed.money, hundisturbed.outbox,
        hends cancelled (by simp [calledOff])⟩

end WaslaCore.Fulfillment
