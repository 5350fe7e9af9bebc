import WaslaCore.Fulfillment.Closure

/-!
What a call that lost leaves behind. The services stage a settlement and its
closing on one unit of work and commit that unit once; a call that learns it lost
may still commit what it does on behalf of the winner, which moves no money and
closes nothing.
-/

namespace WaslaCore

open Platform Interleaving

/-! ### Losses and what lands -/

/-- The two signals of a lost guard. -/
def Thrown.isLoss : Thrown → Bool
  | .transitionLost _ => true
  | .intakeLost _ => true
  | _ => false

/-- Some commit of the call lost its guard. -/
def Lost (seen : Seen) : Prop :=
  ∃ uow error, ⟨.commit uow, .error error⟩ ∈ seen ∧ Thrown.isLoss error = true

/-- The call committed this unit of work. -/
def Landed (seen : Seen) (uow : Work) : Prop := ⟨.commit uow, .ok ()⟩ ∈ seen

/-- A unit of work that moves no money and closes nothing. -/
structure Bare (uow : Work) : Prop where
  writes : ∀ write, Write.money write ∉ uow.writes
  events : ∀ event ∈ uow.events, event.eventType ≠ "core.fulfillment.completed" ∧
    event.eventType ≠ "core.fulfillment.cancelled"
  audits : ∀ entry ∈ uow.audits, entry.action ≠ "fulfillment.closed" ∧
    entry.action ≠ "fulfillment.cancelled" ∧ entry.action ≠ "fulfillment.refused"

/-- A unit of work with a write of the fulfillment store, which may lose. -/
def Guarded (uow : Work) : Prop := ∃ write, Write.fulfillment write ∈ uow.writes

/-- A call that lost committed nothing but bare units of work. -/
def Tidy (seen : Seen) : Prop := Lost seen → ∀ uow, Landed seen uow → Bare uow

/-- Only a write of the fulfillment store loses. -/
theorem applyAll_loss {db : Db} {writes : List Write} {error : Thrown}
    (h : db.applyAll writes = .error error) (hloss : Thrown.isLoss error = true) :
    ∃ write, Write.fulfillment write ∈ writes := by
  induction writes generalizing db with
  | nil => cases h
  | cons write rest ih =>
      cases write with
      | fulfillment write => exact ⟨write, List.mem_cons_self⟩
      | money write =>
          simp only [Db.applyAll, Db.apply] at h
          cases happly : write.apply db.money with
          | error message =>
              rw [happly] at h
              obtain rfl := Except.error.inj h
              cases hloss
          | ok money =>
              rw [happly] at h
              obtain ⟨other, hother⟩ := ih h
              exact ⟨other, List.mem_cons_of_mem _ hother⟩

/-- What a call may owe and be told about losing. -/
def losing : Discipline Action Action.Answer where
  told := fun action answer =>
    match action, answer with
    | .commit uow, .error error => Thrown.isLoss error = true → Guarded uow
    | _, _ => True
  owed := fun seen action =>
    match action with
    | .commit uow =>
        (Lost seen → Bare uow) ∧ (Guarded uow → ∀ landed, Landed seen landed → Bare landed)
    | _ => True

theorem losing_told {action : Action} {choice : Choice} {answer : action.Answer} {db db' : Db}
    (h : perform action choice db = some (answer, db')) : losing.told action answer := by
  cases action with
  | commit uow =>
      cases answer with
      | ok done => trivial
      | error error =>
          intro hloss
          cases choice with
          | proceed =>
              simp only [perform] at h
              split at h
              · cases (Prod.mk.inj (Option.some.inj h)).1
              · rename_i refused hcommit
                obtain ⟨hanswer, -⟩ := Prod.mk.inj (Option.some.inj h)
                obtain rfl := Except.error.inj hanswer
                unfold Db.commit at hcommit
                split at hcommit
                · rename_i other happly
                  obtain rfl := Except.error.inj hcommit
                  exact applyAll_loss happly hloss
                · split at hcommit
                  · obtain rfl := Except.error.inj hcommit
                    cases hloss
                  · cases hcommit
          | failing message =>
              obtain ⟨hanswer, -⟩ := Prod.mk.inj (Option.some.inj h)
              obtain rfl := Except.error.inj hanswer
              cases hloss
          | drawn id => cases h
          | elapsed milliseconds => cases h
  | read query => trivial
  | clock => trivial
  | newId => trivial
  | record entry => trivial

theorem lost_snoc {seen : Seen} {entry : (action : Action) × action.Answer}
    (h : Lost (seen ++ [entry])) :
    Lost seen ∨ ∃ uow error, entry = ⟨.commit uow, .error error⟩ ∧
      Thrown.isLoss error = true := by
  obtain ⟨uow, error, hmember, hloss⟩ := h
  rcases List.mem_append.mp hmember with hold | hnew
  · exact .inl ⟨uow, error, hold, hloss⟩
  · exact .inr ⟨uow, error, (List.mem_singleton.mp hnew).symm, hloss⟩

theorem landed_snoc {seen : Seen} {entry : (action : Action) × action.Answer} {uow : Work}
    (h : Landed (seen ++ [entry]) uow) : Landed seen uow ∨ entry = ⟨.commit uow, .ok ()⟩ := by
  rcases List.mem_append.mp h with hold | hnew
  · exact .inl hold
  · exact .inr (List.mem_singleton.mp hnew).symm

/-- A step that pays what it owes about losing keeps the call tidy. -/
theorem Tidy.snoc {seen : Seen} {action : Action} {answer : action.Answer} (h : Tidy seen)
    (howed : losing.owed seen action) (htold : losing.told action answer) :
    Tidy (seen ++ [⟨action, answer⟩]) := by
  intro hlost uow hlanded
  rcases lost_snoc hlost with hbefore | ⟨lost, error, hentry, hloss⟩
  · rcases landed_snoc hlanded with hold | hentry
    · exact h hbefore uow hold
    · obtain ⟨rfl, -⟩ := Sigma.mk.inj hentry
      exact howed.1 hbefore
  · cases hentry
    rcases landed_snoc hlanded with hold | hentry
    · exact howed.2 (htold hloss) uow hold
    · cases hentry

/-! ### Parts of a call that commit nothing -/

def IsCommit (action : Action) : Prop := ∃ uow, action = .commit uow

/-- The call commits nothing, whatever it is answered. -/
abbrev Commitless {β : Type} (call : Call β) : Prop := Avoids IsCommit call

section Commitless

variable {β : Type}

theorem commitless_settled (result : Except Thrown β) : Commitless (settled result) := by
  cases result <;> trivial

theorem commitless_checked (result : Except String β) : Commitless (Money.checked result) := by
  cases result <;> trivial

theorem commitless_read (query : Query) : Commitless (read query) := by
  refine ⟨?_, commitless_settled⟩
  rintro ⟨uow, ⟨⟩⟩

theorem commitless_clock : Commitless clock := by
  refine ⟨?_, fun _ => trivial⟩
  rintro ⟨uow, ⟨⟩⟩

theorem commitless_newId : Commitless newId := by
  refine ⟨?_, fun _ => trivial⟩
  rintro ⟨uow, ⟨⟩⟩

theorem commitless_recordAudit (entry : AuditEntry) : Commitless (recordAudit entry) := by
  refine ⟨?_, commitless_settled⟩
  rintro ⟨uow, ⟨⟩⟩

end Commitless

namespace Money

-- a check is one step, whatever text it compares
attribute [local irreducible] trim

theorem commitless_requireWallet (walletId : String) : Commitless (requireWallet walletId) := by
  refine avoids_bind (commitless_settled _) (fun _ => avoids_bind (commitless_read _) ?_)
  intro found
  cases found <;> trivial

theorem commitless_balance (walletId : String) : Commitless (balance walletId) := by
  refine avoids_bind (commitless_requireWallet walletId) (fun wallet => ?_)
  refine avoids_bind (commitless_read _) (fun ledger => ?_)
  refine avoids_bind (commitless_read _) (fun authorizations => ?_)
  exact avoids_bind commitless_clock (fun _ => trivial)

theorem commitless_transaction (kind : LedgerKind)
    (reference currency creditAccount debitAccount : String) (amount : Int)
    (authorizationId : Option String) :
    Commitless (transaction kind reference currency creditAccount debitAccount amount
      authorizationId) := by
  refine avoids_bind commitless_newId (fun transactionId => ?_)
  refine avoids_bind (commitless_checked _) (fun _ => ?_)
  exact avoids_bind commitless_clock (fun _ => trivial)

theorem commitless_applyCaptureWithin (uow : Work) (input : CaptureInput) :
    Commitless (applyCaptureWithin uow input) := by
  refine avoids_bind (commitless_settled _) (fun _ => avoids_bind (commitless_read _) ?_)
  intro (found : Option PaymentAuthorization)
  cases found with
  | none => trivial
  | some authorization =>
      apply avoids_bind (commitless_read _)
      intro (existing : Option LedgerTransaction)
      cases existing with
      | some existing => trivial
      | none =>
          refine avoids_bind commitless_clock (fun now => ?_)
          refine avoids_bind (commitless_settled _) (fun requested => ?_)
          refine avoids_bind (commitless_requireWallet _) (fun wallet => ?_)
          refine avoids_bind (commitless_transaction _ _ _ _ _ _ _) (fun moved => ?_)
          exact avoids_bind commitless_clock (fun _ => trivial)

theorem commitless_captureWithin (uow : Work) (input : CaptureInput) :
    Commitless (captureWithin uow input) :=
  avoids_bind (commitless_applyCaptureWithin uow input) (fun _ => trivial)

theorem commitless_captureHoldWithin (uow : Work) (input : CaptureInput) :
    Commitless (captureHoldWithin uow input) :=
  avoids_bind (commitless_applyCaptureWithin uow input) (fun _ => trivial)

theorem commitless_refundWithin (uow : Work) (input : RefundInput) :
    Commitless (refundWithin uow input) := by
  refine avoids_bind (commitless_settled _) (fun _ => ?_)
  split
  · trivial
  split
  · trivial
  apply avoids_bind (commitless_read _)
  intro (found : Option PaymentAuthorization)
  cases found with
  | none => trivial
  | some authorization =>
      apply avoids_bind (commitless_read _)
      intro (existing : Option LedgerTransaction)
      cases existing with
      | some existing => trivial
      | none =>
          refine avoids_bind (commitless_settled _) (fun requested => ?_)
          refine avoids_bind (commitless_requireWallet _) (fun wallet => ?_)
          exact avoids_bind (commitless_transaction _ _ _ _ _ _ _) (fun _ => trivial)

theorem commitless_applyVoidWithin (uow : Work) (authorization : PaymentAuthorization)
    (reason : String) : Commitless (applyVoidWithin uow authorization reason) :=
  avoids_bind commitless_clock (fun _ => avoids_bind commitless_clock (fun _ => trivial))

theorem commitless_voidWithin (uow : Work) (input : VoidInput) :
    Commitless (voidWithin uow input) := by
  refine avoids_bind (commitless_settled _) (fun _ => avoids_bind (commitless_read _) ?_)
  intro (found : Option PaymentAuthorization)
  cases found with
  | none => trivial
  | some authorization =>
      dsimp only
      split
      · trivial
      split
      · trivial
      split
      · trivial
      · exact commitless_applyVoidWithin uow authorization _

end Money

namespace Fulfillment

theorem commitless_require (fulfillmentId : String) : Commitless (require fulfillmentId) := by
  apply avoids_bind (commitless_read _)
  intro (found : Option Fulfillment)
  cases found <;> trivial

theorem commitless_release (uow : Work) (fulfillment : Fulfillment) (reason : String) :
    Commitless (release uow fulfillment reason) := by
  unfold release
  cases fulfillment.paymentAuthorizationId with
  | none => trivial
  | some hold =>
      refine avoids_tryCatch ?_ (fun error => ?_)
      · exact avoids_bind (Money.commitless_voidWithin uow _) (fun _ => trivial)
      · exact avoids_bind (commitless_recordAudit _) (fun _ => trivial)

theorem commitless_settle (uow : Work) (fulfillment : Fulfillment) :
    Commitless (settle uow fulfillment) := by
  unfold settle
  cases fulfillment.paymentAuthorizationId with
  | none => trivial
  | some hold =>
      refine avoids_tryCatch ?_ (fun error => ?_)
      · exact avoids_bind (Money.commitless_captureHoldWithin uow _) (fun _ => trivial)
      · exact avoids_bind (commitless_release uow fulfillment _) (fun _ => trivial)

theorem commitless_inspectHold (declared : Option String) : Commitless (inspectHold declared) := by
  cases declared with
  | none => trivial
  | some hold =>
      refine avoids_bind (avoids_tryCatch (commitless_read _) (fun _ => trivial)) ?_
      intro (found : Option Money.PaymentAuthorization)
      cases found with
      | none => trivial
      | some authorization => exact avoids_bind commitless_clock (fun _ => trivial)

theorem commitless_closeWithin (uow : Work) (current : Fulfillment) (status : FulfillmentStatus)
    (reason : Option String) (outcome : SettlementOutcome) :
    Commitless (closeWithin uow current status reason outcome) :=
  avoids_bind commitless_clock (fun _ => trivial)

theorem commitless_refuseWithin (uow : Work) (fulfillment : Fulfillment) (hold : HoldInspection)
    (declared : Option String) : Commitless (refuseWithin uow fulfillment hold declared) := by
  refine avoids_bind ?_ (fun _ => avoids_bind commitless_clock (fun _ => trivial))
  unfold releaseRefused
  split
  · exact commitless_release uow fulfillment _
  · trivial

theorem commitless_completeWithin (uow : Work) (current : Fulfillment)
    (payload : MoveJobCompletedPayload) : Commitless (completeWithin uow current payload) := by
  refine avoids_bind ?_ (fun _ => trivial)
  unfold settleReport
  split
  · exact commitless_settle uow current
  · exact avoids_bind (commitless_release uow current _) (fun _ => trivial)

end Fulfillment

/-! ### Requests pay what they owe about losing -/

/-- The call has committed nothing so far, though it may have tried. -/
def Unlanded (seen : Seen) : Prop := ∀ uow, ¬Landed seen uow

section Requests

variable {β γ : Type} {seen : Seen}

theorem lost_append {rest : Seen} (hrest : ∀ entry ∈ rest, ¬IsCommit entry.1)
    (h : Lost (seen ++ rest)) : Lost seen := by
  obtain ⟨uow, error, hmember, hloss⟩ := h
  rcases List.mem_append.mp hmember with hold | hnew
  · exact ⟨uow, error, hold, hloss⟩
  · exact absurd ⟨uow, rfl⟩ (hrest _ hnew)

theorem landed_append {rest : Seen} (hrest : ∀ entry ∈ rest, ¬IsCommit entry.1) {uow : Work}
    (h : Landed (seen ++ rest) uow) : Landed seen uow := by
  rcases List.mem_append.mp h with hold | hnew
  · exact hold
  · exact absurd ⟨uow, rfl⟩ (hrest _ hnew)

/-- What a part that commits nothing leaves as it was. -/
structure SameCommits (seen later : Seen) : Prop where
  lost : Lost later → Lost seen
  landed : ∀ uow, Landed later uow → Landed seen uow

theorem commitless_keeps {call : Call β} (h : Commitless call) (seen : Seen) :
    Keeps losing (fun later _ => SameCommits seen later) call seen := by
  have howed : ∀ seen action, ¬IsCommit action → losing.owed seen action := by
    intro seen action hcommit
    cases action with
    | commit uow => exact absurd ⟨uow, rfl⟩ hcommit
    | read query => trivial
    | clock => trivial
    | newId => trivial
    | record entry => trivial
  apply (h.keeps howed seen).mono
  rintro later result ⟨rest, rfl, hrest⟩
  exact ⟨lost_append hrest, fun uow => landed_append hrest⟩

/-- A part that commits nothing, then the rest of the call. -/
theorem keeps_after {call : Call β} {next : β → Call γ}
    {post : Seen → Except Thrown γ → Prop} (h : Commitless call)
    (hnext : ∀ later value, SameCommits seen later → Keeps losing post (next value) later)
    (hthrown : ∀ later error, SameCommits seen later → post later (.error error)) :
    Keeps losing post (call >>= next) seen :=
  (commitless_keeps h seen).bind (fun later value hsame => hnext later value hsame) hthrown

/-- The first commit of a call may be anything; if it fails, nothing has landed. -/
theorem first_commit {body : Work → Call (Work × β)} (hbody : Commitless (body UnitOfWork.empty))
    (hlost : ¬Lost seen) (hunlanded : Unlanded seen) :
    Keeps losing (fun later result => ∀ error, result = .error error → Unlanded later)
      (withTransaction body) seen := by
  unfold withTransaction
  refine keeps_after hbody ?_ (fun later error hsame _ _ uow hlanded =>
    hunlanded uow (hsame.landed uow hlanded))
  rintro later ⟨uow, value⟩ hsame
  have hquiet : Unlanded later := fun other hlanded => hunlanded other (hsame.landed other hlanded)
  refine ⟨⟨fun hlater => absurd (hsame.lost hlater) hlost,
    fun _ other hlanded => absurd hlanded (hquiet other)⟩, fun answer _ => ?_⟩
  cases answer with
  | ok done => rintro error ⟨⟩
  | error failure =>
      intro error _ other hlanded
      rcases landed_snoc hlanded with hold | hentry
      · exact hquiet other hold
      · cases hentry

/-- A bare unit of work may always be committed by a call that landed nothing. -/
theorem bare_commit {uow : Work} {value : β} (hbare : Bare uow) (hunlanded : Unlanded seen) :
    Keeps losing (fun later result => ∀ error, result = .error error → Unlanded later)
      (withTransaction (fun _ => pure (uow, value))) seen := by
  refine ⟨⟨fun _ => hbare, fun _ other hlanded => absurd hlanded (hunlanded other)⟩,
    fun answer _ => ?_⟩
  cases answer with
  | ok done => rintro error ⟨⟩
  | error failure =>
      intro error _ other hlanded
      rcases landed_snoc hlanded with hold | hentry
      · exact hunlanded other hold
      · cases hentry

/-- A call so far on its first attempt to commit. -/
structure Untried (seen : Seen) : Prop where
  lost : ¬Lost seen
  landed : Unlanded seen

theorem untried_nil : Untried [] :=
  ⟨by rintro ⟨uow, error, ⟨⟩, -⟩, by rintro uow ⟨⟩⟩

theorem Untried.later {later : Seen} (h : Untried seen) (hsame : SameCommits seen later) :
    Untried later :=
  ⟨fun hlost => h.lost (hsame.lost hlost), fun uow hlanded => h.landed uow (hsame.landed uow hlanded)⟩

/-- Nothing is claimed about how the rest ends. -/
theorem keeps_commitless {call : Call β} (h : Commitless call) :
    Keeps losing (fun _ _ => True) call seen := (commitless_keeps h seen).mono (fun _ _ _ => trivial)

/-- A commitless part of a call that has tried no commit. -/
theorem Untried.after {call : Call β} {next : β → Call γ} (h : Untried seen)
    (hcall : Commitless call)
    (hnext : ∀ later value, Untried later → Keeps losing (fun _ _ => True) (next value) later) :
    Keeps losing (fun _ _ => True) (call >>= next) seen :=
  keeps_after hcall (fun later value hsame => hnext later value (h.later hsame))
    (fun _ _ _ => trivial)

/-- The one commit of a call, and an answer that commits nothing more. -/
theorem Untried.commit {body : Work → Call (Work × β)} {next : β → Call γ} (h : Untried seen)
    (hbody : Commitless (body UnitOfWork.empty)) (hnext : ∀ value, Commitless (next value)) :
    Keeps losing (fun _ _ => True) (withTransaction body >>= next) seen :=
  (first_commit hbody h.lost h.landed).bind (fun _ value _ => keeps_commitless (hnext value))
    (fun _ _ _ => trivial)

end Requests

namespace Money

variable {seen : Seen}

/-- A commit of money writes alone cannot lose. -/
theorem expireEach_tidy (authorizations : List PaymentAuthorization) (hlost : ¬Lost seen) :
    Keeps losing (fun _ _ => True) (expireEach authorizations) seen := by
  induction authorizations generalizing seen with
  | nil => trivial
  | cons authorization rest ih =>
      have hvoid : Keeps losing (fun later _ => ¬Lost later)
          (withTransaction (fun uow => applyVoidWithin uow authorization "expired")) seen := by
        refine ⟨trivial, fun voidedAt _ => ⟨trivial, fun closedAt _ => ?_⟩⟩
        have hquiet : ∀ later : Seen, later = seen ++ [⟨.clock, voidedAt⟩] ++ [⟨.clock, closedAt⟩] →
            ¬Lost later := by
          rintro later rfl hlater
          refine hlost (lost_append ?_ (List.append_assoc _ _ _ ▸ hlater))
          simp [IsCommit]
        have hunguarded : ¬Guarded (stageVoid UnitOfWork.empty authorization "expired" voidedAt
            closedAt) := by
          rintro ⟨write, hwrite⟩
          simp [stageVoid, UnitOfWork.empty] at hwrite
        refine ⟨⟨fun hlater => absurd hlater (hquiet _ rfl), fun hguarded => absurd hguarded
          hunguarded⟩, fun answer htold => ?_⟩
        have hstill : ¬Lost (seen ++ [⟨.clock, voidedAt⟩] ++ [⟨.clock, closedAt⟩] ++
            [⟨.commit (stageVoid UnitOfWork.empty authorization "expired" voidedAt closedAt),
              answer⟩]) := by
          intro hlater
          rcases lost_snoc hlater with hbefore | ⟨uow, error, hentry, hloss⟩
          · exact hquiet _ rfl hbefore
          · cases hentry
            exact hunguarded (htold hloss)
        cases answer with
        | ok done => exact hstill
        | error error => exact hstill
      refine hvoid.bind (fun later expired hlater => ?_) (fun _ _ _ => trivial)
      exact (ih hlater).bind (fun _ _ _ => trivial) (fun _ _ _ => trivial)

theorem Request.tidy (request : Request) : Keeps losing anyEnd request.call [] := by
  have hanswered : ∀ {β : Type} {call : Call β}, Keeps losing (fun _ _ => True) call [] →
      Keeps losing anyEnd (answered call) [] :=
    fun h => h.bind (fun _ _ _ => trivial) (fun _ _ _ => trivial)
  cases request with
  | createWallet input =>
      refine hanswered (untried_nil.after (commitless_settled _) (fun later _ hlater => ?_))
      cases normalizeCurrency input.currency with
      | error message => trivial
      | ok currency =>
          apply hlater.after (commitless_read _)
          intro later (found : Option Wallet) hlater
          cases found with
          | some existing => trivial
          | none =>
              refine hlater.after commitless_newId (fun later walletId hlater => ?_)
              refine hlater.after commitless_clock (fun later createdAt hlater => ?_)
              exact hlater.commit trivial (fun _ => trivial)
  | credit input =>
      refine hanswered (untried_nil.after (commitless_requireWallet _) (fun later wallet hlater => ?_))
      refine hlater.after (commitless_settled _) (fun later _ hlater => ?_)
      apply hlater.after (commitless_read _)
      intro later (found : Option LedgerTransaction) hlater
      cases found with
      | some existing => trivial
      | none =>
          refine hlater.after (commitless_transaction _ _ _ _ _ _ _) (fun later moved hlater => ?_)
          exact hlater.commit trivial (fun _ => trivial)
  | authorize input =>
      refine hanswered (untried_nil.after (commitless_requireWallet _) (fun later wallet hlater => ?_))
      refine hlater.after (commitless_settled _) (fun later _ hlater => ?_)
      apply hlater.after (commitless_read _)
      intro later (found : Option PaymentAuthorization) hlater
      cases found with
      | some existing => trivial
      | none =>
          dsimp only
          split
          · trivial
          refine hlater.after (commitless_balance _) (fun later current hlater => ?_)
          split
          · trivial
          refine hlater.after commitless_newId (fun later authorizationId hlater => ?_)
          refine hlater.after commitless_clock (fun later createdAt hlater => ?_)
          refine hlater.after commitless_clock (fun later now hlater => ?_)
          refine hlater.after (commitless_settled _) (fun later expiresAt hlater => ?_)
          exact hlater.commit trivial (fun _ => trivial)
  | capture input =>
      exact untried_nil.commit (commitless_captureWithin _ _) (fun _ => trivial)
  | refund input => exact untried_nil.commit (commitless_refundWithin _ _) (fun _ => trivial)
  | voidAuthorization input =>
      exact untried_nil.commit (commitless_voidWithin _ _) (fun _ => trivial)
  | expireDueAuthorizations =>
      refine hanswered (untried_nil.after (commitless_read _) (fun later rows hlater => ?_))
      exact hlater.after commitless_clock (fun later now hlater => expireEach_tidy _ hlater.lost)

end Money

namespace Fulfillment

variable {seen : Seen}

theorem bare_marked (cancelled : Fulfillment) (payload : MoveJobCompletedPayload) :
    Bare (stageMarked UnitOfWork.empty cancelled payload) := by
  constructor <;> simp [stageMarked, UnitOfWork.empty, executedAfterCancellationEvent, auditEntry]

theorem bare_traced (traced : Fulfillment) : Bare (stageTraced UnitOfWork.empty traced) := by
  constructor <;> simp [stageTraced, UnitOfWork.empty, auditEntry]

theorem recordExecutionAfterCancellation_tidy (cancelled : Fulfillment)
    (payload : MoveJobCompletedPayload) (hunlanded : Unlanded seen) :
    Keeps losing (fun _ _ => True) (recordExecutionAfterCancellation cancelled payload) seen := by
  unfold recordExecutionAfterCancellation
  split
  · trivial
  split
  · trivial
  refine (bare_commit (bare_marked cancelled payload) hunlanded).tryCatch (fun _ _ _ => trivial) ?_
  intro later error _
  cases error with
  | transitionLost fulfillmentId => exact keeps_commitless (commitless_require _)
  | core error => trivial
  | other message => trivial
  | intakeLost orderReference => trivial

theorem completionOn_tidy (closed : Fulfillment) (payload : MoveJobCompletedPayload)
    (hunlanded : Unlanded seen) :
    Keeps losing (fun _ _ => True) (completionOn closed payload) seen := by
  unfold completionOn
  split
  · exact recordExecutionAfterCancellation_tidy closed payload hunlanded
  split
  · trivial
  · trivial

theorem acceptanceOn_tidy (current : Fulfillment) (jobId : String) (hunlanded : Unlanded seen) :
    Keeps losing (fun _ _ => True) (acceptanceOn current jobId) seen := by
  unfold acceptanceOn
  split
  · split <;> trivial
  split
  · trivial
  split
  · trivial
  · exact (bare_commit (bare_traced _) hunlanded).bind (fun _ _ _ => trivial) (fun _ _ _ => trivial)

theorem rejectionOn_tidy (closed : Fulfillment) :
    Keeps losing (fun _ _ => True) (rejectionOn closed) seen := by
  unfold rejectionOn
  split <;> trivial

theorem cancellationOn_tidy (closed : Fulfillment) :
    Keeps losing (fun _ _ => True) (cancellationOn closed) seen := by
  unfold cancellationOn
  split <;> trivial

/-- A transition commits once; having lost, it answers from the winner. -/
theorem transition_tidy {body : Work → Call (Work × Fulfillment)}
    {whenLost : Fulfillment → Call Fulfillment} (h : Untried seen)
    (hbody : Commitless (body UnitOfWork.empty))
    (hlost : ∀ later winner, Unlanded later →
      Keeps losing (fun _ _ => True) (whenLost winner) later) :
    Keeps losing (fun _ _ => True) (transition body whenLost) seen := by
  unfold transition
  refine (first_commit hbody h.lost h.landed).tryCatch (fun _ _ _ => trivial) ?_
  intro later error hthrown
  cases error with
  | transitionLost fulfillmentId =>
      refine keeps_after (commitless_require fulfillmentId) ?_ (fun _ _ _ => trivial)
      exact fun final winner hsame => hlost final winner (fun uow hlanded =>
        hthrown _ rfl uow (hsame.landed uow hlanded))
  | core error => trivial
  | other message => trivial
  | intakeLost orderReference => trivial

theorem intake_tidy {body : Work → Call (Work × Fulfillment)} (h : Untried seen)
    (hbody : Commitless (body UnitOfWork.empty)) :
    Keeps losing (fun _ _ => True) (intake body) seen := by
  unfold intake
  refine (first_commit hbody h.lost h.landed).tryCatch (fun _ _ _ => trivial) ?_
  intro later error _
  cases error with
  | intakeLost orderReference =>
      refine keeps_commitless (avoids_bind (commitless_read _) ?_)
      intro (found : Option Fulfillment)
      cases found <;> trivial
  | core error => trivial
  | other message => trivial
  | transitionLost fulfillmentId => trivial

-- a check is one step, whatever text it compares
attribute [local irreducible] trim

theorem Request.tidy (request : Request) : Keeps losing anyEnd request.call [] := by
  have hanswered : ∀ {β : Type} {call : Call β}, Keeps losing (fun _ _ => True) call [] →
      Keeps losing anyEnd (Money.answered call) [] :=
    fun h => h.bind (fun _ _ _ => trivial) (fun _ _ _ => trivial)
  cases request with
  | marketOrder payload =>
      refine hanswered (untried_nil.after (commitless_read _) ?_)
      intro later (found : Option Fulfillment) hlater
      cases found with
      | some existing => trivial
      | none =>
          refine hlater.after (commitless_inspectHold _) (fun later hold hlater => ?_)
          refine hlater.after commitless_newId (fun later fulfillmentId hlater => ?_)
          refine hlater.after commitless_clock (fun later createdAt hlater => ?_)
          dsimp only
          split
          · exact intake_tidy hlater (commitless_refuseWithin _ _ _ _)
          · exact intake_tidy hlater trivial
  | jobAccepted payload =>
      refine hanswered (untried_nil.after (commitless_require _) (fun later current hlater => ?_))
      split
      · exact acceptanceOn_tidy current payload.jobId hlater.landed
      · exact transition_tidy hlater trivial
          (fun later winner hunlanded => acceptanceOn_tidy winner payload.jobId hunlanded)
  | jobRejected payload =>
      refine hanswered (untried_nil.after (commitless_require _) (fun later current hlater => ?_))
      split
      · exact rejectionOn_tidy current
      · exact transition_tidy hlater (avoids_bind (commitless_release _ _ _)
          (fun _ => commitless_closeWithin _ _ _ _ _)) (fun _ winner _ => rejectionOn_tidy winner)
  | moveCompletion payload =>
      refine hanswered (untried_nil.after (commitless_require _) (fun later current hlater => ?_))
      split
      · exact completionOn_tidy current payload hlater.landed
      · exact transition_tidy hlater (commitless_completeWithin _ _ _)
          (fun later winner hunlanded => completionOn_tidy winner payload hunlanded)
  | cancel input =>
      refine hanswered (untried_nil.after (commitless_require _) (fun later current hlater => ?_))
      split
      · trivial
      split
      · exact cancellationOn_tidy current
      · exact transition_tidy hlater (avoids_bind (commitless_release _ _ _)
          (fun _ => commitless_closeWithin _ _ _ _ _)) (fun _ winner _ => cancellationOn_tidy winner)

end Fulfillment

/-- In every run, a call that lost has committed nothing but bare units of work. -/
theorem tidy_run {start : Int} {world : World Db Action Action.Answer Thrown Unit}
    (hrun : Run core requests anything (World.initial (Db.empty start)) world) :
    ∀ task ∈ world.tasks, Tidy task.seen := by
  have hcalls : ∀ call, requests call → Keeps losing anyEnd call [] := by
    rintro call (⟨request, rfl⟩ | ⟨request, rfl⟩)
    · exact request.tidy
    · exact request.tidy
  exact Run.remembers hcalls losing_told (fun hlost => absurd hlost untried_nil.lost)
    (fun htidy howed htold => htidy.snoc howed htold) hrun

namespace Fulfillment

/-- Single closure: a closed fulfillment stays as it was closed, with one closure
event and one closing entry; a call that lost its guarded write has committed
nothing but bare units of work, and a commit that fails changes nothing. -/
theorem run_single_closure {start : Int} {before after : World Db Action Action.Answer Thrown Unit}
    (hbefore : Run core requests anything (World.initial (Db.empty start)) before)
    (hafter : Run core requests anything before after) :
    ClosuresStay before.store after.store ∧ (∀ id, ClosedOnce id after.store) ∧
      (∀ task ∈ after.tasks, Tidy task.seen) ∧
      ∀ {seen uow error later}, Performs core after seen (.commit uow) (.error error) later →
        later.store = after.store := by
  have hkept := closure_holds.run (closure_empty start) hbefore
  obtain ⟨hkept', hstay⟩ := closure_holds.guar hkept hafter
  refine ⟨hstay, hkept'.inv.2, tidy_run (hbefore.trans hafter), ?_⟩
  intro seen uow error later hperforms
  cases hperforms with
  | intro choice hperform => exact perform_refused hperform

/-- Two cancellations read one open fulfillment; the first commits, then the
second, which loses and answers from the row that won. -/
def cancelledTwice : Schedule :=
  .start (Request.marketOrder ⟨"order", idOf '1', "delivery", none⟩).call ::
    acts 0 [.proceed, .drawn (idOf '2'), .proceed, .proceed] ++
  .start (Request.cancel ⟨idOf '2', "changed"⟩).call :: acts 1 [.proceed, .proceed] ++
  .start (Request.cancel ⟨idOf '2', "late"⟩).call :: acts 2 [.proceed, .proceed] ++
  committed 1 ++ acts 2 [.proceed, .proceed]

set_option maxRecDepth 20000 in
theorem run_single_closure_cancelledTwice :
    ∃ world, play core unrestricted cancelledTwice (World.initial (Db.empty 0)) = some world ∧
      closedNow (idOf '2') world.store = true ∧ closureEvents (idOf '2') world.store = 1 ∧
      ∀ id, ClosedOnce id world.store := by
  have hplays : (play core unrestricted cancelledTwice (World.initial (Db.empty 0))).any
      (fun world => closedNow (idOf '2') world.store = true ∧
        closureEvents (idOf '2') world.store = 1) = true := by decide +kernel
  obtain ⟨world, hworld, hclosed⟩ := (Option.any_eq_true _ _).mp hplays
  obtain ⟨hclosed, hevents⟩ := of_decide_eq_true hclosed
  refine ⟨world, hworld, hclosed, hevents,
    (run_single_closure (unrestricted_run hworld ?_) .refl).2.1⟩
  simp [cancelledTwice, committed, acts]

end Fulfillment

end WaslaCore
