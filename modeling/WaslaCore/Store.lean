import WaslaCore.Fulfillment.Repository
import WaslaCore.Interleaving.Logic
import WaslaCore.Money.Repository
import WaslaCore.Platform.UnitOfWork

/-!
The shared database and what one `await` of a service does to it: a read, a
clock reading, a fresh identifier, an audit entry recorded on its own, or the
commit of a unit of work. A commit is atomic. Reads see committed rows only, and
any number of other calls may commit between two of them. Any action that talks
to the store may also fail and change nothing.
-/

namespace WaslaCore

open Platform Interleaving Data

structure Db where
  now : Int
  money : Money.Store
  fulfillments : Fulfillment.Store
  outbox : List Event
  audit : List AuditEntry

def Db.empty (now : Int) : Db := ⟨now, Money.Store.empty, Fulfillment.Store.empty, [], []⟩

/-- One staged write. -/
inductive Write where
  | money (write : Money.Write)
  | fulfillment (write : Fulfillment.Write)

abbrev Work := UnitOfWork Write

def Write.money? : Write → Option Money.Write
  | .money write => some write
  | .fulfillment _ => none

def Write.fulfillment? : Write → Option Fulfillment.Write
  | .money _ => none
  | .fulfillment write => some write

/-- The hold a fulfillment write refers to. -/
def referencedHold : Fulfillment.Write → Option String
  | .intake row => row.paymentAuthorizationId
  | .transition next _ => next.paymentAuthorizationId
  | .update next => next.paymentAuthorizationId
  | .mark _ _ _ => none

namespace Db

def apply (db : Db) : Write → Except Thrown Db
  | .money write =>
      match write.apply db.money with
      | .ok money => .ok { db with money := money }
      | .error message => .error (.other message)
  | .fulfillment write =>
      if (referencedHold write).any (fun hold => (db.money.getAuthorization hold).isNone) then
        .error (.other "insert or update on table \"fulfillment\" violates foreign key constraint \"fulfillment_payment_authorization_id_fkey\"")
      else
        match write.apply db.fulfillments with
        | .ok fulfillments => .ok { db with fulfillments := fulfillments }
        | .error error => .error error

def applyAll (db : Db) : List Write → Except Thrown Db
  | [] => .ok db
  | write :: rest =>
      match db.apply write with
      | .ok next => next.applyAll rest
      | .error error => .error error

/-- The commit point: the staged writes in order, the audit entries, the outbox
append, and the checks the schema defers. An error leaves the database alone. -/
def commit (db : Db) (uow : Work) : Except Thrown Db :=
  match db.applyAll uow.writes with
  | .error error => .error error
  | .ok written =>
      match Money.verifyAll written.money (uow.writes.filterMap Write.money?) with
      | .error message => .error (.other message)
      | .ok () =>
          .ok { written with
            audit := written.audit ++ uow.audits.map AuditEntry.recorded
            outbox := written.outbox ++ uow.events }

end Db

/-! ### Actions -/

inductive Query where
  | getWallet (walletId : String)
  | findWallet (ownerType : Money.WalletOwnerType) (ownerId currency : String)
  | getAuthorization (authorizationId : String)
  | findAuthorizationByReference (reference : String)
  | listAuthorizations (walletId : String)
  | allAuthorizations
  | findTransactionByReference (reference : String)
  | transactions
  | getFulfillment (fulfillmentId : String)
  | findByOrderReference (orderReference : String)

def Query.Answer : Query → Type
  | .getWallet _ => Option Money.Wallet
  | .findWallet _ _ _ => Option Money.Wallet
  | .getAuthorization _ => Option Money.PaymentAuthorization
  | .findAuthorizationByReference _ => Option Money.PaymentAuthorization
  | .listAuthorizations _ => List Money.PaymentAuthorization
  | .allAuthorizations => List Money.PaymentAuthorization
  | .findTransactionByReference _ => Option Money.LedgerTransaction
  | .transactions => List Money.LedgerTransaction
  | .getFulfillment _ => Option Fulfillment.Fulfillment
  | .findByOrderReference _ => Option Fulfillment.Fulfillment

def Query.eval (db : Db) : (query : Query) → query.Answer
  | .getWallet walletId => db.money.getWallet walletId
  | .findWallet ownerType ownerId currency => db.money.findWallet ownerType ownerId currency
  | .getAuthorization authorizationId => db.money.getAuthorization authorizationId
  | .findAuthorizationByReference reference => db.money.findAuthorizationByReference reference
  | .listAuthorizations walletId => db.money.listAuthorizations walletId
  | .allAuthorizations => db.money.allAuthorizations
  | .findTransactionByReference reference => db.money.findTransactionByReference reference
  | .transactions => db.money.transactions
  | .getFulfillment fulfillmentId => db.fulfillments.get fulfillmentId
  | .findByOrderReference orderReference => db.fulfillments.findByOrderReference orderReference

inductive Action where
  | read (query : Query)
  | clock
  | newId
  | record (entry : AuditEntry)
  | commit (uow : Work)

def Action.Answer : Action → Type
  | .read query => Except Thrown query.Answer
  | .clock => Int
  | .newId => String
  | .record _ => Except Thrown Unit
  | .commit _ => Except Thrown Unit

/-- What the database does not decide itself: whether an action fails, which
identifier is drawn, how much time passes. -/
inductive Choice where
  | proceed
  | failing (message : String)
  | drawn (id : String)
  | elapsed (milliseconds : Nat)

def perform : (action : Action) → Choice → Db → Option (action.Answer × Db)
  | .read query, .proceed, db => some (.ok (query.eval db), db)
  | .read _, .failing message, db => some (.error (.other message), db)
  | .clock, .proceed, db => some (db.now, db)
  | .newId, .drawn id, db => if isId id then some (id, db) else none
  | .record entry, .proceed, db =>
      some (.ok (), { db with audit := db.audit ++ [entry.recorded] })
  | .record _, .failing message, db => some (.error (.other message), db)
  | .commit uow, .proceed, db =>
      match db.commit uow with
      | .ok db' => some (.ok (), db')
      | .error error => some (.error error, db)
  | .commit _, .failing message, db => some (.error (.other message), db)
  | _, _, _ => none

def tick : Choice → Db → Option Db
  | .elapsed milliseconds, db => some { db with now := db.now + milliseconds }
  | _, _ => none

/-- CORE's database as calls see it. -/
def core : System Db Action Action.Answer Choice := ⟨perform, tick⟩

abbrev Call (β : Type) := Process Action Action.Answer Thrown β

abbrev Seen := History Action Action.Answer

/-- An awaited answer: its error is thrown where it was awaited. -/
def settled {β : Type} : Except Thrown β → Call β
  | .ok value => .done value
  | .error error => .fail error

def read (query : Query) : Call query.Answer := .act (.read query) settled

def clock : Call Int := .act .clock .done

def newId : Call String := .act .newId .done

def recordAudit (entry : AuditEntry) : Call Unit := .act (.record entry) settled

/-- Domain state, outbox append and audit entry all land or none of them does. -/
def withTransaction {β : Type} (body : Work → Call (Work × β)) : Call β := do
  let (uow, result) ← body UnitOfWork.empty
  Process.act (.commit uow) settled
  pure result

/-! ### What an action can do to the database -/

/-- An action leaves the database alone, appends one audit entry, or is a commit
that went through. -/
theorem perform_cases {action : Action} {choice : Choice} {answer : action.Answer} {db db' : Db}
    (h : perform action choice db = some (answer, db')) :
    db' = db ∨
      (∃ entry, action = .record entry ∧ db' = { db with audit := db.audit ++ [entry.recorded] }) ∨
      ∃ uow, action = .commit uow ∧ db.commit uow = .ok db' := by
  cases action with
  | read query =>
      cases choice with
      | proceed => exact .inl (Prod.mk.inj (Option.some.inj h)).2.symm
      | failing message => exact .inl (Prod.mk.inj (Option.some.inj h)).2.symm
      | drawn id => cases h
      | elapsed milliseconds => cases h
  | clock =>
      cases choice with
      | proceed => exact .inl (Prod.mk.inj (Option.some.inj h)).2.symm
      | failing message => cases h
      | drawn id => cases h
      | elapsed milliseconds => cases h
  | newId =>
      cases choice with
      | drawn id =>
          simp only [perform] at h
          split at h
          · exact .inl (Prod.mk.inj (Option.some.inj h)).2.symm
          · cases h
      | proceed => cases h
      | failing message => cases h
      | elapsed milliseconds => cases h
  | record entry =>
      cases choice with
      | proceed => exact .inr (.inl ⟨entry, rfl, (Prod.mk.inj (Option.some.inj h)).2.symm⟩)
      | failing message => exact .inl (Prod.mk.inj (Option.some.inj h)).2.symm
      | drawn id => cases h
      | elapsed milliseconds => cases h
  | commit uow =>
      cases choice with
      | proceed =>
          simp only [perform] at h
          split at h
          · rename_i after hcommit
            obtain ⟨-, rfl⟩ := Prod.mk.inj (Option.some.inj h)
            exact .inr (.inr ⟨uow, rfl, hcommit⟩)
          · exact .inl (Prod.mk.inj (Option.some.inj h)).2.symm
      | failing message => exact .inl (Prod.mk.inj (Option.some.inj h)).2.symm
      | drawn id => cases h
      | elapsed milliseconds => cases h

/-- A read that succeeds answers from the database as it is. -/
theorem perform_read {query : Query} {choice : Choice} {value : query.Answer} {db db' : Db}
    (h : perform (.read query) choice db = some (.ok value, db')) : value = query.eval db := by
  cases choice with
  | proceed => exact (Except.ok.inj (Prod.mk.inj (Option.some.inj h)).1).symm
  | failing message => cases (Prod.mk.inj (Option.some.inj h)).1
  | drawn id => cases h
  | elapsed milliseconds => cases h

/-- A commit that succeeds went through. -/
theorem perform_committed {uow : Work} {choice : Choice} {value : Unit} {db db' : Db}
    (h : perform (.commit uow) choice db = some (.ok value, db')) : db.commit uow = .ok db' := by
  cases choice with
  | proceed =>
      simp only [perform] at h
      split at h
      · rename_i after hcommit
        rw [hcommit, (Prod.mk.inj (Option.some.inj h)).2]
      · cases (Prod.mk.inj (Option.some.inj h)).1
  | failing message => cases (Prod.mk.inj (Option.some.inj h)).1
  | drawn id => cases h
  | elapsed milliseconds => cases h

/-- A commit that fails leaves the database as it was. -/
theorem perform_refused {uow : Work} {choice : Choice} {error : Thrown} {db db' : Db}
    (h : perform (.commit uow) choice db = some (.error error, db')) : db' = db := by
  cases choice with
  | proceed =>
      simp only [perform] at h
      split at h
      · cases (Prod.mk.inj (Option.some.inj h)).1
      · exact (Prod.mk.inj (Option.some.inj h)).2.symm
  | failing message => exact (Prod.mk.inj (Option.some.inj h)).2.symm
  | drawn id => cases h
  | elapsed milliseconds => cases h

theorem tick_ok {choice : Choice} {db db' : Db} (h : tick choice db = some db') :
    ∃ elapsed : Nat, db' = { db with now := db.now + elapsed } := by
  cases choice <;> simp [tick] at h
  exact ⟨_, h.symm⟩

/-! ### What a commit that goes through did -/

theorem apply_ok {db db' : Db} {write : Write} (h : db.apply write = .ok db') :
    (∃ money, ∃ write' : Money.Write, write = .money write' ∧
      write'.apply db.money = .ok money ∧ db' = { db with money := money }) ∨
    (∃ rows, ∃ write' : Fulfillment.Write, write = .fulfillment write' ∧
      (∀ hold, referencedHold write' = some hold → (db.money.getAuthorization hold).isSome) ∧
      write'.apply db.fulfillments = .ok rows ∧ db' = { db with fulfillments := rows }) := by
  cases write with
  | money write =>
      simp only [Db.apply] at h
      split at h
      · rename_i money hwrite
        exact .inl ⟨money, write, rfl, hwrite, by simpa using h.symm⟩
      · cases h
  | fulfillment write =>
      simp only [Db.apply] at h
      split at h
      · cases h
      rename_i hhold
      split at h
      · rename_i rows hwrite
        refine .inr ⟨rows, write, rfl, ?_, hwrite, by simpa using h.symm⟩
        intro hold hreferenced
        simpa [hreferenced, Option.isSome_iff_ne_none] using hhold
      · cases h

/-- What each of the writes keeps, the list of them keeps. -/
theorem applyAll_keeps {P : Db → Prop} {writes : List Write}
    (hstep : ∀ write ∈ writes, ∀ {before after : Db}, before.apply write = .ok after →
      P before → P after) {db db' : Db} (h : db.applyAll writes = .ok db') (hstart : P db) :
    P db' := by
  induction writes generalizing db with
  | nil =>
      obtain rfl := Except.ok.inj h
      exact hstart
  | cons write rest ih =>
      simp only [Db.applyAll] at h
      split at h
      · rename_i next hnext
        apply ih (fun other hother => hstep other (List.mem_cons_of_mem _ hother)) h
        exact hstep write List.mem_cons_self hnext hstart
      · cases h

theorem applyAll_append {db db' : Db} {first second : List Write}
    (h : db.applyAll (first ++ second) = .ok db') :
    ∃ middle, db.applyAll first = .ok middle ∧ middle.applyAll second = .ok db' := by
  induction first generalizing db with
  | nil => exact ⟨db, rfl, h⟩
  | cons write rest ih =>
      simp only [List.cons_append, Db.applyAll] at h ⊢
      split at h
      · rename_i next hnext
        obtain ⟨middle, hfirst, hsecond⟩ := ih h
        exact ⟨middle, by simpa [hnext] using hfirst, hsecond⟩
      · cases h

/-- The two stores see only their own writes, and neither log is touched. -/
theorem applyAll_ok {db db' : Db} {writes : List Write} (h : db.applyAll writes = .ok db') :
    Money.applyAll db.money (writes.filterMap Write.money?) = .ok db'.money ∧
      db'.now = db.now ∧ db'.outbox = db.outbox ∧ db'.audit = db.audit := by
  induction writes generalizing db with
  | nil =>
      simp only [Db.applyAll, Except.ok.injEq] at h
      subst h
      exact ⟨rfl, rfl, rfl, rfl⟩
  | cons write rest ih =>
      simp only [Db.applyAll] at h
      split at h
      · rename_i next hnext
        obtain ⟨hmoney, hnow, houtbox, haudit⟩ := ih h
        rcases apply_ok hnext with ⟨money, write', rfl, hwrite, rfl⟩ | ⟨rows, write', rfl, -, -, rfl⟩
        · refine ⟨?_, hnow, houtbox, haudit⟩
          change Money.applyAll db.money (write' :: rest.filterMap Write.money?) = _
          simp only [Money.applyAll, hwrite]
          exact hmoney
        · exact ⟨hmoney, hnow, houtbox, haudit⟩
      · cases h

theorem commit_ok {db db' : Db} {uow : Work} (h : db.commit uow = .ok db') :
    ∃ written, db.applyAll uow.writes = .ok written ∧
      Money.verifyAll written.money (uow.writes.filterMap Write.money?) = .ok () ∧
      db' = { written with
        audit := db.audit ++ uow.audits.map AuditEntry.recorded
        outbox := db.outbox ++ uow.events } := by
  unfold Db.commit at h
  split at h
  · cases h
  rename_i written hwritten
  split at h
  · cases h
  rename_i hverified
  obtain ⟨-, -, houtbox, haudit⟩ := applyAll_ok hwritten
  refine ⟨written, hwritten, hverified, ?_⟩
  rw [← houtbox, ← haudit]
  simpa using h.symm

/-- The money half of a commit: its writes applied in order, then verified. -/
theorem commit_money {db db' : Db} {uow : Work} (h : db.commit uow = .ok db') :
    Money.applyAll db.money (uow.writes.filterMap Write.money?) = .ok db'.money ∧
      Money.verifyAll db'.money (uow.writes.filterMap Write.money?) = .ok () := by
  obtain ⟨written, hwritten, hverified, rfl⟩ := commit_ok h
  exact ⟨(applyAll_ok hwritten).1, hverified⟩

@[simp] theorem commit_now {db db' : Db} {uow : Work} (h : db.commit uow = .ok db') :
    db'.now = db.now := by
  obtain ⟨written, hwritten, -, rfl⟩ := commit_ok h
  exact (applyAll_ok hwritten).2.1

theorem commit_outbox {db db' : Db} {uow : Work} (h : db.commit uow = .ok db') :
    db'.outbox = db.outbox ++ uow.events := by
  obtain ⟨written, -, -, rfl⟩ := commit_ok h
  rfl

theorem commit_audit {db db' : Db} {uow : Work} (h : db.commit uow = .ok db') :
    db'.audit = db.audit ++ uow.audits.map AuditEntry.recorded := by
  obtain ⟨written, -, -, rfl⟩ := commit_ok h
  rfl

end WaslaCore
