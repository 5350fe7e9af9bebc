import WaslaCore.Completed
import WaslaCore.Money.RacingCapture
import WaslaCore.Money.SerialRuns

/-!
The references of the ledger. Captures and refunds derive theirs from the hold they
name, credits take whatever the caller sent, and all of them are looked up in one
column. No two holds derive the same reference, and no capture derives a refund's; a
credit is kept apart from them by nothing but its caller.
-/

namespace WaslaCore.Money

open WaslaCore.Data WaslaCore.Platform WaslaCore.Interleaving

/-! ### Derived references -/

theorem matchesShape_length {shape value : List Char} (h : matchesShape shape value = true) :
    value.length = shape.length := by
  induction shape generalizing value with
  | nil =>
      cases value with
      | nil => rfl
      | cons char rest => simp [matchesShape] at h
  | cons first shape ih =>
      cases value with
      | nil => simp [matchesShape] at h
      | cons char rest =>
          have hrest : matchesShape shape rest = true := by
            unfold matchesShape at h
            split at h
            all_goals simp_all
          simp [ih hrest]

theorem isId_length {id : String} (h : isId id = true) : id.toList.length = 36 :=
  matchesShape_length h

theorem assertId_isId {field id : String} (h : assertId field id = .ok ()) : isId id = true := by
  unfold assertId at h
  split at h
  · assumption
  · cases h

/-- A hold's own part of a reference can be read off it. -/
theorem append_id_injective {front id id' : String} (hid : isId id = true)
    (hid' : isId id' = true) {rest rest' : List Char}
    (h : front.toList ++ id.toList ++ rest = front.toList ++ id'.toList ++ rest') : id = id' := by
  rw [List.append_assoc, List.append_assoc] at h
  have hsame := List.append_cancel_left h
  have hlength : id.toList.length = id'.toList.length := by
    rw [isId_length hid, isId_length hid']
  exact String.ext (List.append_inj hsame hlength).1

theorem captureLedgerReference_toList (authorizationId : String) (key : Option String) :
    ∃ rest, (captureLedgerReference authorizationId key).toList =
      "capture:".toList ++ authorizationId.toList ++ rest := by
  cases key with
  | none =>
      refine ⟨[], ?_⟩
      simp [captureLedgerReference, fullCaptureReference]
  | some key =>
      refine ⟨":".toList ++ key.toList, ?_⟩
      simp [captureLedgerReference]

theorem refundLedgerReference_toList (authorizationId reference : String) :
    ∃ rest, (refundLedgerReference authorizationId reference).toList =
      "refund:".toList ++ authorizationId.toList ++ rest := by
  refine ⟨":".toList ++ (trim reference).toList, ?_⟩
  simp [refundLedgerReference]

/-- Captures of two holds never share a reference. -/
theorem captureLedgerReference_injective {id id' : String} (hid : isId id = true)
    (hid' : isId id' = true) {key key' : Option String}
    (h : captureLedgerReference id key = captureLedgerReference id' key') : id = id' := by
  obtain ⟨rest, hleft⟩ := captureLedgerReference_toList id key
  obtain ⟨rest', hright⟩ := captureLedgerReference_toList id' key'
  rw [h, hright] at hleft
  exact (append_id_injective hid' hid hleft).symm

/-- Refunds of two holds never share a reference. -/
theorem refundLedgerReference_injective {id id' : String} (hid : isId id = true)
    (hid' : isId id' = true) {reference reference' : String}
    (h : refundLedgerReference id reference = refundLedgerReference id' reference') : id = id' := by
  obtain ⟨rest, hleft⟩ := refundLedgerReference_toList id reference
  obtain ⟨rest', hright⟩ := refundLedgerReference_toList id' reference'
  rw [h, hright] at hleft
  exact (append_id_injective hid' hid hleft).symm

/-- No capture shares a reference with a refund. -/
theorem captureLedgerReference_ne_refund (id id' : String) (key : Option String)
    (reference : String) : captureLedgerReference id key ≠ refundLedgerReference id' reference := by
  intro h
  obtain ⟨rest, hleft⟩ := captureLedgerReference_toList id key
  obtain ⟨rest', hright⟩ := refundLedgerReference_toList id' reference
  rw [h, hright] at hleft
  simp at hleft

/-- The reference is one that capture or refund derives for the hold. -/
def Derives (authorizationId reference : String) : Prop :=
  (∃ key, reference = captureLedgerReference authorizationId key) ∨
    ∃ caller, reference = refundLedgerReference authorizationId caller

/-! ### Transactions under their own references -/

/-- A capture and a refund stand under a reference derived from the hold they name. -/
structure Named (moved : LedgerTransaction) : Prop where
  capture : moved.kind = .capture → ∃ id key, isId id = true ∧
    moved.authorizationId = some id ∧ moved.businessReference = captureLedgerReference id key
  refund : moved.kind = .refund → ∃ id reference, isId id = true ∧
    moved.authorizationId = some id ∧ moved.businessReference = refundLedgerReference id reference

theorem Named.credit {moved : LedgerTransaction} (h : moved.kind = .credit) : Named moved := by
  constructor
  · intro hkind
    rw [h] at hkind
    cases hkind
  · intro hkind
    rw [h] at hkind
    cases hkind

def NamedWork (uow : Work) : Prop :=
  ∀ moved, WaslaCore.Write.money (.insertTransaction moved) ∈ uow.writes → Named moved

/-- Every transaction a call commits stands under its own reference. -/
def named : Discipline Action Action.Answer where
  told := foreseen
  owed := fun _ action =>
    match action with
    | .commit uow => NamedWork uow
    | _ => True

section Requests

-- a check is one step, whatever text it compares
attribute [local irreducible] trim

variable {β γ : Type} {seen : Seen}

theorem named_commitless {call : Call β} (h : Commitless call) (seen : Seen) :
    Keeps named anyEnd call seen := by
  have howed : ∀ seen action, ¬IsCommit action → named.owed seen action := by
    intro seen action hcommit
    cases action with
    | commit uow => exact absurd ⟨uow, rfl⟩ hcommit
    | read query => trivial
    | clock => trivial
    | newId => trivial
    | record entry => trivial
  exact (h.keeps howed seen).mono (fun _ _ _ => trivial)

theorem named_after {call : Call β} {next : β → Call γ} (hcall : Commitless call)
    (hnext : ∀ later value, Keeps named anyEnd (next value) later) :
    Keeps named anyEnd (call >>= next) seen :=
  (named_commitless hcall seen).bind (fun later value _ => hnext later value)
    (fun _ _ _ => trivial)

theorem named_answered {call : Call β} (h : Keeps named anyEnd call seen) :
    Keeps named anyEnd (answered call) seen :=
  h.bind (fun _ _ _ => trivial) (fun _ _ _ => trivial)

/-- The work a body ends with, if it ends with any. -/
def EndsNamed (_ : Seen) (result : Except Thrown (Work × β)) : Prop :=
  ∀ work, result = .ok work → NamedWork work.1

theorem named_withTransaction {body : Work → Call (Work × β)}
    (h : Keeps named EndsNamed (body UnitOfWork.empty) seen) :
    Keeps named anyEnd (withTransaction body) seen := by
  unfold withTransaction
  refine h.bind ?_ (fun _ _ _ => trivial)
  rintro later ⟨uow, value⟩ hwork
  refine ⟨hwork (uow, value) rfl, fun answer _ => ?_⟩
  cases answer <;> trivial

/-- The same, where what is staged does not depend on what the body reads. -/
theorem named_staged {uow : Work} {value : β} {next : β → Call γ} (h : NamedWork uow)
    (hnext : ∀ later, Keeps named anyEnd (next value) later) :
    Keeps named anyEnd (withTransaction (fun _ => pure (uow, value)) >>= next) seen := by
  refine ⟨h, fun answer _ => ?_⟩
  cases answer with
  | ok done => exact hnext _
  | error error => trivial

theorem NamedWork.empty : NamedWork UnitOfWork.empty := by
  intro moved hmoved
  cases hmoved

section Steps

variable {post : Seen → Except Thrown γ → Prop}

theorem named_settled {result : Except Thrown β} {next : β → Call γ}
    (hok : ∀ value, result = .ok value → Keeps named post (next value) seen)
    (herror : ∀ error, post seen (.error error)) :
    Keeps named post (settled result >>= next) seen := by
  cases result with
  | ok value => exact hok value rfl
  | error error => exact herror error

theorem named_checked {result : Except String β} {next : β → Call γ}
    (hok : ∀ value, Keeps named post (next value) seen)
    (herror : ∀ error, post seen (.error error)) :
    Keeps named post (checked result >>= next) seen := by
  cases result with
  | ok value => exact hok value
  | error message => exact herror _

theorem named_read {query : Query} {next : query.Answer → Call γ}
    (hok : ∀ value later, foreseen (.read query) (.ok value) → Keeps named post (next value) later)
    (herror : ∀ later error, post later (.error error)) :
    Keeps named post (read query >>= next) seen := by
  refine ⟨trivial, fun answer htold => ?_⟩
  cases answer with
  | ok value => exact hok value _ htold
  | error error => exact herror _ error

theorem named_clock {next : Int → Call γ} (h : ∀ instant later, Keeps named post (next instant) later) :
    Keeps named post (clock >>= next) seen :=
  ⟨trivial, fun instant _ => h instant _⟩

theorem named_newId {next : String → Call γ} (h : ∀ id later, Keeps named post (next id) later) :
    Keeps named post (newId >>= next) seen :=
  ⟨trivial, fun id _ => h id _⟩

theorem named_wallet {walletId : String} {next : Wallet → Call γ}
    (hok : ∀ wallet later, Keeps named post (next wallet) later)
    (herror : ∀ later error, post later (.error error)) :
    Keeps named post (requireWallet walletId >>= next) seen :=
  (named_commitless (commitless_requireWallet walletId) seen).bind
    (fun later wallet _ => hok wallet later) (fun later error _ => herror later error)

theorem named_transaction {kind : LedgerKind} {reference currency creditAccount debitAccount : String}
    {amount : Int} {authorizationId : Option String} {next : LedgerTransaction → Call γ}
    (hok : ∀ moved later, moved.kind = kind → moved.businessReference = reference →
      moved.authorizationId = authorizationId → Keeps named post (next moved) later)
    (herror : ∀ later error, post later (.error error)) :
    Keeps named post
      (transaction kind reference currency creditAccount debitAccount amount authorizationId >>= next)
      seen := by
  have hbuilt : Keeps named (fun _ result => ∀ moved, result = .ok moved → moved.kind = kind ∧
        moved.businessReference = reference ∧ moved.authorizationId = authorizationId)
      (transaction kind reference currency creditAccount debitAccount amount authorizationId)
      seen := by
    unfold transaction
    refine named_newId (fun transactionId later => ?_)
    refine named_checked (fun _ => ?_) (by rintro error moved ⟨⟩)
    refine named_clock (fun occurredAt final => ?_)
    rintro moved ⟨rfl⟩
    exact ⟨rfl, rfl, rfl⟩
  refine hbuilt.bind (fun later moved hmoved => ?_) (fun later error _ => herror later error)
  obtain ⟨hkind, hreference, hhold⟩ := hmoved moved rfl
  exact hok moved later hkind hreference hhold

end Steps

theorem EndsNamed.error {later : Seen} {error : Thrown} :
    EndsNamed later (.error error : Except Thrown (Work × β)) := by
  rintro work ⟨⟩

/-- A capture stages nothing, or a transaction under the reference of the hold it was
asked for. -/
theorem captureWithin_named (input : CaptureInput) :
    Keeps named EndsNamed (captureWithin UnitOfWork.empty input) seen := by
  have happlied : Keeps named EndsNamed (applyCaptureWithin UnitOfWork.empty input) seen := by
    unfold applyCaptureWithin
    refine named_settled ?_ (fun _ => EndsNamed.error)
    intro _ hid
    have hid := assertId_isId hid
    refine named_read ?_ (fun _ _ => EndsNamed.error)
    intro (found : Option PaymentAuthorization) later htold
    cases found with
    | none => exact EndsNamed.error
    | some authorization =>
        have hown : authorization.authorizationId = input.authorizationId := htold.1
        refine named_read ?_ (fun _ _ => EndsNamed.error)
        intro (replayed : Option LedgerTransaction) later _
        cases replayed with
        | some existing =>
            rintro work ⟨rfl⟩
            exact NamedWork.empty
        | none =>
            refine named_clock (fun now later => ?_)
            refine named_settled (fun requested _ => ?_) (fun _ => EndsNamed.error)
            refine named_wallet (fun wallet later => ?_) (fun _ _ => EndsNamed.error)
            refine named_transaction (fun moved later hkind hreference hhold => ?_)
              (fun _ _ => EndsNamed.error)
            refine named_clock (fun closedAt later => ?_)
            rintro work ⟨rfl⟩ other hother
            have hmoved : Named moved := by
              refine ⟨fun _ => ⟨input.authorizationId, input.key, hid, ?_, ?_⟩, ?_⟩
              · rw [hhold, hown]
              · rw [hreference, hown]
              · intro hrefund
                rw [hkind] at hrefund
                cases hrefund
            simp only [stageCapture, UnitOfWork.audit, UnitOfWork.emit, UnitOfWork.stage,
              UnitOfWork.empty, List.nil_append, List.mem_cons, List.not_mem_nil, or_false] at hother
            rcases hother with hother | hother
            · cases hother
            · obtain rfl : other = moved := by
                injection hother with hother
                injection hother
              exact hmoved
  unfold captureWithin
  refine happlied.bind ?_ (fun _ _ _ => EndsNamed.error)
  rintro later ⟨uow, captured⟩ hwork
  rintro work ⟨rfl⟩
  exact hwork (uow, captured) rfl

/-- A refund stages nothing, or a transaction under the reference of the hold it was
asked for. -/
theorem refundWithin_named (input : RefundInput) :
    Keeps named EndsNamed (refundWithin UnitOfWork.empty input) seen := by
  unfold refundWithin
  refine named_settled ?_ (fun _ => EndsNamed.error)
  intro _ hid
  have hid := assertId_isId hid
  split
  · exact EndsNamed.error
  split
  · exact EndsNamed.error
  refine named_read ?_ (fun _ _ => EndsNamed.error)
  intro (found : Option PaymentAuthorization) later htold
  cases found with
  | none => exact EndsNamed.error
  | some authorization =>
      have hown : authorization.authorizationId = input.authorizationId := htold.1
      refine named_read ?_ (fun _ _ => EndsNamed.error)
      intro (replayed : Option LedgerTransaction) later _
      cases replayed with
      | some existing =>
          rintro work ⟨rfl⟩
          exact NamedWork.empty
      | none =>
          refine named_settled (fun requested _ => ?_) (fun _ => EndsNamed.error)
          refine named_wallet (fun wallet later => ?_) (fun _ _ => EndsNamed.error)
          refine named_transaction (fun moved later hkind hreference hhold => ?_)
            (fun _ _ => EndsNamed.error)
          rintro work ⟨rfl⟩ other hother
          have hmoved : Named moved := by
            refine ⟨?_, fun _ => ⟨input.authorizationId, input.refundReference, hid, ?_, ?_⟩⟩
            · intro hcapture
              rw [hkind] at hcapture
              cases hcapture
            · rw [hhold, hown]
            · rw [hreference, hown]
          simp only [stageRefund, UnitOfWork.audit, UnitOfWork.emit, UnitOfWork.stage,
            UnitOfWork.empty, List.nil_append, List.mem_cons, List.not_mem_nil, or_false] at hother
          rcases hother with hother | hother
          · cases hother
          · obtain rfl : other = moved := by
              injection hother with hother
              injection hother
            exact hmoved

/-- Work without a ledger transaction. -/
theorem NamedWork.silent {uow : Work}
    (h : ∀ write ∈ uow.writes, ∀ moved, write ≠ .money (.insertTransaction moved)) :
    NamedWork uow :=
  fun moved hmoved => absurd rfl (h _ hmoved moved)

theorem expireEach_named (rows : List PaymentAuthorization) :
    Keeps named anyEnd (expireEach rows) seen := by
  induction rows generalizing seen with
  | nil => trivial
  | cons row rest ih =>
      refine Keeps.bind (p := anyEnd) ?_ ?_ (fun _ _ _ => trivial)
      · refine named_withTransaction ⟨trivial, fun voidedAt _ => ⟨trivial, fun closedAt _ => ?_⟩⟩
        rintro work ⟨rfl⟩
        refine NamedWork.silent (fun write hwrite moved => ?_)
        rw [List.mem_singleton.mp hwrite]
        rintro ⟨⟩
      · intro later expired _
        exact ih.bind (fun _ _ _ => trivial) (fun _ _ _ => trivial)

theorem voidWithin_named (input : VoidInput) :
    Keeps named EndsNamed (voidWithin UnitOfWork.empty input) seen := by
  unfold voidWithin
  refine named_settled ?_ (fun _ => EndsNamed.error)
  intro _ _
  refine named_read ?_ (fun _ _ => EndsNamed.error)
  intro (found : Option PaymentAuthorization) later _
  cases found with
  | none => exact EndsNamed.error
  | some authorization =>
      dsimp only
      split
      · rintro work ⟨rfl⟩
        exact NamedWork.empty
      split
      · exact EndsNamed.error
      split
      · exact EndsNamed.error
      refine named_clock (fun voidedAt later => named_clock (fun closedAt later => ?_))
      rintro work ⟨rfl⟩
      refine NamedWork.silent (fun write hwrite moved => ?_)
      rw [List.mem_singleton.mp hwrite]
      rintro ⟨⟩

/-- Every money request commits its transactions under their own references. -/
theorem Request.named (request : Request) : Keeps Money.named anyEnd request.call [] := by
  cases request with
  | createWallet input =>
      refine named_answered (named_after (commitless_settled _) (fun later _ => ?_))
      cases normalizeCurrency input.currency with
      | error message => trivial
      | ok currency =>
          apply named_after (commitless_read _)
          intro later (found : Option Wallet)
          cases found with
          | some existing => trivial
          | none =>
              refine named_newId (fun walletId later => named_clock (fun createdAt later => ?_))
              refine named_staged (NamedWork.silent (fun write hwrite moved => ?_)) (fun _ => trivial)
              rw [List.mem_singleton.mp hwrite]
              rintro ⟨⟩
  | credit input =>
      refine named_answered (named_after (commitless_requireWallet _) (fun later wallet => ?_))
      refine named_after (commitless_settled _) (fun later _ => ?_)
      apply named_after (commitless_read _)
      intro later (found : Option LedgerTransaction)
      cases found with
      | some existing => trivial
      | none =>
          refine named_transaction (fun moved later hkind _ _ => ?_) (fun _ _ => trivial)
          refine named_staged (fun other hother => ?_) (fun _ => trivial)
          have hsame := List.mem_singleton.mp hother
          injection hsame with hsame
          injection hsame with hsame
          rw [hsame]
          exact Named.credit hkind
  | authorize input =>
      refine named_answered (named_after (commitless_requireWallet _) (fun later wallet => ?_))
      refine named_after (commitless_settled _) (fun later _ => ?_)
      apply named_after (commitless_read _)
      intro later (found : Option PaymentAuthorization)
      cases found with
      | some existing => trivial
      | none =>
          dsimp only
          split
          · trivial
          refine named_after (commitless_balance _) (fun later current => ?_)
          split
          · trivial
          refine named_newId (fun authorizationId later => ?_)
          refine named_clock (fun createdAt later => named_clock (fun now later => ?_))
          refine named_after (commitless_settled _) (fun later expiresAt => ?_)
          refine named_staged (NamedWork.silent (fun write hwrite moved => ?_)) (fun _ => trivial)
          rw [List.mem_singleton.mp hwrite]
          rintro ⟨⟩
  | capture input => exact named_answered (named_withTransaction (captureWithin_named input))
  | refund input => exact named_answered (named_withTransaction (refundWithin_named input))
  | voidAuthorization input =>
      exact named_answered (named_withTransaction (voidWithin_named input))
  | expireDueAuthorizations =>
      refine named_answered (named_after (commitless_read _) (fun later rows => ?_))
      exact named_clock (fun now later => expireEach_named _)

end Requests

/-! ### References as a law -/

/-- What keeps credits apart: none goes in under a reference derived for a hold that
stands, and no hold goes in for which a credit's reference is derived. -/
def Unclaimed (_ : Seen) (action : Action) (db : Db) : Prop :=
  match action with
  | .commit uow =>
      (∀ moved, WaslaCore.Write.money (.insertTransaction moved) ∈ uow.writes →
        moved.kind = .credit → ∀ id row, db.money.getAuthorization id = some row →
          ¬Derives id moved.businessReference) ∧
      ∀ row, WaslaCore.Write.money (.insertAuthorization row) ∈ uow.writes →
        ∀ moved ∈ db.money.ledger.values, moved.kind = .credit →
          ¬Derives row.authorizationId moved.businessReference
  | _ => True

/-- Every transaction stands under a reference of its own kind. -/
structure Referenced (db : Db) : Prop where
  credits : ∀ moved ∈ db.money.ledger.values, moved.kind = .credit →
    ∀ id row, db.money.getAuthorization id = some row → ¬Derives id moved.businessReference
  named : ∀ moved ∈ db.money.ledger.values, Named moved

section Landed

variable {seen : Seen} {operation : Operation} {db db' : Db}

/-- Holds that stood before, and transactions that stood before or came in named and
unclaimed, leave the references apart. -/
theorem Referenced.next (h : Referenced db)
    (hholds : ∀ id row, db'.money.getAuthorization id = some row →
      ∃ old, db.money.getAuthorization id = some old)
    (hledger : ∀ moved ∈ db'.money.ledger.values, moved ∈ db.money.ledger.values ∨
      Named moved ∧ (moved.kind = .credit → ∀ id row, db.money.getAuthorization id = some row →
        ¬Derives id moved.businessReference)) : Referenced db' := by
  constructor
  · intro moved hmoved hkind id row hrow
    obtain ⟨old, hold⟩ := hholds id row hrow
    rcases hledger moved hmoved with hbefore | ⟨-, hnew⟩
    · exact h.credits moved hbefore hkind id old hold
    · exact hnew hkind id old hold
  · intro moved hmoved
    rcases hledger moved hmoved with hbefore | ⟨hnew, -⟩
    · exact h.named moved hbefore
    · exact hnew

theorem Rewritten.stood {store store' : Store} {stored next : PaymentAuthorization}
    (h : Rewritten store store' stored next) (id : String) (row : PaymentAuthorization)
    (hrow : store'.getAuthorization id = some row) :
    ∃ old, store.getAuthorization id = some old := by
  by_cases hid : next.authorizationId = id
  · exact ⟨stored, hid ▸ h.stored_eq⟩
  · exact ⟨row, (h.get_ne hid).symm.trans hrow⟩

theorem referenced_commit (h : Commit seen operation db db') (hreferenced : Referenced db)
    (hunclaimed : Unclaimed seen (.commit operation.staged) db)
    (hnamed : NamedWork operation.staged) : Referenced db' := by
  have hlegal := h.legal.movement
  have heffect := h.effect
  have hstaged : ∀ write ∈ operation.movement.writes,
      WaslaCore.Write.money write ∈ operation.staged.writes := by
    intro write hwrite
    rw [operation.staged_writes]
    exact List.mem_append_left _ (List.mem_map_of_mem hwrite)
  generalize operation.movement = movement at hlegal heffect hstaged
  -- what a movement posts is named, and unclaimed where it is a credit
  have hposted : ∀ {moved other : LedgerTransaction},
      db'.money.ledger = db.money.ledger.put moved.transactionId moved →
      .insertTransaction moved ∈ movement.writes → other ∈ db'.money.ledger.values →
      other ∈ db.money.ledger.values ∨ Named other ∧
        (other.kind = .credit → ∀ id row, db.money.getAuthorization id = some row →
          ¬Derives id other.businessReference) := by
    intro moved other hledger hwrite hother
    rw [hledger] at hother
    rcases Table.mem_values_put hother with hbefore | rfl
    · exact .inl hbefore
    · exact .inr ⟨hnamed other (hstaged _ hwrite), hunclaimed.1 other (hstaged _ hwrite)⟩
  have hstood : db'.money.authorizations = db.money.authorizations →
      ∀ id row, db'.money.getAuthorization id = some row →
        ∃ old, db.money.getAuthorization id = some old := by
    intro hholds id row hrow
    refine ⟨row, ?_⟩
    rw [← hrow]
    exact congrArg (fun holds => holds.get id) hholds.symm
  cases heffect with
  | unmoved _ hholds hledger =>
      exact hreferenced.next (hstood hholds) (fun moved hmoved => .inl (hledger ▸ hmoved))
  | missed _ hholds hledger =>
      exact hreferenced.next (hstood hholds) (fun moved hmoved => .inl (hledger ▸ hmoved))
  | credited hfresh hholds hledger =>
      exact hreferenced.next (hstood hholds)
        (fun moved hmoved => hposted hledger List.mem_cons_self hmoved)
  | @authorized row hfresh hholds hledger =>
      constructor
      · intro moved hmoved hkind id found hfound
        rw [hledger] at hmoved
        by_cases hid : row.authorizationId = id
        · rw [← hid]
          exact hunclaimed.2 row (hstaged _ List.mem_cons_self) moved hmoved hkind
        · have hbefore : db.money.getAuthorization id = some found := by
            rw [← hfound]
            unfold Store.getAuthorization
            rw [hholds, Table.get_put_ne _ _ hid]
          exact hreferenced.credits moved hmoved hkind id found hbefore
      · intro moved hmoved
        exact hreferenced.named moved (hledger ▸ hmoved)
  | captured hrow hfresh hledger =>
      exact hreferenced.next hrow.stood
        (fun moved hmoved => hposted hledger (by simp [Movement.writes]) hmoved)
  | refunded hrow hfresh hledger =>
      exact hreferenced.next hrow.stood
        (fun moved hmoved => hposted hledger (by simp [Movement.writes]) hmoved)
  | voided hrow hledger =>
      exact hreferenced.next hrow.stood (fun moved hmoved => .inl (hledger ▸ hmoved))

end Landed

/-- The references of the ledger, as a law of the database. -/
def references : Law where
  inv := Referenced
  guar := fun _ _ => True
  guar_refl := fun _ => trivial
  guar_trans := fun _ _ => trivial
  known := fun _ _ _ => True
  known_stable := fun _ _ => trivial

/-- What a step of the run must be allowed and owe. -/
def UnclaimedAndNamed (seen : Seen) (action : Action) (db : Db) : Prop :=
  Unclaimed seen action db ∧ (services.and named).owed seen action

theorem references_holds : references.Holds UnclaimedAndNamed where
  commit := fun h hinv _ hallowed =>
    ⟨referenced_commit h hinv hallowed.1 hallowed.2.2, trivial⟩
  record := fun _ hinv => ⟨⟨hinv.credits, hinv.named⟩, trivial⟩
  tick := fun _ _ hinv => ⟨⟨hinv.credits, hinv.named⟩, trivial⟩
  read := fun _ _ _ => trivial

theorem run_references {start : Int} {world : World Db Action Action.Answer Thrown Unit}
    (hrun : Run core moneyRequests Unclaimed (World.initial (Db.empty start)) world) :
    Stocked world.store ∧ Referenced world.store := by
  have hplain : Law.plain.Holds Unclaimed :=
    ⟨fun _ _ _ _ => ⟨trivial, trivial⟩, fun _ _ => ⟨trivial, trivial⟩,
      fun _ _ _ => ⟨trivial, trivial⟩, fun _ _ _ => trivial, fun _ _ => trivial⟩
  have hupheld : Upheld (Law.plain.contract.owing named) core moneyRequests Unclaimed := by
    refine (hplain.upheldFor moneyRequests_keep).owing ?_ (fun _ _ htold => htold)
    rintro call ⟨request, rfl⟩
    exact request.named
  have howing := hupheld.run_owing (Kept.initial ⟨stocked_empty start, trivial⟩) hrun
  have hempty : Referenced (Db.empty start) := by
    constructor
    · rintro moved ⟨⟩
    · rintro moved ⟨⟩
  exact ((references_holds.upheldFor moneyRequests_keep).run
    (Kept.initial ⟨stocked_empty start, hempty⟩) howing).1.inv

/-! ### What a lookup finds -/

/-- A capture looks up captures of its hold, and a refund refunds of its own. -/
structure Resolves (db : Db) : Prop where
  captures : ∀ id row key moved, isId id = true → db.money.getAuthorization id = some row →
    db.money.findTransactionByReference (captureLedgerReference id key) = some moved →
    moved.kind = .capture ∧ moved.authorizationId = some id
  refunds : ∀ id row reference moved, isId id = true → db.money.getAuthorization id = some row →
    db.money.findTransactionByReference (refundLedgerReference id reference) = some moved →
    moved.kind = .refund ∧ moved.authorizationId = some id

theorem Referenced.resolves {db : Db} (h : Referenced db) : Resolves db := by
  constructor
  · intro id row key moved hid hrow hfound
    have hmember := List.mem_of_find?_eq_some hfound
    have hreference : moved.businessReference = captureLedgerReference id key := by
      simpa using List.find?_some hfound
    cases hkind : moved.kind with
    | credit => exact absurd (.inl ⟨key, hreference⟩) (h.credits moved hmember hkind id row hrow)
    | capture =>
        obtain ⟨own, ownKey, hown, hhold, hderived⟩ := (h.named moved hmember).capture hkind
        rw [hreference] at hderived
        rw [captureLedgerReference_injective hid hown hderived]
        exact ⟨rfl, hhold⟩
    | refund =>
        obtain ⟨own, caller, -, -, hderived⟩ := (h.named moved hmember).refund hkind
        rw [hreference] at hderived
        exact absurd hderived (captureLedgerReference_ne_refund id own key caller)
  · intro id row reference moved hid hrow hfound
    have hmember := List.mem_of_find?_eq_some hfound
    have hreference : moved.businessReference = refundLedgerReference id reference := by
      simpa using List.find?_some hfound
    cases hkind : moved.kind with
    | credit =>
        exact absurd (.inr ⟨reference, hreference⟩) (h.credits moved hmember hkind id row hrow)
    | capture =>
        obtain ⟨own, ownKey, -, -, hderived⟩ := (h.named moved hmember).capture hkind
        rw [hreference] at hderived
        exact absurd hderived.symm (captureLedgerReference_ne_refund own id ownKey reference)
    | refund =>
        obtain ⟨own, caller, hown, hhold, hderived⟩ := (h.named moved hmember).refund hkind
        rw [hreference] at hderived
        rw [refundLedgerReference_injective hid hown hderived]
        exact ⟨rfl, hhold⟩

/-! ### What a call answers -/

/-- The transaction is one of that kind on the hold, it stands in the ledger, and the
amounts on the hold are what the ledger says moved. -/
structure MovedOn (db : Db) (kind : LedgerKind) (authorizationId : String)
    (moved : LedgerTransaction) : Prop where
  kind_eq : moved.kind = kind
  hold : moved.authorizationId = some authorizationId
  posted : moved ∈ db.money.ledger.values
  amounts : ∃ row, db.money.getAuthorization authorizationId = some row ∧
    row.capturedMinor = db.money.ledgerCaptured authorizationId ∧
    row.refundedMinor = db.money.ledgerRefunded authorizationId

section Answers

variable {db db' : Db} {moved : LedgerTransaction}

theorem amounts_agree (h : Stocked db) {authorizationId : String} {row : PaymentAuthorization}
    (hrow : db.money.getAuthorization authorizationId = some row) :
    ∃ row, db.money.getAuthorization authorizationId = some row ∧
      row.capturedMinor = db.money.ledgerCaptured authorizationId ∧
      row.refundedMinor = db.money.ledgerRefunded authorizationId :=
  ⟨row, hrow, h.money.captured _ _ hrow, h.money.refunded _ _ hrow⟩

/-- A commit of one update and one transaction of its hold posts the transaction. -/
theorem commit_moved (hstocked : Stocked db) {uow : Work} (next : PaymentAuthorization)
    (hwrites : uow.writes.filterMap WaslaCore.Write.money? =
      [.updateAuthorization next, .insertTransaction moved])
    (hhold : moved.authorizationId = some next.authorizationId)
    (hcommit : db.commit uow = .ok db') : MovedOn db' moved.kind next.authorizationId moved := by
  have happly := (commit_money hcommit).1
  rw [hwrites] at happly
  obtain ⟨stored, hstored, hfresh, hmoney⟩ := moved_effect happly hhold
  have hposted : db'.money.ledger.get moved.transactionId = some moved := by
    rw [hmoney]
    exact Table.get_put_self _ _ _
  have hrow : db'.money.getAuthorization next.authorizationId = some (stored.revise next) := by
    rw [hmoney]
    exact Table.get_put_self _ _ _
  exact ⟨rfl, hhold, Table.mem_values.mpr ⟨_, hposted⟩, amounts_agree (hstocked.commit hcommit) hrow⟩

theorem completes_moved {γ : Type} {value : γ} {kind : LedgerKind}
    {reference currency creditAccount debitAccount : String} {amount : Int}
    {authorizationId : Option String} {next : LedgerTransaction → Call γ}
    (h : Completes core
      (transaction kind reference currency creditAccount debitAccount amount authorizationId >>= next)
      db (.ok value) db') :
    ∃ moved : LedgerTransaction, moved.kind = kind ∧ moved.authorizationId = authorizationId ∧
      Completes core (next moved) db (.ok value) db' := by
  obtain ⟨moved, middle, hbuilt, hrest⟩ := completes_then.mp h
  obtain ⟨transactionId, -, hbuilt⟩ := completes_newId.mp hbuilt
  obtain ⟨-, -, hbuilt⟩ := completes_checked.mp hbuilt
  have hbuilt := completes_clock.mp hbuilt
  obtain ⟨rfl, rfl⟩ := completes_pure.mp hbuilt
  exact ⟨_, rfl, rfl, hrest⟩

/-- A capture that answers answers a capture of the hold it was asked for. -/
theorem capture_answers {input : CaptureInput} (hstocked : Stocked db) (hresolves : Resolves db)
    (h : Completes core (capture input) db (.ok moved) db') :
    MovedOn db' .capture input.authorizationId moved := by
  obtain ⟨uow, middle, hbody, hcommit⟩ := completes_transaction.mp h
  unfold captureWithin at hbody
  obtain ⟨⟨staged, captured⟩, after, happlied, hlast⟩ := completes_then.mp hbody
  obtain ⟨hanswer, rfl⟩ := completes_pure.mp hlast
  obtain ⟨rfl, rfl⟩ := Prod.mk.inj hanswer
  unfold applyCaptureWithin at happlied
  obtain ⟨⟨⟩, hid, happlied⟩ := completes_settled.mp happlied
  have happlied := completes_read.mp happlied
  dsimp only [Query.eval] at happlied
  cases hrow : db.money.getAuthorization input.authorizationId with
  | none =>
      rw [hrow] at happlied
      cases happlied
  | some row =>
      rw [hrow] at happlied
      have hown := hstocked.money.keyed _ _ hrow
      have happlied := completes_read.mp happlied
      dsimp only [Query.eval] at happlied
      rw [hown] at happlied
      cases hfound : db.money.findTransactionByReference
          (captureLedgerReference input.authorizationId input.key) with
      | some existing =>
          rw [hfound] at happlied
          obtain ⟨hsame, rfl⟩ := completes_pure.mp happlied
          obtain ⟨rfl, rfl⟩ := Prod.mk.inj hsame
          rw [commit_empty] at hcommit
          obtain rfl := Except.ok.inj hcommit
          obtain ⟨hkind, hhold⟩ :=
            hresolves.captures _ row input.key existing (assertId_isId hid) hrow hfound
          exact ⟨hkind, hhold, List.mem_of_find?_eq_some hfound, amounts_agree hstocked hrow⟩
      | none =>
          rw [hfound] at happlied
          have happlied := completes_clock.mp happlied
          obtain ⟨requested, -, happlied⟩ := completes_settled.mp happlied
          obtain ⟨-, wallet, -, happlied⟩ := completes_requireWallet.mp happlied
          obtain ⟨built, hkind, hhold, happlied⟩ := completes_moved happlied
          have happlied := completes_clock.mp happlied
          obtain ⟨hsame, rfl⟩ := completes_pure.mp happlied
          obtain ⟨rfl, rfl⟩ := Prod.mk.inj hsame
          have hmoved := commit_moved hstocked (capturedRow row requested _)
            rfl (by rw [hhold]; exact congrArg some hown.symm) hcommit
          rw [hkind] at hmoved
          exact hown ▸ hmoved

/-- A refund that answers answers a refund of the hold it was asked for. -/
theorem refund_answers {input : RefundInput} (hstocked : Stocked db) (hresolves : Resolves db)
    (h : Completes core (refund input) db (.ok moved) db') :
    MovedOn db' .refund input.authorizationId moved := by
  obtain ⟨uow, middle, hbody, hcommit⟩ := completes_transaction.mp h
  unfold refundWithin at hbody
  obtain ⟨⟨⟩, hid, hbody⟩ := completes_settled.mp hbody
  split at hbody
  · cases hbody
  split at hbody
  · cases hbody
  have hbody := completes_read.mp hbody
  dsimp only [Query.eval] at hbody
  cases hrow : db.money.getAuthorization input.authorizationId with
  | none =>
      rw [hrow] at hbody
      cases hbody
  | some row =>
      rw [hrow] at hbody
      have hown := hstocked.money.keyed _ _ hrow
      have hbody := completes_read.mp hbody
      dsimp only [Query.eval] at hbody
      rw [hown] at hbody
      cases hfound : db.money.findTransactionByReference
          (refundLedgerReference input.authorizationId input.refundReference) with
      | some existing =>
          rw [hfound] at hbody
          obtain ⟨hsame, rfl⟩ := completes_pure.mp hbody
          obtain ⟨rfl, rfl⟩ := Prod.mk.inj hsame
          rw [commit_empty] at hcommit
          obtain rfl := Except.ok.inj hcommit
          obtain ⟨hkind, hhold⟩ :=
            hresolves.refunds _ row input.refundReference existing (assertId_isId hid) hrow hfound
          exact ⟨hkind, hhold, List.mem_of_find?_eq_some hfound, amounts_agree hstocked hrow⟩
      | none =>
          rw [hfound] at hbody
          obtain ⟨requested, -, hbody⟩ := completes_settled.mp hbody
          obtain ⟨-, wallet, -, hbody⟩ := completes_requireWallet.mp hbody
          obtain ⟨built, hkind, hhold, hbody⟩ := completes_moved hbody
          obtain ⟨hsame, rfl⟩ := completes_pure.mp hbody
          obtain ⟨rfl, rfl⟩ := Prod.mk.inj hsame
          have hmoved := commit_moved hstocked (refundedRow row requested)
            rfl (by rw [hhold]; exact congrArg some hown.symm) hcommit
          rw [hkind] at hmoved
          exact hown ▸ hmoved

end Answers

/-- In every run of money requests, in any interleaving, in which no credit goes in
under a reference derived for a hold that stands and no hold goes in whose derived
references a credit has taken: a capture looks up captures of its own hold and a
refund refunds of its own; and a capture or refund made then that answers answers one
of the hold it was asked for, with the amounts on the hold what the ledger says. -/
theorem run_resolves {start : Int} {world : World Db Action Action.Answer Thrown Unit}
    (hrun : Run core moneyRequests Unclaimed (World.initial (Db.empty start)) world) :
    Resolves world.store ∧
      (∀ input moved db', Completes core (capture input) world.store (.ok moved) db' →
        MovedOn db' .capture input.authorizationId moved) ∧
      ∀ input moved db', Completes core (refund input) world.store (.ok moved) db' →
        MovedOn db' .refund input.authorizationId moved := by
  obtain ⟨hstocked, hreferenced⟩ := run_references hrun
  have hresolves := hreferenced.resolves
  exact ⟨hresolves, fun _ _ _ => capture_answers hstocked hresolves,
    fun _ _ _ => refund_answers hstocked hresolves⟩

/-! ### A credit under a capture's reference -/

/-- Every credit, staged or posted, is under the one reference. -/
def creditedOnly (reference : String) (_ : Seen) (action : Action) (db : Db) : Bool :=
  match action with
  | .commit uow =>
      uow.writes.all (fun write =>
        match write with
        | .money (.insertTransaction moved) =>
            moved.kind ≠ .credit || moved.businessReference = reference
        | _ => true) &&
      db.money.ledger.values.all (fun moved =>
        moved.kind ≠ .credit || moved.businessReference = reference)
  | _ => true

theorem topup_not_derived (id : String) : ¬Derives id "topup" := by
  rintro (⟨key, h⟩ | ⟨caller, h⟩)
  · obtain ⟨rest, hlist⟩ := captureLedgerReference_toList id key
    rw [← h] at hlist
    simp at hlist
  · obtain ⟨rest, hlist⟩ := refundLedgerReference_toList id caller
    rw [← h] at hlist
    simp at hlist

theorem creditedOnly_unclaimed (seen : Seen) (action : Action) (db : Db)
    (h : creditedOnly "topup" seen action db = true) : Unclaimed seen action db := by
  cases action with
  | commit uow =>
      obtain ⟨hstaged, hposted⟩ := Bool.and_eq_true_iff.mp h
      constructor
      · intro moved hmoved hkind id row _
        have htest := List.all_eq_true.mp hstaged _ hmoved
        have htopup : moved.businessReference = "topup" := by simpa [hkind] using htest
        rw [htopup]
        exact topup_not_derived id
      · intro row _ moved hmoved hkind
        have htest := List.all_eq_true.mp hposted _ hmoved
        have htopup : moved.businessReference = "topup" := by simpa [hkind] using htest
        rw [htopup]
        exact topup_not_derived row.authorizationId
  | read query => trivial
  | clock => trivial
  | newId => trivial
  | record entry => trivial

/-- The hold of 60 is captured. -/
def holdCaptured : Schedule :=
  holdPlaced ++ .start (Request.capture ⟨idOf '4', none, none⟩).call ::
    captureDecided 3 (idOf '5') ++ committed 3

set_option maxRecDepth 20000 in
/-- A hold captured once, the only credit a top-up. -/
theorem run_resolves_captured :
    ∃ world, play core (creditedOnly "topup") holdCaptured (World.initial (Db.empty 0)) =
        some world ∧ Resolves world.store := by
  have hplays : (play core (creditedOnly "topup") holdCaptured
      (World.initial (Db.empty 0))).isSome = true := by decide +kernel
  obtain ⟨world, hworld⟩ := Option.isSome_iff_exists.mp hplays
  have hcalls : ∀ call, Move.start call ∈ holdCaptured → moneyRequests call := by
    intro call hcall
    simp only [holdCaptured, holdPlaced, walletOpened, creditPosted, authorizeDecided,
      authorizeCommitted, captureDecided, committed, acts] at hcall
    simp at hcall
    rcases hcall with rfl | rfl | rfl | rfl
    · exact ⟨_, rfl⟩
    · exact ⟨_, rfl⟩
    · exact ⟨_, rfl⟩
    · exact ⟨_, rfl⟩
  exact ⟨world, hworld, (run_resolves (play_run hworld hcalls creditedOnly_unclaimed)).1⟩

/-- The hold's own capture reference, taken by a credit of 5. -/
def referenceTaken : Schedule :=
  holdPlaced ++
    .start (Request.credit ⟨idOf '2', 5, fullCaptureReference (idOf '4')⟩).call ::
      creditPosted 3 (idOf '5')

/-- The full capture of the hold. -/
def capturing : CaptureInput := ⟨idOf '4', none, none⟩

/-- What a capture of the hold answers, and what the hold then says was captured. -/
def answeredCapture (db : Db) : Option (LedgerKind × Option Int) :=
  match complete core [.proceed, .proceed, .proceed] (capture capturing) db with
  | some (.ok moved, after) =>
      some (moved.kind, (after.money.getAuthorization (idOf '4')).map (·.capturedMinor))
  | _ => none

set_option maxRecDepth 20000 in
/-- A credit under a hold's capture reference: the capture of the hold is answered with
the credit, and nothing is captured. -/
theorem run_resolves_fails :
    ∃ world, Run core moneyRequests anything (World.initial (Db.empty 0)) world ∧
      ¬Resolves world.store ∧
      ∃ moved db', Completes core (capture capturing) world.store (.ok moved) db' ∧
        moved.kind = .credit ∧
        (db'.money.getAuthorization (idOf '4')).map PaymentAuthorization.capturedMinor = some 0 := by
  have hplays : (play core unrestricted referenceTaken (World.initial (Db.empty 0))).any
      (fun world => (world.store.money.getAuthorization (idOf '4')).isSome &&
        (world.store.money.findTransactionByReference
          (captureLedgerReference (idOf '4') none)).any (fun moved => moved.kind = .credit) &&
        answeredCapture world.store = some (.credit, some 0)) = true := by decide +kernel
  obtain ⟨world, hworld, htests⟩ := (Option.any_eq_true _ _).mp hplays
  simp only [Bool.and_eq_true, decide_eq_true_eq] at htests
  obtain ⟨⟨hrow, hfound⟩, hanswer⟩ := htests
  obtain ⟨row, hrow⟩ := Option.isSome_iff_exists.mp hrow
  obtain ⟨found, hfound, hcredit⟩ := (Option.any_eq_true _ _).mp hfound
  have hcalls : ∀ call, Move.start call ∈ referenceTaken → moneyRequests call := by
    intro call hcall
    simp only [referenceTaken, holdPlaced, walletOpened, creditPosted, authorizeDecided,
      authorizeCommitted, acts] at hcall
    simp at hcall
    rcases hcall with rfl | rfl | rfl | rfl
    · exact ⟨_, rfl⟩
    · exact ⟨_, rfl⟩
    · exact ⟨_, rfl⟩
    · exact ⟨_, rfl⟩
  refine ⟨world, play_run hworld hcalls (fun _ _ _ _ => trivial), fun h => ?_, ?_⟩
  · obtain ⟨hkind, -⟩ := h.captures (idOf '4') row none found (by decide +kernel) hrow hfound
    have hkind' : found.kind = .credit := by simpa using hcredit
    rw [hkind'] at hkind
    cases hkind
  · unfold answeredCapture at hanswer
    split at hanswer
    · rename_i moved after hcomplete
      obtain ⟨hkind, hamount⟩ := Prod.mk.inj (Option.some.inj hanswer)
      exact ⟨moved, after, complete_completes hcomplete, hkind, hamount⟩
    · cases hanswer

end WaslaCore.Money
