import WaslaCore.Money.Agreement

/-!
What the commit of one legal operation did to the money store, movement by
movement. A capture or a refund rewrites the hold it names and adds one ledger
transaction; the deferred agreement then ties the amounts the call read to the
amounts that were stored, whatever the call read.
-/

namespace WaslaCore.Money

open WaslaCore.Data WaslaCore.Platform

section Batches

variable {store store' : Store}

/-- An update followed by a movement of the same hold: the hold was there. -/
theorem moved_effect {next : PaymentAuthorization} {moved : LedgerTransaction}
    (h : applyAll store [.updateAuthorization next, .insertTransaction moved] = .ok store')
    (hid : moved.authorizationId = some next.authorizationId) :
    ∃ stored, store.authorizations.get next.authorizationId = some stored ∧
      store.ledger.get moved.transactionId = none ∧
      store' =
        { store with
          authorizations := store.authorizations.put next.authorizationId (stored.revise next)
          ledger := store.ledger.put moved.transactionId moved } := by
  obtain ⟨middle, hupdate, hrest⟩ := applyAll_cons h
  obtain ⟨final, hinsert, hdone⟩ := applyAll_cons hrest
  obtain rfl := Except.ok.inj hdone
  obtain ⟨hfresh, -, hexists, rfl⟩ := insertTransaction_ok hinsert
  rcases updateAuthorization_ok hupdate with ⟨hnone, rfl⟩ | ⟨stored, hstored, -, rfl⟩
  · have := hexists next.authorizationId hid
    simp [hnone] at this
  · exact ⟨stored, hstored, hfresh, rfl⟩

theorem single_effect {write : Write} (h : applyAll store [write] = .ok store') :
    write.apply store = .ok store' := by
  obtain ⟨middle, hwrite, hdone⟩ := applyAll_cons h
  obtain rfl := Except.ok.inj hdone
  exact hwrite

/-- A transaction that lands found its reference free. -/
theorem reference_free {movement : Movement} (h : applyAll store movement.writes = .ok store')
    {moved : LedgerTransaction} (hmoved : .insertTransaction moved ∈ movement.writes) :
    store.findTransactionByReference moved.businessReference = none := by
  have hafter : ∀ {next : PaymentAuthorization} {landed : LedgerTransaction},
      applyAll store [.updateAuthorization next, .insertTransaction landed] = .ok store' →
      store.findTransactionByReference landed.businessReference = none := by
    intro next landed hboth
    obtain ⟨middle, hupdate, hrest⟩ := applyAll_cons hboth
    obtain ⟨-, hfree, -, -⟩ := insertTransaction_ok (single_effect hrest)
    rcases updateAuthorization_ok hupdate with ⟨-, rfl⟩ | ⟨stored, -, -, rfl⟩
    · exact hfree
    · exact hfree
  cases movement with
  | none => cases hmoved
  | createWallet wallet => cases List.mem_singleton.mp hmoved
  | authorize row => cases List.mem_singleton.mp hmoved
  | void row reason voidedAt closedAt => cases List.mem_singleton.mp hmoved
  | credit wallet amount landed =>
      obtain rfl := Write.insertTransaction.inj (List.mem_singleton.mp hmoved)
      exact (insertTransaction_ok (single_effect h)).2.1
  | capture row wallet requested closedAt landed =>
      rcases List.mem_cons.mp hmoved with hupdate | hinsert
      · cases hupdate
      · obtain rfl := Write.insertTransaction.inj (List.mem_singleton.mp hinsert)
        exact hafter h
  | refund row wallet requested reason landed =>
      rcases List.mem_cons.mp hmoved with hupdate | hinsert
      · cases hupdate
      · obtain rfl := Write.insertTransaction.inj (List.mem_singleton.mp hinsert)
        exact hafter h

end Batches

/-- `stored` is what the row named by a movement was when the movement landed. -/
structure Rewritten (store store' : Store) (stored next : PaymentAuthorization) : Prop where
  stored_eq : store.authorizations.get next.authorizationId = some stored
  row : store'.authorizations =
    store.authorizations.put next.authorizationId (stored.revise next)

theorem Rewritten.get_self {store store' : Store} {stored next : PaymentAuthorization}
    (h : Rewritten store store' stored next) :
    store'.authorizations.get next.authorizationId = some (stored.revise next) := by
  rw [h.row, Table.get_put_self]

theorem Rewritten.get_ne {store store' : Store} {stored next : PaymentAuthorization}
    (h : Rewritten store store' stored next) {id : String} (hid : next.authorizationId ≠ id) :
    store'.authorizations.get id = store.authorizations.get id := by
  rw [h.row, Table.get_put_ne _ _ hid]

/-- What a movement did to the two stores of money it can change. -/
inductive Effect (store store' : Store) : Movement → Prop where
  | unmoved {movement} (hbase : movement.base = none)
      (hholds : store'.authorizations = store.authorizations)
      (hledger : store'.ledger = store.ledger) : Effect store store' movement
  | credited {wallet amount moved} (hfresh : store.ledger.get moved.transactionId = none)
      (hholds : store'.authorizations = store.authorizations)
      (hledger : store'.ledger = store.ledger.put moved.transactionId moved) :
      Effect store store' (.credit wallet amount moved)
  | authorized {row} (hfresh : store.authorizations.get row.authorizationId = none)
      (hholds : store'.authorizations = store.authorizations.put row.authorizationId row)
      (hledger : store'.ledger = store.ledger) : Effect store store' (.authorize row)
  | captured {row wallet requested closedAt moved stored}
      (hrow : Rewritten store store' stored (capturedRow row requested closedAt))
      (hfresh : store.ledger.get moved.transactionId = none)
      (hledger : store'.ledger = store.ledger.put moved.transactionId moved) :
      Effect store store' (.capture row wallet requested closedAt moved)
  | refunded {row wallet requested reason moved stored}
      (hrow : Rewritten store store' stored (refundedRow row requested))
      (hfresh : store.ledger.get moved.transactionId = none)
      (hledger : store'.ledger = store.ledger.put moved.transactionId moved) :
      Effect store store' (.refund row wallet requested reason moved)
  | voided {row reason voidedAt closedAt stored}
      (hrow : Rewritten store store' stored (voidedRow row reason voidedAt closedAt))
      (hledger : store'.ledger = store.ledger) :
      Effect store store' (.void row reason voidedAt closedAt)
  | missed {row reason voidedAt closedAt} (hmissing : store.authorizations.get row.authorizationId = none)
      (hholds : store'.authorizations = store.authorizations)
      (hledger : store'.ledger = store.ledger) :
      Effect store store' (.void row reason voidedAt closedAt)

/-- Every legal movement that lands has one of these effects. -/
theorem movement_effect {store store' : Store} {movement : Movement} {seen : Seen}
    (hlegal : movement.Legal seen) (h : applyAll store movement.writes = .ok store') :
    Effect store store' movement := by
  cases movement with
  | none =>
      obtain rfl := Except.ok.inj h
      exact .unmoved rfl rfl rfl
  | createWallet wallet =>
      obtain ⟨-, rfl⟩ := insertWallet_ok (single_effect h)
      exact .unmoved rfl rfl rfl
  | credit wallet amount moved =>
      obtain ⟨hfresh, -, -, rfl⟩ := insertTransaction_ok (single_effect h)
      exact .credited hfresh rfl rfl
  | authorize row =>
      obtain ⟨-, -, hfresh, -, rfl⟩ := insertAuthorization_ok (single_effect h)
      exact .authorized hfresh rfl rfl
  | capture row wallet requested closedAt moved =>
      obtain ⟨-, -, -, -, -, hbuilt, -⟩ := hlegal
      obtain ⟨stored, hstored, hfresh, rfl⟩ := moved_effect h hbuilt.authorization_eq
      exact .captured ⟨hstored, rfl⟩ hfresh rfl
  | refund row wallet requested reason moved =>
      obtain ⟨-, -, -, -, hbuilt⟩ := hlegal
      obtain ⟨stored, hstored, hfresh, rfl⟩ := moved_effect h hbuilt.authorization_eq
      exact .refunded ⟨hstored, rfl⟩ hfresh rfl
  | void row reason voidedAt closedAt =>
      rcases updateAuthorization_ok (single_effect h) with ⟨hmissing, rfl⟩ | ⟨stored, hstored, -, rfl⟩
      · exact .missed hmissing rfl rfl
      · exact .voided ⟨hstored, rfl⟩ rfl

theorem operation_effect {db db' : Db} {operation : Operation} {seen : Seen}
    (hlegal : operation.Legal seen) (h : db.commit operation.staged = .ok db') :
    Effect db.money db'.money operation.movement := by
  obtain ⟨happly, -⟩ := commit_money h
  rw [operation.staged_money] at happly
  exact movement_effect hlegal.movement happly

/-- A capture in the ledger was there before or is the one the movement added. -/
theorem Effect.captures {store store' : Store} {movement : Movement} {seen : Seen}
    (h : Effect store store' movement) (hlegal : movement.Legal seen) {id : String}
    {transaction : LedgerTransaction} (hmember : transaction ∈ store'.ledger.values)
    (hkind : transaction.kind = .capture) (hid : transaction.authorizationId = some id) :
    transaction ∈ store.ledger.values ∨
      ∃ row wallet requested closedAt,
        movement = .capture row wallet requested closedAt transaction ∧
          row.authorizationId = id := by
  cases h with
  | unmoved _ _ hledger => exact .inl (hledger ▸ hmember)
  | credited _ _ hledger =>
      rcases Table.mem_values_put (hledger ▸ hmember) with hold | rfl
      · exact .inl hold
      · have hcredit := hlegal.2.kind_eq
        rw [hkind] at hcredit
        cases hcredit
  | authorized _ _ hledger => exact .inl (hledger ▸ hmember)
  | captured _ _ hledger =>
      rcases Table.mem_values_put (hledger ▸ hmember) with hold | rfl
      · exact .inl hold
      · have hcapture := hlegal.2.2.2.2.2.1.authorization_eq
        rw [hid] at hcapture
        exact .inr ⟨_, _, _, _, rfl, (Option.some.inj hcapture).symm⟩
  | refunded _ _ hledger =>
      rcases Table.mem_values_put (hledger ▸ hmember) with hold | rfl
      · exact .inl hold
      · have hrefund := hlegal.2.2.2.2.kind_eq
        rw [hkind] at hrefund
        cases hrefund
  | voided _ hledger => exact .inl (hledger ▸ hmember)
  | missed _ _ hledger => exact .inl (hledger ▸ hmember)

/-! ### Amounts posted by the two legs -/

theorem walletAccount_injective {first second : String}
    (h : walletAccount first = walletAccount second) : first = second := by
  have := congrArg String.toList h
  simp only [walletAccount, String.toList_append] at this
  exact String.toList_inj.mp (List.append_cancel_left this)

/-- A wallet's own account is never one of the clearing accounts. -/
theorem walletAccount_ne_clearing (walletId : String) :
    walletAccount walletId ≠ clearingCaptured ∧ walletAccount walletId ≠ "clearing:external" := by
  constructor <;>
    · intro h
      have := congrArg (fun text => text.toList.head?) h
      simp [walletAccount, clearingCaptured, String.toList_append] at this

theorem posted_legs (transaction : LedgerTransaction) (account : String)
    {currency creditAccount debitAccount : String} {amount : Int}
    (h : transaction.entries =
      legs transaction.transactionId currency creditAccount debitAccount amount) :
    transaction.posted account =
      (if creditAccount = account then amount else 0) -
        (if debitAccount = account then amount else 0) := by
  unfold LedgerTransaction.posted
  rw [h]
  simp only [legs, List.map_cons, List.map_nil, List.sum_cons, List.sum_nil]
  split <;> split <;> omega

/-- What a transaction beside a rewritten hold moved is what its amounts changed by. -/
theorem rewritten_amounts {store store' : Store} (hagree : Agreement store)
    (hagree' : Agreement store') {stored next : PaymentAuthorization} {moved : LedgerTransaction}
    (hrow : Rewritten store store' stored next)
    (hfresh : store.ledger.get moved.transactionId = none)
    (hledger : store'.ledger = store.ledger.put moved.transactionId moved) :
    next.capturedMinor = stored.capturedMinor + moved.capturedLeg next.authorizationId ∧
      next.refundedMinor = stored.refundedMinor + moved.refundedLeg next.authorizationId := by
  have hcaptured := hagree'.captured _ _ hrow.get_self
  have hrefunded := hagree'.refunded _ _ hrow.get_self
  rw [Store.ledgerCaptured, hledger, Table.total_put_new _ _ hfresh, ← Store.ledgerCaptured,
    ← hagree.captured _ _ hrow.stored_eq] at hcaptured
  rw [Store.ledgerRefunded, hledger, Table.total_put_new _ _ hfresh, ← Store.ledgerRefunded,
    ← hagree.refunded _ _ hrow.stored_eq] at hrefunded
  exact ⟨hcaptured, hrefunded⟩

theorem capture_legs {moved : LedgerTransaction} {currency walletId authorizationId : String}
    {amount : Int} (hbuilt : Built moved .capture currency clearingCaptured (walletAccount walletId)
      amount (some authorizationId)) :
    moved.capturedLeg authorizationId = amount ∧ moved.refundedLeg authorizationId = 0 := by
  constructor
  · unfold LedgerTransaction.capturedLeg
    rw [if_pos ⟨hbuilt.authorization_eq, hbuilt.kind_eq⟩, posted_legs _ _ hbuilt.entries_eq,
      if_pos rfl, if_neg (walletAccount_ne_clearing walletId).1]
    omega
  · unfold LedgerTransaction.refundedLeg
    rw [if_neg]
    rintro ⟨-, hkind⟩
    rw [hbuilt.kind_eq] at hkind
    cases hkind

/-- Only a capture moves what is captured. -/
theorem capturedLeg_refund {moved : LedgerTransaction} (hkind : moved.kind = .refund)
    (authorizationId : String) : moved.capturedLeg authorizationId = 0 := by
  unfold LedgerTransaction.capturedLeg
  rw [if_neg]
  rintro ⟨-, hcapture⟩
  rw [hkind] at hcapture
  cases hcapture

theorem refundedLeg_refund {moved : LedgerTransaction} {currency walletId authorizationId : String}
    {amount : Int} (hbuilt : Built moved .refund currency (walletAccount walletId) clearingCaptured
      amount (some authorizationId)) : moved.refundedLeg authorizationId = amount := by
  unfold LedgerTransaction.refundedLeg
  rw [if_pos ⟨hbuilt.authorization_eq, hbuilt.kind_eq⟩, posted_legs _ _ hbuilt.entries_eq,
    if_pos rfl, if_neg (walletAccount_ne_clearing walletId).1]
  omega

/-- A capture that lands was computed from the captured amount that was stored. -/
theorem captured_as_stored {store store' : Store} (hagree : Agreement store)
    (hagree' : Agreement store') {row stored : PaymentAuthorization} {requested closedAt : Int}
    {moved : LedgerTransaction} {currency walletId : String}
    (hrow : Rewritten store store' stored (capturedRow row requested closedAt))
    (hfresh : store.ledger.get moved.transactionId = none)
    (hledger : store'.ledger = store.ledger.put moved.transactionId moved)
    (hbuilt : Built moved .capture currency clearingCaptured (walletAccount walletId) requested
      (some row.authorizationId)) :
    row.capturedMinor = stored.capturedMinor := by
  have hamount := (rewritten_amounts hagree hagree' hrow hfresh hledger).1
  have hleg : moved.capturedLeg (capturedRow row requested closedAt).authorizationId = requested :=
    (capture_legs hbuilt).1
  have hnext : (capturedRow row requested closedAt).capturedMinor = row.capturedMinor + requested :=
    rfl
  omega

/-- A refund that lands was computed from the captured amount that was stored. -/
theorem refunded_as_stored {store store' : Store} (hagree : Agreement store)
    (hagree' : Agreement store') {row stored : PaymentAuthorization} {requested : Int}
    {moved : LedgerTransaction}
    (hrow : Rewritten store store' stored (refundedRow row requested))
    (hfresh : store.ledger.get moved.transactionId = none)
    (hledger : store'.ledger = store.ledger.put moved.transactionId moved)
    (hkind : moved.kind = .refund) : row.capturedMinor = stored.capturedMinor := by
  have hamount := (rewritten_amounts hagree hagree' hrow hfresh hledger).1
  rw [capturedLeg_refund hkind, Int.add_zero] at hamount
  exact hamount

end WaslaCore.Money
