import Mathlib.Data.List.Sort
import WaslaCore.Data.Table
import WaslaCore.Money.Domain

/-!
The money store: its reads, its writes, and the checks the schema defers to the
commit. A commit is atomic only on Postgres, so where the reference store and
Postgres differ on a write no service stages (a primary key met twice, an update
of a row that is not there, a hold inserted with amounts) Postgres decides.
Column checks that only ever refuse a write are left out: a commit may fail for
any reason anyway.
-/

namespace WaslaCore.Money

open WaslaCore.Data

structure Store where
  wallets : Table Wallet
  authorizations : Table PaymentAuthorization
  ledger : Table LedgerTransaction

def Store.empty : Store := ⟨Table.empty, Table.empty, Table.empty⟩

/-- `order by created_at, id`. -/
def olderFirst {α : Type} (instant : α → Int) (key : α → String) (left right : α) : Prop :=
  instant left < instant right ∨ (instant left = instant right ∧ key left ≤ key right)

instance {α : Type} (instant : α → Int) (key : α → String) :
    DecidableRel (olderFirst instant key) := fun left right =>
  inferInstanceAs (Decidable
    (instant left < instant right ∨ (instant left = instant right ∧ key left ≤ key right)))

namespace Store

/-! ### Reads -/

def getWallet (store : Store) (walletId : String) : Option Wallet := store.wallets.get walletId

def findWallet (store : Store) (ownerType : WalletOwnerType) (ownerId currency : String) :
    Option Wallet :=
  store.wallets.values.find? (fun wallet =>
    wallet.ownerType = ownerType ∧ wallet.ownerId = ownerId ∧ wallet.currency = currency)

def getAuthorization (store : Store) (authorizationId : String) : Option PaymentAuthorization :=
  store.authorizations.get authorizationId

def findAuthorizationByReference (store : Store) (reference : String) :
    Option PaymentAuthorization :=
  store.authorizations.values.find? (fun item => item.businessReference = reference)

def allAuthorizations (store : Store) : List PaymentAuthorization :=
  store.authorizations.values.insertionSort
    (olderFirst PaymentAuthorization.createdAt PaymentAuthorization.authorizationId)

def listAuthorizations (store : Store) (walletId : String) : List PaymentAuthorization :=
  (store.authorizations.values.filter (fun item => item.walletId = walletId)).insertionSort
    (olderFirst PaymentAuthorization.createdAt PaymentAuthorization.authorizationId)

def findTransactionByReference (store : Store) (reference : String) : Option LedgerTransaction :=
  store.ledger.values.find? (fun item => item.businessReference = reference)

def transactions (store : Store) : List LedgerTransaction :=
  store.ledger.values.insertionSort
    (olderFirst LedgerTransaction.occurredAt LedgerTransaction.transactionId)

end Store

/-! ### Writes -/

/-- A staged write. -/
inductive Write where
  | insertWallet (wallet : Wallet)
  | insertAuthorization (authorization : PaymentAuthorization)
  | updateAuthorization (next : PaymentAuthorization)
  | insertTransaction (transaction : LedgerTransaction)

def Store.insertWallet (store : Store) (wallet : Wallet) : Except String Store :=
  if (store.wallets.get wallet.walletId).isSome then
    .error "duplicate key value violates unique constraint \"wallet_pkey\""
  else if (store.findWallet wallet.ownerType wallet.ownerId wallet.currency).isSome then
    .error "duplicate key value violates unique constraint \"wallet_owner_type_owner_id_currency_key\""
  else .ok { store with wallets := store.wallets.put wallet.walletId wallet }

def Store.insertAuthorization (store : Store) (authorization : PaymentAuthorization) :
    Except String Store :=
  match assertAuthorizationShape authorization with
  | .error message => .error message
  | .ok () =>
      if (store.authorizations.get authorization.authorizationId).isSome then
        .error "duplicate key value violates unique constraint \"payment_authorization_pkey\""
      else if (store.findAuthorizationByReference authorization.businessReference).isSome then
        .error "duplicate key value violates unique constraint \"payment_authorization_business_reference_key\""
      else if authorization.amountMinor ≤ 0 then
        .error "new row for relation \"payment_authorization\" violates check constraint \"payment_authorization_amount_minor_check\""
      else if (store.wallets.get authorization.walletId).isNone then
        .error "insert or update on table \"payment_authorization\" violates foreign key constraint \"payment_authorization_wallet_id_fkey\""
      else
        .ok { store with
          authorizations :=
            store.authorizations.put authorization.authorizationId authorization }

/-- The stored row with the columns an update sets: the others never change. -/
def PaymentAuthorization.revise (stored next : PaymentAuthorization) : PaymentAuthorization :=
  { stored with
    status := next.status
    capturedAt := next.capturedAt
    voidedAt := next.voidedAt
    expiresAt := next.expiresAt
    voidReason := next.voidReason
    capturedMinor := next.capturedMinor
    refundedMinor := next.refundedMinor }

/-- The whole row is written, whatever the stored row has become since it was read. -/
def Store.updateAuthorization (store : Store) (next : PaymentAuthorization) : Except String Store :=
  match store.authorizations.get next.authorizationId with
  | none => .ok store
  | some stored =>
      match assertAuthorizationShape (stored.revise next) with
      | .error message => .error message
      | .ok () =>
          .ok { store with
            authorizations :=
              store.authorizations.put next.authorizationId (stored.revise next) }

def Store.insertTransaction (store : Store) (transaction : LedgerTransaction) : Except String Store :=
  if (store.ledger.get transaction.transactionId).isSome then
    .error "duplicate key value violates unique constraint \"ledger_transaction_pkey\""
  else if (store.findTransactionByReference transaction.businessReference).isSome then
    .error "duplicate key value violates unique constraint \"ledger_transaction_business_reference_key\""
  else if (transaction.kind = .credit) ≠ (transaction.authorizationId = none) then
    .error "new row for relation \"ledger_transaction\" violates check constraint \"ledger_transaction_authorization_presence\""
  else if transaction.entries.any (fun entry => entry.amountMinor = 0) then
    .error "new row for relation \"ledger_entry\" violates check constraint \"ledger_entry_amount_minor_check\""
  else if transaction.authorizationId.any
      (fun authorizationId => (store.authorizations.get authorizationId).isNone) then
    .error "insert or update on table \"ledger_transaction\" violates foreign key constraint \"ledger_transaction_authorization_id_fkey\""
  else .ok { store with ledger := store.ledger.put transaction.transactionId transaction }

def Write.apply (store : Store) : Write → Except String Store
  | .insertWallet wallet => store.insertWallet wallet
  | .insertAuthorization authorization => store.insertAuthorization authorization
  | .updateAuthorization next => store.updateAuthorization next
  | .insertTransaction transaction => store.insertTransaction transaction

def applyAll (store : Store) : List Write → Except String Store
  | [] => .ok store
  | write :: rest =>
      match write.apply store with
      | .ok next => applyAll next rest
      | .error message => .error message

/-! ### Checks deferred to the commit -/

def clearingCaptured : String := "clearing:captured"

/-- What one transaction captured on a hold. -/
def LedgerTransaction.capturedLeg (authorizationId : String) (transaction : LedgerTransaction) :
    Int :=
  if transaction.authorizationId = some authorizationId ∧ transaction.kind = .capture then
    transaction.posted clearingCaptured
  else 0

/-- What one transaction gave back on a hold. -/
def LedgerTransaction.refundedLeg (authorizationId : String) (transaction : LedgerTransaction) :
    Int :=
  if transaction.authorizationId = some authorizationId ∧ transaction.kind = .refund then
    -transaction.posted clearingCaptured
  else 0

def Store.ledgerCaptured (store : Store) (authorizationId : String) : Int :=
  store.ledger.total (LedgerTransaction.capturedLeg authorizationId)

def Store.ledgerRefunded (store : Store) (authorizationId : String) : Int :=
  store.ledger.total (LedgerTransaction.refundedLeg authorizationId)

/-- The amounts on a hold must be what the ledger says moved. -/
def assertLedgerAgreement (store : Store) (authorizationId : String) : Except String Unit :=
  match store.authorizations.get authorizationId with
  | none => .ok ()
  | some authorization =>
      if authorization.capturedMinor ≠ store.ledgerCaptured authorizationId then
        .error ("authorization " ++ authorizationId ++ " claims " ++
          toString authorization.capturedMinor ++ " captured but the ledger holds " ++
          toString (store.ledgerCaptured authorizationId))
      else if authorization.refundedMinor ≠ store.ledgerRefunded authorizationId then
        .error ("authorization " ++ authorizationId ++ " claims " ++
          toString authorization.refundedMinor ++ " refunded but the ledger holds " ++
          toString (store.ledgerRefunded authorizationId))
      else .ok ()

def Write.verify (store : Store) : Write → Except String Unit
  | .insertWallet _ => .ok ()
  | .insertAuthorization authorization =>
      assertLedgerAgreement store authorization.authorizationId
  | .updateAuthorization next => assertLedgerAgreement store next.authorizationId
  | .insertTransaction transaction =>
      match assertBalanced transaction.entries with
      | .error message => .error message
      | .ok () =>
          match transaction.authorizationId with
          | none => .ok ()
          | some authorizationId => assertLedgerAgreement store authorizationId

def verifyAll (store : Store) : List Write → Except String Unit
  | [] => .ok ()
  | write :: rest =>
      match write.verify store with
      | .ok () => verifyAll store rest
      | .error message => .error message

/-! ### What a write that goes through did -/

section Inversion

variable {store store' : Store}

theorem insertWallet_ok {wallet : Wallet} (h : store.insertWallet wallet = .ok store') :
    store.wallets.get wallet.walletId = none ∧
      store' = { store with wallets := store.wallets.put wallet.walletId wallet } := by
  unfold Store.insertWallet at h
  split at h
  · cases h
  rename_i hfresh
  split at h
  · cases h
  exact ⟨by simpa using hfresh, by simpa using h.symm⟩

theorem insertAuthorization_ok {authorization : PaymentAuthorization}
    (h : store.insertAuthorization authorization = .ok store') :
    WellShaped authorization ∧ 0 < authorization.amountMinor ∧
      store.authorizations.get authorization.authorizationId = none ∧
      store.findAuthorizationByReference authorization.businessReference = none ∧
      store' = { store with
        authorizations := store.authorizations.put authorization.authorizationId authorization } := by
  unfold Store.insertAuthorization at h
  split at h
  · cases h
  rename_i hshape
  split at h
  · cases h
  rename_i hfresh
  split at h
  · cases h
  rename_i hreference
  split at h
  · cases h
  rename_i hamount
  split at h
  · cases h
  exact ⟨assertAuthorizationShape_ok hshape, by omega, by simpa using hfresh,
    by simpa using hreference, by simpa using h.symm⟩

theorem updateAuthorization_ok {next : PaymentAuthorization}
    (h : store.updateAuthorization next = .ok store') :
    (store.authorizations.get next.authorizationId = none ∧ store' = store) ∨
      ∃ stored, store.authorizations.get next.authorizationId = some stored ∧
        WellShaped (stored.revise next) ∧
        store' = { store with
          authorizations :=
            store.authorizations.put next.authorizationId (stored.revise next) } := by
  unfold Store.updateAuthorization at h
  split at h
  · rename_i hnone
    exact .inl ⟨hnone, by simpa using h.symm⟩
  · rename_i stored hstored
    split at h
    · cases h
    rename_i hshape
    exact .inr ⟨stored, hstored, assertAuthorizationShape_ok hshape, by simpa using h.symm⟩

theorem insertTransaction_ok {transaction : LedgerTransaction}
    (h : store.insertTransaction transaction = .ok store') :
    store.ledger.get transaction.transactionId = none ∧
      store.findTransactionByReference transaction.businessReference = none ∧
      (∀ authorizationId, transaction.authorizationId = some authorizationId →
        (store.authorizations.get authorizationId).isSome) ∧
      store' = { store with
        ledger := store.ledger.put transaction.transactionId transaction } := by
  unfold Store.insertTransaction at h
  split at h
  · cases h
  rename_i hfresh
  split at h
  · cases h
  rename_i hreference
  split at h
  · cases h
  split at h
  · cases h
  split at h
  · cases h
  rename_i hknown
  refine ⟨by simpa using hfresh, by simpa using hreference, ?_, by simpa using h.symm⟩
  intro authorizationId hid
  simpa [hid, Option.isSome_iff_ne_none] using hknown

theorem assertLedgerAgreement_ok {authorizationId : String} {authorization : PaymentAuthorization}
    (h : assertLedgerAgreement store authorizationId = .ok ())
    (hstored : store.authorizations.get authorizationId = some authorization) :
    authorization.capturedMinor = store.ledgerCaptured authorizationId ∧
      authorization.refundedMinor = store.ledgerRefunded authorizationId := by
  simp only [assertLedgerAgreement, hstored] at h
  split at h
  · cases h
  rename_i hcaptured
  split at h
  · cases h
  rename_i hrefunded
  exact ⟨by simpa using hcaptured, by simpa using hrefunded⟩

theorem applyAll_cons {write : Write} {rest : List Write}
    (h : applyAll store (write :: rest) = .ok store') :
    ∃ middle, write.apply store = .ok middle ∧ applyAll middle rest = .ok store' := by
  simp only [applyAll] at h
  split at h
  · rename_i middle hwrite
    exact ⟨middle, hwrite, h⟩
  · cases h

/-- What each of the writes keeps, the list of them keeps. -/
theorem applyAll_keeps {P : Store → Prop} {writes : List Write}
    (hstep : ∀ write ∈ writes, ∀ {before after : Store}, write.apply before = .ok after →
      P before → P after) (h : applyAll store writes = .ok store') (hstart : P store) :
    P store' := by
  induction writes generalizing store with
  | nil =>
      obtain rfl := Except.ok.inj h
      exact hstart
  | cons write rest ih =>
      obtain ⟨middle, hwrite, hrest⟩ := applyAll_cons h
      apply ih (fun other hother => hstep other (List.mem_cons_of_mem _ hother)) hrest
      exact hstep write List.mem_cons_self hwrite hstart

theorem verifyAll_mem {writes : List Write} (h : verifyAll store writes = .ok ())
    {write : Write} (hmember : write ∈ writes) : write.verify store = .ok () := by
  induction writes with
  | nil => cases hmember
  | cons first rest ih =>
      simp only [verifyAll] at h
      split at h
      · rename_i hfirst
        rcases List.mem_cons.mp hmember with rfl | hrest
        · exact hfirst
        · exact ih h hrest
      · cases h

end Inversion

end WaslaCore.Money
