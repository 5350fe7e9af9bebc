import Mathlib.Algebra.Ring.Int.Defs
import WaslaCore.Platform.Errors

/-!
The money module's rows and the amount rules that need no store: what is still
held, what can still be given back, and when a ledger transaction balances.
-/

namespace WaslaCore.Money

open WaslaCore.Platform

inductive WalletOwnerType where
  | identity
  | organization
  deriving DecidableEq, Repr

def WalletOwnerType.text : WalletOwnerType → String
  | .identity => "identity"
  | .organization => "organization"

inductive WalletStatus where
  | active
  | frozen
  | closed
  deriving DecidableEq, Repr

/-- `partiallyCaptured` is a hold whose remainder was released after part of it
moved: neither `captured` nor `voided` would say what happened. -/
inductive AuthorizationStatus where
  | authorized
  | captured
  | partiallyCaptured
  | voided
  deriving DecidableEq, Repr

structure Wallet where
  walletId : String
  ownerType : WalletOwnerType
  ownerId : String
  currency : String
  status : WalletStatus
  createdAt : Int
  deriving DecidableEq, Repr

/-- A hold. Instants are milliseconds; amounts are minor units. -/
structure PaymentAuthorization where
  authorizationId : String
  walletId : String
  amountMinor : Int
  capturedMinor : Int
  refundedMinor : Int
  currency : String
  status : AuthorizationStatus
  businessReference : String
  createdAt : Int
  capturedAt : Option Int
  voidedAt : Option Int
  expiresAt : Option Int
  voidReason : Option String
  deriving DecidableEq, Repr

structure LedgerEntry where
  transactionId : String
  accountReference : String
  amountMinor : Int
  currency : String
  deriving DecidableEq, Repr

inductive LedgerKind where
  | credit
  | capture
  | refund
  deriving DecidableEq, Repr

structure LedgerTransaction where
  transactionId : String
  kind : LedgerKind
  businessReference : String
  authorizationId : Option String
  occurredAt : Int
  entries : List LedgerEntry
  deriving DecidableEq, Repr

/-- The amount still reserved on a hold: zero once it is closed. -/
def remainingHold (authorization : PaymentAuthorization) : Int :=
  if authorization.status = .authorized then
    authorization.amountMinor - authorization.capturedMinor
  else 0

/-- What may still be given back on a hold. -/
def refundableAmount (authorization : PaymentAuthorization) : Int :=
  authorization.capturedMinor - authorization.refundedMinor

/-- Past its expiry a hold may only be voided. -/
def isExpired (now : Int) (authorization : PaymentAuthorization) : Bool :=
  match authorization.expiresAt with
  | none => false
  | some instant => instant ≤ now

def normalizeCurrency (value : String) : Except String String :=
  let currency := toUpperCase (trim value)
  if currency.toList.length = 3 && currency.toList.all (fun char => 'A' ≤ char && char ≤ 'Z') then
    .ok currency
  else .error "currency must be an ISO 4217 code"

/-- The account a wallet's own money is posted to. -/
def walletAccount (walletId : String) : String := "wallet:" ++ walletId

/-- The signed amount a transaction posts to one account. -/
def LedgerTransaction.posted (transaction : LedgerTransaction) (account : String) : Int :=
  (transaction.entries.map
    (fun entry => if entry.accountReference = account then entry.amountMinor else 0)).sum

def LedgerTransaction.sum (transaction : LedgerTransaction) : Int :=
  (transaction.entries.map LedgerEntry.amountMinor).sum

/-- The balance rule: at least two entries, one currency, a sum of zero. -/
def assertBalanced (entries : List LedgerEntry) : Except String Unit :=
  match entries with
  | [] => .error "ledger transaction requires at least two entries"
  | [_] => .error "ledger transaction requires at least two entries"
  | first :: rest =>
      if rest.any (fun entry => entry.currency ≠ first.currency) then
        .error "ledger transaction cannot mix currencies"
      else if (entries.map LedgerEntry.amountMinor).sum ≠ 0 then
        .error ("ledger transaction " ++ first.transactionId ++ " is not balanced")
      else .ok ()

theorem assertBalanced_sum {transaction : LedgerTransaction}
    (h : assertBalanced transaction.entries = .ok ()) : transaction.sum = 0 := by
  unfold LedgerTransaction.sum
  cases hentries : transaction.entries with
  | nil =>
      rw [hentries] at h
      cases h
  | cons first rest =>
      cases rest with
      | nil =>
          rw [hentries] at h
          cases h
      | cons second rest =>
          rw [hentries] at h
          simp only [assertBalanced] at h
          split at h
          · cases h
          · split at h
            · cases h
            · rename_i hsum
              simpa using hsum

/-- The status and the amounts are two statements about one fact. -/
def amountsMatchStatus (a : PaymentAuthorization) : Bool :=
  match a.status with
  | .authorized => a.capturedMinor < a.amountMinor
  | .captured => a.capturedMinor = a.amountMinor
  | .partiallyCaptured => 0 < a.capturedMinor && a.capturedMinor < a.amountMinor
  | .voided => a.capturedMinor = 0

/-- The row checks that relate a hold's status and its amounts. -/
def assertAuthorizationShape (a : PaymentAuthorization) : Except String Unit :=
  if a.capturedMinor < 0 || a.capturedMinor > a.amountMinor then
    .error "new row violates check constraint \"payment_authorization_capture_ceiling\""
  else if a.refundedMinor < 0 || a.refundedMinor > a.capturedMinor then
    .error "new row violates check constraint \"payment_authorization_refund_ceiling\""
  else if !amountsMatchStatus a then
    .error "new row violates check constraint \"payment_authorization_status_amounts\""
  else if (a.status = .voided || a.status = .partiallyCaptured) &&
      (a.voidReason.getD "").isEmpty then
    .error "new row violates check constraint \"payment_authorization_void_reason_required\""
  else .ok ()

/-- The relation between status and amounts that every stored hold has. -/
structure WellShaped (a : PaymentAuthorization) : Prop where
  refunded_nonneg : 0 ≤ a.refundedMinor
  refunded_le : a.refundedMinor ≤ a.capturedMinor
  captured_le : a.capturedMinor ≤ a.amountMinor
  matched : amountsMatchStatus a = true

theorem assertAuthorizationShape_ok {a : PaymentAuthorization}
    (h : assertAuthorizationShape a = .ok ()) : WellShaped a := by
  unfold assertAuthorizationShape at h
  split at h
  · cases h
  rename_i hcaptured
  split at h
  · cases h
  rename_i hrefunded
  split at h
  · cases h
  rename_i hmatched
  simp only [Bool.or_eq_true, decide_eq_true_eq, not_or, Int.not_lt, gt_iff_lt]
    at hcaptured hrefunded
  exact ⟨hrefunded.1, hrefunded.2, hcaptured.2, by simpa using hmatched⟩

namespace WellShaped

variable {a : PaymentAuthorization}

theorem captured_nonneg (h : WellShaped a) : 0 ≤ a.capturedMinor := by
  have := h.refunded_nonneg
  have := h.refunded_le
  omega

theorem authorized_lt (h : WellShaped a) (hstatus : a.status = .authorized) :
    a.capturedMinor < a.amountMinor := by
  have := h.matched
  rw [amountsMatchStatus, hstatus] at this
  exact of_decide_eq_true this

theorem captured_eq (h : WellShaped a) (hstatus : a.status = .captured) :
    a.capturedMinor = a.amountMinor := by
  have := h.matched
  rw [amountsMatchStatus, hstatus] at this
  exact of_decide_eq_true this

theorem partially_between (h : WellShaped a) (hstatus : a.status = .partiallyCaptured) :
    0 < a.capturedMinor ∧ a.capturedMinor < a.amountMinor := by
  have := h.matched
  rw [amountsMatchStatus, hstatus] at this
  simpa using this

theorem voided_zero (h : WellShaped a) (hstatus : a.status = .voided) : a.capturedMinor = 0 := by
  have := h.matched
  rw [amountsMatchStatus, hstatus] at this
  exact of_decide_eq_true this

end WellShaped

/-- A hold that can still change: the other statuses close it for good. -/
def AuthorizationStatus.isOpen : AuthorizationStatus → Bool
  | .authorized => true
  | _ => false

end WaslaCore.Money
