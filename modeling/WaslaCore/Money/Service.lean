import WaslaCore.Store

/-!
The money service. Each operation reads first, decides, and stages its writes,
its event and its audit entry on a unit of work that commits them together.
Every `←` is an `await` at which other calls may act.
-/

namespace WaslaCore.Money

open WaslaCore.Platform WaslaCore.Interleaving

/-! ### The repository port -/

def getWallet (walletId : String) : Call (Option Wallet) := read (.getWallet walletId)

def findWallet (ownerType : WalletOwnerType) (ownerId currency : String) :
    Call (Option Wallet) := read (.findWallet ownerType ownerId currency)

def getAuthorization (authorizationId : String) : Call (Option PaymentAuthorization) :=
  read (.getAuthorization authorizationId)

def findAuthorizationByReference (reference : String) : Call (Option PaymentAuthorization) :=
  read (.findAuthorizationByReference reference)

def listAuthorizations (walletId : String) : Call (List PaymentAuthorization) :=
  read (.listAuthorizations walletId)

def allAuthorizations : Call (List PaymentAuthorization) := read .allAuthorizations

def findTransactionByReference (reference : String) : Call (Option LedgerTransaction) :=
  read (.findTransactionByReference reference)

def transactions : Call (List LedgerTransaction) := read .transactions

/-! ### Checks and values shared by the operations -/

/-- `Number.MAX_SAFE_INTEGER`. -/
def maxSafeInteger : Int := 9007199254740991

def assertAmount (amount : Int) : Except Thrown Unit :=
  if 0 < amount ∧ amount ≤ maxSafeInteger then .ok ()
  else .error (invalid "amount_minor must be a positive integer")

theorem assertAmount_ok {amount : Int} (h : assertAmount amount = .ok ()) : 0 < amount := by
  unfold assertAmount at h
  split at h
  · rename_i hamount
    exact hamount.1
  · cases h

def requireWallet (walletId : String) : Call Wallet := do
  settled (assertId "wallet_id" walletId)
  match ← getWallet walletId with
  | none => throw (notFound "wallet not found")
  | some wallet => pure wallet

/-- An error of a pure check as the exception it is thrown as. -/
def checked {β : Type} : Except String β → Call β
  | .ok value => .done value
  | .error message => .fail (.other message)

/-- The two legs of a movement between accounts. -/
def legs (transactionId currency creditAccount debitAccount : String) (amount : Int) :
    List LedgerEntry :=
  [⟨transactionId, creditAccount, amount, currency⟩,
    ⟨transactionId, debitAccount, -amount, currency⟩]

def transaction (kind : LedgerKind) (reference currency creditAccount debitAccount : String)
    (amount : Int) (authorizationId : Option String) : Call LedgerTransaction := do
  let transactionId ← newId
  let entries := legs transactionId currency creditAccount debitAccount amount
  checked (assertBalanced entries)
  let occurredAt ← clock
  pure
    { transactionId := transactionId
      kind := kind
      businessReference := reference
      authorizationId := authorizationId
      occurredAt := occurredAt
      entries := entries }

def moneyAudit (action entityId : String) (amount : Int) (currency : String) : AuditEntry :=
  ⟨action, "money", entityId, [("amount_minor", .number amount), ("currency", .text currency)]⟩

/-! ### Wallets and balances -/

structure CreateWalletInput where
  ownerType : WalletOwnerType
  ownerId : String
  currency : String

def stageWallet (uow : Work) (wallet : Wallet) : Work :=
  (uow.stage [.money (.insertWallet wallet)]).audit
    ⟨"wallet.created", "wallet", wallet.walletId,
      [("owner_type", .text wallet.ownerType.text), ("owner_id", .text wallet.ownerId),
        ("currency", .text wallet.currency)]⟩

def createWallet (input : CreateWalletInput) : Call (Wallet × Bool) := do
  settled (assertId "owner_id" input.ownerId)
  match normalizeCurrency input.currency with
  | .error message => throw (invalid message)
  | .ok currency =>
      match ← findWallet input.ownerType input.ownerId currency with
      | some existing => pure (existing, false)
      | none =>
          let walletId ← newId
          let createdAt ← clock
          let wallet : Wallet :=
            ⟨walletId, input.ownerType, input.ownerId, currency, .active, createdAt⟩
          withTransaction (fun uow => pure (stageWallet uow wallet, ()))
          pure (wallet, true)

structure Balance where
  postedMinor : Int
  heldMinor : Int
  availableMinor : Int
  expiredHoldMinor : Int
  deriving DecidableEq, Repr

/-- What the rows read say about one wallet. A hold counts for what remains of
it, and only until it expires. -/
def balanceOf (walletId : String) (ledger : List LedgerTransaction)
    (authorizations : List PaymentAuthorization) (now : Int) : Balance :=
  let posted :=
    (((ledger.flatMap LedgerTransaction.entries).filter
      (fun entry => entry.accountReference = walletAccount walletId)).map
        LedgerEntry.amountMinor).sum
  let opened := authorizations.filter (fun item => item.status = .authorized)
  let held := ((opened.filter (fun item => !isExpired now item)).map remainingHold).sum
  let expired := ((opened.filter (fun item => isExpired now item)).map remainingHold).sum
  ⟨posted, held, posted - held, expired⟩

def balance (walletId : String) : Call Balance := do
  let wallet ← requireWallet walletId
  let ledger ← transactions
  let authorizations ← listAuthorizations wallet.walletId
  let now ← clock
  pure (balanceOf wallet.walletId ledger authorizations now)

/-! ### Credit -/

structure CreditInput where
  walletId : String
  amountMinor : Int
  businessReference : String

def stageCredit (uow : Work) (wallet : Wallet) (amount : Int) (moved : LedgerTransaction) : Work :=
  ((uow.stage [.money (.insertTransaction moved)]).emit
    ⟨"core.money.credited", "wallet", wallet.walletId,
      [("wallet_id", .text wallet.walletId), ("transaction_id", .text moved.transactionId),
        ("amount_minor", .number amount), ("currency", .text wallet.currency),
        ("business_reference", .text moved.businessReference)]⟩).audit
    (moneyAudit "wallet.credited" wallet.walletId amount wallet.currency)

def credit (input : CreditInput) : Call LedgerTransaction := do
  let wallet ← requireWallet input.walletId
  settled (assertAmount input.amountMinor)
  match ← findTransactionByReference input.businessReference with
  | some existing => pure existing
  | none =>
      let moved ← transaction .credit input.businessReference wallet.currency
        (walletAccount wallet.walletId) "clearing:external" input.amountMinor none
      withTransaction (fun uow => pure (stageCredit uow wallet input.amountMinor moved, ()))
      pure moved

/-! ### Authorize -/

/-- `expires_at` as a caller may send it. -/
inductive ExpiresAt where
  | absent
  | at (instant : Int)
  | malformed
  deriving DecidableEq, Repr

structure AuthorizeInput where
  walletId : String
  amountMinor : Int
  businessReference : String
  expiresAt : ExpiresAt

def expiry (now : Int) : ExpiresAt → Except Thrown (Option Int)
  | .absent => .ok none
  | .malformed => .error (invalid "expires_at must be a valid timestamp")
  | .at instant =>
      if instant ≤ now then .error (invalid "expires_at must be in the future")
      else .ok (some instant)

def stageAuthorize (uow : Work) (authorization : PaymentAuthorization) : Work :=
  ((uow.stage [.money (.insertAuthorization authorization)]).emit
    ⟨"core.payment.authorized", "payment_authorization", authorization.authorizationId,
      [("authorization_id", .text authorization.authorizationId),
        ("wallet_id", .text authorization.walletId),
        ("amount_minor", .number authorization.amountMinor),
        ("currency", .text authorization.currency),
        ("business_reference", .text authorization.businessReference)]⟩).audit
    (moneyAudit "payment.authorization.created" authorization.authorizationId
      authorization.amountMinor authorization.currency)

/-- The hold a successful `authorize` inserts. -/
def newAuthorization (authorizationId : String) (wallet : Wallet) (input : AuthorizeInput)
    (createdAt : Int) (expiresAt : Option Int) : PaymentAuthorization :=
  { authorizationId := authorizationId
    walletId := wallet.walletId
    amountMinor := input.amountMinor
    capturedMinor := 0
    refundedMinor := 0
    currency := wallet.currency
    status := .authorized
    businessReference := input.businessReference
    createdAt := createdAt
    capturedAt := none
    voidedAt := none
    expiresAt := expiresAt
    voidReason := none }

def authorize (input : AuthorizeInput) : Call PaymentAuthorization := do
  let wallet ← requireWallet input.walletId
  settled (assertAmount input.amountMinor)
  match ← findAuthorizationByReference input.businessReference with
  | some existing => pure existing
  | none =>
      if wallet.status ≠ .active then throw (conflict "wallet is not active")
      else
        let current ← balance wallet.walletId
        if current.availableMinor < input.amountMinor then
          throw (conflict "insufficient available balance")
        else
          let authorizationId ← newId
          let createdAt ← clock
          let now ← clock
          let expiresAt ← settled (expiry now input.expiresAt)
          let authorization := newAuthorization authorizationId wallet input createdAt expiresAt
          withTransaction (fun uow => pure (stageAuthorize uow authorization, ()))
          pure authorization

/-! ### Capture -/

structure CaptureInput where
  authorizationId : String
  amountMinor : Option Int
  captureReference : Option String

/-- The caller's key, where it sent one that is not empty. -/
def CaptureInput.key (input : CaptureInput) : Option String :=
  input.captureReference.filter (fun reference => !reference.isEmpty)

/-- The ledger reference of a full capture, which no caller keys. -/
def fullCaptureReference (authorizationId : String) : String := "capture:" ++ authorizationId

def captureLedgerReference (authorizationId : String) : Option String → String
  | none => fullCaptureReference authorizationId
  | some reference => "capture:" ++ authorizationId ++ ":" ++ reference

/-- The amount a capture moves, or why it is refused. -/
def captureAmount (now : Int) (authorization : PaymentAuthorization) (input : CaptureInput) :
    Except Thrown Int :=
  if authorization.status ≠ .authorized then .error (conflict "authorization cannot be captured")
  else if isExpired now authorization then
    .error (conflict "authorization has expired and can only be voided")
  else
    let remaining := remainingHold authorization
    let requested := input.amountMinor.getD remaining
    match assertAmount requested with
    | .error refusal => .error refusal
    | .ok () =>
        if requested < remaining ∧ input.key = none then
          .error (invalid "capture_reference is required when capturing less than the remaining hold")
        else if requested > remaining then
          .error (conflict ("capture of " ++ toString requested ++
            " exceeds the remaining hold of " ++ toString remaining))
        else .ok requested

/-- The hold as a capture leaves it. -/
def capturedRow (authorization : PaymentAuthorization) (requested closedAt : Int) :
    PaymentAuthorization :=
  let capturedTotal := authorization.capturedMinor + requested
  let closes := capturedTotal = authorization.amountMinor
  { authorization with
    capturedMinor := capturedTotal
    status := if closes then .captured else .authorized
    capturedAt := if closes then some closedAt else authorization.capturedAt }

def stageCapture (uow : Work) (authorization : PaymentAuthorization) (wallet : Wallet)
    (requested closedAt : Int) (moved : LedgerTransaction) : Work :=
  let updated := capturedRow authorization requested closedAt
  ((uow.stage [.money (.updateAuthorization updated), .money (.insertTransaction moved)]).emit
    ⟨"core.payment.captured", "payment_authorization", authorization.authorizationId,
      [("authorization_id", .text authorization.authorizationId),
        ("wallet_id", .text wallet.walletId), ("transaction_id", .text moved.transactionId),
        ("amount_minor", .number requested), ("captured_minor", .number updated.capturedMinor),
        ("remaining_minor", .number (updated.amountMinor - updated.capturedMinor)),
        ("currency", .text authorization.currency),
        ("business_reference", .text authorization.businessReference)]⟩).audit
    (moneyAudit "payment.authorization.captured" authorization.authorizationId requested
      authorization.currency)

/-- The ledger leg of a capture and the hold as it now stands. -/
structure Captured where
  transaction : LedgerTransaction
  authorization : PaymentAuthorization

/-- The one capture implementation. The ledger answers a retry before anything
else is considered, with the hold as this call read it. -/
def applyCaptureWithin (uow : Work) (input : CaptureInput) : Call (Work × Captured) := do
  settled (assertId "authorization_id" input.authorizationId)
  match ← getAuthorization input.authorizationId with
  | none => throw (notFound "payment authorization not found")
  | some authorization =>
      let reference := captureLedgerReference authorization.authorizationId input.key
      match ← findTransactionByReference reference with
      | some existing => pure (uow, ⟨existing, authorization⟩)
      | none =>
          let now ← clock
          let requested ← settled (captureAmount now authorization input)
          let wallet ← requireWallet authorization.walletId
          let moved ← transaction .capture reference authorization.currency clearingCaptured
            (walletAccount wallet.walletId) requested (some authorization.authorizationId)
          let closedAt ← clock
          pure (stageCapture uow authorization wallet requested closedAt moved,
            ⟨moved, capturedRow authorization requested closedAt⟩)

def captureWithin (uow : Work) (input : CaptureInput) : Call (Work × LedgerTransaction) := do
  let (uow, captured) ← applyCaptureWithin uow input
  pure (uow, captured.transaction)

/-- Captures and reports the hold rather than the ledger leg. -/
def captureHoldWithin (uow : Work) (input : CaptureInput) : Call (Work × PaymentAuthorization) := do
  let (uow, captured) ← applyCaptureWithin uow input
  pure (uow, captured.authorization)

def capture (input : CaptureInput) : Call LedgerTransaction :=
  withTransaction (fun uow => captureWithin uow input)

/-! ### Refund -/

structure RefundInput where
  authorizationId : String
  amountMinor : Option Int
  refundReference : String
  reason : String

def refundLedgerReference (authorizationId reference : String) : String :=
  "refund:" ++ authorizationId ++ ":" ++ trim reference

/-- The amount a refund returns, or why it is refused. -/
def refundAmount (authorization : PaymentAuthorization) (input : RefundInput) :
    Except Thrown Int :=
  let refundable := refundableAmount authorization
  if authorization.capturedMinor = 0 then
    .error (conflict "nothing has been captured on this authorization")
  else if refundable = 0 then
    .error (conflict "nothing refundable remains on this authorization")
  else
    let requested := input.amountMinor.getD refundable
    match assertAmount requested with
    | .error refusal => .error refusal
    | .ok () =>
        if requested > refundable then
          .error (conflict ("refund of " ++ toString requested ++
            " exceeds the refundable amount of " ++ toString refundable))
        else .ok requested

/-- The hold as a refund leaves it: its status is written back as it was read. -/
def refundedRow (authorization : PaymentAuthorization) (requested : Int) : PaymentAuthorization :=
  { authorization with refundedMinor := authorization.refundedMinor + requested }

def stageRefund (uow : Work) (authorization : PaymentAuthorization) (wallet : Wallet)
    (requested : Int) (reason : String) (moved : LedgerTransaction) : Work :=
  let updated := refundedRow authorization requested
  ((uow.stage [.money (.updateAuthorization updated), .money (.insertTransaction moved)]).emit
    ⟨"core.payment.refunded", "payment_authorization", authorization.authorizationId,
      [("authorization_id", .text authorization.authorizationId),
        ("wallet_id", .text wallet.walletId), ("transaction_id", .text moved.transactionId),
        ("amount_minor", .number requested), ("refunded_minor", .number updated.refundedMinor),
        ("captured_minor", .number authorization.capturedMinor),
        ("currency", .text authorization.currency),
        ("business_reference", .text authorization.businessReference),
        ("reason", .text (trim reason))]⟩).audit
    (moneyAudit "payment.authorization.refunded" authorization.authorizationId requested
      authorization.currency)

def refundWithin (uow : Work) (input : RefundInput) : Call (Work × LedgerTransaction) := do
  settled (assertId "authorization_id" input.authorizationId)
  if isBlank input.refundReference then throw (invalid "refund_reference is required")
  else if isBlank input.reason then throw (invalid "reason is required")
  else
    match ← getAuthorization input.authorizationId with
    | none => throw (notFound "payment authorization not found")
    | some authorization =>
        let reference := refundLedgerReference authorization.authorizationId input.refundReference
        match ← findTransactionByReference reference with
        | some existing => pure (uow, existing)
        | none =>
            let requested ← settled (refundAmount authorization input)
            let wallet ← requireWallet authorization.walletId
            let moved ← transaction .refund reference authorization.currency
              (walletAccount wallet.walletId) clearingCaptured requested
              (some authorization.authorizationId)
            pure (stageRefund uow authorization wallet requested input.reason moved, moved)

def refund (input : RefundInput) : Call LedgerTransaction :=
  withTransaction (fun uow => refundWithin uow input)

/-! ### Void and expiry -/

structure VoidInput where
  authorizationId : String
  reason : String

/-- The hold as a void leaves it. -/
def voidedRow (authorization : PaymentAuthorization) (reason : String) (voidedAt closedAt : Int) :
    PaymentAuthorization :=
  let moved := 0 < authorization.capturedMinor
  { authorization with
    status := if moved then .partiallyCaptured else .voided
    voidedAt := some voidedAt
    voidReason := some reason
    capturedAt := if moved then some closedAt else authorization.capturedAt }

def stageVoid (uow : Work) (authorization : PaymentAuthorization) (reason : String)
    (voidedAt closedAt : Int) : Work :=
  let released := remainingHold authorization
  let updated := voidedRow authorization reason voidedAt closedAt
  ((uow.stage [.money (.updateAuthorization updated)]).emit
    ⟨"core.payment.voided", "payment_authorization", updated.authorizationId,
      [("authorization_id", .text updated.authorizationId), ("wallet_id", .text updated.walletId),
        ("amount_minor", .number released), ("captured_minor", .number updated.capturedMinor),
        ("currency", .text updated.currency),
        ("business_reference", .text updated.businessReference), ("reason", .text reason)]⟩).audit
    (moneyAudit "payment.authorization.voided" updated.authorizationId released updated.currency)

def applyVoidWithin (uow : Work) (authorization : PaymentAuthorization) (reason : String) :
    Call (Work × PaymentAuthorization) := do
  let voidedAt ← clock
  let closedAt ← clock
  pure (stageVoid uow authorization reason voidedAt closedAt,
    voidedRow authorization reason voidedAt closedAt)

def voidWithin (uow : Work) (input : VoidInput) : Call (Work × PaymentAuthorization) := do
  settled (assertId "authorization_id" input.authorizationId)
  match ← getAuthorization input.authorizationId with
  | none => throw (notFound "payment authorization not found")
  | some authorization =>
      if authorization.status = .voided ∨ authorization.status = .partiallyCaptured then
        pure (uow, authorization)
      else if authorization.status = .captured then
        throw (conflict "a captured authorization cannot be voided")
      else if isBlank input.reason then throw (invalid "reason is required")
      else applyVoidWithin uow authorization (trim input.reason)

def voidAuthorization (input : VoidInput) : Call PaymentAuthorization :=
  withTransaction (fun uow => voidWithin uow input)

/-- One transaction per hold, each from the row the sweep read at its start. -/
def expireEach : List PaymentAuthorization → Call (List PaymentAuthorization)
  | [] => pure []
  | authorization :: rest => do
      let expired ← withTransaction (fun uow => applyVoidWithin uow authorization "expired")
      let others ← expireEach rest
      pure (expired :: others)

def expireDueAuthorizations : Call (List PaymentAuthorization) := do
  let authorizations ← allAuthorizations
  let now ← clock
  expireEach (authorizations.filter (fun authorization =>
    authorization.status = .authorized && isExpired now authorization))

/-! ### Requests -/

/-- Every operation of the service that can write. -/
inductive Request where
  | createWallet (input : CreateWalletInput)
  | credit (input : CreditInput)
  | authorize (input : AuthorizeInput)
  | capture (input : CaptureInput)
  | refund (input : RefundInput)
  | voidAuthorization (input : VoidInput)
  | expireDueAuthorizations

/-- A call whose answer goes to a client and to nobody else. -/
def answered {β : Type} (call : Call β) : Call Unit := call >>= fun _ => pure ()

def Request.call : Request → Call Unit
  | .createWallet input => answered (Money.createWallet input)
  | .credit input => answered (Money.credit input)
  | .authorize input => answered (Money.authorize input)
  | .capture input => answered (Money.capture input)
  | .refund input => answered (Money.refund input)
  | .voidAuthorization input => answered (Money.voidAuthorization input)
  | .expireDueAuthorizations => answered Money.expireDueAuthorizations

end WaslaCore.Money
