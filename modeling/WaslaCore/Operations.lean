import WaslaCore.Fulfillment.Service

/-!
What a commit of the two services can contain. Every unit of work they commit is
one movement of money followed by one step of coordination, either of which may
be nothing. The movement is computed from the hold as the call last read it, the
step from a fulfillment the call has read; both facts are about the call's own
history, so they hold whatever other calls do meanwhile.
-/

namespace WaslaCore

open Platform Interleaving

/-! ### What a call has read -/

/-- The holds an answer shows. -/
def rowsShown : ((action : Action) × action.Answer) → List Money.PaymentAuthorization
  | ⟨.read (.getAuthorization _), .ok (some row)⟩ => [row]
  | ⟨.read (.findAuthorizationByReference _), .ok (some row)⟩ => [row]
  | ⟨.read (.listAuthorizations _), .ok rows⟩ => rows
  | ⟨.read .allAuthorizations, .ok rows⟩ => rows
  | _ => []

/-- The fulfillments an answer shows. -/
def fulfillmentsShown : ((action : Action) × action.Answer) → List Fulfillment.Fulfillment
  | ⟨.read (.getFulfillment _), .ok (some row)⟩ => [row]
  | ⟨.read (.findByOrderReference _), .ok (some row)⟩ => [row]
  | _ => []

/-- The ledger transactions an answer found, each under the reference asked for. -/
def transactionsFound : ((action : Action) × action.Answer) →
    List (String × Money.LedgerTransaction)
  | ⟨.read (.findTransactionByReference reference), .ok (some found)⟩ => [(reference, found)]
  | _ => []

/-- Only a successful read shows anything. -/
theorem shown_nothing {entry : (action : Action) × action.Answer}
    (h : ∀ query answer, entry ≠ ⟨.read query, .ok answer⟩) :
    rowsShown entry = [] ∧ fulfillmentsShown entry = [] ∧ transactionsFound entry = [] := by
  obtain ⟨action, answer⟩ := entry
  cases action with
  | read query =>
      cases answer with
      | ok value => exact absurd rfl (h query value)
      | error error => cases query <;> exact ⟨rfl, rfl, rfl⟩
  | clock => exact ⟨rfl, rfl, rfl⟩
  | newId => exact ⟨rfl, rfl, rfl⟩
  | record entry => exact ⟨rfl, rfl, rfl⟩
  | commit uow => exact ⟨rfl, rfl, rfl⟩

def rowsRead (seen : Seen) : List Money.PaymentAuthorization := seen.flatMap rowsShown

def fulfillmentsRead (seen : Seen) : List Fulfillment.Fulfillment := seen.flatMap fulfillmentsShown

/-- The hold as the call last read it. -/
def lastRead (authorizationId : String) (seen : Seen) : Option Money.PaymentAuthorization :=
  ((rowsRead seen).filter (fun row => row.authorizationId = authorizationId)).getLast?

theorem lastRead_snoc (authorizationId : String) (seen : Seen)
    (entry : (action : Action) × action.Answer) :
    lastRead authorizationId (seen ++ [entry]) =
      (((rowsShown entry).filter
        (fun row => row.authorizationId = authorizationId)).getLast?).or
          (lastRead authorizationId seen) := by
  simp [lastRead, rowsRead, List.getLast?_append]

/-- An answer that shows no hold leaves what was last read as it was. -/
theorem lastRead_skip {entry : (action : Action) × action.Answer} (h : rowsShown entry = [])
    (authorizationId : String) (seen : Seen) :
    lastRead authorizationId (seen ++ [entry]) = lastRead authorizationId seen := by
  simp [lastRead_snoc, h]

/-- An answer that shows one hold makes it the one last read. -/
theorem lastRead_shown {entry : (action : Action) × action.Answer}
    {row : Money.PaymentAuthorization} (h : rowsShown entry = [row]) (seen : Seen) :
    lastRead row.authorizationId (seen ++ [entry]) = some row := by
  simp [lastRead_snoc, h]

theorem lastRead_mem {authorizationId : String} {seen : Seen} {row : Money.PaymentAuthorization}
    (h : lastRead authorizationId seen = some row) :
    row ∈ rowsRead seen ∧ row.authorizationId = authorizationId := by
  have hmember := List.mem_of_getLast? h
  simpa using hmember

theorem rowsRead_snoc {entry : (action : Action) × action.Answer} {row : Money.PaymentAuthorization}
    (h : row ∈ rowsShown entry) (seen : Seen) : row ∈ rowsRead (seen ++ [entry]) := by
  simp only [rowsRead, List.flatMap_append, List.mem_append, List.flatMap_singleton]
  exact .inr h

theorem fulfillmentsRead_snoc {entry : (action : Action) × action.Answer}
    {row : Fulfillment.Fulfillment} (h : row ∈ fulfillmentsShown entry) (seen : Seen) :
    row ∈ fulfillmentsRead (seen ++ [entry]) := by
  simp only [fulfillmentsRead, List.flatMap_append, List.mem_append, List.flatMap_singleton]
  exact .inr h

theorem rowsRead_later {seen later : Seen} (h : seen <+: later)
    {row : Money.PaymentAuthorization} (hrow : row ∈ rowsRead seen) : row ∈ rowsRead later := by
  obtain ⟨rest, rfl⟩ := h
  simp only [rowsRead, List.flatMap_append, List.mem_append]
  exact .inl hrow

theorem fulfillmentsRead_later {seen later : Seen} (h : seen <+: later)
    {row : Fulfillment.Fulfillment} (hrow : row ∈ fulfillmentsRead seen) :
    row ∈ fulfillmentsRead later := by
  obtain ⟨rest, rfl⟩ := h
  simp only [fulfillmentsRead, List.flatMap_append, List.mem_append]
  exact .inl hrow

/-- The call found this transaction under this reference. -/
def Found (seen : Seen) (reference : String) (transaction : Money.LedgerTransaction) : Prop :=
  (reference, transaction) ∈ seen.flatMap transactionsFound

theorem Found.snoc {entry : (action : Action) × action.Answer} {reference : String}
    {transaction : Money.LedgerTransaction}
    (h : (reference, transaction) ∈ transactionsFound entry) (seen : Seen) :
    Found (seen ++ [entry]) reference transaction := by
  simp only [Found, List.flatMap_append, List.mem_append, List.flatMap_singleton]
  exact .inr h

theorem Found.later {seen later : Seen} (h : seen <+: later) {reference : String}
    {transaction : Money.LedgerTransaction} (hfound : Found seen reference transaction) :
    Found later reference transaction := by
  obtain ⟨rest, rfl⟩ := h
  simp only [Found, List.flatMap_append, List.mem_append]
  exact .inl hfound

/-! ### Movements of money -/

namespace Money

/-- What one unit of work does to money. -/
inductive Movement where
  | none
  | createWallet (wallet : Wallet)
  | credit (wallet : Wallet) (amount : Int) (moved : LedgerTransaction)
  | authorize (authorization : PaymentAuthorization)
  | capture (authorization : PaymentAuthorization) (wallet : Wallet) (requested closedAt : Int)
      (moved : LedgerTransaction)
  | refund (authorization : PaymentAuthorization) (wallet : Wallet) (requested : Int)
      (reason : String) (moved : LedgerTransaction)
  | void (authorization : PaymentAuthorization) (reason : String) (voidedAt closedAt : Int)

/-- The unit of work with the movement staged on it. -/
def Movement.staged (uow : Work) : Movement → Work
  | .none => uow
  | .createWallet wallet => stageWallet uow wallet
  | .credit wallet amount moved => stageCredit uow wallet amount moved
  | .authorize authorization => stageAuthorize uow authorization
  | .capture authorization wallet requested closedAt moved =>
      stageCapture uow authorization wallet requested closedAt moved
  | .refund authorization wallet requested reason moved =>
      stageRefund uow authorization wallet requested reason moved
  | .void authorization reason voidedAt closedAt =>
      stageVoid uow authorization reason voidedAt closedAt

/-- A ledger transaction as the service builds it. -/
structure Built (moved : LedgerTransaction) (kind : LedgerKind)
    (currency creditAccount debitAccount : String) (amount : Int)
    (authorizationId : Option String) : Prop where
  kind_eq : moved.kind = kind
  entries_eq : moved.entries = legs moved.transactionId currency creditAccount debitAccount amount
  authorization_eq : moved.authorizationId = authorizationId

/-- The balance the call was told covers the hold. -/
def Covered (seen : Seen) (authorization : PaymentAuthorization) : Prop :=
  ∃ ledger rows now, ⟨.read .transactions, .ok ledger⟩ ∈ seen ∧
    ⟨.read (.listAuthorizations authorization.walletId), .ok rows⟩ ∈ seen ∧
    ⟨.clock, now⟩ ∈ seen ∧
    authorization.amountMinor ≤ (balanceOf authorization.walletId ledger rows now).availableMinor

/-- The hold had not expired when the call looked at the clock. -/
def Unexpired (seen : Seen) (authorization : PaymentAuthorization) : Prop :=
  ∃ now, ⟨.clock, now⟩ ∈ seen ∧ isExpired now authorization = false

theorem Covered.later {seen later : Seen} (h : seen <+: later) {row : PaymentAuthorization}
    (hcovered : Covered seen row) : Covered later row := by
  obtain ⟨ledger, rows, now, hledger, hrows, hclock, hfits⟩ := hcovered
  exact ⟨ledger, rows, now, h.subset hledger, h.subset hrows, h.subset hclock, hfits⟩

theorem Unexpired.later {seen later : Seen} (h : seen <+: later) {row : PaymentAuthorization}
    (hunexpired : Unexpired seen row) : Unexpired later row := by
  obtain ⟨now, hclock, hexpiry⟩ := hunexpired
  exact ⟨now, h.subset hclock, hexpiry⟩

/-- What a call that has `seen` its history may stage. -/
def Movement.Legal (seen : Seen) : Movement → Prop
  | .none => True
  | .createWallet _ => True
  | .credit wallet amount moved =>
      0 < amount ∧
        Built moved .credit wallet.currency (walletAccount wallet.walletId) "clearing:external"
          amount Option.none
  | .authorize authorization =>
      authorization.status = .authorized ∧ authorization.capturedMinor = 0 ∧
        authorization.refundedMinor = 0 ∧ 0 < authorization.amountMinor ∧
        Covered seen authorization
  | .capture authorization wallet requested _ moved =>
      lastRead authorization.authorizationId seen = some authorization ∧
        authorization.status = .authorized ∧ wallet.walletId = authorization.walletId ∧
        0 < requested ∧ requested ≤ remainingHold authorization ∧
        Built moved .capture authorization.currency clearingCaptured
          (walletAccount wallet.walletId) requested (some authorization.authorizationId) ∧
        Unexpired seen authorization ∧
        ∃ key, moved.businessReference = captureLedgerReference authorization.authorizationId key ∧
          (key = Option.none → requested = remainingHold authorization)
  | .refund authorization wallet requested _ moved =>
      lastRead authorization.authorizationId seen = some authorization ∧
        wallet.walletId = authorization.walletId ∧
        0 < requested ∧ requested ≤ refundableAmount authorization ∧
        Built moved .refund authorization.currency (walletAccount wallet.walletId)
          clearingCaptured requested (some authorization.authorizationId)
  | .void authorization _ _ _ =>
      lastRead authorization.authorizationId seen = some authorization ∧
        authorization.status = .authorized

/-- The hold a movement writes, as it was read. -/
def Movement.base : Movement → Option PaymentAuthorization
  | .capture authorization _ _ _ _ => some authorization
  | .refund authorization _ _ _ _ => some authorization
  | .void authorization _ _ _ => some authorization
  | _ => Option.none

def Movement.writes : Movement → List Write
  | .none => []
  | .createWallet wallet => [.insertWallet wallet]
  | .credit _ _ moved => [.insertTransaction moved]
  | .authorize authorization => [.insertAuthorization authorization]
  | .capture authorization _ requested closedAt moved =>
      [.updateAuthorization (capturedRow authorization requested closedAt),
        .insertTransaction moved]
  | .refund authorization _ requested _ moved =>
      [.updateAuthorization (refundedRow authorization requested), .insertTransaction moved]
  | .void authorization reason voidedAt closedAt =>
      [.updateAuthorization (voidedRow authorization reason voidedAt closedAt)]

/-- A movement that has a base writes that hold. -/
theorem Movement.base_writes {movement : Movement} {row : PaymentAuthorization}
    (h : movement.base = some row) :
    ∃ next, .updateAuthorization next ∈ movement.writes ∧
      next.authorizationId = row.authorizationId := by
  cases movement with
  | none => cases h
  | createWallet wallet => cases h
  | credit wallet amount moved => cases h
  | authorize authorization => cases h
  | capture authorization wallet requested closedAt moved =>
      obtain rfl := Option.some.inj h
      exact ⟨_, List.mem_cons_self, rfl⟩
  | refund authorization wallet requested reason moved =>
      obtain rfl := Option.some.inj h
      exact ⟨_, List.mem_cons_self, rfl⟩
  | void authorization reason voidedAt closedAt =>
      obtain rfl := Option.some.inj h
      exact ⟨_, List.mem_cons_self, rfl⟩

theorem Movement.staged_writes (movement : Movement) :
    (movement.staged UnitOfWork.empty).writes = movement.writes.map WaslaCore.Write.money := by
  cases movement <;> rfl

end Money

/-! ### Steps of coordination -/

namespace Fulfillment

open Money (Movement)

/-- What one unit of work does to a fulfillment. -/
inductive Coordination where
  | none
  | created (fulfillment : Fulfillment) (requestedService : String)
  | refused (fulfillment : Fulfillment) (capturedMinor : Option Int) (extra : Payload)
  | dispatched (current : Fulfillment) (payload : MoveJobAcceptedPayload)
  | closed (current closed : Fulfillment) (capturedMinor : Option Int) (action : String)
  | traced (current : Fulfillment) (jobId : String)
  | marked (cancelled : Fulfillment) (payload : MoveJobCompletedPayload)

def Coordination.staged (uow : Work) : Coordination → Work
  | .none => uow
  | .created fulfillment requestedService => stageCreated uow fulfillment requestedService
  | .refused fulfillment capturedMinor extra => stageRefused uow fulfillment capturedMinor extra
  | .dispatched current payload =>
      stageDispatched uow
        { current with moveJobReference := some payload.jobId, status := .dispatched } payload
  | .closed _ row capturedMinor action => stageClosed uow row capturedMinor action
  | .traced current jobId => stageTraced uow { current with moveJobReference := some jobId }
  | .marked cancelled payload => stageMarked uow cancelled payload

/-- How a closure came to say where the money is. Each case names the hold as
the call read it; only the last two leave the hold to another call. -/
inductive Outcome (seen : Seen) : Option String → SettlementOutcome → Movement → Prop where
  | unfunded : Outcome seen none ⟨.none, none⟩ .none
  | unsettled (hold : String) : Outcome seen (some hold) ⟨.unsettled, none⟩ .none
  | voided {row reason voidedAt closedAt}
      (hlegal : (Movement.void row reason voidedAt closedAt).Legal seen) :
      Outcome seen (some row.authorizationId)
        ⟨if 0 < row.capturedMinor then .partiallyCaptured else .released, some row.capturedMinor⟩
        (.void row reason voidedAt closedAt)
  | captured {row wallet requested closedAt moved}
      (hlegal : (Movement.capture row wallet requested closedAt moved).Legal seen)
      (hreference : moved.businessReference = Money.fullCaptureReference row.authorizationId) :
      Outcome seen (some row.authorizationId)
        ⟨if (Money.capturedRow row requested closedAt).status = .captured then .captured
          else .partiallyCaptured,
          some (Money.capturedRow row requested closedAt).capturedMinor⟩
        (.capture row wallet requested closedAt moved)
  | alreadyClosed {row} (hread : row ∈ rowsRead seen)
      (hclosed : row.status = .voided ∨ row.status = .partiallyCaptured) :
      Outcome seen (some row.authorizationId)
        ⟨if 0 < row.capturedMinor then .partiallyCaptured else .released, some row.capturedMinor⟩
        .none
  | alreadyCaptured {row} (hread : row ∈ rowsRead seen) (hcaptured : row.status = .captured) :
      Outcome seen (some row.authorizationId) ⟨.unsettled, some row.capturedMinor⟩ .none
  | replayed {row transaction} (hlast : lastRead row.authorizationId seen = some row)
      (hfound : Found seen (Money.fullCaptureReference row.authorizationId) transaction) :
      Outcome seen (some row.authorizationId)
        ⟨if row.status = .captured then .captured else .partiallyCaptured,
          some row.capturedMinor⟩ .none

/-- What a call that has `seen` its history may stage beside a movement. -/
def Coordination.Legal (seen : Seen) (movement : Movement) : Coordination → Prop
  | .none => True
  | .created fulfillment _ => fulfillment.status = .coordinating ∧ movement = .none
  | .refused fulfillment capturedMinor _ =>
      fulfillment.status = .failed ∧
        Outcome seen fulfillment.paymentAuthorizationId
          ⟨fulfillment.settlementState, capturedMinor⟩ movement
  | .dispatched current _ =>
      current ∈ fulfillmentsRead seen ∧ current.status = .coordinating ∧ movement = .none
  | .closed current row capturedMinor action =>
      current ∈ fulfillmentsRead seen ∧ isClosed current.status = false ∧
        row.fulfillmentId = current.fulfillmentId ∧
        row.paymentAuthorizationId = current.paymentAuthorizationId ∧
        isClosed row.status = true ∧
        action = (if row.status = .cancelled then "fulfillment.cancelled"
          else "fulfillment.closed") ∧
        Outcome seen row.paymentAuthorizationId ⟨row.settlementState, capturedMinor⟩ movement
  | .traced current _ =>
      current ∈ fulfillmentsRead seen ∧ current.status = .cancelled ∧ movement = .none
  | .marked cancelled _ =>
      cancelled ∈ fulfillmentsRead seen ∧ cancelled.status = .cancelled ∧ movement = .none

/-- The marker of an execution after cancellation. -/
def marker (row : Fulfillment) : Option Int × Option String :=
  (row.executedAfterCancellationAt, row.executedAfterCancellationJobReference)

/-- How a completion came to say that its hold paid: by a full capture of its own,
or by one the call found. -/
inductive Paid (seen : Seen) (hold : String) : Movement → Prop where
  | captured {row wallet requested closedAt moved} (hid : row.authorizationId = hold)
      (hreference : moved.businessReference = Money.fullCaptureReference hold) :
      Paid seen hold (.capture row wallet requested closedAt moved)
  | replayed {movement transaction}
      (hfound : Found seen (Money.fullCaptureReference hold) transaction) :
      Paid seen hold movement

/-- What the row of an intake or a closing is drawn from: an intake starts with no
job and no marker, a closing keeps the marker it read, either pairs its status
with a money state the schema allows, and a completion was paid by its hold. -/
def Coordination.Drawn (seen : Seen) (movement : Movement) : Coordination → Prop
  | .created row _ =>
      row.moveJobReference = Option.none ∧ marker row = (Option.none, Option.none) ∧
        settlementAligned row.status row.settlementState = true
  | .refused row _ _ =>
      row.moveJobReference = Option.none ∧ marker row = (Option.none, Option.none) ∧
        settlementAligned row.status row.settlementState = true
  | .closed current row _ _ =>
      (row.moveJobReference = current.moveJobReference ∨
          row.moveJobReference.isSome ∧ row.status ≠ .cancelled) ∧
        marker row = marker current ∧ settlementAligned row.status row.settlementState = true ∧
        (row.status = .completed → ∀ hold, row.paymentAuthorizationId = some hold →
          Paid seen hold movement)
  | _ => True

def Coordination.write : Coordination → List Write
  | .none => []
  | .created fulfillment _ => [.intake fulfillment]
  | .refused fulfillment _ _ => [.intake fulfillment]
  | .dispatched current payload =>
      [.transition { current with moveJobReference := some payload.jobId, status := .dispatched }
        [.coordinating]]
  | .closed _ row _ _ => [.transition row openStatuses]
  | .traced current jobId => [.update { current with moveJobReference := some jobId }]
  | .marked cancelled payload =>
      [.mark cancelled.fulfillmentId payload.completedAt payload.jobId]

theorem Coordination.staged_writes (uow : Work) (coordination : Coordination) :
    (coordination.staged uow).writes =
      uow.writes ++ coordination.write.map WaslaCore.Write.fulfillment := by
  cases coordination <;> simp [Coordination.staged, Coordination.write, stageCreated, stageRefused,
    stageDispatched, stageClosed, stageTraced, stageMarked]

/-- What a step of coordination emits and audits does not depend on the movement. -/
theorem Coordination.staged_events (uow : Work) (coordination : Coordination) :
    (coordination.staged uow).events =
      uow.events ++ (coordination.staged UnitOfWork.empty).events := by
  cases coordination <;> simp [Coordination.staged, stageCreated, stageRefused, stageDispatched,
    stageClosed, stageTraced, stageMarked, UnitOfWork.empty]

theorem Coordination.staged_audits (uow : Work) (coordination : Coordination) :
    (coordination.staged uow).audits =
      uow.audits ++ (coordination.staged UnitOfWork.empty).audits := by
  cases coordination <;> simp [Coordination.staged, stageCreated, stageRefused, stageDispatched,
    stageClosed, stageTraced, stageMarked, UnitOfWork.empty]

end Fulfillment

/-! ### The discipline of the two services -/

/-- One movement and one step of coordination. -/
structure Operation where
  movement : Money.Movement
  coordination : Fulfillment.Coordination

def Operation.staged (operation : Operation) : Work :=
  operation.coordination.staged (operation.movement.staged UnitOfWork.empty)

structure Operation.Legal (seen : Seen) (operation : Operation) : Prop where
  movement : operation.movement.Legal seen
  coordination : operation.coordination.Legal seen operation.movement
  drawn : operation.coordination.Drawn seen operation.movement

theorem Operation.staged_writes (operation : Operation) :
    operation.staged.writes =
      operation.movement.writes.map Write.money ++
        operation.coordination.write.map Write.fulfillment := by
  unfold Operation.staged
  rw [Fulfillment.Coordination.staged_writes, Money.Movement.staged_writes]

theorem Operation.staged_money (operation : Operation) :
    operation.staged.writes.filterMap Write.money? = operation.movement.writes := by
  rw [operation.staged_writes, List.filterMap_append, List.filterMap_map, List.filterMap_map]
  have hmoney : (Write.money? ∘ Write.money) = some := rfl
  have hother : (Write.money? ∘ Write.fulfillment) = fun _ => none := rfl
  rw [hmoney, hother]
  simp

theorem Operation.eventsOf_staged (operation : Operation) (eventType entityId : String) :
    eventsOf eventType entityId operation.staged.events =
      eventsOf eventType entityId (operation.movement.staged UnitOfWork.empty).events +
        eventsOf eventType entityId (operation.coordination.staged UnitOfWork.empty).events := by
  unfold Operation.staged
  rw [Fulfillment.Coordination.staged_events, eventsOf_append]

theorem Operation.entriesOf_staged (operation : Operation) (action entityId : String) :
    entriesOf action entityId operation.staged.audits =
      entriesOf action entityId (operation.movement.staged UnitOfWork.empty).audits +
        entriesOf action entityId (operation.coordination.staged UnitOfWork.empty).audits := by
  unfold Operation.staged
  rw [Fulfillment.Coordination.staged_audits, entriesOf_append]

/-- What every answer of the database satisfies. -/
def foreseen : (action : Action) → action.Answer → Prop
  | .read (.getWallet walletId), .ok (some wallet) => wallet.walletId = walletId
  | .read (.getAuthorization authorizationId), .ok (some row) =>
      row.authorizationId = authorizationId ∧ Money.WellShaped row
  | .read .allAuthorizations, .ok rows =>
      (rows.map Money.PaymentAuthorization.authorizationId).Nodup
  | .read (.getFulfillment fulfillmentId), .ok (some row) => row.fulfillmentId = fulfillmentId
  | .read (.findByOrderReference orderReference), .ok (some row) =>
      row.marketOrderReference = orderReference
  | .record _, .error error => ∃ message, error = .other message
  | .commit uow, .error (.intakeLost orderReference) =>
      ∃ row, .fulfillment (.intake row) ∈ uow.writes ∧ row.marketOrderReference = orderReference
  | _, _ => True

/-- A commit is the staged image of a legal operation, and the one audit entry
recorded on its own is the note of a void that failed. -/
def services : Discipline Action Action.Answer where
  told := foreseen
  owed := fun seen action =>
    match action with
    | .commit uow => ∃ operation : Operation, operation.Legal seen ∧ uow = operation.staged
    | .record entry => entry.action = "fulfillment.settlement_inconsistent"
    | _ => True

end WaslaCore
