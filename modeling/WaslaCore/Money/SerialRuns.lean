import WaslaCore.Interleaving.Serial
import WaslaCore.Fulfillment.Losers
import WaslaCore.Money.Overdraft

/-!
The arithmetic of a wallet over serial runs. What a wallet has posted is what was
credited to it, less what its holds were captured for, plus what was refunded; the
legs of every currency add up to nothing; what it holds is what its open holds have
left. These stand in every run. That no wallet is overdrawn takes a serial run: what
a call decided on is then what its commit finds, but for the time that has passed.
-/

namespace WaslaCore.Money

open WaslaCore.Data WaslaCore.Platform WaslaCore.Interleaving

/-! ### The sums of one wallet -/

/-- The balance the rows give now. -/
def balanceNow (walletId : String) (db : Db) : Balance :=
  balanceOf walletId db.money.transactions (db.money.listAuthorizations walletId) db.now

/-- The part of a transaction that credits an account. -/
def LedgerTransaction.creditedTo (account : String) (transaction : LedgerTransaction) : Int :=
  if transaction.kind = .credit then transaction.posted account else 0

def credits (walletId : String) (db : Db) : Int :=
  db.money.ledger.total (LedgerTransaction.creditedTo (walletAccount walletId))

/-- An amount of the holds of one wallet. -/
def ofWallet (walletId : String) (amount : PaymentAuthorization → Int) (row : PaymentAuthorization) :
    Int :=
  if row.walletId = walletId then amount row else 0

def captures (walletId : String) (db : Db) : Int :=
  db.money.authorizations.total (ofWallet walletId PaymentAuthorization.capturedMinor)

def refunds (walletId : String) (db : Db) : Int :=
  db.money.authorizations.total (ofWallet walletId PaymentAuthorization.refundedMinor)

/-- What the holds of a wallet still in status authorized have not captured. -/
def uncaptured (walletId : String) (db : Db) : Int :=
  db.money.authorizations.total (ofWallet walletId (fun row =>
    if row.status = .authorized then row.amountMinor - row.capturedMinor else 0))

/-- The legs of one currency over the whole ledger. -/
def legsOf (currency : String) (db : Db) : Int :=
  (((db.money.transactions.flatMap LedgerTransaction.entries).filter
    (fun entry => entry.currency = currency)).map LedgerEntry.amountMinor).sum

/-- The legs of one currency of one transaction. -/
def LedgerTransaction.inCurrency (currency : String) (transaction : LedgerTransaction) : Int :=
  ((transaction.entries.filter (fun entry => entry.currency = currency)).map
    LedgerEntry.amountMinor).sum

theorem postedMinor_eq (walletId : String) (db : Db) :
    (balanceNow walletId db).postedMinor =
      db.money.ledger.total (fun transaction => transaction.posted (walletAccount walletId)) := by
  have hledger := (List.perm_insertionSort
    (olderFirst LedgerTransaction.occurredAt LedgerTransaction.transactionId)
    db.money.ledger.values).map (fun transaction => transaction.posted (walletAccount walletId))
  unfold balanceNow balanceOf Store.transactions
  dsimp only
  rw [posted_sum, hledger.sum_eq]
  rfl

theorem legsOf_eq (currency : String) (db : Db) :
    legsOf currency db = db.money.ledger.total (LedgerTransaction.inCurrency currency) := by
  have hledger := (List.perm_insertionSort
    (olderFirst LedgerTransaction.occurredAt LedgerTransaction.transactionId)
    db.money.ledger.values).map (LedgerTransaction.inCurrency currency)
  have hentries : ∀ ledger : List LedgerTransaction,
      (((ledger.flatMap LedgerTransaction.entries).filter
        (fun entry => entry.currency = currency)).map LedgerEntry.amountMinor).sum =
        (ledger.map (LedgerTransaction.inCurrency currency)).sum := by
    intro ledger
    induction ledger with
    | nil => rfl
    | cons transaction rest ih =>
        rw [List.flatMap_cons, List.filter_append, List.map_append, List.sum_append, ih]
        rfl
  unfold legsOf Store.transactions
  rw [hentries, hledger.sum_eq]
  rfl

/-- Open holds count for what they have left, expired or not. -/
theorem held_and_expired (walletId : String) (db : Db) :
    (balanceNow walletId db).heldMinor + (balanceNow walletId db).expiredHoldMinor =
      uncaptured walletId db := by
  have hrows := List.perm_insertionSort
    (olderFirst PaymentAuthorization.createdAt PaymentAuthorization.authorizationId)
    (db.money.authorizations.values.filter (fun item => item.walletId = walletId))
  have hsplit : ∀ rows : List PaymentAuthorization,
      (((rows.filter (fun item => item.status = .authorized)).filter
          (fun item => !isExpired db.now item)).map remainingHold).sum +
        (((rows.filter (fun item => item.status = .authorized)).filter
          (fun item => isExpired db.now item)).map remainingHold).sum =
        (rows.map (fun row =>
          if row.status = .authorized then row.amountMinor - row.capturedMinor else 0)).sum := by
    intro rows
    induction rows with
    | nil => rfl
    | cons row rest ih =>
        by_cases hstatus : row.status = .authorized
        · have hremaining : remainingHold row = row.amountMinor - row.capturedMinor :=
            if_pos hstatus
          by_cases hexpired : isExpired db.now row = true
          · simp [hstatus, hexpired, hremaining, ← ih, -List.filter_filter]
            omega
          · simp [hstatus, hexpired, hremaining, ← ih, -List.filter_filter]
            omega
        · simpa [hstatus] using ih
  have hwallet : ∀ rows : List PaymentAuthorization,
      ((rows.filter (fun item => item.walletId = walletId)).map (fun row =>
        if row.status = .authorized then row.amountMinor - row.capturedMinor else 0)).sum =
        (rows.map (ofWallet walletId (fun row =>
          if row.status = .authorized then row.amountMinor - row.capturedMinor else 0))).sum := by
    intro rows
    induction rows with
    | nil => rfl
    | cons row rest ih =>
        by_cases hid : row.walletId = walletId
        · simp [hid, ofWallet, ih]
        · simp [hid, ofWallet, ih]
  unfold balanceNow balanceOf Store.listAuthorizations
  dsimp only
  rw [hsplit, (hrows.map _).sum_eq, hwallet]
  rfl

/-! ### Accounts as a law -/

/-- What is posted is accounted for, and no currency gains or loses. -/
structure Accounted (db : Db) : Prop where
  posted : ∀ walletId, (balanceNow walletId db).postedMinor =
    credits walletId db - captures walletId db + refunds walletId db
  legs : ∀ currency, legsOf currency db = 0

theorem built_inCurrency {moved : LedgerTransaction} {kind : LedgerKind}
    {currency creditAccount debitAccount : String} {amount : Int} {authorizationId : Option String}
    (hbuilt : Built moved kind currency creditAccount debitAccount amount authorizationId)
    (other : String) : moved.inCurrency other = 0 := by
  unfold LedgerTransaction.inCurrency
  rw [hbuilt.entries_eq]
  by_cases hcurrency : currency = other
  · simp [legs, hcurrency]
  · simp [legs, hcurrency]

section Landed

variable {seen : Seen} {operation : Operation} {db db' : Db}

/-- A built transaction posts to a wallet what it changes of the wallet's sums. -/
theorem accounted_moved (haccounted : Accounted db) {moved : LedgerTransaction} {kind : LedgerKind}
    {currency creditAccount debitAccount : String} {amount : Int} {authorizationId : Option String}
    (hbuilt : Built moved kind currency creditAccount debitAccount amount authorizationId)
    (hfresh : db.money.ledger.get moved.transactionId = none)
    (hledger : db'.money.ledger = db.money.ledger.put moved.transactionId moved)
    (hholds : ∀ walletId, moved.posted (walletAccount walletId) =
      moved.creditedTo (walletAccount walletId) - (captures walletId db' - captures walletId db) +
        (refunds walletId db' - refunds walletId db)) : Accounted db' := by
  constructor
  · intro walletId
    have hbefore := haccounted.posted walletId
    have hsums := hholds walletId
    rw [postedMinor_eq, credits] at hbefore ⊢
    rw [hledger, Table.total_put_new _ _ hfresh, Table.total_put_new _ _ hfresh]
    omega
  · intro other
    have hbefore := haccounted.legs other
    rw [legsOf_eq] at hbefore ⊢
    rw [hledger, Table.total_put_new _ _ hfresh, built_inCurrency hbuilt, hbefore]
    rfl

/-- Nothing posted and no amount changed. -/
theorem accounted_unmoved (haccounted : Accounted db)
    (hledger : db'.money.ledger = db.money.ledger)
    (hcaptures : ∀ walletId, captures walletId db' = captures walletId db)
    (hrefunds : ∀ walletId, refunds walletId db' = refunds walletId db) : Accounted db' := by
  constructor
  · intro walletId
    have hbefore := haccounted.posted walletId
    rw [postedMinor_eq, credits] at hbefore ⊢
    rw [hledger, hcaptures, hrefunds, hbefore]
  · intro currency
    rw [legsOf_eq, hledger, ← legsOf_eq]
    exact haccounted.legs currency

/-- A rewritten hold changes the amounts of its wallet by its own difference. -/
theorem rewritten_ofWallet {store store' : Store} {stored next : PaymentAuthorization}
    (hrow : Rewritten store store' stored next) (walletId : String)
    (amount : PaymentAuthorization → Int) :
    store'.authorizations.total (ofWallet walletId amount) =
      store.authorizations.total (ofWallet walletId amount) +
        if stored.walletId = walletId then amount (stored.revise next) - amount stored else 0 := by
  rw [hrow.row, Table.total_put_old _ _ hrow.stored_eq]
  unfold ofWallet
  by_cases hwallet : stored.walletId = walletId
  · have hnext : (stored.revise next).walletId = walletId := hwallet
    rw [if_pos hwallet, if_pos hnext, if_pos hwallet]
    omega
  · have hnext : (stored.revise next).walletId ≠ walletId := hwallet
    rw [if_neg hwallet, if_neg hnext, if_neg hwallet]
    omega

theorem accounted_commit (h : Commit seen operation db db') (haccounted : Accounted db) :
    Accounted db' := by
  have hlegal := h.legal.movement
  have heffect := h.effect
  have hbase := @Commit.base _ _ _ _ h
  have hagree := h.before.money
  have hagree' := h.after.money
  generalize operation.movement = movement at hlegal heffect hbase
  -- the hold a movement rewrites belongs to the wallet the movement posts to
  have howner : ∀ {row stored : PaymentAuthorization}, movement.base = some row →
      db.money.authorizations.get row.authorizationId = some stored →
      stored.walletId = row.walletId := by
    intro row stored hrow hstored
    obtain ⟨found, hfound, hsame⟩ := hbase hrow
    rw [hstored] at hfound
    exact Option.some.inj hfound ▸ hsame.walletId
  cases heffect with
  | unmoved _ hholds hledger =>
      exact accounted_unmoved haccounted hledger (fun _ => by rw [captures, hholds, captures])
        (fun _ => by rw [refunds, hholds, refunds])
  | missed _ hholds hledger =>
      exact accounted_unmoved haccounted hledger (fun _ => by rw [captures, hholds, captures])
        (fun _ => by rw [refunds, hholds, refunds])
  | credited hfresh hholds hledger =>
      obtain ⟨-, hbuilt⟩ := hlegal
      refine accounted_moved haccounted hbuilt hfresh hledger (fun walletId => ?_)
      rw [captures, hholds, captures, refunds, hholds, refunds, LedgerTransaction.creditedTo,
        if_pos hbuilt.kind_eq]
      omega
  | @authorized row hfresh hholds hledger =>
      obtain ⟨-, hcaptured, hrefunded, -⟩ := hlegal
      have hnothing : ∀ walletId, ofWallet walletId PaymentAuthorization.capturedMinor row = 0 ∧
          ofWallet walletId PaymentAuthorization.refundedMinor row = 0 := by
        intro walletId
        simp [ofWallet, hcaptured, hrefunded]
      refine accounted_unmoved haccounted hledger (fun walletId => ?_) (fun walletId => ?_)
      · rw [captures, hholds, Table.total_put_new _ _ hfresh, (hnothing walletId).1, captures]
        omega
      · rw [refunds, hholds, Table.total_put_new _ _ hfresh, (hnothing walletId).2, refunds]
        omega
  | @captured row wallet requested closedAt moved stored hrow hfresh hledger =>
      obtain ⟨-, -, hwallet, -, -, hbuilt, -⟩ := hlegal
      obtain ⟨hcaptured, hrefunded⟩ := rewritten_amounts hagree hagree' hrow hfresh hledger
      have hlegs : moved.capturedLeg row.authorizationId = requested ∧
        moved.refundedLeg row.authorizationId = 0 := capture_legs hbuilt
      have hstored := howner rfl hrow.stored_eq
      refine accounted_moved haccounted hbuilt hfresh hledger (fun walletId => ?_)
      have hkind : moved.creditedTo (walletAccount walletId) = 0 :=
        if_neg (by rw [hbuilt.kind_eq]; rintro ⟨⟩)
      rw [posted_capture hbuilt walletId, hkind, captures, captures, refunds, refunds,
        rewritten_ofWallet hrow, rewritten_ofWallet hrow, hstored, hwallet]
      simp only [PaymentAuthorization.revise, hcaptured, hrefunded]
      simp only [capturedRow, hlegs]
      split <;> omega
  | @refunded row wallet requested reason moved stored hrow hfresh hledger =>
      obtain ⟨-, hwallet, -, -, hbuilt⟩ := hlegal
      obtain ⟨hcaptured, hrefunded⟩ := rewritten_amounts hagree hagree' hrow hfresh hledger
      have hleg : moved.refundedLeg row.authorizationId = requested := refundedLeg_refund hbuilt
      have hstored := howner rfl hrow.stored_eq
      refine accounted_moved haccounted hbuilt hfresh hledger (fun walletId => ?_)
      have hkind : moved.creditedTo (walletAccount walletId) = 0 :=
        if_neg (by rw [hbuilt.kind_eq]; rintro ⟨⟩)
      have hposted := posted_credit hbuilt (fun other => (walletAccount_ne_clearing other).1) walletId
      rw [hposted, hkind, captures, captures, refunds, refunds, rewritten_ofWallet hrow,
        rewritten_ofWallet hrow, hstored, hwallet]
      simp only [PaymentAuthorization.revise, hcaptured, hrefunded,
        capturedLeg_refund hbuilt.kind_eq]
      simp only [refundedRow, hleg]
      split <;> omega
  | @voided row reason voidedAt closedAt stored hrow hledger =>
      have hcaptured := hagree'.captured _ _ hrow.get_self
      have hrefunded := hagree'.refunded _ _ hrow.get_self
      rw [Store.ledgerCaptured, hledger, ← Store.ledgerCaptured,
        ← hagree.captured _ _ hrow.stored_eq] at hcaptured
      rw [Store.ledgerRefunded, hledger, ← Store.ledgerRefunded,
        ← hagree.refunded _ _ hrow.stored_eq] at hrefunded
      refine accounted_unmoved haccounted hledger (fun walletId => ?_) (fun walletId => ?_)
      · rw [captures, rewritten_ofWallet hrow, hcaptured, captures]
        split <;> omega
      · rw [refunds, rewritten_ofWallet hrow, hrefunded, refunds]
        split <;> omega

end Landed

/-- The accounts of all wallets, as a law of the database. -/
def accounts : Law where
  inv := Accounted
  guar := fun _ _ => True
  guar_refl := fun _ => trivial
  guar_trans := fun _ _ => trivial
  known := fun _ _ _ => True
  known_stable := fun _ _ => trivial

theorem accounts_holds : accounts.Holds anything where
  commit := fun h hinv _ _ => ⟨accounted_commit h hinv, trivial⟩
  record := fun _ hinv => ⟨⟨hinv.posted, hinv.legs⟩, trivial⟩
  tick := fun _ _ hinv => ⟨⟨hinv.posted, hinv.legs⟩, trivial⟩
  read := fun _ _ _ => trivial

/-! ### One commit, or voids -/

/-- A unit of work that only updates holds. -/
def Updates (uow : Work) : Prop :=
  ∀ write ∈ uow.writes, ∃ next, write = .money (.updateAuthorization next)

/-- A money call commits once; the sweep of expired holds commits one void after
another. -/
def firstOnly : Discipline Action Action.Answer where
  told := fun _ _ => True
  owed := fun seen action =>
    match action with
    | .commit uow => Unlanded seen ∨ Updates uow
    | _ => True

section Requests

variable {seen : Seen} {β γ : Type}

theorem firstOnly_commitless {call : Call β} (h : Commitless call) (seen : Seen) :
    Keeps firstOnly (fun later _ => SameCommits seen later) call seen := by
  have howed : ∀ seen action, ¬IsCommit action → firstOnly.owed seen action := by
    intro seen action hcommit
    cases action with
    | commit uow => exact absurd ⟨uow, rfl⟩ hcommit
    | read query => trivial
    | clock => trivial
    | newId => trivial
    | record entry => trivial
  apply (h.keeps howed seen).mono
  rintro later result ⟨rest, rfl, hrest⟩
  exact ⟨lost_append hrest, fun uow => landed_append hrest⟩

theorem firstOnly_after {call : Call β} {next : β → Call γ} (h : Unlanded seen)
    (hcall : Commitless call)
    (hnext : ∀ later value, Unlanded later → Keeps firstOnly (fun _ _ => True) (next value) later) :
    Keeps firstOnly (fun _ _ => True) (call >>= next) seen :=
  (firstOnly_commitless hcall seen).bind
    (fun later value hsame => hnext later value (fun uow hlanded =>
      h uow (hsame.landed uow hlanded)))
    (fun _ _ _ => trivial)

theorem firstOnly_commit {body : Work → Call (Work × β)} {next : β → Call γ} (h : Unlanded seen)
    (hbody : Commitless (body UnitOfWork.empty)) (hnext : ∀ value, Commitless (next value)) :
    Keeps firstOnly (fun _ _ => True) (withTransaction body >>= next) seen := by
  unfold withTransaction
  refine Keeps.bind (p := fun _ _ => True) ?_ ?_ (fun _ _ _ => trivial)
  · refine (firstOnly_commitless hbody seen).bind ?_ (fun _ _ _ => trivial)
    rintro later ⟨uow, value⟩ hsame
    refine ⟨.inl (fun other hlanded => h other (hsame.landed other hlanded)), fun answer _ => ?_⟩
    cases answer <;> trivial
  · intro later value _
    exact (firstOnly_commitless (hnext value) later).mono (fun _ _ _ => trivial)

theorem expireEach_updates (authorizations : List PaymentAuthorization) :
    Keeps firstOnly (fun _ _ => True) (expireEach authorizations) seen := by
  induction authorizations generalizing seen with
  | nil => trivial
  | cons authorization rest ih =>
      have hvoid : Keeps firstOnly (fun _ _ => True)
          (withTransaction (fun uow => applyVoidWithin uow authorization "expired")) seen := by
        refine ⟨trivial, fun voidedAt _ => ⟨trivial, fun closedAt _ => ⟨.inr ?_, fun answer _ => ?_⟩⟩⟩
        · intro write hwrite
          exact ⟨_, List.mem_singleton.mp hwrite⟩
        · cases answer <;> trivial
      refine hvoid.bind (fun later expired _ => ?_) (fun _ _ _ => trivial)
      exact ih.bind (fun _ _ _ => trivial) (fun _ _ _ => trivial)

theorem Request.commits_once (request : Request) : Keeps firstOnly anyEnd request.call [] := by
  have hnothing : Unlanded [] := by rintro uow ⟨⟩
  have hanswered : ∀ {β : Type} {call : Call β}, Keeps firstOnly (fun _ _ => True) call [] →
      Keeps firstOnly anyEnd (answered call) [] :=
    fun h => h.bind (fun _ _ _ => trivial) (fun _ _ _ => trivial)
  cases request with
  | createWallet input =>
      refine hanswered (firstOnly_after hnothing (commitless_settled _) (fun later _ hlater => ?_))
      cases normalizeCurrency input.currency with
      | error message => trivial
      | ok currency =>
          apply firstOnly_after hlater (commitless_read _)
          intro later (found : Option Wallet) hlater
          cases found with
          | some existing => trivial
          | none =>
              refine firstOnly_after hlater commitless_newId (fun later walletId hlater => ?_)
              refine firstOnly_after hlater commitless_clock (fun later createdAt hlater => ?_)
              exact firstOnly_commit hlater trivial (fun _ => trivial)
  | credit input =>
      refine hanswered (firstOnly_after hnothing (commitless_requireWallet _)
        (fun later wallet hlater => ?_))
      refine firstOnly_after hlater (commitless_settled _) (fun later _ hlater => ?_)
      apply firstOnly_after hlater (commitless_read _)
      intro later (found : Option LedgerTransaction) hlater
      cases found with
      | some existing => trivial
      | none =>
          refine firstOnly_after hlater (commitless_transaction _ _ _ _ _ _ _)
            (fun later moved hlater => ?_)
          exact firstOnly_commit hlater trivial (fun _ => trivial)
  | authorize input =>
      refine hanswered (firstOnly_after hnothing (commitless_requireWallet _)
        (fun later wallet hlater => ?_))
      refine firstOnly_after hlater (commitless_settled _) (fun later _ hlater => ?_)
      apply firstOnly_after hlater (commitless_read _)
      intro later (found : Option PaymentAuthorization) hlater
      cases found with
      | some existing => trivial
      | none =>
          dsimp only
          split
          · trivial
          refine firstOnly_after hlater (commitless_balance _) (fun later current hlater => ?_)
          split
          · trivial
          refine firstOnly_after hlater commitless_newId (fun later authorizationId hlater => ?_)
          refine firstOnly_after hlater commitless_clock (fun later createdAt hlater => ?_)
          refine firstOnly_after hlater commitless_clock (fun later now hlater => ?_)
          refine firstOnly_after hlater (commitless_settled _) (fun later expiresAt hlater => ?_)
          exact firstOnly_commit hlater trivial (fun _ => trivial)
  | capture input => exact firstOnly_commit hnothing (commitless_captureWithin _ _) (fun _ => trivial)
  | refund input => exact firstOnly_commit hnothing (commitless_refundWithin _ _) (fun _ => trivial)
  | voidAuthorization input =>
      exact firstOnly_commit hnothing (commitless_voidWithin _ _) (fun _ => trivial)
  | expireDueAuthorizations =>
      refine hanswered (firstOnly_after hnothing (commitless_read _) (fun later rows hlater => ?_))
      exact firstOnly_after hlater commitless_clock (fun later now _ => expireEach_updates _)

end Requests

/-! ### What a call alone finds at its commit -/

/-- A commit does not look at the clock. -/
theorem commit_at {db db' : Db} {uow : Work} (h : db.commit uow = .ok db') (now : Int) :
    ({ db with now := now } : Db).commit uow = .ok { db' with now := now } := by
  have hwrites : ∀ {writes : List WaslaCore.Write} {db written : Db},
      db.applyAll writes = .ok written →
      ({ db with now := now } : Db).applyAll writes = .ok { written with now := now } := by
    intro writes
    induction writes with
    | nil =>
        intro db written h
        obtain rfl := Except.ok.inj h
        rfl
    | cons write rest ih =>
        intro db written h
        simp only [Db.applyAll] at h
        split at h
        · rename_i next hnext
          have hstep : ({ db with now := now } : Db).apply write = .ok { next with now := now } := by
            rcases apply_ok hnext with ⟨money, write', rfl, hwrite, rfl⟩ |
              ⟨rows, write', rfl, hheld, hwrite, rfl⟩
            · simp only [Db.apply, hwrite]
            · have hfound : (referencedHold write').any
                  (fun hold => (db.money.getAuthorization hold).isNone) = false := by
                cases hhold : referencedHold write' with
                | none => rfl
                | some hold => simpa [Option.isSome_iff_ne_none] using hheld hold hhold
              simp only [Db.apply, hfound, hwrite]
              rfl
          simp only [Db.applyAll, hstep]
          exact ih h
        · cases h
  obtain ⟨written, hwritten, hverified, rfl⟩ := commit_ok h
  have hlogs := (applyAll_ok hwritten).2.2
  unfold Db.commit
  rw [hwrites hwritten]
  dsimp only
  rw [hverified, hlogs.1, hlogs.2]

theorem commit_then {seen : Seen} {operation : Operation} {db db' : Db}
    (h : Commit seen operation db db') (now : Int) :
    Commit seen operation { db with now := now } { db' with now := now } where
  before := ⟨h.before.money, h.before.wallets, h.before.ruled⟩
  after := ⟨h.after.money, h.after.wallets, h.after.ruled⟩
  recalled := fun entry hentry =>
    have hrecalled := h.recalled entry hentry
    ⟨hrecalled.holds, hrecalled.found, hrecalled.passed⟩
  legal := h.legal
  committed := commit_at h.committed now

/-- Since the call started, time alone has passed: its reads are what it would read
now, and no wallet was overdrawn at any instant it was told. -/
structure Undisturbed (seen : Seen) (db : Db) : Prop where
  clocks : ∀ now, ⟨.clock, now⟩ ∈ seen → now ≤ db.now ∧
    ∀ walletId, 0 ≤ available walletId { db with now := now }
  reads : ∀ query value, ⟨.read query, .ok value⟩ ∈ seen → value = query.eval db

section Alone

variable {seen : Seen} {operation : Operation} {db db' : Db}

/-- The hold a call alone read is the hold that is stored. -/
theorem Undisturbed.stored (h : Undisturbed seen db) (hagree : Agreement db.money)
    {row stored : PaymentAuthorization} {id : String} (hlast : lastRead id seen = some row)
    (hstored : db.money.authorizations.get row.authorizationId = some stored) : stored = row := by
  obtain ⟨⟨action, answer⟩, hentry, hshown⟩ := List.mem_flatMap.mp (lastRead_mem hlast).1
  have hmember : row ∈ db.money.authorizations.values := by
    by_cases hread : ∃ query value, (⟨action, answer⟩ : (action : Action) × action.Answer) =
        ⟨.read query, .ok value⟩
    · obtain ⟨query, value, heq⟩ := hread
      rw [heq] at hentry hshown
      exact shown_stored (h.reads query value hentry) hshown
    · rw [(shown_nothing (fun query value heq => hread ⟨query, value, heq⟩)).1] at hshown
      cases hshown
  obtain ⟨key, hkey⟩ := Table.mem_values.mp hmember
  rw [hagree.keyed key row hkey, hkey] at hstored
  exact (Option.some.inj hstored).symm

/-- The commit of a call alone overdraws no wallet. -/
theorem undisturbed_commit (h : Commit seen operation db db')
    (hcovered : ∀ walletId, 0 ≤ available walletId db)
    (hcall : Undisturbed seen db ∨ Updates operation.staged) (walletId : String) :
    0 ≤ available walletId db' := by
  have hbalance := hcovered walletId
  have hlegal := h.legal.movement
  have heffect := h.effect
  have hbase := @Commit.base _ _ _ _ h
  have hnow := commit_now h.committed
  have hagree := h.before.money
  have hupdates : Updates operation.staged → ∀ write ∈ operation.movement.writes,
      ∃ next, write = .updateAuthorization next := by
    intro hupdates write hwrite
    obtain ⟨next, hnext⟩ := hupdates (.money write) (by
      rw [operation.staged_writes]
      exact List.mem_append_left _ (List.mem_map_of_mem hwrite))
    exact ⟨next, WaslaCore.Write.money.inj hnext⟩
  generalize hmovement : operation.movement = movement at hlegal heffect hbase hupdates
  have hundisturbed : (∃ write ∈ movement.writes, ∀ next, write ≠ .updateAuthorization next) →
      Undisturbed seen db := by
    rintro ⟨write, hwrite, hother⟩
    refine hcall.resolve_right (fun hall => ?_)
    obtain ⟨next, hnext⟩ := hupdates hall write hwrite
    exact hother next hnext
  have hrecalled : ∀ {row stored : PaymentAuthorization}, movement.base = some row →
      db.money.authorizations.get row.authorizationId = some stored → SameHold stored row := by
    intro row stored hrow hstored
    obtain ⟨found, hfound, hsame⟩ := hbase hrow
    rw [hstored] at hfound
    exact Option.some.inj hfound ▸ hsame
  cases heffect with
  | unmoved _ hholds hledger => exact (unmoved_available h hholds hledger walletId).symm ▸ hbalance
  | missed _ hholds hledger => exact (unmoved_available h hholds hledger walletId).symm ▸ hbalance
  | credited hfresh hholds hledger =>
      exact hbalance.trans (credited_available h hlegal hfresh hholds hledger walletId)
  | @authorized row hfresh hholds hledger =>
      have hcall := hundisturbed ⟨_, List.mem_cons_self, by rintro next ⟨⟩⟩
      obtain ⟨-, -, -, -, ledger, rows, now, hread, hlist, hclock, hfits⟩ := hlegal
      obtain rfl := hcall.reads _ _ hread
      obtain rfl := hcall.reads _ _ hlist
      have hthen : row.amountMinor ≤ available row.walletId { db with now := now } := hfits
      have hsince : available row.walletId { db with now := now } ≤ available row.walletId db := by
        have hagree : Agreement ({ db with now := now } : Db).money := hagree
        exact available_later hagree row.walletId (hcall.clocks now hclock).1
      have htaken := authorized_available h (hmovement ▸ h.legal.movement) hfresh hholds hledger
        walletId
      by_cases hwallet : row.walletId = walletId
      · rw [if_pos hwallet] at htaken
        rw [hwallet] at hthen hsince
        omega
      · rw [if_neg hwallet] at htaken
        omega
  | @captured row wallet requested closedAt moved stored hrow hfresh hledger =>
      have hcall := hundisturbed ⟨.insertTransaction moved, by simp [Movement.writes],
        by rintro next ⟨⟩⟩
      obtain ⟨hlast, hopen, -, -, -, -, ⟨now, hclock, hunexpired⟩, -⟩ := hlegal
      obtain rfl := hcall.stored hagree hlast hrow.stored_eq
      obtain ⟨hpassed, hthen⟩ := hcall.clocks now hclock
      -- the hold kept its amount when the call looked at the clock
      have hcaptured := captured_available (commit_then h now) (hmovement ▸ h.legal.movement) hrow hfresh
        hledger (SameHold.refl stored) hopen hunexpired walletId
      have hsince : available walletId { db' with now := now } ≤ available walletId db' := by
        have hagree' : Agreement ({ db' with now := now } : Db).money := h.after.money
        exact available_later hagree' walletId (by rw [hnow]; exact hpassed)
      exact ((hthen walletId).trans hcaptured).trans hsince
  | @refunded row wallet requested reason moved stored hrow hfresh hledger =>
      have hcall := hundisturbed ⟨.insertTransaction moved, by simp [Movement.writes],
        by rintro next ⟨⟩⟩
      obtain rfl := hcall.stored hagree hlegal.1 hrow.stored_eq
      exact hbalance.trans (refunded_available h hlegal hrow hfresh hledger
        (SameHold.refl stored) rfl walletId)
  | voided hrow hledger => exact hbalance.trans (voided_available h hrow hledger walletId)

end Alone

/-! ### Serial runs -/

/-- Any request to the money service. -/
def moneyRequests (call : Call Unit) : Prop := ∃ request : Request, call = request.call

theorem moneyRequests_keep (call : Call Unit) (h : moneyRequests call) :
    Keeps services anyEnd call [] := by
  obtain ⟨request, rfl⟩ := h
  exact request.keeps

/-- What the calls of a serial run keep: the accounts, and one commit each. -/
def serialContract : Contract Db Action Action.Answer := accounts.contract.owing firstOnly

theorem serial_upheld : Upheld serialContract core moneyRequests anything := by
  refine (accounts_holds.upheldFor moneyRequests_keep).owing ?_ (fun _ _ _ => trivial)
  rintro call ⟨request, rfl⟩
  exact request.commits_once

/-- Until it has committed, the call that acts is undisturbed. -/
def Alone (seen : Seen) (db : Db) : Prop := Unlanded seen → Undisturbed seen db

theorem unlanded_snoc {seen : Seen} {entry : (action : Action) × action.Answer}
    (h : Unlanded (seen ++ [entry])) : Unlanded seen :=
  fun uow hlanded => h uow (List.mem_append_left _ hlanded)

/-- An entry that tells nothing of clock or store leaves the call undisturbed. -/
theorem Undisturbed.snoc {seen : Seen} {entry : (action : Action) × action.Answer} {db db' : Db}
    (h : Undisturbed seen db) (hnow : db'.now = db.now) (hmoney : db'.money = db.money)
    (hrows : db'.fulfillments = db.fulfillments)
    (hclock : ∀ now : Int, entry = ⟨.clock, now⟩ → now ≤ db.now ∧
      ∀ walletId, 0 ≤ available walletId { db with now := now })
    (hread : ∀ query value, entry = ⟨.read query, .ok value⟩ → value = query.eval db) :
    Undisturbed (seen ++ [entry]) db' := by
  have heval : ∀ query : Query, query.eval db' = query.eval db := by
    intro query
    obtain ⟨now, money, fulfillments, outbox, audit⟩ := db'
    dsimp only at hmoney hrows
    subst hmoney hrows
    cases query <;> rfl
  constructor
  · intro now hmember
    have hthen : now ≤ db.now ∧ ∀ walletId, 0 ≤ available walletId { db with now := now } := by
      rcases List.mem_append.mp hmember with hold | hnew
      · exact h.clocks now hold
      · exact hclock now (List.mem_singleton.mp hnew).symm
    refine ⟨hnow ▸ hthen.1, fun walletId => ?_⟩
    have hsame : available walletId { db' with now := now } =
        available walletId { db with now := now } := by
      unfold available
      rw [hmoney]
    rw [hsame]
    exact hthen.2 walletId
  · intro query value hmember
    rw [heval]
    rcases List.mem_append.mp hmember with hold | hnew
    · exact h.reads query value hold
    · exact hread query value (List.mem_singleton.mp hnew).symm

/-- One action of the call that acts overdraws no wallet and leaves it alone. -/
theorem alone_act {seen : Seen} {action : Action} {choice : Choice} {answer : action.Answer}
    {db db' : Db} (hinv : serialContract.inv db) (hinv' : serialContract.inv db')
    (hseen : ∀ entry ∈ seen, serialContract.known entry.1 entry.2 db)
    (howed : serialContract.owed seen action)
    (hperform : core.perform action choice db = some (answer, db'))
    (hcovered : ∀ walletId, 0 ≤ available walletId db) (halone : Alone seen db) :
    (∀ walletId, 0 ≤ available walletId db') ∧ Alone (seen ++ [⟨action, answer⟩]) db' := by
  have hperform : perform action choice db = some (answer, db') := hperform
  rcases perform_cases hperform with rfl | ⟨entry, rfl, rfl⟩ | ⟨uow, rfl, hcommit⟩
  · refine ⟨hcovered, fun hlater => ?_⟩
    refine (halone (unlanded_snoc hlater)).snoc rfl rfl rfl ?_ ?_
    · rintro now heq
      cases heq
      cases choice with
      | proceed =>
          obtain ⟨rfl, -⟩ := Prod.mk.inj (Option.some.inj hperform)
          exact ⟨le_refl _, hcovered⟩
      | failing message => cases hperform
      | drawn id => cases hperform
      | elapsed milliseconds => cases hperform
    · rintro query value heq
      cases heq
      exact perform_read hperform
  · refine ⟨hcovered, fun hlater => ?_⟩
    refine (halone (unlanded_snoc hlater)).snoc rfl rfl rfl ?_ ?_
    · rintro now ⟨⟩
    · rintro query value ⟨⟩
  · obtain ⟨⟨operation, hlegal, rfl⟩, hfirst⟩ := howed
    have hlanded : Commit seen operation db db' :=
      ⟨hinv.1, hinv'.1, fun entry hentry => (hseen entry hentry).1, hlegal, hcommit⟩
    refine ⟨undisturbed_commit hlanded hcovered (hfirst.imp halone id), fun hlater => ?_⟩
    cases answer with
    | ok done => exact absurd (List.mem_append_right _ (List.mem_singleton_self _)) (hlater _)
    | error error =>
        obtain rfl := perform_refused hperform
        refine (halone (unlanded_snoc hlater)).snoc rfl rfl rfl ?_ ?_
        · rintro now ⟨⟩
        · rintro query value ⟨⟩

/-- Time passing leaves the call that acts alone. -/
theorem alone_tick {seen : Seen} {choice : Choice} {db db' : Db} (hinv : serialContract.inv db)
    (htick : core.tick choice db = some db') (hcovered : ∀ walletId, 0 ≤ available walletId db)
    (halone : Alone seen db) : (∀ walletId, 0 ≤ available walletId db') ∧ Alone seen db' := by
  obtain ⟨elapsed, rfl⟩ := tick_ok htick
  constructor
  · intro walletId
    have hlater : db.now ≤ db.now + elapsed := by omega
    exact (hcovered walletId).trans (available_later hinv.1.money walletId hlater)
  · intro hlater
    have hbefore := halone hlater
    refine ⟨fun now hclock => ?_, fun query value hread => ?_⟩
    · obtain ⟨hpassed, hthen⟩ := hbefore.clocks now hclock
      have hnow : now ≤ db.now + elapsed := by omega
      exact ⟨hnow, hthen⟩
    · rw [hbefore.reads query value hread]
      cases query <;> rfl

/-- In every serial run of money requests from empty stores, with the clock advancing
at any point: what a wallet has posted is what was credited to it, less what its holds
were captured for, plus what was refunded; the legs of each currency add up to
nothing; what is held, expired holds included, is what its authorized holds have not
captured; and what is available is never negative. -/
theorem run_wallet_arithmetic {start : Int} {world : World Db Action Action.Answer Thrown Unit}
    (hrun : SerialRun core moneyRequests (World.initial (Db.empty start)) world)
    (walletId : String) :
    (balanceNow walletId world.store).postedMinor =
        credits walletId world.store - captures walletId world.store +
          refunds walletId world.store ∧
      (∀ currency, legsOf currency world.store = 0) ∧
      (balanceNow walletId world.store).heldMinor +
        (balanceNow walletId world.store).expiredHoldMinor = uncaptured walletId world.store ∧
      0 ≤ (balanceNow walletId world.store).availableMinor := by
  have hempty : serialContract.inv (Db.empty start) :=
    ⟨stocked_empty start, fun _ => rfl, fun _ => rfl⟩
  have hstart : ∀ walletId, 0 ≤ available walletId (Db.empty start) := by
    intro other
    rw [available_eq]
    exact le_refl 0
  have hserial : Serially (fun db => ∀ walletId, 0 ≤ available walletId db) Alone
      (World.initial (Db.empty start) : World Db Action Action.Answer Thrown Unit) :=
    ⟨hstart, fun past task htasks => by cases past <;> cases htasks⟩
  obtain ⟨hkept, hserial⟩ := hrun.maintains serial_upheld
    (fun _ _ => ⟨by rintro now ⟨⟩, by rintro query value ⟨⟩⟩) alone_act alone_tick
    (Kept.initial hempty) hserial
  exact ⟨hkept.inv.2.posted walletId, hkept.inv.2.legs, held_and_expired walletId world.store,
    hserial.inv walletId⟩

set_option maxRecDepth 20000 in
theorem run_wallet_arithmetic_partlyRefunded :
    ∃ world, play core unrestricted partlyRefunded (World.initial (Db.empty 0)) = some world ∧
      credits (idOf '2') world.store = 100 ∧ captures (idOf '2') world.store = 20 ∧
      refunds (idOf '2') world.store = 5 ∧
      (balanceNow (idOf '2') world.store).postedMinor = 85 ∧
      0 ≤ (balanceNow (idOf '2') world.store).availableMinor := by
  have hplays : (play core unrestricted partlyRefunded (World.initial (Db.empty 0))).any
      (fun world => credits (idOf '2') world.store = 100 ∧ captures (idOf '2') world.store = 20 ∧
        refunds (idOf '2') world.store = 5) = true := by decide +kernel
  obtain ⟨world, hworld, hsums⟩ := (Option.any_eq_true _ _).mp hplays
  obtain ⟨hcredits, hcaptures, hrefunds⟩ := of_decide_eq_true hsums
  have hrun : SerialRun core moneyRequests (World.initial (Db.empty 0)) world := by
    refine play_serial hworld ?_ (by decide +kernel)
    simp [partlyRefunded, holdPlaced, walletOpened, creditPosted, authorizeDecided,
      authorizeCommitted, captureDecided, committed, acts, moneyRequests]
  obtain ⟨hposted, -, -, havailable⟩ := run_wallet_arithmetic hrun (idOf '2')
  rw [hcredits, hcaptures, hrefunds] at hposted
  exact ⟨world, hworld, hcredits, hcaptures, hrefunds, hposted, havailable⟩

end WaslaCore.Money
