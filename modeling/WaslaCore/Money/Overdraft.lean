import WaslaCore.Money.Finality

/-!
What a wallet has available, and when concurrency can overdraw it. `authorize`
reads a balance and inserts its hold later; nothing at the insert compares the
two. The same holds of a capture whose hold was closed or has expired since it
was read, and of a refund that writes an old status back. Where every commit
finds what it was decided on, no wallet is ever overdrawn.
-/

namespace WaslaCore.Money

open WaslaCore.Data WaslaCore.Platform WaslaCore.Interleaving

/-- The balance a call would be told if it read everything now. -/
def available (walletId : String) (db : Db) : Int :=
  (balanceOf walletId db.money.transactions (db.money.listAuthorizations walletId)
    db.now).availableMinor

/-- What a write takes from a wallet is there to be taken: an inserted hold fits
the available balance, and a captured hold has not expired. -/
def drawsCovered (db : Db) : WaslaCore.Write → Bool
  | .money (.insertAuthorization authorization) =>
      authorization.amountMinor ≤ available authorization.walletId db
  | .money (.insertTransaction transaction) =>
      transaction.kind ≠ .capture ||
        (transaction.authorizationId.bind db.money.getAuthorization).all
          (fun stored => !isExpired db.now stored)
  | _ => true

/-- A commit that goes through finds the balance, the statuses and the expiry it
was decided on. -/
def FundsAsRead (seen : Seen) : Action → Db → Prop
  | .commit uow, db => (db.commit uow).isOk = true → ∀ write ∈ uow.writes,
      updatesAsRead seen db write = true ∧ drawsCovered db write = true
  | _, _ => True

instance (seen : Seen) (action : Action) (db : Db) : Decidable (FundsAsRead seen action db) :=
  match action with
  | .commit uow => inferInstanceAs (Decidable ((db.commit uow).isOk = true →
      ∀ write ∈ uow.writes, updatesAsRead seen db write = true ∧ drawsCovered db write = true))
  | .read _ => .isTrue trivial
  | .clock => .isTrue trivial
  | .newId => .isTrue trivial
  | .record _ => .isTrue trivial

theorem FundsAsRead.status {seen : Seen} {action : Action} {db : Db}
    (h : FundsAsRead seen action db) : StatusAsRead seen action db := by
  cases action with
  | commit uow => exact fun hok write hwrite => (h hok write hwrite).1
  | read query => trivial
  | clock => trivial
  | newId => trivial
  | record entry => trivial

/-! ### The balance as two sums over the store -/

/-- What a hold keeps from a wallet at an instant. -/
def holding (walletId : String) (now : Int) (row : PaymentAuthorization) : Int :=
  if row.walletId = walletId ∧ isExpired now row = false then remainingHold row else 0

theorem holding_nonneg {row : PaymentAuthorization} (hshape : WellShaped row) (walletId : String)
    (now : Int) : 0 ≤ holding walletId now row := by
  have := hshape.captured_le
  unfold holding remainingHold
  split
  · split <;> omega
  · exact le_refl 0

/-- A hold keeps nothing from another wallet. -/
theorem holding_other {row : PaymentAuthorization} {walletId : String}
    (h : row.walletId ≠ walletId) (now : Int) : holding walletId now row = 0 := by
  unfold holding
  rw [if_neg]
  exact fun hclaim => h hclaim.1

/-- Holds only expire as time passes. -/
theorem holding_later {row : PaymentAuthorization} (hshape : WellShaped row) (walletId : String)
    (now : Int) (elapsed : Nat) :
    holding walletId (now + elapsed) row ≤ holding walletId now row := by
  by_cases hlater : row.walletId = walletId ∧ isExpired (now + elapsed) row = false
  · have hnow : isExpired now row = false := by
      have hlater := hlater.2
      unfold isExpired at hlater ⊢
      split at hlater
      · rfl
      · have := of_decide_eq_false hlater
        exact decide_eq_false (by omega)
    unfold holding
    rw [if_pos hlater, if_pos ⟨hlater.1, hnow⟩]
  · have hnothing : holding walletId (now + elapsed) row = 0 := if_neg hlater
    rw [hnothing]
    exact holding_nonneg hshape walletId now

/-- The wallet's part of the entries of a transaction list. -/
theorem posted_sum (account : String) (ledger : List LedgerTransaction) :
    (((ledger.flatMap LedgerTransaction.entries).filter
      (fun entry => entry.accountReference = account)).map LedgerEntry.amountMinor).sum =
      (ledger.map (fun transaction => transaction.posted account)).sum := by
  have hentries : ∀ entries : List LedgerEntry,
      ((entries.filter (fun entry => entry.accountReference = account)).map
        LedgerEntry.amountMinor).sum =
        (entries.map (fun entry =>
          if entry.accountReference = account then entry.amountMinor else 0)).sum := by
    intro entries
    induction entries with
    | nil => rfl
    | cons entry rest ih =>
        by_cases haccount : entry.accountReference = account
        · simp [haccount, ih]
        · simp [haccount, ih]
  induction ledger with
  | nil => rfl
  | cons transaction rest ih =>
      rw [List.flatMap_cons, List.filter_append, List.map_append, List.sum_append, hentries, ih]
      rfl

/-- The open and unexpired holds of one wallet, added up. -/
theorem held_sum (walletId : String) (now : Int) (rows : List PaymentAuthorization) :
    (((((rows.filter (fun item => item.walletId = walletId)).filter
      (fun item => item.status = .authorized)).filter
        (fun item => !isExpired now item))).map remainingHold).sum =
      (rows.map (holding walletId now)).sum := by
  induction rows with
  | nil => rfl
  | cons row rest ih =>
      by_cases hwallet : row.walletId = walletId
      · by_cases hstatus : row.status = .authorized
        · by_cases hexpired : isExpired now row = true
          · simp [holding, hwallet, hstatus, hexpired, ih, -List.filter_filter]
          · simp [holding, hwallet, hstatus, hexpired, ih, -List.filter_filter]
        · simp [holding, remainingHold, hwallet, hstatus, ih, -List.filter_filter]
      · simp [holding, hwallet, ih, -List.filter_filter]

/-- The available balance: what the ledger posted less what open holds keep. -/
theorem available_eq (walletId : String) (db : Db) :
    available walletId db =
      db.money.ledger.total (fun transaction => transaction.posted (walletAccount walletId)) -
        db.money.authorizations.total (holding walletId db.now) := by
  have hledger := (List.perm_insertionSort
    (olderFirst LedgerTransaction.occurredAt LedgerTransaction.transactionId)
    db.money.ledger.values).map
      (fun transaction => transaction.posted (walletAccount walletId))
  have hrows := List.perm_insertionSort
    (olderFirst PaymentAuthorization.createdAt PaymentAuthorization.authorizationId)
    (db.money.authorizations.values.filter (fun item => item.walletId = walletId))
  have hheld := (((hrows.filter (fun item => item.status = .authorized)).filter
    (fun item => !isExpired db.now item)).map remainingHold).sum_eq
  unfold available balanceOf Store.transactions Store.listAuthorizations
  dsimp only
  rw [posted_sum, hledger.sum_eq, hheld, held_sum]
  rfl

/-- What was available stays available while nothing but time passes. -/
theorem available_later {db : Db} (hagree : Agreement db.money) (walletId : String) {now : Int}
    (hlater : db.now ≤ now) : available walletId db ≤ available walletId { db with now := now } := by
  obtain ⟨elapsed, rfl⟩ := Int.le.dest hlater
  rw [available_eq, available_eq]
  refine Int.sub_le_sub_left (Table.total_le_total (fun row hrow => ?_)) _
  obtain ⟨id, hid⟩ := Table.mem_values.mp hrow
  exact holding_later (hagree.shaped id row hid) walletId db.now elapsed

/-! ### What a commit takes from a wallet -/

/-- With the clock unmoved, the balance changes by what was posted less what is
newly held. -/
theorem available_change {db db' : Db} (hnow : db'.now = db.now) (walletId : String)
    {posted held : Int}
    (hposted : db'.money.ledger.total
      (fun transaction => transaction.posted (walletAccount walletId)) =
      db.money.ledger.total
        (fun transaction => transaction.posted (walletAccount walletId)) + posted)
    (hheld : db'.money.authorizations.total (holding walletId db.now) =
      db.money.authorizations.total (holding walletId db.now) + held) :
    available walletId db' = available walletId db + posted - held := by
  rw [available_eq, available_eq, hnow, hposted, hheld]
  omega

theorem walletAccount_eq_iff {first second : String} :
    walletAccount first = walletAccount second ↔ first = second :=
  ⟨walletAccount_injective, congrArg walletAccount⟩

/-- What the two legs of a movement post to a wallet: a credit or a refund adds
the amount to its own wallet, a capture takes it. -/
theorem posted_credit {moved : LedgerTransaction} {kind : LedgerKind}
    {currency owner account : String} {amount : Int} {authorizationId : Option String}
    (hbuilt : Built moved kind currency (walletAccount owner) account amount authorizationId)
    (haccount : ∀ walletId, walletAccount walletId ≠ account) (walletId : String) :
    moved.posted (walletAccount walletId) = if owner = walletId then amount else 0 := by
  rw [posted_legs _ _ hbuilt.entries_eq, if_neg (haccount walletId).symm]
  simp [walletAccount_eq_iff]

theorem posted_capture {moved : LedgerTransaction} {currency owner : String} {amount : Int}
    {authorizationId : Option String}
    (hbuilt : Built moved .capture currency clearingCaptured (walletAccount owner) amount
      authorizationId) (walletId : String) :
    moved.posted (walletAccount walletId) = -(if owner = walletId then amount else 0) := by
  rw [posted_legs _ _ hbuilt.entries_eq, if_neg (walletAccount_ne_clearing walletId).1.symm]
  simp [walletAccount_eq_iff]

/-- A rewritten hold changes what is held by its own difference. -/
theorem rewritten_held {store store' : Store} {stored next : PaymentAuthorization}
    (hrow : Rewritten store store' stored next) (walletId : String) (now : Int) :
    store'.authorizations.total (holding walletId now) =
      store.authorizations.total (holding walletId now) +
        (holding walletId now (stored.revise next) - holding walletId now stored) := by
  rw [hrow.row, Table.total_put_old _ _ hrow.stored_eq]
  omega

section Landed

variable {seen : Seen} {operation : Operation} {db db' : Db}

/-- With the money untouched a wallet has what it had. -/
theorem unmoved_available (h : Commit seen operation db db')
    (hholds : db'.money.authorizations = db.money.authorizations)
    (hledger : db'.money.ledger = db.money.ledger) (walletId : String) :
    available walletId db' = available walletId db := by
  rw [available_eq, hholds, hledger, commit_now h.committed, ← available_eq]

/-- A credit gives its wallet the amount. -/
theorem credited_available (h : Commit seen operation db db') {wallet : Wallet} {amount : Int}
    {moved : LedgerTransaction} (hlegal : (Movement.credit wallet amount moved).Legal seen)
    (hfresh : db.money.ledger.get moved.transactionId = none)
    (hholds : db'.money.authorizations = db.money.authorizations)
    (hledger : db'.money.ledger = db.money.ledger.put moved.transactionId moved)
    (walletId : String) : available walletId db ≤ available walletId db' := by
  obtain ⟨hpositive, hbuilt⟩ := hlegal
  have hposted := posted_credit hbuilt (fun other => (walletAccount_ne_clearing other).2) walletId
  have hchange := available_change (commit_now h.committed) walletId
    (by rw [hledger, Table.total_put_new _ _ hfresh])
    (by rw [hholds]; exact (Int.add_zero _).symm)
  rw [hchange, hposted]
  split <;> omega

/-- A capture of an open and unexpired hold takes from the wallet what the hold
kept from it. -/
theorem captured_available (h : Commit seen operation db db')
    {row stored : PaymentAuthorization} {wallet : Wallet} {requested closedAt : Int}
    {moved : LedgerTransaction}
    (hlegal : (Movement.capture row wallet requested closedAt moved).Legal seen)
    (hrow : Rewritten db.money db'.money stored (capturedRow row requested closedAt))
    (hfresh : db.money.ledger.get moved.transactionId = none)
    (hledger : db'.money.ledger = db.money.ledger.put moved.transactionId moved)
    (hsame : SameHold stored row) (hopen : stored.status = .authorized)
    (hexpired : isExpired db.now stored = false) (walletId : String) :
    available walletId db ≤ available walletId db' := by
  obtain ⟨-, -, hwallet, hpositive, hceiling, hbuilt, -⟩ := hlegal
  have hcaptured := captured_as_stored h.before.money h.after.money hrow hfresh hledger hbuilt
  have hposted := posted_capture hbuilt walletId
  have hchange := available_change (commit_now h.committed) walletId
    (by rw [hledger, Table.total_put_new _ _ hfresh])
    (rewritten_held hrow walletId db.now)
  have howner : wallet.walletId = stored.walletId := hwallet.trans hsame.walletId.symm
  rw [howner] at hposted
  rw [hchange, hposted]
  by_cases hwalletId : stored.walletId = walletId
  · -- what stays held is at most what was held less the amount captured
    have hbefore : holding walletId db.now stored = stored.amountMinor - stored.capturedMinor := by
      unfold holding remainingHold
      rw [if_pos ⟨hwalletId, hexpired⟩, if_pos hopen]
    have hafter : holding walletId db.now
        (stored.revise (capturedRow row requested closedAt)) ≤
          stored.amountMinor - stored.capturedMinor - requested := by
      have hamount := hsame.amountMinor
      have hclosing : remainingHold (stored.revise (capturedRow row requested closedAt)) =
          stored.amountMinor - stored.capturedMinor - requested := by
        simp only [remainingHold, PaymentAuthorization.revise, capturedRow]
        split_ifs <;> simp_all <;> omega
      unfold holding
      split
      · exact hclosing.le
      · have hopenRow : remainingHold row ≤ row.amountMinor - row.capturedMinor := by
          unfold remainingHold
          split
          · exact le_refl _
          · have := (h.before.money.shaped _ _ hrow.stored_eq).captured_le
            omega
        omega
    rw [hbefore, if_pos hwalletId]
    omega
  · have hafter : (stored.revise (capturedRow row requested closedAt)).walletId ≠ walletId :=
      hwalletId
    rw [holding_other hwalletId db.now, holding_other hafter db.now, if_neg hwalletId]
    omega

/-- A refund that keeps the stored status gives the wallet the amount. -/
theorem refunded_available (h : Commit seen operation db db')
    {row stored : PaymentAuthorization} {wallet : Wallet} {requested : Int} {reason : String}
    {moved : LedgerTransaction}
    (hlegal : (Movement.refund row wallet requested reason moved).Legal seen)
    (hrow : Rewritten db.money db'.money stored (refundedRow row requested))
    (hfresh : db.money.ledger.get moved.transactionId = none)
    (hledger : db'.money.ledger = db.money.ledger.put moved.transactionId moved)
    (hsame : SameHold stored row) (hstatus : stored.status = row.status) (walletId : String) :
    available walletId db ≤ available walletId db' := by
  obtain ⟨-, -, hpositive, -, hbuilt⟩ := hlegal
  have hcaptured := refunded_as_stored h.before.money h.after.money hrow hfresh hledger
    hbuilt.kind_eq
  have hposted := posted_credit hbuilt (fun other => (walletAccount_ne_clearing other).1) walletId
  have hchange := available_change (commit_now h.committed) walletId
    (by rw [hledger, Table.total_put_new _ _ hfresh])
    (rewritten_held hrow walletId db.now)
  have hheld : holding walletId db.now (stored.revise (refundedRow row requested)) =
      holding walletId db.now stored := by
    have hexpiry : isExpired db.now (stored.revise (refundedRow row requested)) =
        isExpired db.now stored := by
      unfold isExpired
      rw [hsame.expiresAt]
      rfl
    unfold holding remainingHold
    rw [hexpiry]
    simp only [PaymentAuthorization.revise, refundedRow, hstatus, hcaptured]
  rw [hchange, hposted, hheld]
  split <;> omega

/-- A void gives the wallet whatever the hold kept. -/
theorem voided_available (h : Commit seen operation db db') {row stored : PaymentAuthorization}
    {reason : String} {voidedAt closedAt : Int}
    (hrow : Rewritten db.money db'.money stored (voidedRow row reason voidedAt closedAt))
    (hledger : db'.money.ledger = db.money.ledger) (walletId : String) :
    available walletId db ≤ available walletId db' := by
  have hchange := available_change (commit_now h.committed) walletId
    (by rw [hledger]; exact (Int.add_zero _).symm) (rewritten_held hrow walletId db.now)
  have hbefore := holding_nonneg (h.before.money.shaped _ _ hrow.stored_eq) walletId db.now
  have hafter : holding walletId db.now
      (stored.revise (voidedRow row reason voidedAt closedAt)) = 0 := by
    simp only [holding, remainingHold, PaymentAuthorization.revise, voidedRow]
    split_ifs <;> simp_all
  rw [hchange, hafter]
  omega

/-- A new hold takes at most its amount from its wallet. -/
theorem authorized_available (h : Commit seen operation db db') {row : PaymentAuthorization}
    (hlegal : (Movement.authorize row).Legal seen)
    (hfresh : db.money.authorizations.get row.authorizationId = none)
    (hholds : db'.money.authorizations = db.money.authorizations.put row.authorizationId row)
    (hledger : db'.money.ledger = db.money.ledger) (walletId : String) :
    available walletId db - (if row.walletId = walletId then row.amountMinor else 0) ≤
      available walletId db' := by
  obtain ⟨hopen, hcaptured, -, hpositive, -⟩ := hlegal
  have hchange := available_change (commit_now h.committed) walletId
    (by rw [hledger]; exact (Int.add_zero _).symm)
    (by rw [hholds, Table.total_put_new _ _ hfresh])
  rw [hchange]
  by_cases hwallet : row.walletId = walletId
  · have hheld : holding walletId db.now row ≤ row.amountMinor := by
      unfold holding remainingHold
      split_ifs <;> omega
    rw [if_pos hwallet]
    omega
  · rw [holding_other hwallet, if_neg hwallet]
    omega

/-- A commit that finds what it was decided on overdraws no wallet. -/
theorem covered_commit (h : Commit seen operation db db')
    (hfunds : FundsAsRead seen (.commit operation.staged) db)
    (hcovered : ∀ walletId, 0 ≤ available walletId db) (walletId : String) :
    0 ≤ available walletId db' := by
  have hbalance := hcovered walletId
  obtain ⟨movement, coordination⟩ := operation
  have hlegal := h.legal.movement
  have heffect := h.effect
  have hstatus := @status_as_read _ _ _ _ h hfunds.status
  have hbase := @Commit.base _ _ _ _ h
  have hdraws : ∀ write ∈ movement.writes, drawsCovered db (.money write) = true := by
    intro write hwrite
    refine (hfunds (by rw [h.committed]; rfl) _ ?_).2
    rw [Operation.staged_writes]
    exact List.mem_append_left _ (List.mem_map_of_mem hwrite)
  -- the stored hold a movement rewrites is the one its base was read from
  have hrecalled : ∀ {row stored : PaymentAuthorization}, movement.base = some row →
      db.money.authorizations.get row.authorizationId = some stored → SameHold stored row := by
    intro row stored hrow hstored
    obtain ⟨found, hfound, hsame⟩ := hbase hrow
    rw [hstored] at hfound
    exact Option.some.inj hfound ▸ hsame
  dsimp only at hlegal heffect hstatus
  cases heffect with
  | unmoved _ hholds hledger => exact (unmoved_available h hholds hledger walletId).symm ▸ hbalance
  | missed _ hholds hledger => exact (unmoved_available h hholds hledger walletId).symm ▸ hbalance
  | credited hfresh hholds hledger =>
      exact hbalance.trans (credited_available h hlegal hfresh hholds hledger walletId)
  | @authorized row hfresh hholds hledger =>
      have hfits : row.amountMinor ≤ available row.walletId db :=
        of_decide_eq_true (hdraws _ List.mem_cons_self)
      have htaken := authorized_available h hlegal hfresh hholds hledger walletId
      by_cases hwallet : row.walletId = walletId
      · rw [if_pos hwallet] at htaken
        rw [hwallet] at hfits
        omega
      · rw [if_neg hwallet] at htaken
        omega
  | @captured row wallet requested closedAt moved stored hrow hfresh hledger =>
      have hopen := (hstatus rfl hrow.stored_eq).trans hlegal.2.1
      have hexpired : isExpired db.now stored = false := by
        have hdraw := hdraws (.insertTransaction moved) (by simp [Movement.writes])
        have hstored : db.money.getAuthorization row.authorizationId = some stored :=
          hrow.stored_eq
        simpa [drawsCovered, hlegal.2.2.2.2.2.1.kind_eq, hlegal.2.2.2.2.2.1.authorization_eq,
          hstored] using hdraw
      exact hbalance.trans (captured_available h hlegal hrow hfresh hledger
        (hrecalled rfl hrow.stored_eq) hopen hexpired walletId)
  | refunded hrow hfresh hledger =>
      exact hbalance.trans (refunded_available h hlegal hrow hfresh hledger
        (hrecalled rfl hrow.stored_eq) (hstatus rfl hrow.stored_eq) walletId)
  | voided hrow hledger => exact hbalance.trans (voided_available h hrow hledger walletId)

end Landed

/-! ### Balances over runs -/

/-- No wallet is overdrawn, as a law of the database. -/
def solvency : Law where
  inv := fun db => ∀ walletId, 0 ≤ available walletId db
  guar := fun _ _ => True
  guar_refl := fun _ => trivial
  guar_trans := fun _ _ => trivial
  known := fun _ _ _ => True
  known_stable := fun _ _ => trivial

theorem solvency_holds : solvency.Holds FundsAsRead where
  commit := fun h hinv _ hfunds => ⟨covered_commit h hfunds hinv, trivial⟩
  record := fun _ hinv => ⟨hinv, trivial⟩
  tick := fun elapsed hstocked hinv =>
    ⟨fun walletId => (hinv walletId).trans
      (available_later hstocked.money walletId (by omega)), trivial⟩
  read := fun _ _ _ => trivial

/-- In every run whose commits find what they were decided on, no wallet is ever
overdrawn. -/
theorem run_solvent {start : Int} {world : World Db Action Action.Answer Thrown Unit}
    (hrun : Run core requests FundsAsRead (World.initial (Db.empty start)) world)
    (walletId : String) : 0 ≤ available walletId world.store := by
  have hempty : solvency.inv (Db.empty start) := by
    intro other
    rw [available_eq]
    exact le_refl 0
  exact (solvency_holds.run hempty hrun).inv.2 walletId

set_option maxRecDepth 20000 in
theorem run_solvent_partlyRefunded :
    ∃ world, play core (fun seen action db => FundsAsRead seen action db) partlyRefunded
        (World.initial (Db.empty 0)) = some world ∧
      available (idOf '2') world.store = 45 ∧ 0 ≤ available (idOf '2') world.store := by
  have hplays : (play core (fun seen action db => FundsAsRead seen action db) partlyRefunded
      (World.initial (Db.empty 0))).any
        (fun world => available (idOf '2') world.store = 45) = true := by decide +kernel
  obtain ⟨world, hworld, hbalance⟩ := (Option.any_eq_true _ _).mp hplays
  refine ⟨world, hworld, of_decide_eq_true hbalance,
    run_solvent (play_run hworld ?_ (fun _ _ _ h => of_decide_eq_true h)) (idOf '2')⟩
  simp [partlyRefunded, holdPlaced, walletOpened, creditPosted, authorizeDecided,
    authorizeCommitted, captureDecided, committed, acts]

/-- Two holds of 60 decide on one balance of 100, then both commit. -/
def heldTogether : Schedule :=
  .start (Request.createWallet ⟨.identity, idOf '1', "SAR"⟩).call :: walletOpened 0 (idOf '2') ++
  .start (Request.credit ⟨idOf '2', 100, "topup"⟩).call :: creditPosted 1 (idOf '3') ++
  .start (Request.authorize ⟨idOf '2', 60, "first", .absent⟩).call :: authorizeDecided 2 ++
  .start (Request.authorize ⟨idOf '2', 60, "second", .absent⟩).call :: authorizeDecided 3 ++
  authorizeCommitted 2 (idOf '4') ++ authorizeCommitted 3 (idOf '5')

set_option maxRecDepth 20000 in
/-- Without the condition two holds that fit alone are both placed. -/
theorem solvent_fails : ¬∀ (start : Int) (world : World Db Action Action.Answer Thrown Unit),
    Run core requests anything (World.initial (Db.empty start)) world →
    ∀ walletId, 0 ≤ available walletId world.store := by
  intro hsolvent
  have hplays : (play core unrestricted heldTogether (World.initial (Db.empty 0))).any
      (fun world => available (idOf '2') world.store = -20) = true := by decide +kernel
  obtain ⟨world, hworld, hbalance⟩ := (Option.any_eq_true _ _).mp hplays
  have hnonneg := hsolvent 0 world (unrestricted_run hworld (by
    simp [heldTogether, walletOpened, creditPosted, authorizeDecided, authorizeCommitted, acts]))
    (idOf '2')
  rw [of_decide_eq_true hbalance] at hnonneg
  omega

end WaslaCore.Money
