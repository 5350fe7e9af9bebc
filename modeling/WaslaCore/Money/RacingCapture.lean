import WaslaCore.Money.RacingAuthorize

/-!
Racing captures of one hold under one capture reference. A copy reads the hold
first and the ledger after it, so a copy may find the transaction with the hold as
it was, or as the winner left it; it may not find the ledger empty with the hold
already captured.
-/

namespace WaslaCore.Money

open Platform Interleaving Data

/-- The reference a capture of the hold posts under. -/
def CaptureInput.reference (input : CaptureInput) (held : PaymentAuthorization) : String :=
  captureLedgerReference held.authorizationId input.key

/-- An open hold with the amount to spare, and a reference not used yet. -/
structure CaptureReady (start : Db) (input : CaptureInput) (held : PaymentAuthorization)
    (wallet : Wallet) (requested : Int) : Prop where
  id : assertId "authorization_id" input.authorizationId = .ok ()
  found : start.money.getAuthorization input.authorizationId = some held
  walletId : assertId "wallet_id" held.walletId = .ok ()
  wallet : start.money.getWallet held.walletId = some wallet
  amount : captureAmount start.now held input = .ok requested
  unused : start.money.findTransactionByReference (input.reference held) = none
  reachable : Reachable start

/-- A call told that the reference is unused acts only while that is so, and before
the hold expires. -/
def CaptureStillOpen (reference : String) (held : PaymentAuthorization) (seen : WaslaCore.Seen)
    (_ : Action) (db : Db) : Prop :=
  MissedTransaction reference seen →
    db.money.findTransactionByReference reference = none ∧ isExpired db.now held = false

/-- The hold is captured, the transaction is in the ledger, and one event tells of it. -/
structure CaptureDone (start : Db) (reference : String) (held : PaymentAuthorization)
    (requested : Int) (moved : LedgerTransaction) (db : Db) : Prop where
  reference : moved.businessReference = reference
  fresh : start.money.ledger.get moved.transactionId = none
  money : ∃ closedAt, db.money = { start.money with
    authorizations := start.money.authorizations.put held.authorizationId
      (capturedRow held requested closedAt)
    ledger := start.money.ledger.put moved.transactionId moved }
  outbox : ∃ event, db.outbox = start.outbox ++ [event]

/-- The transaction a copy builds. -/
structure CaptureBuilt (start : Db) (reference : String) (held : PaymentAuthorization)
    (wallet : Wallet) (requested : Int) (moved : LedgerTransaction) : Prop where
  reference : moved.businessReference = reference
  kind : moved.kind = .capture
  hold : moved.authorizationId = some held.authorizationId
  fresh : start.money.ledger.get moved.transactionId = none
  entries : moved.entries = legs moved.transactionId held.currency clearingCaptured
    (walletAccount wallet.walletId) requested

/-- What a copy may be told once it has read `row` for the hold. -/
def captureView (start : Db) (input : CaptureInput) (held : PaymentAuthorization)
    (wallet : Wallet) (requested : Int) (row : PaymentAuthorization) :
    Discipline Action Action.Answer where
  told action answer :=
    match action with
    | .read (.getAuthorization _) =>
        answer = .ok (some row) ∧ row.authorizationId = held.authorizationId
    | .read (.findTransactionByReference _) => ∃ found, answer = .ok found ∧
        ((found : Option LedgerTransaction) = none → row = held)
    | .read (.getWallet walletId) => answer = .ok (start.money.getWallet walletId)
    | .commit _ => answer = .ok ()
    | action => AsAt start (fun now => isExpired now held = false) action answer
  owed seen action :=
    match action with
    | .read (.getAuthorization authorizationId) =>
        seen = [] ∧ authorizationId = input.authorizationId
    | .read (.findTransactionByReference reference) =>
        seen ≠ [] ∧ reference = input.reference held
    | .read (.getWallet _) => MissedTransaction (input.reference held) seen
    | .clock => MissedTransaction (input.reference held) seen
    | .newId => MissedTransaction (input.reference held) seen
    | .commit uow => seen ≠ [] ∧ (uow = UnitOfWork.empty ∨
        MissedTransaction (input.reference held) seen ∧ ∃ moved closedAt,
          CaptureBuilt start (input.reference held) held wallet requested moved ∧
            uow = stageCapture UnitOfWork.empty held wallet requested closedAt moved)
    | _ => False

/-- A copy is told of the capture by its lookup, or by its own commit. -/
inductive CaptureTells (input : CaptureInput) (held : PaymentAuthorization) (wallet : Wallet)
    (requested : Int) : (action : Action) → action.Answer → LedgerTransaction → Prop where
  | found (moved : LedgerTransaction) : CaptureTells input held wallet requested
      (.read (.findTransactionByReference (input.reference held))) (.ok (some moved)) moved
  | committed (moved : LedgerTransaction) (closedAt : Int) :
      CaptureTells input held wallet requested
        (.commit (stageCapture UnitOfWork.empty held wallet requested closedAt moved)) (.ok ()) moved

/-- The database of a race: idle, or with the capture recorded. -/
def CaptureRaced (start : Db) (reference : String) (held : PaymentAuthorization) (requested : Int)
    (db : Db) : Prop :=
  Idle start db ∨ start.now ≤ db.now ∧ ∃ moved, CaptureDone start reference held requested moved db

def captureRace (start : Db) (input : CaptureInput) (held : PaymentAuthorization)
    (wallet : Wallet) (requested : Int) :
    Race Db Action Action.Answer PaymentAuthorization LedgerTransaction where
  view := captureView start input held wallet requested
  valid row db := row = held ∨ ∃ moved,
    CaptureDone start (input.reference held) held requested moved db
  inv := CaptureRaced start (input.reference held) held requested
  tells := CaptureTells input held wallet requested
  recorded moved := CaptureDone start (input.reference held) held requested moved

section Capture

variable {start : Db} {input : CaptureInput} {held : PaymentAuthorization} {wallet : Wallet}
variable {requested : Int}

/-- Until the hold expires a capture moves the same amount. -/
theorem captureAmount_later {now : Int} (hamount : captureAmount start.now held input = .ok requested)
    (hopen : isExpired now held = false) : captureAmount now held input = .ok requested := by
  rw [← hamount]
  unfold captureAmount at hamount ⊢
  split at hamount
  · cases hamount
  rename_i hstatus
  split at hamount
  · cases hamount
  rename_i hunexpired
  rw [if_neg hstatus, if_neg (by simp [hopen]), if_neg hstatus, if_neg hunexpired]

theorem capturedRow_shape (hshaped : WellShaped held)
    (hpositive : 0 < requested) (hceiling : requested ≤ held.amountMinor - held.capturedMinor)
    (closedAt : Int) : assertAuthorizationShape (capturedRow held requested closedAt) = .ok () := by
  have hcaptured := hshaped.captured_nonneg
  have hrefunded := hshaped.refunded_nonneg
  have hrefundedLe := hshaped.refunded_le
  have hbounds : ¬(held.capturedMinor + requested < 0 ∨
      held.amountMinor < held.capturedMinor + requested) := by omega
  have hrefunds : ¬(held.refundedMinor < 0 ∨
      held.capturedMinor + requested < held.refundedMinor) := by omega
  by_cases hcloses : held.capturedMinor + requested = held.amountMinor
  · have hfull : ¬(held.amountMinor < 0) := by omega
    have hfullRefunds : ¬(held.refundedMinor < 0 ∨ held.amountMinor < held.refundedMinor) := by
      omega
    simp [assertAuthorizationShape, capturedRow, amountsMatchStatus, hcloses, hfull, hfullRefunds]
  · have hopen : held.capturedMinor + requested < held.amountMinor := by omega
    simp [assertAuthorizationShape, capturedRow, amountsMatchStatus, hcloses, hbounds, hrefunds,
      hopen]

/-- The writes of a new capture on an open hold go through. -/
theorem capture_applies {money : Store} {moved : LedgerTransaction} (closedAt : Int)
    (hagree : Agreement money)
    (hstored : money.authorizations.get held.authorizationId = some held)
    (hpositive : 0 < requested) (hceiling : requested ≤ held.amountMinor - held.capturedMinor)
    (hunused : money.findTransactionByReference moved.businessReference = none)
    (hfresh : money.ledger.get moved.transactionId = none) (hkind : moved.kind = .capture)
    (hhold : moved.authorizationId = some held.authorizationId)
    (hlegs : moved.entries = legs moved.transactionId held.currency clearingCaptured
      (walletAccount wallet.walletId) requested) :
    applyAll money [.updateAuthorization (capturedRow held requested closedAt),
        .insertTransaction moved] = .ok { money with
      authorizations := money.authorizations.put held.authorizationId
        (capturedRow held requested closedAt)
      ledger := money.ledger.put moved.transactionId moved } := by
  have hshape := capturedRow_shape (hagree.shaped _ _ hstored) hpositive hceiling closedAt
  have hentries : moved.entries.any (fun entry => entry.amountMinor = 0) = false := by
    simp only [hlegs, legs, List.any_cons, List.any_nil, Bool.or_false, Bool.or_eq_false_iff,
      decide_eq_false_iff_not]
    omega
  have hunused : Store.findTransactionByReference { money with
      authorizations := money.authorizations.put held.authorizationId
        (capturedRow held requested closedAt) } moved.businessReference = none := hunused
  have hid : (capturedRow held requested closedAt).authorizationId = held.authorizationId := rfl
  have hrevise : held.revise (capturedRow held requested closedAt) =
    capturedRow held requested closedAt := rfl
  simp only [applyAll, Write.apply, Store.updateAuthorization, hid, hstored, hrevise, hshape]
  simp [Store.insertTransaction, hfresh, hunused, hkind, hhold, hentries, Table.get_put_self]

/-- A new capture leaves the hold in agreement with the ledger. -/
theorem capture_verifies {money : Store} {moved : LedgerTransaction} (closedAt : Int)
    (hagree : Agreement money)
    (hstored : money.authorizations.get held.authorizationId = some held)
    (hfresh : money.ledger.get moved.transactionId = none) (hkind : moved.kind = .capture)
    (hhold : moved.authorizationId = some held.authorizationId)
    (hlegs : moved.entries = legs moved.transactionId held.currency clearingCaptured
      (walletAccount wallet.walletId) requested) :
    verifyAll { money with
      authorizations := money.authorizations.put held.authorizationId
        (capturedRow held requested closedAt)
      ledger := money.ledger.put moved.transactionId moved }
        [.updateAuthorization (capturedRow held requested closedAt), .insertTransaction moved] =
          .ok () := by
  have hleg : moved.capturedLeg held.authorizationId = requested := by
    unfold LedgerTransaction.capturedLeg
    rw [if_pos ⟨hhold, hkind⟩, posted_legs _ _ hlegs, if_pos rfl,
      if_neg (walletAccount_ne_clearing wallet.walletId).1]
    omega
  have hrefund : moved.refundedLeg held.authorizationId = 0 := by
    unfold LedgerTransaction.refundedLeg
    rw [if_neg (by simp [hkind])]
  have hcaptured := hagree.captured _ _ hstored
  have hrefunded := hagree.refunded _ _ hstored
  have hverified : assertLedgerAgreement { money with
      authorizations := money.authorizations.put held.authorizationId
        (capturedRow held requested closedAt)
      ledger := money.ledger.put moved.transactionId moved } held.authorizationId = .ok () := by
    have hcapturedAfter : (capturedRow held requested closedAt).capturedMinor =
        (money.ledger.put moved.transactionId moved).total
          (LedgerTransaction.capturedLeg held.authorizationId) := by
      rw [Table.total_put_new _ _ hfresh, hleg, ← Store.ledgerCaptured, ← hcaptured]
      rfl
    have hrefundedAfter : (capturedRow held requested closedAt).refundedMinor =
        (money.ledger.put moved.transactionId moved).total
          (LedgerTransaction.refundedLeg held.authorizationId) := by
      rw [Table.total_put_new _ _ hfresh, hrefund, ← Store.ledgerRefunded, ← hrefunded]
      exact (Int.add_zero _).symm
    simp only [assertLedgerAgreement, Table.get_put_self, Store.ledgerCaptured,
      Store.ledgerRefunded, ← hcapturedAfter, ← hrefundedAfter]
    simp
  have hid : (capturedRow held requested closedAt).authorizationId = held.authorizationId := rfl
  simp [verifyAll, Write.verify, hid, hverified, hlegs, legs_balanced, hhold]

/-- On a database nothing has happened to, the commit of a new capture goes through. -/
theorem capture_commits (ready : CaptureReady start input held wallet requested)
    {moved : LedgerTransaction} {closedAt : Int}
    (built : CaptureBuilt start (input.reference held) held wallet requested moved) {db : Db}
    (hidle : Idle start db) :
    ∃ after, db.commit (stageCapture UnitOfWork.empty held wallet requested closedAt moved) =
        .ok after ∧
      CaptureDone start (input.reference held) held requested moved after ∧
      start.now ≤ after.now := by
  obtain ⟨hstatus, -, hpositive, hremaining, -⟩ := captureAmount_ok ready.amount
  have hceiling : requested ≤ held.amountMinor - held.capturedMinor := by
    rwa [remainingHold, if_pos hstatus] at hremaining
  have hagree := ready.reachable.agreement
  have hkeyed : held.authorizationId = input.authorizationId := hagree.keyed _ _ ready.found
  have hstored : start.money.authorizations.get held.authorizationId = some held := by
    rw [hkeyed]
    exact ready.found
  have hunused : start.money.findTransactionByReference moved.businessReference = none := by
    rw [built.reference]
    exact ready.unused
  have happly := capture_applies closedAt hagree hstored hpositive hceiling hunused
    built.fresh built.kind built.hold built.entries
  have hverify := capture_verifies closedAt hagree hstored built.fresh built.kind
    built.hold built.entries
  rw [← hidle.money] at happly
  refine ⟨_, commit_of_money rfl happly (by rw [hidle.money]; exact hverify),
    ⟨built.reference, built.fresh, ⟨closedAt, by rw [hidle.money]⟩, ?_⟩, hidle.now⟩
  exact ⟨_, by rw [hidle.outbox]; rfl⟩

theorem commit_empty (db : Db) : db.commit UnitOfWork.empty = .ok db := by
  simp [Db.commit, UnitOfWork.empty, Db.applyAll, verifyAll]

/-- Once the capture is recorded every lookup finds it. -/
theorem CaptureDone.found {reference : String} {moved : LedgerTransaction} {db : Db}
    (h : CaptureDone start reference held requested moved db)
    (hunused : start.money.findTransactionByReference reference = none) :
    db.money.findTransactionByReference reference = some moved := by
  obtain ⟨closedAt, hmoney⟩ := h.money
  unfold Store.findTransactionByReference at hunused ⊢
  rw [hmoney, Table.values_put_new moved h.fresh, List.find?_append, hunused]
  simp [h.reference]

theorem CaptureDone.not_idle {reference : String} {moved : LedgerTransaction} {db : Db}
    (h : CaptureDone start reference held requested moved db) : ¬Idle start db := by
  intro hidle
  obtain ⟨closedAt, hmoney⟩ := h.money
  have hget : db.money.ledger.get moved.transactionId = some moved := by
    rw [hmoney, Table.get_put_self]
  rw [hidle.money, h.fresh] at hget
  cases hget

/-- The hold as the capture left it. -/
theorem CaptureDone.row {reference : String} {moved : LedgerTransaction} {db : Db}
    (h : CaptureDone start reference held requested moved db) :
    ∃ closedAt, db.money.getAuthorization held.authorizationId =
      some (capturedRow held requested closedAt) := by
  obtain ⟨closedAt, hmoney⟩ := h.money
  exact ⟨closedAt, by rw [Store.getAuthorization, hmoney, Table.get_put_self]⟩

/-- Where a copy acts on a lookup that found nothing, nothing has happened yet. -/
theorem capture_idle {db : Db} {seen : WaslaCore.Seen} {action : Action}
    (ready : CaptureReady start input held wallet requested)
    (hinv : CaptureRaced start (input.reference held) held requested db)
    (hmissed : MissedTransaction (input.reference held) seen)
    (hallowed : CaptureStillOpen (input.reference held) held seen action db) :
    Idle start db ∧ isExpired db.now held = false := by
  obtain ⟨hnone, hopen⟩ := hallowed hmissed
  rcases hinv with hidle | ⟨-, moved, hdone⟩
  · exact ⟨hidle, hopen⟩
  · rw [hdone.found ready.unused] at hnone
    cases hnone

/-- How a copy comes to its commit: it found the transaction and stages nothing, or it
found none and stages the capture. -/
def CaptureStaged (start : Db) (input : CaptureInput) (held : PaymentAuthorization)
    (wallet : Wallet) (requested : Int) (seen : WaslaCore.Seen) (uow : Work)
    (moved : LedgerTransaction) : Prop :=
  seen ≠ [] ∧
    (uow = UnitOfWork.empty ∧
        (captureRace start input held wallet requested).Shown seen moved ∨
      MissedTransaction (input.reference held) seen ∧ ∃ closedAt,
        CaptureBuilt start (input.reference held) held wallet requested moved ∧
          uow = stageCapture UnitOfWork.empty held wallet requested closedAt moved)

theorem applyCaptureWithin_races (ready : CaptureReady start input held wallet requested)
    (row : PaymentAuthorization) :
    Keeps (captureView start input held wallet requested row) (fun later result =>
      ∃ uow captured, result = .ok (uow, captured) ∧
        CaptureStaged start input held wallet requested later uow captured.transaction)
      (applyCaptureWithin UnitOfWork.empty input) [] := by
  unfold applyCaptureWithin
  apply race_settled_bind ready.id
  refine race_read_bind
    (fun found => found = some row ∧ row.authorizationId = held.authorizationId)
    ⟨rfl, rfl⟩ (fun answer hanswer => ⟨some row, hanswer.1, rfl, hanswer.2⟩) ?_
  rintro value ⟨rfl, hrow⟩
  have hreference : captureLedgerReference row.authorizationId input.key = input.reference held := by
    rw [hrow]
    rfl
  dsimp only
  rw [hreference]
  refine race_read_bind
    (fun found => (found : Option LedgerTransaction) = none → row = held)
    ⟨by simp, rfl⟩ (fun answer ⟨found, hanswer, hfirst⟩ => ⟨found, hanswer, hfirst⟩) ?_
  rintro (found : Option LedgerTransaction) hfirst
  cases found with
  | some existing =>
      exact ⟨_, _, rfl, by simp, .inl ⟨rfl, .last _ (.found existing)⟩⟩
  | none =>
      obtain rfl := hfirst rfl
      have hmissed : MissedTransaction (input.reference row)
          ([⟨.read (.getAuthorization input.authorizationId), .ok (some row)⟩] ++
            [⟨.read (.findTransactionByReference (input.reference row)), .ok none⟩]) :=
        List.mem_append_right _ (List.mem_singleton_self _)
      refine race_clock_bind hmissed fun now htold => ?_
      have hmissed := missed_later hmissed (List.prefix_append _ [⟨.clock, now⟩])
      obtain ⟨choice, db, db', hidle, hopen, hperform⟩ :
        AsAt start (fun now => isExpired now row = false) .clock now := htold
      have hnow : now = db.now := (smooth_clock hperform).1
      rw [← hnow] at hopen
      apply race_settled_bind (captureAmount_later ready.amount hopen)
      refine (requireWallet_races wallet ready.walletId hmissed ?_).bind ?_ (fun _ _ h => by cases h.1)
      · rintro answer hanswer
        rw [show answer = _ from hanswer, ready.wallet]
      rintro later found ⟨hfound, hlater⟩
      obtain rfl := Except.ok.inj hfound
      have hmissed := missed_later hmissed hlater
      refine (transaction_races fun final hfinal =>
        ⟨missed_later hmissed hfinal, missed_later hmissed hfinal⟩).bind ?_
        (fun _ _ h => by obtain ⟨_, h, -⟩ := h; cases h)
      rintro final value ⟨moved, hmoved, hfinal, hnew, hkind, hmovedReference, hhold, hentries⟩
      obtain rfl := Except.ok.inj hmoved
      have hmissed := missed_later hmissed hfinal
      have hdrawn : AsAt start (fun now => isExpired now row = false) .newId value.transactionId :=
        hnew
      have built : CaptureBuilt start (input.reference row) row found requested value :=
        ⟨hmovedReference, hkind, hhold, uses_ledger (asAt_newId hdrawn), hentries⟩
      refine race_clock_bind hmissed fun closedAt _ => ?_
      have hmissed := missed_later hmissed (List.prefix_append _ [⟨.clock, closedAt⟩])
      exact ⟨_, _, rfl, by simp, .inr ⟨hmissed, closedAt, built, rfl⟩⟩

theorem capture_races (ready : CaptureReady start input held wallet requested)
    (row : PaymentAuthorization) :
    Keeps (captureView start input held wallet requested row) (fun later result =>
      ∃ moved, result = .ok moved ∧
        (captureRace start input held wallet requested).Shown later moved)
      (capture input) [] := by
  unfold capture withTransaction captureWithin
  refine Keeps.bind (p := fun later result => ∃ uow moved, result = .ok (uow, moved) ∧
    CaptureStaged start input held wallet requested later uow moved) ?_ ?_
    (fun _ _ h => by obtain ⟨_, _, h, -⟩ := h; cases h)
  · refine (applyCaptureWithin_races ready row).bind ?_
      (fun _ _ h => by obtain ⟨_, _, h, -⟩ := h; cases h)
    rintro later value ⟨uow, captured, hvalue, hstaged⟩
    obtain rfl := Except.ok.inj hvalue
    exact ⟨uow, captured.transaction, rfl, hstaged⟩
  · rintro later value ⟨uow, moved, hvalue, hbegun, hstaged⟩
    obtain rfl := Except.ok.inj hvalue
    refine ⟨⟨hbegun, ?_⟩, fun answer htold => ?_⟩
    · rcases hstaged with ⟨hempty, -⟩ | ⟨hmissed, closedAt, built, huow⟩
      · exact .inl hempty
      · exact .inr ⟨hmissed, moved, closedAt, built, huow⟩
    · obtain rfl : answer = .ok () := htold
      refine ⟨moved, rfl, ?_⟩
      rcases hstaged with ⟨-, hshown⟩ | ⟨-, closedAt, -, rfl⟩
      · exact hshown.later (List.prefix_append _ _)
      · exact .last _ (.committed moved closedAt)

theorem CaptureTells.of_found {reference : String} {moved : LedgerTransaction}
    {answer : Action.Answer (.read (.findTransactionByReference reference))}
    (h : CaptureTells input held wallet requested (.read (.findTransactionByReference reference))
      answer moved) : answer = .ok (some moved) := by
  cases h
  rfl

theorem CaptureTells.of_commit {uow : Work} {moved : LedgerTransaction}
    {answer : Action.Answer (.commit uow)}
    (h : CaptureTells input held wallet requested (.commit uow) answer moved) :
    ∃ closedAt, uow = stageCapture UnitOfWork.empty held wallet requested closedAt moved := by
  cases h
  exact ⟨_, rfl⟩

theorem stageCapture_moved {firstAt secondAt : Int} {first second : LedgerTransaction}
    (h : stageCapture UnitOfWork.empty held wallet requested firstAt first =
      stageCapture UnitOfWork.empty held wallet requested secondAt second) : first = second := by
  have hwrites := congrArg UnitOfWork.writes h
  simp only [stageCapture, UnitOfWork.empty, UnitOfWork.audit_writes, UnitOfWork.emit_writes,
    UnitOfWork.stage_writes, List.nil_append, List.cons.injEq, Write.money.injEq,
    Write.insertTransaction.injEq] at hwrites
  exact hwrites.2.1

theorem stageCapture_ne_empty {closedAt : Int} {moved : LedgerTransaction} :
    UnitOfWork.empty ≠ stageCapture UnitOfWork.empty held wallet requested closedAt moved := by
  intro h
  have hwrites := congrArg UnitOfWork.writes h
  simp [stageCapture, UnitOfWork.empty] at hwrites

theorem capture_sound (ready : CaptureReady start input held wallet requested) :
    (captureRace start input held wallet requested).Sound smooth
      (CaptureStillOpen (input.reference held) held) where
  viewed _ := ⟨held, .inl rfl⟩
  act := by
    intro i seen action choice answer db db' hinv hvalid howed hallowed hperform
    have hkeyed : held.authorizationId = input.authorizationId :=
      ready.reachable.agreement.keyed _ _ ready.found
    cases action with
    | read query =>
        obtain ⟨hanswer, rfl⟩ := smooth_read hperform
        refine ⟨hinv, Race.Later.refl _ _, ?_⟩
        cases query with
        | getAuthorization authorizationId =>
            obtain ⟨hfirst, hid⟩ := howed
            subst hid
            refine ⟨by rintro moved ⟨⟩, ?_⟩
            rcases hinv with hidle | ⟨-, moved, hdone⟩
            · refine ⟨held, .inl rfl, ⟨hanswer.trans (congrArg Except.ok ?_), rfl⟩,
                fun hbegun => absurd hfirst hbegun⟩
              change db'.money.getAuthorization input.authorizationId = some held
              rw [hidle.money, ready.found]
            · obtain ⟨closedAt, hrow⟩ := hdone.row
              refine ⟨capturedRow held requested closedAt, .inr ⟨moved, hdone⟩,
                ⟨hanswer.trans (congrArg Except.ok ?_), rfl⟩, fun hbegun => absurd hfirst hbegun⟩
              rw [← hkeyed]
              exact hrow
        | findTransactionByReference reference =>
            obtain ⟨hbegun, hreference⟩ := howed
            subst hreference
            refine ⟨fun moved htells => ?_, i, hvalid, ⟨_, hanswer, fun hnone => ?_⟩, fun _ => rfl⟩
            · rw [htells.of_found] at hanswer
              have hfound : db'.money.findTransactionByReference (input.reference held) =
                some moved := (Except.ok.inj hanswer).symm
              rcases hinv with hidle | ⟨-, recorded, hdone⟩
              · rw [hidle.money, ready.unused] at hfound
                cases hfound
              · rw [hdone.found ready.unused] at hfound
                rw [← Option.some.inj hfound]
                exact hdone
            · rcases hvalid with hsame | ⟨moved, hdone⟩
              · exact hsame
              · have hnone : db'.money.findTransactionByReference (input.reference held) = none :=
                  hnone
                rw [hdone.found ready.unused] at hnone
                cases hnone
        | getWallet walletId =>
            obtain ⟨hidle, -⟩ := capture_idle ready hinv howed hallowed
            refine ⟨by rintro moved ⟨⟩, i, hvalid, hanswer.trans (congrArg Except.ok ?_),
              fun _ => rfl⟩
            change db'.money.getWallet walletId = start.money.getWallet walletId
            rw [hidle.money]
        | _ => exact howed.elim
    | clock =>
        obtain ⟨hidle, hopen⟩ := capture_idle ready hinv howed hallowed
        obtain ⟨-, rfl⟩ := smooth_clock hperform
        exact ⟨hinv, Race.Later.refl _ _, by rintro moved ⟨⟩, i, hvalid,
          ⟨choice, _, _, hidle, hopen, hperform⟩, fun _ => rfl⟩
    | newId =>
        obtain ⟨hidle, hopen⟩ := capture_idle ready hinv howed hallowed
        obtain ⟨-, rfl⟩ := smooth_newId hperform
        exact ⟨hinv, Race.Later.refl _ _, by rintro moved ⟨⟩, i, hvalid,
          ⟨choice, _, _, hidle, hopen, hperform⟩, fun _ => rfl⟩
    | record entry => exact howed.elim
    | commit uow =>
        obtain ⟨-, hempty | ⟨hmissed, moved, closedAt, built, hstaged⟩⟩ := howed
        · subst hempty
          obtain ⟨hanswer, rfl⟩ := smooth_commit (commit_empty db) hperform
          refine ⟨hinv, Race.Later.refl _ _, fun moved htells => ?_, i, hvalid, hanswer,
            fun _ => rfl⟩
          obtain ⟨closedAt, hstaged⟩ := htells.of_commit
          exact absurd hstaged stageCapture_ne_empty
        · subst hstaged
          obtain ⟨hidle, hopen⟩ := capture_idle ready hinv hmissed hallowed
          obtain ⟨after, hcommit, hdone, hnow⟩ := capture_commits ready built hidle
          obtain ⟨hanswer, rfl⟩ := smooth_commit hcommit hperform
          refine ⟨.inr ⟨hnow, moved, hdone⟩, ⟨?_, ?_⟩, ?_, i, ?_, hanswer, fun _ => rfl⟩
          · exact fun row hrow => hrow.imp_right fun _ => ⟨moved, hdone⟩
          · exact fun other hother => absurd hidle hother.not_idle
          · intro other htells
            obtain ⟨otherAt, hsame⟩ := htells.of_commit
            rw [← stageCapture_moved hsame]
            exact hdone
          · exact hvalid.imp_right fun _ => ⟨moved, hdone⟩
  tick := by
    intro choice db db' hinv htick
    obtain ⟨elapsed, rfl⟩ := WaslaCore.tick_ok htick
    have hdone : ∀ moved, CaptureDone start (input.reference held) held requested moved db →
        CaptureDone start (input.reference held) held requested moved
          { db with now := db.now + elapsed } :=
      fun moved h => ⟨h.reference, h.fresh, h.money, h.outbox⟩
    refine ⟨?_, fun row hvalid => hvalid.imp_right fun ⟨moved, h⟩ => ⟨moved, hdone moved h⟩, hdone⟩
    rcases hinv with hidle | ⟨hnow, moved, h⟩
    · exact .inl ⟨hidle.money, hidle.outbox, by have := hidle.now; simp only; omega⟩
    · exact .inr ⟨by simp only; omega, moved, hdone moved h⟩

/-- Racing captures under one reference post one transaction and return it. -/
theorem capture_recordedOnce (ready : CaptureReady start input held wallet requested)
    {world : World Db Action Action.Answer Thrown LedgerTransaction}
    (hrun : Run smooth (fun call => call = capture input)
      (CaptureStillOpen (input.reference held) held) (World.initial start) world) :
    RecordedOnce (fun db => db.money.ledger.values) Db.outbox (fun moved => moved) start world := by
  refine (capture_sound ready).recordedOnce (capture_races ready)
    (.inl ⟨rfl, rfl, le_refl _⟩) (fun {db moved} hdone => ⟨?_, hdone.outbox⟩) hrun
  obtain ⟨closedAt, hmoney⟩ := hdone.money
  rw [hmoney]
  exact Table.values_put_new moved hdone.fresh

end Capture

end WaslaCore.Money
