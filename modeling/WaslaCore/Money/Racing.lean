import WaslaCore.Interleaving.Race
import WaslaCore.Money.Overdraft
import WaslaCore.Money.Reconciliation

/-!
Identical calls of one keyed operation, racing on a database nothing else touches.
Each answers a repeat from a lookup that precedes its insert. Where no call acts on
a lookup that found nothing once another has recorded the operation, every call
returns the one record; where one does, it fails at the unique key, and nothing
turns that failure back into the answer.
-/

namespace WaslaCore

open Platform Interleaving Data

/-! ### A database that fails nobody -/

/-- The identifier stands somewhere in the money tables. -/
def Db.uses (db : Db) (id : String) : Bool :=
  (db.money.wallets.get id).isSome || (db.money.authorizations.get id).isSome ||
    (db.money.ledger.get id).isSome ||
      db.money.ledger.values.any (fun transaction => transaction.authorizationId = some id)

/-- No outage, and every identifier drawn is a new one. -/
def performSmoothly : (action : Action) → Choice → Db → Option (action.Answer × Db)
  | _, .failing _, _ => none
  | .newId, .drawn id, db => if db.uses id then none else perform .newId (.drawn id) db
  | action, choice, db => perform action choice db

def smooth : System Db Action Action.Answer Choice := ⟨performSmoothly, tick⟩

section Smooth

variable {choice : Choice} {db db' : Db}

theorem smooth_read {query : Query} {answer : Action.Answer (.read query)}
    (h : performSmoothly (.read query) choice db = some (answer, db')) :
    answer = .ok (query.eval db) ∧ db' = db := by
  cases choice with
  | proceed =>
      obtain ⟨rfl, rfl⟩ := Prod.mk.inj (Option.some.inj h)
      exact ⟨rfl, rfl⟩
  | failing message => cases h
  | drawn id => cases h
  | elapsed milliseconds => cases h

theorem smooth_clock {answer : Action.Answer .clock}
    (h : performSmoothly .clock choice db = some (answer, db')) : answer = db.now ∧ db' = db := by
  cases choice with
  | proceed =>
      obtain ⟨rfl, rfl⟩ := Prod.mk.inj (Option.some.inj h)
      exact ⟨rfl, rfl⟩
  | failing message => cases h
  | drawn id => cases h
  | elapsed milliseconds => cases h

theorem smooth_newId {answer : Action.Answer .newId}
    (h : performSmoothly .newId choice db = some (answer, db')) :
    db.uses answer = false ∧ db' = db := by
  cases choice with
  | drawn id =>
      simp only [performSmoothly] at h
      split at h
      · cases h
      rename_i hnew
      simp only [perform] at h
      split at h
      · obtain ⟨rfl, rfl⟩ := Prod.mk.inj (Option.some.inj h)
        exact ⟨by simpa using hnew, rfl⟩
      · cases h
  | proceed => cases h
  | failing message => cases h
  | elapsed milliseconds => cases h

/-- A commit the database accepts goes through. -/
theorem smooth_commit {uow : Work} {after : Db} {answer : Action.Answer (.commit uow)}
    (hcommit : db.commit uow = .ok after)
    (h : performSmoothly (.commit uow) choice db = some (answer, db')) :
    answer = .ok () ∧ db' = after := by
  cases choice with
  | proceed =>
      simp only [performSmoothly, perform, hcommit] at h
      obtain ⟨rfl, rfl⟩ := Prod.mk.inj (Option.some.inj h)
      exact ⟨rfl, rfl⟩
  | failing message => cases h
  | drawn id => cases h
  | elapsed milliseconds => cases h

end Smooth

/-- Money writes that go through are a commit that goes through. -/
theorem commit_of_money {db : Db} {uow : Work} {writes : List Money.Write} {money : Money.Store}
    (hwrites : uow.writes = writes.map Write.money)
    (happly : Money.applyAll db.money writes = .ok money)
    (hverify : Money.verifyAll money writes = .ok ()) :
    db.commit uow = .ok { db with
      money := money
      audit := db.audit ++ uow.audits.map AuditEntry.recorded
      outbox := db.outbox ++ uow.events } := by
  have hall : ∀ db : Db, Money.applyAll db.money writes = .ok money →
      db.applyAll (writes.map Write.money) = .ok { db with money := money } := by
    clear happly hverify hwrites
    induction writes with
    | nil =>
        intro db happly
        obtain rfl := Except.ok.inj happly
        rfl
    | cons write rest ih =>
        intro db happly
        obtain ⟨middle, hwrite, hrest⟩ := Money.applyAll_cons happly
        simp only [List.map_cons, Db.applyAll, Db.apply, hwrite]
        exact ih { db with money := middle } hrest
  have hmoney : (writes.map Write.money).filterMap Write.money? = writes := by
    rw [List.filterMap_map]
    exact List.filterMap_some
  simp only [Db.commit, hwrites, hall db happly, hmoney, hverify]

/-! ### A race from one database -/

/-- Nothing but the clock has moved. -/
structure Idle (start db : Db) : Prop where
  money : db.money = start.money
  outbox : db.outbox = start.outbox
  now : start.now ≤ db.now

namespace Money

/-- What the database tells a copy before the operation is recorded, in time for it. -/
def AsAt (start : Db) (inTime : Int → Prop) (action : Action) (answer : action.Answer) : Prop :=
  ∃ choice db db', Idle start db ∧ inTime db.now ∧
    performSmoothly action choice db = some (answer, db')

section Bindings

variable {view : Discipline Action Action.Answer} {β γ : Type} {seen : WaslaCore.Seen}
variable {post : WaslaCore.Seen → Except Thrown γ → Prop}

theorem race_settled_bind {result : Except Thrown β} {value : β} {next : β → Call γ}
    (hok : result = .ok value) (h : Keeps view post (next value) seen) :
    Keeps view post (settled result >>= next) seen := by
  subst hok
  exact h

theorem race_checked_bind {result : Except String β} {value : β} {next : β → Call γ}
    (hok : result = .ok value) (h : Keeps view post (next value) seen) :
    Keeps view post (checked result >>= next) seen := by
  subst hok
  exact h

theorem race_read_bind {query : Query} {next : query.Answer → Call γ}
    (shown : query.Answer → Prop) (howed : view.owed seen (.read query))
    (htold : ∀ answer, view.told (.read query) answer → ∃ value, answer = .ok value ∧ shown value)
    (h : ∀ value, shown value → Keeps view post (next value) (seen ++ [⟨.read query, .ok value⟩])) :
    Keeps view post (read query >>= next) seen := by
  refine ⟨howed, fun answer hanswer => ?_⟩
  obtain ⟨value, rfl, hvalue⟩ := htold answer hanswer
  exact h value hvalue

theorem race_clock_bind {next : Int → Call γ} (howed : view.owed seen .clock)
    (h : ∀ instant : Int, view.told .clock instant →
      Keeps view post (next instant) (seen ++ [⟨.clock, instant⟩])) :
    Keeps view post (clock >>= next) seen :=
  ⟨howed, h⟩

theorem race_newId_bind {next : String → Call γ} (howed : view.owed seen .newId)
    (h : ∀ id : String, view.told .newId id →
      Keeps view post (next id) (seen ++ [⟨.newId, id⟩])) :
    Keeps view post (newId >>= next) seen :=
  ⟨howed, h⟩

theorem race_commit_bind {uow : Work} {next : Call γ} (howed : view.owed seen (.commit uow))
    (htold : ∀ answer, view.told (.commit uow) answer → answer = .ok ())
    (h : Keeps view post next (seen ++ [⟨.commit uow, .ok ()⟩])) :
    Keeps view post (withTransaction (fun _ => pure (uow, ())) >>= fun _ => next) seen := by
  refine ⟨howed, fun answer hanswer => ?_⟩
  obtain rfl := htold answer hanswer
  exact h

end Bindings

/-! ### Credit -/

/-- A wallet to credit, an amount that may be credited, and a reference not used yet. -/
structure CreditReady (start : Db) (input : CreditInput) (wallet : Wallet) : Prop where
  id : assertId "wallet_id" input.walletId = .ok ()
  found : start.money.getWallet input.walletId = some wallet
  amount : assertAmount input.amountMinor = .ok ()
  unused : start.money.findTransactionByReference input.businessReference = none

/-- The call was told that no transaction has the reference. -/
def MissedTransaction (reference : String) (seen : WaslaCore.Seen) : Prop :=
  ⟨.read (.findTransactionByReference reference), .ok none⟩ ∈ seen

/-- A call told so acts only while it is so. -/
def TransactionStillUnused (reference : String) (seen : WaslaCore.Seen) (_ : Action) (db : Db) :
    Prop :=
  MissedTransaction reference seen → db.money.findTransactionByReference reference = none

/-- The credit is in the ledger, and one event tells of it. -/
structure Credited (start : Db) (reference : String) (moved : LedgerTransaction) (db : Db) :
    Prop where
  reference : moved.businessReference = reference
  fresh : start.money.ledger.get moved.transactionId = none
  money : db.money = { start.money with
    ledger := start.money.ledger.put moved.transactionId moved }
  outbox : ∃ event, db.outbox = start.outbox ++ [event]

/-- The transaction a copy builds. -/
structure CreditBuilt (start : Db) (input : CreditInput) (wallet : Wallet)
    (moved : LedgerTransaction) : Prop where
  reference : moved.businessReference = input.businessReference
  kind : moved.kind = .credit
  unheld : moved.authorizationId = none
  fresh : start.money.ledger.get moved.transactionId = none
  entries : moved.entries = legs moved.transactionId wallet.currency
    (walletAccount wallet.walletId) "clearing:external" input.amountMinor

def creditView (start : Db) (input : CreditInput) (wallet : Wallet) :
    Discipline Action Action.Answer where
  told action answer :=
    match action with
    | .read (.getWallet walletId) => answer = .ok (start.money.getWallet walletId)
    | .read (.findTransactionByReference _) => ∃ found, answer = .ok found
    | action => AsAt start (fun _ => True) action answer
  owed seen action :=
    match action with
    | .read (.getWallet _) => True
    | .read (.findTransactionByReference reference) => reference = input.businessReference
    | .clock => MissedTransaction input.businessReference seen
    | .newId => MissedTransaction input.businessReference seen
    | .commit uow => MissedTransaction input.businessReference seen ∧
        ∃ moved, CreditBuilt start input wallet moved ∧
          uow = stageCredit UnitOfWork.empty wallet input.amountMinor moved
    | _ => False

/-- A copy is told of the credit by its lookup, or by its own commit. -/
inductive CreditTells (input : CreditInput) (wallet : Wallet) :
    (action : Action) → action.Answer → LedgerTransaction → Prop where
  | found (moved : LedgerTransaction) : CreditTells input wallet
      (.read (.findTransactionByReference input.businessReference)) (.ok (some moved)) moved
  | committed (moved : LedgerTransaction) : CreditTells input wallet
      (.commit (stageCredit UnitOfWork.empty wallet input.amountMinor moved)) (.ok ()) moved

/-- The database of a race: idle, or with the credit recorded. -/
def CreditRaced (start : Db) (reference : String) (db : Db) : Prop :=
  Idle start db ∨ start.now ≤ db.now ∧ ∃ moved, Credited start reference moved db

def creditRace (start : Db) (input : CreditInput) (wallet : Wallet) :
    Race Db Action Action.Answer Unit LedgerTransaction where
  view _ := creditView start input wallet
  valid _ _ := True
  inv := CreditRaced start input.businessReference
  tells := CreditTells input wallet
  recorded moved := Credited start input.businessReference moved

section Credit

variable {start : Db} {input : CreditInput} {wallet : Wallet}

theorem legs_balanced (transactionId currency creditAccount debitAccount : String) (amount : Int) :
    assertBalanced (legs transactionId currency creditAccount debitAccount amount) = .ok () := by
  simp [assertBalanced, legs]

/-- The transaction a copy builds is the one it was asked for, under a new identifier. -/
theorem transaction_races {kind : LedgerKind} {reference currency creditAccount debitAccount : String}
    {amount : Int} {authorizationId : Option String} {seen : WaslaCore.Seen}
    {view : Discipline Action Action.Answer}
    (howed : ∀ later, seen <+: later → view.owed later .newId ∧ view.owed later .clock) :
    Keeps view (fun later result => ∃ moved : LedgerTransaction, result = .ok moved ∧
        seen <+: later ∧ view.told .newId moved.transactionId ∧ moved.kind = kind ∧
        moved.businessReference = reference ∧ moved.authorizationId = authorizationId ∧
        moved.entries = legs moved.transactionId currency creditAccount debitAccount amount)
      (transaction kind reference currency creditAccount debitAccount amount authorizationId)
      seen := by
  unfold transaction
  refine race_newId_bind (howed seen (List.prefix_refl _)).1 fun transactionId htold => ?_
  apply race_checked_bind (legs_balanced _ _ _ _ _)
  refine race_clock_bind (howed _ (List.prefix_append _ _)).2 fun occurredAt _ => ?_
  exact ⟨_, rfl, (List.prefix_append _ _).trans (List.prefix_append _ _), htold, rfl, rfl, rfl, rfl⟩

theorem requireWallet_races (found : Wallet) {walletId : String} {seen : WaslaCore.Seen}
    {view : Discipline Action Action.Answer} (hid : assertId "wallet_id" walletId = .ok ())
    (howed : view.owed seen (.read (.getWallet walletId)))
    (htold : ∀ answer, view.told (.read (.getWallet walletId)) answer → answer = .ok (some found)) :
    Keeps view (fun later result => result = .ok found ∧ seen <+: later)
      (requireWallet walletId) seen := by
  unfold requireWallet
  apply race_settled_bind hid
  refine race_read_bind (fun value => value = some found) howed
    (fun answer hanswer => ⟨some found, htold answer hanswer, rfl⟩) ?_
  rintro value rfl
  exact ⟨rfl, List.prefix_append _ _⟩

theorem missed_later {reference : String} {seen later : WaslaCore.Seen}
    (h : MissedTransaction reference seen) (hlater : seen <+: later) :
    MissedTransaction reference later := hlater.subset h

/-- On a database nothing has happened to, the commit of a new credit goes through. -/
theorem credit_commits (ready : CreditReady start input wallet) {moved : LedgerTransaction}
    (built : CreditBuilt start input wallet moved) {db : Db} (hidle : Idle start db) :
    ∃ after, db.commit (stageCredit UnitOfWork.empty wallet input.amountMinor moved) = .ok after ∧
      Credited start input.businessReference moved after ∧ start.now ≤ after.now := by
  have happly : applyAll db.money [.insertTransaction moved] = .ok { start.money with
      ledger := start.money.ledger.put moved.transactionId moved } := by
    have hamount := assertAmount_ok ready.amount
    have hentries : moved.entries.any (fun entry => entry.amountMinor = 0) = false := by
      simp only [built.entries, legs, List.any_cons, List.any_nil, Bool.or_false,
        Bool.or_eq_false_iff, decide_eq_false_iff_not]
      omega
    simp [applyAll, Write.apply, Store.insertTransaction, hidle.money, built.fresh, built.reference,
      ready.unused, built.kind, built.unheld, hentries]
  have hverify : verifyAll { start.money with
      ledger := start.money.ledger.put moved.transactionId moved } [.insertTransaction moved] =
        .ok () := by
    simp [verifyAll, Write.verify, built.entries, legs_balanced, built.unheld]
  refine ⟨_, commit_of_money rfl happly hverify, ⟨built.reference, built.fresh, rfl, ?_⟩, hidle.now⟩
  exact ⟨_, by rw [hidle.outbox]; rfl⟩

theorem asAt_newId {inTime : Int → Prop} {id : String} (h : AsAt start inTime .newId id) :
    start.uses id = false := by
  obtain ⟨choice, db, db', hidle, -, hperform⟩ := h
  have hnew := (smooth_newId hperform).1
  rwa [Db.uses, hidle.money] at hnew

theorem uses_ledger {id : String} (h : start.uses id = false) : start.money.ledger.get id = none := by
  simp only [Db.uses, Bool.or_eq_false_iff] at h
  simpa using h.1.2

theorem uses_authorizations {id : String} (h : start.uses id = false) :
    start.money.authorizations.get id = none := by
  simp only [Db.uses, Bool.or_eq_false_iff] at h
  simpa using h.1.1.2

/-- Nothing was ever captured or refunded on a hold that is not there. -/
theorem uses_legs {id : String} (h : start.uses id = false) :
    start.money.ledgerCaptured id = 0 ∧ start.money.ledgerRefunded id = 0 := by
  simp only [Db.uses, Bool.or_eq_false_iff, List.any_eq_false, decide_eq_true_eq] at h
  constructor <;>
    · refine Table.total_eq_zero fun transaction hmember => ?_
      simp [LedgerTransaction.capturedLeg, LedgerTransaction.refundedLeg, h.2 transaction hmember]

theorem credit_races (ready : CreditReady start input wallet) :
    Keeps (creditView start input wallet) (fun later result => ∃ moved, result = .ok moved ∧
      (creditRace start input wallet).Shown later moved) (credit input) [] := by
  unfold credit
  refine (requireWallet_races wallet ready.id trivial ?_).bind ?_
    (fun _ _ h => by cases h.1)
  · rintro answer hanswer
    rw [show answer = _ from hanswer, ready.found]
  rintro later found ⟨hfound, -⟩
  obtain rfl := Except.ok.inj hfound
  apply race_settled_bind ready.amount
  refine race_read_bind (fun _ => True) rfl
    (fun answer ⟨found, hanswer⟩ => ⟨found, hanswer, trivial⟩) ?_
  rintro (found : Option LedgerTransaction) -
  cases found with
  | some existing => exact ⟨existing, rfl, .last later (.found existing)⟩
  | none =>
      have hmissed : MissedTransaction input.businessReference
          (later ++ [⟨.read (.findTransactionByReference input.businessReference), .ok none⟩]) :=
        List.mem_append_right _ (List.mem_singleton_self _)
      refine (transaction_races fun final hfinal =>
        ⟨missed_later hmissed hfinal, missed_later hmissed hfinal⟩).bind ?_
        (fun _ _ h => by obtain ⟨_, h, -⟩ := h; cases h)
      rintro final value ⟨moved, hmoved, hfinal, hnew, hkind, hreference, hunheld, hentries⟩
      obtain rfl := Except.ok.inj hmoved
      have hdrawn : AsAt start (fun _ => True) .newId value.transactionId := hnew
      have built : CreditBuilt start input found value :=
        ⟨hreference, hkind, hunheld, uses_ledger (asAt_newId hdrawn), hentries⟩
      refine race_commit_bind ⟨missed_later hmissed hfinal, value, built, rfl⟩ ?_
        ⟨value, rfl, .last final (.committed value)⟩
      rintro answer ⟨choice, db, db', hidle, -, hperform⟩
      obtain ⟨after, hcommit, -⟩ := credit_commits ready built hidle
      exact (smooth_commit hcommit hperform).1

/-- Once the credit is recorded every lookup finds it. -/
theorem Credited.found {reference : String} {moved : LedgerTransaction} {db : Db}
    (h : Credited start reference moved db)
    (hunused : start.money.findTransactionByReference reference = none) :
    db.money.findTransactionByReference reference = some moved := by
  unfold Store.findTransactionByReference at hunused ⊢
  rw [h.money, Table.values_put_new moved h.fresh, List.find?_append, hunused]
  simp [h.reference]

theorem Credited.not_idle {reference : String} {moved : LedgerTransaction} {db : Db}
    (h : Credited start reference moved db) : ¬Idle start db := by
  intro hidle
  have hget : db.money.ledger.get moved.transactionId = some moved := by
    rw [h.money, Table.get_put_self]
  rw [hidle.money, h.fresh] at hget
  cases hget

theorem stageCredit_moved {amount : Int} {first second : LedgerTransaction}
    (h : stageCredit UnitOfWork.empty wallet amount first =
      stageCredit UnitOfWork.empty wallet amount second) : first = second := by
  have hwrites := congrArg UnitOfWork.writes h
  simpa [stageCredit, UnitOfWork.empty] using hwrites

/-- Where a copy acts on a lookup that found nothing, nothing has happened yet. -/
theorem credit_idle {db : Db} {seen : WaslaCore.Seen} {action : Action}
    (ready : CreditReady start input wallet) (hinv : CreditRaced start input.businessReference db)
    (hmissed : MissedTransaction input.businessReference seen)
    (hallowed : TransactionStillUnused input.businessReference seen action db) : Idle start db := by
  rcases hinv with hidle | ⟨-, moved, hcredited⟩
  · exact hidle
  · have hnone := hallowed hmissed
    rw [hcredited.found ready.unused] at hnone
    cases hnone

theorem CreditTells.of_found {reference : String} {moved : LedgerTransaction}
    {answer : Action.Answer (.read (.findTransactionByReference reference))}
    (h : CreditTells input wallet (.read (.findTransactionByReference reference)) answer moved) :
    answer = .ok (some moved) := by
  cases h
  rfl

theorem CreditTells.of_commit {uow : Work} {moved : LedgerTransaction}
    {answer : Action.Answer (.commit uow)}
    (h : CreditTells input wallet (.commit uow) answer moved) :
    uow = stageCredit UnitOfWork.empty wallet input.amountMinor moved := by
  cases h
  rfl

theorem credit_sound (ready : CreditReady start input wallet) :
    (creditRace start input wallet).Sound smooth
      (TransactionStillUnused input.businessReference) where
  viewed _ := ⟨(), trivial⟩
  act := by
    intro i seen action choice answer db db' hinv _ howed hallowed hperform
    have hview : ∀ {told : Prop}, told → ∃ j : Unit, True ∧ told ∧ (seen ≠ [] → j = i) :=
      fun htold => ⟨(), trivial, htold, fun _ => rfl⟩
    cases action with
    | read query =>
        obtain ⟨hanswer, rfl⟩ := smooth_read hperform
        refine ⟨hinv, Race.Later.refl _ _, ?_⟩
        cases query with
        | getWallet walletId =>
            have hwallet : db'.money.getWallet walletId = start.money.getWallet walletId := by
              rcases hinv with hidle | ⟨-, moved, hcredited⟩
              · rw [hidle.money]
              · rw [hcredited.money, Store.getWallet, Store.getWallet]
            exact ⟨by rintro moved ⟨⟩, hview (hanswer.trans (congrArg Except.ok hwallet))⟩
        | findTransactionByReference reference =>
            refine ⟨fun moved htells => ?_, hview ⟨_, hanswer⟩⟩
            have hreference : reference = input.businessReference := howed
            subst hreference
            rw [htells.of_found] at hanswer
            have hfound : db'.money.findTransactionByReference input.businessReference =
              some moved := (Except.ok.inj hanswer).symm
            rcases hinv with hidle | ⟨-, recorded, hcredited⟩
            · rw [hidle.money, ready.unused] at hfound
              cases hfound
            · rw [hcredited.found ready.unused] at hfound
              rw [← Option.some.inj hfound]
              exact hcredited
        | _ => exact howed.elim
    | clock =>
        have hidle := credit_idle ready hinv howed hallowed
        obtain ⟨-, rfl⟩ := smooth_clock hperform
        exact ⟨hinv, Race.Later.refl _ _, by rintro moved ⟨⟩,
          hview ⟨choice, _, _, hidle, trivial, hperform⟩⟩
    | newId =>
        have hidle := credit_idle ready hinv howed hallowed
        obtain ⟨-, rfl⟩ := smooth_newId hperform
        exact ⟨hinv, Race.Later.refl _ _, by rintro moved ⟨⟩,
          hview ⟨choice, _, _, hidle, trivial, hperform⟩⟩
    | record entry => exact howed.elim
    | commit uow =>
        obtain ⟨hmissed, moved, built, rfl⟩ := howed
        have hidle := credit_idle ready hinv hmissed hallowed
        obtain ⟨after, hcommit, hcredited, hnow⟩ := credit_commits ready built hidle
        obtain ⟨-, rfl⟩ := smooth_commit hcommit hperform
        refine ⟨.inr ⟨hnow, moved, hcredited⟩, ⟨fun _ h => h, ?_⟩, ?_,
          hview ⟨choice, _, _, hidle, trivial, hperform⟩⟩
        · exact fun other hother => absurd hidle hother.not_idle
        · intro other htells
          rw [← stageCredit_moved htells.of_commit]
          exact hcredited
  tick := by
    intro choice db db' hinv htick
    obtain ⟨elapsed, rfl⟩ := WaslaCore.tick_ok htick
    refine ⟨?_, fun _ h => h, fun moved h => ⟨h.reference, h.fresh, h.money, h.outbox⟩⟩
    rcases hinv with hidle | ⟨hnow, moved, hcredited⟩
    · exact .inl ⟨hidle.money, hidle.outbox, by have := hidle.now; simp only; omega⟩
    · exact .inr ⟨by simp only; omega, moved, hcredited.reference, hcredited.fresh, hcredited.money,
        hcredited.outbox⟩

/-- Racing credits under one reference post one transaction and return it. -/
theorem credit_recordedOnce (ready : CreditReady start input wallet)
    {world : World Db Action Action.Answer Thrown LedgerTransaction}
    (hrun : Run smooth (fun call => call = credit input)
      (TransactionStillUnused input.businessReference) (World.initial start) world) :
    RecordedOnce (fun db => db.money.ledger.values) Db.outbox (fun moved => moved) start world := by
  refine (credit_sound ready).recordedOnce (fun _ => credit_races ready)
    (.inl ⟨rfl, rfl, le_refl _⟩) (fun {db moved} hcredited => ⟨?_, hcredited.outbox⟩) hrun
  rw [hcredited.money]
  exact Table.values_put_new moved hcredited.fresh

end Credit

end Money

end WaslaCore
