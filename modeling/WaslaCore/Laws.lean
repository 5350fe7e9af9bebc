import WaslaCore.Conduct
import WaslaCore.Money.Lasting

/-!
Laws of the shared database. `Stocked` is what every commit keeps whatever it
contains, and it is what makes every answer the one the services foresee. A
`Law` adds an invariant, a preorder and what a read goes on telling beyond the
holds it showed and the transactions it found; to uphold it in every run it is
enough to look at the commit of one legal operation, at an audit entry recorded
on its own, and at time passing.
-/

namespace WaslaCore

open Platform Interleaving Data

/-- Rows lie under their own keys and pass their checks, and the money agrees
with the ledger. -/
structure Stocked (db : Db) : Prop where
  money : Money.Agreement db.money
  wallets : ∀ id row, db.money.wallets.get id = some row → row.walletId = id
  ruled : Fulfillment.Ruled db.fulfillments

theorem Stocked.fulfillments {db : Db} (h : Stocked db) (id : String)
    (row : Fulfillment.Fulfillment) (hrow : db.fulfillments.get id = some row) :
    row.fulfillmentId = id :=
  h.ruled.keyed id row hrow

theorem stocked_empty (now : Int) : Stocked (Db.empty now) :=
  ⟨Money.agreement_empty, by rintro id row ⟨⟩, Fulfillment.Ruled.empty⟩

theorem apply_wallets {store store' : Money.Store} {write : Money.Write}
    (h : write.apply store = .ok store')
    (hkeyed : ∀ id row, store.wallets.get id = some row → row.walletId = id)
    {id : String} {row : Money.Wallet} (hrow : store'.wallets.get id = some row) :
    row.walletId = id := by
  cases write with
  | insertWallet wallet =>
      obtain ⟨-, rfl⟩ := Money.insertWallet_ok h
      rw [Table.get_put] at hrow
      split at hrow
      · rename_i hid
        rw [← Option.some.inj hrow]
        exact hid
      · exact hkeyed id row hrow
  | insertAuthorization authorization =>
      obtain ⟨-, -, -, -, rfl⟩ := Money.insertAuthorization_ok h
      exact hkeyed id row hrow
  | updateAuthorization next =>
      rcases Money.updateAuthorization_ok h with ⟨-, rfl⟩ | ⟨stored, -, -, rfl⟩
      · exact hkeyed id row hrow
      · exact hkeyed id row hrow
  | insertTransaction transaction =>
      obtain ⟨-, -, -, rfl⟩ := Money.insertTransaction_ok h
      exact hkeyed id row hrow

theorem applyAll_keyed {db db' : Db} {writes : List Write} (h : db.applyAll writes = .ok db')
    (hwallets : ∀ id row, db.money.wallets.get id = some row → row.walletId = id)
    (hruled : Fulfillment.Ruled db.fulfillments) :
    (∀ id row, db'.money.wallets.get id = some row → row.walletId = id) ∧
      Fulfillment.Ruled db'.fulfillments := by
  apply applyAll_keeps (P := fun db =>
    (∀ id row, db.money.wallets.get id = some row → row.walletId = id) ∧
      Fulfillment.Ruled db.fulfillments) _ h ⟨hwallets, hruled⟩
  intro write _ before after happly hbefore
  rcases apply_ok happly with ⟨money, write', rfl, hwrite, rfl⟩ |
    ⟨rows, write', rfl, -, hwrite, rfl⟩
  · exact ⟨fun id row hrow => apply_wallets hwrite hbefore.1 hrow, hbefore.2⟩
  · exact ⟨hbefore.1, hbefore.2.write hwrite⟩

/-- A commit keeps the database stocked, whatever it contains. -/
theorem Stocked.commit {db db' : Db} {uow : Work} (h : Stocked db)
    (hcommit : db.commit uow = .ok db') : Stocked db' := by
  obtain ⟨happly, hverify⟩ := commit_money hcommit
  have hmoney := h.money.commit happly hverify
  obtain ⟨written, hwritten, -, rfl⟩ := commit_ok hcommit
  obtain ⟨hwallets, hruled⟩ := applyAll_keyed hwritten h.wallets h.ruled
  exact ⟨hmoney, hwallets, hruled⟩

/-- The rows of a table have distinct identifiers, in whatever order they are read. -/
theorem allAuthorizations_nodup {store : Money.Store}
    (hkeyed : ∀ id row, store.authorizations.get id = some row → row.authorizationId = id) :
    (store.allAuthorizations.map Money.PaymentAuthorization.authorizationId).Nodup := by
  have hperm := (List.perm_insertionSort
    (Money.olderFirst Money.PaymentAuthorization.createdAt
      Money.PaymentAuthorization.authorizationId) store.authorizations.values).map
      Money.PaymentAuthorization.authorizationId
  apply hperm.nodup_iff.mpr
  have hkeys : store.authorizations.values.map Money.PaymentAuthorization.authorizationId =
      store.authorizations.entries.map Prod.fst := by
    simp only [Table.values, List.map_map]
    refine List.map_congr_left (fun entry hentry => ?_)
    exact hkeyed entry.1 entry.2 (Table.get_eq_some.mpr hentry)
  rw [hkeys]
  exact store.authorizations.nodup

/-- A commit that reports a lost intake lost it to one of its writes. -/
theorem commit_lost {db : Db} {uow : Work} {orderReference : String}
    (h : db.commit uow = .error (.intakeLost orderReference)) :
    db.applyAll uow.writes = .error (.intakeLost orderReference) := by
  unfold Db.commit at h
  split at h
  · rename_i error happly
    obtain rfl := Except.error.inj h
    exact happly
  · split at h <;> cases h

/-- An intake that is lost was staged, for the order it lost. -/
theorem applyAll_intakeLost {db : Db} {writes : List Write} {orderReference : String}
    (h : db.applyAll writes = .error (.intakeLost orderReference)) :
    ∃ row, .fulfillment (.intake row) ∈ writes ∧ row.marketOrderReference = orderReference := by
  induction writes generalizing db with
  | nil => cases h
  | cons write rest ih =>
      simp only [Db.applyAll] at h
      split at h
      · obtain ⟨row, hrow, horder⟩ := ih h
        exact ⟨row, List.mem_cons_of_mem _ hrow, horder⟩
      · rename_i error happly
        obtain rfl := Except.error.inj h
        cases write with
        | money write =>
            simp only [Db.apply] at happly
            split at happly <;> cases happly
        | fulfillment write =>
            simp only [Db.apply] at happly
            split at happly
            · cases happly
            split at happly
            · cases happly
            rename_i refused hwrite
            obtain rfl := Except.error.inj happly
            obtain ⟨row, rfl, horder⟩ := Fulfillment.lost_intake hwrite
            exact ⟨row, List.mem_cons_self, horder⟩

/-- Every answer of a stocked database is one the services foresee. -/
theorem foreseen_perform {action : Action} {choice : Choice} {answer : action.Answer} {db db' : Db}
    (h : Stocked db) (hperform : perform action choice db = some (answer, db')) :
    foreseen action answer := by
  cases action with
  | read query =>
      cases answer with
      | error error => cases query <;> trivial
      | ok value =>
          obtain rfl := perform_read hperform
          cases query with
          | getWallet walletId =>
              cases hfound : db.money.getWallet walletId with
              | none => simp [Query.eval, hfound, foreseen]
              | some wallet =>
                  simp only [Query.eval, hfound]
                  exact h.wallets walletId wallet hfound
          | getAuthorization authorizationId =>
              cases hfound : db.money.getAuthorization authorizationId with
              | none => simp [Query.eval, hfound, foreseen]
              | some row =>
                  simp only [Query.eval, hfound]
                  exact ⟨h.money.keyed _ row hfound, h.money.shaped _ row hfound⟩
          | allAuthorizations => exact allAuthorizations_nodup h.money.keyed
          | getFulfillment fulfillmentId =>
              cases hfound : db.fulfillments.get fulfillmentId with
              | none => simp [Query.eval, hfound, foreseen]
              | some row =>
                  simp only [Query.eval, hfound]
                  exact h.fulfillments fulfillmentId row hfound
          | findWallet ownerType ownerId currency => trivial
          | findAuthorizationByReference reference => trivial
          | listAuthorizations walletId => trivial
          | findTransactionByReference reference => trivial
          | transactions => trivial
          | findByOrderReference orderReference =>
              cases hfound : db.fulfillments.findByOrderReference orderReference with
              | none => simp [Query.eval, hfound, foreseen]
              | some row =>
                  simp only [Query.eval, hfound]
                  simpa [foreseen] using List.find?_some hfound
  | clock => trivial
  | newId => trivial
  | record entry =>
      cases answer with
      | ok done => trivial
      | error error =>
          cases choice with
          | failing message =>
              exact ⟨message, (Except.error.inj (Prod.mk.inj (Option.some.inj hperform)).1).symm⟩
          | proceed => cases (Prod.mk.inj (Option.some.inj hperform)).1
          | drawn id => cases hperform
          | elapsed milliseconds => cases hperform
  | commit uow =>
      cases answer with
      | ok done => trivial
      | error error =>
          cases error with
          | core error => trivial
          | other message => trivial
          | transitionLost fulfillmentId => trivial
          | intakeLost orderReference =>
              cases choice with
              | proceed =>
                  simp only [perform] at hperform
                  split at hperform
                  · cases (Prod.mk.inj (Option.some.inj hperform)).1
                  · rename_i refused hcommit
                    obtain ⟨hanswer, -⟩ := Prod.mk.inj (Option.some.inj hperform)
                    obtain rfl := Except.error.inj hanswer
                    exact applyAll_intakeLost (commit_lost hcommit)
              | failing message => cases (Prod.mk.inj (Option.some.inj hperform)).1
              | drawn id => cases hperform
              | elapsed milliseconds => cases hperform

/-! ### What was read and what is committed -/

/-- The holds an answer showed are still there, and so is what it found; the
fulfillments it showed passed their checks. -/
structure Recalled (entry : (action : Action) × action.Answer) (db : Db) : Prop where
  holds : ∀ row ∈ rowsShown entry, Money.Recalls db.money row
  found : ∀ item ∈ transactionsFound entry,
    item.2 ∈ db.money.ledger.values ∧ item.2.businessReference = item.1
  passed : ∀ row ∈ fulfillmentsShown entry, Fulfillment.assertRow row = .ok ()

theorem Recalled.nothing {entry : (action : Action) × action.Answer}
    (h : ∀ query answer, entry ≠ ⟨.read query, .ok answer⟩) (db : Db) : Recalled entry db := by
  obtain ⟨hrows, hfulfillments, hfound⟩ := shown_nothing h
  exact ⟨by simp [hrows], by simp [hfound], by simp [hfulfillments]⟩

theorem Recalled.lasting {entry : (action : Action) × action.Answer} {db db' : Db}
    (h : Recalled entry db) (hlasting : Money.Lasting db.money db'.money) : Recalled entry db' :=
  ⟨fun row hrow => hlasting.recalls (h.holds row hrow),
    fun item hitem => ⟨hlasting.transactions (h.found item hitem).1, (h.found item hitem).2⟩,
    h.passed⟩

/-- A read shows holds that are stored. -/
theorem shown_stored {db : Db} {query : Query} {value : query.Answer}
    (hvalue : value = query.eval db) {row : Money.PaymentAuthorization}
    (hrow : row ∈ rowsShown ⟨.read query, .ok value⟩) :
    row ∈ db.money.authorizations.values := by
  cases query with
  | getAuthorization authorizationId =>
      cases value with
      | none => cases hrow
      | some found =>
          rw [List.mem_singleton.mp hrow]
          exact Table.mem_values.mpr ⟨authorizationId, hvalue.symm⟩
  | findAuthorizationByReference reference =>
      cases value with
      | none => cases hrow
      | some found =>
          rw [List.mem_singleton.mp hrow]
          exact List.mem_of_find?_eq_some hvalue.symm
  | listAuthorizations walletId =>
      have hvalue : value = db.money.listAuthorizations walletId := hvalue
      have hsorted : row ∈ db.money.listAuthorizations walletId := hvalue ▸ hrow
      have hmember := (List.mem_insertionSort _).mp hsorted
      exact (List.mem_filter.mp hmember).1
  | allAuthorizations =>
      have hvalue : value = db.money.allAuthorizations := hvalue
      have hsorted : row ∈ db.money.allAuthorizations := hvalue ▸ hrow
      exact (List.mem_insertionSort _).mp hsorted
  | getWallet walletId => cases hrow
  | findWallet ownerType ownerId currency => cases hrow
  | findTransactionByReference reference => cases hrow
  | transactions => cases hrow
  | getFulfillment fulfillmentId => cases hrow
  | findByOrderReference orderReference => cases hrow

/-- A read finds transactions that are stored, under the reference asked for. -/
theorem found_stored {db : Db} {query : Query} {value : query.Answer}
    (hvalue : value = query.eval db) {item : String × Money.LedgerTransaction}
    (hitem : item ∈ transactionsFound ⟨.read query, .ok value⟩) :
    item.2 ∈ db.money.ledger.values ∧ item.2.businessReference = item.1 := by
  cases query with
  | findTransactionByReference reference =>
      cases value with
      | none => cases hitem
      | some transaction =>
          rw [List.mem_singleton.mp hitem]
          exact ⟨List.mem_of_find?_eq_some hvalue.symm, by simpa using List.find?_some hvalue.symm⟩
  | getAuthorization authorizationId => cases hitem
  | findAuthorizationByReference reference => cases hitem
  | listAuthorizations walletId => cases hitem
  | allAuthorizations => cases hitem
  | getWallet walletId => cases hitem
  | findWallet ownerType ownerId currency => cases hitem
  | transactions => cases hitem
  | getFulfillment fulfillmentId => cases hitem
  | findByOrderReference orderReference => cases hitem

/-- A read shows fulfillments that are stored. -/
theorem fulfillment_stored {db : Db} {query : Query} {value : query.Answer}
    (hvalue : value = query.eval db) {row : Fulfillment.Fulfillment}
    (hrow : row ∈ fulfillmentsShown ⟨.read query, .ok value⟩) :
    ∃ id, db.fulfillments.get id = some row := by
  cases query with
  | getFulfillment fulfillmentId =>
      cases value with
      | none => cases hrow
      | some found =>
          rw [List.mem_singleton.mp hrow]
          exact ⟨fulfillmentId, hvalue.symm⟩
  | findByOrderReference orderReference =>
      cases value with
      | none => cases hrow
      | some found =>
          rw [List.mem_singleton.mp hrow]
          exact Table.mem_values.mp (List.mem_of_find?_eq_some hvalue.symm)
  | getWallet walletId => cases hrow
  | findWallet ownerType ownerId currency => cases hrow
  | getAuthorization authorizationId => cases hrow
  | findAuthorizationByReference reference => cases hrow
  | listAuthorizations walletId => cases hrow
  | allAuthorizations => cases hrow
  | findTransactionByReference reference => cases hrow
  | transactions => cases hrow

/-- Any answer recalls what it shows. -/
theorem recalled_perform {action : Action} {choice : Choice} {answer : action.Answer} {db db' : Db}
    (h : Stocked db) (hperform : perform action choice db = some (answer, db')) :
    Recalled ⟨action, answer⟩ db := by
  cases action with
  | read query =>
      cases answer with
      | ok value =>
          have hvalue := perform_read hperform
          refine ⟨fun row hrow => Money.read_recalls h.money (shown_stored hvalue hrow),
            fun item hitem => found_stored hvalue hitem, fun row hrow => ?_⟩
          obtain ⟨id, hid⟩ := fulfillment_stored hvalue hrow
          exact h.ruled.passes id row hid
      | error error => exact Recalled.nothing (by rintro query answer ⟨⟩) db
  | clock => exact Recalled.nothing (by rintro query answer ⟨⟩) db
  | newId => exact Recalled.nothing (by rintro query answer ⟨⟩) db
  | record entry => exact Recalled.nothing (by rintro query answer ⟨⟩) db
  | commit uow => exact Recalled.nothing (by rintro query answer ⟨⟩) db

/-- The commit of one legal operation, as it went through. -/
structure Commit (seen : Seen) (operation : Operation) (db db' : Db) : Prop where
  before : Stocked db
  after : Stocked db'
  recalled : ∀ entry ∈ seen, Recalled entry db
  legal : operation.Legal seen
  committed : db.commit operation.staged = .ok db'

namespace Commit

variable {seen : Seen} {operation : Operation} {db db' : Db}

theorem effect (h : Commit seen operation db db') :
    Money.Effect db.money db'.money operation.movement :=
  Money.operation_effect h.legal h.committed

theorem recalls (h : Commit seen operation db db') {row : Money.PaymentAuthorization}
    (hrow : row ∈ rowsRead seen) : Money.Recalls db.money row := by
  obtain ⟨entry, hentry, hshown⟩ := List.mem_flatMap.mp hrow
  exact (h.recalled entry hentry).holds row hshown

/-- A fulfillment the call has read passed its checks. -/
theorem passed (h : Commit seen operation db db') {row : Fulfillment.Fulfillment}
    (hrow : row ∈ fulfillmentsRead seen) : Fulfillment.assertRow row = .ok () := by
  obtain ⟨entry, hentry, hshown⟩ := List.mem_flatMap.mp hrow
  exact (h.recalled entry hentry).passed row hshown

theorem found (h : Commit seen operation db db') {reference : String}
    {transaction : Money.LedgerTransaction} (hfound : Found seen reference transaction) :
    transaction ∈ db.money.ledger.values ∧ transaction.businessReference = reference := by
  obtain ⟨entry, hentry, hshown⟩ := List.mem_flatMap.mp hfound
  exact (h.recalled entry hentry).found _ hshown

/-- The hold a movement rewrites is the one it was read from. -/
theorem base (h : Commit seen operation db db') {row : Money.PaymentAuthorization}
    (hbase : operation.movement.base = some row) : Money.Recalls db.money row :=
  h.recalls (lastRead_mem (Money.Movement.base_read h.legal.movement hbase)).1

theorem lasting (h : Commit seen operation db db') : Money.Lasting db.money db'.money :=
  h.effect.lasting (fun _ hbase => h.base hbase)

end Commit

/-! ### Laws -/

/-- A law: what holds, what every step stays in, and what a read, or a commit that
went through, goes on telling about every later database. -/
structure Law where
  inv : Db → Prop
  guar : Db → Db → Prop
  guar_refl : ∀ db, guar db db
  guar_trans : ∀ {first second third}, guar first second → guar second third → guar first third
  known : (query : Query) → query.Answer → Db → Prop
  known_stable : ∀ {query answer db db'}, guar db db' → known query answer db →
    known query answer db'
  landed : Work → Db → Prop := fun _ _ => True
  landed_stable : ∀ {uow db db'}, guar db db' → landed uow db → landed uow db' := by
    intros; trivial

namespace Law

/-- What an answer tells: the value of a read, or that a commit went through. -/
def tells (law : Law) : (action : Action) → action.Answer → Db → Prop
  | .read query, .ok value, db => law.known query value db
  | .commit uow, .ok _, db => law.landed uow db
  | _, _, _ => True

theorem tells_stable (law : Law) {action : Action} {answer : action.Answer} {db db' : Db}
    (hguar : law.guar db db') (h : law.tells action answer db) : law.tells action answer db' := by
  cases action with
  | read query =>
      cases answer with
      | ok value => exact law.known_stable hguar h
      | error error => trivial
  | clock => trivial
  | newId => trivial
  | record entry => trivial
  | commit uow =>
      cases answer with
      | ok done => exact law.landed_stable hguar h
      | error error => trivial

def contract (law : Law) : Contract Db Action Action.Answer where
  toDiscipline := services
  inv := fun db => Stocked db ∧ law.inv db
  guar := fun db db' => Money.Lasting db.money db'.money ∧ law.guar db db'
  guar_refl := fun db => ⟨Money.Lasting.refl db.money, law.guar_refl db⟩
  guar_trans := fun h h' => ⟨h.1.trans h'.1, law.guar_trans h.2 h'.2⟩
  known := fun action answer db => Recalled ⟨action, answer⟩ db ∧ law.tells action answer db
  known_stable := fun hguar h => ⟨h.1.lasting hguar.1, law.tells_stable hguar.2 h.2⟩

/-- Everything the call has read still tells. -/
def Told (law : Law) (seen : Seen) (db : Db) : Prop :=
  ∀ entry ∈ seen, law.tells entry.1 entry.2 db

/-- What successful reads tell about what they showed, gathered over a history. -/
theorem Told.shown {law : Law} {seen : Seen} {db : Db} (h : law.Told seen db) {α : Type}
    {shown : ((action : Action) × action.Answer) → List α} {P : α → Prop}
    (hknown : ∀ query answer, law.known query answer db →
      ∀ item ∈ shown ⟨.read query, .ok answer⟩, P item)
    (hother : ∀ entry, (∀ query answer, entry ≠ ⟨.read query, .ok answer⟩) → shown entry = []) :
    ∀ item ∈ seen.flatMap shown, P item := by
  intro item hitem
  obtain ⟨entry, hentry, hshown⟩ := List.mem_flatMap.mp hitem
  by_cases hread : ∃ query answer, entry = ⟨.read query, .ok answer⟩
  · obtain ⟨query, answer, rfl⟩ := hread
    exact hknown query answer (h _ hentry) item hshown
  · rw [hother entry (fun query answer heq => hread ⟨query, answer, heq⟩)] at hshown
    cases hshown

/-- What a law must survive: a legal commit, an audit entry, time, and that a
read tells what it is known to tell. -/
structure Holds (law : Law) (allowed : Seen → Action → Db → Prop) : Prop where
  commit : ∀ {seen : Seen} {operation : Operation} {db db' : Db}, Commit seen operation db db' →
    law.inv db → law.Told seen db → allowed seen (.commit operation.staged) db →
    law.inv db' ∧ law.guar db db'
  record : ∀ {db : Db} {entry : AuditEntry},
    entry.action = "fulfillment.settlement_inconsistent" → law.inv db →
    law.inv { db with audit := db.audit ++ [entry.recorded] } ∧
      law.guar db { db with audit := db.audit ++ [entry.recorded] }
  tick : ∀ {db : Db} (elapsed : Nat), Stocked db → law.inv db →
    law.inv { db with now := db.now + elapsed } ∧ law.guar db { db with now := db.now + elapsed }
  read : ∀ {db : Db} (query : Query), Stocked db → law.inv db →
    law.known query (query.eval db) db
  lands : ∀ {seen : Seen} {operation : Operation} {db db' : Db}, Commit seen operation db db' →
    allowed seen (.commit operation.staged) db → law.landed operation.staged db' := by
      intros; trivial

section Runs

variable {law : Law} {allowed : Seen → Action → Db → Prop} {β : Type}

/-- An action's answer tells what it tells about the database it leaves. -/
theorem Holds.tells (h : law.Holds allowed) {seen : Seen} {action : Action} {choice : Choice}
    {answer : action.Answer} {db db' : Db} (hstocked : Stocked db) (hinv : law.inv db)
    (hseen : ∀ entry ∈ seen, Recalled entry db) (howed : services.owed seen action)
    (hallowed : allowed seen action db) (hguar : law.guar db db')
    (hperform : perform action choice db = some (answer, db')) : law.tells action answer db' := by
  cases action with
  | read query =>
      cases answer with
      | ok value =>
          obtain rfl := perform_read hperform
          exact law.known_stable hguar (h.read query hstocked hinv)
      | error error => trivial
  | commit uow =>
      cases answer with
      | ok done =>
          have hcommit := perform_committed hperform
          obtain ⟨operation, hlegal, rfl⟩ := howed
          exact h.lands ⟨hstocked, hstocked.commit hcommit, hseen, hlegal, hcommit⟩ hallowed
      | error error => trivial
  | clock => trivial
  | newId => trivial
  | record entry => trivial

/-- A law that holds is upheld by any calls that keep the services' discipline. -/
theorem Holds.upheldFor (h : law.Holds allowed) {calls : Call β → Prop}
    (hcalls : ∀ call, calls call → Keeps services anyEnd call []) :
    Upheld law.contract core calls allowed where
  call := hcalls
  act := by
    rintro seen action choice answer db db' ⟨hstocked, hinv⟩ hseen howed hallowed hperform
    have hperform : perform action choice db = some (answer, db') := hperform
    have hforeseen := foreseen_perform hstocked hperform
    have hrecalled : ∀ entry ∈ seen, Recalled entry db := fun entry hentry => (hseen entry hentry).1
    -- whatever the step did, its answer tells what it tells once it was given
    have hknown : law.contract.guar db db' → law.contract.known action answer db' := fun hguar =>
      ⟨(recalled_perform hstocked hperform).lasting hguar.1,
        h.tells hstocked hinv hrecalled howed hallowed hguar.2 hperform⟩
    rcases perform_cases hperform with rfl | ⟨entry, rfl, rfl⟩ | ⟨uow, rfl, hcommit⟩
    · have hguar := law.contract.guar_refl db'
      exact ⟨hforeseen, ⟨hstocked, hinv⟩, hguar, hknown hguar⟩
    · obtain ⟨hinv', hguar⟩ := h.record howed hinv
      have hguar : law.contract.guar db { db with audit := db.audit ++ [entry.recorded] } :=
        ⟨Money.Lasting.refl db.money, hguar⟩
      exact ⟨hforeseen, ⟨⟨hstocked.money, hstocked.wallets, hstocked.ruled⟩, hinv'⟩, hguar,
        hknown hguar⟩
    · obtain ⟨operation, hlegal, rfl⟩ := howed
      have hlanded : Commit seen operation db db' :=
        ⟨hstocked, hstocked.commit hcommit, hrecalled, hlegal, hcommit⟩
      obtain ⟨hinv', hguar⟩ :=
        h.commit hlanded hinv (fun entry hentry => (hseen entry hentry).2) hallowed
      have hguar : law.contract.guar db db' := ⟨hlanded.lasting, hguar⟩
      exact ⟨hforeseen, ⟨hlanded.after, hinv'⟩, hguar, hknown hguar⟩
  tick := by
    rintro choice db db' ⟨hstocked, hinv⟩ htick
    obtain ⟨elapsed, rfl⟩ := tick_ok htick
    obtain ⟨hinv', hguar⟩ := h.tick elapsed hstocked hinv
    exact ⟨⟨⟨hstocked.money, hstocked.wallets, hstocked.ruled⟩, hinv'⟩,
      Money.Lasting.refl db.money, hguar⟩

theorem Holds.upheld (h : law.Holds allowed) : Upheld law.contract core requests allowed :=
  h.upheldFor requests_keep

end Runs

/-- A law that holds holds in every run from an empty database. -/
theorem Holds.run {law : Law} {allowed : Seen → Action → Db → Prop} (h : law.Holds allowed)
    {start : Int} (hinv : law.inv (Db.empty start))
    {world : World Db Action Action.Answer Thrown Unit}
    (hrun : Run core requests allowed (World.initial (Db.empty start)) world) :
    Kept law.contract world :=
  (h.upheld.run (Kept.initial ⟨stocked_empty start, hinv⟩) hrun).1

/-- Every two databases of a run are related by the law's preorder. -/
theorem Holds.guar {law : Law} {allowed : Seen → Action → Db → Prop} (h : law.Holds allowed)
    {world world' : World Db Action Action.Answer Thrown Unit} (hkept : Kept law.contract world)
    (hrun : Run core requests allowed world world') :
    Kept law.contract world' ∧ law.guar world.store world'.store := by
  obtain ⟨hkept', -, hguar⟩ := h.upheld.run hkept hrun
  exact ⟨hkept', hguar⟩

end Law

end WaslaCore
