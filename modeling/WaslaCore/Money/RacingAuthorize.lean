import WaslaCore.Money.Racing

/-!
Racing authorizations under one reference. A copy that found no hold goes on to the
balance; the hold of a copy that committed in between may already have taken it, and
its reference is taken in any case.
-/

namespace WaslaCore.Money

open Platform Interleaving Data

/-- Any state CORE reaches. -/
def Reachable (start : Db) : Prop :=
  ∃ opened, ∃ world : World Db Action Action.Answer Thrown Unit,
    Run core requests anything (World.initial (Db.empty opened)) world ∧ world.store = start

theorem Reachable.agreement {start : Db} (h : Reachable start) : Agreement start.money := by
  obtain ⟨opened, world, hrun, rfl⟩ := h
  exact (stocked_run hrun).money

/-- The requested expiry has not passed. -/
def ExpiryAhead (input : AuthorizeInput) (now : Int) : Prop :=
  ∀ instant, input.expiresAt = .at instant → now < instant

/-- An active wallet with the amount to spare, and a reference not used yet. -/
structure AuthorizeReady (start : Db) (input : AuthorizeInput) (wallet : Wallet) : Prop where
  id : assertId "wallet_id" input.walletId = .ok ()
  found : start.money.getWallet input.walletId = some wallet
  own : wallet.walletId = input.walletId
  active : wallet.status = .active
  amount : assertAmount input.amountMinor = .ok ()
  unused : start.money.findAuthorizationByReference input.businessReference = none
  funds : input.amountMinor ≤ available input.walletId start
  expiry : input.expiresAt ≠ .malformed
  reachable : Reachable start

def MissedAuthorization (reference : String) (seen : WaslaCore.Seen) : Prop :=
  ⟨.read (.findAuthorizationByReference reference), .ok none⟩ ∈ seen

/-- A call told that no hold has the reference acts only while that is so, and
before the expiry it asks for. -/
def AuthorizationStillUnused (input : AuthorizeInput) (seen : WaslaCore.Seen) (_ : Action)
    (db : Db) : Prop :=
  MissedAuthorization input.businessReference seen →
    db.money.findAuthorizationByReference input.businessReference = none ∧
      ExpiryAhead input db.now

/-- The hold is stored, and one event tells of it. -/
structure Authorized (start : Db) (reference : String) (row : PaymentAuthorization) (db : Db) :
    Prop where
  reference : row.businessReference = reference
  fresh : start.money.authorizations.get row.authorizationId = none
  money : db.money = { start.money with
    authorizations := start.money.authorizations.put row.authorizationId row }
  outbox : ∃ event, db.outbox = start.outbox ++ [event]

/-- The hold a copy builds. -/
def AuthorizeBuilt (start : Db) (input : AuthorizeInput) (wallet : Wallet)
    (row : PaymentAuthorization) : Prop :=
  start.uses row.authorizationId = false ∧ ∃ createdAt expiresAt,
    row = newAuthorization row.authorizationId wallet input createdAt expiresAt

def authorizeView (start : Db) (input : AuthorizeInput) (wallet : Wallet) :
    Discipline Action Action.Answer where
  told action answer :=
    match action with
    | .read (.getWallet walletId) => answer = .ok (start.money.getWallet walletId)
    | .read (.findAuthorizationByReference _) => ∃ found, answer = .ok found
    | action => AsAt start (ExpiryAhead input) action answer
  owed seen action :=
    match action with
    | .read (.getWallet _) => True
    | .read (.findAuthorizationByReference reference) => reference = input.businessReference
    | .read .transactions => MissedAuthorization input.businessReference seen
    | .read (.listAuthorizations _) => MissedAuthorization input.businessReference seen
    | .clock => MissedAuthorization input.businessReference seen
    | .newId => MissedAuthorization input.businessReference seen
    | .commit uow => MissedAuthorization input.businessReference seen ∧
        ∃ row, AuthorizeBuilt start input wallet row ∧
          uow = stageAuthorize UnitOfWork.empty row
    | _ => False

/-- A copy is told of the hold by its lookup, or by its own commit. -/
inductive AuthorizeTells (input : AuthorizeInput) :
    (action : Action) → action.Answer → PaymentAuthorization → Prop where
  | found (row : PaymentAuthorization) : AuthorizeTells input
      (.read (.findAuthorizationByReference input.businessReference)) (.ok (some row)) row
  | committed (row : PaymentAuthorization) : AuthorizeTells input
      (.commit (stageAuthorize UnitOfWork.empty row)) (.ok ()) row

/-- The database of a race: idle, or with the hold recorded. -/
def AuthorizeRaced (start : Db) (reference : String) (db : Db) : Prop :=
  Idle start db ∨ start.now ≤ db.now ∧ ∃ row, Authorized start reference row db

def authorizeRace (start : Db) (input : AuthorizeInput) (wallet : Wallet) :
    Race Db Action Action.Answer Unit PaymentAuthorization where
  view _ := authorizeView start input wallet
  valid _ _ := True
  inv := AuthorizeRaced start input.businessReference
  tells := AuthorizeTells input
  recorded row := Authorized start input.businessReference row

section Authorize

variable {start : Db} {input : AuthorizeInput} {wallet : Wallet}

theorem expiry_ahead (ready : AuthorizeReady start input wallet) {now : Int}
    (hahead : ExpiryAhead input now) : ∃ expiresAt, expiry now input.expiresAt = .ok expiresAt := by
  cases hexpires : input.expiresAt with
  | absent => exact ⟨none, rfl⟩
  | malformed => exact absurd hexpires ready.expiry
  | «at» instant =>
      have hlater := hahead instant hexpires
      exact ⟨some instant, by rw [expiry, if_neg (by omega)]⟩

theorem newAuthorization_shape (authorizationId : String) (createdAt : Int)
    (expiresAt : Option Int) (hamount : 0 < input.amountMinor) :
    assertAuthorizationShape (newAuthorization authorizationId wallet input createdAt expiresAt) =
      .ok () := by
  have hle : ¬input.amountMinor < 0 := by omega
  simp [assertAuthorizationShape, newAuthorization, amountsMatchStatus, hamount, hle]

/-- The commit of a new hold on an active reference goes through. -/
theorem insertAuthorization_commits (db : Db) {row : PaymentAuthorization}
    (hshape : assertAuthorizationShape row = .ok ()) (hamount : 0 < row.amountMinor)
    (hcaptured : row.capturedMinor = 0) (hrefunded : row.refundedMinor = 0)
    (hnew : db.uses row.authorizationId = false)
    (hunused : db.money.findAuthorizationByReference row.businessReference = none)
    (hwallet : (db.money.wallets.get row.walletId).isSome) :
    db.commit (stageAuthorize UnitOfWork.empty row) = .ok { db with
      money := { db.money with
        authorizations := db.money.authorizations.put row.authorizationId row }
      audit := db.audit ++ (stageAuthorize UnitOfWork.empty row).audits.map AuditEntry.recorded
      outbox := db.outbox ++ (stageAuthorize UnitOfWork.empty row).events } := by
  have hfresh := uses_authorizations hnew
  have hpositive : ¬row.amountMinor ≤ 0 := by omega
  have hknown : (db.money.wallets.get row.walletId).isNone = false := by
    simpa [Option.isNone_iff_eq_none, Option.isSome_iff_ne_none] using hwallet
  have happly : applyAll db.money [.insertAuthorization row] = .ok { db.money with
      authorizations := db.money.authorizations.put row.authorizationId row } := by
    simp [applyAll, Write.apply, Store.insertAuthorization, hshape, hfresh, hunused, hpositive,
      hknown]
  have hverify : verifyAll { db.money with
      authorizations := db.money.authorizations.put row.authorizationId row }
        [.insertAuthorization row] = .ok () := by
    have hlegs := uses_legs hnew
    simp only [Store.ledgerCaptured, Store.ledgerRefunded] at hlegs
    simp [verifyAll, Write.verify, assertLedgerAgreement, hcaptured, hrefunded,
      Store.ledgerCaptured, Store.ledgerRefunded, hlegs]
  exact commit_of_money rfl happly hverify

/-- On a database nothing has happened to, the commit of a new hold goes through. -/
theorem authorize_commits (ready : AuthorizeReady start input wallet) {row : PaymentAuthorization}
    (built : AuthorizeBuilt start input wallet row) {db : Db} (hidle : Idle start db) :
    ∃ after, db.commit (stageAuthorize UnitOfWork.empty row) = .ok after ∧
      Authorized start input.businessReference row after ∧ start.now ≤ after.now := by
  obtain ⟨hnew, createdAt, expiresAt, hrow⟩ := built
  have hamount := assertAmount_ok ready.amount
  have hshape : assertAuthorizationShape row = .ok () := by
    rw [hrow]
    exact newAuthorization_shape _ createdAt expiresAt hamount
  have hreference : row.businessReference = input.businessReference := by rw [hrow]; rfl
  have hwallet : (start.money.wallets.get row.walletId).isSome := by
    have hfound := ready.found
    rw [← ready.own, Store.getWallet] at hfound
    rw [hrow]
    simp [newAuthorization, hfound]
  have hcommit := insertAuthorization_commits db hshape (by rw [hrow]; exact hamount)
    (by rw [hrow]; rfl) (by rw [hrow]; rfl) (by rwa [Db.uses, hidle.money])
    (by rw [hidle.money, hreference]; exact ready.unused) (by rwa [hidle.money])
  refine ⟨_, hcommit, ⟨hreference, uses_authorizations hnew, ?_, ?_⟩, hidle.now⟩
  · rw [hidle.money]
  · exact ⟨_, by rw [hidle.outbox]; rfl⟩

theorem missedAuthorization_later {reference : String} {seen later : WaslaCore.Seen}
    (h : MissedAuthorization reference seen) (hlater : seen <+: later) :
    MissedAuthorization reference later := hlater.subset h

/-- A copy that found no hold is told a balance that covers the amount. -/
theorem balance_races (ready : AuthorizeReady start input wallet) {seen : WaslaCore.Seen}
    (hmissed : MissedAuthorization input.businessReference seen) :
    Keeps (authorizeView start input wallet) (fun later result => ∃ current, result = .ok current ∧
      seen <+: later ∧ input.amountMinor ≤ current.availableMinor)
      (balance wallet.walletId) seen := by
  unfold balance
  have hid := ready.id
  have hfound := ready.found
  rw [← ready.own] at hid hfound
  refine (requireWallet_races wallet hid trivial ?_).bind ?_
    (fun _ _ h => by cases h.1)
  · rintro answer hanswer
    rw [show answer = _ from hanswer, hfound]
  rintro later found ⟨hsame, hlater⟩
  obtain rfl := Except.ok.inj hsame
  refine race_read_bind (fun ledger => ledger = start.money.transactions)
    (missedAuthorization_later hmissed hlater) ?_ ?_
  · rintro answer ⟨choice, db, db', hidle, -, hperform⟩
    exact ⟨_, (smooth_read hperform).1, congrArg Store.transactions hidle.money⟩
  rintro (ledger : List LedgerTransaction) rfl
  have hledger := hlater.trans (List.prefix_append later [⟨.read .transactions,
    .ok start.money.transactions⟩])
  refine race_read_bind
    (fun rows => rows = start.money.listAuthorizations found.walletId)
    (missedAuthorization_later hmissed hledger) ?_ ?_
  · rintro answer ⟨choice, db, db', hidle, -, hperform⟩
    exact ⟨_, (smooth_read hperform).1,
      congrArg (fun money => money.listAuthorizations found.walletId) hidle.money⟩
  rintro (rows : List PaymentAuthorization) rfl
  have hrows := hledger.trans (List.prefix_append _ [⟨.read (.listAuthorizations found.walletId),
    .ok (start.money.listAuthorizations found.walletId)⟩])
  refine race_clock_bind (missedAuthorization_later hmissed hrows) fun now htold => ?_
  refine ⟨_, rfl, hrows.trans (List.prefix_append _ _), ?_⟩
  obtain ⟨choice, db, db', hidle, -, hperform⟩ :
    AsAt start (ExpiryAhead input) .clock now := htold
  have hnow : now = db.now := (smooth_clock hperform).1
  have hlaterNow : start.now ≤ now := hnow ▸ hidle.now
  have hfunds := ready.funds
  rw [← ready.own] at hfunds
  exact hfunds.trans (available_later ready.reachable.agreement found.walletId hlaterNow)

theorem authorize_races (ready : AuthorizeReady start input wallet) :
    Keeps (authorizeView start input wallet) (fun later result => ∃ row, result = .ok row ∧
      (authorizeRace start input wallet).Shown later row) (authorize input) [] := by
  unfold authorize
  refine (requireWallet_races wallet ready.id trivial ?_).bind ?_
    (fun _ _ h => by cases h.1)
  · rintro answer hanswer
    rw [show answer = _ from hanswer, ready.found]
  rintro later found ⟨hfound, -⟩
  obtain rfl := Except.ok.inj hfound
  refine race_settled_bind ready.amount ?_
  refine race_read_bind (fun _ => True) rfl
    (fun answer ⟨found, hanswer⟩ => ⟨found, hanswer, trivial⟩) ?_
  rintro (existing : Option PaymentAuthorization) -
  cases existing with
  | some existing => exact ⟨existing, rfl, .last later (.found existing)⟩
  | none =>
      have hmissed : MissedAuthorization input.businessReference
          (later ++ [⟨.read (.findAuthorizationByReference input.businessReference), .ok none⟩]) :=
        List.mem_append_right _ (List.mem_singleton_self _)
      dsimp only
      rw [if_neg (by simp [ready.active])]
      refine (balance_races ready hmissed).bind ?_
        (fun _ _ h => by obtain ⟨_, h, -⟩ := h; cases h)
      rintro counted current ⟨value, hvalue, hcounted, hfunds⟩
      obtain rfl := Except.ok.inj hvalue
      have hmissed := missedAuthorization_later hmissed hcounted
      rw [if_neg (by omega)]
      refine race_newId_bind hmissed fun authorizationId hdrawn => ?_
      have hmissed := missedAuthorization_later hmissed
        (List.prefix_append counted [⟨.newId, authorizationId⟩])
      refine race_clock_bind hmissed fun createdAt _ => ?_
      have hmissed := missedAuthorization_later hmissed
        (List.prefix_append _ [⟨.clock, createdAt⟩])
      refine race_clock_bind hmissed fun now htold => ?_
      have hmissed := missedAuthorization_later hmissed (List.prefix_append _ [⟨.clock, now⟩])
      obtain ⟨choice, db, db', hidle, hahead, hperform⟩ :
        AsAt start (ExpiryAhead input) .clock now := htold
      have hnow : now = db.now := (smooth_clock hperform).1
      rw [← hnow] at hahead
      obtain ⟨expiresAt, hexpiry⟩ := expiry_ahead ready hahead
      refine race_settled_bind hexpiry ?_
      have hnew : AsAt start (ExpiryAhead input) .newId authorizationId := hdrawn
      have built : AuthorizeBuilt start input found
          (newAuthorization authorizationId found input createdAt expiresAt) :=
        ⟨asAt_newId hnew, createdAt, expiresAt, rfl⟩
      refine race_commit_bind ⟨hmissed, _, built, rfl⟩ ?_
        ⟨_, rfl, .last _ (.committed _)⟩
      rintro answer ⟨choice, db, db', hidle, -, hperform⟩
      obtain ⟨after, hcommit, -⟩ := authorize_commits ready built hidle
      exact (smooth_commit hcommit hperform).1

/-- Once the hold is recorded every lookup finds it. -/
theorem Authorized.found {reference : String} {row : PaymentAuthorization} {db : Db}
    (h : Authorized start reference row db)
    (hunused : start.money.findAuthorizationByReference reference = none) :
    db.money.findAuthorizationByReference reference = some row := by
  unfold Store.findAuthorizationByReference at hunused ⊢
  rw [h.money, Table.values_put_new row h.fresh, List.find?_append, hunused]
  simp [h.reference]

theorem Authorized.not_idle {reference : String} {row : PaymentAuthorization} {db : Db}
    (h : Authorized start reference row db) : ¬Idle start db := by
  intro hidle
  have hget : db.money.authorizations.get row.authorizationId = some row := by
    rw [h.money, Table.get_put_self]
  rw [hidle.money, h.fresh] at hget
  cases hget

theorem stageAuthorize_row {first second : PaymentAuthorization}
    (h : stageAuthorize UnitOfWork.empty first = stageAuthorize UnitOfWork.empty second) :
    first = second := by
  have hwrites := congrArg UnitOfWork.writes h
  simpa [stageAuthorize, UnitOfWork.empty] using hwrites

/-- Where a copy acts on a lookup that found nothing, nothing has happened yet. -/
theorem authorize_idle {db : Db} {seen : WaslaCore.Seen} {action : Action}
    (ready : AuthorizeReady start input wallet)
    (hinv : AuthorizeRaced start input.businessReference db)
    (hmissed : MissedAuthorization input.businessReference seen)
    (hallowed : AuthorizationStillUnused input seen action db) :
    Idle start db ∧ ExpiryAhead input db.now := by
  obtain ⟨hnone, hahead⟩ := hallowed hmissed
  rcases hinv with hidle | ⟨-, row, hauthorized⟩
  · exact ⟨hidle, hahead⟩
  · rw [hauthorized.found ready.unused] at hnone
    cases hnone

theorem AuthorizeTells.of_found {reference : String} {row : PaymentAuthorization}
    {answer : Action.Answer (.read (.findAuthorizationByReference reference))}
    (h : AuthorizeTells input (.read (.findAuthorizationByReference reference)) answer row) :
    answer = .ok (some row) := by
  cases h
  rfl

theorem AuthorizeTells.of_commit {uow : Work} {row : PaymentAuthorization}
    {answer : Action.Answer (.commit uow)} (h : AuthorizeTells input (.commit uow) answer row) :
    uow = stageAuthorize UnitOfWork.empty row := by
  cases h
  rfl

theorem authorize_sound (ready : AuthorizeReady start input wallet) :
    (authorizeRace start input wallet).Sound smooth (AuthorizationStillUnused input) where
  viewed _ := ⟨(), trivial⟩
  act := by
    intro i seen action choice answer db db' hinv _ howed hallowed hperform
    have hview : ∀ {told : Prop}, told → ∃ j : Unit, True ∧ told ∧ (seen ≠ [] → j = i) :=
      fun htold => ⟨(), trivial, htold, fun _ => rfl⟩
    cases action with
    | read query =>
        obtain ⟨hanswer, rfl⟩ := smooth_read hperform
        refine ⟨hinv, Race.Later.refl _ _, ?_⟩
        cases query with
        | getWallet walletId =>
            have hwallet : db'.money.getWallet walletId = start.money.getWallet walletId := by
              rcases hinv with hidle | ⟨-, row, hauthorized⟩
              · rw [hidle.money]
              · rw [hauthorized.money, Store.getWallet, Store.getWallet]
            exact ⟨by rintro row ⟨⟩, hview (hanswer.trans (congrArg Except.ok hwallet))⟩
        | findAuthorizationByReference reference =>
            refine ⟨fun row htells => ?_, hview ⟨_, hanswer⟩⟩
            have hreference : reference = input.businessReference := howed
            subst hreference
            rw [htells.of_found] at hanswer
            have hfound : db'.money.findAuthorizationByReference input.businessReference =
              some row := (Except.ok.inj hanswer).symm
            rcases hinv with hidle | ⟨-, recorded, hauthorized⟩
            · rw [hidle.money, ready.unused] at hfound
              cases hfound
            · rw [hauthorized.found ready.unused] at hfound
              rw [← Option.some.inj hfound]
              exact hauthorized
        | transactions =>
            obtain ⟨hidle, hahead⟩ := authorize_idle ready hinv howed hallowed
            exact ⟨by rintro row ⟨⟩, hview ⟨choice, _, _, hidle, hahead, hperform⟩⟩
        | listAuthorizations walletId =>
            obtain ⟨hidle, hahead⟩ := authorize_idle ready hinv howed hallowed
            exact ⟨by rintro row ⟨⟩, hview ⟨choice, _, _, hidle, hahead, hperform⟩⟩
        | _ => exact howed.elim
    | clock =>
        obtain ⟨hidle, hahead⟩ := authorize_idle ready hinv howed hallowed
        obtain ⟨-, rfl⟩ := smooth_clock hperform
        exact ⟨hinv, Race.Later.refl _ _, by rintro row ⟨⟩,
          hview ⟨choice, _, _, hidle, hahead, hperform⟩⟩
    | newId =>
        obtain ⟨hidle, hahead⟩ := authorize_idle ready hinv howed hallowed
        obtain ⟨-, rfl⟩ := smooth_newId hperform
        exact ⟨hinv, Race.Later.refl _ _, by rintro row ⟨⟩,
          hview ⟨choice, _, _, hidle, hahead, hperform⟩⟩
    | record entry => exact howed.elim
    | commit uow =>
        obtain ⟨hmissed, row, built, rfl⟩ := howed
        obtain ⟨hidle, hahead⟩ := authorize_idle ready hinv hmissed hallowed
        obtain ⟨after, hcommit, hauthorized, hnow⟩ := authorize_commits ready built hidle
        obtain ⟨-, rfl⟩ := smooth_commit hcommit hperform
        refine ⟨.inr ⟨hnow, row, hauthorized⟩, ⟨fun _ h => h, ?_⟩, ?_,
          hview ⟨choice, _, _, hidle, hahead, hperform⟩⟩
        · exact fun other hother => absurd hidle hother.not_idle
        · intro other htells
          rw [← stageAuthorize_row htells.of_commit]
          exact hauthorized
  tick := by
    intro choice db db' hinv htick
    obtain ⟨elapsed, rfl⟩ := WaslaCore.tick_ok htick
    refine ⟨?_, fun _ h => h, fun row h => ⟨h.reference, h.fresh, h.money, h.outbox⟩⟩
    rcases hinv with hidle | ⟨hnow, row, hauthorized⟩
    · exact .inl ⟨hidle.money, hidle.outbox, by have := hidle.now; simp only; omega⟩
    · exact .inr ⟨by simp only; omega, row, hauthorized.reference, hauthorized.fresh,
        hauthorized.money, hauthorized.outbox⟩

/-- Racing authorizations under one reference place one hold and return it. -/
theorem authorize_recordedOnce (ready : AuthorizeReady start input wallet)
    {world : World Db Action Action.Answer Thrown PaymentAuthorization}
    (hrun : Run smooth (fun call => call = authorize input) (AuthorizationStillUnused input)
      (World.initial start) world) :
    RecordedOnce (fun db => db.money.authorizations.values) Db.outbox (fun row => row) start
      world := by
  refine (authorize_sound ready).recordedOnce (fun _ => authorize_races ready)
    (.inl ⟨rfl, rfl, le_refl _⟩) (fun {db row} hauthorized => ⟨?_, hauthorized.outbox⟩) hrun
  rw [hauthorized.money]
  exact Table.values_put_new row hauthorized.fresh

end Authorize

end WaslaCore.Money
