import WaslaCore.Interleaving.Total
import WaslaCore.Money.RacingCapture

/-!
Money calls with the database to themselves and no outage. A lone `authorize` answers with
the hold under its reference, or inserts one where the balance covers it; a lone capture
inside a caller's transaction is refused, finds its transaction, or stages it.
-/

namespace WaslaCore

open Platform Interleaving Data

/-! ### A database that fails nobody -/

/-- An identifier the store has never met, nor the reference a full capture of it has. -/
structure Drawable (db : Db) (id : String) : Prop where
  shape : isId id = true
  unused : db.uses id = false
  uncaptured : db.money.findTransactionByReference (Money.fullCaptureReference id) = none

instance (db : Db) (id : String) : Decidable (Drawable db id) :=
  decidable_of_iff (isId id = true ∧ db.uses id = false ∧
      db.money.findTransactionByReference (Money.fullCaptureReference id) = none)
    ⟨fun ⟨hshape, hunused, huncaptured⟩ => ⟨hshape, hunused, huncaptured⟩,
      fun h => ⟨h.shape, h.unused, h.uncaptured⟩⟩

/-- No outage, and every identifier drawn is a new one. -/
def performCalmly : (action : Action) → Choice → Db → Option (action.Answer × Db)
  | _, .failing _, _ => none
  | .newId, .drawn id, db => if Drawable db id then some (id, db) else none
  | action, choice, db => perform action choice db

/-- Time stands still for a call that has the database to itself. -/
def calm : System Db Action Action.Answer Choice := ⟨performCalmly, fun _ _ => none⟩

section Rules

variable {β : Type} {post : Except Thrown β → Db → Prop} {db : Db}

theorem calm_read {query : Query} {next : query.Answer → Call β}
    (h : Ends calm post (next (query.eval db)) db) : Ends calm post (read query >>= next) db := by
  refine ⟨⟨.proceed, _, _, rfl⟩, fun choice answer after hperform => ?_⟩
  cases choice with
  | proceed =>
      obtain ⟨rfl, rfl⟩ := Prod.mk.inj (Option.some.inj hperform)
      exact h
  | failing message => cases hperform
  | drawn id => cases hperform
  | elapsed milliseconds => cases hperform

theorem calm_clock {next : Int → Call β} (h : Ends calm post (next db.now) db) :
    Ends calm post (clock >>= next) db := by
  refine ⟨⟨.proceed, _, _, rfl⟩, fun choice answer after hperform => ?_⟩
  cases choice with
  | proceed =>
      obtain ⟨rfl, rfl⟩ := Prod.mk.inj (Option.some.inj hperform)
      exact h
  | failing message => cases hperform
  | drawn id => cases hperform
  | elapsed milliseconds => cases hperform

theorem calm_newId {next : String → Call β} (hleft : ∃ id, Drawable db id)
    (h : ∀ id, Drawable db id → Ends calm post (next id) db) :
    Ends calm post (newId >>= next) db := by
  obtain ⟨id, hid⟩ := hleft
  refine ⟨⟨.drawn id, id, db, if_pos hid⟩, fun choice answer after hperform => ?_⟩
  cases choice with
  | drawn other =>
      change (if Drawable db other then some (other, db) else none) = some (answer, after)
        at hperform
      split at hperform
      · rename_i hother
        obtain ⟨rfl, rfl⟩ := Prod.mk.inj (Option.some.inj hperform)
        exact h _ hother
      · cases hperform
  | proceed => cases hperform
  | failing message => cases hperform
  | elapsed milliseconds => cases hperform

theorem calm_settled {γ : Type} {result : Except Thrown γ} {value : γ} {next : γ → Call β}
    (hok : result = .ok value) (h : Ends calm post (next value) db) :
    Ends calm post (settled result >>= next) db := by
  subst hok
  exact h

/-- A transaction whose commit goes through. -/
theorem calm_commit {uow : Work} {after : Db} {next : Call β}
    (hcommit : db.commit uow = .ok after) (h : Ends calm post next after) :
    Ends calm post (withTransaction (fun _ => pure (uow, ())) >>= fun _ => next) db := by
  have hgoes : performCalmly (.commit uow) .proceed db = some (.ok (), after) := by
    simp [performCalmly, perform, hcommit]
  refine ⟨⟨.proceed, _, _, hgoes⟩, fun choice answer final hperform => ?_⟩
  cases choice with
  | proceed =>
      rw [show calm.perform (.commit uow) .proceed db = some (.ok (), after) from hgoes] at hperform
      obtain ⟨rfl, rfl⟩ := Prod.mk.inj (Option.some.inj hperform)
      exact h
  | failing message => cases hperform
  | drawn id => cases hperform
  | elapsed milliseconds => cases hperform

end Rules

namespace Money

variable {db : Db} {wallet : Wallet}

/-! ### Authorize -/

theorem requireWallet_ends {β : Type} {post : Except Thrown β → Db → Prop} {walletId : String}
    {next : Wallet → Call β} (hid : isId walletId = true)
    (hwallet : db.money.getWallet walletId = some wallet)
    (h : Ends calm post (next wallet) db) : Ends calm post (requireWallet walletId >>= next) db := by
  refine ends_bind (p := fun result later => result = .ok wallet ∧ later = db) ?_ ?_ ?_
  · have hchecked : assertId "wallet_id" walletId = .ok () := if_pos hid
    refine calm_settled hchecked (calm_read ?_)
    rw [show Query.eval db (.getWallet walletId) = some wallet from hwallet]
    exact ⟨rfl, rfl⟩
  · rintro value later ⟨hvalue, rfl⟩
    obtain rfl := Except.ok.inj hvalue
    exact h
  · rintro error later ⟨herror, -⟩
    cases herror

theorem requireWallet_refused {β : Type} {post : Except Thrown β → Db → Prop} {walletId : String}
    {next : Wallet → Call β} (hnone : isId walletId = true → db.money.getWallet walletId = none)
    (h : ∀ error, post (.error error) db) :
    Ends calm post (requireWallet walletId >>= next) db := by
  by_cases hid : isId walletId = true
  · have hchecked : assertId "wallet_id" walletId = .ok () := if_pos hid
    refine ends_bind (p := fun result later => later = db ∧ ∃ error, result = .error error) ?_ ?_ ?_
    · refine calm_settled hchecked (calm_read ?_)
      rw [show Query.eval db (.getWallet walletId) = none from hnone hid]
      exact ⟨rfl, _, rfl⟩
    · rintro value later ⟨-, error, herror⟩
      cases herror
    · rintro error later ⟨rfl, -⟩
      exact h error
  · have hrefused : assertId "wallet_id" walletId = .error (invalid "wallet_id must be a UUID") :=
      if_neg hid
    simp only [requireWallet, hrefused]
    exact h _

theorem transaction_ends {kind : LedgerKind} {reference currency creditAccount debitAccount : String}
    {amount : Int} {authorizationId : Option String} (hleft : ∃ id, Drawable db id) :
    Ends calm (fun result later => ∃ moved : LedgerTransaction, result = .ok moved ∧ later = db ∧
        db.money.ledger.get moved.transactionId = none ∧ moved.businessReference = reference ∧
        moved.kind = kind ∧ moved.authorizationId = authorizationId ∧
        moved.entries = legs moved.transactionId currency creditAccount debitAccount amount)
      (transaction kind reference currency creditAccount debitAccount amount authorizationId)
      db := by
  unfold transaction
  refine calm_newId hleft fun own hdrawn => ?_
  dsimp only
  rw [legs_balanced]
  exact calm_clock ⟨_, rfl, rfl, uses_ledger hdrawn.unused, rfl, rfl, rfl, rfl⟩

/-- What a lone `authorize` of an active, covered wallet inserts. -/
structure Inserted (db : Db) (wallet : Wallet) (input : AuthorizeInput)
    (row : PaymentAuthorization) (later : Db) : Prop where
  drawn : Drawable db row.authorizationId
  built : ∃ createdAt, row = newAuthorization row.authorizationId wallet input createdAt none
  money : later.money = { db.money with
    authorizations := db.money.authorizations.put row.authorizationId row }
  now : later.now = db.now
  committed : ∃ uow, db.commit uow = .ok later

/-- Another identifier is as new once the hold is there. -/
theorem Inserted.drawable {input : AuthorizeInput} {row : PaymentAuthorization} {later : Db}
    (h : Inserted db wallet input row later) {id : String} (hother : row.authorizationId ≠ id)
    (hid : Drawable db id) : Drawable later id where
  shape := hid.shape
  unused := by
    have hunused := hid.unused
    simp only [Db.uses, h.money, Table.get_put_ne _ _ hother] at hunused ⊢
    exact hunused
  uncaptured := by
    rw [h.money]
    exact hid.uncaptured

/-- The reference answers first. -/
theorem authorize_finds {input : AuthorizeInput} {existing : PaymentAuthorization}
    (hid : isId input.walletId = true) (hwallet : db.money.getWallet input.walletId = some wallet)
    (hamount : assertAmount input.amountMinor = .ok ())
    (hfound : db.money.findAuthorizationByReference input.businessReference = some existing) :
    Ends calm (fun result later => result = .ok existing ∧ later = db) (authorize input) db := by
  refine requireWallet_ends hid hwallet (calm_settled hamount (calm_read ?_))
  rw [show Query.eval db (.findAuthorizationByReference input.businessReference) = some existing
    from hfound]
  exact ⟨rfl, rfl⟩

/-- With no hold under the reference a covered wallet gets one. -/
theorem authorize_inserts {input : AuthorizeInput} (hid : isId input.walletId = true)
    (hwallet : db.money.getWallet input.walletId = some wallet)
    (hown : wallet.walletId = input.walletId) (hactive : wallet.status = .active)
    (hamount : assertAmount input.amountMinor = .ok ())
    (hnone : db.money.findAuthorizationByReference input.businessReference = none)
    (hfunds : input.amountMinor ≤ available wallet.walletId db) (hlasting : input.expiresAt = .absent)
    (hleft : ∃ id, Drawable db id) :
    Ends calm (fun result later => ∃ row, result = .ok row ∧ Inserted db wallet input row later)
      (authorize input) db := by
  refine requireWallet_ends hid hwallet (calm_settled hamount (calm_read ?_))
  rw [show Query.eval db (.findAuthorizationByReference input.businessReference) = none from hnone]
  dsimp only
  rw [if_neg (by simp [hactive])]
  rw [← hown] at hid hwallet
  refine ends_bind (p := fun result later => ∃ current : Balance, result = .ok current ∧
      later = db ∧ current.availableMinor = available wallet.walletId db) ?_ ?_ ?_
  · refine requireWallet_ends hid hwallet (calm_read (calm_read (calm_clock ?_)))
    exact ⟨_, rfl, rfl, rfl⟩
  · rintro value later ⟨current, hvalue, rfl, havailable⟩
    obtain rfl := Except.ok.inj hvalue
    rw [if_neg (by omega)]
    refine calm_newId hleft fun own hdrawn => calm_clock (calm_clock ?_)
    apply calm_settled (by rw [hlasting]; rfl)
    have hpositive := assertAmount_ok hamount
    have hstored : (later.money.wallets.get wallet.walletId).isSome := by
      rw [show later.money.wallets.get wallet.walletId = some wallet from hwallet]
      rfl
    have hcommit := insertAuthorization_commits later
      (newAuthorization_shape own later.now none hpositive) hpositive rfl rfl hdrawn.unused hnone
      hstored
    exact calm_commit hcommit ⟨_, rfl, hdrawn, ⟨later.now, rfl⟩, rfl, rfl, _, hcommit⟩
  · rintro error later ⟨current, herror, -⟩
    cases herror

/-! ### Capture inside a caller's transaction -/

/-- The full capture of a hold. -/
def fullCapture (authorizationId : String) : CaptureInput := ⟨authorizationId, none, none⟩

/-- What a lone full capture of a stored hold comes to. -/
inductive CaptureEnd (db : Db) (held : PaymentAuthorization) :
    Except Thrown (Work × LedgerTransaction) → Prop where
  | found (existing : LedgerTransaction)
      (hfound : db.money.findTransactionByReference
        (fullCaptureReference held.authorizationId) = some existing) :
      CaptureEnd db held (.ok (UnitOfWork.empty, existing))
  | staged (wallet : Wallet) (requested closedAt : Int) (moved : LedgerTransaction)
      (hunused : db.money.findTransactionByReference
        (fullCaptureReference held.authorizationId) = none)
      (hamount : captureAmount db.now held (fullCapture held.authorizationId) = .ok requested)
      (hfresh : db.money.ledger.get moved.transactionId = none)
      (hreference : moved.businessReference = fullCaptureReference held.authorizationId)
      (hkind : moved.kind = .capture) (hhold : moved.authorizationId = some held.authorizationId)
      (hlegs : moved.entries = legs moved.transactionId held.currency clearingCaptured
        (walletAccount wallet.walletId) requested) :
      CaptureEnd db held
        (.ok (stageCapture UnitOfWork.empty held wallet requested closedAt moved, moved))
  | refused (error : Thrown)
      (hunused : db.money.findTransactionByReference
        (fullCaptureReference held.authorizationId) = none)
      (hunpaid : ∀ requested wallet,
        captureAmount db.now held (fullCapture held.authorizationId) = .ok requested →
          isId held.walletId = true → db.money.getWallet held.walletId ≠ some wallet) :
      CaptureEnd db held (.error error)

theorem captureWithin_ends {held : PaymentAuthorization} (hid : isId held.authorizationId = true)
    (hstored : db.money.getAuthorization held.authorizationId = some held)
    (hleft : ∃ id, Drawable db id) :
    Ends calm (fun result later => CaptureEnd db held result ∧ later = db)
      (captureWithin UnitOfWork.empty (fullCapture held.authorizationId)) db := by
  unfold captureWithin applyCaptureWithin
  refine ends_bind (p := fun result later => later = db ∧
    CaptureEnd db held (result.map fun done => (done.1, done.2.transaction))) ?_ ?_ ?_
  · have hchecked : assertId "authorization_id" held.authorizationId = .ok () := if_pos hid
    refine calm_settled hchecked (calm_read ?_)
    rw [show Query.eval db (.getAuthorization (fullCapture held.authorizationId).authorizationId) =
      some held from hstored]
    apply calm_read
    rw [show captureLedgerReference held.authorizationId (fullCapture held.authorizationId).key =
      fullCaptureReference held.authorizationId from rfl]
    cases hfound : db.money.findTransactionByReference
        (fullCaptureReference held.authorizationId) with
    | some existing =>
        rw [show Query.eval db (.findTransactionByReference
          (fullCaptureReference held.authorizationId)) = some existing from hfound]
        exact ⟨rfl, .found existing hfound⟩
    | none =>
        rw [show Query.eval db (.findTransactionByReference
          (fullCaptureReference held.authorizationId)) = none from hfound]
        apply calm_clock
        cases hamount : captureAmount db.now held (fullCapture held.authorizationId) with
        | error error =>
            exact ⟨rfl, .refused error hfound fun requested wallet h => by simp [hamount] at h⟩
        | ok requested =>
            apply calm_settled rfl
            by_cases hwallet : isId held.walletId = true ∧
                ∃ wallet, db.money.getWallet held.walletId = some wallet
            · obtain ⟨hwalletId, wallet, hwallet⟩ := hwallet
              apply requireWallet_ends hwalletId hwallet
              refine ends_bind (transaction_ends hleft) ?_ ?_
              · rintro value later ⟨moved, hvalue, rfl, hfresh, hreference, hkind, hhold, hlegs⟩
                obtain rfl := Except.ok.inj hvalue
                refine calm_clock ⟨rfl, ?_⟩
                exact .staged wallet requested later.now value hfound hamount hfresh hreference hkind
                  hhold hlegs
              · rintro error later ⟨moved, herror, -⟩
                cases herror
            · refine requireWallet_refused (fun hwalletId => ?_) fun error => ?_
              · exact Option.eq_none_iff_forall_ne_some.mpr
                  fun wallet hstored => hwallet ⟨hwalletId, wallet, hstored⟩
              · exact ⟨rfl, .refused error hfound fun _ wallet _ hwalletId hstored =>
                  hwallet ⟨hwalletId, wallet, hstored⟩⟩
  · rintro ⟨uow, captured⟩ later ⟨rfl, hend⟩
    exact ⟨hend, rfl⟩
  · rintro error later ⟨rfl, hend⟩
    exact ⟨hend, rfl⟩

end Money

end WaslaCore
