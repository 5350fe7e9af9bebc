import WaslaCore.Completed

/-!
Calls of `credit` and `authorize` that find a record under their reference. The record
is answered as it stands: nothing compares it with the request, so what a caller is
told is what it asked for exactly where the record already is.
-/

namespace WaslaCore

open Platform Interleaving Data

namespace Money

/-- The hold is the one asked for: on that wallet, for that amount, in its currency. -/
structure AuthorizeInput.MetBy (input : AuthorizeInput) (wallet : Wallet)
    (row : PaymentAuthorization) : Prop where
  walletId : row.walletId = wallet.walletId
  amount : row.amountMinor = input.amountMinor
  currency : row.currency = wallet.currency

/-- The movement is the one asked for: it posts that amount to that wallet, in its
currency. -/
def CreditInput.MetBy (input : CreditInput) (wallet : Wallet) (moved : LedgerTransaction) : Prop :=
  ∃ leg ∈ moved.entries, leg.accountReference = walletAccount wallet.walletId ∧
    leg.amountMinor = input.amountMinor ∧ leg.currency = wallet.currency

/-- A request that is not refused before its reference is looked up. -/
structure Considered (db : Db) (walletId : String) (amount : Int) (wallet : Wallet) : Prop where
  id : isId walletId = true
  found : db.money.getWallet walletId = some wallet
  amount : assertAmount amount = .ok ()

section Answers

variable {db db' : Db}

/-- An `authorize` whose reference stands answers the hold it stands for. -/
theorem authorize_found {input : AuthorizeInput} {existing row : PaymentAuthorization}
    (hexisting : db.money.findAuthorizationByReference input.businessReference = some existing) :
    Completes core (authorize input) db (.ok row) db' ↔
      (∃ wallet, Considered db input.walletId input.amountMinor wallet) ∧
        row = existing ∧ db' = db := by
  unfold authorize
  rw [completes_requireWallet]
  constructor
  · rintro ⟨hid, wallet, hwallet, hrest⟩
    obtain ⟨⟨⟩, hamount, hrest⟩ := completes_settled.mp hrest
    have hanswer := completes_read.mp hrest
    dsimp only [Query.eval] at hanswer
    rw [hexisting] at hanswer
    obtain ⟨rfl, rfl⟩ := completes_pure.mp hanswer
    exact ⟨⟨wallet, hid, hwallet, hamount⟩, rfl, rfl⟩
  · rintro ⟨⟨wallet, hconsidered⟩, rfl, rfl⟩
    refine ⟨hconsidered.id, wallet, hconsidered.found, ?_⟩
    refine completes_settled.mpr ⟨(), hconsidered.amount, completes_read.mpr ?_⟩
    dsimp only [Query.eval]
    rw [hexisting]
    exact completes_pure.mpr ⟨rfl, rfl⟩

/-- Reading a balance moves nothing. -/
theorem completes_balance {walletId : String} {β : Type} {next : Balance → Call β} {value : β}
    (h : Completes core (balance walletId >>= next) db (.ok value) db') :
    ∃ current, Completes core (next current) db (.ok value) db' := by
  obtain ⟨current, middle, hbalance, hnext⟩ := completes_then.mp h
  obtain ⟨-, wallet, -, hrest⟩ := completes_requireWallet.mp hbalance
  have hrest := completes_clock.mp (completes_read.mp (completes_read.mp hrest))
  obtain ⟨-, rfl⟩ := completes_pure.mp hrest
  exact ⟨current, hnext⟩

/-- The one row a hold's own commit adds is the one its reference finds. -/
theorem stageAuthorize_found {row : PaymentAuthorization}
    (h : db.commit (stageAuthorize UnitOfWork.empty row) = .ok db') :
    db'.money.findAuthorizationByReference row.businessReference = some row := by
  obtain ⟨middle, hwrite, hrest⟩ := applyAll_cons (commit_money h).1
  obtain ⟨-, -, hnew, hunused, rfl⟩ := insertAuthorization_ok hwrite
  have hmoney := Except.ok.inj hrest
  have hvalues := Table.values_put_new row hnew
  unfold Store.findAuthorizationByReference at hunused ⊢
  rw [← hmoney, hvalues, List.find?_append, hunused]
  simp

/-- An `authorize` whose reference is free answers the hold asked for, and leaves it
under the reference. -/
theorem authorize_fresh {input : AuthorizeInput} {row : PaymentAuthorization}
    (hfresh : db.money.findAuthorizationByReference input.businessReference = none)
    (h : Completes core (authorize input) db (.ok row) db') :
    (∃ wallet, Considered db input.walletId input.amountMinor wallet ∧ input.MetBy wallet row) ∧
      db'.money.findAuthorizationByReference input.businessReference = some row := by
  unfold authorize at h
  obtain ⟨hid, wallet, hwallet, hrest⟩ := completes_requireWallet.mp h
  obtain ⟨⟨⟩, hamount, hrest⟩ := completes_settled.mp hrest
  have hrest := completes_read.mp hrest
  dsimp only [Query.eval] at hrest
  rw [hfresh] at hrest
  dsimp only at hrest
  split at hrest
  · cases hrest
  obtain ⟨current, hrest⟩ := completes_balance hrest
  split at hrest
  · cases hrest
  obtain ⟨authorizationId, -, hrest⟩ := completes_newId.mp hrest
  obtain ⟨expiresAt, -, hrest⟩ := completes_settled.mp (completes_clock.mp (completes_clock.mp hrest))
  obtain ⟨⟨⟩, committed, htransaction, hrest⟩ := completes_then.mp hrest
  obtain ⟨uow, middle, hbody, hcommit⟩ := completes_transaction.mp htransaction
  obtain ⟨hstaged, rfl⟩ := completes_pure.mp hbody
  obtain rfl := (Prod.mk.inj hstaged).1
  obtain ⟨rfl, rfl⟩ := completes_pure.mp hrest
  exact ⟨⟨wallet, ⟨hid, hwallet, hamount⟩, rfl, rfl, rfl⟩, stageAuthorize_found hcommit⟩

/-- A `credit` whose reference stands answers the movement it stands for. -/
theorem credit_found {input : CreditInput} {existing moved : LedgerTransaction}
    (hexisting : db.money.findTransactionByReference input.businessReference = some existing) :
    Completes core (credit input) db (.ok moved) db' ↔
      (∃ wallet, Considered db input.walletId input.amountMinor wallet) ∧
        moved = existing ∧ db' = db := by
  unfold credit
  rw [completes_requireWallet]
  constructor
  · rintro ⟨hid, wallet, hwallet, hrest⟩
    obtain ⟨⟨⟩, hamount, hrest⟩ := completes_settled.mp hrest
    have hanswer := completes_read.mp hrest
    dsimp only [Query.eval] at hanswer
    rw [hexisting] at hanswer
    obtain ⟨rfl, rfl⟩ := completes_pure.mp hanswer
    exact ⟨⟨wallet, hid, hwallet, hamount⟩, rfl, rfl⟩
  · rintro ⟨⟨wallet, hconsidered⟩, rfl, rfl⟩
    refine ⟨hconsidered.id, wallet, hconsidered.found, ?_⟩
    refine completes_settled.mpr ⟨(), hconsidered.amount, completes_read.mpr ?_⟩
    dsimp only [Query.eval]
    rw [hexisting]
    exact completes_pure.mpr ⟨rfl, rfl⟩

end Answers

/-- An `authorize` that finds its reference used answers a hold that is the one asked
for: a reference reused for another wallet or amount gets no answer. -/
def AuthorizesAlike (db : Db) (input : AuthorizeInput) : Prop :=
  ∀ existing, db.money.findAuthorizationByReference input.businessReference = some existing →
    ∀ row db', Completes core (authorize input) db (.ok row) db' →
      row = existing ∧
        ∃ wallet, Considered db input.walletId input.amountMinor wallet ∧ input.MetBy wallet row

/-- A `credit` that finds its reference used answers a movement that is the one asked for. -/
def CreditsAlike (db : Db) (input : CreditInput) : Prop :=
  ∀ existing, db.money.findTransactionByReference input.businessReference = some existing →
    ∀ moved db', Completes core (credit input) db (.ok moved) db' →
      moved = existing ∧
        ∃ wallet, Considered db input.walletId input.amountMinor wallet ∧ input.MetBy wallet moved

/-- The hold standing under the reference, if any, is the one asked for. -/
def HeldAlike (db : Db) (input : AuthorizeInput) : Prop :=
  ∀ existing wallet,
    db.money.findAuthorizationByReference input.businessReference = some existing →
      Considered db input.walletId input.amountMinor wallet → input.MetBy wallet existing

/-- The movement standing under the reference, if any, is the one asked for. -/
def PostedAlike (db : Db) (input : CreditInput) : Prop :=
  ∀ existing wallet,
    db.money.findTransactionByReference input.businessReference = some existing →
      Considered db input.walletId input.amountMinor wallet → input.MetBy wallet existing

theorem Considered.unique {db : Db} {walletId : String} {amount : Int} {wallet other : Wallet}
    (h : Considered db walletId amount wallet) (h' : Considered db walletId amount other) :
    wallet = other :=
  Option.some.inj (h.found.symm.trans h'.found)

theorem authorizesAlike_iff (db : Db) (input : AuthorizeInput) :
    AuthorizesAlike db input ↔ HeldAlike db input := by
  constructor
  · intro h existing wallet hexisting hconsidered
    have hanswer := (authorize_found hexisting).mpr ⟨⟨wallet, hconsidered⟩, rfl, rfl⟩
    obtain ⟨-, other, hother, hmet⟩ := h existing hexisting existing db hanswer
    rwa [← hconsidered.unique hother] at hmet
  · intro h existing hexisting row db' hanswer
    obtain ⟨⟨wallet, hconsidered⟩, rfl, -⟩ := (authorize_found hexisting).mp hanswer
    exact ⟨rfl, wallet, hconsidered, h row wallet hexisting hconsidered⟩

theorem creditsAlike_iff (db : Db) (input : CreditInput) :
    CreditsAlike db input ↔ PostedAlike db input := by
  constructor
  · intro h existing wallet hexisting hconsidered
    have hanswer := (credit_found hexisting).mpr ⟨⟨wallet, hconsidered⟩, rfl, rfl⟩
    obtain ⟨-, other, hother, hmet⟩ := h existing hexisting existing db hanswer
    rwa [← hconsidered.unique hother] at hmet
  · intro h existing hexisting moved db' hanswer
    obtain ⟨⟨wallet, hconsidered⟩, rfl, -⟩ := (credit_found hexisting).mp hanswer
    exact ⟨rfl, wallet, hconsidered, h moved wallet hexisting hconsidered⟩

end Money

end WaslaCore
