import WaslaCore.Money.Effects

/-!
What a read goes on telling about every later store: a hold that was read stays,
with the columns no operation changes, and so does a transaction that was found.
Nothing is promised about the status or the amounts of a hold.
-/

namespace WaslaCore.Money

open WaslaCore.Data WaslaCore.Platform

/-- Two rows of one hold agree on the columns no operation changes. -/
structure SameHold (stored row : PaymentAuthorization) : Prop where
  walletId : stored.walletId = row.walletId
  amountMinor : stored.amountMinor = row.amountMinor
  expiresAt : stored.expiresAt = row.expiresAt

theorem SameHold.refl (row : PaymentAuthorization) : SameHold row row := ⟨rfl, rfl, rfl⟩

theorem SameHold.trans {first second third : PaymentAuthorization} (h : SameHold first second)
    (h' : SameHold second third) : SameHold first third :=
  ⟨h.walletId.trans h'.walletId, h.amountMinor.trans h'.amountMinor,
    h.expiresAt.trans h'.expiresAt⟩

/-- The hold a row was read from is still there. -/
def Recalls (store : Store) (row : PaymentAuthorization) : Prop :=
  ∃ stored, store.authorizations.get row.authorizationId = some stored ∧ SameHold stored row

/-- Holds stay, and the ledger only grows. -/
structure Lasting (store store' : Store) : Prop where
  holds : ∀ id row, store.authorizations.get id = some row →
    ∃ row', store'.authorizations.get id = some row' ∧ SameHold row' row
  ledger : ∀ id transaction, store.ledger.get id = some transaction →
    store'.ledger.get id = some transaction

namespace Lasting

theorem refl (store : Store) : Lasting store store :=
  ⟨fun _ row hrow => ⟨row, hrow, SameHold.refl row⟩, fun _ _ h => h⟩

theorem trans {first second third : Store} (h : Lasting first second) (h' : Lasting second third) :
    Lasting first third := by
  refine ⟨fun id row hrow => ?_, fun id transaction hfound =>
    h'.ledger id transaction (h.ledger id transaction hfound)⟩
  obtain ⟨middle, hmiddle, hsame⟩ := h.holds id row hrow
  obtain ⟨last, hlast, hsame'⟩ := h'.holds id middle hmiddle
  exact ⟨last, hlast, hsame'.trans hsame⟩

theorem recalls {store store' : Store} (h : Lasting store store') {row : PaymentAuthorization}
    (hrow : Recalls store row) : Recalls store' row := by
  obtain ⟨stored, hstored, hsame⟩ := hrow
  obtain ⟨after, hafter, hsame'⟩ := h.holds _ stored hstored
  exact ⟨after, hafter, hsame'.trans hsame⟩

theorem transactions {store store' : Store} (h : Lasting store store')
    {transaction : LedgerTransaction} (hmember : transaction ∈ store.ledger.values) :
    transaction ∈ store'.ledger.values := by
  obtain ⟨id, hid⟩ := Table.mem_values.mp hmember
  exact Table.mem_values.mpr ⟨id, h.ledger id transaction hid⟩

end Lasting

section Preservation

variable {store store' : Store}

theorem ledger_put_lasting {ledger : Table LedgerTransaction} {moved : LedgerTransaction}
    (hfresh : ledger.get moved.transactionId = none) {id : String} {transaction : LedgerTransaction}
    (h : ledger.get id = some transaction) :
    (ledger.put moved.transactionId moved).get id = some transaction := by
  rw [Table.get_put_ne _ _ ?_]
  · exact h
  · rintro rfl
    rw [hfresh] at h
    cases h

/-- Rewriting a hold from a row read of it keeps every hold. -/
theorem Rewritten.holds {stored next : PaymentAuthorization}
    (h : Rewritten store store' stored next) (hsame : SameHold stored next) {id : String}
    {row : PaymentAuthorization} (hrow : store.authorizations.get id = some row) :
    ∃ row', store'.authorizations.get id = some row' ∧ SameHold row' row := by
  by_cases hid : next.authorizationId = id
  · subst hid
    rw [h.stored_eq] at hrow
    obtain rfl := Option.some.inj hrow
    exact ⟨_, h.get_self, rfl, rfl, hsame.expiresAt.symm⟩
  · exact ⟨row, by rw [h.get_ne hid, hrow], SameHold.refl row⟩

/-- A movement whose hold is still the one that was read keeps what was read. -/
theorem Effect.lasting {movement : Movement} (h : Effect store store' movement)
    (hbase : ∀ row, movement.base = some row → Recalls store row) : Lasting store store' := by
  -- the stored row a movement rewrites is the one its base was read from
  have hsame : ∀ {row stored next : PaymentAuthorization}, movement.base = some row →
      next.authorizationId = row.authorizationId → SameHold row next →
      store.authorizations.get next.authorizationId = some stored → SameHold stored next := by
    intro row stored next hrow hid hnext hstored
    obtain ⟨found, hfound, hrecalled⟩ := hbase row hrow
    rw [hid, hfound] at hstored
    obtain rfl := Option.some.inj hstored
    exact hrecalled.trans hnext
  cases h with
  | unmoved _ hholds hledger =>
      constructor
      · exact fun id row hrow => ⟨row, by rw [hholds, hrow], SameHold.refl row⟩
      · exact fun id transaction hfound => by rw [hledger, hfound]
  | credited hfresh hholds hledger =>
      constructor
      · exact fun id row hrow => ⟨row, by rw [hholds, hrow], SameHold.refl row⟩
      · exact fun id transaction hfound => by rw [hledger, ledger_put_lasting hfresh hfound]
  | @authorized row hfresh hholds hledger =>
      constructor
      · intro id old hold
        refine ⟨old, ?_, SameHold.refl old⟩
        rw [hholds, Table.get_put_ne _ _ ?_, hold]
        rintro rfl
        rw [hfresh] at hold
        cases hold
      · exact fun id transaction hfound => by rw [hledger, hfound]
  | captured hrow hfresh hledger =>
      constructor
      · exact fun id row => hrow.holds (hsame rfl rfl ⟨rfl, rfl, rfl⟩ hrow.stored_eq)
      · exact fun id transaction hfound => by rw [hledger, ledger_put_lasting hfresh hfound]
  | refunded hrow hfresh hledger =>
      constructor
      · exact fun id row => hrow.holds (hsame rfl rfl ⟨rfl, rfl, rfl⟩ hrow.stored_eq)
      · exact fun id transaction hfound => by rw [hledger, ledger_put_lasting hfresh hfound]
  | voided hrow hledger =>
      constructor
      · exact fun id row => hrow.holds (hsame rfl rfl ⟨rfl, rfl, rfl⟩ hrow.stored_eq)
      · exact fun id transaction hfound => by rw [hledger, hfound]
  | missed _ hholds hledger =>
      constructor
      · exact fun id row hrow => ⟨row, by rw [hholds, hrow], SameHold.refl row⟩
      · exact fun id transaction hfound => by rw [hledger, hfound]

end Preservation

/-- A row a legal movement rewrites was read by its call. -/
theorem Movement.base_read {seen : Seen} {movement : Movement} (hlegal : movement.Legal seen)
    {row : PaymentAuthorization} (h : movement.base = some row) :
    lastRead row.authorizationId seen = some row := by
  cases movement with
  | none => cases h
  | createWallet wallet => cases h
  | credit wallet amount moved => cases h
  | authorize authorization => cases h
  | capture authorization wallet requested closedAt moved =>
      obtain rfl := Option.some.inj h
      exact hlegal.1
  | refund authorization wallet requested reason moved =>
      obtain rfl := Option.some.inj h
      exact hlegal.1
  | void authorization reason voidedAt closedAt =>
      obtain rfl := Option.some.inj h
      exact hlegal.1

/-- Every hold a read shows is stored under the identifier it carries. -/
theorem read_recalls {store : Store} (hagree : Agreement store) {row : PaymentAuthorization}
    (hmember : row ∈ store.authorizations.values) : Recalls store row := by
  obtain ⟨id, hid⟩ := Table.mem_values.mp hmember
  exact ⟨row, by rw [hagree.keyed id row hid, hid], SameHold.refl row⟩

end WaslaCore.Money
