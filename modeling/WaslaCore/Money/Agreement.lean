import WaslaCore.Conduct

/-!
The amounts on every hold are what the ledger says moved. The writes of one
commit may pass through states where they are not; the checks deferred to the
commit look at every hold a write touched, and a hold no write touched has
neither its row nor its ledger legs changed.
-/

namespace WaslaCore.Money

open WaslaCore.Data WaslaCore.Interleaving WaslaCore.Platform

/-- Rows and ledger agree, rows are well shaped, transactions sum to zero. -/
structure Agreement (store : Store) : Prop where
  captured : ∀ id row, store.authorizations.get id = some row →
    row.capturedMinor = store.ledgerCaptured id
  refunded : ∀ id row, store.authorizations.get id = some row →
    row.refundedMinor = store.ledgerRefunded id
  shaped : ∀ id row, store.authorizations.get id = some row → WellShaped row
  keyed : ∀ id row, store.authorizations.get id = some row → row.authorizationId = id
  balanced : ∀ transaction ∈ store.ledger.values, transaction.sum = 0

theorem agreement_empty : Agreement Store.empty := by
  constructor <;> simp [Store.empty]

/-- The hold whose agreement a write puts in question. -/
def Write.touched : Write → Option String
  | .insertWallet _ => none
  | .insertAuthorization authorization => some authorization.authorizationId
  | .updateAuthorization next => some next.authorizationId
  | .insertTransaction transaction => transaction.authorizationId

/-- A hold no write touched keeps its row and its ledger legs. -/
structure Untouched (store store' : Store) (id : String) : Prop where
  row : store'.authorizations.get id = store.authorizations.get id
  captured : store'.ledgerCaptured id = store.ledgerCaptured id
  refunded : store'.ledgerRefunded id = store.ledgerRefunded id

theorem Untouched.refl (store : Store) (id : String) : Untouched store store id :=
  ⟨rfl, rfl, rfl⟩

theorem Untouched.trans {first second third : Store} {id : String}
    (h : Untouched first second id) (h' : Untouched second third id) :
    Untouched first third id :=
  ⟨h'.row.trans h.row, h'.captured.trans h.captured, h'.refunded.trans h.refunded⟩

section Step

variable {store store' : Store} {write : Write}

theorem apply_untouched (h : write.apply store = .ok store') {id : String}
    (hid : write.touched ≠ some id) : Untouched store store' id := by
  cases write with
  | insertWallet wallet =>
      obtain ⟨-, rfl⟩ := insertWallet_ok h
      exact ⟨rfl, rfl, rfl⟩
  | insertAuthorization authorization =>
      obtain ⟨-, -, -, -, rfl⟩ := insertAuthorization_ok h
      refine ⟨Table.get_put_ne _ _ ?_, rfl, rfl⟩
      rintro rfl
      exact hid rfl
  | updateAuthorization next =>
      have hne : next.authorizationId ≠ id := fun heq => hid (congrArg some heq)
      rcases updateAuthorization_ok h with ⟨-, rfl⟩ | ⟨stored, -, -, rfl⟩
      · exact Untouched.refl store' id
      · exact ⟨Table.get_put_ne _ _ hne, rfl, rfl⟩
  | insertTransaction transaction =>
      obtain ⟨hfresh, -, -, rfl⟩ := insertTransaction_ok h
      have hne : transaction.authorizationId ≠ some id := hid
      refine ⟨rfl, ?_, ?_⟩
      · simp [Store.ledgerCaptured, Table.total_put_new _ _ hfresh,
          LedgerTransaction.capturedLeg, hne]
      · simp [Store.ledgerRefunded, Table.total_put_new _ _ hfresh,
          LedgerTransaction.refundedLeg, hne]

/-- Each write leaves only well-shaped rows under their own key. -/
theorem apply_rows (h : write.apply store = .ok store')
    (hshaped : ∀ id row, store.authorizations.get id = some row → WellShaped row)
    (hkeyed : ∀ id row, store.authorizations.get id = some row → row.authorizationId = id)
    {id : String} {row : PaymentAuthorization} (hrow : store'.authorizations.get id = some row) :
    WellShaped row ∧ row.authorizationId = id := by
  cases write with
  | insertWallet wallet =>
      obtain ⟨-, rfl⟩ := insertWallet_ok h
      exact ⟨hshaped id row hrow, hkeyed id row hrow⟩
  | insertAuthorization authorization =>
      obtain ⟨hshape, -, -, -, rfl⟩ := insertAuthorization_ok h
      rw [Table.get_put] at hrow
      split at hrow
      · rename_i hid
        obtain rfl := Option.some.inj hrow
        exact ⟨hshape, hid⟩
      · exact ⟨hshaped id row hrow, hkeyed id row hrow⟩
  | updateAuthorization next =>
      rcases updateAuthorization_ok h with ⟨-, rfl⟩ | ⟨stored, hstored, hshape, rfl⟩
      · exact ⟨hshaped id row hrow, hkeyed id row hrow⟩
      · rw [Table.get_put] at hrow
        split at hrow
        · rename_i hid
          obtain rfl := Option.some.inj hrow
          refine ⟨hshape, ?_⟩
          rw [← hid]
          exact hkeyed _ stored hstored
        · exact ⟨hshaped id row hrow, hkeyed id row hrow⟩
  | insertTransaction transaction =>
      obtain ⟨-, -, -, rfl⟩ := insertTransaction_ok h
      exact ⟨hshaped id row hrow, hkeyed id row hrow⟩

/-- A transaction in the ledger was there already or is the one written. -/
theorem apply_ledger (h : write.apply store = .ok store') {transaction : LedgerTransaction}
    (hmember : transaction ∈ store'.ledger.values) :
    transaction ∈ store.ledger.values ∨ write = .insertTransaction transaction := by
  cases write with
  | insertWallet wallet =>
      obtain ⟨-, rfl⟩ := insertWallet_ok h
      exact .inl hmember
  | insertAuthorization authorization =>
      obtain ⟨-, -, -, -, rfl⟩ := insertAuthorization_ok h
      exact .inl hmember
  | updateAuthorization next =>
      rcases updateAuthorization_ok h with ⟨-, rfl⟩ | ⟨stored, -, -, rfl⟩
      · exact .inl hmember
      · exact .inl hmember
  | insertTransaction inserted =>
      obtain ⟨-, -, -, rfl⟩ := insertTransaction_ok h
      rcases Table.mem_values_put hmember with hold | rfl
      · exact .inl hold
      · exact .inr rfl

end Step

section Writes

variable {store store' : Store} {writes : List Write}

theorem applyAll_untouched (h : applyAll store writes = .ok store') {id : String}
    (hid : ∀ write ∈ writes, write.touched ≠ some id) : Untouched store store' id := by
  apply applyAll_keeps (P := fun later => Untouched store later id) _ h (Untouched.refl store id)
  intro write hmember before after hwrite hbefore
  exact hbefore.trans (apply_untouched hwrite (hid write hmember))

theorem applyAll_rows (h : applyAll store writes = .ok store')
    (hshaped : ∀ id row, store.authorizations.get id = some row → WellShaped row)
    (hkeyed : ∀ id row, store.authorizations.get id = some row → row.authorizationId = id)
    {id : String} {row : PaymentAuthorization} (hrow : store'.authorizations.get id = some row) :
    WellShaped row ∧ row.authorizationId = id := by
  have hrows : ∀ id row, store'.authorizations.get id = some row →
      WellShaped row ∧ row.authorizationId = id := by
    apply applyAll_keeps (P := fun later => ∀ id row, later.authorizations.get id = some row →
      WellShaped row ∧ row.authorizationId = id) _ h
      (fun id row hrow => ⟨hshaped id row hrow, hkeyed id row hrow⟩)
    intro write _ before after hwrite hbefore id row hafter
    exact apply_rows hwrite (fun id row hrow => (hbefore id row hrow).1)
      (fun id row hrow => (hbefore id row hrow).2) hafter
  exact hrows id row hrow

theorem applyAll_ledger (h : applyAll store writes = .ok store') {transaction : LedgerTransaction}
    (hmember : transaction ∈ store'.ledger.values) :
    transaction ∈ store.ledger.values ∨ .insertTransaction transaction ∈ writes := by
  have hposted : ∀ moved ∈ store'.ledger.values,
      moved ∈ store.ledger.values ∨ .insertTransaction moved ∈ writes := by
    apply applyAll_keeps (P := fun later => ∀ moved ∈ later.ledger.values,
      moved ∈ store.ledger.values ∨ .insertTransaction moved ∈ writes) _ h (fun _ => .inl)
    intro write hwritten before after hwrite hbefore moved hmoved
    rcases apply_ledger hwrite hmoved with hold | rfl
    · exact hbefore moved hold
    · exact .inr hwritten
  exact hposted transaction hmember

/-- A hold some write touched was checked against the ledger at the commit. -/
theorem verified_touched (h : verifyAll store' writes = .ok ()) {write : Write}
    (hmember : write ∈ writes) {id : String} (hid : write.touched = some id)
    {row : PaymentAuthorization} (hrow : store'.authorizations.get id = some row) :
    row.capturedMinor = store'.ledgerCaptured id ∧ row.refundedMinor = store'.ledgerRefunded id := by
  have hverified := verifyAll_mem h hmember
  cases write with
  | insertWallet wallet => cases hid
  | insertAuthorization authorization =>
      obtain rfl := Option.some.inj hid
      exact assertLedgerAgreement_ok hverified hrow
  | updateAuthorization next =>
      obtain rfl := Option.some.inj hid
      exact assertLedgerAgreement_ok hverified hrow
  | insertTransaction transaction =>
      have hid : transaction.authorizationId = some id := hid
      simp only [Write.verify, hid] at hverified
      split at hverified
      · cases hverified
      · exact assertLedgerAgreement_ok hverified hrow

/-- A verified batch of writes, whatever it is, keeps the agreement. -/
theorem Agreement.commit (hagree : Agreement store) (happly : applyAll store writes = .ok store')
    (hverify : verifyAll store' writes = .ok ()) : Agreement store' := by
  have hagrees : ∀ id row, store'.authorizations.get id = some row →
      row.capturedMinor = store'.ledgerCaptured id ∧
        row.refundedMinor = store'.ledgerRefunded id := by
    intro id row hrow
    by_cases htouched : ∃ write ∈ writes, write.touched = some id
    · obtain ⟨write, hmember, hid⟩ := htouched
      exact verified_touched hverify hmember hid hrow
    · have hframe : Untouched store store' id := applyAll_untouched happly
        (fun write hmember hid => htouched ⟨write, hmember, hid⟩)
      rw [hframe.row] at hrow
      rw [hframe.captured, hframe.refunded]
      exact ⟨hagree.captured id row hrow, hagree.refunded id row hrow⟩
  constructor
  · exact fun id row hrow => (hagrees id row hrow).1
  · exact fun id row hrow => (hagrees id row hrow).2
  · exact fun id row hrow => (applyAll_rows happly hagree.shaped hagree.keyed hrow).1
  · exact fun id row hrow => (applyAll_rows happly hagree.shaped hagree.keyed hrow).2
  · intro transaction hmember
    rcases applyAll_ledger happly hmember with hold | hnew
    · exact hagree.balanced transaction hold
    · have hverified := verifyAll_mem hverify hnew
      simp only [Write.verify] at hverified
      split at hverified
      · cases hverified
      · rename_i hbalanced
        exact assertBalanced_sum hbalanced

end Writes

end WaslaCore.Money
