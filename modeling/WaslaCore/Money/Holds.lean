import WaslaCore.Money.Agreement

/-!
What any batch of money writes leaves alone, whoever staged it: a hold stays under
its business reference, two holds never share one, and the captured amount of a
hold moves only with a capture of it.
-/

namespace WaslaCore.Money

open WaslaCore.Data

/-- The hold is stored, under the business reference. -/
def HeldUnder (store : Store) (reference authorizationId : String) : Prop :=
  ∃ row, store.authorizations.get authorizationId = some row ∧ row.businessReference = reference

theorem HeldUnder.reference_unique {store : Store} {first second authorizationId : String}
    (h : HeldUnder store first authorizationId) (h' : HeldUnder store second authorizationId) :
    first = second := by
  obtain ⟨row, hrow, hreference⟩ := h
  obtain ⟨row', hrow', hreference'⟩ := h'
  rw [hrow] at hrow'
  rw [← hreference, ← hreference', Option.some.inj hrow']

/-- No two holds share a business reference. -/
def UniqueReferences (store : Store) : Prop :=
  ∀ reference first second, HeldUnder store reference first → HeldUnder store reference second →
    first = second

theorem uniqueReferences_empty : UniqueReferences Store.empty := by
  rintro reference first second ⟨row, hrow, -⟩
  cases hrow

theorem heldUnder_of_find {store : Store} {reference : String} {row : PaymentAuthorization}
    (hkeyed : ∀ id row, store.authorizations.get id = some row → row.authorizationId = id)
    (h : store.findAuthorizationByReference reference = some row) :
    HeldUnder store reference row.authorizationId := by
  obtain ⟨id, hid⟩ := Table.mem_values.mp (List.mem_of_find?_eq_some h)
  rw [hkeyed id row hid]
  exact ⟨row, hid, by simpa using List.find?_some h⟩

theorem not_heldUnder_of_find {store : Store} {reference authorizationId : String}
    (h : store.findAuthorizationByReference reference = none) :
    ¬HeldUnder store reference authorizationId := by
  rintro ⟨row, hrow, hreference⟩
  have hnone := List.find?_eq_none.mp h row (Table.mem_values.mpr ⟨authorizationId, hrow⟩)
  simp [hreference] at hnone

section Step

variable {store store' : Store} {write : Write}

/-- After a write a hold is under a reference where it was before, or where it was
just inserted under a reference nothing had. -/
theorem apply_heldUnder (h : write.apply store = .ok store') {reference authorizationId : String} :
    HeldUnder store' reference authorizationId ↔
      HeldUnder store reference authorizationId ∨
        ∃ row, write = .insertAuthorization row ∧ row.authorizationId = authorizationId ∧
          row.businessReference = reference := by
  cases write with
  | insertWallet wallet =>
      obtain ⟨-, rfl⟩ := insertWallet_ok h
      simp [HeldUnder]
  | insertAuthorization authorization =>
      obtain ⟨-, -, hnew, -, rfl⟩ := insertAuthorization_ok h
      simp only [HeldUnder, Table.get_put]
      by_cases hid : authorization.authorizationId = authorizationId
      · subst hid
        simp [hnew]
      · simp [hid]
  | updateAuthorization next =>
      rcases updateAuthorization_ok h with ⟨-, rfl⟩ | ⟨stored, hstored, -, rfl⟩
      · simp
      · simp only [HeldUnder, Table.get_put]
        by_cases hid : next.authorizationId = authorizationId
        · subst hid
          simp [hstored, PaymentAuthorization.revise]
        · simp [hid]
  | insertTransaction transaction =>
      obtain ⟨-, -, -, rfl⟩ := insertTransaction_ok h
      simp [HeldUnder]

theorem apply_uniqueReferences (h : write.apply store = .ok store')
    (hunique : UniqueReferences store) : UniqueReferences store' := by
  intro reference first second hfirst hsecond
  rcases (apply_heldUnder h).mp hfirst with hfirst | ⟨row, rfl, rfl, rfl⟩
  · rcases (apply_heldUnder h).mp hsecond with hsecond | ⟨row, rfl, rfl, rfl⟩
    · exact hunique reference first second hfirst hsecond
    · obtain ⟨-, -, -, hnone, -⟩ := insertAuthorization_ok h
      exact absurd hfirst (not_heldUnder_of_find hnone)
  · rcases (apply_heldUnder h).mp hsecond with hsecond | ⟨other, heq, rfl, -⟩
    · obtain ⟨-, -, -, hnone, -⟩ := insertAuthorization_ok h
      exact absurd hsecond (not_heldUnder_of_find hnone)
    · rw [Write.insertAuthorization.inj heq]

/-- A write that is no capture of the hold leaves what the ledger captured on it. -/
theorem apply_captured (h : write.apply store = .ok store') {authorizationId : String}
    (hnot : ∀ moved, write = .insertTransaction moved → moved.kind = .capture →
      moved.authorizationId ≠ some authorizationId) :
    store'.ledgerCaptured authorizationId = store.ledgerCaptured authorizationId := by
  cases write with
  | insertWallet wallet =>
      obtain ⟨-, rfl⟩ := insertWallet_ok h
      rfl
  | insertAuthorization authorization =>
      obtain ⟨-, -, -, -, rfl⟩ := insertAuthorization_ok h
      rfl
  | updateAuthorization next =>
      rcases updateAuthorization_ok h with ⟨-, rfl⟩ | ⟨stored, -, -, rfl⟩ <;> rfl
  | insertTransaction moved =>
      obtain ⟨hfresh, -, -, rfl⟩ := insertTransaction_ok h
      have hzero : moved.capturedLeg authorizationId = 0 := by
        unfold LedgerTransaction.capturedLeg
        rw [if_neg]
        rintro ⟨hown, hkind⟩
        exact hnot moved rfl hkind hown
      rw [Store.ledgerCaptured, Table.total_put_new _ _ hfresh, hzero, Int.add_zero]
      rfl

end Step

section Writes

variable {store store' : Store} {writes : List Write}

theorem applyAll_heldUnder (h : applyAll store writes = .ok store')
    {reference authorizationId : String} (hheld : HeldUnder store reference authorizationId) :
    HeldUnder store' reference authorizationId :=
  applyAll_keeps (P := fun later => HeldUnder later reference authorizationId)
    (fun _ _ _ _ hwrite hbefore => (apply_heldUnder hwrite).mpr (.inl hbefore)) h hheld

/-- A hold that stands authorized after the writes stood authorized before them under
its reference, or was inserted, where no update authorizes one. -/
theorem applyAll_authorized (h : applyAll store writes = .ok store')
    (hcloses : ∀ next, .updateAuthorization next ∈ writes → next.status ≠ .authorized)
    {authorizationId : String} {row : PaymentAuthorization}
    (hrow : store'.authorizations.get authorizationId = some row)
    (hopen : row.status = .authorized) :
    store.authorizations.get authorizationId = some row ∨ .insertAuthorization row ∈ writes := by
  induction writes generalizing store with
  | nil =>
      obtain rfl := Except.ok.inj h
      exact .inl hrow
  | cons write rest ih =>
      obtain ⟨middle, hwrite, hrest⟩ := applyAll_cons h
      rcases ih hrest (fun next hnext => hcloses next (List.mem_cons_of_mem write hnext)) with
        hmiddle | hinserted
      · cases write with
        | insertWallet wallet =>
            obtain ⟨-, rfl⟩ := insertWallet_ok hwrite
            exact .inl hmiddle
        | insertAuthorization authorization =>
            obtain ⟨-, -, -, -, rfl⟩ := insertAuthorization_ok hwrite
            rw [Table.get_put] at hmiddle
            split at hmiddle
            · obtain rfl := Option.some.inj hmiddle
              exact .inr List.mem_cons_self
            · exact .inl hmiddle
        | updateAuthorization next =>
            rcases updateAuthorization_ok hwrite with ⟨-, rfl⟩ | ⟨stored, -, -, rfl⟩
            · exact .inl hmiddle
            · rw [Table.get_put] at hmiddle
              split at hmiddle
              · obtain rfl := Option.some.inj hmiddle
                exact absurd hopen (hcloses next List.mem_cons_self)
              · exact .inl hmiddle
        | insertTransaction transaction =>
            obtain ⟨-, -, -, rfl⟩ := insertTransaction_ok hwrite
            exact .inl hmiddle
      · exact .inr (List.mem_cons_of_mem write hinserted)

/-- A hold that was inserted is there, under its own reference. -/
theorem applyAll_inserted (h : applyAll store writes = .ok store') {row : PaymentAuthorization}
    (hmember : .insertAuthorization row ∈ writes) :
    HeldUnder store' row.businessReference row.authorizationId := by
  induction writes generalizing store with
  | nil => cases hmember
  | cons write rest ih =>
      obtain ⟨middle, hwrite, hrest⟩ := applyAll_cons h
      rcases List.mem_cons.mp hmember with rfl | hlater
      · exact applyAll_heldUnder hrest ((apply_heldUnder hwrite).mpr (.inr ⟨row, rfl, rfl, rfl⟩))
      · exact ih hrest hlater

theorem applyAll_uniqueReferences (h : applyAll store writes = .ok store')
    (hunique : UniqueReferences store) : UniqueReferences store' :=
  applyAll_keeps (fun _ _ _ _ hwrite hbefore => apply_uniqueReferences hwrite hbefore) h hunique

theorem applyAll_captured (h : applyAll store writes = .ok store') {authorizationId : String}
    (hnot : ∀ moved, .insertTransaction moved ∈ writes → moved.kind = .capture →
      moved.authorizationId ≠ some authorizationId) :
    store'.ledgerCaptured authorizationId = store.ledgerCaptured authorizationId := by
  apply applyAll_keeps (P := fun later =>
    later.ledgerCaptured authorizationId = store.ledgerCaptured authorizationId) _ h rfl
  intro write hmember before after hwrite hbefore
  rw [← hbefore]
  apply apply_captured hwrite
  rintro moved rfl
  exact hnot moved hmember

end Writes

/-- A hold the ledger captured something on has a capture in the ledger. -/
theorem Agreement.capture_of_captured {store : Store} (h : Agreement store)
    {authorizationId : String} {row : PaymentAuthorization}
    (hrow : store.authorizations.get authorizationId = some row) (hcaptured : 0 < row.capturedMinor) :
    ∃ moved ∈ store.ledger.values, moved.kind = .capture ∧
      moved.authorizationId = some authorizationId := by
  by_contra hnone
  have hzero : store.ledgerCaptured authorizationId = 0 := by
    refine Table.total_eq_zero fun moved hmoved => ?_
    unfold LedgerTransaction.capturedLeg
    rw [if_neg]
    rintro ⟨hown, hkind⟩
    exact hnone ⟨moved, hmoved, hkind, hown⟩
  rw [h.captured authorizationId row hrow, hzero] at hcaptured
  exact absurd hcaptured (by decide)

end WaslaCore.Money
