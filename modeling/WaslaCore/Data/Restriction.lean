import WaslaCore.Data.Table

/-!
A table seen through what one party may see of it. Two tables agree for the party when they
are the same once the other rows are taken out, each by its own rule: what may be seen of a
row can depend on the rows around it.
-/

namespace WaslaCore.Data

variable {α : Type}

/-- The rows that are kept, where they stand. -/
def Table.restrict (table : Table α) (keep : α → Bool) : Table α :=
  ⟨table.entries.filter (fun entry => keep entry.2),
    table.nodup.sublist (List.filter_sublist.map Prod.fst)⟩

theorem Table.mem_restrict {table : Table α} {keep : α → Bool} {key : String} {row : α} :
    (table.restrict keep).get key = some row ↔ table.get key = some row ∧ keep row = true := by
  rw [Table.get_eq_some, Table.get_eq_some]
  exact List.mem_filter

theorem Table.values_restrict (table : Table α) (keep : α → Bool) :
    (table.restrict keep).values = table.values.filter keep := by
  unfold Table.values Table.restrict
  rw [List.filter_map]
  rfl

theorem Table.restrict_congr {table : Table α} {keep keep' : α → Bool}
    (h : ∀ row ∈ table.values, keep row = keep' row) :
    table.restrict keep = table.restrict keep' := by
  unfold Table.restrict
  simp only [Table.mk.injEq]
  apply List.filter_congr
  intro entry hentry
  exact h entry.2 (List.mem_map_of_mem hentry)

/-- The two tables differ in rows that are not kept, and in no other. -/
def Table.Agrees (table table' : Table α) (keep keep' : α → Bool) : Prop :=
  table.restrict keep = table'.restrict keep'

section Agrees

variable {table table' : Table α} {keep keep' : α → Bool}

/-- A kept row is in both. -/
theorem Table.Agrees.get (h : table.Agrees table' keep keep') {key : String} {row : α}
    (hget : table.get key = some row) (hkeep : keep row = true) :
    table'.get key = some row ∧ keep' row = true := by
  have hrestricted : (table.restrict keep).get key = some row := mem_restrict.mpr ⟨hget, hkeep⟩
  rw [h] at hrestricted
  exact mem_restrict.mp hrestricted

/-- What is chosen of rows that are kept on both sides is the same on both. -/
theorem Table.Agrees.filter (h : table.Agrees table' keep keep') {chosen : α → Bool}
    (hkeep : ∀ row, chosen row = true → keep row = true)
    (hkeep' : ∀ row, chosen row = true → keep' row = true) :
    table.values.filter chosen = table'.values.filter chosen := by
  have hthrough {rows : List α} {kept : α → Bool}
      (hkept : ∀ row, chosen row = true → kept row = true) :
      rows.filter chosen = (rows.filter kept).filter chosen := by
    rw [List.filter_filter]
    apply List.filter_congr
    intro row _
    cases hchosen : chosen row with
    | false => rfl
    | true => rw [hkept row hchosen, Bool.and_true]
  calc table.values.filter chosen
      = (table.restrict keep).values.filter chosen := by rw [values_restrict, ← hthrough hkeep]
    _ = (table'.restrict keep').values.filter chosen := by rw [h]
    _ = table'.values.filter chosen := by rw [values_restrict, ← hthrough hkeep']

end Agrees

/-! ### Writes nobody sees -/

theorem filter_putEntry {entries : List (String × α)} {keep : α → Bool} {key : String} {row : α}
    (hold : ∀ old, findEntry key entries = some old → keep old = false) (hrow : keep row = false) :
    (putEntry key row entries).filter (fun entry => keep entry.2) =
      entries.filter (fun entry => keep entry.2) := by
  induction entries with
  | nil => simp [putEntry, hrow]
  | cons entry rest ih =>
      obtain ⟨first, old⟩ := entry
      by_cases hkey : first = key
      · have hhidden : keep old = false := hold old (by simp [findEntry, hkey])
        simp [putEntry, hkey, hrow, hhidden]
      · have hrest := ih (fun found hfound => hold found (by simpa [findEntry, hkey] using hfound))
        simp only [putEntry, if_neg hkey, List.filter_cons, hrest]

/-- A row that is not kept, written under a key where none is kept. -/
theorem Table.restrict_put {table : Table α} {keep : α → Bool} {key : String} {row : α}
    (hold : ∀ old, table.get key = some old → keep old = false) (hrow : keep row = false) :
    (table.put key row).restrict keep = table.restrict keep := by
  unfold Table.restrict Table.put
  simp only [Table.mk.injEq]
  exact filter_putEntry hold hrow

theorem Table.mem_values_of_erase {table : Table α} {key : String} {row : α}
    (h : row ∈ (table.erase key).values) : row ∈ table.values := by
  obtain ⟨entry, hentry, rfl⟩ := List.mem_map.mp h
  exact List.mem_map_of_mem (List.mem_filter.mp hentry).1

/-- A row that is not kept, taken away. -/
theorem Table.restrict_erase {table : Table α} {keep : α → Bool} {key : String}
    (hold : ∀ old, table.get key = some old → keep old = false) :
    (table.erase key).restrict keep = table.restrict keep := by
  unfold Table.restrict Table.erase
  simp only [Table.mk.injEq]
  rw [List.filter_filter]
  apply List.filter_congr
  intro entry hentry
  cases hkeep : keep entry.2 with
  | false => rfl
  | true =>
      have hne : entry.1 ≠ key := by
        rintro rfl
        have hhidden := hold entry.2 (Table.get_eq_some.mpr hentry)
        rw [hkeep] at hhidden
        cases hhidden
      simp [hne]

end WaslaCore.Data
