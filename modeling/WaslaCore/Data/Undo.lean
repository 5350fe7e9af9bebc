import WaslaCore.Data.Table

/-!
Taking a write to a table back. Writing the old row again, or erasing the new key,
gives the very table there was, in its order; and neither notices a write under
another key.
-/

namespace WaslaCore.Data

section Entries

variable {α : Type} {key other : String} {row old previous : α}

theorem putEntry_putEntry {entries : List (String × α)} (h : findEntry key entries = some old) :
    putEntry key old (putEntry key row entries) = entries := by
  induction entries with
  | nil => cases h
  | cons entry rest ih =>
      obtain ⟨first, stored⟩ := entry
      by_cases hkey : first = key
      · subst hkey
        simp only [findEntry, if_pos, Option.some.injEq] at h
        simp [putEntry, h]
      · simp only [findEntry, if_neg hkey] at h
        simp [putEntry, if_neg hkey, ih h]

/-- A row written as it is changes nothing. -/
theorem putEntry_same {entries : List (String × α)} (h : findEntry key entries = some old) :
    putEntry key old entries = entries := by
  induction entries with
  | nil => cases h
  | cons entry rest ih =>
      obtain ⟨first, stored⟩ := entry
      by_cases hkey : first = key
      · subst hkey
        simp only [findEntry, if_pos, Option.some.injEq] at h
        simp [putEntry, h]
      · simp only [findEntry, if_neg hkey] at h
        simp [putEntry, if_neg hkey, ih h]

theorem filter_absent {entries : List (String × α)} (h : findEntry key entries = none) :
    entries.filter (fun entry => entry.1 ≠ key) = entries := by
  rw [List.filter_eq_self]
  intro entry hentry
  have hnot := findEntry_eq_none.mp h
  simp only [ne_eq, decide_not, Bool.not_eq_eq_eq_not, Bool.not_true, decide_eq_false_iff_not]
  rintro rfl
  exact hnot (List.mem_map_of_mem hentry)

theorem filter_putEntry_new {entries : List (String × α)} (h : findEntry key entries = none) :
    (putEntry key row entries).filter (fun entry => entry.1 ≠ key) = entries := by
  induction entries with
  | nil => simp [putEntry]
  | cons entry rest ih =>
      obtain ⟨first, stored⟩ := entry
      by_cases hkey : first = key
      · simp [findEntry, hkey] at h
      · simp only [findEntry, if_neg hkey] at h
        simp only [putEntry, if_neg hkey]
        rw [List.filter_cons_of_pos (by simpa using hkey), ih h]

/-- A key that is there keeps its place, whatever is written beside it. -/
theorem putEntry_comm (hne : key ≠ other) {entries : List (String × α)}
    (h : findEntry key entries = some old) :
    putEntry key previous (putEntry other row entries) =
      putEntry other row (putEntry key previous entries) := by
  induction entries with
  | nil => cases h
  | cons entry rest ih =>
      obtain ⟨first, stored⟩ := entry
      by_cases hkey : first = key
      · subst hkey
        simp [putEntry, hne]
      · simp only [findEntry, if_neg hkey] at h
        by_cases hother : first = other
        · subst hother
          simp [putEntry, hkey]
        · simp [putEntry, hkey, hother, ih h]

theorem filter_putEntry_comm (hne : key ≠ other) (entries : List (String × α)) :
    (putEntry other row entries).filter (fun entry => entry.1 ≠ key) =
      putEntry other row (entries.filter (fun entry => entry.1 ≠ key)) := by
  induction entries with
  | nil => simp [putEntry, Ne.symm hne]
  | cons entry rest ih =>
      obtain ⟨first, stored⟩ := entry
      by_cases hother : first = other
      · subst hother
        simp [putEntry, Ne.symm hne]
      · by_cases hkey : first = key
        · subst hkey
          simpa [putEntry, hother] using ih
        · simpa [putEntry, hother, hkey] using ih

end Entries

namespace Table

variable {α : Type} {table : Table α} {key other : String} {row old previous : α}

theorem ext_entries {first second : Table α} (h : first.entries = second.entries) :
    first = second := by
  cases first
  cases second
  simpa using h

theorem put_same (h : table.get key = some old) : table.put key old = table :=
  ext_entries (putEntry_same h)

theorem erase_absent (h : table.get key = none) : table.erase key = table :=
  ext_entries (filter_absent h)

theorem put_put_old (h : table.get key = some old) : (table.put key row).put key old = table :=
  ext_entries (putEntry_putEntry h)

theorem erase_put_new (h : table.get key = none) : (table.put key row).erase key = table :=
  ext_entries (filter_putEntry_new h)

theorem put_comm (hne : key ≠ other) (h : table.get key = some old) :
    (table.put other row).put key previous = (table.put key previous).put other row :=
  ext_entries (putEntry_comm hne h)

theorem erase_put_comm (hne : key ≠ other) :
    (table.put other row).erase key = (table.erase key).put other row :=
  ext_entries (filter_putEntry_comm hne table.entries)

end Table

end WaslaCore.Data
