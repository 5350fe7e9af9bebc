import Mathlib.Data.List.Nodup
import Mathlib.Algebra.Order.BigOperators.Group.List
import Mathlib.Algebra.Order.Group.Int
import Mathlib.Algebra.GroupWithZero.Nat
import Mathlib.Algebra.Ring.Int.Defs

/-!
Keyed tables in insertion order. A key names at most one row: that is a field
of the table, so a table with two rows under one key cannot be built. Writing
an existing key keeps its place. The library part is what a write does to
lookups and to a sum over the rows.
-/

namespace WaslaCore.Data

/-- The rows with `row` stored under `key`. -/
def putEntry {α : Type} (key : String) (row : α) : List (String × α) → List (String × α)
  | [] => [(key, row)]
  | (other, old) :: rest =>
      if other = key then (key, row) :: rest else (other, old) :: putEntry key row rest

/-- The row stored under `key`. -/
def findEntry {α : Type} (key : String) : List (String × α) → Option α
  | [] => none
  | (other, row) :: rest => if other = key then some row else findEntry key rest

section Entries

variable {α : Type}

theorem mem_putEntry_keys (key other : String) (row : α) (entries : List (String × α)) :
    other ∈ (putEntry key row entries).map Prod.fst ↔
      other = key ∨ other ∈ entries.map Prod.fst := by
  induction entries with
  | nil => simp [putEntry]
  | cons entry rest ih =>
      obtain ⟨first, old⟩ := entry
      by_cases hkey : first = key
      · subst hkey
        simp [putEntry]
      · simp only [putEntry, if_neg hkey, List.map_cons, List.mem_cons, ih]
        tauto

theorem putEntry_nodup (key : String) (row : α) {entries : List (String × α)}
    (h : (entries.map Prod.fst).Nodup) : ((putEntry key row entries).map Prod.fst).Nodup := by
  induction entries with
  | nil => simp [putEntry]
  | cons entry rest ih =>
      obtain ⟨first, old⟩ := entry
      simp only [List.map_cons, List.nodup_cons] at h
      by_cases hkey : first = key
      · subst hkey
        simpa [putEntry] using h
      · simp only [putEntry, if_neg hkey, List.map_cons, List.nodup_cons]
        refine ⟨?_, ih h.2⟩
        rw [mem_putEntry_keys]
        rintro (rfl | hrest)
        · exact hkey rfl
        · exact h.1 hrest

theorem findEntry_putEntry (key other : String) (row : α) (entries : List (String × α)) :
    findEntry other (putEntry key row entries) =
      if key = other then some row else findEntry other entries := by
  induction entries with
  | nil => rfl
  | cons entry rest ih =>
      obtain ⟨first, old⟩ := entry
      by_cases hkey : first = key
      · subst hkey
        by_cases hother : first = other <;> simp [putEntry, findEntry, hother]
      · by_cases hfirst : first = other
        · subst hfirst
          simp [putEntry, findEntry, hkey, Ne.symm hkey]
        · simp [putEntry, findEntry, hkey, hfirst, ih]

theorem findEntry_eq_some {key : String} {row : α} {entries : List (String × α)}
    (h : (entries.map Prod.fst).Nodup) :
    findEntry key entries = some row ↔ (key, row) ∈ entries := by
  induction entries with
  | nil => simp [findEntry]
  | cons entry rest ih =>
      obtain ⟨first, old⟩ := entry
      simp only [List.map_cons, List.nodup_cons, List.mem_map, not_exists, not_and] at h
      by_cases hkey : first = key
      · subst hkey
        have hnot : (first, row) ∉ rest := fun hmem => h.1 (first, row) hmem rfl
        simp [findEntry, hnot, eq_comm]
      · have hne : ¬key = first := fun heq => hkey heq.symm
        simp [findEntry, hkey, hne, ih h.2]

theorem findEntry_eq_none {key : String} {entries : List (String × α)} :
    findEntry key entries = none ↔ key ∉ entries.map Prod.fst := by
  induction entries with
  | nil => simp [findEntry]
  | cons entry rest ih =>
      obtain ⟨first, old⟩ := entry
      by_cases hkey : first = key
      · simp [findEntry, hkey]
      · have hne : ¬key = first := fun heq => hkey heq.symm
        simp [findEntry, hkey, hne] at ih ⊢
        exact ih

theorem findEntry_filter (key other : String) (entries : List (String × α)) :
    findEntry other (entries.filter (fun entry => entry.1 ≠ key)) =
      if key = other then none else findEntry other entries := by
  induction entries with
  | nil => simp [findEntry]
  | cons entry rest ih =>
      obtain ⟨first, old⟩ := entry
      by_cases hkey : first = key
      · subst hkey
        by_cases hother : first = other
        · simpa [findEntry, hother] using ih
        · simpa [findEntry, hother] using ih
      · by_cases hfirst : first = other
        · subst hfirst
          simp [findEntry, hkey, Ne.symm hkey]
        · simpa [findEntry, hkey, hfirst] using ih

end Entries

/-- A table of `α` rows. -/
structure Table (α : Type) where
  entries : List (String × α)
  nodup : (entries.map Prod.fst).Nodup

namespace Table

variable {α : Type}

def empty : Table α := ⟨[], List.nodup_nil⟩

def get (table : Table α) (key : String) : Option α := findEntry key table.entries

def put (table : Table α) (key : String) (row : α) : Table α :=
  ⟨putEntry key row table.entries, putEntry_nodup key row table.nodup⟩

def erase (table : Table α) (key : String) : Table α :=
  ⟨table.entries.filter (fun entry => entry.1 ≠ key),
    table.nodup.sublist (List.filter_sublist.map Prod.fst)⟩

/-- The rows, oldest key first. -/
def values (table : Table α) : List α := table.entries.map Prod.snd

/-- What `weigh` says of each row, added up. -/
def total (table : Table α) (weigh : α → Int) : Int := (table.values.map weigh).sum

@[simp] theorem get_empty (key : String) : (empty : Table α).get key = none := rfl

@[simp] theorem values_empty : (empty : Table α).values = [] := rfl

@[simp] theorem total_empty (weigh : α → Int) : (empty : Table α).total weigh = 0 := rfl

theorem get_put (table : Table α) (key other : String) (row : α) :
    (table.put key row).get other = if key = other then some row else table.get other :=
  findEntry_putEntry key other row table.entries

@[simp] theorem get_put_self (table : Table α) (key : String) (row : α) :
    (table.put key row).get key = some row := by
  simp [get_put]

theorem get_put_ne (table : Table α) {key other : String} (row : α) (h : key ≠ other) :
    (table.put key row).get other = table.get other := by
  simp [get_put, h]

theorem get_erase (table : Table α) (key other : String) :
    (table.erase key).get other = if key = other then none else table.get other :=
  findEntry_filter key other table.entries

theorem get_eq_some {table : Table α} {key : String} {row : α} :
    table.get key = some row ↔ (key, row) ∈ table.entries :=
  findEntry_eq_some table.nodup

theorem mem_values {table : Table α} {row : α} :
    row ∈ table.values ↔ ∃ key, table.get key = some row := by
  simp [values, get_eq_some]

/-- A row after a write was there before or is the one written. -/
theorem mem_values_put {table : Table α} {key : String} {row other : α}
    (h : other ∈ (table.put key row).values) : other ∈ table.values ∨ other = row := by
  obtain ⟨found, hfound⟩ := mem_values.mp h
  rw [get_put] at hfound
  split at hfound
  · exact .inr (Option.some.inj hfound).symm
  · exact .inl (mem_values.mpr ⟨found, hfound⟩)

/-- A row under a new key comes last. -/
theorem values_put_new {table : Table α} {key : String} (row : α) (h : table.get key = none) :
    (table.put key row).values = table.values ++ [row] := by
  obtain ⟨entries, hnodup⟩ := table
  simp only [values, put, get] at h ⊢
  induction entries with
  | nil => rfl
  | cons entry rest ih =>
      obtain ⟨first, old⟩ := entry
      simp only [List.map_cons, List.nodup_cons] at hnodup
      by_cases hkey : first = key
      · simp [findEntry, hkey] at h
      · simp only [findEntry, if_neg hkey] at h
        simp [putEntry, if_neg hkey, ih hnodup.2 h]

/-- A write replaces one row's share of a sum. -/
theorem total_put (table : Table α) (key : String) (row : α) (weigh : α → Int) :
    (table.put key row).total weigh =
      table.total weigh + weigh row - ((table.get key).elim 0 weigh) := by
  obtain ⟨entries, hnodup⟩ := table
  simp only [total, values, put, get]
  induction entries with
  | nil => simp [putEntry, findEntry]
  | cons entry rest ih =>
      obtain ⟨first, old⟩ := entry
      simp only [List.map_cons, List.nodup_cons] at hnodup
      by_cases hkey : first = key
      · simp [putEntry, findEntry, hkey]
        omega
      · have := ih hnodup.2
        simp only [putEntry, if_neg hkey, findEntry, List.map_cons, List.sum_cons] at this ⊢
        omega

theorem total_put_new {table : Table α} {key : String} (row : α) (weigh : α → Int)
    (h : table.get key = none) :
    (table.put key row).total weigh = table.total weigh + weigh row := by
  rw [total_put, h]
  simp

theorem total_put_old {table : Table α} {key : String} {old : α} (row : α) (weigh : α → Int)
    (h : table.get key = some old) :
    (table.put key row).total weigh = table.total weigh + weigh row - weigh old := by
  rw [total_put, h]
  rfl

/-- A sum whose rows all weigh nothing is nothing. -/
theorem total_eq_zero {table : Table α} {weigh : α → Int}
    (h : ∀ row ∈ table.values, weigh row = 0) : table.total weigh = 0 := by
  unfold total
  apply List.sum_eq_zero
  intro share hshare
  obtain ⟨row, hrow, rfl⟩ := List.mem_map.mp hshare
  exact h row hrow

/-- No row weighs more than the whole, where none weighs less than nothing. -/
theorem total_le_total {table : Table α} {weigh weigh' : α → Int}
    (h : ∀ row ∈ table.values, weigh row ≤ weigh' row) :
    table.total weigh ≤ table.total weigh' := by
  unfold total
  exact List.sum_le_sum h

end Table

/-! ### Rewriting rows under their own keys -/

section Rewriting

variable {α : Type}

/-- Rows written back under their own keys. -/
def Table.putRows (keyOf : α → String) (table : Table α) : List α → Table α
  | [] => table
  | row :: rest => Table.putRows keyOf (table.put (keyOf row) row) rest

/-- Every row stands under its own key. -/
def Table.KeyedBy (keyOf : α → String) (table : Table α) : Prop :=
  ∀ key row, table.get key = some row → keyOf row = key

/-- No key stands twice among the rows. -/
theorem Table.KeyedBy.keys_nodup {keyOf : α → String} {table : Table α} (h : table.KeyedBy keyOf) :
    (table.values.map keyOf).Nodup := by
  have hkeys : table.values.map keyOf = table.entries.map Prod.fst := by
    unfold Table.values
    rw [List.map_map]
    refine List.map_congr_left fun entry hentry => ?_
    exact h entry.1 entry.2 (Table.get_eq_some.mpr hentry)
  rw [hkeys]
  exact table.nodup

theorem Table.get_putRows (keyOf : α → String) (table : Table α) (rows : List α) (key : String) :
    (table.putRows keyOf rows).get key = table.get key ∨
      ∃ row ∈ rows, keyOf row = key ∧ (table.putRows keyOf rows).get key = some row := by
  induction rows generalizing table with
  | nil => exact .inl rfl
  | cons row rest ih =>
      unfold putRows
      rcases ih (table.put (keyOf row) row) with hsame | ⟨other, hother, hkey, hget⟩
      · rw [hsame, Table.get_put]
        by_cases hfirst : keyOf row = key
        · rw [if_pos hfirst]
          exact .inr ⟨row, by simp, hfirst, rfl⟩
        · rw [if_neg hfirst]
          exact .inl rfl
      · exact .inr ⟨other, List.mem_cons_of_mem row hother, hkey, hget⟩

/-- Rewriting rows of the table, each under the key it has, changes nothing else. -/
theorem Table.get_putRows_map {keyOf : α → String} {table : Table α} (h : table.KeyedBy keyOf)
    (write : α → α) (hkey : ∀ row, keyOf (write row) = keyOf row) {rows : List α}
    (hrows : ∀ row ∈ rows, row ∈ table.values) (key : String) :
    (table.putRows keyOf (rows.map write)).get key = table.get key ∨
      ∃ row ∈ rows, table.get key = some row ∧
        (table.putRows keyOf (rows.map write)).get key = some (write row) := by
  rcases table.get_putRows keyOf (rows.map write) key with hsame | ⟨row', hrow', hown, hget⟩
  · exact .inl hsame
  · obtain ⟨row, hrow, rfl⟩ := List.mem_map.mp hrow'
    obtain ⟨other, hother⟩ := Table.mem_values.mp (hrows row hrow)
    have hsame : other = key := by rw [← h other row hother, ← hkey row, hown]
    subst hsame
    exact .inr ⟨row, hrow, hother, hget⟩

theorem Table.get_putRows_mem {keyOf : α → String} (table : Table α) {rows : List α} {key : String}
    (h : key ∈ rows.map keyOf) :
    ∃ row ∈ rows, keyOf row = key ∧ (table.putRows keyOf rows).get key = some row := by
  induction rows generalizing table with
  | nil => cases h
  | cons row rest ih =>
      unfold putRows
      by_cases hrest : key ∈ rest.map keyOf
      · obtain ⟨other, hother, hkey, hget⟩ := ih (table.put (keyOf row) row) hrest
        exact ⟨other, List.mem_cons_of_mem row hother, hkey, hget⟩
      · have hfirst : keyOf row = key := by
          rcases List.mem_cons.mp h with hfirst | hlater
          · exact hfirst.symm
          · exact absurd hlater hrest
        rcases (table.put (keyOf row) row).get_putRows keyOf rest key with
          hsame | ⟨other, hother, hkey, -⟩
        · refine ⟨row, List.mem_cons_self, hfirst, ?_⟩
          rw [hsame, Table.get_put, if_pos hfirst]
        · exact absurd (List.mem_map.mpr ⟨other, hother, hkey⟩) hrest

/-- Rows of the table are rewritten each under its own key, and no other row is. -/
theorem Table.get_putRows_taken {keyOf : α → String} {table : Table α} (h : table.KeyedBy keyOf)
    (write : α → α) (hkey : ∀ row, keyOf (write row) = keyOf row) {rows : List α}
    (hrows : ∀ row ∈ rows, row ∈ table.values) (key : String) :
    (key ∉ rows.map keyOf ∧ (table.putRows keyOf (rows.map write)).get key = table.get key) ∨
      key ∈ rows.map keyOf ∧ ∃ row ∈ rows, table.get key = some row ∧
        (table.putRows keyOf (rows.map write)).get key = some (write row) := by
  have hown : ∀ row ∈ rows, ∀ key, keyOf row = key → table.get key = some row := by
    rintro row hrow key rfl
    obtain ⟨other, hother⟩ := Table.mem_values.mp (hrows row hrow)
    rwa [← h other row hother] at hother
  by_cases htaken : key ∈ rows.map keyOf
  · have hwritten : key ∈ (rows.map write).map keyOf := by
      rw [List.map_map]
      obtain ⟨row, hrow, hkeyed⟩ := List.mem_map.mp htaken
      exact List.mem_map.mpr ⟨row, hrow, (hkey row).trans hkeyed⟩
    obtain ⟨row', hrow', hkeyed, hget⟩ := table.get_putRows_mem hwritten
    obtain ⟨row, hrow, rfl⟩ := List.mem_map.mp hrow'
    exact .inr ⟨htaken, row, hrow, hown row hrow key ((hkey row).symm.trans hkeyed), hget⟩
  · rcases table.get_putRows keyOf (rows.map write) key with hsame | ⟨row', hrow', hkeyed, -⟩
    · exact .inl ⟨htaken, hsame⟩
    · obtain ⟨row, hrow, rfl⟩ := List.mem_map.mp hrow'
      exact absurd (List.mem_map.mpr ⟨row, hrow, (hkey row).symm.trans hkeyed⟩) htaken

theorem Table.get_putRows_written {keyOf : α → String} {table : Table α} (h : table.KeyedBy keyOf)
    (write : α → α) (hkey : ∀ row, keyOf (write row) = keyOf row) {rows : List α}
    (hrows : ∀ row ∈ rows, row ∈ table.values) {row : α} (hrow : row ∈ rows) :
    (table.putRows keyOf (rows.map write)).get (keyOf row) = some (write row) := by
  rcases Table.get_putRows_taken h write hkey hrows (keyOf row) with
    ⟨hnot, -⟩ | ⟨-, other, -, hget, hwritten⟩
  · exact absurd (List.mem_map.mpr ⟨row, hrow, rfl⟩) hnot
  · obtain ⟨key, hstored⟩ := Table.mem_values.mp (hrows row hrow)
    have hown := h key row hstored
    rw [hown, hstored] at hget
    rw [hwritten, Option.some.inj hget]

theorem Table.KeyedBy.put {keyOf : α → String} {table : Table α} (h : table.KeyedBy keyOf)
    (row : α) : (table.put (keyOf row) row).KeyedBy keyOf := by
  intro key found hfound
  rw [Table.get_put] at hfound
  split at hfound
  · rename_i hkey
    rw [← Option.some.inj hfound, hkey]
  · exact h key found hfound

theorem Table.KeyedBy.putRows {keyOf : α → String} {table : Table α} (h : table.KeyedBy keyOf)
    (rows : List α) : (table.putRows keyOf rows).KeyedBy keyOf := by
  induction rows generalizing table with
  | nil => exact h
  | cons row rest ih => exact ih (h.put row)

end Rewriting

/-! ### Inserts that absorb a repeat -/

section Absorbing

variable {α β : Type} [DecidableEq β] {pairOf : α → β}

/-- How many rows carry one value of a unique key. -/
def Table.countOf (pairOf : α → β) (table : Table α) (pair : β) : Nat :=
  table.values.countP (fun row => pairOf row = pair)

/-- `insert … on conflict do nothing`: a row whose pair is there already is dropped,
any other is stored under a new key. -/
inductive Absorbs (pairOf : α → β) (table : Table α) (row : α) : Table α → Prop where
  | repeated (hfound : ∃ other ∈ table.values, pairOf other = pairOf row) :
      Absorbs pairOf table row table
  | stored (key : String) (hnew : table.get key = none)
      (hnone : ∀ other ∈ table.values, pairOf other ≠ pairOf row) :
      Absorbs pairOf table row (table.put key row)

/-- Absorbing rows one after another. -/
inductive AbsorbsAll (pairOf : α → β) : Table α → List α → Table α → Prop where
  | nil (table : Table α) : AbsorbsAll pairOf table [] table
  | cons {table middle final : Table α} {row : α} {rows : List α}
      (hfirst : Absorbs pairOf table row middle) (hrest : AbsorbsAll pairOf middle rows final) :
      AbsorbsAll pairOf table (row :: rows) final

theorem Absorbs.countOf {table table' : Table α} {row : α} (h : Absorbs pairOf table row table')
    (pair : β) :
    table'.countOf pairOf pair =
      if pairOf row = pair then max 1 (table.countOf pairOf pair) else table.countOf pairOf pair := by
  cases h with
  | repeated hfound =>
      by_cases hpair : pairOf row = pair
      · obtain ⟨other, hother, hsame⟩ := hfound
        have hpositive : 0 < table.countOf pairOf pair :=
          List.countP_pos_iff.mpr ⟨other, hother, by simp [hsame, hpair]⟩
        rw [if_pos hpair]
        omega
      · rw [if_neg hpair]
  | stored key hnew hnone =>
      have hadded : (table.put key row).countOf pairOf pair =
          table.countOf pairOf pair + if pairOf row = pair then 1 else 0 := by
        rw [Table.countOf, Table.values_put_new row hnew, List.countP_append]
        by_cases hpair : pairOf row = pair <;> simp [Table.countOf, hpair]
      rw [hadded]
      by_cases hpair : pairOf row = pair
      · have hzero : table.countOf pairOf pair = 0 :=
          List.countP_eq_zero.mpr fun other hother => by
            simpa [← hpair] using hnone other hother
        rw [if_pos hpair, if_pos hpair, hzero]
        rfl
      · rw [if_neg hpair, if_neg hpair]
        rfl

omit [DecidableEq β] in
theorem Absorbs.mem {table table' : Table α} {row other : α} (h : Absorbs pairOf table row table') :
    (other ∈ table'.values → other ∈ table.values ∨ other = row) ∧
      (other ∈ table.values → other ∈ table'.values) := by
  cases h with
  | repeated hfound => exact ⟨Or.inl, fun hother => hother⟩
  | stored key hnew hnone =>
      rw [Table.values_put_new row hnew, List.mem_append, List.mem_singleton]
      exact ⟨fun hother => hother, Or.inl⟩

/-- After a run of inserts every inserted pair is there, once where it was new. -/
theorem AbsorbsAll.countOf {table table' : Table α} {rows : List α}
    (h : AbsorbsAll pairOf table rows table') (pair : β) :
    table'.countOf pairOf pair =
      if pair ∈ rows.map pairOf then max 1 (table.countOf pairOf pair)
      else table.countOf pairOf pair := by
  induction h with
  | nil table => rfl
  | @cons table middle final row rows hfirst hrest ih =>
      rw [ih, hfirst.countOf pair]
      by_cases hpair : pairOf row = pair
      · by_cases hlater : pair ∈ rows.map pairOf <;> simp [hpair, hlater]
      · have hne : pair ≠ pairOf row := fun heq => hpair heq.symm
        simp only [List.map_cons, List.mem_cons, hne, false_or, if_neg hpair]

omit [DecidableEq β] in
theorem AbsorbsAll.mem {table table' : Table α} {rows : List α} {other : α}
    (h : AbsorbsAll pairOf table rows table') :
    (other ∈ table'.values → other ∈ table.values ∨ other ∈ rows) ∧
      (other ∈ table.values → other ∈ table'.values) := by
  induction h with
  | nil table => exact ⟨Or.inl, fun hother => hother⟩
  | @cons table middle final row rows hfirst hrest ih =>
      refine ⟨fun hother => ?_, fun hother => ih.2 (hfirst.mem.2 hother)⟩
      rcases ih.1 hother with hmiddle | hrows
      · rcases hfirst.mem.1 hmiddle with hold | rfl
        · exact .inl hold
        · exact .inr (List.mem_cons_self ..)
      · exact .inr (List.mem_cons_of_mem row hrows)

end Absorbing

end WaslaCore.Data
