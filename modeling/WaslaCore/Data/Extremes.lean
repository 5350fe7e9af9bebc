import Mathlib.Data.List.MinMax
import Mathlib.Data.List.Sort

/-!
The least value of each group of rows, kept by a fold over all of them or taken from the head
of the group in order.
-/

namespace WaslaCore.Data

section Least

variable {α κ : Type} [DecidableEq κ]

/-- The lesser of what is kept and a further value. -/
def lesser (kept : Option Int) (value : Int) : Option Int :=
  match kept with
  | none => some value
  | some least => if value < least then some value else some least

/-- One more row, kept for its own group. -/
def keepLeast (key : α → κ) (value : α → Int) (kept : κ → Option Int) (row : α) : κ → Option Int :=
  fun group => if group = key row then lesser (kept group) (value row) else kept group

theorem foldl_lesser (values : List Int) : values.foldl lesser none = values.min? := by
  have hkept : ∀ (least : Int) (rest : List Int),
      rest.foldl lesser (some least) = some (rest.foldl min least) := by
    intro least rest
    induction rest generalizing least with
    | nil => rfl
    | cons value rest ih =>
        have hmin : lesser (some least) value = some (min least value) := by
          simp only [lesser]
          split
          · rw [min_eq_right (by omega)]
          · rw [min_eq_left (by omega)]
        rw [List.foldl_cons, List.foldl_cons, hmin, ih]
  cases values with
  | nil => rfl
  | cons value rest => exact hkept value rest

/-- Each group is left with the least of its own values. -/
theorem foldl_keepLeast (key : α → κ) (value : α → Int) (rows : List α) (group : κ) :
    rows.foldl (keepLeast key value) (fun _ => none) group =
      ((rows.filter fun row => key row = group).map value).min? := by
  have hgroup : ∀ (kept : κ → Option Int), rows.foldl (keepLeast key value) kept group =
      ((rows.filter fun row => key row = group).map value).foldl lesser (kept group) := by
    induction rows with
    | nil => exact fun _ => rfl
    | cons row rest ih =>
        intro kept
        rw [List.foldl_cons, ih, List.filter_cons]
        by_cases hrow : key row = group
        · rw [if_pos (decide_eq_true hrow), List.map_cons, List.foldl_cons, keepLeast,
            if_pos hrow.symm]
        · rw [if_neg (by simpa using hrow), keepLeast, if_neg (fun heq => hrow heq.symm)]
  rw [hgroup, foldl_lesser]

/-- The head of the rows in order has the least value. -/
theorem head_insertionSort (value : α → Int) (rows : List α) :
    (rows.insertionSort fun first second => value first ≤ value second).head?.map value =
      (rows.map value).min? := by
  have hperm := List.perm_insertionSort (fun first second => value first ≤ value second) rows
  have htotal : Std.Total (fun first second : α => value first ≤ value second) :=
    ⟨fun _ _ => le_total _ _⟩
  have htrans : IsTrans α (fun first second => value first ≤ value second) :=
    ⟨fun _ _ _ => le_trans⟩
  have hsorted := List.pairwise_insertionSort (fun first second => value first ≤ value second) rows
  cases hrows : rows.insertionSort (fun first second => value first ≤ value second) with
  | nil =>
      rw [hrows] at hperm
      rw [hperm.symm.eq_nil]
      rfl
  | cons head rest =>
      rw [hrows] at hperm hsorted
      apply Eq.symm
      apply List.min?_eq_some_iff.mpr
      refine ⟨List.mem_map_of_mem (hperm.mem_iff.mp List.mem_cons_self), fun other hother => ?_⟩
      obtain ⟨row, hrow, rfl⟩ := List.mem_map.mp hother
      rcases List.mem_cons.mp (hperm.mem_iff.mpr hrow) with rfl | hlater
      · exact le_rfl
      · exact (List.pairwise_cons.mp hsorted).1 row hlater

end Least

end WaslaCore.Data
