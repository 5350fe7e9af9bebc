import Mathlib.Algebra.BigOperators.Group.List.Basic
import Mathlib.Algebra.Ring.Int.Defs
import Mathlib.Data.List.ReduceOption

/-!
Aggregates as a query computes them. A `group by` gives one group for each key that occurs, in
no order of its own; a null counts for nothing, and a sum of nothing is null.
-/

namespace WaslaCore.Data

section Aggregates

variable {α κ : Type}

/-- `count(x)`. -/
def countOf (values : List (Option α)) : Nat := values.reduceOption.length

/-- `sum(x)`. -/
def sumOf (values : List (Option Int)) : Option Int :=
  if values.reduceOption = [] then none else some values.reduceOption.sum

theorem sumOf_getD (values : List (Option Int)) : (sumOf values).getD 0 = values.reduceOption.sum := by
  unfold sumOf
  split
  · rename_i hnone
    rw [hnone]
    rfl
  · rfl

/-- A choice of the foremost of some values: the least of them, or the greatest. -/
structure Extremum (pick : List Int → Option Int) (before : Int → Int → Prop) : Prop where
  none_iff : ∀ values, pick values = none ↔ values = []
  some_iff : ∀ values chosen, pick values = some chosen ↔
    chosen ∈ values ∧ ∀ value ∈ values, before chosen value
  antisymm : ∀ {first second}, before first second → before second first → first = second
  trans : ∀ {first second third}, before first second → before second third → before first third

theorem extremum_min : Extremum List.min? (· ≤ ·) where
  none_iff _ := List.min?_eq_none_iff
  some_iff _ _ := List.min?_eq_some_iff
  antisymm := Int.le_antisymm
  trans := Int.le_trans

theorem extremum_max : Extremum List.max? (· ≥ ·) where
  none_iff _ := List.max?_eq_none_iff
  some_iff _ _ := List.max?_eq_some_iff
  antisymm := fun hfirst hsecond => Int.le_antisymm hsecond hfirst
  trans := fun hfirst hsecond => Int.le_trans hsecond hfirst

section Extremum

variable {pick : List Int → Option Int} {before : Int → Int → Prop}

/-- It does not depend on the order of the values. -/
theorem Extremum.perm (h : Extremum pick before) {values values' : List Int}
    (hperm : values.Perm values') : pick values = pick values' := by
  cases hchosen : pick values with
  | none =>
      rw [h.none_iff] at hchosen
      rw [hchosen] at hperm
      exact ((h.none_iff _).mpr hperm.symm.eq_nil).symm
  | some chosen =>
      obtain ⟨hmember, hbefore⟩ := (h.some_iff _ _).mp hchosen
      apply Eq.symm
      apply (h.some_iff _ _).mpr
      exact ⟨hperm.mem_iff.mp hmember, fun value hvalue => hbefore value (hperm.mem_iff.mpr hvalue)⟩

/-- The foremost of the groups' foremost values is that of all of them. -/
theorem Extremum.by_key [DecidableEq κ] (h : Extremum pick before) (key : α → κ) (value : α → Int)
    (rows : List α) (keys : List κ) (hall : ∀ row ∈ rows, key row ∈ keys) :
    pick (keys.filterMap fun group => pick ((rows.filter fun row => key row = group).map value)) =
      pick (rows.map value) := by
  cases hchosen : pick (rows.map value) with
  | none =>
      rw [h.none_iff, List.map_eq_nil_iff] at hchosen
      subst hchosen
      apply (h.none_iff _).mpr
      apply List.filterMap_eq_nil_iff.mpr
      intro group _
      exact (h.none_iff _).mpr rfl
  | some chosen =>
      obtain ⟨hmember, hbefore⟩ := (h.some_iff _ _).mp hchosen
      obtain ⟨row, hrow, rfl⟩ := List.mem_map.mp hmember
      have hpicked : ∀ group least,
          pick ((rows.filter fun row => key row = group).map value) = some least →
            before (value row) least := by
        intro group least hleast
        obtain ⟨hown, -⟩ := (h.some_iff _ _).mp hleast
        obtain ⟨other, hother, rfl⟩ := List.mem_map.mp hown
        exact hbefore _ (List.mem_map_of_mem (List.mem_of_mem_filter hother))
      apply (h.some_iff _ _).mpr
      constructor
      · apply List.mem_filterMap.mpr
        refine ⟨key row, hall row hrow, ?_⟩
        have hown : value row ∈ (rows.filter fun other => key other = key row).map value :=
          List.mem_map_of_mem (List.mem_filter.mpr ⟨hrow, decide_eq_true rfl⟩)
        cases hleast : pick ((rows.filter fun other => key other = key row).map value) with
        | none =>
            rw [(h.none_iff _).mp hleast] at hown
            cases hown
        | some least =>
            rw [h.antisymm (hpicked _ _ hleast) (((h.some_iff _ _).mp hleast).2 _ hown)]
      · intro least hleast
        obtain ⟨group, -, hgroup⟩ := List.mem_filterMap.mp hleast
        exact hpicked group least hgroup

end Extremum

/-- Kept by a fold. -/
theorem foldl_min (values : List Int) :
    values.foldl (fun kept value => some (kept.elim value (min value))) none = values.min? := by
  have hkept : ∀ (rest : List Int) (least : Int),
      rest.foldl (fun kept value => some (kept.elim value (min value))) (some least) =
        some (rest.foldl min least) := by
    intro rest
    induction rest with
    | nil => exact fun _ => rfl
    | cons value rest ih =>
        intro least
        rw [List.foldl_cons, List.foldl_cons, Option.elim_some, Int.min_comm value least]
        exact ih _
  cases values with
  | nil => rfl
  | cons value rest => exact hkept rest value

theorem foldl_max (values : List Int) :
    values.foldl (fun kept value => some (kept.elim value (max value))) none = values.max? := by
  have hkept : ∀ (rest : List Int) (greatest : Int),
      rest.foldl (fun kept value => some (kept.elim value (max value))) (some greatest) =
        some (rest.foldl max greatest) := by
    intro rest
    induction rest with
    | nil => exact fun _ => rfl
    | cons value rest ih =>
        intro greatest
        rw [List.foldl_cons, List.foldl_cons, Option.elim_some, Int.max_comm value greatest]
        exact ih _
  cases values with
  | nil => rfl
  | cons value rest => exact hkept rest value

/-- `group by key`: the groups, in whatever order. -/
structure GroupsBy [DecidableEq κ] (key : α → κ) (rows : List α) (groups : List (κ × List α)) :
    Prop where
  once : (groups.map Prod.fst).Nodup
  present : ∀ value, value ∈ groups.map Prod.fst ↔ ∃ row ∈ rows, key row = value
  members : ∀ group ∈ groups, group.2.Perm (rows.filter fun row => key row = group.1)

/-- What the rows of each key add up to adds up to what all of them do. -/
theorem sum_by_key {β : Type} [AddCommMonoid β] [DecidableEq κ] (key : α → κ) (gain : α → β)
    (rows : List α) (keys : List κ) (hkeys : keys.Nodup) (hall : ∀ row ∈ rows, key row ∈ keys) :
    (keys.map fun value => ((rows.filter fun row => key row = value).map gain).sum).sum =
      (rows.map gain).sum := by
  induction rows with
  | nil => simp
  | cons row rest ih =>
      have hrest := ih (fun other hother => hall other (List.mem_cons_of_mem _ hother))
      have hsplit : ∀ values : List κ, values.Nodup →
          (values.map fun value => (((row :: rest).filter fun row => key row = value).map gain).sum).sum =
            (if key row ∈ values then gain row else 0) +
              (values.map fun value => ((rest.filter fun row => key row = value).map gain).sum).sum := by
        intro values hvalues
        induction values with
        | nil => simp
        | cons value later ihlater =>
            obtain ⟨hfresh, hlater⟩ := List.nodup_cons.mp hvalues
            rw [List.map_cons, List.sum_cons, ihlater hlater, List.map_cons, List.sum_cons]
            by_cases hown : key row = value
            · subst hown
              rw [List.filter_cons_of_pos (by simp), List.map_cons, List.sum_cons, if_neg hfresh,
                if_pos List.mem_cons_self, zero_add, add_assoc]
            · rw [List.filter_cons_of_neg (by simpa using hown)]
              simp only [List.mem_cons, hown, false_or]
              rw [add_left_comm]
      rw [hsplit keys hkeys, if_pos (hall row List.mem_cons_self), hrest, List.map_cons,
        List.sum_cons]

end Aggregates

end WaslaCore.Data
