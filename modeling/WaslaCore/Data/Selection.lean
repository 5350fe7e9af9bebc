import Mathlib.Data.List.Sort
import WaslaCore.Data.Table
import WaslaCore.Platform.ListOrder

/-!
The first rows of an ordering, chosen by a query and by a scan. A query is the relation its
clauses state: any ordering of the rows that pass may stand behind a limit. Where no two
rows share a key there is one, and a scan of the ordered rows finds it.
-/

namespace WaslaCore.Data

section Ordering

variable {α κ : Type} [LinearOrder κ] {key : α → κ}

/-- `order by key`: the rows, in some order that the key allows. -/
def Ordered (key : α → κ) (rows ordered : List α) : Prop :=
  ordered.Perm rows ∧ ordered.Pairwise (fun first second => key first ≤ key second)

/-- `where`, `order by` and `limit`. -/
def Selects (key : α → κ) (rows : List α) (chosen : α → Bool) (limit : Nat) (selected : List α) :
    Prop :=
  ∃ ordered, Ordered key (rows.filter chosen) ordered ∧ selected = ordered.take limit

theorem Ordered.filter {rows ordered : List α} (h : Ordered key rows ordered)
    (chosen : α → Bool) : Ordered key (rows.filter chosen) (ordered.filter chosen) :=
  ⟨h.1.filter chosen, h.2.filter chosen⟩

theorem Ordered.take {rows ordered : List α} (h : Ordered key rows ordered) (limit : Nat) :
    Ordered key (ordered.take limit) (ordered.take limit) :=
  ⟨.refl _, h.2.sublist (List.take_sublist limit ordered)⟩

/-- Rows with keys of their own are ordered in one way. -/
theorem Ordered.unique {rows first second : List α} (hkeys : (rows.map key).Nodup)
    (h : Ordered key rows first) (h' : Ordered key rows second) : first = second := by
  have hinjective : ∀ a ∈ rows, ∀ b ∈ rows, key a = key b → a = b :=
    fun a ha b hb hsame => List.inj_on_of_nodup_map hkeys ha hb hsame
  refine List.Perm.eq_of_pairwise ?_ h.2 h'.2 (h.1.trans h'.1.symm)
  intro a b ha hb hle hge
  exact hinjective a (h.1.mem_iff.mp ha) b (h'.1.mem_iff.mp hb) (le_antisymm hle hge)

/-- Sorting by keys that compare as `key` does is an ordering by it. -/
theorem orderedBy_ordered {keys : α → List Platform.SortKey}
    (h : ∀ first second, Platform.noLater (keys first) (keys second) = true ↔ key first ≤ key second)
    (rows : List α) : Ordered key rows (Platform.orderedBy keys rows) := by
  refine ⟨Platform.orderedBy_perm keys rows, ?_⟩
  have htotal : Std.Total (fun first second : α =>
      Platform.noLater (keys first) (keys second) = true) :=
    ⟨fun first second => by
      rw [h, h]
      exact le_total _ _⟩
  have htrans : IsTrans α (fun first second =>
      Platform.noLater (keys first) (keys second) = true) :=
    ⟨fun first second third hfirst hsecond => by
      rw [h] at hfirst hsecond ⊢
      exact hfirst.trans hsecond⟩
  exact (List.pairwise_insertionSort _ rows).imp fun {first second} hsorted =>
    (h first second).mp hsorted

theorem selects_iff {rows ordered selected : List α} {chosen : α → Bool} {limit : Nat}
    (hkeys : (rows.map key).Nodup) (hordered : Ordered key rows ordered) :
    Selects key rows chosen limit selected ↔ selected = (ordered.filter chosen).take limit := by
  have hchosen : ((rows.filter chosen).map key).Nodup :=
    hkeys.sublist (List.filter_sublist.map key)
  constructor
  · rintro ⟨other, hother, rfl⟩
    rw [hother.unique hchosen (hordered.filter chosen)]
  · rintro rfl
    exact ⟨_, hordered.filter chosen, rfl⟩

end Ordering

section Rewriting

variable {α : Type}

/-- `update … where id in (selected)`: the rows selected are written anew, every other row
is left. -/
def Rewrites (keyOf : α → String) (table : Table α) (selected : List α) (write : α → α)
    (table' : Table α) : Prop :=
  ∀ id, table'.get id = (table.get id).map fun row =>
    if keyOf row ∈ selected.map keyOf then write row else row

/-- Writing the rows back one by one is the same update. -/
theorem rewrites_iff {keyOf : α → String} {table table' : Table α} (h : table.KeyedBy keyOf)
    {selected : List α} (hselected : ∀ row ∈ selected, row ∈ table.values) (write : α → α)
    (hkey : ∀ row, keyOf (write row) = keyOf row) :
    Rewrites keyOf table selected write table' ↔
      ∀ id, table'.get id = (table.putRows keyOf (selected.map write)).get id := by
  have hput : ∀ id, (table.putRows keyOf (selected.map write)).get id =
      (table.get id).map fun row => if keyOf row ∈ selected.map keyOf then write row else row := by
    intro id
    rcases Table.get_putRows_taken h write hkey hselected id with
      ⟨hnot, hsame⟩ | ⟨htaken, row, -, hrow, hwritten⟩
    · rw [hsame]
      cases hget : table.get id with
      | none => rfl
      | some row => rw [Option.map_some, h id row hget, if_neg hnot]
    · rw [hwritten, hrow, Option.map_some, h id row hrow, if_pos htaken]
  exact forall_congr' fun id => by rw [hput id]

end Rewriting

/-! ### Scans -/

section Scans

variable {α : Type}

/-- A scan that writes each row that passes and tests its limit after it. -/
def takeEach (keyOf : α → String) (chosen : α → Bool) (write : α → α) (limit : Nat) :
    List α → List α × Table α → List α × Table α
  | [], found => found
  | row :: rest, (taken, table) =>
      if chosen row then
        let written := write row
        let found := (taken ++ [written], table.put (keyOf row) written)
        if limit ≤ found.1.length then found
        else takeEach keyOf chosen write limit rest found
      else takeEach keyOf chosen write limit rest (taken, table)

/-- The scan takes one row at least, whatever its limit. -/
theorem takeEach_eq {keyOf : α → String} {chosen : α → Bool} {write : α → α}
    (hkey : ∀ row, keyOf (write row) = keyOf row) {limit : Nat} (rows : List α) (taken : List α)
    (table : Table α) (hroom : taken.length < max limit 1) :
    takeEach keyOf chosen write limit rows (taken, table) =
      let written := ((rows.filter chosen).take (max limit 1 - taken.length)).map write
      (taken ++ written, table.putRows keyOf written) := by
  induction rows generalizing taken table with
  | nil => simp [takeEach, Table.putRows]
  | cons row rest ih =>
      unfold takeEach
      by_cases hchosen : chosen row = true
      · obtain ⟨left, hleft⟩ : ∃ left, max limit 1 - taken.length = left + 1 :=
          ⟨max limit 1 - taken.length - 1, by omega⟩
        simp only [hchosen, if_true, List.filter_cons_of_pos, hleft, List.take_succ_cons,
          List.map_cons, Table.putRows, hkey, List.length_append, List.length_singleton]
        by_cases hfull : limit ≤ taken.length + 1
        · have hnone : left = 0 := by omega
          simp [hfull, hnone, Table.putRows]
        · rw [if_neg hfull, ih _ _ (by simp; omega)]
          have hless : max limit 1 - (taken.length + 1) = left := by omega
          simp only [List.length_append, List.length_singleton, hless, List.append_assoc,
            List.singleton_append]
      · simp only [hchosen, Bool.false_eq_true, if_false, not_false_eq_true,
          List.filter_cons_of_neg]
        exact ih taken table hroom

/-- A scan that tests its limit before each row, writes the ones that pass and counts them
under the test they pass. -/
def countEach (keyOf : α → String) (chosen spent : α → Bool) (write : α → α) (limit : Nat) :
    List α → (Nat × Nat) × Table α → (Nat × Nat) × Table α
  | [], found => found
  | row :: rest, ((kept, given), table) =>
      if limit ≤ kept + given then ((kept, given), table)
      else if chosen row then
        countEach keyOf chosen spent write limit rest
          (if spent row then (kept, given + 1) else (kept + 1, given),
            table.put (keyOf row) (write row))
      else countEach keyOf chosen spent write limit rest ((kept, given), table)

theorem countEach_eq {keyOf : α → String} {chosen spent : α → Bool} {write : α → α}
    (hkey : ∀ row, keyOf (write row) = keyOf row) {limit : Nat} (rows : List α) (kept given : Nat)
    (table : Table α) :
    countEach keyOf chosen spent write limit rows ((kept, given), table) =
      let taken := (rows.filter chosen).take (limit - (kept + given))
      ((kept + taken.countP (fun row => !spent row), given + taken.countP spent),
        table.putRows keyOf (taken.map write)) := by
  induction rows generalizing kept given table with
  | nil => simp [countEach, Table.putRows]
  | cons row rest ih =>
      unfold countEach
      by_cases hfull : limit ≤ kept + given
      · simp [hfull, Nat.sub_eq_zero_of_le hfull, Table.putRows]
      · obtain ⟨left, hleft⟩ : ∃ left, limit - (kept + given) = left + 1 :=
          ⟨limit - (kept + given) - 1, by omega⟩
        rw [if_neg hfull]
        by_cases hchosen : chosen row = true
        · simp only [hchosen, if_true, List.filter_cons_of_pos, hleft, List.take_succ_cons,
            List.map_cons, Table.putRows, hkey, List.countP_cons]
          cases hspent : spent row with
          | true =>
              have hless : limit - (kept + (given + 1)) = left := by omega
              simp only [if_true, ih, hless]
              simp
              omega
          | false =>
              have hless : limit - (kept + 1 + given) = left := by omega
              simp only [Bool.false_eq_true, if_false, ih, hless]
              simp
              omega
        · simp only [hchosen, Bool.false_eq_true, if_false, not_false_eq_true,
            List.filter_cons_of_neg]
          exact ih kept given table

end Scans

end WaslaCore.Data
