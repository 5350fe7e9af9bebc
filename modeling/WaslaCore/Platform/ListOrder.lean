import Mathlib.Data.List.Sort

/-!
The one order of every listing: rows compared key by key, and rows that agree
on every key left in the order they came in.
-/

namespace WaslaCore.Platform

/-- A sort key, already reduced to something comparable. Instants are numbers. -/
inductive SortKey where
  | number (value : Int)
  | text (value : String)
  deriving DecidableEq, Repr

def compareValues : SortKey → SortKey → Ordering
  | .number left, .number right => compare left right
  | .text left, .text right => if left < right then .lt else if right < left then .gt else .eq
  | .number _, .text _ => .lt
  | .text _, .number _ => .gt

/-- The first key two rows differ in decides. -/
def noLater : List SortKey → List SortKey → Bool
  | left :: lefts, right :: rights =>
      match compareValues left right with
      | .lt => true
      | .gt => false
      | .eq => noLater lefts rights
  | _, _ => true

def orderedBy {α : Type} (keys : α → List SortKey) (rows : List α) : List α :=
  rows.insertionSort (fun left right => noLater (keys left) (keys right) = true)

@[simp] theorem mem_orderedBy {α : Type} {keys : α → List SortKey} {rows : List α} {row : α} :
    row ∈ orderedBy keys rows ↔ row ∈ rows :=
  (List.perm_insertionSort _ rows).mem_iff

/-- Ordering drops no row and repeats none. -/
theorem orderedBy_perm {α : Type} (keys : α → List SortKey) (rows : List α) :
    (orderedBy keys rows).Perm rows :=
  List.perm_insertionSort _ rows

end WaslaCore.Platform
