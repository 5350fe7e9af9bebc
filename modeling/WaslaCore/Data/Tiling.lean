import Mathlib.Order.Lattice
import Mathlib.Tactic.Common

/-!
Numbered intervals laid end to end. Every tile is the first or starts where the one
numbered before it ends, and no number is used twice, so the tiles of a family stand in
one row: they are numbered without gaps, never overlap, and at most one starts at any
instant. The family grows at its end only.
-/

namespace WaslaCore.Data

structure Tile (T : Type*) where
  number : Int
  start : T
  finish : T

/-- The tiles of a family, under the keys they are kept by, laid end to end. -/
structure Tiling {ι T : Type*} [LinearOrder T] (tile : ι → Option (Tile T)) : Prop where
  joined : ∀ i t, tile i = some t →
    t.number = 1 ∨ ∃ j s, tile j = some s ∧ t.number = s.number + 1 ∧ t.start = s.finish
  positive : ∀ i t, tile i = some t → 1 ≤ t.number
  single : ∀ i j t s, tile i = some t → tile j = some s → t.number = s.number → i = j
  ordered : ∀ i t, tile i = some t → t.start < t.finish

namespace Tiling

variable {ι T : Type*} [LinearOrder T] {tile tile' : ι → Option (Tile T)}

theorem empty : Tiling (fun _ : ι => (none : Option (Tile T))) where
  joined := by rintro i t ⟨⟩
  positive := by rintro i t ⟨⟩
  single := by rintro i j t s ⟨⟩
  ordered := by rintro i t ⟨⟩

/-- A tile laid first, or after the one numbered before it. -/
structure Extends (tile : ι → Option (Tile T)) (last : Tile T) : Prop where
  fresh : ∀ i t, tile i = some t → t.number ≠ last.number
  joined : last.number = 1 ∨
    ∃ j s, tile j = some s ∧ last.number = s.number + 1 ∧ last.start = s.finish
  ordered : last.start < last.finish

/-- The family with such a tile under a key that was free is laid end to end again. -/
theorem extend [DecidableEq ι] (h : Tiling tile) {key : ι} {last : Tile T}
    (hfree : tile key = none) (hlast : Extends tile last) :
    Tiling (fun i => if key = i then some last else tile i) where
  joined i t ht := by
    have hkept : ∀ j s, tile j = some s → (if key = j then some last else tile j) = some s := by
      intro j s hs
      split
      · rename_i hkey
        rw [← hkey, hfree] at hs
        cases hs
      · exact hs
    have hjoined : t.number = 1 ∨
        ∃ j s, tile j = some s ∧ t.number = s.number + 1 ∧ t.start = s.finish := by
      split at ht
      · obtain rfl := Option.some.inj ht
        exact hlast.joined
      · exact h.joined i t ht
    rcases hjoined with hfirst | ⟨j, s, hs, hnumber, hstart⟩
    · exact .inl hfirst
    · exact .inr ⟨j, s, hkept j s hs, hnumber, hstart⟩
  positive i t ht := by
    split at ht
    · obtain rfl := Option.some.inj ht
      rcases hlast.joined with hfirst | ⟨j, s, hs, hnumber, -⟩
      · omega
      · have hs := h.positive j s hs
        omega
    · exact h.positive i t ht
  single i j t s ht hs hnumber := by
    split at ht <;> split at hs
    · rename_i hi hj
      exact hi.symm.trans hj
    · obtain rfl := Option.some.inj ht
      exact absurd hnumber.symm (hlast.fresh j s hs)
    · obtain rfl := Option.some.inj hs
      exact absurd hnumber (hlast.fresh i t ht)
    · exact h.single i j t s ht hs hnumber
  ordered i t ht := by
    split at ht
    · obtain rfl := Option.some.inj ht
      exact hlast.ordered
    · exact h.ordered i t ht

/-- Every number up to a tile's own is used. -/
theorem downward (h : Tiling tile) {i : ι} {t : Tile T} (ht : tile i = some t) {k : Int}
    (hfirst : 1 ≤ k) (hlast : k ≤ t.number) : ∃ j s, tile j = some s ∧ s.number = k := by
  obtain ⟨steps, hsteps⟩ : ∃ steps : Nat, t.number = k + steps :=
    ⟨(t.number - k).toNat, by omega⟩
  induction steps generalizing i t with
  | zero => exact ⟨i, t, ht, by omega⟩
  | succ steps ih =>
      rcases h.joined i t ht with hone | ⟨j, s, hs, hnumber, -⟩
      · omega
      · exact ih hs (by omega) (by omega)

/-- A tile starts where the one numbered before it ends. -/
theorem start_eq_finish (h : Tiling tile) {i j : ι} {t s : Tile T} (ht : tile i = some t)
    (hs : tile j = some s) (hnumber : t.number = s.number + 1) : t.start = s.finish := by
  rcases h.joined i t ht with hone | ⟨k, r, hr, hprevious, hstart⟩
  · have hpositive := h.positive j s hs
    omega
  · obtain rfl := h.single k j r s hr hs (by omega)
    rw [hr] at hs
    obtain rfl := Option.some.inj hs
    exact hstart

/-- A tile ends before every later one starts. -/
theorem finish_le_start (h : Tiling tile) {i j : ι} {t s : Tile T} (ht : tile i = some t)
    (hs : tile j = some s) (hlater : s.number < t.number) : s.finish ≤ t.start := by
  obtain ⟨steps, hsteps⟩ : ∃ steps : Nat, t.number = s.number + 1 + steps :=
    ⟨(t.number - s.number - 1).toNat, by omega⟩
  induction steps generalizing i t with
  | zero => exact le_of_eq (h.start_eq_finish ht hs (by omega)).symm
  | succ steps ih =>
      obtain ⟨k, r, hr, hnumber⟩ := h.downward ht (k := t.number - 1)
        (by have hpositive := h.positive j s hs; omega) (by omega)
      have hbefore := ih hr (by omega) (by omega)
      have hstart := h.start_eq_finish ht hr (by omega)
      rw [hstart]
      exact le_trans hbefore (le_of_lt (h.ordered k r hr))

/-- No two tiles overlap. -/
theorem disjoint (h : Tiling tile) {i j : ι} {t s : Tile T} (ht : tile i = some t)
    (hs : tile j = some s) (hne : i ≠ j) : t.finish ≤ s.start ∨ s.finish ≤ t.start := by
  rcases Int.lt_trichotomy t.number s.number with hbefore | hsame | hafter
  · exact .inl (h.finish_le_start hs ht hbefore)
  · exact absurd (h.single i j t s ht hs hsame) hne
  · exact .inr (h.finish_le_start ht hs hafter)

/-- At most one tile starts at any instant. -/
theorem start_unique (h : Tiling tile) {i j : ι} {t s : Tile T} (ht : tile i = some t)
    (hs : tile j = some s) (hstart : t.start = s.start) : i = j := by
  by_contra hne
  rcases h.disjoint ht hs hne with hbefore | hafter
  · exact absurd (h.ordered i t ht) (not_lt_of_ge (hstart ▸ hbefore))
  · exact absurd (h.ordered j s hs) (not_lt_of_ge (hstart ▸ hafter))

/-- A family whose numbers are bounded is numbered from one to some last number. -/
theorem numbered (h : Tiling tile) {bound : Int}
    (hbound : ∀ i t, tile i = some t → t.number ≤ bound) :
    ∃ n : Nat, ∀ k : Int, (∃ i t, tile i = some t ∧ t.number = k) ↔ 1 ≤ k ∧ k ≤ n := by
  obtain ⟨limit, hlimit⟩ : ∃ limit : Nat, ∀ i t, tile i = some t → t.number ≤ limit :=
    ⟨bound.toNat, fun i t ht => by have hmost := hbound i t ht; omega⟩
  clear hbound
  induction limit with
  | zero =>
      refine ⟨0, fun k => ⟨?_, by omega⟩⟩
      rintro ⟨i, t, ht, -⟩
      have hpositive := h.positive i t ht
      have hmost := hlimit i t ht
      omega
  | succ limit ih =>
      by_cases htop : ∃ i t, tile i = some t ∧ t.number = limit + 1
      · obtain ⟨i, t, ht, hnumber⟩ := htop
        refine ⟨limit + 1, fun k => ⟨?_, fun hk => ?_⟩⟩
        · rintro ⟨j, s, hs, rfl⟩
          exact ⟨h.positive j s hs, hlimit j s hs⟩
        · exact h.downward ht hk.1 (by omega)
      · refine ih fun i t ht => ?_
        have hmost := hlimit i t ht
        have hother : t.number ≠ limit + 1 := fun hnumber => htop ⟨i, t, ht, hnumber⟩
        omega

end Tiling

end WaslaCore.Data
