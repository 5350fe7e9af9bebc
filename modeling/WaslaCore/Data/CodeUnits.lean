import Mathlib.Data.List.Lex
import Mathlib.Data.Prod.Lex

/-!
Texts compared by their UTF-16 code units. A character above the first plane is two units,
so the order is not the order of the characters; the units of a text still tell it from
every other.
-/

namespace WaslaCore.Data

def charUnits (char : Char) : List Nat :=
  if char.toNat < 0x10000 then [char.toNat]
  else [0xD800 + (char.toNat - 0x10000) / 0x400, 0xDC00 + (char.toNat - 0x10000) % 0x400]

def codeUnits (text : String) : List Nat := text.toList.flatMap charUnits

/-- No character is a surrogate. -/
theorem toNat_valid (char : Char) :
    char.toNat < 0xD800 ∨ (0xDFFF < char.toNat ∧ char.toNat < 0x110000) :=
  char.valid

/-- The units of a character never run into those that follow. -/
theorem charUnits_inj {first second : Char} {rest rest' : List Nat}
    (h : charUnits first ++ rest = charUnits second ++ rest') : first = second ∧ rest = rest' := by
  have hfirst := toNat_valid first
  have hsecond := toNat_valid second
  unfold charUnits at h
  split at h <;> split at h
  · obtain ⟨hunit, hrest⟩ := List.cons.inj h
    exact ⟨Char.toNat_inj.mp hunit, hrest⟩
  · obtain ⟨hunit, -⟩ := List.cons.inj h
    omega
  · obtain ⟨hunit, -⟩ := List.cons.inj h
    omega
  · obtain ⟨hhigh, hlower⟩ := List.cons.inj h
    obtain ⟨hlow, hrest⟩ := List.cons.inj hlower
    have hsame : first.toNat = second.toNat := by omega
    exact ⟨Char.toNat_inj.mp hsame, hrest⟩

theorem charUnits_ne_nil (char : Char) : charUnits char ≠ [] := by
  unfold charUnits
  split <;> simp

theorem codeUnits_injective : Function.Injective codeUnits := by
  have hchars : ∀ first second : List Char,
      first.flatMap charUnits = second.flatMap charUnits → first = second := by
    intro first
    induction first with
    | nil =>
        intro second h
        cases second with
        | nil => rfl
        | cons char rest =>
            rw [List.flatMap_nil, List.flatMap_cons] at h
            exact absurd (List.append_eq_nil_iff.mp h.symm).1 (charUnits_ne_nil char)
    | cons char rest ih =>
        intro second h
        cases second with
        | nil =>
            rw [List.flatMap_nil, List.flatMap_cons] at h
            exact absurd (List.append_eq_nil_iff.mp h).1 (charUnits_ne_nil char)
        | cons char' rest' =>
            rw [List.flatMap_cons, List.flatMap_cons] at h
            obtain ⟨rfl, hrest⟩ := charUnits_inj h
            rw [ih rest' hrest]
  intro first second h
  exact String.toList_inj.mp (hchars _ _ h)

/-! ### Comparing texts -/

/-- `left < right`. -/
def textLess (left right : String) : Bool := codeUnits left < codeUnits right

def compareTexts (left right : String) : Ordering :=
  if textLess left right then .lt else if textLess right left then .gt else .eq

theorem textLess_iff {left right : String} :
    textLess left right = true ↔ codeUnits left < codeUnits right :=
  decide_eq_true_iff

theorem compareTexts_cases (left right : String) :
    (compareTexts left right = .lt ∧ codeUnits left < codeUnits right) ∨
      (compareTexts left right = .eq ∧ left = right) ∨
      (compareTexts left right = .gt ∧ codeUnits right < codeUnits left) := by
  unfold compareTexts
  by_cases hless : textLess left right = true
  · rw [if_pos hless]
    exact .inl ⟨rfl, textLess_iff.mp hless⟩
  · rw [if_neg hless]
    by_cases hmore : textLess right left = true
    · rw [if_pos hmore]
      exact .inr (.inr ⟨rfl, textLess_iff.mp hmore⟩)
    · rw [if_neg hmore]
      rw [textLess_iff] at hless hmore
      exact .inr (.inl ⟨rfl, codeUnits_injective (le_antisymm (not_lt.mp hmore) (not_lt.mp hless))⟩)

end WaslaCore.Data
