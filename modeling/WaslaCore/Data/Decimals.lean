import Mathlib.Algebra.Order.Field.Rat
import Mathlib.Data.Nat.Digits.Defs
import Mathlib.Tactic.Ring

/-!
Numbers in decimal. A number that is not zero is a significand that does not end in a zero,
some powers of ten up or down, and it is so in one way only. Digits stand from the highest to
the lowest.
-/

namespace WaslaCore.Data

/-- The digits of a number; zero has none. -/
def decimalDigits (number : Nat) : List Nat := (Nat.digits 10 number).reverse

/-- The number some digits are read as. -/
def readDecimal (digits : List Nat) : Nat := Nat.ofDigits 10 digits.reverse

section Digits

variable (number count : Nat) (digits : List Nat)

theorem readDecimal_decimalDigits : readDecimal (decimalDigits number) = number := by
  rw [readDecimal, decimalDigits, List.reverse_reverse, Nat.ofDigits_digits]

theorem readDecimal_zeros_append :
    readDecimal (List.replicate count 0 ++ digits) = readDecimal digits := by
  rw [readDecimal, List.reverse_append, List.reverse_replicate, Nat.ofDigits_append_replicate_zero,
    readDecimal]

theorem readDecimal_append_zeros :
    readDecimal (digits ++ List.replicate count 0) = readDecimal digits * 10 ^ count := by
  rw [readDecimal, List.reverse_append, List.reverse_replicate, Nat.ofDigits_append,
    Nat.ofDigits_replicate_zero, List.length_replicate, Nat.zero_add, Nat.mul_comm, readDecimal]

theorem decimalDigits_lt {number digit : Nat} (h : digit ∈ decimalDigits number) : digit < 10 :=
  Nat.digits_lt_base (by omega) (List.mem_reverse.mp h)

theorem decimalDigits_injective {first second : Nat} (h : decimalDigits first = decimalDigits second) :
    first = second := by
  rw [← readDecimal_decimalDigits first, h, readDecimal_decimalDigits]

theorem decimalDigits_ne_nil {number : Nat} (h : number ≠ 0) : decimalDigits number ≠ [] := by
  intro hnone
  exact Nat.digits_ne_nil_iff_ne_zero.mpr h (List.reverse_eq_nil_iff.mp hnone)

end Digits

/-! ### Powers of ten -/

/-- A significand so many powers of ten up or down. -/
def scaled (significand : Nat) (power : Int) : ℚ := significand * 10 ^ power

theorem scaled_shift (significand : Nat) (count : Nat) (power : Int) :
    scaled (significand * 10 ^ count) power = scaled significand (power + count) := by
  unfold scaled
  rw [zpow_add₀ (by norm_num), zpow_natCast]
  push_cast
  ring

/-- A number ends in no zero in one way only. -/
theorem scaled_injective {first second : Nat} {power power' : Int} (hfirst : first % 10 ≠ 0)
    (hsecond : second % 10 ≠ 0) (h : scaled first power = scaled second power') :
    first = second ∧ power = power' := by
  have hlevel : ∀ {higher lower : Nat} {up down : Int}, lower % 10 ≠ 0 → down ≤ up →
      scaled higher up = scaled lower down → higher = lower ∧ up = down := by
    intro higher lower up down hlower hle hsame
    obtain ⟨count, rfl⟩ : ∃ count : Nat, up = down + count := ⟨(up - down).toNat, by omega⟩
    rw [← scaled_shift] at hsame
    have hten : (10 : ℚ) ^ down ≠ 0 := zpow_ne_zero _ (by norm_num)
    have hnumbers : higher * 10 ^ count = lower := by
      have hcast := mul_right_cancel₀ hten hsame
      exact_mod_cast hcast
    cases count with
    | zero =>
        rw [pow_zero, Nat.mul_one] at hnumbers
        exact ⟨hnumbers, by simp⟩
    | succ count =>
        apply absurd _ hlower
        rw [← hnumbers, pow_succ, ← Nat.mul_assoc, Nat.mul_mod_left]
  rcases le_total power' power with hle | hle
  · exact hlevel hsecond hle h
  · obtain ⟨hsame, hpower⟩ := hlevel hfirst hle h.symm
    exact ⟨hsame.symm, hpower.symm⟩

/-! ### Digits with a point -/

/-- Digits before the point, digits after it, and the power of ten they are taken to. -/
structure Layout where
  whole : List Nat
  fraction : List Nat
  exponent : Option Int

namespace Layout

/-- The number the digits are read as. -/
def worth (layout : Layout) : ℚ :=
  scaled (readDecimal (layout.whole ++ layout.fraction))
    (layout.exponent.getD 0 - layout.fraction.length)

variable {digits : List Nat}

theorem worth_padded (count : Nat) :
    worth ⟨digits ++ List.replicate count 0, [], none⟩ = scaled (readDecimal digits) count := by
  simp [worth, readDecimal_append_zeros, scaled_shift]

/-- A point among the digits. -/
theorem worth_split (count : Nat) (exponent : Option Int) :
    worth ⟨digits.take count, digits.drop count, exponent⟩ =
      scaled (readDecimal digits) (exponent.getD 0 - (digits.length - count : Nat)) := by
  simp [worth]

theorem worth_small (count : Nat) :
    worth ⟨[0], List.replicate count 0 ++ digits, none⟩ =
      scaled (readDecimal digits) (-(count + digits.length : Nat)) := by
  have hzero : ([0] : List Nat) ++ (List.replicate count 0 ++ digits) =
      List.replicate (count + 1) 0 ++ digits := by
    rw [List.replicate_succ]
    rfl
  unfold worth
  rw [hzero, readDecimal_zeros_append]
  simp

end Layout

end WaslaCore.Data
