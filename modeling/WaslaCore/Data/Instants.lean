import Mathlib.Algebra.Order.Round
import Mathlib.Data.Rat.Floor
import Mathlib.Tactic.Ring
import Mathlib.Tactic.Positivity
import WaslaCore.Data.Calendar
import WaslaCore.Data.CodeUnits

/-!
Instants and the texts they are spelled in. A spelling is a local date and time, a fraction
of a second with any number of digits, and a zone; its style is the number of digits and the
zone. Texts of one style stand in the order of their instants. Between two styles there is
no such order: some instant has a text in both.
-/

namespace WaslaCore.Data

/-! ### Spellings -/

/-- `Z`, or hours and minutes ahead of it or behind it. -/
inductive Zone where
  | utc
  | offset (ahead : Bool) (hours minutes : Nat)
  deriving DecidableEq, Repr

structure Spelling where
  year : Nat
  month : Nat
  day : Nat
  hour : Nat
  minute : Nat
  second : Nat
  digits : Nat
  fraction : Nat
  zone : Zone
  deriving DecidableEq, Repr

/-- How many digits the fraction of a second has, and how the zone is written. -/
structure Style where
  digits : Nat
  zone : Zone
  deriving DecidableEq, Repr

def Zone.Valid : Zone → Prop
  | .utc => True
  | .offset _ hours minutes => hours < 16 ∧ minutes < 60

/-- The month of the date, numbered through. -/
def Spelling.monthIndex (spelling : Spelling) : Int := 12 * spelling.year + (spelling.month - 1)

structure Spelling.Valid (spelling : Spelling) : Prop where
  year : 1 ≤ spelling.year ∧ spelling.year ≤ 9999
  month : 1 ≤ spelling.month ∧ spelling.month ≤ 12
  day : 1 ≤ spelling.day ∧ (spelling.day : Int) ≤ monthLength spelling.monthIndex
  hour : spelling.hour < 24
  minute : spelling.minute < 60
  second : spelling.second < 60
  fraction : spelling.fraction < 10 ^ spelling.digits
  zone : spelling.zone.Valid

def Spelling.style (spelling : Spelling) : Style := ⟨spelling.digits, spelling.zone⟩

/-! ### Instants -/

/-- How far the zone is ahead, in minutes. -/
def Zone.minutes : Zone → Int
  | .utc => 0
  | .offset true hours minutes => 60 * hours + minutes
  | .offset false hours minutes => -(60 * hours + minutes)

/-- The seconds from 1970-01-01 to the local date and time. -/
def Spelling.localSeconds (spelling : Spelling) : Int :=
  86400 * (monthStart spelling.monthIndex + (spelling.day - 1)) +
    (60 * (60 * spelling.hour + spelling.minute) + spelling.second)

/-- The instant, in seconds from the epoch. -/
def Spelling.instant (spelling : Spelling) : ℚ :=
  (spelling.localSeconds - 60 * spelling.zone.minutes : Int) + spelling.fraction / 10 ^ spelling.digits

/-! ### Texts -/

def digitChar (digit : Nat) : Char := Char.ofNat (48 + digit)

/-- The last decimal digits of a number, padded with zeros. -/
def padded : Nat → Nat → List Char
  | 0, _ => []
  | width + 1, value => padded width (value / 10) ++ [digitChar (value % 10)]

def Zone.chars : Zone → List Char
  | .utc => ['Z']
  | .offset ahead hours minutes =>
      (if ahead then '+' else '-') :: (padded 2 hours ++ ':' :: padded 2 minutes)

def fractionChars (digits fraction : Nat) : List Char :=
  if digits = 0 then [] else '.' :: padded digits fraction

def Spelling.chars (spelling : Spelling) : List Char :=
  padded 4 spelling.year ++ '-' :: (padded 2 spelling.month ++ '-' :: (padded 2 spelling.day ++
    'T' :: (padded 2 spelling.hour ++ ':' :: (padded 2 spelling.minute ++
      ':' :: (padded 2 spelling.second ++
        (fractionChars spelling.digits spelling.fraction ++ spelling.zone.chars))))))

def Spelling.text (spelling : Spelling) : String := String.ofList spelling.chars

example : (Spelling.mk 2026 1 31 9 5 0 3 70 (.offset false 5 30)).text =
    "2026-01-31T09:05:00.070-05:30" := by
  decide

/-! ### The order of texts -/

/-- Texts in the basic plane compare as the codes of their characters. -/
def Basic (chars : List Char) : Prop := ∀ char ∈ chars, char.toNat < 0x10000

def codes (chars : List Char) : List Nat := chars.map Char.toNat

theorem codeUnits_ofList {chars : List Char} (h : Basic chars) :
    codeUnits (String.ofList chars) = codes chars := by
  unfold codeUnits codes
  rw [String.toList_ofList]
  induction chars with
  | nil => rfl
  | cons char rest ih =>
      have hchar : charUnits char = [char.toNat] := if_pos (h char List.mem_cons_self)
      rw [List.flatMap_cons, hchar, ih fun other hother => h other (List.mem_cons_of_mem char hother)]
      rfl

theorem digitChar_toNat {digit : Nat} (h : digit < 10) : (digitChar digit).toNat = 48 + digit := by
  interval_cases digit <;> rfl

theorem padded_digits (width value : Nat) :
    ∀ char ∈ padded width value, ∃ digit < 10, char = digitChar digit := by
  induction width generalizing value with
  | zero =>
      intro char hchar
      cases hchar
  | succ width ih =>
      intro char hchar
      rcases List.mem_append.mp hchar with hfirst | hlast
      · exact ih _ char hfirst
      · rw [List.mem_singleton.mp hlast]
        exact ⟨value % 10, Nat.mod_lt _ (by decide), rfl⟩

theorem padded_length (width value : Nat) : (padded width value).length = width := by
  induction width generalizing value with
  | zero => rfl
  | succ width ih => rw [padded, List.length_append, ih, List.length_singleton]

/-- A difference in the first part decides, whatever follows. -/
theorem lex_of_first {first second rest rest' : List Nat} (hlength : first.length = second.length)
    (h : first < second) : first ++ rest < second ++ rest' := by
  induction first generalizing second with
  | nil =>
      rw [List.eq_nil_of_length_eq_zero hlength.symm] at h
      exact absurd h (lt_irrefl _)
  | cons code codes ih =>
      cases second with
      | nil => cases hlength
      | cons code' codes' =>
          rw [List.cons_append, List.cons_append, List.cons_lt_cons_iff]
          rcases List.cons_lt_cons_iff.mp h with hless | ⟨hsame, hrest⟩
          · exact .inl hless
          · exact .inr ⟨hsame, ih (by simpa using hlength) hrest⟩

theorem lex_of_rest {first rest rest' : List Nat} (h : rest < rest') :
    first ++ rest < first ++ rest' := by
  induction first with
  | nil => exact h
  | cons code codes ih =>
      rw [List.cons_append, List.cons_append, List.cons_lt_cons_iff]
      exact .inr ⟨rfl, ih⟩

/-- Padded numbers stand in the order of the numbers. -/
theorem padded_lt {width value value' : Nat} (h : value < value') (hbound : value' < 10 ^ width) :
    codes (padded width value) < codes (padded width value') := by
  induction width generalizing value value' with
  | zero =>
      rw [pow_zero] at hbound
      omega
  | succ width ih =>
      simp only [padded, codes, List.map_append, List.map_cons, List.map_nil]
      by_cases htens : value / 10 < value' / 10
      · apply lex_of_first
        · rw [List.length_map, List.length_map, padded_length, padded_length]
        · apply ih htens
          rw [pow_succ] at hbound
          omega
      · have hsame : value / 10 = value' / 10 := by omega
        rw [hsame]
        apply lex_of_rest
        rw [List.cons_lt_cons_iff, digitChar_toNat (Nat.mod_lt _ (by decide)),
          digitChar_toNat (Nat.mod_lt _ (by decide))]
        left
        omega

theorem field_lt {width value value' : Nat} {rest rest' : List Char} (hbound : value' < 10 ^ width)
    (h : value < value' ∨ value = value' ∧ codes rest < codes rest') :
    codes (padded width value ++ rest) < codes (padded width value' ++ rest') := by
  unfold codes
  rw [List.map_append, List.map_append]
  rcases h with hless | ⟨rfl, hrest⟩
  · apply lex_of_first
    · rw [List.length_map, List.length_map, padded_length, padded_length]
    · exact padded_lt hless hbound
  · exact lex_of_rest hrest

theorem separator_lt {char : Char} {rest rest' : List Char} (h : codes rest < codes rest') :
    codes (char :: rest) < codes (char :: rest') :=
  List.cons_lt_cons_iff.mpr (.inr ⟨rfl, h⟩)

/-- The fields of a spelling, the greatest first. -/
def Spelling.key (spelling : Spelling) : ℕ ×ₗ ℕ ×ₗ ℕ ×ₗ ℕ ×ₗ ℕ ×ₗ ℕ ×ₗ ℕ :=
  toLex (spelling.year, toLex (spelling.month, toLex (spelling.day, toLex (spelling.hour,
    toLex (spelling.minute, toLex (spelling.second, spelling.fraction))))))

theorem Spelling.ext_key {first second : Spelling} (hstyle : first.style = second.style)
    (hkey : first.key = second.key) : first = second := by
  cases first
  cases second
  simp only [style, Style.mk.injEq] at hstyle
  simp only [key, EmbeddingLike.apply_eq_iff_eq, Prod.mk.injEq] at hkey
  simp only [Spelling.mk.injEq]
  tauto

theorem Spelling.key_lt {first second : Spelling} :
    first.key < second.key ↔
      first.year < second.year ∨ first.year = second.year ∧
        (first.month < second.month ∨ first.month = second.month ∧
          (first.day < second.day ∨ first.day = second.day ∧
            (first.hour < second.hour ∨ first.hour = second.hour ∧
              (first.minute < second.minute ∨ first.minute = second.minute ∧
                (first.second < second.second ∨ first.second = second.second ∧
                  first.fraction < second.fraction))))) := by
  simp only [key, Prod.Lex.toLex_lt_toLex]

theorem fractionChars_lt {digits fraction fraction' : Nat} {rest : List Char}
    (h : fraction < fraction') (hbound : fraction' < 10 ^ digits) :
    codes (fractionChars digits fraction ++ rest) <
      codes (fractionChars digits fraction' ++ rest) := by
  by_cases hdigits : digits = 0
  · rw [hdigits, pow_zero] at hbound
    omega
  · unfold fractionChars
    rw [if_neg hdigits, if_neg hdigits]
    exact separator_lt (field_lt hbound (.inl h))

/-- Of two spellings of a style the one with the smaller fields has the smaller text. -/
theorem Spelling.codes_lt {first second : Spelling} (hstyle : first.style = second.style)
    (hsecond : second.Valid) (h : first.key < second.key) :
    codes first.chars < codes second.chars := by
  obtain ⟨hdigits, hzone⟩ : first.digits = second.digits ∧ first.zone = second.zone := by
    simpa [style] using hstyle
  obtain ⟨hyear, hmonth, hday, hhour, hminute, hsec, hfraction, -⟩ := hsecond
  have hlength := (monthLength_bounds second.monthIndex).2
  unfold chars
  rw [hdigits, hzone]
  apply field_lt (by omega)
  refine (key_lt.mp h).imp_right fun ⟨hsame, h⟩ => ⟨hsame, separator_lt (field_lt (by omega) ?_)⟩
  refine h.imp_right fun ⟨hsame, h⟩ => ⟨hsame, separator_lt (field_lt (by omega) ?_)⟩
  refine h.imp_right fun ⟨hsame, h⟩ => ⟨hsame, separator_lt (field_lt (by omega) ?_)⟩
  refine h.imp_right fun ⟨hsame, h⟩ => ⟨hsame, separator_lt (field_lt (by omega) ?_)⟩
  refine h.imp_right fun ⟨hsame, h⟩ => ⟨hsame, separator_lt (field_lt (by omega) ?_)⟩
  refine h.imp_right fun ⟨hsame, h⟩ => ⟨hsame, fractionChars_lt h hfraction⟩

/-! ### The order of instants -/

/-- Of two valid spellings that differ above the fraction, the one with the smaller fields
stands a second earlier at least. -/
theorem Spelling.localSeconds_lt {first second : Spelling} (hfirst : first.Valid)
    (hsecond : second.Valid) (h : first.key < second.key) :
    first.localSeconds + 1 ≤ second.localSeconds ∨
      first.localSeconds = second.localSeconds ∧ first.fraction < second.fraction := by
  obtain ⟨hyear, hmonth, hday, hhour, hminute, hsec, -, -⟩ := hfirst
  obtain ⟨hyear', hmonth', hday', hhour', hminute', hsec', -, -⟩ := hsecond
  have hmonths : first.monthIndex < second.monthIndex →
      first.localSeconds + 1 ≤ second.localSeconds := by
    intro hless
    have hlater := monthStart_later hless
    unfold localSeconds
    omega
  unfold Spelling.monthIndex at hmonths
  rcases key_lt.mp h with hless | ⟨heq, hless | ⟨heq', hrest⟩⟩
  · exact .inl (hmonths (by omega))
  · exact .inl (hmonths (by omega))
  · have hsame : first.monthIndex = second.monthIndex := by
      unfold monthIndex
      omega
    unfold localSeconds
    rw [hsame]
    omega

/-- Of two spellings of a style the one with the smaller fields is the earlier instant. -/
theorem Spelling.instant_lt {first second : Spelling} (hstyle : first.style = second.style)
    (hfirst : first.Valid) (hsecond : second.Valid) (h : first.key < second.key) :
    first.instant < second.instant := by
  obtain ⟨hdigits, hzone⟩ : first.digits = second.digits ∧ first.zone = second.zone := by
    simpa [style] using hstyle
  have hscale : (0 : ℚ) < 10 ^ second.digits := by positivity
  unfold instant
  rw [hdigits, hzone]
  rcases localSeconds_lt hfirst hsecond h with hseconds | ⟨hsame, hfraction⟩
  · have hbelow : (first.fraction : ℚ) / 10 ^ second.digits < 1 := by
      rw [div_lt_one hscale]
      have hbound := hfirst.fraction
      rw [hdigits] at hbound
      exact_mod_cast hbound
    have habove : (0 : ℚ) ≤ second.fraction / 10 ^ second.digits := by positivity
    have hcast : ((first.localSeconds - 60 * second.zone.minutes : Int) : ℚ) + 1 ≤
        (second.localSeconds - 60 * second.zone.minutes : Int) := by
      exact_mod_cast (by omega : first.localSeconds - 60 * second.zone.minutes + 1 ≤
        second.localSeconds - 60 * second.zone.minutes)
    linarith
  · rw [hsame]
    have hless : (first.fraction : ℚ) / 10 ^ second.digits <
        second.fraction / 10 ^ second.digits := by
      apply div_lt_div_of_pos_right _ hscale
      exact_mod_cast hfraction
    linarith

theorem basic_padded (width value : Nat) : Basic (padded width value) := by
  intro char hchar
  obtain ⟨digit, hdigit, rfl⟩ := padded_digits width value char hchar
  rw [digitChar_toNat hdigit]
  omega

theorem basic_append {first second : List Char} (hfirst : Basic first) (hsecond : Basic second) :
    Basic (first ++ second) := by
  intro char hchar
  rcases List.mem_append.mp hchar with h | h
  · exact hfirst char h
  · exact hsecond char h

theorem basic_cons (char : Char) {rest : List Char} (hchar : char.toNat < 0x10000)
    (hrest : Basic rest) : Basic (char :: rest) := by
  rintro other (_ | ⟨_, hother⟩)
  · exact hchar
  · exact hrest other hother

theorem basic_zone (zone : Zone) : Basic zone.chars := by
  cases zone with
  | utc => exact basic_cons 'Z' (by decide) fun _ hnone => nomatch hnone
  | offset ahead hours minutes =>
      have hrest : Basic (padded 2 hours ++ ':' :: padded 2 minutes) :=
        basic_append (basic_padded 2 hours) (basic_cons ':' (by decide) (basic_padded 2 minutes))
      cases ahead with
      | true => exact basic_cons '+' (by decide) hrest
      | false => exact basic_cons '-' (by decide) hrest

theorem basic_fraction (digits fraction : Nat) : Basic (fractionChars digits fraction) := by
  unfold fractionChars
  split
  · intro char hchar
    cases hchar
  · exact basic_cons '.' (by decide) (basic_padded digits fraction)

theorem Spelling.basic_chars (spelling : Spelling) : Basic spelling.chars := by
  unfold chars
  have htail := basic_append (basic_fraction spelling.digits spelling.fraction)
    (basic_zone spelling.zone)
  have hseconds := basic_append (basic_padded 2 spelling.second) htail
  have hminutes := basic_append (basic_padded 2 spelling.minute)
    (basic_cons ':' (by decide) hseconds)
  have hhours := basic_append (basic_padded 2 spelling.hour)
    (basic_cons ':' (by decide) hminutes)
  have hdays := basic_append (basic_padded 2 spelling.day)
    (basic_cons 'T' (by decide) hhours)
  have hmonths := basic_append (basic_padded 2 spelling.month)
    (basic_cons '-' (by decide) hdays)
  exact basic_append (basic_padded 4 spelling.year) (basic_cons '-' (by decide) hmonths)

theorem Spelling.textLess_iff (first second : Spelling) :
    textLess first.text second.text = true ↔ codes first.chars < codes second.chars := by
  rw [Data.textLess_iff, text, text, codeUnits_ofList first.basic_chars,
    codeUnits_ofList second.basic_chars]

/-- Texts of one style stand in the order of their instants. -/
theorem Spelling.text_lt_iff {first second : Spelling} (hstyle : first.style = second.style)
    (hfirst : first.Valid) (hsecond : second.Valid) :
    textLess first.text second.text = true ↔ first.instant < second.instant := by
  rw [Spelling.textLess_iff]
  rcases lt_trichotomy first.key second.key with hless | hsame | hmore
  · exact iff_of_true (codes_lt hstyle hsecond hless) (instant_lt hstyle hfirst hsecond hless)
  · rw [ext_key hstyle hsame]
    exact iff_of_false (lt_irrefl _) (lt_irrefl _)
  · exact iff_of_false (lt_asymm (codes_lt hstyle.symm hfirst hmore))
      (lt_asymm (instant_lt hstyle.symm hsecond hfirst hmore))

/-! ### The text tells the style -/

/-- The characters of a fraction; no zone begins with one. -/
def isFractionChar (char : Char) : Bool := char.isDigit || char = '.'

theorem isFractionChar_padded (width value : Nat) :
    ∀ char ∈ padded width value, isFractionChar char = true := by
  intro char hchar
  obtain ⟨digit, hdigit, rfl⟩ := padded_digits width value char hchar
  interval_cases digit <;> rfl

theorem takeWhile_fraction (digits fraction : Nat) (zone : Zone) :
    (fractionChars digits fraction ++ zone.chars).takeWhile isFractionChar =
      fractionChars digits fraction := by
  have hall : ∀ char ∈ fractionChars digits fraction, isFractionChar char = true := by
    unfold fractionChars
    split
    · intro char hchar
      cases hchar
    · rintro char (_ | ⟨_, hchar⟩)
      · rfl
      · exact isFractionChar_padded digits fraction char hchar
  have hzone : zone.chars.takeWhile isFractionChar = [] := by
    cases zone with
    | utc => rfl
    | offset ahead hours minutes => cases ahead <;> rfl
  rw [List.takeWhile_append_of_pos hall, hzone, List.append_nil]

theorem fractionChars_length {digits fraction digits' fraction' : Nat}
    (h : fractionChars digits fraction = fractionChars digits' fraction') : digits = digits' := by
  have hlength := congrArg List.length h
  unfold fractionChars at hlength
  split at hlength <;> split at hlength <;>
    simp only [List.length_nil, List.length_cons, padded_length] at hlength <;> omega

theorem padded_inj {width value value' : Nat} (hbound : value < 10 ^ width)
    (hbound' : value' < 10 ^ width) (h : padded width value = padded width value') :
    value = value' := by
  rcases lt_trichotomy value value' with hless | hsame | hmore
  · exact absurd (congrArg codes h) (padded_lt hless hbound').ne
  · exact hsame
  · exact absurd (congrArg codes h) (padded_lt hmore hbound).ne'

theorem Zone.chars_inj {first second : Zone} (hfirst : first.Valid) (hsecond : second.Valid)
    (h : first.chars = second.chars) : first = second := by
  cases first with
  | utc =>
      cases second with
      | utc => rfl
      | offset ahead hours minutes => cases ahead <;> cases h
  | offset ahead hours minutes =>
      cases second with
      | utc => cases ahead <;> cases h
      | offset ahead' hours' minutes' =>
          obtain ⟨hsign, hrest⟩ := List.cons.inj h
          have hahead : ahead = ahead' := by
            cases ahead <;> cases ahead' <;> first | rfl | cases hsign
          obtain ⟨hhours, hminutes⟩ := List.append_inj hrest (by rw [padded_length, padded_length])
          have hhours := padded_inj (by have := hfirst.1; omega) (by have := hsecond.1; omega) hhours
          have hminutes := padded_inj (by have := hfirst.2; omega) (by have := hsecond.2; omega)
            (List.cons.inj hminutes).2
          rw [hahead, hhours, hminutes]

theorem Spelling.style_of_text {first second : Spelling} (hfirst : first.zone.Valid)
    (hsecond : second.zone.Valid) (h : first.text = second.text) : first.style = second.style := by
  have hchars : first.chars = second.chars := String.ofList_injective h
  unfold chars at hchars
  have hlength : ∀ width value value' : Nat,
      (padded width value).length = (padded width value').length := by
    intro width value value'
    rw [padded_length, padded_length]
  obtain ⟨-, h⟩ := List.append_inj hchars (hlength _ _ _)
  obtain ⟨-, h⟩ := List.append_inj (List.cons.inj h).2 (hlength _ _ _)
  obtain ⟨-, h⟩ := List.append_inj (List.cons.inj h).2 (hlength _ _ _)
  obtain ⟨-, h⟩ := List.append_inj (List.cons.inj h).2 (hlength _ _ _)
  obtain ⟨-, h⟩ := List.append_inj (List.cons.inj h).2 (hlength _ _ _)
  obtain ⟨-, htail⟩ := List.append_inj (List.cons.inj h).2 (hlength _ _ _)
  have hfraction : fractionChars first.digits first.fraction =
      fractionChars second.digits second.fraction := by
    rw [← takeWhile_fraction _ _ first.zone, htail, takeWhile_fraction]
  rw [hfraction] at htail
  have hzone := Zone.chars_inj hfirst hsecond (List.append_cancel_left htail)
  unfold style
  rw [fractionChars_length hfraction, hzone]

/-! ### One instant in every style -/

/-- The first moment of 2000-01-02 and the given fraction after it, in the style. -/
def Style.newYear (style : Style) (fraction : Nat) : Spelling :=
  let ahead := style.zone.minutes
  if 0 ≤ ahead then
    ⟨2000, 1, 2, ahead.toNat / 60, ahead.toNat % 60, 0, style.digits, fraction, style.zone⟩
  else
    ⟨2000, 1, 1, (1440 + ahead).toNat / 60, (1440 + ahead).toNat % 60, 0, style.digits, fraction,
      style.zone⟩

theorem Zone.minutes_bounds {zone : Zone} (h : zone.Valid) :
    -960 < zone.minutes ∧ zone.minutes < 960 := by
  cases zone with
  | utc => decide
  | offset ahead hours minutes =>
      obtain ⟨hhours, hminutes⟩ := h
      cases ahead <;> simp only [Zone.minutes] <;> omega

section NewYear

variable {style : Style} {fraction : Nat}

theorem Style.newYear_style : (style.newYear fraction).style = style := by
  unfold newYear
  dsimp only
  split <;> rfl

theorem Style.newYear_valid (hzone : style.zone.Valid) (hfraction : fraction < 10 ^ style.digits) :
    (style.newYear fraction).Valid := by
  have hmonth : (31 : Int) = monthLength (12 * (2000 : Nat) + ((1 : Nat) - 1)) := by decide +kernel
  have hbounds := Zone.minutes_bounds hzone
  unfold newYear
  dsimp only
  split
  · refine ⟨?_, ?_, ⟨?_, ?_⟩, ?_, ?_, ?_, hfraction, hzone⟩ <;> dsimp only [Spelling.monthIndex] <;>
      omega
  · refine ⟨?_, ?_, ⟨?_, ?_⟩, ?_, ?_, ?_, hfraction, hzone⟩ <;> dsimp only [Spelling.monthIndex] <;>
      omega

theorem Style.newYear_instant (hzone : style.zone.Valid) :
    (style.newYear fraction).instant = 946771200 + fraction / 10 ^ style.digits := by
  have hstart : monthStart (12 * (2000 : Nat) + ((1 : Nat) - 1)) = 10957 := by decide +kernel
  have hbounds := Zone.minutes_bounds hzone
  have hseconds : (style.newYear fraction).localSeconds - 60 * style.zone.minutes = 946771200 := by
    unfold newYear
    dsimp only
    split
    · rw [Spelling.localSeconds, Spelling.monthIndex, hstart]
      dsimp only
      omega
    · rw [Spelling.localSeconds, Spelling.monthIndex, hstart]
      dsimp only
      omega
  have hzoneSame : (style.newYear fraction).zone = style.zone := congrArg Style.zone newYear_style
  have hdigitsSame : (style.newYear fraction).digits = style.digits :=
    congrArg Style.digits newYear_style
  have hfractionSame : (style.newYear fraction).fraction = fraction := by
    unfold newYear
    dsimp only
    split <;> rfl
  unfold Spelling.instant
  rw [hzoneSame, hdigitsSame, hfractionSame, hseconds]
  norm_num

end NewYear

/-! ### Whole units -/

/-- Of a spelling with no more than the given digits, the instant is whole in units of the
last of them. -/
theorem Spelling.instant_whole {spelling : Spelling} {places : Nat} (h : spelling.digits ≤ places) :
    (10 : ℚ) ^ places * spelling.instant =
      ((10 ^ places * (spelling.localSeconds - 60 * spelling.zone.minutes) +
        spelling.fraction * 10 ^ (places - spelling.digits) : Int) : ℚ) := by
  have hscale : (10 : ℚ) ^ spelling.digits ≠ 0 := by positivity
  obtain ⟨more, rfl⟩ := Nat.exists_eq_add_of_le h
  unfold instant
  rw [Nat.add_sub_cancel_left]
  push_cast
  rw [mul_add, pow_add]
  field_simp

/-- The nearest whole number to a whole number is itself. -/
theorem nearest_whole {whole nearest : Int} (h : |(whole : ℚ) - nearest| ≤ 1 / 2) :
    nearest = whole := by
  have hless : |whole - nearest| < 1 := by
    have hcast : |((whole - nearest : Int) : ℚ)| ≤ 1 / 2 := by
      push_cast
      exact h
    have hbelow : ((|whole - nearest| : Int) : ℚ) < 1 := by
      push_cast
      push_cast at hcast
      linarith
    exact_mod_cast hbelow
  have hzero := abs_lt.mp hless
  omega

end WaslaCore.Data
