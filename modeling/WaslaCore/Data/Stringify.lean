import WaslaCore.Data.Decimals
import WaslaCore.Data.Delimited
import WaslaCore.Data.JsString

/-!
How `JSON.stringify` writes the numbers and the strings of JavaScript, and that the texts are
told from whatever may follow them. A number has the shortest digits that tell it from every
other one; a string is escaped unit by unit, and only surrogates that pair up stay as they are.
-/

namespace WaslaCore.Data

/-! ### Numbers -/

/-- A finite number: zero of either sign, or `significand × 10 ^ (point - count)` with `count`
digits to the significand, as few as tell the number from every other. Each number of
JavaScript is one of these. -/
inductive JsNumber where
  | zero (negative : Bool)
  | nonzero (negative : Bool) (significand : Nat) (point : Int) (hlast : significand % 10 ≠ 0)

namespace JsNumber

/-- `===`. -/
def equals : JsNumber → JsNumber → Prop
  | .zero _, .zero _ => True
  | .nonzero negative significand point _, .nonzero negative' significand' point' _ =>
      negative = negative' ∧ significand = significand' ∧ point = point'
  | _, _ => False

def negative : JsNumber → Bool
  | .zero _ => false
  | .nonzero negative _ _ _ => negative

/-- Where `Number.prototype.toString` puts the point, and which power it writes. -/
def layout : JsNumber → Layout
  | .zero _ => ⟨[0], [], none⟩
  | .nonzero _ significand point _ =>
      let digits := decimalDigits significand
      if -5 ≤ point ∧ point ≤ 21 then
        if digits.length ≤ point then
          ⟨digits ++ List.replicate (point - digits.length).toNat 0, [], none⟩
        else if 0 < point then ⟨digits.take point.toNat, digits.drop point.toNat, none⟩
        else ⟨[0], List.replicate (-point).toNat 0 ++ digits, none⟩
      else ⟨digits.take 1, digits.drop 1, some (point - 1)⟩

end JsNumber

def digitUnit (digit : Nat) : CodeUnit := Fin.ofNat 0x10000 (48 + digit)

def digitsText (digits : List Nat) : JsString := digits.map digitUnit

def exponentText : Option Int → JsString
  | none => []
  | some exponent =>
      unitOf 'e' :: unitOf (if exponent < 0 then '-' else '+') ::
        digitsText (decimalDigits exponent.natAbs)

def fractionText : List Nat → JsString
  | [] => []
  | digit :: digits => unitOf '.' :: digitsText (digit :: digits)

def Layout.text (layout : Layout) : JsString :=
  digitsText layout.whole ++ (fractionText layout.fraction ++ exponentText layout.exponent)

def JsNumber.text (number : JsNumber) : JsString :=
  if number.negative then unitOf '-' :: number.layout.text else number.layout.text

/-! ### Strings -/

/-- The letter of an escape of two units. -/
def shortEscape (unit : CodeUnit) : Option CodeUnit :=
  if unit.val = 8 then some (unitOf 'b')
  else if unit.val = 9 then some (unitOf 't')
  else if unit.val = 10 then some (unitOf 'n')
  else if unit.val = 12 then some (unitOf 'f')
  else if unit.val = 13 then some (unitOf 'r')
  else if unit.val = 34 then some (unitOf '"')
  else if unit.val = 92 then some (unitOf '\\')
  else none

def hexUnit (digit : Nat) : CodeUnit :=
  Fin.ofNat 0x10000 (if digit < 10 then 48 + digit else 87 + digit)

def unicodeEscape (unit : CodeUnit) : JsString :=
  [unitOf '\\', unitOf 'u', hexUnit (unit.val / 4096), hexUnit (unit.val / 256 % 16),
    hexUnit (unit.val / 16 % 16), hexUnit (unit.val % 16)]

def isSurrogate (unit : CodeUnit) : Bool := isHighSurrogate unit || isLowSurrogate unit

def escapedUnit (unit : CodeUnit) : JsString :=
  match shortEscape unit with
  | some letter => [unitOf '\\', letter]
  | none => if unit.val < 32 || isSurrogate unit then unicodeEscape unit else [unit]

/-- The units between the quotes. -/
def quotedUnits : JsString → JsString
  | [] => []
  | [unit] => escapedUnit unit
  | unit :: next :: rest =>
      if isHighSurrogate unit && isLowSurrogate next then unit :: next :: quotedUnits rest
      else escapedUnit unit ++ quotedUnits (next :: rest)

def quotedText (text : JsString) : JsString := unitOf '"' :: (quotedUnits text ++ [unitOf '"'])

/-! ### Numbers are told -/

def isDigitUnit (unit : CodeUnit) : Bool := 48 ≤ unit.val && unit.val ≤ 57

/-- No digit comes first. -/
def DigitsEnd (rest : JsString) : Prop := ∀ unit ∈ rest.head?, isDigitUnit unit = false

/-- Nothing comes first that a number may be written with. -/
def NumberEnds (rest : JsString) : Prop := ∀ unit ∈ rest.head?,
  isDigitUnit unit = false ∧ unit ≠ unitOf '.' ∧ unit ≠ unitOf 'e'

theorem NumberEnds.digits {rest : JsString} (h : NumberEnds rest) : DigitsEnd rest :=
  fun unit hunit => (h unit hunit).1

theorem digitUnit_val {digit : Nat} (h : digit < 10) : (digitUnit digit).val = 48 + digit := by
  rw [digitUnit, Fin.val_ofNat, Nat.mod_eq_of_lt (by omega)]

theorem digitUnit_isDigit {digit : Nat} (h : digit < 10) : isDigitUnit (digitUnit digit) = true := by
  rw [isDigitUnit, digitUnit_val h]
  simp only [Bool.and_eq_true, decide_eq_true_eq]
  omega

/-- Digits end where no digit follows. -/
theorem digitsText_told {digits : List Nat} (hdigits : ∀ digit ∈ digits, digit < 10) :
    Told digitsText DigitsEnd Eq (fun digits => ∀ digit ∈ digits, digit < 10) digits := by
  have hends : ∀ {digit : Nat} {digits : List Nat} {rest rest' : JsString}, digit < 10 →
      DigitsEnd rest' → digitsText (digit :: digits) ++ rest ≠ rest' := by
    rintro digit digits rest rest' hdigit hends rfl
    have hhead := hends _ rfl
    rw [digitUnit_isDigit hdigit] at hhead
    cases hhead
  induction digits with
  | nil =>
      intro other rest rest' hother hrest hrest' hsame
      cases other with
      | nil => exact ⟨rfl, hsame⟩
      | cons digit' digits' =>
          exact absurd hsame.symm (hends (hother digit' List.mem_cons_self) hrest)
  | cons digit digits ih =>
      intro other rest rest' hother hrest hrest' hsame
      cases other with
      | nil => exact absurd hsame (hends (hdigits digit List.mem_cons_self) hrest')
      | cons digit' digits' =>
          obtain ⟨hunit, hlater⟩ := List.cons.inj hsame
          have hvalue := congrArg Fin.val hunit
          rw [digitUnit_val (hdigits digit List.mem_cons_self),
            digitUnit_val (hother digit' List.mem_cons_self)] at hvalue
          obtain ⟨rfl, hleft⟩ := ih (fun later hmember => hdigits later (List.mem_cons_of_mem _ hmember))
            (fun later hmember => hother later (List.mem_cons_of_mem _ hmember)) hrest hrest' hlater
          obtain rfl : digit = digit' := by omega
          exact ⟨rfl, hleft⟩

theorem exponentText_ends (exponent : Option Int) {rest : JsString} (h : NumberEnds rest) :
    DigitsEnd (exponentText exponent ++ rest) ∧
      ∀ unit ∈ (exponentText exponent ++ rest).head?, unit ≠ unitOf '.' := by
  cases exponent with
  | none => exact ⟨h.digits, fun unit hunit => (h unit hunit).2.1⟩
  | some exponent =>
      refine ⟨fun unit hunit => ?_, fun unit hunit => ?_⟩
      · rw [← Option.some.inj hunit]
        rfl
      · rw [← Option.some.inj hunit]
        decide

theorem fractionText_ends (fraction : List Nat) (exponent : Option Int) {rest : JsString}
    (h : NumberEnds rest) : DigitsEnd (fractionText fraction ++ (exponentText exponent ++ rest)) := by
  cases fraction with
  | nil => exact (exponentText_ends exponent h).1
  | cons digit digits =>
      intro unit hunit
      rw [← Option.some.inj hunit]
      rfl

theorem exponentText_told (exponent : Option Int) :
    Told exponentText NumberEnds Eq (fun _ => True) exponent := by
  have hmark : ∀ {exponent : Int} {rest rest' : JsString}, NumberEnds rest →
      rest ≠ exponentText (some exponent) ++ rest' := by
    rintro exponent rest rest' hends rfl
    exact (hends _ rfl).2.2 rfl
  intro other rest rest' _ hrest hrest' hsame
  cases exponent with
  | none =>
      cases other with
      | none => exact ⟨rfl, hsame⟩
      | some other => exact absurd hsame (hmark hrest)
  | some exponent =>
      cases other with
      | none => exact absurd hsame.symm (hmark hrest')
      | some other =>
          simp only [exponentText, List.cons_append, List.cons.injEq, true_and] at hsame
          obtain ⟨hsign, hdigits⟩ := hsame
          obtain ⟨hnumber, hleft⟩ := digitsText_told (fun _ => decimalDigits_lt)
            (fun _ => decimalDigits_lt) hrest.digits hrest'.digits hdigits
          have hsize := decimalDigits_injective hnumber
          have hsigns : exponent < 0 ↔ other < 0 := by
            by_cases hleft : exponent < 0 <;> by_cases hright : other < 0 <;>
              simp only [hleft, hright, if_true, if_false] at hsign ⊢
            · cases hsign
            · cases hsign
          obtain rfl : exponent = other := by omega
          exact ⟨rfl, hleft⟩

/-- The digits of a layout are digits. -/
structure Layout.Proper (layout : Layout) : Prop where
  whole : ∀ digit ∈ layout.whole, digit < 10
  fraction : ∀ digit ∈ layout.fraction, digit < 10

theorem Layout.text_told {layout : Layout} (hproper : layout.Proper) :
    Told Layout.text NumberEnds Eq Layout.Proper layout := by
  intro other rest rest' hother hrest hrest' hsame
  obtain ⟨whole, fraction, exponent⟩ := layout
  obtain ⟨whole', fraction', exponent'⟩ := other
  simp only [Layout.text, List.append_assoc] at hsame
  obtain ⟨rfl, hpointed⟩ := digitsText_told hproper.whole hother.whole
    (fractionText_ends fraction exponent hrest) (fractionText_ends fraction' exponent' hrest') hsame
  have htail : fraction = fraction' ∧
      exponentText exponent ++ rest = exponentText exponent' ++ rest' := by
    cases fraction with
    | nil =>
        cases fraction' with
        | nil => exact ⟨rfl, hpointed⟩
        | cons digit digits =>
            refine absurd rfl ((exponentText_ends exponent hrest).2 (unitOf '.') ?_)
            simp only [fractionText, List.nil_append] at hpointed
            rw [hpointed]
            rfl
    | cons digit digits =>
        cases fraction' with
        | nil =>
            refine absurd rfl ((exponentText_ends exponent' hrest').2 (unitOf '.') ?_)
            simp only [fractionText, List.nil_append] at hpointed
            rw [← hpointed]
            rfl
        | cons digit' digits' =>
            exact digitsText_told hproper.fraction hother.fraction
              (exponentText_ends exponent hrest).1 (exponentText_ends exponent' hrest').1
              (List.cons.inj hpointed).2
  obtain ⟨rfl, hpowers⟩ := htail
  obtain ⟨rfl, hleft⟩ := exponentText_told exponent trivial hrest hrest' hpowers
  exact ⟨rfl, hleft⟩

namespace JsNumber

/-- The number without its sign. -/
def size : JsNumber → ℚ
  | .zero _ => 0
  | .nonzero _ significand point _ =>
      scaled significand (point - (decimalDigits significand).length)

theorem significand_ne_zero {significand : Nat} (h : significand % 10 ≠ 0) : significand ≠ 0 := by
  rintro rfl
  exact h rfl

theorem layout_proper (number : JsNumber) : number.layout.Proper := by
  have hzeros : ∀ (count : Nat), ∀ digit ∈ List.replicate count 0, digit < 10 := by
    intro count digit hdigit
    rw [(List.mem_replicate.mp hdigit).2]
    omega
  cases number with
  | zero negative => exact ⟨by simp [layout], by simp [layout]⟩
  | nonzero negative significand point hlast =>
      have hdigits := fun (digit : Nat) (h : digit ∈ decimalDigits significand) => decimalDigits_lt h
      unfold layout
      dsimp only
      split
      · split
        · refine ⟨fun digit hdigit => ?_, by simp⟩
          rcases List.mem_append.mp hdigit with hdigit | hzero
          · exact hdigits digit hdigit
          · exact hzeros _ digit hzero
        split
        · exact ⟨fun digit hdigit => hdigits digit (List.mem_of_mem_take hdigit),
            fun digit hdigit => hdigits digit (List.mem_of_mem_drop hdigit)⟩
        · refine ⟨by simp, fun digit hdigit => ?_⟩
          rcases List.mem_append.mp hdigit with hzero | hdigit
          · exact hzeros _ digit hzero
          · exact hdigits digit hdigit
      · exact ⟨fun digit hdigit => hdigits digit (List.mem_of_mem_take hdigit),
          fun digit hdigit => hdigits digit (List.mem_of_mem_drop hdigit)⟩

/-- Every layout is worth the number it is of. -/
theorem layout_worth (number : JsNumber) : number.layout.worth = number.size := by
  cases number with
  | zero negative => simp [layout, size, Layout.worth, readDecimal, scaled]
  | nonzero negative significand point hlast =>
      have hsome := decimalDigits_ne_nil (significand_ne_zero hlast)
      have hcount : 0 < (decimalDigits significand).length := List.length_pos_iff.mpr hsome
      unfold layout size
      dsimp only
      split
      · split
        · rw [Layout.worth_padded, readDecimal_decimalDigits]
          congr 1
          omega
        split
        · rw [Layout.worth_split, readDecimal_decimalDigits]
          congr 1
          simp only [Option.getD_none]
          omega
        · rw [Layout.worth_small, readDecimal_decimalDigits]
          congr 1
          omega
      · rw [Layout.worth_split, readDecimal_decimalDigits]
        congr 1
        simp only [Option.getD_some]
        omega

theorem layout_begins (number : JsNumber) :
    ∃ digit digits, number.layout.whole = digit :: digits ∧ digit < 10 := by
  have hproper := number.layout_proper.whole
  have hsome : number.layout.whole ≠ [] := by
    cases number with
    | zero negative => simp [layout]
    | nonzero negative significand point hlast =>
        have hdigits := decimalDigits_ne_nil (significand_ne_zero hlast)
        unfold layout
        dsimp only
        split
        · split
          · simp [hdigits]
          split
          · simp [hdigits]
            omega
          · simp
        · simp [hdigits]
  cases hwhole : number.layout.whole with
  | nil => exact absurd hwhole hsome
  | cons digit digits =>
      exact ⟨digit, digits, rfl, hproper digit (by rw [hwhole]; exact List.mem_cons_self)⟩

/-- A number begins with a digit or with the sign. -/
theorem text_begins (number : JsNumber) : ∃ head tail, number.text = head :: tail ∧
    (isDigitUnit head || head = unitOf '-') = true := by
  obtain ⟨digit, digits, hwhole, hdigit⟩ := number.layout_begins
  unfold text
  split
  · exact ⟨_, _, rfl, by simp⟩
  · refine ⟨digitUnit digit, digitsText digits ++ (fractionText number.layout.fraction ++
      exponentText number.layout.exponent), ?_, ?_⟩
    · unfold Layout.text
      rw [hwhole]
      rfl
    · rw [digitUnit_isDigit hdigit]
      rfl

/-- Numbers of one sign and one size are equal. -/
theorem equals_of_size {first second : JsNumber} (hsign : first.negative = second.negative)
    (hsize : first.size = second.size) : first.equals second := by
  have hnonzero : ∀ {significand : Nat} {power : Int}, significand % 10 ≠ 0 →
      scaled significand power ≠ 0 := by
    intro significand power hlast
    unfold scaled
    refine mul_ne_zero ?_ (zpow_ne_zero _ (by norm_num))
    exact_mod_cast significand_ne_zero hlast
  cases first with
  | zero negative =>
      cases second with
      | zero negative' => trivial
      | nonzero negative' significand' point' hlast' => exact absurd hsize.symm (hnonzero hlast')
  | nonzero negative significand point hlast =>
      cases second with
      | zero negative' => exact absurd hsize (hnonzero hlast)
      | nonzero negative' significand' point' hlast' =>
          obtain ⟨rfl, hpower⟩ := scaled_injective hlast hlast' hsize
          exact ⟨hsign, rfl, by omega⟩

/-- A number's text is told from what follows, and no other number has it. -/
theorem text_told (number : JsNumber) :
    Told text NumberEnds equals (fun _ => True) number := by
  have hbegins : ∀ (number : JsNumber) {rest tail : JsString},
      number.layout.text ++ rest ≠ unitOf '-' :: tail := by
    intro number rest tail hsame
    obtain ⟨digit, digits, hwhole, hdigit⟩ := number.layout_begins
    unfold Layout.text at hsame
    rw [hwhole] at hsame
    have hunit := digitUnit_isDigit hdigit
    rw [(List.cons.inj hsame).1] at hunit
    cases hunit
  intro other rest rest' _ hrest hrest' hsame
  have hlayouts : number.negative = other.negative ∧
      number.layout.text ++ rest = other.layout.text ++ rest' := by
    unfold text at hsame
    cases hsign : number.negative with
    | false =>
        cases hsign' : other.negative with
        | false => simpa [hsign, hsign'] using hsame
        | true =>
            simp only [hsign, hsign', if_true] at hsame
            exact absurd hsame (hbegins number)
    | true =>
        cases hsign' : other.negative with
        | false =>
            simp only [hsign, hsign', if_true] at hsame
            exact absurd hsame.symm (hbegins other)
        | true => simpa [hsign, hsign'] using hsame
  obtain ⟨hsign, htexts⟩ := hlayouts
  obtain ⟨hlayout, hleft⟩ := Layout.text_told number.layout_proper other.layout_proper hrest hrest'
    htexts
  refine ⟨equals_of_size hsign ?_, hleft⟩
  rw [← layout_worth, ← layout_worth, hlayout]

example : (nonzero true 125 (-6) (by decide)).text = units "-1.25e-7" := by decide

/-- Equal numbers have one text. -/
theorem text_congr {first second : JsNumber} (h : first.equals second) :
    first.text = second.text := by
  cases first with
  | zero negative =>
      cases second with
      | zero negative' => rfl
      | nonzero negative' significand' point' hlast' => cases h
  | nonzero negative significand point hlast =>
      cases second with
      | zero negative' => cases h
      | nonzero negative' significand' point' hlast' =>
          obtain ⟨rfl, rfl, rfl⟩ := h
          rfl

end JsNumber

/-! ### Strings are told -/

/-- What is escaped at once: a pair of surrogates, or one unit. -/
inductive Piece where
  | single (unit : CodeUnit)
  | pair (high low : CodeUnit) (hhigh : isHighSurrogate high = true)

namespace Piece

def units : Piece → JsString
  | .single unit => [unit]
  | .pair high low _ => [high, low]

def text : Piece → JsString
  | .single unit => escapedUnit unit
  | .pair high low _ => [high, low]

end Piece

/-- A text is empty, or a piece of it is written first. -/
theorem quotedUnits_cases (text : JsString) :
    text = [] ∨ ∃ (piece : Piece) (rest : JsString), text = piece.units ++ rest ∧
      quotedUnits text = piece.text ++ quotedUnits rest := by
  match text with
  | [] => exact .inl rfl
  | [unit] => exact .inr ⟨.single unit, [], rfl, (List.append_nil _).symm⟩
  | unit :: next :: rest =>
      by_cases hpair : (isHighSurrogate unit && isLowSurrogate next) = true
      · refine .inr ⟨.pair unit next (Bool.and_eq_true_iff.mp hpair).1, rest, rfl, ?_⟩
        rw [quotedUnits, if_pos hpair]
        rfl
      · refine .inr ⟨.single unit, next :: rest, rfl, ?_⟩
        rw [quotedUnits, if_neg hpair]
        rfl

theorem hexUnit_val {digit : Nat} (h : digit < 16) :
    (hexUnit digit).val = if digit < 10 then 48 + digit else 87 + digit := by
  rw [hexUnit, Fin.val_ofNat, Nat.mod_eq_of_lt]
  split <;> omega

theorem hexUnit_injective {first second : Nat} (hfirst : first < 16) (hsecond : second < 16)
    (h : hexUnit first = hexUnit second) : first = second := by
  have hvalue := congrArg Fin.val h
  rw [hexUnit_val hfirst, hexUnit_val hsecond] at hvalue
  split at hvalue <;> split at hvalue <;> omega

theorem unicodeEscape_injective {first second : CodeUnit} {rest rest' : JsString}
    (h : unicodeEscape first ++ rest = unicodeEscape second ++ rest') :
    first = second ∧ rest = rest' := by
  simp only [unicodeEscape, List.cons_append, List.nil_append, List.cons.injEq, true_and] at h
  obtain ⟨hfirst, hsecond, hthird, hfourth, hrest⟩ := h
  have hbound := first.isLt
  have hbound' := second.isLt
  have h1 := hexUnit_injective (by omega) (by omega) hfirst
  have h2 := hexUnit_injective (by omega) (by omega) hsecond
  have h3 := hexUnit_injective (by omega) (by omega) hthird
  have h4 := hexUnit_injective (by omega) (by omega) hfourth
  exact ⟨Fin.ext (by omega), hrest⟩

/-- How a unit that does not pair up is written: by a letter, by its number, or as it is. -/
theorem escapedUnit_cases (unit : CodeUnit) :
    (∃ letter, shortEscape unit = some letter ∧ escapedUnit unit = [unitOf '\\', letter]) ∨
      (shortEscape unit = none ∧ escapedUnit unit = unicodeEscape unit) ∨
      (escapedUnit unit = [unit] ∧ unit ≠ unitOf '"' ∧ unit ≠ unitOf '\\' ∧
        isHighSurrogate unit = false) := by
  unfold escapedUnit
  cases hshort : shortEscape unit with
  | some letter => exact .inl ⟨letter, rfl, rfl⟩
  | none =>
      refine .inr ?_
      dsimp only
      split
      · exact .inl ⟨rfl, rfl⟩
      · rename_i hplain
        simp only [isSurrogate, Bool.or_eq_true, not_or] at hplain
        refine .inr ⟨rfl, ?_, ?_, Bool.eq_false_iff.mpr hplain.2.1⟩
        · rintro rfl
          cases hshort
        · rintro rfl
          cases hshort

theorem shortEscape_cases {unit letter : CodeUnit} (h : shortEscape unit = some letter) :
    (unit.val, letter) ∈ [(8, unitOf 'b'), (9, unitOf 't'), (10, unitOf 'n'), (12, unitOf 'f'),
      (13, unitOf 'r'), (34, unitOf '"'), (92, unitOf '\\')] := by
  unfold shortEscape at h
  split_ifs at h with hunit hunit hunit hunit hunit hunit hunit <;>
    · rw [hunit, ← Option.some.inj h]
      decide

/-- A letter stands for one unit, and none is the letter of the escapes by number. -/
theorem shortEscape_injective {first second letter : CodeUnit}
    (hfirst : shortEscape first = some letter) (hsecond : shortEscape second = some letter) :
    first = second := by
  have hletters : ∀ entry ∈ [(8, unitOf 'b'), (9, unitOf 't'), (10, unitOf 'n'), (12, unitOf 'f'),
      (13, unitOf 'r'), (34, unitOf '"'), (92, unitOf '\\')],
      ∀ entry' ∈ [(8, unitOf 'b'), (9, unitOf 't'), (10, unitOf 'n'), (12, unitOf 'f'),
        (13, unitOf 'r'), (34, unitOf '"'), (92, unitOf '\\')],
      entry.2 = entry'.2 → entry.1 = entry'.1 := by decide
  exact Fin.ext (hletters _ (shortEscape_cases hfirst) _ (shortEscape_cases hsecond) rfl)

theorem shortEscape_ne_u {unit letter : CodeUnit} (h : shortEscape unit = some letter) :
    letter ≠ unitOf 'u' := by
  rintro rfl
  have hletters : ∀ entry ∈ [(8, unitOf 'b'), (9, unitOf 't'), (10, unitOf 'n'), (12, unitOf 'f'),
      (13, unitOf 'r'), (34, unitOf '"'), (92, unitOf '\\')], entry.2 ≠ unitOf 'u' := by decide
  exact hletters _ (shortEscape_cases h) rfl

/-- How a piece begins. -/
theorem piece_begins (piece : Piece) :
    ∃ head tail, piece.text = head :: tail ∧ head ≠ unitOf '"' := by
  cases piece with
  | pair high low hhigh =>
      refine ⟨high, [low], rfl, ?_⟩
      rintro rfl
      cases hhigh
  | single unit =>
      rcases escapedUnit_cases unit with ⟨letter, -, htext⟩ | ⟨-, htext⟩ | ⟨htext, hquote, -, -⟩
      · exact ⟨_, _, htext, by decide⟩
      · exact ⟨_, _, htext, by decide⟩
      · exact ⟨unit, [], htext, hquote⟩

/-- One unit is never taken for another. -/
theorem escapedUnit_injective {first second : CodeUnit} {rest rest' : JsString}
    (h : escapedUnit first ++ rest = escapedUnit second ++ rest') : first = second ∧ rest = rest' := by
  rcases escapedUnit_cases first with ⟨letter, hshort, htext⟩ | ⟨hlong, htext⟩ | ⟨htext, -, hslash, -⟩ <;>
    rcases escapedUnit_cases second with
      ⟨letter', hshort', htext'⟩ | ⟨hlong', htext'⟩ | ⟨htext', -, hslash', -⟩ <;>
    rw [htext, htext'] at h
  · obtain ⟨-, hrest⟩ := List.cons.inj h
    obtain ⟨rfl, hleft⟩ := List.cons.inj hrest
    exact ⟨shortEscape_injective hshort hshort', hleft⟩
  · obtain ⟨-, hrest⟩ := List.cons.inj h
    exact absurd (List.cons.inj hrest).1 (shortEscape_ne_u hshort)
  · exact absurd (List.cons.inj h).1.symm hslash'
  · obtain ⟨-, hrest⟩ := List.cons.inj h
    exact absurd (List.cons.inj hrest).1.symm (shortEscape_ne_u hshort')
  · exact unicodeEscape_injective h
  · exact absurd (List.cons.inj h).1.symm hslash'
  · exact absurd (List.cons.inj h).1 hslash
  · exact absurd (List.cons.inj h).1 hslash
  · exact List.cons.inj h

/-- A unit on its own does not begin as a pair does. -/
theorem escapedUnit_ne_pair {unit high : CodeUnit} {rest rest' : JsString}
    (hhigh : isHighSurrogate high = true) : escapedUnit unit ++ rest ≠ high :: rest' := by
  intro h
  rcases escapedUnit_cases unit with ⟨letter, -, htext⟩ | ⟨-, htext⟩ | ⟨htext, -, -, hplain⟩ <;>
    rw [htext] at h <;> rw [← (List.cons.inj h).1] at hhigh
  · cases hhigh
  · cases hhigh
  · rw [hplain] at hhigh
    cases hhigh

theorem piece_injective {first second : Piece} {rest rest' : JsString}
    (h : first.text ++ rest = second.text ++ rest') : first.units = second.units ∧ rest = rest' := by
  cases first with
  | single unit =>
      cases second with
      | single unit' =>
          obtain ⟨rfl, hleft⟩ := escapedUnit_injective h
          exact ⟨rfl, hleft⟩
      | pair high low hhigh => exact absurd h (escapedUnit_ne_pair hhigh)
  | pair high low hhigh =>
      cases second with
      | single unit' => exact absurd h.symm (escapedUnit_ne_pair hhigh)
      | pair high' low' hhigh' =>
          obtain ⟨rfl, hrest⟩ := List.cons.inj h
          obtain ⟨rfl, hleft⟩ := List.cons.inj hrest
          exact ⟨rfl, hleft⟩

/-- A quoted text is told at its closing quote, whatever follows. -/
theorem quotedUnits_told {text other rest rest' : JsString}
    (h : quotedUnits text ++ unitOf '"' :: rest = quotedUnits other ++ unitOf '"' :: rest') :
    text = other ∧ rest = rest' := by
  have hends : ∀ {piece : Piece} {later later' : JsString},
      piece.text ++ later ≠ unitOf '"' :: later' := by
    intro piece later later' hsame
    obtain ⟨head, tail, htext, hquote⟩ := piece_begins piece
    rw [htext] at hsame
    exact hquote (List.cons.inj hsame).1
  induction hlength : text.length using Nat.strongRecOn generalizing text other with
  | ind length ih =>
      rcases quotedUnits_cases text with rfl | ⟨piece, later, rfl, hpiece⟩
      · rcases quotedUnits_cases other with rfl | ⟨piece', later', rfl, hpiece'⟩
        · exact ⟨rfl, (List.cons.inj h).2⟩
        · rw [hpiece', List.append_assoc] at h
          exact absurd h.symm hends
      · rcases quotedUnits_cases other with rfl | ⟨piece', later', rfl, hpiece'⟩
        · rw [hpiece, List.append_assoc] at h
          exact absurd h hends
        · rw [hpiece, hpiece', List.append_assoc, List.append_assoc] at h
          obtain ⟨hunits, hrest⟩ := piece_injective h
          have hshorter : later.length < length := by
            rw [← hlength, List.length_append]
            cases piece <;> simp [Piece.units]
          obtain ⟨rfl, hleft⟩ := ih later.length hshorter hrest rfl
          exact ⟨by rw [hunits], hleft⟩

/-- A surrogate on its own is escaped by its number. -/
example : quotedText [Fin.ofNat 0x10000 0xD800, unitOf 'a'] = units "\"\\ud800a\"" := by decide

end WaslaCore.Data
