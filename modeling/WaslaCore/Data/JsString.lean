import Mathlib.Algebra.GroupWithZero.Nat
import Mathlib.Data.Fin.Basic
import Mathlib.Data.List.Infix
import WaslaCore.Data.CodeUnits

/-!
Texts as JavaScript keeps them: lists of UTF-16 code units, which need not pair up. A text
is searched, split and joined unit by unit.
-/

namespace WaslaCore.Data

abbrev CodeUnit := Fin 0x10000

instance instNeZeroCodeUnits : NeZero 0x10000 := ⟨by decide⟩

abbrev JsString := List CodeUnit

/-- The code units of a text. -/
def units (text : String) : JsString := (codeUnits text).map (Fin.ofNat 0x10000)

def unitOf (char : Char) : CodeUnit := Fin.ofNat 0x10000 char.toNat

def isHighSurrogate (unit : CodeUnit) : Bool := 0xD800 ≤ unit.val && unit.val < 0xDC00

def isLowSurrogate (unit : CodeUnit) : Bool := 0xDC00 ≤ unit.val && unit.val < 0xE000

/-- The characters of the units, as an encoder writes them: a surrogate without its other half
becomes the replacement character. -/
def decode : JsString → List Char
  | [] => []
  | [unit] => [Char.ofNat (if isHighSurrogate unit || isLowSurrogate unit then 0xFFFD else unit.val)]
  | unit :: next :: rest =>
      if isHighSurrogate unit && isLowSurrogate next then
        Char.ofNat (0x10000 + (unit.val - 0xD800) * 0x400 + (next.val - 0xDC00)) :: decode rest
      else
        Char.ofNat (if isHighSurrogate unit || isLowSurrogate unit then 0xFFFD else unit.val) ::
          decode (next :: rest)

def textOf (text : JsString) : String := String.ofList (decode text)

/-- White space as `\s` has it. -/
def isSpace (unit : CodeUnit) : Bool :=
  (9 ≤ unit.val && unit.val ≤ 13) || unit.val = 0x20 || unit.val = 0xA0 || unit.val = 0x1680 ||
    (0x2000 ≤ unit.val && unit.val ≤ 0x200A) || unit.val = 0x2028 || unit.val = 0x2029 ||
    unit.val = 0x202F || unit.val = 0x205F || unit.val = 0x3000 || unit.val = 0xFEFF

/-- A unit without regard to case. Only Latin capitals fold into a pattern's letters. -/
def foldCase (unit : CodeUnit) : CodeUnit :=
  if 65 ≤ unit.val && unit.val ≤ 90 then Fin.ofNat 0x10000 (unit.val + 32) else unit

/-! ### Patterns -/

/-- How many units of the text a pattern takes, if it matches there. -/
abbrev Pattern := JsString → Option Nat

namespace Pattern

/-- A word in small letters, without regard to case. -/
def word (letters : JsString) : Pattern := fun text =>
  if letters.isPrefixOf (text.map foldCase) then some letters.length else none

/-- As long a run as there is of units that pass, and at least so many of them. Where what
follows begins with no such unit, a shorter run leads nowhere. -/
def run (atLeast : Nat) (passes : CodeUnit → Bool) : Pattern := fun text =>
  let length := (text.takeWhile passes).length
  if atLeast ≤ length then some length else none

/-- One unit that passes. -/
def unit (passes : CodeUnit → Bool) : Pattern := fun text =>
  if text.head?.any passes then some 1 else none

/-- One pattern and then another. -/
def andThen (first second : Pattern) : Pattern := fun text => do
  let length ← first text
  let rest ← second (text.drop length)
  some (length + rest)

/-- The first of the patterns that matches. -/
def oneOf (patterns : List Pattern) : Pattern := fun text =>
  patterns.findSome? (fun pattern => pattern text)

end Pattern

/-- Every match rewritten, from left to right; `skipped` units of one are still to come. -/
def replaceEach (pattern : Pattern) (rewrite : JsString → JsString) : Nat → JsString → JsString
  | _, [] => []
  | skipped + 1, _ :: rest => replaceEach pattern rewrite skipped rest
  | 0, unit :: rest =>
      match pattern (unit :: rest) with
      | some (length + 1) =>
          rewrite ((unit :: rest).take (length + 1)) ++ replaceEach pattern rewrite length rest
      | _ => unit :: replaceEach pattern rewrite 0 rest

def replaceAll (pattern : Pattern) (rewrite : JsString → JsString) (text : JsString) : JsString :=
  replaceEach pattern rewrite 0 text

/-! ### Splitting and joining -/

/-- `split` with the rest of a separator still to be skipped. -/
def splitAfter (separator : JsString) : Nat → JsString → List JsString
  | _, [] => [[]]
  | skipped + 1, _ :: rest => splitAfter separator skipped rest
  | 0, unit :: rest =>
      if separator.isPrefixOf (unit :: rest) then
        [] :: splitAfter separator (separator.length - 1) rest
      else
        match splitAfter separator 0 rest with
        | [] => [[unit]]
        | piece :: pieces => (unit :: piece) :: pieces

/-- The pieces of a text between the occurrences of a separator that is not empty. -/
def split (separator text : JsString) : List JsString := splitAfter separator 0 text

def join (separator : JsString) (pieces : List JsString) : JsString := separator.intercalate pieces

/-! ### What a text contains -/

section Occurrences

variable {needle first second : JsString} {mark : CodeUnit}

theorem prefix_before_mark (hmark : mark ∉ needle) (h : needle <+: first ++ mark :: second) :
    needle <+: first := by
  induction first generalizing needle with
  | nil =>
      cases needle with
      | nil => exact ⟨_, rfl⟩
      | cons unit rest =>
          obtain ⟨rfl, -⟩ := List.cons_prefix_cons.mp h
          exact absurd List.mem_cons_self hmark
  | cons unit rest ih =>
      cases needle with
      | nil => exact ⟨_, rfl⟩
      | cons unit' rest' =>
          obtain ⟨rfl, hrest⟩ := List.cons_prefix_cons.mp h
          apply List.cons_prefix_cons.mpr
          exact ⟨rfl, ih (fun hmember => hmark (List.mem_cons_of_mem _ hmember)) hrest⟩

/-- What does not have the mark lies before it or behind it. -/
theorem infix_beside_mark (hmark : mark ∉ needle) (h : needle <:+: first ++ mark :: second) :
    needle <:+: first ∨ needle <:+: second := by
  induction first with
  | nil =>
      rcases List.infix_cons_iff.mp h with hstart | hlater
      · have hnone : needle <+: [] := prefix_before_mark hmark hstart
        exact .inl hnone.isInfix
      · exact .inr hlater
  | cons unit rest ih =>
      rcases List.infix_cons_iff.mp h with hstart | hlater
      · have hfirst : needle <+: unit :: rest := prefix_before_mark hmark hstart
        exact .inl hfirst.isInfix
      · rcases ih hlater with hrest | hsecond
        · exact .inl (hrest.trans (List.suffix_cons unit rest).isInfix)
        · exact .inr hsecond

/-- The first piece begins the text. -/
theorem splitAfter_begins (separator text : JsString) :
    ∃ piece pieces, splitAfter separator 0 text = piece :: pieces ∧ piece <+: text := by
  induction text with
  | nil => exact ⟨[], [], rfl, ⟨_, rfl⟩⟩
  | cons unit rest ih =>
      unfold splitAfter
      split
      · exact ⟨[], _, rfl, ⟨_, rfl⟩⟩
      · obtain ⟨piece, pieces, hpieces, hbegins⟩ := ih
        rw [hpieces]
        exact ⟨unit :: piece, pieces, rfl, List.cons_prefix_cons.mpr ⟨rfl, hbegins⟩⟩

/-- No piece has the separator in it. -/
theorem splitAfter_free {separator : JsString} (hsome : separator ≠ []) (text : JsString) :
    ∀ skipped, ∀ piece ∈ splitAfter separator skipped text, ¬separator <:+: piece := by
  have hempty : ¬separator <:+: [] := fun h => hsome (List.infix_nil.mp h)
  induction text with
  | nil =>
      intro skipped piece hpiece
      have hsame : piece = [] := by
        cases skipped <;> exact List.mem_singleton.mp hpiece
      rwa [hsame]
  | cons unit rest ih =>
      intro skipped piece hpiece
      cases skipped with
      | succ skipped => exact ih skipped piece hpiece
      | zero =>
          unfold splitAfter at hpiece
          split at hpiece
          · rcases List.mem_cons.mp hpiece with rfl | hlater
            · exact hempty
            · exact ih _ piece hlater
          · rename_i hhere
            obtain ⟨front, pieces, hpieces, hbegins⟩ := splitAfter_begins separator rest
            rw [hpieces] at hpiece
            rcases List.mem_cons.mp hpiece with rfl | hlater
            · intro hfound
              rcases List.infix_cons_iff.mp hfound with hstart | hfront
              · apply hhere
                have hthere := hstart.trans (List.cons_prefix_cons.mpr ⟨rfl, hbegins⟩)
                simpa using hthere
              · exact ih 0 front (by rw [hpieces]; exact List.mem_cons_self) hfront
            · exact ih 0 piece (by rw [hpieces]; exact List.mem_cons_of_mem _ hlater)

end Occurrences

end WaslaCore.Data
