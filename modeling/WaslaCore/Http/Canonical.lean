import Mathlib.Data.String.Basic
import WaslaCore.Data.Selection
import WaslaCore.Http.Json

/-!
What the canonical text of a body tells of it. Two bodies have one text where they are the
same value up to the order their objects' entries were written in, and nowhere else: the
text of a value never runs into what follows it. A number that is not finite has no text of
its own.
-/

namespace WaslaCore.Http

open Platform Data

/-! ### Values up to the order of their entries -/

mutual

/-- The value with the entries of every object in the order of their names. -/
def Json.normal : Json → Json
  | .null => .null
  | .flag value => .flag value
  | .number literal => .number literal
  | .text value => .text value
  | .array items => .array (normalItems items)
  | .object entries =>
      .object (orderedBy (fun entry => [SortKey.text entry.1]) (normalEntries entries))

def Json.normalItems : List Json → List Json
  | [] => []
  | item :: rest => item.normal :: Json.normalItems rest

def Json.normalEntries : List (String × Json) → List (String × Json)
  | [] => []
  | (name, item) :: rest => (name, item.normal) :: Json.normalEntries rest

end

/-- The characters of the text of a finite number. -/
def isNumberChar (char : Char) : Bool :=
  char.isDigit || char = '-' || char = '+' || char = '.' || char = 'e'

mutual

/-- Every number in the value is a finite one. -/
def Json.finite : Json → Bool
  | .number literal => !literal.toList.isEmpty && literal.toList.all isNumberChar
  | .array items => finiteItems items
  | .object entries => finiteEntries entries
  | _ => true

def Json.finiteItems : List Json → Bool
  | [] => true
  | item :: rest => item.finite && Json.finiteItems rest

def Json.finiteEntries : List (String × Json) → Bool
  | [] => true
  | (_, item) :: rest => item.finite && Json.finiteEntries rest

end

theorem Json.normalEntries_eq (entries : List (String × Json)) :
    normalEntries entries = entries.map (fun entry => (entry.1, entry.2.normal)) := by
  induction entries with
  | nil => rfl
  | cons entry rest ih => simp [normalEntries, ih]

theorem Json.finiteEntries_iff {entries : List (String × Json)} :
    finiteEntries entries = true ↔ ∀ entry ∈ entries, entry.2.finite = true := by
  induction entries with
  | nil => simp [finiteEntries]
  | cons entry rest ih => simp [finiteEntries, ih]

mutual

/-- Ordering the entries changes no number. -/
theorem Json.finite_normal : ∀ {value : Json}, value.finite = true → value.normal.finite = true
  | .null, h => h
  | .flag _, h => h
  | .number _, h => h
  | .text _, h => h
  | .array items, h => by
      unfold Json.normal Json.finite
      exact Json.finiteItems_normal h
  | .object entries, h => by
      unfold Json.normal Json.finite
      apply Json.finiteEntries_iff.mpr
      intro entry hentry
      exact Json.finiteEntries_iff.mp (Json.finiteEntries_normal h) entry
        (mem_orderedBy.mp hentry)

theorem Json.finiteItems_normal :
    ∀ {items : List Json}, Json.finiteItems items = true →
      Json.finiteItems (Json.normalItems items) = true
  | [], h => h
  | item :: rest, h => by
      unfold Json.finiteItems at h
      obtain ⟨hfirst, hrest⟩ := Bool.and_eq_true_iff.mp h
      unfold Json.normalItems Json.finiteItems
      exact Bool.and_eq_true_iff.mpr ⟨Json.finite_normal hfirst, Json.finiteItems_normal hrest⟩

theorem Json.finiteEntries_normal :
    ∀ {entries : List (String × Json)}, Json.finiteEntries entries = true →
      Json.finiteEntries (Json.normalEntries entries) = true
  | [], h => h
  | (name, item) :: rest, h => by
      unfold Json.finiteEntries at h
      obtain ⟨hfirst, hrest⟩ := Bool.and_eq_true_iff.mp h
      unfold Json.normalEntries Json.finiteEntries
      exact Bool.and_eq_true_iff.mpr ⟨Json.finite_normal hfirst, Json.finiteEntries_normal hrest⟩

end

/-! ### Texts as characters -/

/-- What stands between the quotes, and the quote that ends it. -/
def quotedTail (chars : List Char) : List Char :=
  chars.flatMap (fun char => (escaped char).toList) ++ ['"']

mutual

/-- The characters of a value's text, its entries in the order they are in. -/
def Json.chars : Json → List Char
  | .null => ['n', 'u', 'l', 'l']
  | .flag true => ['t', 'r', 'u', 'e']
  | .flag false => ['f', 'a', 'l', 's', 'e']
  | .number literal => literal.toList
  | .text value => '"' :: quotedTail value.toList
  | .array [] => ['[', ']']
  | .array (item :: rest) => '[' :: (item.chars ++ closedItems rest)
  | .object [] => ['\x7b', '\x7d']
  | .object ((name, item) :: rest) =>
      '\x7b' :: '"' :: (quotedTail name.toList ++ ':' :: (item.chars ++ closedEntries rest))

/-- The items that follow the first, and the bracket. -/
def Json.closedItems : List Json → List Char
  | [] => [']']
  | item :: rest => ',' :: (item.chars ++ Json.closedItems rest)

def Json.closedEntries : List (String × Json) → List Char
  | [] => ['\x7d']
  | (name, item) :: rest =>
      ',' :: '"' :: (quotedTail name.toList ++ ':' :: (item.chars ++ Json.closedEntries rest))

end

theorem quoted_toList (value : String) : (quoted value).toList = '"' :: quotedTail value.toList := by
  unfold quoted quotedTail
  simp [String.toList_append, String.toList_join, List.flatMap_map]

theorem Json.canonicalEntries_eq (entries : List (String × Json)) :
    canonicalEntries entries = entries.map (fun entry => (entry.1, canonicalJson entry.2)) := by
  induction entries with
  | nil => rfl
  | cons entry rest ih => simp [canonicalEntries, ih]

/-- Entries are put in order by their names alone. -/
theorem orderedBy_map_entries {α β : Type} (f : α → β) (entries : List (String × α)) :
    orderedBy (fun entry => [SortKey.text entry.1]) (entries.map (fun entry => (entry.1, f entry.2))) =
      (orderedBy (fun entry => [SortKey.text entry.1]) entries).map
        (fun entry => (entry.1, f entry.2)) := by
  apply Eq.symm
  apply List.map_insertionSort
  intro first _ second _
  exact Iff.rfl

theorem Json.array_chars (items : List Json) :
    (Json.array items).chars = '[' :: ([','].intercalate (items.map Json.chars) ++ [']']) := by
  have htail : ∀ (item : Json) (rest : List Json), item.chars ++ Json.closedItems rest =
      [','].intercalate ((item :: rest).map Json.chars) ++ [']'] := by
    intro item rest
    induction rest generalizing item with
    | nil => simp [Json.closedItems, List.intercalate]
    | cons next rest ih =>
        simp only [Json.closedItems, ih next, List.map_cons, List.intercalate_cons_cons]
        simp
  cases items with
  | nil => simp [Json.chars, List.intercalate]
  | cons item rest => rw [Json.chars, htail]

def entryChars (entry : String × Json) : List Char :=
  '"' :: (quotedTail entry.1.toList ++ ':' :: entry.2.chars)

theorem Json.object_chars (entries : List (String × Json)) :
    (Json.object entries).chars =
      '\x7b' :: ([','].intercalate (entries.map entryChars) ++ ['\x7d']) := by
  have htail : ∀ (entry : String × Json) (rest : List (String × Json)),
      entryChars entry ++ Json.closedEntries rest =
        [','].intercalate ((entry :: rest).map entryChars) ++ ['\x7d'] := by
    intro entry rest
    induction rest generalizing entry with
    | nil => simp [Json.closedEntries, List.intercalate]
    | cons next rest ih =>
        have hrest : Json.closedEntries (next :: rest) =
            ',' :: (entryChars next ++ Json.closedEntries rest) := by
          simp [Json.closedEntries, entryChars]
        simp only [hrest, ih next, List.map_cons, List.intercalate_cons_cons]
        simp
  cases entries with
  | nil => simp [Json.chars, List.intercalate]
  | cons entry rest =>
      have hrest := htail entry rest
      simp only [entryChars, List.cons_append, List.append_assoc] at hrest
      simp [Json.chars, entryChars, hrest]

mutual

/-- The canonical text of a value is the text of its normal form. -/
theorem Json.canonical_chars : ∀ value : Json, (canonicalJson value).toList = value.normal.chars
  | .null => by simp [canonicalJson, Json.normal, Json.chars]
  | .flag true => by simp [canonicalJson, Json.normal, Json.chars]
  | .flag false => by simp [canonicalJson, Json.normal, Json.chars]
  | .number literal => by simp [canonicalJson, Json.normal, Json.chars]
  | .text value => by simp [canonicalJson, Json.normal, Json.chars, quoted_toList]
  | .array items => by
      rw [Json.normal, Json.array_chars, ← Json.canonicalItems_chars items]
      simp [canonicalJson, String.toList_append, String.toList_intercalate]
  | .object entries => by
      rw [Json.normal, Json.object_chars, canonicalJson, objectText, Json.canonicalEntries_eq,
        Json.normalEntries_eq, orderedBy_map_entries, orderedBy_map_entries]
      have hentries : (orderedBy (fun entry => [SortKey.text entry.1]) entries).map (String.toList ∘
            (fun entry => quoted entry.1 ++ ":" ++ entry.2) ∘
              fun entry => (entry.1, canonicalJson entry.2)) =
          (orderedBy (fun entry => [SortKey.text entry.1]) entries).map
            (entryChars ∘ fun entry => (entry.1, entry.2.normal)) := by
        apply List.map_congr_left
        intro entry hentry
        have hitem := Json.canonicalEntries_chars entries entry (mem_orderedBy.mp hentry)
        simp [entryChars, quoted_toList, String.toList_append, hitem]
      simp only [String.toList_append, String.toList_intercalate, List.map_map, hentries]
      simp

theorem Json.canonicalItems_chars : ∀ items : List Json,
    (canonicalItems items).map String.toList = (Json.normalItems items).map Json.chars
  | [] => rfl
  | item :: rest => by
      simp [canonicalItems, Json.normalItems, Json.canonical_chars item,
        Json.canonicalItems_chars rest]

theorem Json.canonicalEntries_chars : ∀ (entries : List (String × Json)), ∀ entry ∈ entries,
    (canonicalJson entry.2).toList = entry.2.normal.chars
  | [], entry, h => by cases h
  | (name, item) :: rest, entry, h => by
      rcases List.mem_cons.mp h with rfl | hrest
      · exact Json.canonical_chars item
      · exact Json.canonicalEntries_chars rest entry hrest

end

/-! ### Reading a text back -/

/-- What may follow a value. -/
def Stops (rest : List Char) : Prop :=
  ∀ char ∈ rest.head?, char = ',' ∨ char = ']' ∨ char = '\x7d'

/-- The codes `JSON.stringify` escapes. -/
def isSpecial (code : Nat) : Bool := code < 32 || code = 34 || code = 92

theorem escaped_plain {char : Char} (h : isSpecial char.toNat = false) :
    (escaped char).toList = [char] := by
  simp only [isSpecial, Bool.or_eq_false_iff, decide_eq_false_iff_not] at h
  obtain ⟨⟨hlow, hquote⟩, hslash⟩ := h
  have hcodes : char.toNat ≠ 8 ∧ char.toNat ≠ 12 ∧ char.toNat ≠ 10 ∧ char.toNat ≠ 13 ∧
      char.toNat ≠ 9 := by omega
  simp [escaped, hquote, hslash, hlow, hcodes]

/-- No escape begins another one. -/
theorem escapes_apart : ((List.range 93).filter isSpecial).all (fun code =>
    ((List.range 93).filter isSpecial).all (fun code' => code = code' ||
      !(escaped (Char.ofNat code)).toList.isPrefixOf (escaped (Char.ofNat code')).toList)) = true := by
  decide +kernel

theorem escapes_head : ((List.range 93).filter isSpecial).all (fun code =>
    (escaped (Char.ofNat code)).toList.head? = some '\\') = true := by
  decide +kernel

theorem mem_specials {char : Char} (h : isSpecial char.toNat = true) :
    char.toNat ∈ (List.range 93).filter isSpecial := by
  apply List.mem_filter.mpr
  refine ⟨List.mem_range.mpr ?_, h⟩
  simp only [isSpecial, Bool.or_eq_true, decide_eq_true_eq] at h
  omega

theorem escaped_special {char : Char} (h : isSpecial char.toNat = true) :
    ∃ tail, (escaped char).toList = '\\' :: tail := by
  have hhead := of_decide_eq_true (List.all_eq_true.mp escapes_head _ (mem_specials h))
  rw [Char.ofNat_toNat] at hhead
  exact List.head?_eq_some_iff.mp hhead

theorem escaped_head (char : Char) :
    ∃ head tail, (escaped char).toList = head :: tail ∧ head ≠ '"' := by
  cases hspecial : isSpecial char.toNat with
  | false =>
      refine ⟨char, [], escaped_plain hspecial, ?_⟩
      rintro rfl
      cases hspecial
  | true =>
      obtain ⟨tail, htail⟩ := escaped_special hspecial
      exact ⟨'\\', tail, htail, by decide⟩

/-- A character is never taken for another one's escape. -/
theorem escaped_inj {first second : Char} {rest rest' : List Char}
    (h : (escaped first).toList ++ rest = (escaped second).toList ++ rest') :
    first = second ∧ rest = rest' := by
  have hmixed : ∀ {plain special : Char} {later later' : List Char},
      isSpecial plain.toNat = false → isSpecial special.toNat = true →
      (escaped plain).toList ++ later ≠ (escaped special).toList ++ later' := by
    intro plain special later later' hplain hspecial hsame
    obtain ⟨tail, htail⟩ := escaped_special hspecial
    rw [escaped_plain hplain, htail] at hsame
    obtain ⟨rfl, -⟩ := List.cons.inj hsame
    cases hplain
  have hsame : first = second := by
    cases hfirst : isSpecial first.toNat with
    | false =>
        cases hsecond : isSpecial second.toNat with
        | false =>
            rw [escaped_plain hfirst, escaped_plain hsecond] at h
            exact (List.cons.inj h).1
        | true => exact absurd h (hmixed hfirst hsecond)
    | true =>
        cases hsecond : isSpecial second.toNat with
        | false => exact absurd h.symm (hmixed hsecond hfirst)
        | true =>
            have hapart : ∀ {one other : Char}, isSpecial one.toNat = true →
                isSpecial other.toNat = true →
                (escaped one).toList <+: (escaped other).toList → one = other := by
              intro one other hone hother hbegins
              have hall := List.all_eq_true.mp
                (List.all_eq_true.mp escapes_apart _ (mem_specials hone)) _ (mem_specials hother)
              rw [Char.ofNat_toNat, Char.ofNat_toNat, List.isPrefixOf_iff_prefix.mpr hbegins] at hall
              simpa [Char.toNat_inj] using hall
            rcases List.append_eq_append_iff.mp h with ⟨between, hlater, -⟩ | ⟨between, hlater, -⟩
            · exact hapart hfirst hsecond ⟨between, hlater.symm⟩
            · exact (hapart hsecond hfirst ⟨between, hlater.symm⟩).symm
  subst hsame
  exact ⟨rfl, List.append_cancel_left h⟩

/-- A quoted text ends at its closing quote. -/
theorem quotedTail_inj {chars chars' rest rest' : List Char}
    (h : quotedTail chars ++ rest = quotedTail chars' ++ rest') : chars = chars' ∧ rest = rest' := by
  induction chars generalizing chars' with
  | nil =>
      cases chars' with
      | nil => simpa [quotedTail] using h
      | cons char chars' =>
          obtain ⟨head, tail, hhead, hquote⟩ := escaped_head char
          simp [quotedTail, hhead] at h
          exact absurd h.1.symm hquote
  | cons char chars ih =>
      cases chars' with
      | nil =>
          obtain ⟨head, tail, hhead, hquote⟩ := escaped_head char
          simp [quotedTail, hhead] at h
          exact absurd h.1 hquote
      | cons char' chars' =>
          simp only [quotedTail, List.flatMap_cons, List.append_assoc] at h
          obtain ⟨rfl, hrest⟩ := escaped_inj h
          obtain ⟨rfl, rfl⟩ := ih (by simpa [quotedTail] using hrest)
          exact ⟨rfl, rfl⟩

/-- A number ends where what may follow it starts. -/
theorem number_inj {digits digits' rest rest' : List Char} (h : digits ++ rest = digits' ++ rest')
    (hdigits : digits.all isNumberChar = true) (hdigits' : digits'.all isNumberChar = true)
    (hrest : Stops rest) (hrest' : Stops rest') : digits = digits' ∧ rest = rest' := by
  have hstop : ∀ char later, isNumberChar char = true → ¬Stops (char :: later) := by
    intro char later hchar hstops
    rcases hstops char (by simp) with rfl | rfl | rfl <;> revert hchar <;> decide
  induction digits generalizing digits' with
  | nil =>
      cases digits' with
      | nil => exact ⟨rfl, h⟩
      | cons digit digits' =>
          have hdigit := (List.all_cons ▸ hdigits' : (isNumberChar digit && _) = true)
          rw [List.nil_append] at h
          rw [h] at hrest
          exact absurd hrest (hstop digit _ (Bool.and_eq_true_iff.mp hdigit).1)
  | cons digit digits ih =>
      have hdigit := (List.all_cons ▸ hdigits : (isNumberChar digit && _) = true)
      cases digits' with
      | nil =>
          rw [List.nil_append] at h
          rw [← h] at hrest'
          exact absurd hrest' (hstop digit _ (Bool.and_eq_true_iff.mp hdigit).1)
      | cons digit' digits' =>
          have hdigit' := (List.all_cons ▸ hdigits' : (isNumberChar digit' && _) = true)
          obtain ⟨rfl, hlater⟩ := List.cons.inj h
          obtain ⟨rfl, rfl⟩ := ih hlater (Bool.and_eq_true_iff.mp hdigit).2
            (Bool.and_eq_true_iff.mp hdigit').2
          exact ⟨rfl, rfl⟩

/-- The kinds of value, as their first characters tell them. -/
inductive JsonKind where
  | null
  | flag
  | number
  | text
  | array
  | object
  deriving DecidableEq

def Json.kind : Json → JsonKind
  | .null => .null
  | .flag _ => .flag
  | .number _ => .number
  | .text _ => .text
  | .array _ => .array
  | .object _ => .object

def kindOfHead (head : Char) : JsonKind :=
  if head = 'n' then .null
  else if head = 't' ∨ head = 'f' then .flag
  else if head = '"' then .text
  else if head = '[' then .array
  else if head = '\x7b' then .object
  else .number

theorem kindOfHead_number {char : Char} (h : isNumberChar char = true) :
    kindOfHead char = .number := by
  have hother : char ≠ 'n' ∧ char ≠ 't' ∧ char ≠ 'f' ∧ char ≠ '"' ∧ char ≠ '[' ∧ char ≠ '\x7b' := by
    refine ⟨?_, ?_, ?_, ?_, ?_, ?_⟩ <;> (rintro rfl; revert h; decide)
  obtain ⟨hn, ht, hf, hquote, hbracket, hbrace⟩ := hother
  simp [kindOfHead, hn, ht, hf, hquote, hbracket, hbrace]

/-- A text tells the kind of its value, and nothing that may follow a value begins one. -/
theorem Json.chars_head {value : Json} (h : value.finite = true) :
    ∃ head tail, value.chars = head :: tail ∧ kindOfHead head = value.kind ∧ head ≠ ']' := by
  cases value with
  | null => exact ⟨'n', _, rfl, by decide, by decide⟩
  | flag value =>
      cases value with
      | true => exact ⟨'t', _, rfl, by decide, by decide⟩
      | false => exact ⟨'f', _, rfl, by decide, by decide⟩
  | number literal =>
      simp only [Json.finite, Bool.and_eq_true, Bool.not_eq_true'] at h
      cases hdigits : literal.toList with
      | nil => simp [hdigits] at h
      | cons head tail =>
          simp only [hdigits, List.all_cons, Bool.and_eq_true] at h
          refine ⟨head, tail, by simp [Json.chars, hdigits], kindOfHead_number h.2.1, ?_⟩
          rintro rfl
          exact absurd h.2.1 (by decide)
  | text value => exact ⟨'"', _, rfl, rfl, by decide⟩
  | array items =>
      cases items with
      | nil => exact ⟨'[', _, by rw [Json.chars], rfl, by decide⟩
      | cons item rest => exact ⟨'[', _, by rw [Json.chars], rfl, by decide⟩
  | object entries =>
      cases entries with
      | nil => exact ⟨'\x7b', _, by rw [Json.chars], rfl, by decide⟩
      | cons entry rest => exact ⟨'\x7b', _, by rw [Json.chars], rfl, by decide⟩

theorem stops_items (items : List Json) (rest : List Char) :
    Stops (Json.closedItems items ++ rest) := by
  cases items <;> simp [Stops, Json.closedItems]

theorem stops_entries (entries : List (String × Json)) (rest : List Char) :
    Stops (Json.closedEntries entries ++ rest) := by
  cases entries <;> simp [Stops, Json.closedEntries]

theorem Json.kind_eq {value value' : Json} {rest rest' : List Char} (h : value.finite = true)
    (h' : value'.finite = true) (hsame : value.chars ++ rest = value'.chars ++ rest') :
    value.kind = value'.kind := by
  obtain ⟨head, tail, hchars, hkind, -⟩ := Json.chars_head h
  obtain ⟨head', tail', hchars', hkind', -⟩ := Json.chars_head h'
  rw [hchars, hchars'] at hsame
  obtain ⟨rfl, -⟩ := List.cons.inj hsame
  exact hkind.symm.trans hkind'

theorem finiteItems_cons {item : Json} {rest : List Json}
    (h : Json.finiteItems (item :: rest) = true) :
    item.finite = true ∧ Json.finiteItems rest = true := by
  unfold Json.finiteItems at h
  exact Bool.and_eq_true_iff.mp h

theorem finiteEntries_cons {entry : String × Json} {rest : List (String × Json)}
    (h : Json.finiteEntries (entry :: rest) = true) :
    entry.2.finite = true ∧ Json.finiteEntries rest = true := by
  unfold Json.finiteEntries at h
  exact Bool.and_eq_true_iff.mp h

mutual

/-- A text stands for one value, whatever may follow it. -/
theorem Json.chars_inj : ∀ (value value' : Json) {rest rest' : List Char},
    value.finite = true → value'.finite = true → Stops rest → Stops rest' →
      value.chars ++ rest = value'.chars ++ rest' → value = value' ∧ rest = rest'
  | .null, value', rest, rest', h, h', hrest, hrest', hsame => by
      have hkind := Json.kind_eq h h' hsame
      cases value' <;> simp [Json.kind] at hkind
      exact ⟨rfl, List.append_cancel_left hsame⟩
  | .flag value, value', rest, rest', h, h', hrest, hrest', hsame => by
      have hkind := Json.kind_eq h h' hsame
      cases value' with
      | flag value' =>
          cases value <;> cases value' <;> simp [Json.chars] at hsame <;> exact ⟨rfl, hsame⟩
      | _ => cases hkind
  | .number literal, value', rest, rest', h, h', hrest, hrest', hsame => by
      have hkind := Json.kind_eq h h' hsame
      cases value' with
      | number literal' =>
          simp only [Json.finite, Bool.and_eq_true] at h h'
          obtain ⟨hliteral, hlater⟩ := number_inj hsame h.2 h'.2 hrest hrest'
          exact ⟨by rw [String.toList_inj.mp hliteral], hlater⟩
      | _ => cases hkind
  | .text word, value', rest, rest', h, h', hrest, hrest', hsame => by
      have hkind := Json.kind_eq h h' hsame
      cases value' with
      | text word' =>
          simp only [Json.chars, List.cons_append] at hsame
          obtain ⟨hword, hlater⟩ := quotedTail_inj (List.cons.inj hsame).2
          exact ⟨by rw [String.toList_inj.mp hword], hlater⟩
      | _ => cases hkind
  | .array items, value', rest, rest', h, h', hrest, hrest', hsame => by
      have hkind := Json.kind_eq h h' hsame
      cases value' with
      | array items' =>
          cases items with
          | nil =>
              cases items' with
              | nil => exact ⟨rfl, List.append_cancel_left hsame⟩
              | cons item' later' =>
                  obtain ⟨head, tail, hchars, -, hhead⟩ := Json.chars_head (finiteItems_cons h').1
                  simp [Json.chars, hchars] at hsame
                  exact absurd hsame.1.symm hhead
          | cons item later =>
              obtain ⟨hitem, hlater⟩ := finiteItems_cons h
              cases items' with
              | nil =>
                  obtain ⟨head, tail, hchars, -, hhead⟩ := Json.chars_head hitem
                  simp [Json.chars, hchars] at hsame
                  exact absurd hsame.1 hhead
              | cons item' later' =>
                  obtain ⟨hitem', hlater'⟩ := finiteItems_cons h'
                  simp only [Json.chars, List.cons_append, List.append_assoc, List.cons.injEq,
                    true_and] at hsame
                  obtain ⟨rfl, hclosed⟩ := Json.chars_inj item item' hitem hitem'
                    (stops_items later rest) (stops_items later' rest') hsame
                  obtain ⟨rfl, rfl⟩ := Json.closedItems_inj later later' hlater hlater' hclosed
                  exact ⟨rfl, rfl⟩
      | _ => cases hkind
  | .object entries, value', rest, rest', h, h', hrest, hrest', hsame => by
      have hkind := Json.kind_eq h h' hsame
      cases value' with
      | object entries' =>
          cases entries with
          | nil =>
              cases entries' with
              | nil => exact ⟨rfl, List.append_cancel_left hsame⟩
              | cons entry' later' => simp [Json.chars] at hsame
          | cons entry later =>
              cases entries' with
              | nil => simp [Json.chars] at hsame
              | cons entry' later' =>
                  obtain ⟨name, item⟩ := entry
                  obtain ⟨name', item'⟩ := entry'
                  unfold Json.finite at h h'
                  obtain ⟨hitem, hlater⟩ := finiteEntries_cons h
                  obtain ⟨hitem', hlater'⟩ := finiteEntries_cons h'
                  simp only [Json.chars, List.cons_append, List.append_assoc, List.cons.injEq,
                    true_and] at hsame
                  obtain ⟨hname, hvalue⟩ := quotedTail_inj hsame
                  obtain rfl := String.toList_inj.mp hname
                  obtain ⟨rfl, hclosed⟩ := Json.chars_inj item item' hitem hitem'
                    (stops_entries later rest) (stops_entries later' rest') (List.cons.inj hvalue).2
                  obtain ⟨rfl, rfl⟩ := Json.closedEntries_inj later later' hlater hlater' hclosed
                  exact ⟨rfl, rfl⟩
      | _ => cases hkind

theorem Json.closedItems_inj : ∀ (items items' : List Json) {rest rest' : List Char},
    Json.finiteItems items = true → Json.finiteItems items' = true →
      Json.closedItems items ++ rest = Json.closedItems items' ++ rest' →
        items = items' ∧ rest = rest'
  | [], items', rest, rest', h, h', hsame => by
      cases items' with
      | nil => exact ⟨rfl, List.append_cancel_left hsame⟩
      | cons item' later' => simp [Json.closedItems] at hsame
  | item :: later, items', rest, rest', h, h', hsame => by
      cases items' with
      | nil => simp [Json.closedItems] at hsame
      | cons item' later' =>
          simp only [Json.closedItems, List.cons_append, List.append_assoc, List.cons.injEq,
            true_and] at hsame
          obtain ⟨hitem, hlater⟩ := finiteItems_cons h
          obtain ⟨hitem', hlater'⟩ := finiteItems_cons h'
          obtain ⟨rfl, hclosed⟩ := Json.chars_inj item item' hitem hitem' (stops_items later rest)
            (stops_items later' rest') hsame
          obtain ⟨rfl, rfl⟩ := Json.closedItems_inj later later' hlater hlater' hclosed
          exact ⟨rfl, rfl⟩

theorem Json.closedEntries_inj : ∀ (entries entries' : List (String × Json)) {rest rest' : List Char},
    Json.finiteEntries entries = true → Json.finiteEntries entries' = true →
      Json.closedEntries entries ++ rest = Json.closedEntries entries' ++ rest' →
        entries = entries' ∧ rest = rest'
  | [], entries', rest, rest', h, h', hsame => by
      cases entries' with
      | nil => exact ⟨rfl, List.append_cancel_left hsame⟩
      | cons entry' later' => simp [Json.closedEntries] at hsame
  | (name, item) :: later, entries', rest, rest', h, h', hsame => by
      cases entries' with
      | nil => simp [Json.closedEntries] at hsame
      | cons entry' later' =>
          obtain ⟨name', item'⟩ := entry'
          simp only [Json.closedEntries, List.cons_append, List.append_assoc, List.cons.injEq,
            true_and] at hsame
          obtain ⟨hitem, hlater⟩ := finiteEntries_cons h
          obtain ⟨hitem', hlater'⟩ := finiteEntries_cons h'
          obtain ⟨hname, hvalue⟩ := quotedTail_inj hsame
          obtain rfl := String.toList_inj.mp hname
          obtain ⟨rfl, hclosed⟩ := Json.chars_inj item item' hitem hitem' (stops_entries later rest)
            (stops_entries later' rest') (List.cons.inj hvalue).2
          obtain ⟨rfl, rfl⟩ := Json.closedEntries_inj later later' hlater hlater' hclosed
          exact ⟨rfl, rfl⟩

end

/-- Two bodies with finite numbers have one canonical text exactly where they are the same
value up to the order of their entries. -/
theorem canonicalJson_eq_iff {value value' : Json} (h : value.finite = true)
    (h' : value'.finite = true) :
    canonicalJson value = canonicalJson value' ↔ value.normal = value'.normal := by
  constructor
  · intro hsame
    have hchars : value.normal.chars ++ [] = value'.normal.chars ++ [] := by
      rw [← Json.canonical_chars, ← Json.canonical_chars, hsame]
    exact (Json.chars_inj _ _ (Json.finite_normal h) (Json.finite_normal h') (by simp [Stops])
      (by simp [Stops]) hchars).1
  · intro hsame
    apply String.toList_inj.mp
    rw [Json.canonical_chars, Json.canonical_chars, hsame]

/-- Entries under names of their own may be written in any order. -/
theorem Json.normal_perm {entries entries' : List (String × Json)} (h : entries.Perm entries')
    (hnames : (entries.map Prod.fst).Nodup) :
    (Json.object entries).normal = (Json.object entries').normal := by
  have hkeys : ∀ first second : String × Json,
      noLater [.text first.1] [.text second.1] = true ↔ first.1 ≤ second.1 := by
    intro first second
    rcases lt_trichotomy first.1 second.1 with hless | hsame | hmore
    · simp [noLater, compareValues, hless, hless.le]
    · simp [noLater, compareValues, hsame]
    · simp [noLater, compareValues, hmore, hmore.not_gt, hmore.not_ge]
  have hnormal : (Json.normalEntries entries).Perm (Json.normalEntries entries') := by
    rw [Json.normalEntries_eq, Json.normalEntries_eq]
    exact h.map _
  have hdistinct : ((Json.normalEntries entries).map Prod.fst).Nodup := by
    rw [Json.normalEntries_eq, List.map_map]
    exact hnames
  have hsecond := orderedBy_ordered hkeys (Json.normalEntries entries')
  have hsame := (orderedBy_ordered hkeys (Json.normalEntries entries)).unique hdistinct
    ⟨hsecond.1.trans hnormal.symm, hsecond.2⟩
  simp only [Json.normal, hsame]

end WaslaCore.Http
