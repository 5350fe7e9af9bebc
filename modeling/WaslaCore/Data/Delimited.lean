import Mathlib.Data.List.Forall2

/-!
Texts that show where they end. A text that is told from what follows it can stand in a list
between separators, and the list is told in turn.
-/

namespace WaslaCore.Data

section Delimited

variable {α β γ : Type}

/-- Whatever follows, a text that begins as that of `value` does and is that of another value
belongs to one that is the same, and the same follows. -/
def Told (text : β → List α) (ends : List α → Prop) (same : β → β → Prop) (valid : β → Prop)
    (value : β) : Prop :=
  ∀ ⦃other : β⦄ ⦃rest rest' : List α⦄, valid other → ends rest → ends rest' →
    text value ++ rest = text other ++ rest' → same value other ∧ rest = rest'

/-- The texts of the items with a separator between them, and what closes them. -/
def closed (separator closing : α) (text : β → List α) (items : List β) : List α :=
  [separator].intercalate (items.map text) ++ [closing]

/-- What follows the first item of a list. -/
def following (separator closing : α) (text : β → List α) : List β → List α
  | [] => [closing]
  | item :: rest => separator :: (text item ++ following separator closing text rest)

variable {separator closing : α} {text : β → List α}

theorem closed_cons (item : β) (items : List β) :
    closed separator closing text (item :: items) =
      text item ++ following separator closing text items := by
  induction items generalizing item with
  | nil => simp [closed, following, List.intercalate]
  | cons next rest ih =>
      have hrest := ih next
      simp only [closed, List.map_cons] at hrest ⊢
      simp only [following, List.intercalate_cons_cons, List.append_assoc, hrest]
      rfl

variable {ends : List α → Prop} {same : β → β → Prop} {valid : β → Prop}

theorem following_ends (hseparated : ∀ rest, ends (separator :: rest))
    (hclosed : ∀ rest, ends (closing :: rest)) (items : List β) (rest : List α) :
    ends (following separator closing text items ++ rest) := by
  cases items with
  | nil => exact hclosed rest
  | cons item items => exact hseparated _

/-- What follows the first item is told, item by item. -/
theorem following_told (hapart : separator ≠ closing)
    (hseparated : ∀ rest, ends (separator :: rest)) (hclosed : ∀ rest, ends (closing :: rest))
    {items items' : List β} (htold : ∀ item ∈ items, Told text ends same valid item)
    (hvalid : ∀ item ∈ items', valid item) {rest rest' : List α}
    (h : following separator closing text items ++ rest =
      following separator closing text items' ++ rest') :
    List.Forall₂ same items items' ∧ rest = rest' := by
  induction items generalizing items' with
  | nil =>
      cases items' with
      | nil => exact ⟨.nil, (List.cons.inj h).2⟩
      | cons item' items' => exact absurd (List.cons.inj h).1.symm hapart
  | cons item items ih =>
      cases items' with
      | nil => exact absurd (List.cons.inj h).1 hapart
      | cons item' items' =>
          have hitems : text item ++ (following separator closing text items ++ rest) =
              text item' ++ (following separator closing text items' ++ rest') := by
            simpa [following] using h
          obtain ⟨hsame, hlater⟩ := htold item List.mem_cons_self
            (hvalid item' List.mem_cons_self) (following_ends hseparated hclosed items rest)
            (following_ends hseparated hclosed items' rest') hitems
          obtain ⟨hrest, hleft⟩ := ih (fun other hother => htold other (List.mem_cons_of_mem _ hother))
            (fun other hother => hvalid other (List.mem_cons_of_mem _ hother)) hlater
          exact ⟨.cons hsame hrest, hleft⟩

/-- A closed list of texts is told if its items are and none begins as the list ends. -/
theorem closed_told (hapart : separator ≠ closing) (hseparated : ∀ rest, ends (separator :: rest))
    (hclosed : ∀ rest, ends (closing :: rest))
    (hbegins : ∀ item, ∃ head tail, text item = head :: tail ∧ head ≠ closing)
    {items items' : List β} (htold : ∀ item ∈ items, Told text ends same valid item)
    (hvalid : ∀ item ∈ items', valid item) {rest rest' : List α}
    (h : closed separator closing text items ++ rest =
      closed separator closing text items' ++ rest') :
    List.Forall₂ same items items' ∧ rest = rest' := by
  cases items with
  | nil =>
      cases items' with
      | nil => exact ⟨.nil, (List.cons.inj h).2⟩
      | cons item' items' =>
          obtain ⟨head, tail, htext, hother⟩ := hbegins item'
          rw [closed_cons, htext] at h
          exact absurd (List.cons.inj h).1.symm hother
  | cons item items =>
      cases items' with
      | nil =>
          obtain ⟨head, tail, htext, hother⟩ := hbegins item
          rw [closed_cons, htext] at h
          exact absurd (List.cons.inj h).1 hother
      | cons item' items' =>
          apply following_told hapart hseparated hclosed htold hvalid
          rw [closed_cons, closed_cons] at h
          simpa [following] using h

end Delimited

end WaslaCore.Data
