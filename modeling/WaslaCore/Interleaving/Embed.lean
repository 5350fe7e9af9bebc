import WaslaCore.Interleaving.Logic

/-!
A call over one set of actions made by a caller that has more. The caller's
actions include the other's under `place`, so the call is the same tree with its
actions renamed, and what it keeps there it keeps here.
-/

namespace WaslaCore.Interleaving

section Embedding

variable {A B : Type} {S : B → Type} {ε β γ : Type}

/-- The call with every action put in its place among the caller's. -/
def Process.embed (place : A → B) :
    Process A (fun action => S (place action)) ε β → Process B S ε β
  | .done value => .done value
  | .fail error => .fail error
  | .act action next => .act (place action) (fun answer => (next answer).embed place)

/-- The history of the call as the caller sees it. -/
def History.embed (place : A → B) (seen : History A (fun action => S (place action))) :
    History B S :=
  seen.map (fun entry => ⟨place entry.1, entry.2⟩)

theorem History.embed_snoc (place : A → B) (seen : History A (fun action => S (place action)))
    (action : A) (answer : S (place action)) :
    History.embed place (seen ++ [⟨action, answer⟩]) =
      History.embed place seen ++ [⟨place action, answer⟩] := by
  simp [History.embed]

theorem History.mem_embed (place : A → B) {seen : History A (fun action => S (place action))}
    {action : A} {answer : S (place action)} (h : ⟨action, answer⟩ ∈ seen) :
    (⟨place action, answer⟩ : (action : B) × S action) ∈ History.embed place seen :=
  List.mem_map.mpr ⟨⟨action, answer⟩, h, rfl⟩

/-- What a call keeps on its own it keeps inside a larger caller, from any point of
the caller's history on. -/
theorem keeps_embed {place : A → B} {inner : Discipline A (fun action => S (place action))}
    {outer : Discipline B S}
    {post : History A (fun action => S (place action)) → Except ε β → Prop}
    {call : Process A (fun action => S (place action)) ε β}
    {seen : History A (fun action => S (place action))} {before : History B S}
    (h : Keeps inner post call seen)
    (howed : ∀ later action, inner.owed later action →
      outer.owed (before ++ History.embed place later) (place action))
    (htold : ∀ action answer, outer.told (place action) answer → inner.told action answer) :
    Keeps outer
      (fun later result => ∃ own, later = before ++ History.embed place own ∧ post own result)
      (call.embed place) (before ++ History.embed place seen) := by
  induction call generalizing seen with
  | done value => exact ⟨seen, rfl, h⟩
  | fail error => exact ⟨seen, rfl, h⟩
  | act action next ih =>
      refine ⟨howed seen action h.1, fun answer hanswer => ?_⟩
      have hlater := ih answer (h.2 answer (htold action answer hanswer))
      rw [History.embed_snoc, ← List.append_assoc] at hlater
      exact hlater

/-- Started afresh, the call's own history is what it adds to the caller's. -/
theorem keeps_embed_start {place : A → B} {inner : Discipline A (fun action => S (place action))}
    {outer : Discipline B S}
    {post : History A (fun action => S (place action)) → Except ε β → Prop}
    {call : Process A (fun action => S (place action)) ε β} {before : History B S}
    (h : Keeps inner post call [])
    (howed : ∀ later action, inner.owed later action →
      outer.owed (before ++ History.embed place later) (place action))
    (htold : ∀ action answer, outer.told (place action) answer → inner.told action answer) :
    Keeps outer
      (fun later result => ∃ own, later = before ++ History.embed place own ∧ post own result)
      (call.embed place) before := by
  have hstart := keeps_embed h howed htold
  rwa [show History.embed place ([] : History A (fun action => S (place action))) = [] from rfl,
    List.append_nil] at hstart

theorem avoids_embed {place : A → B} {shunned : B → Prop}
    {call : Process A (fun action => S (place action)) ε β}
    (h : Avoids (fun action => shunned (place action)) call) :
    Avoids shunned (call.embed place) := by
  induction call with
  | done value => trivial
  | fail error => trivial
  | act action next ih => exact ⟨h.1, fun answer => ih answer (h.2 answer)⟩

theorem yields_embed {place : A → B} {P : β → Prop}
    {call : Process A (fun action => S (place action)) ε β} (h : Yields P call) :
    Yields P (call.embed place) := by
  induction call with
  | done value => exact h
  | fail error => trivial
  | act action next ih => exact fun answer => ih answer (h answer)

end Embedding

end WaslaCore.Interleaving
