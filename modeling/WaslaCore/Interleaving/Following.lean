import WaslaCore.Interleaving.Completion

/-!
Following a completed call. What every action keeps the whole call keeps, what a call avoids it
did not do, and what it yields it returned.
-/

namespace WaslaCore.Interleaving

section Following

variable {σ A : Type} {R : A → Type} {ω ε β : Type} {system : System σ A R ω}

/-- A call that avoids some actions goes where the others lead. -/
theorem Avoids.completes {shunned : A → Prop} {relation : σ → σ → Prop}
    (hrefl : ∀ store, relation store store)
    (htrans : ∀ {first second third}, relation first second → relation second third →
      relation first third)
    (hperform : ∀ {action choice answer store store'}, ¬shunned action →
      system.perform action choice store = some (answer, store') → relation store store')
    {call : Process A R ε β} {store store' : σ} {result : Except ε β} (h : Avoids shunned call)
    (hcompletes : Completes system call store result store') : relation store store' := by
  induction hcompletes with
  | done value store => exact hrefl store
  | fail error store => exact hrefl store
  | act choice hdone hrest ih => exact htrans (hperform h.1 hdone) (ih (h.2 _))

/-- An invariant of every action is one of the call. -/
theorem Completes.keeps (inv : σ → Prop)
    (hperform : ∀ {action choice answer store store'},
      system.perform action choice store = some (answer, store') → inv store → inv store')
    {call : Process A R ε β} {store store' : σ} {result : Except ε β}
    (h : Completes system call store result store') (hinv : inv store) : inv store' := by
  induction h with
  | done value store => exact hinv
  | fail error store => exact hinv
  | act choice hdone hrest ih => exact ih (hperform hdone hinv)

theorem Yields.completes {P : β → Prop} {call : Process A R ε β} {store store' : σ} {value : β}
    (h : Yields P call) (hcompletes : Completes system call store (.ok value) store') :
    P value := by
  induction call generalizing store with
  | done returned =>
      obtain ⟨hsame, -⟩ := completes_done.mp hcompletes
      rw [Except.ok.inj hsame]
      exact h
  | fail error => cases hcompletes
  | act action next ih =>
      obtain ⟨choice, answer, middle, -, hrest⟩ := completes_act.mp hcompletes
      exact ih answer (h answer) hrest

theorem yields_tryCatch {P : β → Prop} {call : Process A R ε β} {handler : ε → Process A R ε β}
    (h : Yields P call) (hhandler : ∀ error, Yields P (handler error)) :
    Yields P (tryCatch call handler) := by
  induction call with
  | done value => exact h
  | fail error => exact hhandler error
  | act action next ih => exact fun answer => ih answer (h answer)

end Following

end WaslaCore.Interleaving
