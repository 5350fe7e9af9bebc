import WaslaCore.Interleaving.Logic

/-!
Calls that run to their end with nothing else going on. `Completes` says what a call
returns or raises and what it leaves the store as; it is read off the call one action at
a time, and a completed call is a run of its own.
-/

namespace WaslaCore.Interleaving

section Completion

variable {σ A : Type} {R : A → Type} {ω ε β γ : Type}

/-- The call runs from the first store to its result and the second store. -/
inductive Completes (system : System σ A R ω) :
    Process A R ε β → σ → Except ε β → σ → Prop where
  | done (value : β) (store : σ) : Completes system (.done value) store (.ok value) store
  | fail (error : ε) (store : σ) : Completes system (.fail error) store (.error error) store
  | act {action next answer store middle result last} (choice : ω)
      (hperform : system.perform action choice store = some (answer, middle))
      (hrest : Completes system (next answer) middle result last) :
      Completes system (.act action next) store result last

variable {system : System σ A R ω}

@[simp] theorem completes_done {value : β} {store store' : σ} {result : Except ε β} :
    Completes system (.done value) store result store' ↔ result = .ok value ∧ store' = store := by
  constructor
  · intro h
    cases h
    exact ⟨rfl, rfl⟩
  · rintro ⟨rfl, rfl⟩
    exact .done value _

@[simp] theorem completes_fail {error : ε} {store store' : σ} {result : Except ε β} :
    Completes system (.fail error) store result store' ↔
      result = .error error ∧ store' = store := by
  constructor
  · intro h
    cases h
    exact ⟨rfl, rfl⟩
  · rintro ⟨rfl, rfl⟩
    exact .fail error _

theorem completes_act {action : A} {next : R action → Process A R ε β} {store store' : σ}
    {result : Except ε β} :
    Completes system (.act action next) store result store' ↔
      ∃ choice answer middle, system.perform action choice store = some (answer, middle) ∧
        Completes system (next answer) middle result store' := by
  constructor
  · intro h
    cases h with
    | act choice hperform hrest => exact ⟨choice, _, _, hperform, hrest⟩
  · rintro ⟨choice, answer, middle, hperform, hrest⟩
    exact .act choice hperform hrest

/-- Sequencing: the second call completes where the first returned. -/
theorem completes_bind {call : Process A R ε β} {next : β → Process A R ε γ} {store store' : σ}
    {result : Except ε γ} :
    Completes system (call >>= next) store result store' ↔
      (∃ value middle, Completes system call store (.ok value) middle ∧
        Completes system (next value) middle result store') ∨
      ∃ error, Completes system call store (.error error) store' ∧ result = .error error := by
  induction call generalizing store with
  | done value =>
      refine ⟨fun h => .inl ⟨value, store, .done value store, h⟩, ?_⟩
      rintro (⟨_, _, ⟨⟩, hnext⟩ | ⟨_, ⟨⟩, _⟩)
      exact hnext
  | fail error =>
      constructor
      · intro h
        obtain ⟨rfl, rfl⟩ := completes_fail.mp h
        exact .inr ⟨error, .fail error _, rfl⟩
      · rintro (⟨_, _, ⟨⟩, _⟩ | ⟨_, ⟨⟩, rfl⟩)
        exact .fail error _
  | act action cont ih =>
      change Completes system (.act action (fun answer => cont answer >>= next)) store result
        store' ↔ _
      simp only [completes_act, ih]
      constructor
      · rintro ⟨choice, answer, middle, hperform, ⟨value, last, hcall, hnext⟩ | ⟨error, hcall, hsame⟩⟩
        · exact .inl ⟨value, last, ⟨choice, answer, middle, hperform, hcall⟩, hnext⟩
        · exact .inr ⟨error, ⟨choice, answer, middle, hperform, hcall⟩, hsame⟩
      · rintro (⟨value, last, ⟨choice, answer, middle, hperform, hcall⟩, hnext⟩ |
          ⟨error, ⟨choice, answer, middle, hperform, hcall⟩, hsame⟩)
        · exact ⟨choice, answer, middle, hperform, .inl ⟨value, last, hcall, hnext⟩⟩
        · exact ⟨choice, answer, middle, hperform, .inr ⟨error, hcall, hsame⟩⟩

/-- `try … catch`: the handler completes where the body raised. -/
theorem completes_tryCatch {call : Process A R ε β} {handler : ε → Process A R ε β}
    {store store' : σ} {result : Except ε β} :
    Completes system (tryCatch call handler) store result store' ↔
      (∃ value, Completes system call store (.ok value) store' ∧ result = .ok value) ∨
      ∃ error middle, Completes system call store (.error error) middle ∧
        Completes system (handler error) middle result store' := by
  induction call generalizing store with
  | done value =>
      constructor
      · intro h
        obtain ⟨rfl, rfl⟩ := completes_done.mp h
        exact .inl ⟨value, .done value _, rfl⟩
      · rintro (⟨_, ⟨⟩, rfl⟩ | ⟨_, _, ⟨⟩, _⟩)
        exact .done value _
  | fail error =>
      refine ⟨fun h => .inr ⟨error, store, .fail error store, h⟩, ?_⟩
      rintro (⟨_, ⟨⟩, _⟩ | ⟨_, _, ⟨⟩, hnext⟩)
      exact hnext
  | act action cont ih =>
      change Completes system (.act action (fun answer => tryCatch (cont answer) handler)) store
        result store' ↔ _
      simp only [completes_act, ih]
      constructor
      · rintro ⟨choice, answer, middle, hperform, ⟨value, hcall, hsame⟩ | ⟨error, last, hcall, hnext⟩⟩
        · exact .inl ⟨value, ⟨choice, answer, middle, hperform, hcall⟩, hsame⟩
        · exact .inr ⟨error, last, ⟨choice, answer, middle, hperform, hcall⟩, hnext⟩
      · rintro (⟨value, ⟨choice, answer, middle, hperform, hcall⟩, hsame⟩ |
          ⟨error, last, ⟨choice, answer, middle, hperform, hcall⟩, hnext⟩)
        · exact ⟨choice, answer, middle, hperform, .inl ⟨value, hcall, hsame⟩⟩
        · exact ⟨choice, answer, middle, hperform, .inr ⟨error, last, hcall, hnext⟩⟩

/-- Plays a call to its end, with what is chosen at each of its actions. -/
def complete (system : System σ A R ω) :
    List ω → Process A R ε β → σ → Option (Except ε β × σ)
  | [], .done value, store => some (.ok value, store)
  | [], .fail error, store => some (.error error, store)
  | choice :: rest, .act action next, store =>
      match system.perform action choice store with
      | some (answer, middle) => complete system rest (next answer) middle
      | none => none
  | _, _, _ => none

theorem complete_completes {choices : List ω} {call : Process A R ε β} {store store' : σ}
    {result : Except ε β} (h : complete system choices call store = some (result, store')) :
    Completes system call store result store' := by
  induction choices generalizing call store with
  | nil =>
      cases call with
      | done value =>
          cases h
          exact .done value _
      | fail error =>
          cases h
          exact .fail error _
      | act action next => cases h
  | cons choice rest ih =>
      cases call with
      | done value => cases h
      | fail error => cases h
      | act action next =>
          simp only [complete] at h
          split at h
          · rename_i answer middle hperform
            exact .act choice hperform (ih h)
          · cases h

end Completion

end WaslaCore.Interleaving
