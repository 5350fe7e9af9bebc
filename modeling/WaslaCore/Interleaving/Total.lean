import WaslaCore.Interleaving.Completion
import WaslaCore.Interleaving.Embed

/-!
What a call comes to with nothing else going on: it can always go on, and however it
does it ends as said. `Ends` is proved along the call, one rule for each way a call is
put together, and a call that ends completes.
-/

namespace WaslaCore.Interleaving

section Ends

variable {σ A : Type} {R : A → Type} {ω ε β γ : Type}

/-- At each of its actions the call can be answered, and whatever it is answered it ends
as it says. -/
def Ends (system : System σ A R ω) (post : Except ε β → σ → Prop) : Process A R ε β → σ → Prop
  | .done value, store => post (.ok value) store
  | .fail error, store => post (.error error) store
  | .act action next, store =>
      (∃ choice answer after, system.perform action choice store = some (answer, after)) ∧
        ∀ choice answer after, system.perform action choice store = some (answer, after) →
          Ends system post (next answer) after

variable {system : System σ A R ω}

theorem Ends.mono {post post' : Except ε β → σ → Prop} {call : Process A R ε β} {store : σ}
    (h : Ends system post call store)
    (hpost : ∀ result later, post result later → post' result later) :
    Ends system post' call store := by
  induction call generalizing store with
  | done value => exact hpost _ _ h
  | fail error => exact hpost _ _ h
  | act action next ih =>
      obtain ⟨hgoes, hrest⟩ := h
      exact ⟨hgoes, fun choice answer after hperform => ih answer (hrest choice answer after hperform)⟩

/-- Sequencing: the second call goes on where the first returned. -/
theorem ends_bind {p : Except ε β → σ → Prop} {post : Except ε γ → σ → Prop}
    {call : Process A R ε β} {next : β → Process A R ε γ} {store : σ}
    (h : Ends system p call store)
    (hnext : ∀ value later, p (.ok value) later → Ends system post (next value) later)
    (herror : ∀ error later, p (.error error) later → post (.error error) later) :
    Ends system post (call >>= next) store := by
  induction call generalizing store with
  | done value => exact hnext value store h
  | fail error => exact herror error store h
  | act action cont ih =>
      obtain ⟨hgoes, hrest⟩ := h
      exact ⟨hgoes, fun choice answer after hperform => ih answer (hrest choice answer after hperform)⟩

/-- `try … catch`: the handler goes on where the body raised. -/
theorem ends_tryCatch {p post : Except ε β → σ → Prop} {call : Process A R ε β}
    {handler : ε → Process A R ε β} {store : σ} (h : Ends system p call store)
    (hok : ∀ value later, p (.ok value) later → post (.ok value) later)
    (hhandler : ∀ error later, p (.error error) later → Ends system post (handler error) later) :
    Ends system post (tryCatch call handler) store := by
  induction call generalizing store with
  | done value => exact hok value store h
  | fail error => exact hhandler error store h
  | act action cont ih =>
      obtain ⟨hgoes, hrest⟩ := h
      exact ⟨hgoes, fun choice answer after hperform => ih answer (hrest choice answer after hperform)⟩

/-- A call that ends completes. -/
theorem Ends.completes {post : Except ε β → σ → Prop} {call : Process A R ε β} {store : σ}
    (h : Ends system post call store) :
    ∃ result later, Completes system call store result later ∧ post result later := by
  induction call generalizing store with
  | done value => exact ⟨_, _, .done value store, h⟩
  | fail error => exact ⟨_, _, .fail error store, h⟩
  | act action next ih =>
      obtain ⟨⟨choice, answer, after, hperform⟩, hrest⟩ := h
      obtain ⟨result, later, hcompletes, hpost⟩ := ih answer (hrest choice answer after hperform)
      exact ⟨result, later, .act choice hperform hcompletes, hpost⟩

/-- However a call that ends completes, it completes as it says. -/
theorem Ends.post {post : Except ε β → σ → Prop} {call : Process A R ε β} {store later : σ}
    {result : Except ε β} (h : Ends system post call store)
    (hcompletes : Completes system call store result later) : post result later := by
  induction hcompletes with
  | done value store => exact h
  | fail error store => exact h
  | act choice hperform hrest ih => exact ih (h.2 choice _ _ hperform)

/-! ### Calls of a part of the store -/

variable {τ B : Type} {S : B → Type}

/-- A call over a part of the store, made by a caller over the whole. -/
theorem ends_embed {place : A → B} {outer : System τ B S ω}
    {inner : System σ A (fun action => S (place action)) ω} (part : τ → σ) (plug : τ → σ → τ)
    (hperform : ∀ action choice store, outer.perform (place action) choice store =
      (inner.perform action choice (part store)).map (fun done => (done.1, plug store done.2)))
    (hpart : ∀ store own, part (plug store own) = own)
    (hplug : ∀ store own own', plug (plug store own) own' = plug store own')
    (hself : ∀ store, plug store (part store) = store)
    {call : Process A (fun action => S (place action)) ε β} {post : Except ε β → τ → Prop}
    {store : τ} (h : Ends inner (fun result own => post result (plug store own)) call (part store)) :
    Ends outer post (call.embed place) store := by
  induction call generalizing store with
  | done value =>
      change post (.ok value) store
      rw [← hself store]
      exact h
  | fail error =>
      change post (.error error) store
      rw [← hself store]
      exact h
  | act action next ih =>
      obtain ⟨⟨choice, answer, after, hgoes⟩, hrest⟩ := h
      refine ⟨⟨choice, answer, plug store after, ?_⟩, fun choice answer after hdone => ?_⟩
      · rw [hperform, hgoes]
        rfl
      · rw [hperform] at hdone
        obtain ⟨⟨given, own⟩, hown, hsame⟩ := Option.map_eq_some_iff.mp hdone
        obtain ⟨rfl, rfl⟩ := Prod.mk.inj hsame
        apply ih given
        rw [hpart]
        refine (hrest choice given own hown).mono fun result last hlast => ?_
        rwa [hplug]

end Ends

end WaslaCore.Interleaving
