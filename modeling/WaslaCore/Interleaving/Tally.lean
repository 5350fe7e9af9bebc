import Mathlib.Algebra.Order.BigOperators.Group.List
import Mathlib.Algebra.Order.Group.Nat
import Mathlib.Algebra.GroupWithZero.Nat
import WaslaCore.Interleaving.Logic

/-!
Counting what the actions of a run add up to. Where a level of the store rises with
each answered action by what that action gains, and with nothing else, the level is
what all calls together gained, whatever the order of their steps.
-/

namespace WaslaCore.Interleaving

section Totals

variable {σ A : Type} {R : A → Type} {ω ε β : Type}

/-- What one call gained so far. -/
def gainedIn (gain : (action : A) → R action → Nat) (seen : History A R) : Nat :=
  (seen.map (fun entry => gain entry.1 entry.2)).sum

/-- What all calls gained together. -/
def World.total (gain : (action : A) → R action → Nat) (world : World σ A R ε β) : Nat :=
  (world.tasks.map (fun task => gainedIn gain task.seen)).sum

variable {gain gain' : (action : A) → R action → Nat}

@[simp] theorem gainedIn_nil : gainedIn gain ([] : History A R) = 0 := rfl

@[simp] theorem gainedIn_snoc (seen : History A R) (action : A) (answer : R action) :
    gainedIn gain (seen ++ [⟨action, answer⟩]) = gainedIn gain seen + gain action answer := by
  simp [gainedIn]

@[simp] theorem World.total_initial (store : σ) :
    (World.initial store : World σ A R ε β).total gain = 0 := rfl

/-- Where no call gained less than another way, they did not together. -/
theorem World.total_le {world : World σ A R ε β}
    (h : ∀ task ∈ world.tasks, gainedIn gain task.seen ≤ gainedIn gain' task.seen) :
    world.total gain ≤ world.total gain' :=
  List.sum_le_sum h

/-- Where every call gained once or not at all, the total counts those that did. -/
theorem World.total_countP {p : Task A R ε β → Bool} {world : World σ A R ε β}
    (h : ∀ task ∈ world.tasks, gainedIn gain task.seen = if p task then 1 else 0) :
    world.total gain = world.tasks.countP p := by
  unfold World.total
  rw [List.map_congr_left h]
  generalize world.tasks = tasks
  induction tasks with
  | nil => rfl
  | cons task rest ih =>
      rw [List.map_cons, List.sum_cons, ih, List.countP_cons, Nat.add_comm]

/-- A level of the store that only the gains of actions raise is their total. -/
theorem Run.tallies {system : System σ A R ω} {calls : Process A R ε β → Prop}
    {allowed : History A R → A → σ → Prop} {world world' : World σ A R ε β}
    (gain : (action : A) → R action → Nat) (inv : σ → Prop) (level : σ → Nat)
    (hact : ∀ {action choice answer store store'}, inv store →
      system.perform action choice store = some (answer, store') →
      inv store' ∧ level store' = level store + gain action answer)
    (htick : ∀ {choice store store'}, inv store → system.tick choice store = some store' →
      inv store' ∧ level store' = level store)
    (hinv : inv world.store) (hrun : Run system calls allowed world world') :
    inv world'.store ∧
      level world'.store + world.total gain = level world.store + world'.total gain := by
  induction hrun with
  | refl => exact ⟨hinv, rfl⟩
  | tail _ hstep ih =>
      obtain ⟨hinv', hlevel⟩ := ih
      cases hstep with
      | start hcall =>
          refine ⟨hinv', ?_⟩
          simpa [World.total] using hlevel
      | act hallowed hperforms =>
          cases hperforms with
          | @intro store store' before after seen action next answer choice hperform =>
              obtain ⟨hinv'', hrises⟩ := hact hinv' hperform
              refine ⟨hinv'', ?_⟩
              dsimp only at hlevel hrises ⊢
              simp only [World.total, List.map_append, List.map_cons, List.sum_append,
                List.sum_cons, gainedIn_snoc] at hlevel ⊢
              omega
      | tick choice hmoved =>
          obtain ⟨hinv'', hsame⟩ := htick hinv' hmoved
          refine ⟨hinv'', ?_⟩
          dsimp only at hsame ⊢
          rw [hsame]
          exact hlevel

end Totals

end WaslaCore.Interleaving
