import Mathlib.Logic.Relation

/-!
Calls against a shared store, one atomic action at a time. A `Process` is the
tree of actions a call performs: it stops with a value or an error, or performs
one action and continues with whatever the store answers. Between two actions
of one call any number of actions of other calls may happen, which is exactly
what an `await` allows. Nothing here names a particular store or program.
-/

namespace WaslaCore.Interleaving

/-- A call over actions `A` whose answers have type `R action`: it returns a
`β`, raises an `ε`, or performs one atomic action and goes on. -/
inductive Process (A : Type) (R : A → Type) (ε β : Type) where
  | done (value : β)
  | fail (error : ε)
  | act (action : A) (next : R action → Process A R ε β)

namespace Process

variable {A : Type} {R : A → Type} {ε β γ : Type}

/-- Run the first call to its value, then the second. An error skips the rest. -/
def bind : Process A R ε β → (β → Process A R ε γ) → Process A R ε γ
  | .done value, next => next value
  | .fail error, _ => .fail error
  | .act action cont, next => .act action (fun answer => (cont answer).bind next)

/-- `try … catch`: an error of the body is handed to the handler. Actions the
body has already performed stay performed. -/
def handle : Process A R ε β → (ε → Process A R ε β) → Process A R ε β
  | .done value, _ => .done value
  | .fail error, handler => handler error
  | .act action cont, handler => .act action (fun answer => (cont answer).handle handler)

instance : Monad (Process A R ε) where
  pure := .done
  bind := bind

instance : MonadExcept ε (Process A R ε) where
  throw := .fail
  tryCatch := handle

@[simp] theorem pure_eq (value : β) :
    (pure value : Process A R ε β) = .done value := rfl

@[simp] theorem throw_eq (error : ε) :
    (throw error : Process A R ε β) = .fail error := rfl

@[simp] theorem done_bind (value : β) (next : β → Process A R ε γ) :
    (Process.done value : Process A R ε β) >>= next = next value := rfl

@[simp] theorem fail_bind (error : ε) (next : β → Process A R ε γ) :
    (Process.fail error : Process A R ε β) >>= next = .fail error := rfl

end Process

/-- What one call has performed so far: each action with the answer it got. -/
abbrev History (A : Type) (R : A → Type) := List ((action : A) × R action)

/-- A call in progress. -/
structure Task (A : Type) (R : A → Type) (ε β : Type) where
  seen : History A R
  rest : Process A R ε β

/-- The shared store and every call started on it so far. A call that crashed
is one that is never scheduled again. -/
structure World (σ A : Type) (R : A → Type) (ε β : Type) where
  store : σ
  tasks : List (Task A R ε β)

/-- How a store answers an action. The choice `ω` carries every decision the
store does not make itself: a fresh identifier, a failure, an outcome. `tick` is
what the environment may do on its own, such as let time pass. -/
structure System (σ A : Type) (R : A → Type) (ω : Type) where
  perform : (action : A) → ω → σ → Option (R action × σ)
  tick : ω → σ → Option σ

section Steps

variable {σ A : Type} {R : A → Type} {ω ε β : Type}

/-- One call performs its next action: it had `seen` its history so far, the
store answered, and only this call and the store changed. -/
inductive Performs (system : System σ A R ω) :
    World σ A R ε β → History A R → (action : A) → R action → World σ A R ε β → Prop where
  | intro {store store' before after seen action next answer} (choice : ω)
      (hperform : system.perform action choice store = some (answer, store')) :
      Performs system
        ⟨store, before ++ ⟨seen, .act action next⟩ :: after⟩ seen action answer
        ⟨store', before ++ ⟨seen ++ [⟨action, answer⟩], next answer⟩ :: after⟩

/-- One step of the world: a call starts, one call performs its next action, or
the environment moves. `calls` says which calls may start; `allowed` restricts
the actions taken, and excludes nothing where a result holds of every run. -/
inductive Step (system : System σ A R ω) (calls : Process A R ε β → Prop)
    (allowed : History A R → A → σ → Prop) :
    World σ A R ε β → World σ A R ε β → Prop where
  | start {store tasks call} (hcall : calls call) :
      Step system calls allowed ⟨store, tasks⟩ ⟨store, tasks ++ [⟨[], call⟩]⟩
  | act {before after seen action answer}
      (hallowed : allowed seen action before.store)
      (hperforms : Performs system before seen action answer after) :
      Step system calls allowed before after
  | tick {store store' tasks} (choice : ω) (htick : system.tick choice store = some store') :
      Step system calls allowed ⟨store, tasks⟩ ⟨store', tasks⟩

/-- Any finite run. -/
abbrev Run (system : System σ A R ω) (calls : Process A R ε β → Prop)
    (allowed : History A R → A → σ → Prop) :
    World σ A R ε β → World σ A R ε β → Prop :=
  Relation.ReflTransGen (Step system calls allowed)

/-- The restriction that excludes nothing. -/
def anything (_ : History A R) (_ : A) (_ : σ) : Prop := True

/-- The world before any call. -/
def World.initial (store : σ) : World σ A R ε β := ⟨store, []⟩

end Steps

section Schedules

variable {σ A : Type} {R : A → Type} {ω ε β : Type}

/-- One entry of an explicit schedule. -/
inductive Move (A : Type) (R : A → Type) (ω ε β : Type) where
  | start (call : Process A R ε β)
  | act (index : Nat) (choice : ω)
  | tick (choice : ω)

/-- The restriction that excludes nothing, as a test. -/
def unrestricted (_ : History A R) (_ : A) (_ : σ) : Bool := true

/-- The task list with task `index` replaced, where that task can perform an
action that is `permitted` and the store answers it. -/
def advance (system : System σ A R ω) (permitted : History A R → A → σ → Bool) (choice : ω)
    (store : σ) : Nat → List (Task A R ε β) → Option (σ × List (Task A R ε β))
  | _, [] => none
  | 0, ⟨seen, .act action next⟩ :: rest =>
      if permitted seen action store then
        match system.perform action choice store with
        | some (answer, store') =>
            some (store', ⟨seen ++ [⟨action, answer⟩], next answer⟩ :: rest)
        | none => none
      else none
  | 0, ⟨_, .done _⟩ :: _ => none
  | 0, ⟨_, .fail _⟩ :: _ => none
  | index + 1, task :: rest =>
      match advance system permitted choice store index rest with
      | some (store', rest') => some (store', task :: rest')
      | none => none

def Move.apply (system : System σ A R ω) (permitted : History A R → A → σ → Bool)
    (world : World σ A R ε β) : Move A R ω ε β → Option (World σ A R ε β)
  | .start call => some ⟨world.store, world.tasks ++ [⟨[], call⟩]⟩
  | .act index choice =>
      match advance system permitted choice world.store index world.tasks with
      | some (store', tasks') => some ⟨store', tasks'⟩
      | none => none
  | .tick choice =>
      match system.tick choice world.store with
      | some store' => some ⟨store', world.tasks⟩
      | none => none

def play (system : System σ A R ω) (permitted : History A R → A → σ → Bool) :
    List (Move A R ω ε β) → World σ A R ε β → Option (World σ A R ε β)
  | [], world => some world
  | move :: moves, world =>
      match move.apply system permitted world with
      | some world' => play system permitted moves world'
      | none => none

/-- One call performs its next actions in a row. -/
def acts (index : Nat) (choices : List ω) : List (Move A R ω ε β) := choices.map (Move.act index)

variable {system : System σ A R ω} {permitted : History A R → A → σ → Bool}

/-- The call at a position performs its next action. -/
theorem advance_performs {choice : ω} {store store' : σ} {index : Nat}
    {tasks tasks' : List (Task A R ε β)}
    (h : advance system permitted choice store index tasks = some (store', tasks')) :
    ∃ before after seen action next answer, index = before.length ∧
      tasks = before ++ ⟨seen, .act action next⟩ :: after ∧
      tasks' = before ++ ⟨seen ++ [⟨action, answer⟩], next answer⟩ :: after ∧
      permitted seen action store = true ∧
      system.perform action choice store = some (answer, store') := by
  induction tasks generalizing index tasks' with
  | nil => cases index <;> simp [advance] at h
  | cons task rest ih =>
      cases index with
      | zero =>
          obtain ⟨seen, call⟩ := task
          cases call with
          | done value => simp [advance] at h
          | fail error => simp [advance] at h
          | act action next =>
              simp only [advance] at h
              split at h
              · rename_i hpermitted
                split at h
                · rename_i answer final hperform
                  simp only [Option.some.injEq, Prod.mk.injEq] at h
                  obtain ⟨rfl, rfl⟩ := h
                  exact ⟨[], rest, seen, action, next, answer, rfl, rfl, rfl, hpermitted, hperform⟩
                · cases h
              · cases h
      | succ index =>
          simp only [advance] at h
          split at h
          · rename_i final rest' hrest
            simp only [Option.some.injEq, Prod.mk.injEq] at h
            obtain ⟨rfl, rfl⟩ := h
            obtain ⟨before, after, seen, action, next, answer, hindex, hbefore, hafter, hpermitted,
              hperform⟩ := ih hrest
            exact ⟨task :: before, after, seen, action, next, answer, by simp [hindex],
              by simp [hbefore], by simp [hafter], hpermitted, hperform⟩
          · cases h

/-- A schedule that plays through is a run, under any restriction the schedule's
test implies. -/
theorem play_run {calls : Process A R ε β → Prop} {allowed : History A R → A → σ → Prop}
    {moves : List (Move A R ω ε β)} {world world' : World σ A R ε β}
    (h : play system permitted moves world = some world')
    (hcalls : ∀ call, Move.start call ∈ moves → calls call)
    (hallowed : ∀ seen action store, permitted seen action store = true →
      allowed seen action store) :
    Run system calls allowed world world' := by
  induction moves generalizing world with
  | nil =>
      simp only [play, Option.some.injEq] at h
      subst h
      exact .refl
  | cons move moves ih =>
      simp only [play] at h
      split at h
      · rename_i middle hmove
        have hrest := ih h (fun call hcall => hcalls call (List.mem_cons_of_mem _ hcall))
        refine Relation.ReflTransGen.head ?_ hrest
        obtain ⟨store, tasks⟩ := world
        cases move with
        | start call =>
            simp only [Move.apply, Option.some.injEq] at hmove
            subst hmove
            exact .start (hcalls call (by simp))
        | act index choice =>
            simp only [Move.apply] at hmove
            split at hmove
            · rename_i store' tasks' hadvance
              simp only [Option.some.injEq] at hmove
              subst hmove
              obtain ⟨before, after, seen, action, next, answer, -, rfl, rfl, hpermitted,
                hperform⟩ := advance_performs hadvance
              exact .act (hallowed _ _ _ hpermitted) (.intro choice hperform)
            · cases hmove
        | tick choice =>
            simp only [Move.apply] at hmove
            split at hmove
            · rename_i store' htick
              simp only [Option.some.injEq] at hmove
              subst hmove
              exact .tick choice htick
            · cases hmove
      · cases h

end Schedules

end WaslaCore.Interleaving
