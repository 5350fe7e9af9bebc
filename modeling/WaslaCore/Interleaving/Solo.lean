import WaslaCore.Interleaving.Serial

/-!
A call with the store to itself. Between two of its actions only the environment moves,
so what it read it still knows when it acts: `Solo` says what each of its actions finds,
given an invariant of the store, and in what the call ends. It is proved along the call,
one rule for each way a call is put together, and in a serial run every action is one
that such a call owes.
-/

namespace WaslaCore.Interleaving

section Solo

variable {σ A : Type} {R : A → Type} {ω ε β γ : Type}

/-- What the environment does by itself. -/
abbrev Drifts (system : System σ A R ω) : σ → σ → Prop :=
  Relation.ReflTransGen (fun store store' => ∃ choice, system.tick choice store = some store')

/-- The call, run from the store with nothing else going on, finds at each action what it
owes, and ends as it says. The invariant is given it wherever the environment or an
action of its own leaves the store. -/
def Solo (system : System σ A R ω) (inv : σ → Prop) (owed : A → σ → Prop)
    (post : Except ε β → σ → Prop) : Process A R ε β → σ → Prop
  | .done value, store => post (.ok value) store
  | .fail error, store => post (.error error) store
  | .act action next, store => ∀ later, Drifts system store later → inv later →
      owed action later ∧ ∀ choice answer after,
        system.perform action choice later = some (answer, after) → inv after →
          Solo system inv owed post (next answer) after

variable {system : System σ A R ω} {inv : σ → Prop} {owed : A → σ → Prop}

theorem Solo.mono {post post' : Except ε β → σ → Prop} {call : Process A R ε β} {store : σ}
    (h : Solo system inv owed post call store)
    (hpost : ∀ result later, post result later → post' result later) :
    Solo system inv owed post' call store := by
  induction call generalizing store with
  | done value => exact hpost _ _ h
  | fail error => exact hpost _ _ h
  | act action next ih =>
      intro later hdrift hinv
      obtain ⟨howed, hrest⟩ := h later hdrift hinv
      exact ⟨howed, fun choice answer after hperform hafter =>
        ih answer (hrest choice answer after hperform hafter)⟩

/-- A stronger invariant, and less owed. -/
theorem Solo.weaken {inv' : σ → Prop} {owed' : A → σ → Prop} {post : Except ε β → σ → Prop}
    {call : Process A R ε β} {store : σ} (h : Solo system inv owed post call store)
    (hinv : ∀ store, inv' store → inv store)
    (howed : ∀ action store, inv' store → owed action store → owed' action store) :
    Solo system inv' owed' post call store := by
  induction call generalizing store with
  | done value => exact h
  | fail error => exact h
  | act action next ih =>
      intro later hdrift hlater
      obtain ⟨howes, hrest⟩ := h later hdrift (hinv later hlater)
      refine ⟨howed action later hlater howes, fun choice answer after hperform hafter => ?_⟩
      exact ih answer (hrest choice answer after hperform (hinv after hafter))

/-- Sequencing: the second call goes on where the first ended. -/
theorem solo_bind {p : Except ε β → σ → Prop} {post : Except ε γ → σ → Prop}
    {call : Process A R ε β} {next : β → Process A R ε γ} {store : σ}
    (h : Solo system inv owed p call store)
    (hnext : ∀ value later, p (.ok value) later → Solo system inv owed post (next value) later)
    (herror : ∀ error later, p (.error error) later → post (.error error) later) :
    Solo system inv owed post (call >>= next) store := by
  induction call generalizing store with
  | done value => exact hnext value store h
  | fail error => exact herror error store h
  | act action cont ih =>
      intro later hdrift hinv
      obtain ⟨howed, hrest⟩ := h later hdrift hinv
      exact ⟨howed, fun choice answer after hperform hafter =>
        ih answer (hrest choice answer after hperform hafter)⟩

/-- `try … catch`: the handler goes on where the body raised. -/
theorem solo_tryCatch {p post : Except ε β → σ → Prop} {call : Process A R ε β}
    {handler : ε → Process A R ε β} {store : σ} (h : Solo system inv owed p call store)
    (hok : ∀ value later, p (.ok value) later → post (.ok value) later)
    (hhandler : ∀ error later, p (.error error) later →
      Solo system inv owed post (handler error) later) :
    Solo system inv owed post (tryCatch call handler) store := by
  induction call generalizing store with
  | done value => exact hok value store h
  | fail error => exact hhandler error store h
  | act action cont ih =>
      intro later hdrift hinv
      obtain ⟨howed, hrest⟩ := h later hdrift hinv
      exact ⟨howed, fun choice answer after hperform hafter =>
        ih answer (hrest choice answer after hperform hafter)⟩

/-- The environment may move before the call goes on. -/
theorem Solo.drift {call : Process A R ε β} {store later : σ}
    (h : Solo system inv owed (fun _ _ => True) call store) (hdrift : Drifts system store later) :
    Solo system inv owed (fun _ _ => True) call later := by
  cases call with
  | done value => trivial
  | fail error => trivial
  | act action next => exact fun last hlast => h last (hdrift.trans hlast)

/-! ### Guards -/

/-- The system, where an action is taken only if it passes the test. -/
def System.guarded (system : System σ A R ω) (test : A → σ → Bool) : System σ A R ω where
  perform := fun action choice store =>
    if test action store then system.perform action choice store else none
  tick := system.tick

theorem guarded_perform {test : A → σ → Bool} {action : A} {choice : ω} {store : σ}
    {result : R action × σ}
    (h : (system.guarded test).perform action choice store = some result) :
    test action store = true ∧ system.perform action choice store = some result := by
  unfold System.guarded at h
  dsimp only at h
  split at h
  · rename_i htest
    exact ⟨htest, h⟩
  · cases h

/-! ### Serial runs -/

variable {calls : Process A R ε β → Prop}

theorem SerialStep.unguarded {test : A → σ → Bool} {world world' : World σ A R ε β}
    (h : SerialStep (system.guarded test) calls world world') :
    SerialStep system calls world world' := by
  cases h with
  | start hcall => exact .start hcall
  | act choice hperform => exact .act choice (guarded_perform hperform).2
  | tick choice htick => exact .tick choice htick

/-- A serial run under a guard is one without. -/
theorem SerialRun.unguarded {test : A → σ → Bool} {world world' : World σ A R ε β}
    (h : SerialRun (system.guarded test) calls world world') :
    SerialRun system calls world world' :=
  Relation.ReflTransGen.mono (fun _ _ hstep => hstep.unguarded) _ _ h

/-- Induction over a serial run under a guard: an action passes the test and is one that
the call it belongs to owes. What is reached so far may be used. -/
theorem SerialRun.solo (owed : A → σ → Prop) {test : A → σ → Bool} {start : σ}
    (hcalls : ∀ call, calls call → ∀ store, inv store →
      Solo system inv owed (fun _ _ => True) call store)
    (hact : ∀ {tasks action choice answer store store'},
      SerialRun (system.guarded test) calls (World.initial start) ⟨store, tasks⟩ → inv store →
        test action store = true → owed action store →
        system.perform action choice store = some (answer, store') → inv store')
    (htick : ∀ {choice store store'}, inv store → system.tick choice store = some store' →
      inv store')
    (hinv : inv start) {world : World σ A R ε β}
    (hrun : SerialRun (system.guarded test) calls (World.initial start) world) :
    inv world.store := by
  have hall : inv world.store ∧ ∀ past task, world.tasks = past ++ [task] →
      Solo system inv owed (fun _ _ => True) task.rest world.store := by
    induction hrun with
    | refl =>
        refine ⟨hinv, fun past task htasks => ?_⟩
        simp [World.initial] at htasks
    | tail hbefore hstep ih =>
        obtain ⟨hstore, hlast⟩ := ih
        cases hstep with
        | start hcall =>
            refine ⟨hstore, fun past task htasks => ?_⟩
            obtain ⟨-, hnew⟩ := List.append_inj' htasks rfl
            rw [← List.singleton_inj.mp hnew]
            exact hcalls _ hcall _ hstore
        | @act store store' past seen action next answer choice hperform =>
            obtain ⟨htest, hperform⟩ := guarded_perform hperform
            obtain ⟨howed, hrest⟩ := hlast past _ rfl store .refl hstore
            have hstore' := hact hbefore hstore htest howed hperform
            refine ⟨hstore', fun before task htasks => ?_⟩
            obtain ⟨-, hnew⟩ := List.append_inj' htasks rfl
            rw [← List.singleton_inj.mp hnew]
            exact hrest choice answer store' hperform hstore'
        | tick choice hmoved =>
            refine ⟨htick hstore hmoved, fun past task htasks => ?_⟩
            exact (hlast past task htasks).drift (.single ⟨choice, hmoved⟩)
  exact hall.1

end Solo

end WaslaCore.Interleaving
