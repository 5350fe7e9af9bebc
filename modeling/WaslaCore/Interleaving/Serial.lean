import WaslaCore.Interleaving.Logic

/-!
Serial runs: of the calls started so far only the last one acts. A call may end,
be refused, or be given up half way before the next one starts, and the
environment may move at any point. What an answer told the last call is undisturbed
by any other, so a property of its own history and the store is maintained by its
own steps.
-/

namespace WaslaCore.Interleaving

section Serial

variable {σ A : Type} {R : A → Type} {ω ε β : Type}

/-- One step of a serial run. -/
inductive SerialStep (system : System σ A R ω) (calls : Process A R ε β → Prop) :
    World σ A R ε β → World σ A R ε β → Prop where
  | start {store tasks call} (hcall : calls call) :
      SerialStep system calls ⟨store, tasks⟩ ⟨store, tasks ++ [⟨[], call⟩]⟩
  | act {store store' past seen action next answer} (choice : ω)
      (hperform : system.perform action choice store = some (answer, store')) :
      SerialStep system calls ⟨store, past ++ [⟨seen, .act action next⟩]⟩
        ⟨store', past ++ [⟨seen ++ [⟨action, answer⟩], next answer⟩]⟩
  | tick {store store' tasks} (choice : ω) (htick : system.tick choice store = some store') :
      SerialStep system calls ⟨store, tasks⟩ ⟨store', tasks⟩

/-- Any finite serial run. -/
abbrev SerialRun (system : System σ A R ω) (calls : Process A R ε β → Prop) :
    World σ A R ε β → World σ A R ε β → Prop :=
  Relation.ReflTransGen (SerialStep system calls)

variable {system : System σ A R ω} {calls : Process A R ε β → Prop}

theorem SerialStep.step {world world' : World σ A R ε β}
    (h : SerialStep system calls world world') : Step system calls anything world world' := by
  cases h with
  | start hcall => exact .start hcall
  | act choice hperform => exact .act trivial (.intro choice hperform)
  | tick choice htick => exact .tick choice htick

/-- A serial run is a run. -/
theorem SerialRun.run {world world' : World σ A R ε β}
    (h : SerialRun system calls world world') : Run system calls anything world world' :=
  Relation.ReflTransGen.mono (fun _ _ hstep => hstep.step) _ _ h

/-- What holds of the store, and with it of the history of the call that may act. -/
structure Serially (inv : σ → Prop) (J : History A R → σ → Prop) (world : World σ A R ε β) :
    Prop where
  inv : inv world.store
  last : ∀ past task, world.tasks = past ++ [task] → J task.seen world.store

/-- Induction over a serial run of calls that keep a contract: the history of the
call that acts is related to the store by its own steps and by the environment's. -/
theorem SerialRun.maintains {contract : Contract σ A R}
    (upheld : Upheld contract system calls anything) {inv : σ → Prop} {J : History A R → σ → Prop}
    (hstart : ∀ {store}, inv store → J [] store)
    (hact : ∀ {seen action choice answer store store'}, contract.inv store → contract.inv store' →
      (∀ entry ∈ seen, contract.known entry.1 entry.2 store) → contract.owed seen action →
      system.perform action choice store = some (answer, store') → inv store → J seen store →
      inv store' ∧ J (seen ++ [⟨action, answer⟩]) store')
    (htick : ∀ {seen choice store store'}, contract.inv store →
      system.tick choice store = some store' → inv store → J seen store →
      inv store' ∧ J seen store')
    {world world' : World σ A R ε β} (hkept : Kept contract world) (h : Serially inv J world)
    (hrun : SerialRun system calls world world') :
    Kept contract world' ∧ Serially inv J world' := by
  induction hrun with
  | refl => exact ⟨hkept, h⟩
  | tail _ hstep ih =>
      obtain ⟨hkept, hserial⟩ := ih
      have hkept' := (upheld.step hkept hstep.step).1
      refine ⟨hkept', ?_⟩
      cases hstep with
      | start hcall =>
          refine ⟨hserial.inv, fun past task htasks => ?_⟩
          obtain ⟨-, hlast⟩ := List.append_inj' htasks rfl
          rw [← List.singleton_inj.mp hlast]
          exact hstart hserial.inv
      | @act store store' past seen action next answer choice hperform =>
          have hmember : (⟨seen, .act action next⟩ : Task A R ε β) ∈
              past ++ [⟨seen, .act action next⟩] := by simp
          have howed := (hkept.orderly _ hmember).1
          obtain ⟨hinv, hJ⟩ := hact hkept.inv hkept'.inv (hkept.known _ hmember) howed hperform
            hserial.inv (hserial.last past _ rfl)
          refine ⟨hinv, fun before task htasks => ?_⟩
          obtain ⟨-, hlast⟩ := List.append_inj' htasks rfl
          rw [← List.singleton_inj.mp hlast]
          exact hJ
      | @tick store store' tasks choice hmoved =>
          have hmoves : ∀ {seen}, J seen store → inv store' ∧ J seen store' :=
            fun hJ => htick hkept.inv hmoved hserial.inv hJ
          exact ⟨(hmoves (hstart hserial.inv)).1,
            fun past task htasks => (hmoves (hserial.last past task htasks)).2⟩

/-- Every action of the schedule is one of the call started last; `started` calls
have started before it. -/
def serialMoves (started : Nat) : List (Move A R ω ε β) → Bool
  | [] => true
  | .start _ :: rest => serialMoves (started + 1) rest
  | .act index _ :: rest => index + 1 = started && serialMoves started rest
  | .tick _ :: rest => serialMoves started rest

/-- A schedule whose actions are all of the last call plays a serial run. -/
theorem play_serial {moves : List (Move A R ω ε β)} {world world' : World σ A R ε β}
    (h : play system unrestricted moves world = some world')
    (hcalls : ∀ call, Move.start call ∈ moves → calls call)
    (hserial : serialMoves world.tasks.length moves = true) :
    SerialRun system calls world world' := by
  induction moves generalizing world with
  | nil =>
      simp only [play, Option.some.injEq] at h
      subst h
      exact .refl
  | cons move moves ih =>
      simp only [play] at h
      split at h
      · rename_i middle hmove
        have hlater := ih h (fun call hcall => hcalls call (List.mem_cons_of_mem _ hcall))
        obtain ⟨store, tasks⟩ := world
        cases move with
        | start call =>
            simp only [Move.apply, Option.some.injEq] at hmove
            subst hmove
            refine Relation.ReflTransGen.head (.start (hcalls call List.mem_cons_self)) (hlater ?_)
            simpa [serialMoves] using hserial
        | act index choice =>
            simp only [serialMoves, Bool.and_eq_true, decide_eq_true_eq] at hserial
            simp only [Move.apply] at hmove
            split at hmove
            · rename_i store' tasks' hadvance
              simp only [Option.some.injEq] at hmove
              subst hmove
              obtain ⟨past, after, seen, action, next, answer, rfl, rfl, rfl, -, hperform⟩ :=
                advance_performs hadvance
              obtain rfl : after = [] := by
                have := hserial.1
                simp only [List.length_append, List.length_cons] at this
                exact List.length_eq_zero_iff.mp (by omega)
              refine Relation.ReflTransGen.head (.act choice hperform) (hlater ?_)
              simpa using hserial.2
            · cases hmove
        | tick choice =>
            simp only [Move.apply] at hmove
            split at hmove
            · rename_i store' htick
              simp only [Option.some.injEq] at hmove
              subst hmove
              exact Relation.ReflTransGen.head (.tick choice htick) (hlater hserial)
            · cases hmove
      · cases h

end Serial

end WaslaCore.Interleaving
