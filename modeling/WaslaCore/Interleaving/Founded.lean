import WaslaCore.Interleaving.Minted

/-!
Services whose calls store rows under tokens of their own. A contract is given for every store it
may be reckoned from: what a call is told depends on the store it started at. At any point of a
run the reckoning may begin anew, so how a call ends can be told from the store it met when it
started and the store of now.
-/

namespace WaslaCore.Interleaving

variable {σ A : Type} {R : A → Type} {ω ε β τ : Type}

/-- A call remembers what it was told. -/
theorem Keeps.recalls {discipline : Discipline A R} {post : History A R → Except ε β → Prop}
    {call : Process A R ε β} {seen : History A R} (h : Keeps discipline post call seen)
    (hseen : ∀ entry ∈ seen, discipline.told entry.1 entry.2) :
    Keeps discipline (fun later result => post later result ∧
      ∀ entry ∈ later, discipline.told entry.1 entry.2) call seen := by
  induction call generalizing seen with
  | done value => exact ⟨h, hseen⟩
  | fail error => exact ⟨h, hseen⟩
  | act action next ih =>
      refine ⟨h.1, fun answer htold => ih answer (h.2 answer htold) ?_⟩
      intro entry hentry
      rcases List.mem_append.mp hentry with hold | hnew
      · exact hseen entry hold
      · rw [List.mem_singleton.mp hnew]
        exact htold

/-- What the call at a position has returned. -/
def World.returned (world : World σ A R ε β) (index : Nat) : Option β :=
  world.tasks[index]?.bind fun task =>
    match task.rest with
    | .done value => some value
    | _ => none

theorem World.returned_some {world : World σ A R ε β} {index : Nat} {value : β}
    (h : world.returned index = some value) :
    ∃ task, world.tasks[index]? = some task ∧ task.rest = .done value := by
  obtain ⟨task, htask, hrest⟩ := Option.bind_eq_some_iff.mp h
  refine ⟨task, htask, ?_⟩
  split at hrest
  · rename_i done hdone
    rw [hdone, Option.some.inj hrest]
  · cases hrest

/-- The restriction that every run is under: a token is stored where it is not stored yet. -/
def Tokens.storing (tokens : Tokens A R τ) (stored : σ → τ → Prop) (seen : History A R)
    (action : A) (store : σ) : Prop :=
  anything seen action store ∧ ∀ token, tokens.used action = some token → ¬stored store token

/-- A contract for every store to reckon from, and calls that need be told nothing. What they
owe makes their actions lawful. -/
structure Founded (system : System σ A R ω) (calls : Process A R ε β → Prop)
    (tokens : Tokens A R τ) (lawful : A → σ → Prop) (drawn stored : σ → τ → Prop)
    (conduct : Discipline A R) (contract : σ → Contract σ A R) : Prop where
  minted : tokens.Minted system lawful drawn stored
  keeps : ∀ call, calls call → Keeps conduct anyEnd call []
  free : ∀ action answer, conduct.told action answer
  spends : ∀ seen action, conduct.owed seen action → tokens.spending.owed seen action
  owed : ∀ base seen action, conduct.owed seen action ↔ (contract base).owed seen action
  known : ∀ {base store action answer}, (contract base).known action answer store →
    ∀ base', (contract base').known action answer store
  rebase : ∀ {base store}, (contract base).inv store → (contract store).inv store ∧
    ∀ action answer, (contract store).told action answer → (contract base).told action answer
  lawful : ∀ {base seen action store}, (contract base).inv store →
    (∀ entry ∈ seen, (contract base).known entry.1 entry.2 store) → conduct.owed seen action →
    lawful action store
  act : ∀ {base seen action choice answer store store'}, (contract base).inv store →
    (∀ entry ∈ seen, (contract base).known entry.1 entry.2 store) →
    (contract base).owed seen action → tokens.storing stored seen action store →
    system.perform action choice store = some (answer, store') →
    (contract base).told action answer ∧ (contract base).inv store' ∧
      (contract base).guar store store' ∧ (contract base).known action answer store'
  tick : ∀ {base choice store store'}, (contract base).inv store →
    system.tick choice store = some store' →
    (contract base).inv store' ∧ (contract base).guar store store'

namespace Founded

variable {system : System σ A R ω} {calls : Process A R ε β → Prop} {tokens : Tokens A R τ}
variable {lawful : A → σ → Prop} {drawn stored : σ → τ → Prop} {conduct : Discipline A R}
variable {contract : σ → Contract σ A R}
variable {base : σ} {world world' : World σ A R ε β}

theorem keeps_contract (founded : Founded system calls tokens lawful drawn stored conduct contract)
    (base : σ) {post : History A R → Except ε β → Prop} {call : Process A R ε β}
    {seen : History A R} (h : Keeps conduct post call seen) :
    Keeps (contract base).toDiscipline post call seen :=
  h.loosen (fun action answer _ => founded.free action answer)
    fun seen action howed => (founded.owed base seen action).mp howed

theorem upheld (founded : Founded system calls tokens lawful drawn stored conduct contract)
    (base : σ) :
    Upheld (contract base) system calls (tokens.storing stored) where
  call := fun call hcall => founded.keeps_contract base (founded.keeps call hcall)
  act := founded.act
  tick := founded.tick

/-- A point of a run, reckoned from some store. -/
structure Reached (tokens : Tokens A R τ) (drawn stored : σ → τ → Prop)
    (contract : σ → Contract σ A R) (base : σ) (world : World σ A R ε β) : Prop where
  kept : Kept (contract base) world
  spent : tokens.Spent drawn stored world

theorem initial {store : σ} (hinv : (contract store).inv store)
    (hdrawn : ∀ token, stored store token → drawn store token) :
    Reached tokens drawn stored contract store (World.initial store : World σ A R ε β) :=
  ⟨Kept.initial hinv, Tokens.spent_initial hdrawn⟩

theorem step (founded : Founded system calls tokens lawful drawn stored conduct contract)
    (h : Reached tokens drawn stored contract base world)
    (hstep : Step system calls anything world world') :
    Step system calls (tokens.storing stored) world world' ∧
      Reached tokens drawn stored contract base world' := by
  have upheld := founded.upheld base
  cases hstep with
  | start hcall => exact ⟨.start hcall, (upheld.step h.kept (.start hcall)).1, h.spent.start⟩
  | @act _ _ seen action answer hallowed hperforms =>
      have howed := (founded.owed base seen action).mpr (h.kept.orderly.performs hperforms).1
      have hspends := founded.spends _ _ howed
      have hacts : Step system calls (tokens.storing stored) world world' :=
        .act ⟨hallowed, h.spent.fresh hspends hperforms⟩ hperforms
      refine ⟨hacts, (upheld.step h.kept hacts).1, ?_⟩
      apply h.spent.act founded.minted hspends ?_ hperforms
      cases hperforms with
      | @intro store store' before after _ _ next _ choice hperform =>
          exact founded.lawful h.kept.inv (h.kept.known ⟨seen, .act action next⟩ (by simp)) howed
  | @tick store store' tasks choice htick =>
      have hticks : Step system calls (tokens.storing stored) ⟨store, tasks⟩ ⟨store', tasks⟩ :=
        .tick choice htick
      exact ⟨hticks, (upheld.step h.kept hticks).1, h.spent.tick founded.minted htick⟩

theorem run (founded : Founded system calls tokens lawful drawn stored conduct contract)
    (h : Reached tokens drawn stored contract base world)
    (hrun : Run system calls anything world world') :
    Run system calls (tokens.storing stored) world world' ∧
      Reached tokens drawn stored contract base world' := by
  induction hrun with
  | refl => exact ⟨.refl, h⟩
  | tail _ hstep ih =>
      obtain ⟨hstores, hreached⟩ := founded.step ih.2 hstep
      exact ⟨ih.1.tail hstores, hreached⟩

/-- The reckoning begins anew. -/
theorem anew (founded : Founded system calls tokens lawful drawn stored conduct contract)
    (h : Reached tokens drawn stored contract base world) :
    Reached tokens drawn stored contract world.store world := by
  obtain ⟨hinv, htold⟩ := founded.rebase h.kept.inv
  refine ⟨⟨?_, hinv, ?_⟩, h.spent⟩
  · intro task htask
    apply (h.kept.orderly task htask).loosen htold
    intro seen action howed
    exact (founded.owed _ seen action).mp ((founded.owed base seen action).mpr howed)
  · intro task htask entry hentry
    exact founded.known (h.kept.known task htask entry hentry) _

/-- A call that starts at some point of a run: it is told what holds from that point on, and what
it was told it still knows. -/
theorem follows (founded : Founded system calls tokens lawful drawn stored conduct contract)
    (h : Reached tokens drawn stored contract base world) {call : Process A R ε β}
    (hcall : calls call) {post : History A R → Except ε β → Prop}
    (hkeeps : Keeps conduct post call [])
    (hrun : Run system calls anything ⟨world.store, world.tasks ++ [⟨[], call⟩]⟩ world')
    {task : Task A R ε β} (htask : world'.tasks[world.tasks.length]? = some task) :
    Keeps (contract world.store).toDiscipline (fun later result => post later result ∧
        ∀ entry ∈ later, (contract world.store).told entry.1 entry.2) task.rest task.seen ∧
      (∀ entry ∈ task.seen, (contract world.store).known entry.1 entry.2 world'.store) ∧
      (contract world.store).inv world'.store := by
  have hanew := founded.anew h
  have hstarted : Reached tokens drawn stored contract world.store
      ⟨world.store, world.tasks ++ [⟨[], call⟩]⟩ :=
    (founded.run hanew (.single (.start hcall))).2
  have hstoring := (founded.run hstarted hrun).1
  have hrecalls := (founded.keeps_contract world.store hkeeps).recalls
    (fun _ hentry => by cases hentry)
  obtain ⟨hkept, other, hother, hend⟩ := (founded.upheld world.store).follows hanew.kept hcall
    hrecalls (fun _ _ htold => htold) hstoring
  obtain rfl := Option.some.inj (htask.symm.trans hother)
  exact ⟨hend, hkept.known task (List.mem_of_getElem? htask), hkept.inv⟩

end Founded

end WaslaCore.Interleaving
