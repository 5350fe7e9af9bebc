import WaslaCore.Interleaving.Process

/-!
Reasoning about calls that share a store. A `Discipline` says what every answer
tells a call and what a call owes at each action it takes, given what it has
seen. `Keeps` follows one call through every answer it may get, so it needs no
store. A `Contract` adds the store: its invariant, a preorder every step stays
in, and what an old answer still tells about the store of now. Each rule is
proved for one step and then for every run, whatever the order of the actions.
-/

namespace WaslaCore.Interleaving

/-- `told` holds of every answer a call gets; `owed` is what a call that has
`seen` its history must make true of the next action it takes. -/
structure Discipline (A : Type) (R : A → Type) where
  told : (action : A) → R action → Prop
  owed : History A R → A → Prop

section Calls

variable {A : Type} {R : A → Type} {ε β γ : Type} {discipline : Discipline A R}

/-- The call owes nothing it does not pay, from here on, and ends as `post` says. -/
def Keeps (discipline : Discipline A R) (post : History A R → Except ε β → Prop) :
    Process A R ε β → History A R → Prop
  | .done value, seen => post seen (.ok value)
  | .fail error, seen => post seen (.error error)
  | .act action next, seen =>
      discipline.owed seen action ∧
        ∀ answer, discipline.told action answer →
          Keeps discipline post (next answer) (seen ++ [⟨action, answer⟩])

/-- Nothing is claimed about how a call ends. -/
def anyEnd (_ : History A R) (_ : Except ε β) : Prop := True

@[simp] theorem keeps_done {post : History A R → Except ε β → Prop} {value : β}
    {seen : History A R} :
    Keeps discipline post (.done value) seen ↔ post seen (.ok value) := Iff.rfl

@[simp] theorem keeps_fail {post : History A R → Except ε β → Prop} {error : ε}
    {seen : History A R} :
    Keeps discipline post (.fail error) seen ↔ post seen (.error error) := Iff.rfl

theorem Keeps.mono {post post' : History A R → Except ε β → Prop}
    {call : Process A R ε β} {seen : History A R}
    (h : Keeps discipline post call seen)
    (hpost : ∀ later result, post later result → post' later result) :
    Keeps discipline post' call seen := by
  induction call generalizing seen with
  | done value => exact hpost _ _ h
  | fail error => exact hpost _ _ h
  | act action next ih =>
      exact ⟨h.1, fun answer htold => ih answer (h.2 answer htold)⟩

/-- What a call ends in by two accounts holds together. -/
theorem Keeps.and {p q : History A R → Except ε β → Prop} {call : Process A R ε β}
    {seen : History A R} (hp : Keeps discipline p call seen) (hq : Keeps discipline q call seen) :
    Keeps discipline (fun later result => p later result ∧ q later result) call seen := by
  induction call generalizing seen with
  | done value => exact ⟨hp, hq⟩
  | fail error => exact ⟨hp, hq⟩
  | act action next ih =>
      exact ⟨hp.1, fun answer htold => ih answer (hp.2 answer htold) (hq.2 answer htold)⟩

/-- What is owed by two accounts, told as the first tells it. -/
def Discipline.and (first second : Discipline A R) : Discipline A R where
  told := first.told
  owed := fun seen action => first.owed seen action ∧ second.owed seen action

/-- A call that keeps two disciplines keeps them together. -/
theorem Keeps.meet {discipline' : Discipline A R} {p q : History A R → Except ε β → Prop}
    {call : Process A R ε β} {seen : History A R} (hp : Keeps discipline p call seen)
    (hq : Keeps discipline' q call seen)
    (htold : ∀ action answer, discipline.told action answer → discipline'.told action answer) :
    Keeps (discipline.and discipline') (fun later result => p later result ∧ q later result) call
      seen := by
  induction call generalizing seen with
  | done value => exact ⟨hp, hq⟩
  | fail error => exact ⟨hp, hq⟩
  | act action next ih =>
      exact ⟨⟨hp.1, hq.1⟩, fun answer hanswer =>
        ih answer (hp.2 answer hanswer) (hq.2 answer (htold action answer hanswer))⟩

/-- Whatever a call does, it only adds to what it has seen. -/
theorem Keeps.grows {post : History A R → Except ε β → Prop} {call : Process A R ε β}
    {seen : History A R} (h : Keeps discipline post call seen) :
    Keeps discipline (fun later result => seen <+: later ∧ post later result) call seen := by
  induction call generalizing seen with
  | done value => exact ⟨List.prefix_refl seen, h⟩
  | fail error => exact ⟨List.prefix_refl seen, h⟩
  | act action next ih =>
      refine ⟨h.1, fun answer htold => (ih answer (h.2 answer htold)).mono ?_⟩
      rintro later result ⟨hgrown, hpost⟩
      exact ⟨(List.prefix_append seen _).trans hgrown, hpost⟩

/-- Sequencing: the first call's value starts the second, its error ends both. -/
theorem keeps_bind {post : History A R → Except ε γ → Prop}
    {call : Process A R ε β} {next : β → Process A R ε γ} {seen : History A R} :
    Keeps discipline post (call >>= next) seen ↔
      Keeps discipline (fun later result =>
        match result with
        | .ok value => Keeps discipline post (next value) later
        | .error error => post later (.error error)) call seen := by
  induction call generalizing seen with
  | done value => exact Iff.rfl
  | fail error => exact Iff.rfl
  | act action cont ih =>
      exact and_congr_right fun _ => forall_congr' fun answer => imp_congr_right fun _ =>
        ih answer

/-- `try … catch`: an error of the body starts the handler where it was raised. -/
theorem keeps_tryCatch {post : History A R → Except ε β → Prop}
    {call : Process A R ε β} {handler : ε → Process A R ε β} {seen : History A R} :
    Keeps discipline post (tryCatch call handler) seen ↔
      Keeps discipline (fun later result =>
        match result with
        | .ok value => post later (.ok value)
        | .error error => Keeps discipline post (handler error) later) call seen := by
  induction call generalizing seen with
  | done value => exact Iff.rfl
  | fail error => exact Iff.rfl
  | act action cont ih =>
      exact and_congr_right fun _ => forall_congr' fun answer => imp_congr_right fun _ =>
        ih answer

/-- Running a second call after the first, from what the first is known to end in. -/
theorem Keeps.bind {p : History A R → Except ε β → Prop} {q : History A R → Except ε γ → Prop}
    {call : Process A R ε β} {next : β → Process A R ε γ} {seen : History A R}
    (h : Keeps discipline p call seen)
    (hok : ∀ later value, p later (.ok value) → Keeps discipline q (next value) later)
    (herror : ∀ later error, p later (.error error) → q later (.error error)) :
    Keeps discipline q (call >>= next) seen := by
  rw [keeps_bind]
  apply h.mono
  intro later result hresult
  cases result with
  | ok value => exact hok later value hresult
  | error error => exact herror later error hresult

/-- Catching the first call's error, from what the first is known to end in. -/
theorem Keeps.tryCatch {p q : History A R → Except ε β → Prop}
    {call : Process A R ε β} {handler : ε → Process A R ε β} {seen : History A R}
    (h : Keeps discipline p call seen)
    (hok : ∀ later value, p later (.ok value) → q later (.ok value))
    (herror : ∀ later error, p later (.error error) →
      Keeps discipline q (handler error) later) :
    Keeps discipline q (tryCatch call handler) seen := by
  rw [keeps_tryCatch]
  apply h.mono
  intro later result hresult
  cases result with
  | ok value => exact hok later value hresult
  | error error => exact herror later error hresult

/-- The call performs no `shunned` action, whatever it is answered. -/
def Avoids (shunned : A → Prop) : Process A R ε β → Prop
  | .done _ => True
  | .fail _ => True
  | .act action next => ¬shunned action ∧ ∀ answer, Avoids shunned (next answer)

theorem Avoids.mono {shunned shunned' : A → Prop} {call : Process A R ε β}
    (h : Avoids shunned call) (hless : ∀ action, shunned' action → shunned action) :
    Avoids shunned' call := by
  induction call with
  | done value => trivial
  | fail error => trivial
  | act action next ih =>
      exact ⟨fun hshunned => h.1 (hless action hshunned), fun answer => ih answer (h.2 answer)⟩

/-- No call performs what is no action of it. -/
theorem avoids_impossible {shunned : A → Prop} (h : ∀ action, ¬shunned action)
    (call : Process A R ε β) : Avoids shunned call := by
  induction call with
  | done value => trivial
  | fail error => trivial
  | act action next ih => exact ⟨h action, ih⟩

theorem avoids_bind {shunned : A → Prop} {call : Process A R ε β}
    {next : β → Process A R ε γ} (h : Avoids shunned call)
    (hnext : ∀ value, Avoids shunned (next value)) : Avoids shunned (call >>= next) := by
  induction call with
  | done value => exact hnext value
  | fail error => trivial
  | act action cont ih => exact ⟨h.1, fun answer => ih answer (h.2 answer)⟩

theorem avoids_tryCatch {shunned : A → Prop} {call : Process A R ε β}
    {handler : ε → Process A R ε β} (h : Avoids shunned call)
    (hhandler : ∀ error, Avoids shunned (handler error)) :
    Avoids shunned (tryCatch call handler) := by
  induction call with
  | done value => trivial
  | fail error => exact hhandler error
  | act action cont ih => exact ⟨h.1, fun answer => ih answer (h.2 answer)⟩

/-- What the call returns, whatever it is answered, where it returns at all. -/
def Yields (P : β → Prop) : Process A R ε β → Prop
  | .done value => P value
  | .fail _ => True
  | .act _ next => ∀ answer, Yields P (next answer)

theorem Yields.bind {P : β → Prop} {Q : γ → Prop} {call : Process A R ε β}
    {next : β → Process A R ε γ} (h : Yields P call)
    (hnext : ∀ value, P value → Yields Q (next value)) : Yields Q (call >>= next) := by
  induction call with
  | done value => exact hnext value h
  | fail error => trivial
  | act action cont ih => exact fun answer => ih answer (h answer)

/-- Nothing need be known of what comes before. -/
theorem yields_bind {Q : γ → Prop} {call : Process A R ε β} {next : β → Process A R ε γ}
    (hnext : ∀ value, Yields Q (next value)) : Yields Q (call >>= next) := by
  induction call with
  | done value => exact hnext value
  | fail error => trivial
  | act action cont ih => exact fun answer => ih answer

/-- The rest of a call may be judged by what the first part returns. -/
theorem Yields.avoids_bind {shunned : A → Prop} {P : β → Prop} {call : Process A R ε β}
    {next : β → Process A R ε γ} (h : Yields P call) (havoids : Avoids shunned call)
    (hnext : ∀ value, P value → Avoids shunned (next value)) : Avoids shunned (call >>= next) := by
  induction call with
  | done value => exact hnext value h
  | fail error => trivial
  | act action cont ih => exact ⟨havoids.1, fun answer => ih answer (h answer) (havoids.2 answer)⟩

/-- A call that avoids what is owed for adds only such entries to its history. -/
theorem Avoids.keeps {shunned : A → Prop} {call : Process A R ε β} (h : Avoids shunned call)
    (howed : ∀ seen action, ¬shunned action → discipline.owed seen action)
    (seen : History A R) :
    Keeps discipline (fun later _ => ∃ rest, later = seen ++ rest ∧
      ∀ entry ∈ rest, ¬shunned entry.1) call seen := by
  induction call generalizing seen with
  | done value => exact ⟨[], by simp, by simp⟩
  | fail error => exact ⟨[], by simp, by simp⟩
  | act action next ih =>
      refine ⟨howed seen action h.1, fun answer _ => ?_⟩
      refine (ih answer (h.2 answer) (seen ++ [⟨action, answer⟩])).mono ?_
      rintro later result ⟨rest, rfl, hrest⟩
      refine ⟨⟨action, answer⟩ :: rest, by simp, ?_⟩
      intro entry hentry
      rcases List.mem_cons.mp hentry with rfl | hmember
      · exact h.1
      · exact hrest entry hmember

/-- What a call that avoids what is owed for ends in, it ends in under any other
discipline that tells it as much. -/
theorem Keeps.avoiding {discipline' : Discipline A R} {shunned : A → Prop}
    {post : History A R → Except ε β → Prop} {call : Process A R ε β} {seen : History A R}
    (h : Keeps discipline post call seen) (havoids : Avoids shunned call)
    (htold : ∀ action answer, discipline'.told action answer → discipline.told action answer)
    (howed : ∀ seen action, ¬shunned action → discipline'.owed seen action) :
    Keeps discipline' post call seen := by
  induction call generalizing seen with
  | done value => exact h
  | fail error => exact h
  | act action next ih =>
      refine ⟨howed seen action havoids.1, fun answer hanswer => ?_⟩
      exact ih answer (h.2 answer (htold action answer hanswer)) (havoids.2 answer)

/-- A call that keeps a discipline keeps one that is told as much and owed less. -/
theorem Keeps.loosen {discipline' : Discipline A R} {post : History A R → Except ε β → Prop}
    {call : Process A R ε β} {seen : History A R} (h : Keeps discipline post call seen)
    (htold : ∀ action answer, discipline'.told action answer → discipline.told action answer)
    (howed : ∀ seen action, discipline.owed seen action → discipline'.owed seen action) :
    Keeps discipline' post call seen := by
  induction call generalizing seen with
  | done value => exact h
  | fail error => exact h
  | act action next ih =>
      exact ⟨howed seen action h.1, fun answer hanswer =>
        ih answer (h.2 answer (htold action answer hanswer))⟩

end Calls

section Runs

variable {σ A : Type} {R : A → Type} {ω ε β : Type}
variable {system : System σ A R ω} {calls : Process A R ε β → Prop}
variable {allowed : History A R → A → σ → Prop} {discipline : Discipline A R}

/-- What holds of every history still does when one call's history is replaced by
another it holds of. -/
theorem forall_seen_replace {P : History A R → Prop} {before after : List (Task A R ε β)}
    {task task' : Task A R ε β} (h : ∀ other ∈ before ++ task :: after, P other.seen)
    (hnew : P task'.seen) : ∀ other ∈ before ++ task' :: after, P other.seen := by
  intro other hother
  rcases List.mem_append.mp hother with hbefore | hrest
  · exact h other (List.mem_append_left _ hbefore)
  · rcases List.mem_cons.mp hrest with rfl | hafter
    · exact hnew
    · exact h other (List.mem_append_right _ (List.mem_cons_of_mem _ hafter))

/-- Replacing one call's history by a longer one shortens no history. -/
theorem exists_seen_replace {before after : List (Task A R ε β)} {task task' : Task A R ε β}
    (hgrown : task.seen <+: task'.seen) :
    ∀ other ∈ before ++ task :: after, ∃ other' ∈ before ++ task' :: after,
      other.seen <+: other'.seen := by
  intro other hother
  rcases List.mem_append.mp hother with hbefore | hrest
  · exact ⟨other, List.mem_append_left _ hbefore, List.prefix_refl _⟩
  · rcases List.mem_cons.mp hrest with rfl | hafter
    · exact ⟨task', by simp, hgrown⟩
    · exact ⟨other, List.mem_append_right _ (List.mem_cons_of_mem _ hafter), List.prefix_refl _⟩

/-- Every call in progress keeps the discipline from where it is. -/
def Orderly (discipline : Discipline A R) (world : World σ A R ε β) : Prop :=
  ∀ task ∈ world.tasks, Keeps discipline anyEnd task.rest task.seen

theorem orderly_initial (store : σ) :
    Orderly discipline (World.initial store : World σ A R ε β) := by
  simp [Orderly, World.initial]

/-- An action of a run pays what its call owed, and an answer the discipline
foresaw leaves every call orderly. -/
theorem Orderly.performs {world world' : World σ A R ε β} {seen : History A R} {action : A}
    {answer : R action} (h : Orderly discipline world)
    (hstep : Performs system world seen action answer world') :
    discipline.owed seen action ∧
      (discipline.told action answer → Orderly discipline world') := by
  cases hstep with
  | @intro store store' before after seen action next answer choice hperform =>
      have hkeeps := h ⟨seen, .act action next⟩ (by simp)
      refine ⟨hkeeps.1, fun htold task htask => ?_⟩
      rcases List.mem_append.mp htask with hbefore | hrest
      · exact h task (List.mem_append_left _ hbefore)
      · rcases List.mem_cons.mp hrest with rfl | hafter
        · exact hkeeps.2 answer htold
        · exact h task (List.mem_append_right _ (List.mem_cons_of_mem _ hafter))

/-- Induction over a run of orderly calls: what starts, actions and ticks each
preserve holds at the end. -/
theorem Run.maintains {I : World σ A R ε β → Prop} {world world' : World σ A R ε β}
    (hcalls : ∀ call, calls call → Keeps discipline anyEnd call [])
    (hstart : ∀ {store tasks call}, calls call → I ⟨store, tasks⟩ →
      I ⟨store, tasks ++ [⟨[], call⟩]⟩)
    (hact : ∀ {world world' seen action answer}, I world → discipline.owed seen action →
      allowed seen action world.store → Performs system world seen action answer world' →
      discipline.told action answer ∧ I world')
    (htick : ∀ {store store' tasks choice}, I ⟨store, tasks⟩ →
      system.tick choice store = some store' → I ⟨store', tasks⟩)
    (horderly : Orderly discipline world) (hI : I world)
    (hrun : Run system calls allowed world world') :
    Orderly discipline world' ∧ I world' := by
  induction hrun with
  | refl => exact ⟨horderly, hI⟩
  | tail _ hstep ih =>
      obtain ⟨horderly', hI'⟩ := ih
      cases hstep with
      | start hcall =>
          refine ⟨?_, hstart hcall hI'⟩
          intro task htask
          rcases List.mem_append.mp htask with hold | hnew
          · exact horderly' task hold
          · rw [List.mem_singleton.mp hnew]
            exact hcalls _ hcall
      | act hallowed hperforms =>
          obtain ⟨howed, hnext⟩ := horderly'.performs hperforms
          obtain ⟨htold, hI''⟩ := hact hI' howed hallowed hperforms
          exact ⟨hnext htold, hI''⟩
      | tick choice hmoved => exact ⟨horderly', htick hI' hmoved⟩

/-- What every action and every tick keeps of the store holds at the end of a run,
whatever the calls are. -/
theorem Run.stored {I : σ → Prop} {world world' : World σ A R ε β}
    (hact : ∀ {seen action choice answer store store'}, I store → allowed seen action store →
      system.perform action choice store = some (answer, store') → I store')
    (htick : ∀ {choice store store'}, I store → system.tick choice store = some store' → I store')
    (hI : I world.store) (hrun : Run system calls allowed world world') : I world'.store := by
  induction hrun with
  | refl => exact hI
  | tail _ hstep ih =>
      cases hstep with
      | start _ => exact ih
      | act hallowed hperforms =>
          cases hperforms with
          | intro choice hperform => exact hact ih hallowed hperform
      | tick choice hmoved => exact htick ih hmoved

/-- A restricted run is a run. -/
theorem Run.unrestrict {world world' : World σ A R ε β}
    (hrun : Run system calls allowed world world') : Run system calls anything world world' := by
  induction hrun with
  | refl => exact .refl
  | tail _ hstep ih =>
      refine .tail ih ?_
      cases hstep with
      | start hcall => exact .start hcall
      | act _ hperforms => exact .act trivial hperforms
      | tick choice hmoved => exact .tick choice hmoved

/-- What every answered action adds to a history holds of every history of a run. -/
theorem Run.remembers {P : History A R → Prop} {store : σ} {world : World σ A R ε β}
    (hcalls : ∀ call, calls call → Keeps discipline anyEnd call [])
    (htold : ∀ {action choice answer store store'},
      system.perform action choice store = some (answer, store') →
        discipline.told action answer)
    (hnil : P [])
    (hsnoc : ∀ {seen action answer}, P seen → discipline.owed seen action →
      discipline.told action answer → P (seen ++ [⟨action, answer⟩]))
    (hrun : Run system calls allowed (World.initial store) world) :
    ∀ task ∈ world.tasks, P task.seen := by
  refine (Run.maintains (I := fun world => ∀ task ∈ world.tasks, P task.seen) hcalls ?_ ?_ ?_
    (orderly_initial store) (by simp [World.initial]) hrun).2
  · intro store tasks call _ hall task htask
    rcases List.mem_append.mp htask with hold | hnew
    · exact hall task hold
    · rw [List.mem_singleton.mp hnew]
      exact hnil
  · intro before after seen action answer hall howed _ hperforms
    cases hperforms with
    | @intro store store' earlier later seen action next answer choice hperform =>
        exact ⟨htold hperform, forall_seen_replace hall
          (hsnoc (hall ⟨seen, .act action next⟩ (by simp)) howed (htold hperform))⟩
  · intro store store' tasks choice hall _
    exact hall

/-- Every call of a run is on its way to the end it keeps. -/
theorem Run.ends {post : History A R → Except ε β → Prop} {store : σ} {world : World σ A R ε β}
    (hcalls : ∀ call, calls call → Keeps discipline post call [])
    (htold : ∀ {action choice answer store store'},
      system.perform action choice store = some (answer, store') →
        discipline.told action answer)
    (hrun : Run system calls allowed (World.initial store) world) :
    ∀ task ∈ world.tasks, Keeps discipline post task.rest task.seen := by
  induction hrun with
  | refl => simp [World.initial]
  | tail _ hstep ih =>
      cases hstep with
      | start hcall =>
          intro task htask
          rcases List.mem_append.mp htask with hold | hnew
          · exact ih task hold
          · rw [List.mem_singleton.mp hnew]
            exact hcalls _ hcall
      | @act _ _ seen action answer hallowed hperforms =>
          cases hperforms with
          | @intro store store' before after seen action next answer choice hperform =>
              intro task htask
              rcases List.mem_append.mp htask with hbefore | hrest
              · exact ih task (List.mem_append_left _ hbefore)
              · rcases List.mem_cons.mp hrest with rfl | hafter
                · have hmine := ih ⟨seen, .act action next⟩
                    (List.mem_append_right _ List.mem_cons_self)
                  exact hmine.2 answer (htold hperform)
                · exact ih task (List.mem_append_right _ (List.mem_cons_of_mem _ hafter))
      | tick choice hmoved => exact ih

end Runs

/-- What holds of the store at every point of a run, what every step stays in,
and what an answer, once given, tells about every later store. -/
structure Contract (σ A : Type) (R : A → Type) extends Discipline A R where
  inv : σ → Prop
  guar : σ → σ → Prop
  guar_refl : ∀ store, guar store store
  guar_trans : ∀ {first second third}, guar first second → guar second third → guar first third
  known : (action : A) → R action → σ → Prop
  known_stable : ∀ {action answer store store'}, guar store store' →
    known action answer store → known action answer store'

section Contracts

variable {σ A : Type} {R : A → Type} {ω ε β : Type}
variable {system : System σ A R ω} {calls : Process A R ε β → Prop}
variable {allowed : History A R → A → σ → Prop} {contract : Contract σ A R}

/-- What upholding a contract takes: every call that may start keeps the
discipline, one action and one tick stay inside the contract. -/
structure Upheld (contract : Contract σ A R) (system : System σ A R ω)
    (calls : Process A R ε β → Prop) (allowed : History A R → A → σ → Prop) : Prop where
  call : ∀ call, calls call → Keeps contract.toDiscipline anyEnd call []
  act : ∀ {seen action choice answer store store'}, contract.inv store →
    (∀ entry ∈ seen, contract.known entry.1 entry.2 store) →
    contract.owed seen action → allowed seen action store →
    system.perform action choice store = some (answer, store') →
    contract.told action answer ∧ contract.inv store' ∧ contract.guar store store' ∧
      contract.known action answer store'
  tick : ∀ {choice store store'}, contract.inv store →
    system.tick choice store = some store' → contract.inv store' ∧ contract.guar store store'

/-- The contract as a fact about a world: calls orderly, store good, and every
answer any call ever got still telling. -/
structure Kept (contract : Contract σ A R) (world : World σ A R ε β) : Prop where
  orderly : Orderly contract.toDiscipline world
  inv : contract.inv world.store
  known : ∀ task ∈ world.tasks, ∀ entry ∈ task.seen, contract.known entry.1 entry.2 world.store

theorem Kept.initial {store : σ} (hinv : contract.inv store) :
    Kept contract (World.initial store : World σ A R ε β) :=
  ⟨orderly_initial store, hinv, by simp [World.initial]⟩

/-- One step of an upheld contract keeps it and stays in its guarantee. -/
theorem Upheld.step (upheld : Upheld contract system calls allowed)
    {world world' : World σ A R ε β} (h : Kept contract world)
    (hstep : Step system calls allowed world world') :
    Kept contract world' ∧ contract.guar world.store world'.store := by
  cases hstep with
  | @start store tasks call hcall =>
      refine ⟨⟨?_, h.inv, ?_⟩, contract.guar_refl store⟩
      · intro task htask
        rcases List.mem_append.mp htask with hold | hnew
        · exact h.orderly task hold
        · rw [List.mem_singleton.mp hnew]
          exact upheld.call call hcall
      · intro task htask entry hentry
        rcases List.mem_append.mp htask with hold | hnew
        · exact h.known task hold entry hentry
        · rw [List.mem_singleton.mp hnew] at hentry
          cases hentry
  | @act _ _ seen action answer hallowed hperforms =>
      obtain ⟨howed, hnext⟩ := h.orderly.performs hperforms
      cases hperforms with
      | @intro store store' before after seen action next answer choice hperform =>
          have hseen := h.known ⟨seen, .act action next⟩ (by simp)
          obtain ⟨htold, hinv, hguar, hknown⟩ :=
            upheld.act h.inv hseen howed hallowed hperform
          refine ⟨⟨hnext htold, hinv, ?_⟩, hguar⟩
          intro task htask entry hentry
          rcases List.mem_append.mp htask with hbefore | hrest
          · exact contract.known_stable hguar
              (h.known task (List.mem_append_left _ hbefore) entry hentry)
          · rcases List.mem_cons.mp hrest with rfl | hafter
            · rcases List.mem_append.mp hentry with hold | hnew
              · exact contract.known_stable hguar (hseen entry hold)
              · rw [List.mem_singleton.mp hnew]
                exact hknown
            · exact contract.known_stable hguar
                (h.known task (List.mem_append_right _ (List.mem_cons_of_mem _ hafter))
                  entry hentry)
  | @tick store store' tasks choice htick =>
      obtain ⟨hinv, hguar⟩ := upheld.tick h.inv htick
      refine ⟨⟨h.orderly, hinv, ?_⟩, hguar⟩
      intro task htask entry hentry
      exact contract.known_stable hguar (h.known task htask entry hentry)

/-- Every run keeps an upheld contract, whatever the order of its steps. -/
theorem Upheld.run (upheld : Upheld contract system calls allowed)
    {world world' : World σ A R ε β} (h : Kept contract world)
    (hrun : Run system calls allowed world world') :
    Kept contract world' ∧ contract.guar world.store world'.store := by
  induction hrun with
  | refl => exact ⟨h, contract.guar_refl _⟩
  | tail _ hstep ih =>
      obtain ⟨hkept, hguar⟩ := upheld.step ih.1 hstep
      exact ⟨hkept, contract.guar_trans ih.2 hguar⟩

/-- Every action of an upheld run pays what its call owes. -/
theorem Upheld.run_owing (upheld : Upheld contract system calls allowed)
    {world world' : World σ A R ε β} (h : Kept contract world)
    (hrun : Run system calls allowed world world') :
    Run system calls (fun seen action store => allowed seen action store ∧
      contract.owed seen action) world world' := by
  induction hrun with
  | refl => exact .refl
  | tail hbefore hstep ih =>
      refine .tail ih ?_
      have hkept := (upheld.run h hbefore).1
      cases hstep with
      | start hcall => exact .start hcall
      | act hallowed hperforms =>
          exact .act ⟨hallowed, (hkept.orderly.performs hperforms).1⟩ hperforms
      | tick choice htick => exact .tick choice htick

/-- What every answered action adds to a history holds of every history of an
upheld run. -/
theorem Upheld.remembers (upheld : Upheld contract system calls allowed)
    {P : History A R → Prop} {world world' : World σ A R ε β} (h : Kept contract world)
    (hP : ∀ task ∈ world.tasks, P task.seen) (hnil : P [])
    (hsnoc : ∀ {seen action answer}, P seen → contract.owed seen action →
      contract.told action answer → P (seen ++ [⟨action, answer⟩]))
    (hrun : Run system calls allowed world world') :
    Kept contract world' ∧ ∀ task ∈ world'.tasks, P task.seen := by
  induction hrun with
  | refl => exact ⟨h, hP⟩
  | tail _ hstep ih =>
      obtain ⟨hkept, hall⟩ := ih
      refine ⟨(upheld.step hkept hstep).1, ?_⟩
      cases hstep with
      | start hcall =>
          intro task htask
          rcases List.mem_append.mp htask with hold | hnew
          · exact hall task hold
          · rw [List.mem_singleton.mp hnew]
            exact hnil
      | @act _ _ seen action answer hallowed hperforms =>
          have howed := (hkept.orderly.performs hperforms).1
          cases hperforms with
          | @intro store store' before after _ _ next _ choice hperform =>
              have hmember : (⟨seen, .act action next⟩ : Task A R ε β) ∈
                  before ++ ⟨seen, .act action next⟩ :: after := by simp
              have hseen := hkept.known ⟨seen, .act action next⟩ hmember
              have hacted := upheld.act hkept.inv hseen howed hallowed hperform
              exact forall_seen_replace hall (hsnoc (hall _ hmember) howed hacted.1)
      | tick choice htick => exact hall

/-- The contract, with more asked of its calls. -/
def Contract.owing (contract : Contract σ A R) (discipline : Discipline A R) : Contract σ A R :=
  { contract with toDiscipline := contract.toDiscipline.and discipline }

theorem Upheld.owing (upheld : Upheld contract system calls allowed) {discipline : Discipline A R}
    (hcalls : ∀ call, calls call → Keeps discipline anyEnd call [])
    (htold : ∀ action answer, contract.told action answer → discipline.told action answer) :
    Upheld (contract.owing discipline) system calls allowed where
  call := fun call hcall =>
    ((upheld.call call hcall).meet (hcalls call hcall) htold).mono (fun _ _ _ => trivial)
  act := fun hinv hseen howed hallowed hperform =>
    upheld.act hinv hseen howed.1 hallowed hperform
  tick := fun hinv htick => upheld.tick hinv htick

/-- The call at one position keeps a discipline of its own. -/
def Follows (discipline : Discipline A R) (post : History A R → Except ε β → Prop) (index : Nat)
    (world : World σ A R ε β) : Prop :=
  ∃ task, world.tasks[index]? = some task ∧ Keeps discipline post task.rest task.seen

/-- One step leaves every call at its position, and the one that acts keeps its
discipline if the answer is one it foresaw. -/
theorem Follows.step {discipline : Discipline A R} {post : History A R → Except ε β → Prop}
    {index : Nat} {world world' : World σ A R ε β} (h : Follows discipline post index world)
    (hstep : Step system calls allowed world world')
    (htold : ∀ {seen action answer}, allowed seen action world.store →
      Performs system world seen action answer world' → discipline.told action answer) :
    Follows discipline post index world' := by
  obtain ⟨task, htask, hkeeps⟩ := h
  cases hstep with
  | @start store tasks call hcall =>
      have hbound := (List.getElem?_eq_some_iff.mp htask).1
      exact ⟨task, by rw [List.getElem?_append_left hbound]; exact htask, hkeeps⟩
  | @act _ _ seen action answer hallowed hperforms =>
      have hanswer := htold hallowed hperforms
      cases hperforms with
      | @intro store store' before after seen action next answer choice hperform =>
          dsimp only at htask
          rcases Nat.lt_trichotomy index before.length with hless | rfl | hmore
          · refine ⟨task, ?_, hkeeps⟩
            rw [List.getElem?_append_left hless] at htask ⊢
            exact htask
          · simp only [List.getElem?_append_right (Nat.le_refl _), Nat.sub_self,
              List.getElem?_cons_zero, Option.some.injEq] at htask
            subst htask
            refine ⟨⟨seen ++ [⟨action, answer⟩], next answer⟩, by simp, hkeeps.2 answer hanswer⟩
          · refine ⟨task, ?_, hkeeps⟩
            obtain ⟨past, rfl⟩ : ∃ past, index = before.length + (past + 1) :=
              ⟨index - before.length - 1, by omega⟩
            simp only [List.getElem?_append_right (Nat.le_add_right _ _), Nat.add_sub_cancel_left,
              List.getElem?_cons_succ] at htask ⊢
            exact htask
  | tick choice htick => exact ⟨task, htask, hkeeps⟩

/-- A call that starts keeps its own discipline throughout an upheld run. -/
theorem Upheld.follows (upheld : Upheld contract system calls allowed)
    {discipline : Discipline A R} {post : History A R → Except ε β → Prop}
    {world world' : World σ A R ε β} {call : Process A R ε β} (h : Kept contract world)
    (hcall : calls call) (hkeeps : Keeps discipline post call [])
    (htold : ∀ action answer, contract.told action answer → discipline.told action answer)
    (hrun : Run system calls allowed ⟨world.store, world.tasks ++ [⟨[], call⟩]⟩ world') :
    Kept contract world' ∧ Follows discipline post world.tasks.length world' := by
  have hstart : Kept contract (⟨world.store, world.tasks ++ [⟨[], call⟩]⟩ : World σ A R ε β) :=
    (upheld.step h (.start hcall)).1
  have hfollows : Follows discipline post world.tasks.length
      (⟨world.store, world.tasks ++ [⟨[], call⟩]⟩ : World σ A R ε β) :=
    ⟨⟨[], call⟩, by simp, hkeeps⟩
  induction hrun with
  | refl => exact ⟨hstart, hfollows⟩
  | @tail middle last _ hstep ih =>
      refine ⟨(upheld.step ih.1 hstep).1, ih.2.step hstep ?_⟩
      intro seen action answer hallowed hperforms
      have howed := (ih.1.orderly.performs hperforms).1
      cases hperforms with
      | @intro store store' before after _ _ next _ choice hperform =>
          have hseen := ih.1.known ⟨seen, .act action next⟩ (by simp)
          exact htold _ _ (upheld.act ih.1.inv hseen howed hallowed hperform).1

end Contracts

end WaslaCore.Interleaving
