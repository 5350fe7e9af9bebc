import WaslaCore.Interleaving.Tokens

/-!
Tokens that calls store. A token is drawn, held by the call it was drawn for, and stored by it at
most once; so, in whatever order the calls take their steps, a token that is about to be stored is
stored nowhere yet.
-/

namespace WaslaCore.Interleaving

namespace Tokens

variable {σ A : Type} {R : A → Type} {ω ε β τ : Type}

/-- A call stores only tokens of its own, and each of them once. -/
def spending (tokens : Tokens A R τ) : Discipline A R where
  told := fun _ _ => True
  owed := fun seen action =>
    ∀ token, tokens.used action = some token →
      token ∈ tokens.issuedIn seen ∧ token ∉ tokens.usedIn seen

/-- The store hands out each token once, and a token gets stored by its use alone, as long as
the actions are lawful. -/
structure Minted (tokens : Tokens A R τ) (system : System σ A R ω) (lawful : A → σ → Prop)
    (drawn stored : σ → τ → Prop) : Prop where
  issued : ∀ {action choice store answer store'},
    system.perform action choice store = some (answer, store') →
      (tokens.issued action answer).Nodup ∧
        ∀ token ∈ tokens.issued action answer, ¬drawn store token ∧ drawn store' token
  kept : ∀ {action choice store answer store'},
    system.perform action choice store = some (answer, store') →
      ∀ token, drawn store token → drawn store' token
  stores : ∀ {action choice store answer store'}, lawful action store →
    system.perform action choice store = some (answer, store') →
      ∀ token, stored store' token → stored store token ∨ tokens.used action = some token
  ticks : ∀ {choice store store'}, system.tick choice store = some store' → ∀ token,
    (drawn store token → drawn store' token) ∧ (stored store' token → stored store token)

/-- What is stored was drawn, and whoever holds it has used it. -/
structure Spent (tokens : Tokens A R τ) (drawn stored : σ → τ → Prop) (world : World σ A R ε β) :
    Prop where
  separate : tokens.Separate drawn world
  drawn : ∀ token, stored world.store token → drawn world.store token
  used : ∀ token, stored world.store token → ∀ task ∈ world.tasks,
    token ∈ tokens.issuedIn task.seen → token ∈ tokens.usedIn task.seen

variable {tokens : Tokens A R τ} {system : System σ A R ω} {lawful : A → σ → Prop}
variable {drawn stored : σ → τ → Prop}

theorem spent_initial {store : σ} (h : ∀ token, stored store token → drawn store token) :
    tokens.Spent drawn stored (World.initial store : World σ A R ε β) :=
  ⟨separate_initial store, h, by simp [World.initial]⟩

theorem Spent.start {store : σ} {tasks : List (Task A R ε β)} {call : Process A R ε β}
    (h : tokens.Spent drawn stored ⟨store, tasks⟩) :
    tokens.Spent drawn stored ⟨store, tasks ++ [⟨[], call⟩]⟩ := by
  refine ⟨h.separate.start, h.drawn, ?_⟩
  intro token hstored task htask hissued
  rcases List.mem_append.mp htask with hold | hnew
  · exact h.used token hstored task hold hissued
  · rw [List.mem_singleton.mp hnew] at hissued
    cases hissued

/-- A token that a call may store stands nowhere yet. -/
theorem Spent.fresh {world world' : World σ A R ε β} {seen : History A R} {action : A}
    {answer : R action} (h : tokens.Spent drawn stored world)
    (howed : tokens.spending.owed seen action)
    (hstep : Performs system world seen action answer world') :
    ∀ token, tokens.used action = some token → ¬stored world.store token := by
  intro token htoken hstored
  obtain ⟨hmine, hunused⟩ := howed token htoken
  cases hstep with
  | @intro store store' before after seen action next answer choice hperform =>
      exact hunused (h.used token hstored ⟨seen, .act action next⟩ (by simp) hmine)

theorem Spent.act (minted : tokens.Minted system lawful drawn stored)
    {world world' : World σ A R ε β} {seen : History A R} {action : A} {answer : R action}
    (h : tokens.Spent drawn stored world) (howed : tokens.spending.owed seen action)
    (hlawful : lawful action world.store)
    (hstep : Performs system world seen action answer world') :
    tokens.Spent drawn stored world' := by
  cases hstep with
  | @intro store store' before after seen action next answer choice hperform =>
      have hkept := minted.kept hperform
      obtain ⟨hnodup, hissued⟩ := minted.issued hperform
      have hself : (⟨seen, .act action next⟩ : Task A R ε β) ∈
          before ++ ⟨seen, .act action next⟩ :: after := by simp
      have hdrawn : ∀ token, stored store' token → drawn store token := by
        intro token hstored
        rcases minted.stores hlawful hperform token hstored with hold | hused
        · exact h.drawn token hold
        · exact h.separate.drawn _ hself token (howed token hused).1
      refine ⟨h.separate.act hkept hnodup hissued (fun token hused => (howed token hused).1),
        fun token hstored => hkept token (hdrawn token hstored), ?_⟩
      intro token hstored task htask hheld
      rcases List.mem_append.mp htask with hbefore | hrest
      · rcases minted.stores hlawful hperform token hstored with hold | hused
        · exact h.used token hold task (List.mem_append_left _ hbefore) hheld
        · exact absurd hheld (h.separate.others (howed token hused).1
            (List.mem_append_left _ hbefore))
      · rcases List.mem_cons.mp hrest with rfl | hafter
        · rw [issuedIn_snoc] at hheld
          rw [mem_usedIn_snoc]
          rcases minted.stores hlawful hperform token hstored with hold | hused
          · rcases List.mem_append.mp hheld with hmine | hnew
            · exact .inl (h.used token hold _ hself hmine)
            · exact absurd (h.drawn token hold) (hissued token hnew).1
          · exact .inr hused
        · rcases minted.stores hlawful hperform token hstored with hold | hused
          · exact h.used token hold task
              (List.mem_append_right _ (List.mem_cons_of_mem _ hafter)) hheld
          · exact absurd hheld (h.separate.others (howed token hused).1
              (List.mem_append_right _ hafter))

theorem Spent.tick (minted : tokens.Minted system lawful drawn stored) {choice : ω}
    {store store' : σ} {tasks : List (Task A R ε β)} (h : tokens.Spent drawn stored ⟨store, tasks⟩)
    (htick : system.tick choice store = some store') :
    tokens.Spent drawn stored ⟨store', tasks⟩ := by
  have hmoved := minted.ticks htick
  exact ⟨h.separate.tick fun token => (hmoved token).1,
    fun token hstored => (hmoved token).1 (h.drawn token ((hmoved token).2 hstored)),
    fun token hstored => h.used token ((hmoved token).2 hstored)⟩

end Tokens

end WaslaCore.Interleaving
