import WaslaCore.Interleaving.Logic
import Mathlib.Data.List.Nodup

/-!
Tokens that a store hands out to calls. Each is new when it is handed out and a call
uses only its own, so whatever order the calls take their steps in, a token in one
call's hands is in no other's.
-/

namespace WaslaCore.Interleaving

/-- Which tokens an answer hands out, and which token an action uses. -/
structure Tokens (A : Type) (R : A → Type) (τ : Type) where
  issued : (action : A) → R action → List τ
  used : A → Option τ

namespace Tokens

variable {σ A : Type} {R : A → Type} {ω ε β τ : Type}
variable (tokens : Tokens A R τ)

def issuedIn (seen : History A R) : List τ :=
  seen.flatMap (fun entry => tokens.issued entry.1 entry.2)

def usedIn (seen : History A R) : List τ := seen.filterMap (fun entry => tokens.used entry.1)

@[simp] theorem issuedIn_append (seen later : History A R) :
    tokens.issuedIn (seen ++ later) = tokens.issuedIn seen ++ tokens.issuedIn later := by
  simp [issuedIn]

@[simp] theorem issuedIn_cons (action : A) (answer : R action) (seen : History A R) :
    tokens.issuedIn (⟨action, answer⟩ :: seen) =
      tokens.issued action answer ++ tokens.issuedIn seen := rfl

@[simp] theorem issuedIn_nil : tokens.issuedIn [] = [] := rfl

theorem issuedIn_snoc (seen : History A R) (action : A) (answer : R action) :
    tokens.issuedIn (seen ++ [⟨action, answer⟩]) =
      tokens.issuedIn seen ++ tokens.issued action answer := by
  simp [issuedIn]

theorem usedIn_snoc (seen : History A R) (action : A) (answer : R action) :
    tokens.usedIn (seen ++ [⟨action, answer⟩]) =
      tokens.usedIn seen ++ (tokens.used action).toList := by
  unfold usedIn
  rw [List.filterMap_append]
  cases h : tokens.used action with
  | none => simp [h]
  | some token => simp [h]

theorem mem_usedIn_snoc {seen : History A R} {action : A} {answer : R action} {token : τ} :
    token ∈ tokens.usedIn (seen ++ [⟨action, answer⟩]) ↔
      token ∈ tokens.usedIn seen ∨ tokens.used action = some token := by
  simp [usedIn]

/-- No token was handed out twice, the store counts each as drawn, and every call
uses its own. -/
structure Separate (drawn : σ → τ → Prop) (world : World σ A R ε β) : Prop where
  once : (world.tasks.flatMap (fun task => tokens.issuedIn task.seen)).Nodup
  drawn : ∀ task ∈ world.tasks, ∀ token ∈ tokens.issuedIn task.seen, drawn world.store token
  own : ∀ task ∈ world.tasks, ∀ token ∈ tokens.usedIn task.seen, token ∈ tokens.issuedIn task.seen

variable {tokens} {drawn : σ → τ → Prop}

theorem separate_initial (store : σ) :
    tokens.Separate drawn (World.initial store : World σ A R ε β) :=
  ⟨by simp [World.initial], by simp [World.initial], by simp [World.initial]⟩

theorem Separate.start {store : σ} {tasks : List (Task A R ε β)} {call : Process A R ε β}
    (h : tokens.Separate drawn ⟨store, tasks⟩) :
    tokens.Separate drawn ⟨store, tasks ++ [⟨[], call⟩]⟩ := by
  refine ⟨by simpa [issuedIn] using h.once, ?_, ?_⟩
  · intro task htask token htoken
    rcases List.mem_append.mp htask with hold | hnew
    · exact h.drawn task hold token htoken
    · rw [List.mem_singleton.mp hnew] at htoken
      cases htoken
  · intro task htask token htoken
    rcases List.mem_append.mp htask with hold | hnew
    · exact h.own task hold token htoken
    · rw [List.mem_singleton.mp hnew] at htoken
      cases htoken

theorem Separate.tick {store store' : σ} {tasks : List (Task A R ε β)}
    (h : tokens.Separate drawn ⟨store, tasks⟩)
    (hkept : ∀ token, drawn store token → drawn store' token) :
    tokens.Separate drawn ⟨store', tasks⟩ :=
  ⟨h.once, fun task htask token htoken => hkept token (h.drawn task htask token htoken), h.own⟩

private theorem brought_forward (left held new right : List τ) :
    (left ++ (held ++ new ++ right)).Perm (new ++ (left ++ (held ++ right))) := by
  calc left ++ (held ++ new ++ right)
    _ |>.Perm (left ++ (new ++ held ++ right)) :=
        (List.perm_append_comm.append_right right).append_left left
    _ = left ++ new ++ (held ++ right) := by simp
    _ |>.Perm (new ++ left ++ (held ++ right)) := List.perm_append_comm.append_right _
    _ = new ++ (left ++ (held ++ right)) := by simp

/-- An action that hands out only new tokens and uses its call's own keeps every token
in one call's hands. -/
theorem Separate.act {store store' : σ} {before after : List (Task A R ε β)}
    {seen : History A R} {rest rest' : Process A R ε β} {action : A} {answer : R action}
    (h : tokens.Separate drawn ⟨store, before ++ ⟨seen, rest⟩ :: after⟩)
    (hkept : ∀ token, drawn store token → drawn store' token)
    (hnodup : (tokens.issued action answer).Nodup)
    (hissued : ∀ token ∈ tokens.issued action answer, ¬drawn store token ∧ drawn store' token)
    (hused : ∀ token, tokens.used action = some token → token ∈ tokens.issuedIn seen) :
    tokens.Separate drawn
      ⟨store', before ++ ⟨seen ++ [⟨action, answer⟩], rest'⟩ :: after⟩ := by
  have hmember : ∀ task ∈ before ++ after, task ∈ before ++ ⟨seen, rest⟩ :: after := by
    intro task htask
    rcases List.mem_append.mp htask with hbefore | hafter
    · exact List.mem_append_left _ hbefore
    · exact List.mem_append_right _ (List.mem_cons_of_mem _ hafter)
  have hdrawn : ∀ task ∈ before ++ ⟨seen, rest⟩ :: after,
      ∀ token ∈ tokens.issued action answer, token ∉ tokens.issuedIn task.seen :=
    fun task htask token htoken hheld => (hissued token htoken).1 (h.drawn task htask token hheld)
  have hself : (⟨seen, rest⟩ : Task A R ε β) ∈ before ++ ⟨seen, rest⟩ :: after := by simp
  have hcases : ∀ task ∈ before ++ ⟨seen ++ [⟨action, answer⟩], rest'⟩ :: after,
      task ∈ before ++ after ∨ task = ⟨seen ++ [⟨action, answer⟩], rest'⟩ := by
    intro task htask
    rcases List.mem_append.mp htask with hbefore | htail
    · exact .inl (List.mem_append_left _ hbefore)
    · rcases List.mem_cons.mp htail with hsame | hafter
      · exact .inr hsame
      · exact .inl (List.mem_append_right _ hafter)
  refine ⟨?_, ?_, ?_⟩
  · have honce := h.once
    simp only [List.flatMap_append, List.flatMap_cons, issuedIn_snoc] at honce ⊢
    have hperm := brought_forward (before.flatMap (fun task => tokens.issuedIn task.seen))
      (tokens.issuedIn seen) (tokens.issued action answer)
      (after.flatMap (fun task => tokens.issuedIn task.seen))
    refine hperm.nodup_iff.mpr (List.nodup_append'.mpr ⟨hnodup, honce, ?_⟩)
    intro token htoken hheld
    rcases List.mem_append.mp hheld with hbefore | htail
    · obtain ⟨task, htask, hold⟩ := List.mem_flatMap.mp hbefore
      exact hdrawn task (List.mem_append_left _ htask) token htoken hold
    · rcases List.mem_append.mp htail with hmine | hafter
      · exact hdrawn _ hself token htoken hmine
      · obtain ⟨task, htask, hold⟩ := List.mem_flatMap.mp hafter
        exact hdrawn task (List.mem_append_right _ (List.mem_cons_of_mem _ htask)) token htoken hold
  · intro task htask token htoken
    rcases hcases task htask with hother | rfl
    · exact hkept token (h.drawn task (hmember task hother) token htoken)
    · rw [issuedIn_snoc] at htoken
      rcases List.mem_append.mp htoken with hold | hnew
      · exact hkept token (h.drawn _ hself token hold)
      · exact (hissued token hnew).2
  · intro task htask token htoken
    rcases hcases task htask with hother | rfl
    · exact h.own task (hmember task hother) token htoken
    · rw [issuedIn_snoc]
      rcases tokens.mem_usedIn_snoc.mp htoken with hold | hnew
      · exact List.mem_append_left _ (h.own _ hself token hold)
      · exact List.mem_append_left _ (hused token hnew)

/-- A token in one call's hands is in no other's. -/
theorem Separate.others {store : σ} {before after : List (Task A R ε β)} {task other : Task A R ε β}
    {token : τ} (h : tokens.Separate drawn ⟨store, before ++ task :: after⟩)
    (hmine : token ∈ tokens.issuedIn task.seen) (hother : other ∈ before ++ after) :
    token ∉ tokens.issuedIn other.seen := by
  intro htheirs
  have honce := h.once
  simp only [List.flatMap_append, List.flatMap_cons] at honce
  obtain ⟨-, htail, hapart⟩ := List.nodup_append'.mp honce
  obtain ⟨-, -, hapart'⟩ := List.nodup_append'.mp htail
  rcases List.mem_append.mp hother with hbefore | hafter
  · have hleft : token ∈ before.flatMap (fun task => tokens.issuedIn task.seen) :=
      List.mem_flatMap.mpr ⟨other, hbefore, htheirs⟩
    exact hapart hleft (List.mem_append_left _ hmine)
  · have hright : token ∈ after.flatMap (fun task => tokens.issuedIn task.seen) :=
      List.mem_flatMap.mpr ⟨other, hafter, htheirs⟩
    exact hapart' hmine hright

theorem Separate.alone {store : σ} {before after : List (Task A R ε β)} {task other : Task A R ε β}
    {token : τ} (h : tokens.Separate drawn ⟨store, before ++ task :: after⟩)
    (hmine : token ∈ tokens.issuedIn task.seen) (hother : other ∈ before ++ task :: after)
    (htheirs : token ∈ tokens.issuedIn other.seen) : other = task := by
  rcases List.mem_append.mp hother with hbefore | hrest
  · exact absurd htheirs (h.others hmine (List.mem_append_left _ hbefore))
  · rcases List.mem_cons.mp hrest with hsame | hafter
    · exact hsame
    · exact absurd htheirs (h.others hmine (List.mem_append_right _ hafter))

end Tokens

end WaslaCore.Interleaving
