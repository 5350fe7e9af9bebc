import WaslaCore.Interleaving.Batch

/-!
Rows worked through one after another when working a row may raise. `Finishes` reads off a
call what it comes to when it is given certain answers, with no store in between.
`WorksEach` is a batch in isolation: every row is worked, whatever the rows before it came
to. A batch that lets through what a row raises is one exactly while no row raises.
-/

namespace WaslaCore.Interleaving

section Answers

variable {A : Type} {R : A → Type} {ε β γ : Type}

/-- Answered like this, action by action, the call ends in the result. -/
inductive Finishes : Process A R ε β → History A R → Except ε β → Prop where
  | done (value : β) : Finishes (.done value) [] (.ok value)
  | fail (error : ε) : Finishes (.fail error) [] (.error error)
  | act {action next answer rest result} (hrest : Finishes (next answer) rest result) :
      Finishes (.act action next) (⟨action, answer⟩ :: rest) result

@[simp] theorem finishes_done {value : β} {seen : History A R} {result : Except ε β} :
    Finishes (.done value) seen result ↔ seen = [] ∧ result = .ok value := by
  constructor
  · intro h
    cases h
    exact ⟨rfl, rfl⟩
  · rintro ⟨rfl, rfl⟩
    exact .done value

@[simp] theorem finishes_fail {error : ε} {seen : History A R} {result : Except ε β} :
    Finishes (.fail error) seen result ↔ seen = [] ∧ result = .error error := by
  constructor
  · intro h
    cases h
    exact ⟨rfl, rfl⟩
  · rintro ⟨rfl, rfl⟩
    exact .fail error

theorem finishes_act {action : A} {next : R action → Process A R ε β} {seen : History A R}
    {result : Except ε β} :
    Finishes (.act action next) seen result ↔
      ∃ answer rest, seen = ⟨action, answer⟩ :: rest ∧ Finishes (next answer) rest result := by
  constructor
  · intro h
    cases h with
    | @act _ _ answer rest _ hrest => exact ⟨answer, rest, rfl, hrest⟩
  · rintro ⟨answer, rest, rfl, hrest⟩
    exact .act hrest

/-- Sequencing: the answers are those of the first call and then those of the second. -/
theorem finishes_bind {call : Process A R ε β} {next : β → Process A R ε γ} {seen : History A R}
    {result : Except ε γ} :
    Finishes (call >>= next) seen result ↔
      (∃ value first second, seen = first ++ second ∧ Finishes call first (.ok value) ∧
        Finishes (next value) second result) ∨
      ∃ error, Finishes call seen (.error error) ∧ result = .error error := by
  induction call generalizing seen with
  | done value =>
      refine ⟨fun h => .inl ⟨value, [], seen, rfl, .done value, h⟩, ?_⟩
      rintro (⟨_, _, _, rfl, ⟨⟩, hnext⟩ | ⟨_, ⟨⟩, _⟩)
      exact hnext
  | fail error =>
      constructor
      · intro h
        obtain ⟨rfl, rfl⟩ := finishes_fail.mp h
        exact .inr ⟨error, .fail error, rfl⟩
      · rintro (⟨_, _, _, _, ⟨⟩, _⟩ | ⟨_, ⟨⟩, rfl⟩)
        exact .fail error
  | act action cont ih =>
      change Finishes (.act action (fun answer => cont answer >>= next)) seen result ↔ _
      simp only [finishes_act, ih]
      constructor
      · rintro ⟨answer, rest, rfl, ⟨value, first, second, rfl, hcall, hnext⟩ | ⟨error, hcall, hsame⟩⟩
        · exact .inl ⟨value, ⟨action, answer⟩ :: first, second, rfl, ⟨answer, first, rfl, hcall⟩, hnext⟩
        · exact .inr ⟨error, ⟨answer, rest, rfl, hcall⟩, hsame⟩
      · rintro (⟨value, first, second, rfl, ⟨answer, rest, rfl, hcall⟩, hnext⟩ |
          ⟨error, ⟨answer, rest, rfl, hcall⟩, hsame⟩)
        · exact ⟨answer, rest ++ second, rfl, .inl ⟨value, rest, second, rfl, hcall, hnext⟩⟩
        · exact ⟨answer, rest, rfl, .inr ⟨error, hcall, hsame⟩⟩

/-- Once the first call has returned, the second decides. -/
theorem Finishes.bind_ok {call : Process A R ε β} {next : β → Process A R ε γ}
    {first second : History A R} {value : β} {result : Except ε γ}
    (h : Finishes call first (.ok value)) :
    Finishes (call >>= next) (first ++ second) result ↔ Finishes (next value) second result := by
  induction call generalizing first with
  | done other =>
      obtain ⟨rfl, hsame⟩ := finishes_done.mp h
      obtain rfl := Except.ok.inj hsame
      exact Iff.rfl
  | fail error =>
      obtain ⟨-, hsame⟩ := finishes_fail.mp h
      cases hsame
  | act action cont ih =>
      obtain ⟨answer, rest, rfl, hrest⟩ := finishes_act.mp h
      change Finishes (.act action (fun answer => cont answer >>= next))
        (⟨action, answer⟩ :: (rest ++ second)) result ↔ _
      rw [finishes_act]
      constructor
      · rintro ⟨answer', rest', hsame, hcall⟩
        cases hsame
        exact (ih answer hrest).mp hcall
      · intro hnext
        exact ⟨answer, rest ++ second, rfl, (ih answer hrest).mpr hnext⟩

/-- Once the first call has raised, it is over: nothing is asked any more. -/
theorem Finishes.bind_error {call : Process A R ε β} {next : β → Process A R ε γ}
    {first second : History A R} {error : ε} {result : Except ε γ}
    (h : Finishes call first (.error error)) :
    Finishes (call >>= next) (first ++ second) result ↔ second = [] ∧ result = .error error := by
  induction call generalizing first with
  | done value =>
      obtain ⟨-, hsame⟩ := finishes_done.mp h
      cases hsame
  | fail other =>
      obtain ⟨rfl, hsame⟩ := finishes_fail.mp h
      obtain rfl := Except.error.inj hsame
      exact finishes_fail
  | act action cont ih =>
      obtain ⟨answer, rest, rfl, hrest⟩ := finishes_act.mp h
      change Finishes (.act action (fun answer => cont answer >>= next))
        (⟨action, answer⟩ :: (rest ++ second)) result ↔ _
      rw [finishes_act]
      constructor
      · rintro ⟨answer', rest', hsame, hcall⟩
        cases hsame
        exact (ih answer hrest).mp hcall
      · intro hend
        exact ⟨answer, rest ++ second, rfl, (ih answer hrest).mpr hend⟩

end Answers

/-! ### Rows in isolation -/

section Rows

variable {A : Type} {R : A → Type} {ε β ρ : Type}

/-- One row worked: the answers it got, and what it came to. -/
structure Attempt (A : Type) (R : A → Type) (ε β : Type) where
  seen : History A R
  outcome : Except ε β

/-- The account after a row: one that raised leaves it as it was. -/
def Attempt.account (attempt : Attempt A R ε β) (account : β) : β :=
  match attempt.outcome with
  | .ok after => after
  | .error _ => account

def Attempt.raised (attempt : Attempt A R ε β) : Bool :=
  match attempt.outcome with
  | .ok _ => false
  | .error _ => true

/-- Every row is worked, whatever the rows before it came to. -/
inductive WorksEach (each : ρ → β → Process A R ε β) :
    List ρ → β → List (Attempt A R ε β) → β → Prop where
  | nil (account : β) : WorksEach each [] account [] account
  | cons {row rest account attempt attempts last}
      (hrow : Finishes (each row account) attempt.seen attempt.outcome)
      (hrest : WorksEach each rest (attempt.account account) attempts last) :
      WorksEach each (row :: rest) account (attempt :: attempts) last

variable {each : ρ → β → Process A R ε β} {rows : List ρ} {account last : β}
  {attempts : List (Attempt A R ε β)}

/-- A batch in which no row raises works every row. -/
theorem WorksEach.finishes (h : WorksEach each rows account attempts last)
    (hcalm : ∀ attempt ∈ attempts, attempt.raised = false) :
    Finishes (workEach each rows account) (attempts.flatMap Attempt.seen) (.ok last) := by
  induction h with
  | nil account => exact .done account
  | @cons row rest account attempt attempts last hrow hrest ih =>
      have hmine := hcalm attempt List.mem_cons_self
      have hothers := ih fun other hother => hcalm other (List.mem_cons_of_mem _ hother)
      obtain ⟨seen, outcome⟩ := attempt
      cases outcome with
      | error error => cases hmine
      | ok after => exact hrow.bind_ok.mpr hothers

/-- A batch raises what the first row to raise does, and no row after it is worked. -/
theorem WorksEach.raises {before after : List (Attempt A R ε β)} {seen : History A R} {error : ε}
    (h : WorksEach each rows account (before ++ ⟨seen, .error error⟩ :: after) last)
    (hcalm : ∀ attempt ∈ before, attempt.raised = false) :
    Finishes (workEach each rows account) (before.flatMap Attempt.seen ++ seen)
      (.error error) := by
  induction before generalizing rows account with
  | nil =>
      cases h with
      | @cons row rest _ _ _ _ hrow hrest =>
          have hraised : Finishes (each row account >>= workEach each rest) (seen ++ [])
              (.error error) := hrow.bind_error.mpr ⟨rfl, rfl⟩
          rw [List.append_nil] at hraised
          exact hraised
  | cons attempt before ih =>
      have hmine := hcalm attempt List.mem_cons_self
      cases h with
      | @cons row rest _ _ _ _ hrow hrest =>
          have hothers := ih hrest fun other hother => hcalm other (List.mem_cons_of_mem _ hother)
          obtain ⟨own, outcome⟩ := attempt
          cases outcome with
          | error error => cases hmine
          | ok middle =>
              have hraised : Finishes (each row account >>= workEach each rest)
                  (own ++ (before.flatMap Attempt.seen ++ seen)) (.error error) :=
                hrow.bind_ok.mpr hothers
              rw [← List.append_assoc] at hraised
              exact hraised

/-- A batch works its rows in isolation exactly where none of them raises. -/
theorem WorksEach.finishes_iff (h : WorksEach each rows account attempts last) :
    Finishes (workEach each rows account) (attempts.flatMap Attempt.seen) (.ok last) ↔
      ∀ attempt ∈ attempts, attempt.raised = false := by
  refine ⟨?_, h.finishes⟩
  induction h with
  | nil account => intro _ attempt hattempt; cases hattempt
  | @cons row rest account attempt attempts last hrow hrest ih =>
      intro hfinishes
      obtain ⟨seen, outcome⟩ := attempt
      cases outcome with
      | error error =>
          have hover := hrow.bind_error.mp hfinishes
          cases hover.2
      | ok middle =>
          intro other hother
          rcases List.mem_cons.mp hother with rfl | hlater
          · rfl
          · exact ih (hrow.bind_ok.mp hfinishes) other hlater

end Rows

end WaslaCore.Interleaving
