import WaslaCore.Interleaving.Logic

/-!
Rows worked through one after another, with an account kept of how each of them ended.
What a call settled is read off its history. A batch settles its rows in their order, and
its account is what those settlements come to.
-/

namespace WaslaCore.Interleaving

section Batches

variable {A : Type} {R : A → Type} {ε β γ ρ κ S : Type}

/-- What the entries of a history settled, in order. -/
def settledIn (settles : (action : A) × R action → Option S) (seen : History A R) : List S :=
  seen.filterMap settles

/-- The discipline that tells nothing and asks for nothing. -/
def Discipline.free : Discipline A R := ⟨fun _ _ => True, fun _ _ => True⟩

/-- What the call raises, whatever it is answered, where it raises at all. -/
def Raises (P : ε → Prop) : Process A R ε β → Prop
  | .done _ => True
  | .fail error => P error
  | .act _ next => ∀ answer, Raises P (next answer)

/-- One row after another, each handed the account so far. -/
def workEach (each : ρ → β → Process A R ε β) : List ρ → β → Process A R ε β
  | [], account => pure account
  | row :: rest, account => do
      let account ← each row account
      workEach each rest account

theorem raises_bind {P : ε → Prop} {call : Process A R ε β} {next : β → Process A R ε γ}
    (h : Raises P call) (hnext : ∀ value, Raises P (next value)) : Raises P (call >>= next) := by
  induction call with
  | done value => exact hnext value
  | fail error => exact h
  | act action cont ih => exact fun answer => ih answer (h answer)

/-- What the handler raises is all that is raised. -/
theorem raises_tryCatch {P : ε → Prop} {call : Process A R ε β} {handler : ε → Process A R ε β}
    (hhandler : ∀ error, Raises P (handler error)) : Raises P (tryCatch call handler) := by
  induction call with
  | done value => trivial
  | fail error => exact hhandler error
  | act action cont ih => exact fun answer => ih answer

theorem Raises.keeps {P : ε → Prop} {call : Process A R ε β} (h : Raises P call)
    (seen : History A R) :
    Keeps Discipline.free (fun _ result => ∀ error, result = .error error → P error) call seen := by
  induction call generalizing seen with
  | done value => exact fun error herror => nomatch herror
  | fail error =>
      rintro error' ⟨⟩
      exact h
  | act action next ih => exact ⟨trivial, fun answer _ => ih answer (h answer) _⟩

/-- What a call returned, if it has. -/
def Task.returned (task : Task A R ε β) : Option β :=
  match task.rest with
  | .done value => some value
  | _ => none

theorem Task.returned_eq_some {task : Task A R ε β} {value : β} :
    task.returned = some value ↔ task.rest = .done value := by
  unfold Task.returned
  cases hrest : task.rest with
  | done other => simp
  | fail error => simp
  | act action next => simp

variable {settles : (action : A) × R action → Option S}

theorem settledIn_append (seen rest : History A R) :
    settledIn settles (seen ++ rest) = settledIn settles seen ++ settledIn settles rest :=
  List.filterMap_append

/-- A call that avoids what settles anything settles nothing. -/
theorem Avoids.settles_nothing {shunned : A → Prop} {call : Process A R ε β}
    (h : Avoids shunned call) (hsettles : ∀ entry, ¬shunned entry.1 → settles entry = none)
    (seen : History A R) :
    Keeps Discipline.free
      (fun later _ => settledIn settles later = settledIn settles seen) call seen := by
  refine (h.keeps (fun _ _ _ => trivial) seen).mono ?_
  rintro later result ⟨rest, rfl, hrest⟩
  have hnone : settledIn settles rest = [] :=
    List.filterMap_eq_nil_iff.mpr fun entry hentry => hsettles entry (hrest entry hentry)
  rw [settledIn_append, hnone, List.append_nil]

/-- If the call returns, it settled one thing, about the row in hand, and its account
differs by that. -/
def SettlesOne (settles : (action : A) × R action → Option S) (about : S → κ)
    (count : β → S → β) (key : κ) (account : β) (seen : History A R)
    (call : Process A R ε β) : Prop :=
  Keeps Discipline.free (fun later result => ∀ account', result = .ok account' →
    ∃ settled, settledIn settles later = settledIn settles seen ++ [settled] ∧
      about settled = key ∧ account' = count account settled) call seen

/-- A batch whose rows each settle one thing settles them all, in order, and its account
is what they come to. -/
theorem workEach_settles {about : S → κ} {count : β → S → β} {key : ρ → κ}
    {each : ρ → β → Process A R ε β}
    (heach : ∀ row account seen, SettlesOne settles about count (key row) account seen
      (each row account)) (rows : List ρ) (account : β) (seen : History A R) :
    Keeps Discipline.free (fun later result => ∀ account', result = .ok account' →
      ∃ settled, settledIn settles later = settledIn settles seen ++ settled ∧
        settled.map about = rows.map key ∧ account' = settled.foldl count account)
      (workEach each rows account) seen := by
  induction rows generalizing account seen with
  | nil =>
      rintro account' ⟨⟩
      exact ⟨[], (List.append_nil _).symm, rfl, rfl⟩
  | cons row rest ih =>
      refine (heach row account seen).bind ?_ ?_
      · intro later value hvalue
        obtain ⟨first, hfirst, habout, rfl⟩ := hvalue value rfl
        apply (ih (count account first) later).mono
        rintro last result hresult account' hsame
        obtain ⟨settled, hsettled, hkeys, hcount⟩ := hresult account' hsame
        refine ⟨first :: settled, ?_, ?_, hcount⟩
        · rw [hsettled, hfirst, List.append_assoc]
          rfl
        · rw [List.map_cons, List.map_cons, habout, hkeys]
      · rintro later error - account' ⟨⟩

theorem workEach_avoids {shunned : A → Prop} {each : ρ → β → Process A R ε β}
    (heach : ∀ row account, Avoids shunned (each row account)) (rows : List ρ) (account : β) :
    Avoids shunned (workEach each rows account) := by
  induction rows generalizing account with
  | nil => trivial
  | cons row rest ih => exact avoids_bind (heach row account) fun account' => ih account'

/-- A batch of rows handed over at its start reports on those rows: what it settled is
about them, in order, and its account is what that comes to. -/
theorem workEach_reports {shunned : A → Prop} {about : S → κ} {count : β → S → β} {key : ρ → κ}
    {handed : (action : A) × R action → List κ} {each : ρ → β → Process A R ε β}
    (heach : ∀ row account seen, SettlesOne settles about count (key row) account seen
      (each row account))
    (havoids : ∀ row account, Avoids shunned (each row account))
    (hhanded : ∀ entry, ¬shunned entry.1 → handed entry = []) {rows : List ρ} {account : β}
    {seen : History A R} (hnone : settledIn settles seen = [])
    (hseen : seen.flatMap handed = rows.map key) :
    Keeps Discipline.free (fun later result => ∀ account', result = .ok account' →
      (settledIn settles later).map about = later.flatMap handed ∧
        account' = (settledIn settles later).foldl count account)
      (workEach each rows account) seen := by
  have hadded : Keeps Discipline.free (fun later _ => ∃ rest, later = seen ++ rest ∧
      ∀ entry ∈ rest, ¬shunned entry.1) (workEach each rows account) seen :=
    (workEach_avoids havoids rows account).keeps (fun _ _ _ => trivial) seen
  apply ((workEach_settles heach rows account seen).and hadded).mono
  rintro later result ⟨hsettled, rest, rfl, hrest⟩ account' rfl
  obtain ⟨settled, hin, hkeys, hcount⟩ := hsettled account' rfl
  have hquiet : rest.flatMap handed = [] :=
    List.flatMap_eq_nil_iff.mpr fun entry hentry => hhanded entry (hrest entry hentry)
  rw [hin, hnone, List.nil_append]
  refine ⟨?_, hcount⟩
  rw [List.flatMap_append, hquiet, List.append_nil, hseen, hkeys]

end Batches

end WaslaCore.Interleaving
