import WaslaCore.Platform.Journal

/-!
`withTransaction` over the in-memory boundary. While a body prepares its unit of work
other calls may write; once it commits, nothing else does. What it staged lands as a
whole or not at all, and what it recorded outside stays.
-/

namespace WaslaCore.Platform.InMemory

open Data Interleaving

/-- What a body may do: read the stores, or write to the audit log out of band. -/
inductive Preparation where
  | look
  | record (entry : AuditEntry)

@[reducible] def Preparation.Answer (N α : Type) : Preparation → Type
  | .look => Memory N α
  | .record _ => Except Thrown Unit

/-- `UnitOfWork`: what the body staged. An event is the key and the row its append
writes. -/
structure Staged (N α : Type) where
  mutations : List (Mutation N α Unit)
  audits : List AuditEntry
  events : List (String × α)

abbrev Body (N α β : Type) :=
  Process Preparation (Preparation.Answer N α) Thrown (Staged N α × β)

/-- What the backend checks of an audit entry and of an outbox row. -/
structure Backend (N α : Type) where
  outbox : N
  assertAudit : AuditEntry → Except Thrown Unit
  assertOutbox : String × α → Memory N α → Except Thrown Unit

section UnitOfWork

variable {N α β : Type} [DecidableEq N]

def record (backend : Backend N α) (entry : AuditEntry) : Mutation N α Unit :=
  .act (.append entry (backend.assertAudit entry)) fun
    | .ok () => .done ()
    | .error error => .fail error

/-- An event already in the outbox is left as it is. -/
def append (backend : Backend N α) (event : String × α) : Mutation N α Unit :=
  .act (.put (fun memory =>
      if ((memory.stores backend.outbox).get event.1).isSome then .ok none
      else .ok (some (backend.outbox, event))) (backend.assertOutbox event)) fun
    | .ok _ => .done ()
    | .error error => .fail error

def inOrder {γ : Type} (step : γ → Mutation N α Unit) : List γ → Mutation N α Unit
  | [] => pure ()
  | first :: rest => do
      step first
      inOrder step rest

/-- The commit point: mutations, audit entries, events. -/
def commitPhase (backend : Backend N α) (staged : Staged N α) (result : β) : Mutation N α β := do
  inOrder (fun mutation => mutation) staged.mutations
  inOrder (record backend) staged.audits
  inOrder (append backend) staged.events
  pure result

/-- A body up to its end, with the writes of other calls that land meanwhile:
`outside` is every write until then, `kept` the entries this body recorded. -/
inductive Prepares (backend : Backend N α) : Body N α β → Memory N α → List (Write N α) →
    List AuditEntry → Memory N α → Except Thrown (Staged N α × β) → Prop where
  | done {staged memory} : Prepares backend (.done staged) memory [] [] memory (.ok staged)
  | fail {error memory} : Prepares backend (.fail error) memory [] [] memory (.error error)
  | elsewhere {body memory outside kept middle result} (write : Write N α) :
      Prepares backend body (memory.write write) outside kept middle result →
      Prepares backend body memory (write :: outside) kept middle result
  | look {next memory outside kept middle result} :
      Prepares backend (next memory) memory outside kept middle result →
      Prepares backend (.act .look next) memory outside kept middle result
  | recorded {entry next memory outside kept middle result} :
      backend.assertAudit entry = .ok () →
      Prepares backend (next (.ok ())) (memory.write (.entry entry.recorded)) outside kept middle
        result →
      Prepares backend (.act (.record entry) next) memory (.entry entry.recorded :: outside)
        (entry.recorded :: kept) middle result
  | refused {entry next memory outside kept middle result error} :
      backend.assertAudit entry = .error error →
      Prepares backend (next (.error error)) memory outside kept middle result →
      Prepares backend (.act (.record entry) next) memory outside kept middle result

/-- How the boundary ends once the body has. -/
def completed (backend : Backend N α) (prepared : Except Thrown (Staged N α × β))
    (memory : Memory N α) : Except Thrown β × Memory N α :=
  match prepared with
  | .error error => (.error error, memory.rollback MemoryJournal.empty.undo)
  | .ok (staged, result) => boundaryRun (commitPhase backend staged result) .empty memory

/-! ### What lands -/

/-- What the mutations write, each on what the ones before it left. -/
def landed : List (Mutation N α Unit) → Memory N α → List (Write N α)
  | [], _ => []
  | mutation :: rest, memory =>
      writesOf mutation memory ++ landed rest (memory.writeAll (writesOf mutation memory))

/-- What the events write: a row each, but for one already stored. -/
def appended (backend : Backend N α) : List (String × α) → Memory N α → List (Write N α)
  | [], _ => []
  | event :: rest, memory =>
      if ((memory.stores backend.outbox).get event.1).isSome then appended backend rest memory
      else .row backend.outbox event.1 event.2 ::
        appended backend rest (memory.write (.row backend.outbox event.1 event.2))

/-- How the work ends, but for the checks put off to the commit. -/
def resultOf : Mutation N α β → Memory N α → Except Thrown β
  | .done value, _ => .ok value
  | .fail error, _ => .error error
  | .act statement next, memory =>
      resultOf (next (statement.effect memory).1) (statement.after memory)

theorem boundaryRun_result {work : Mutation N α β} {journal : MemoryJournal N α}
    {memory after : Memory N α} {value : β}
    (h : boundaryRun work journal memory = (.ok value, after)) : resultOf work memory = .ok value := by
  induction work generalizing journal memory with
  | done result =>
      simp only [boundaryRun] at h
      split at h
      · exact (Prod.mk.inj h).1
      · cases h
  | fail error => cases (Prod.mk.inj h).1
  | act statement next ih => exact ih _ h

/-- Two pieces of work one after the other: both went through, and both wrote. -/
theorem sequence_ok {γ : Type} {work : Mutation N α γ} {next : γ → Mutation N α β}
    {memory : Memory N α} {value : β} (h : resultOf (work >>= next) memory = .ok value) :
    ∃ middle, resultOf work memory = .ok middle ∧
      resultOf (next middle) (memory.writeAll (writesOf work memory)) = .ok value ∧
      writesOf (work >>= next) memory =
        writesOf work memory ++ writesOf (next middle) (memory.writeAll (writesOf work memory)) := by
  induction work generalizing memory with
  | done result => exact ⟨result, rfl, h, rfl⟩
  | fail error => cases h
  | act statement cont ih =>
      obtain ⟨middle, hfirst, hsecond, hwrites⟩ := ih _ h
      have hboth : memory.writeAll ((statement.effect memory).2.toList ++
          writesOf (cont (statement.effect memory).1) (statement.after memory)) =
          (statement.after memory).writeAll
            (writesOf (cont (statement.effect memory).1) (statement.after memory)) :=
        Memory.writeAll_append _ _ _
      refine ⟨middle, hfirst, ?_, ?_⟩
      · simp only [writesOf]
        rw [hboth]
        exact hsecond
      · simp only [writesOf]
        rw [hboth, List.append_assoc, ← hwrites]
        rfl

theorem mutations_landed {mutations : List (Mutation N α Unit)} {memory : Memory N α}
    (h : resultOf (inOrder (fun mutation => mutation) mutations) memory = .ok ()) :
    writesOf (inOrder (fun mutation => mutation) mutations) memory = landed mutations memory := by
  induction mutations generalizing memory with
  | nil => rfl
  | cons first rest ih =>
      obtain ⟨middle, -, hrest, hwrites⟩ := sequence_ok h
      rw [inOrder, hwrites, ih hrest, landed]

theorem audits_landed {backend : Backend N α} {audits : List AuditEntry} {memory : Memory N α}
    (h : resultOf (inOrder (record backend) audits) memory = .ok ()) :
    writesOf (inOrder (record backend) audits) memory =
      audits.map (fun entry => .entry entry.recorded) := by
  induction audits generalizing memory with
  | nil => rfl
  | cons first rest ih =>
      obtain ⟨middle, hfirst, hrest, hwrites⟩ := sequence_ok h
      rw [inOrder, hwrites, ih hrest, List.map_cons]
      simp only [record, resultOf, writesOf, Statement.effect] at hfirst ⊢
      cases hrules : backend.assertAudit first with
      | error error =>
          rw [hrules] at hfirst
          cases hfirst
      | ok _ => rfl

/-- One append: nothing where the event is stored already, its row where it is not. -/
theorem append_landed {backend : Backend N α} {event : String × α} {memory : Memory N α}
    (h : resultOf (append backend event) memory = .ok ()) :
    writesOf (append backend event) memory =
      if ((memory.stores backend.outbox).get event.1).isSome then []
      else [.row backend.outbox event.1 event.2] := by
  simp only [append, resultOf, writesOf, Statement.effect] at h ⊢
  by_cases hstored : ((memory.stores backend.outbox).get event.1).isSome
  · simp [hstored, writesOf]
  · simp only [if_neg hstored] at h ⊢
    cases hrules : backend.assertOutbox event memory with
    | error error =>
        rw [hrules] at h
        cases h
    | ok _ => rfl

theorem events_appended {backend : Backend N α} {events : List (String × α)} {memory : Memory N α}
    (h : resultOf (inOrder (append backend) events) memory = .ok ()) :
    writesOf (inOrder (append backend) events) memory = appended backend events memory := by
  induction events generalizing memory with
  | nil => rfl
  | cons first rest ih =>
      obtain ⟨middle, hfirst, hrest, hwrites⟩ := sequence_ok h
      rw [inOrder, hwrites, ih hrest, appended, append_landed hfirst]
      split <;> rfl

/-- Events under new identifiers are all appended, each once and in order. -/
theorem appended_new {backend : Backend N α} {events : List (String × α)} {memory : Memory N α}
    (hdistinct : (events.map Prod.fst).Nodup)
    (hnew : ∀ event ∈ events, (memory.stores backend.outbox).get event.1 = none) :
    appended backend events memory =
      events.map (fun event => .row backend.outbox event.1 event.2) := by
  induction events generalizing memory with
  | nil => rfl
  | cons first rest ih =>
      simp only [List.map_cons, List.nodup_cons] at hdistinct
      have hfirst := hnew first (List.mem_cons_self ..)
      rw [appended, hfirst, if_neg (by simp), List.map_cons, ih hdistinct.2]
      · intro event hevent
        have hne : first.1 ≠ event.1 := fun hsame =>
          hdistinct.1 (hsame ▸ List.mem_map_of_mem hevent)
        have hput : ((memory.write (.row backend.outbox first.1 first.2)).stores
            backend.outbox).get event.1 = (memory.stores backend.outbox).get event.1 := by
          simp [Memory.write, Table.get_put_ne _ _ hne]
        rw [hput]
        exact hnew event (List.mem_cons_of_mem _ hevent)

/-- While a body runs the memory has the writes of others, and the entries it recorded. -/
theorem Prepares.writes {backend : Backend N α} {body : Body N α β} {start middle : Memory N α}
    {outside : List (Write N α)} {kept : List AuditEntry}
    {prepared : Except Thrown (Staged N α × β)}
    (h : Prepares backend body start outside kept middle prepared) :
    middle = start.writeAll outside ∧ (kept.map Write.entry).Sublist outside := by
  induction h with
  | done => exact ⟨rfl, .slnil⟩
  | fail => exact ⟨rfl, .slnil⟩
  | elsewhere write _ ih => exact ⟨ih.1, ih.2.cons write⟩
  | look _ ih => exact ih
  | recorded _ _ ih => exact ⟨ih.1, ih.2.cons_cons _⟩
  | refused _ _ ih => exact ih

/-- A transaction lands as a whole or not at all. Where anything is thrown, by the
body, a staged mutation, an audit entry, an append or a deferred check, the stores
and the log are as they were before the commit: what other calls wrote and what the
body recorded out of band is there, in its order. Where nothing is, the mutations, the
entries and the events have been written after that, each once and in their order. -/
theorem withTransaction_atomic {backend : Backend N α} {body : Body N α β}
    {start middle after : Memory N α} {outside : List (Write N α)} {kept : List AuditEntry}
    {prepared : Except Thrown (Staged N α × β)} {outcome : Except Thrown β}
    (hbody : Prepares backend body start outside kept middle prepared)
    (hend : completed backend prepared middle = (outcome, after)) :
    (kept.map Write.entry).Sublist outside ∧
    (∀ error, outcome = .error error → after = start.writeAll outside) ∧
    ∀ value, outcome = .ok value → ∃ staged,
      prepared = .ok (staged, value) ∧
      ∃ rows events, rows = landed staged.mutations (start.writeAll outside) ∧
        events = appended backend staged.events
          (((start.writeAll outside).writeAll rows).writeAll
            (staged.audits.map (fun entry => .entry entry.recorded))) ∧
        ((staged.events.map Prod.fst).Nodup →
          (∀ event ∈ staged.events, ((((start.writeAll outside).writeAll rows).writeAll
            (staged.audits.map (fun entry => .entry entry.recorded))).stores backend.outbox).get
              event.1 = none) →
          events = staged.events.map (fun event => .row backend.outbox event.1 event.2)) ∧
        after = start.writeAll
          (outside ++ rows ++ staged.audits.map (fun entry => .entry entry.recorded) ++ events) := by
  obtain ⟨hmiddle, hkept⟩ := hbody.writes
  subst hmiddle
  refine ⟨hkept, ?_, ?_⟩
  · rintro error rfl
    cases prepared with
    | error thrown => exact (Prod.mk.inj hend).2.symm
    | ok staged => exact boundaryRun_error hend
  · rintro value rfl
    cases prepared with
    | error thrown => cases (Prod.mk.inj hend).1
    | ok staged =>
        obtain ⟨staged, result⟩ := staged
        have hresult := boundaryRun_result hend
        have hafter := boundaryRun_ok hend
        obtain ⟨_, hmutations, hrest, hwrites⟩ := sequence_ok hresult
        obtain ⟨_, haudits, hrest, hwrites'⟩ := sequence_ok hrest
        obtain ⟨_, hevents, hrest, hwrites''⟩ := sequence_ok hrest
        obtain rfl := Except.ok.inj hrest
        refine ⟨staged, rfl, _, _, rfl, rfl, appended_new, ?_⟩
        rw [hafter, commitPhase, hwrites, hwrites', hwrites'', events_appended hevents,
          audits_landed haudits, mutations_landed hmutations]
        simp only [Process.pure_eq, writesOf, Memory.writeAll_append, Memory.writeAll_nil]

end UnitOfWork

/-! ### A wallet credited and a check put off -/

namespace Example

/-- Stores by name, rows that are amounts. -/
def backend : Backend String Int := ⟨"outbox", fun _ => .ok (), fun _ _ => .ok ()⟩

def put (store key : String) (value : Int) : Mutation String Int Unit :=
  .act (.put (fun _ => .ok (some (store, key, value))) (fun _ => .ok ())) fun _ => .done ()

/-- The row is written twice; the check wants it to end at `wanted`. -/
def staged (wanted : Int) : Staged String Int where
  mutations :=
    [put "wallet" "w" 1, put "wallet" "w" 2,
      .act (.defer "balance" (fun memory =>
        if (memory.stores "wallet").get "w" = some wanted then .ok ()
        else .error (.other "balance"))) fun _ => .done ()]
  audits := [⟨"wallet.credited", "wallet", "w", []⟩]
  events := [("e1", 2)]

def inconsistent : AuditEntry := ⟨"fulfillment.settlement_inconsistent", "fulfillment", "f", []⟩

/-- The body records one entry out of band before it stages its work. -/
def body (wanted : Int) : Body String Int Unit :=
  .act (.record inconsistent) fun _ => .done (staged wanted, ())

def start : Memory String Int := ⟨fun _ => .empty, []⟩

/-- Meanwhile another call writes a row. -/
theorem prepares (wanted : Int) :
    Prepares backend (body wanted) start [.row "wallet" "x" 5, .entry inconsistent.recorded]
      [inconsistent.recorded]
      (start.writeAll [.row "wallet" "x" 5, .entry inconsistent.recorded])
      (.ok (staged wanted, ())) :=
  .elsewhere _ (.recorded rfl .done)

/-- A check that fails takes everything back, one that holds lets everything stand. -/
theorem withTransaction_atomic_checked :
    (∃ after, completed backend (.ok (staged 3, ()))
        (start.writeAll [.row "wallet" "x" 5, .entry inconsistent.recorded]) =
          (.error (.other "balance"), after) ∧
      after = start.writeAll [.row "wallet" "x" 5, .entry inconsistent.recorded]) ∧
    ∃ after, completed backend (.ok (staged 2, ()))
        (start.writeAll [.row "wallet" "x" 5, .entry inconsistent.recorded]) = (.ok (), after) ∧
      after = start.writeAll [.row "wallet" "x" 5, .entry inconsistent.recorded,
        .row "wallet" "w" 1, .row "wallet" "w" 2,
        .entry (⟨"wallet.credited", "wallet", "w", []⟩ : AuditEntry).recorded,
        .row "outbox" "e1" 2] := by
  refine ⟨⟨_, rfl, ?_⟩, ⟨_, rfl, ?_⟩⟩
  · exact (withTransaction_atomic (prepares 3) rfl).2.1 _ rfl
  · obtain ⟨_, hstaged, rows, events, hrows, hevents, -, hafter⟩ :=
      (withTransaction_atomic (prepares 2) rfl).2.2 () rfl
    obtain rfl := (Prod.mk.inj (Except.ok.inj hstaged)).1
    subst hrows
    subst hevents
    rw [hafter]
    rfl

end Example

end WaslaCore.Platform.InMemory
