import WaslaCore.Interleaving.Logic
import WaslaCore.Reputation.Effects

/-!
Recorded once and withdrawn once, for any number of calls in any order. Every commit is
one of two kinds, and each adds one row or one marker with one event and one audit entry
about the same signal. A call that loses its write has added nothing, and does not raise.
-/

namespace WaslaCore.Reputation

open Platform Data Interleaving

/-! ### What the store keeps -/

/-- How often a signal has been announced as recorded: once, where there is one. -/
def recordings (row : Option ReputationSignal) : Nat := if row.isSome then 1 else 0

/-- How often it has been announced as retracted: once, where its marker is set. -/
def retractions (row : Option ReputationSignal) : Nat :=
  if row.any (fun signal => signal.retractedAt.isSome) then 1 else 0

/-- One row per source, and for every identifier the events and the audit entries its row
accounts for. -/
structure Once (store : ReputationStore) : Prop where
  keyed : store.signals.KeyedBy ReputationSignal.reputationSignalId
  oneRow : ∀ row ∈ store.signals.values, ∀ other ∈ store.signals.values,
    row.source = other.source → row = other
  recordedEvents : ∀ id, eventsOf "core.reputation.signal_recorded" id store.outbox =
    recordings (store.get id)
  recordedEntries : ∀ id, entriesOf "reputation.signal_recorded" id store.audit =
    recordings (store.get id)
  retractedEvents : ∀ id, eventsOf "core.reputation.signal_retracted" id store.outbox =
    retractions (store.get id)
  retractedEntries : ∀ id, entriesOf "reputation.signal_retracted" id store.audit =
    retractions (store.get id)

theorem once_empty (organizations : List String) : Once (.empty organizations) := by
  refine ⟨?_, ?_, fun _ => rfl, fun _ => rfl, fun _ => rfl, fun _ => rfl⟩
  · intro key row hrow
    cases hrow
  · intro row hrow
    cases hrow

/-- The row as it may stand later: unchanged, or with the marker it did not have. -/
def ReputationSignal.Later (row later : ReputationSignal) : Prop :=
  later = row ∨ row.retractedAt = none ∧ ∃ retraction, later = row.marked retraction

theorem ReputationSignal.Later.trans {first second third : ReputationSignal}
    (h : first.Later second) (h' : second.Later third) : first.Later third := by
  rcases h with rfl | ⟨hstanding, retraction, rfl⟩
  · exact h'
  · rcases h' with rfl | ⟨hmarked, -⟩
    · exact .inr ⟨hstanding, retraction, rfl⟩
    · cases hmarked

theorem ReputationSignal.Later.source {row later : ReputationSignal} (h : row.Later later) :
    later.source = row.source := by
  rcases h with rfl | ⟨-, retraction, rfl⟩ <;> rfl

theorem ReputationSignal.Later.id {row later : ReputationSignal} (h : row.Later later) :
    later.reputationSignalId = row.reputationSignalId := by
  rcases h with rfl | ⟨-, retraction, rfl⟩ <;> rfl

/-- No row is lost, and no field of one but its marker changes. -/
def AppendOnly (store store' : ReputationStore) : Prop :=
  ∀ id row, store.get id = some row → ∃ later, store'.get id = some later ∧ row.Later later

theorem AppendOnly.refl (store : ReputationStore) : AppendOnly store store :=
  fun _ row hrow => ⟨row, hrow, .inl rfl⟩

theorem AppendOnly.trans {first second third : ReputationStore} (h : AppendOnly first second)
    (h' : AppendOnly second third) : AppendOnly first third := by
  intro id row hrow
  obtain ⟨middle, hmiddle, hlater⟩ := h id row hrow
  obtain ⟨last, hlast, hlater'⟩ := h' id middle hmiddle
  exact ⟨last, hlast, hlater.trans hlater'⟩

theorem get_of_mem {store : ReputationStore} (hkeyed : store.signals.KeyedBy
    ReputationSignal.reputationSignalId) {row : ReputationSignal}
    (h : row ∈ store.signals.values) : store.get row.reputationSignalId = some row := by
  obtain ⟨key, hkey⟩ := Table.mem_values.mp h
  rw [← hkeyed key row hkey] at hkey
  exact hkey

theorem get_signals_put (store : ReputationStore) (key id : String) (row : ReputationSignal) :
    ({ store with signals := store.signals.put key row } : ReputationStore).get id =
      if key = id then some row else store.get id :=
  Table.get_put store.signals key id row

theorem Wrote.appendOnly {store store' : ReputationStore} {staged : Staged}
    (h : Wrote store staged store') (hkeyed : store.signals.KeyedBy
      ReputationSignal.reputationSignalId) : AppendOnly store store' := by
  intro id row hrow
  cases h with
  | inserted signal hnew habsent hparent =>
      rw [get_signals_put]
      split
      · rename_i hid
        subst hid
        rw [hnew] at hrow
        cases hrow
      · exact ⟨row, hrow, .inl rfl⟩
  | marked retraction stored hstored hstanding =>
      rw [get_signals_put]
      split
      · rename_i hid
        subst hid
        rw [get_of_mem hkeyed (mem_of_findBySource hstored).1] at hrow
        obtain rfl := Option.some.inj hrow
        exact ⟨stored.marked retraction, rfl, .inr ⟨hstanding, retraction, rfl⟩⟩
      · exact ⟨row, hrow, .inl rfl⟩

/-! ### Recording and retracting -/

theorem eventsOf_single (eventType id : String) (event : Event) :
    eventsOf eventType id [event] =
      if event.eventType = eventType ∧ event.entityId = id then 1 else 0 := by
  simp [eventsOf, List.countP_cons]

theorem entriesOf_single (action id : String) (entry : AuditEntry) :
    entriesOf action id [entry] =
      if entry.action = action ∧ entry.entityId = id then 1 else 0 := by
  simp [entriesOf, List.countP_cons]

/-- A tally of the rows still agrees with a count once one row is written and as many
more are counted about it as the tally asks for. -/
theorem tallied_put {store : ReputationStore} {signal : ReputationSignal}
    {tally : Option ReputationSignal → Nat} {count count' : String → Nat} {more : Nat}
    (h : ∀ id, count id = tally (store.get id))
    (hcount : ∀ id, count' id = count id + if signal.reputationSignalId = id then more else 0)
    (htally : tally (some signal) = tally (store.get signal.reputationSignalId) + more) (id : String) :
    count' id = tally ((store.signals.put signal.reputationSignalId signal).get id) := by
  rw [hcount, h, Table.get_put]
  by_cases hid : signal.reputationSignalId = id
  · subst hid
    rw [if_pos rfl, if_pos rfl, htally]
  · rw [if_neg hid, if_neg hid]
    rfl

/-- One row written, with the event and the entry about it, and how many of each kind
they are. -/
theorem Once.written {store : ReputationStore} {event : Event} {entry : AuditEntry}
    (signal : ReputationSignal) (recorded retracted : Nat) (h : Once store)
    (hsource : ∀ row ∈ store.signals.values, row.source = signal.source →
      row.reputationSignalId = signal.reputationSignalId)
    (hevent : ∀ id, eventsOf "core.reputation.signal_recorded" id [event] =
        (if signal.reputationSignalId = id then recorded else 0) ∧
      eventsOf "core.reputation.signal_retracted" id [event] =
        if signal.reputationSignalId = id then retracted else 0)
    (hentry : ∀ id, entriesOf "reputation.signal_recorded" id [entry] =
        (if signal.reputationSignalId = id then recorded else 0) ∧
      entriesOf "reputation.signal_retracted" id [entry] =
        if signal.reputationSignalId = id then retracted else 0)
    (hrecorded : recordings (some signal) =
      recordings (store.get signal.reputationSignalId) + recorded)
    (hretracted : retractions (some signal) =
      retractions (store.get signal.reputationSignalId) + retracted) :
    Once { store with
      signals := store.signals.put signal.reputationSignalId signal
      outbox := store.outbox ++ [event]
      audit := store.audit ++ [entry].map AuditEntry.recorded } := by
  refine ⟨h.keyed.put signal, ?_, ?_, ?_, ?_, ?_⟩
  · have hstored : ∀ row ∈ (store.signals.put signal.reputationSignalId signal).values,
        row.source = signal.source → row = signal := by
      intro row hrow hsame
      have hget := @get_of_mem { store with
        signals := store.signals.put signal.reputationSignalId signal } (h.keyed.put signal) _ hrow
      rw [get_signals_put] at hget
      split at hget
      · exact (Option.some.inj hget).symm
      · rename_i hid
        have hold := Table.mem_values.mpr ⟨_, hget⟩
        exact absurd (hsource row hold hsame).symm hid
    intro row hrow other hother hsame
    rcases Table.mem_values_put hrow with hrow' | rfl
    · rcases Table.mem_values_put hother with hother' | rfl
      · exact h.oneRow row hrow' other hother' hsame
      · exact hstored row hrow hsame
    · exact (hstored other hother hsame.symm).symm
  · refine tallied_put h.recordedEvents (fun id => ?_) hrecorded
    rw [eventsOf_append, (hevent id).1]
  · refine tallied_put h.recordedEntries (fun id => ?_) hrecorded
    rw [entriesOf_append, entriesOf_recorded, (hentry id).1]
  · refine tallied_put h.retractedEvents (fun id => ?_) hretracted
    rw [eventsOf_append, (hevent id).2]
  · refine tallied_put h.retractedEntries (fun id => ?_) hretracted
    rw [entriesOf_append, entriesOf_recorded, (hentry id).2]

/-- A recording that lands. -/
theorem Once.recorded {store store' : ReputationStore} {signal : ReputationSignal}
    (h : Once store) (hstanding : signal.retractedAt = none)
    (hcommit : store.commit (recordWork signal) = .ok store') :
    Once store' ∧ AppendOnly store store' := by
  have hcommit' : store.commit ⟨[.insert signal], [signalRecorded signal], [recordedEntry signal]⟩ =
    .ok store' := hcommit
  obtain ⟨written, hwrote, rfl⟩ := commit_ok hcommit'
  refine ⟨?_, hwrote.appendOnly h.keyed⟩
  cases hwrote with
  | inserted _ hnew habsent hparent =>
      refine h.written _ 1 0 ?_ (fun id => ⟨?_, ?_⟩)
        (fun id => ⟨?_, ?_⟩) ?_ ?_
      · exact fun row hrow hsame => absurd hsame (findBySource_none habsent hrow)
      · simp [eventsOf_single, signalRecorded]
      · simp [eventsOf_single, signalRecorded]
      · simp [entriesOf_single, recordedEntry]
      · simp [entriesOf_single, recordedEntry]
      · simp [hnew, recordings]
      · simp [hnew, retractions, hstanding]

/-- A retraction that lands, of a signal that was read before. -/
theorem Once.retracted {store store' : ReputationStore} {existing now : ReputationSignal}
    {organizationId reason : String} {retractedAt : Int} (h : Once store)
    (horganization : existing.organizationId = organizationId)
    (hnow : store.get existing.reputationSignalId = some now) (hlater : existing.Later now)
    (hcommit : store.commit (retractWork existing organizationId retractedAt reason) = .ok store') :
    Once store' ∧ AppendOnly store store' := by
  let retraction : Retraction := ⟨existing.source, retractedAt, reason⟩
  have hcommit' : store.commit ⟨[.retract retraction], [signalRetracted existing retractedAt],
      [retractedEntry existing reason]⟩ = .ok store' := by
    subst horganization
    exact hcommit
  obtain ⟨written, hwrote, rfl⟩ := commit_ok hcommit'
  refine ⟨?_, hwrote.appendOnly h.keyed⟩
  cases hwrote with
  | marked _ stored hstored hstanding =>
      obtain ⟨hmember, hsource⟩ := mem_of_findBySource hstored
      -- the row the marker goes to is the one that was read
      have hsame : stored = now :=
        h.oneRow stored hmember now (Table.mem_values.mpr ⟨_, hnow⟩) (by rw [hsource, hlater.source])
      have hid : existing.reputationSignalId = stored.reputationSignalId := by
        rw [hsame, hlater.id]
      have hget := get_of_mem h.keyed hmember
      refine h.written (stored.marked retraction) 0 1 ?_
        (fun id => ⟨?_, ?_⟩) (fun id => ⟨?_, ?_⟩) ?_ ?_
      · exact fun row hrow hrowSource => by
          rw [h.oneRow row hrow stored hmember hrowSource]
          rfl
      · simp [eventsOf_single, signalRetracted]
      · rw [eventsOf_single]
        exact if_congr (by simp [signalRetracted, hid, ReputationSignal.marked]) rfl rfl
      · simp [entriesOf_single, retractedEntry]
      · rw [entriesOf_single]
        exact if_congr (by simp [retractedEntry, hid, ReputationSignal.marked]) rfl rfl
      · simp [recordings, ReputationSignal.marked, hget]
      · simp [retractions, ReputationSignal.marked, hget, hstanding]

/-! ### The conduct of a call -/

/-- A commit, of whatever work. -/
def Committing : Effect → Prop
  | .commit _ => True
  | _ => False

/-- What a call may commit, given what it has read: a signal of its own, or the marker of
one it found. -/
inductive Due (seen : History Effect Effect.Answer) : Work → Prop where
  | recording (signal : ReputationSignal) (hstanding : signal.retractedAt = none) :
      Due seen (recordWork signal)
  | retracting (source : SignalSource) (existing : ReputationSignal) (retractedAt : Int)
      (reason : String)
      (hread : (⟨.findBySource source, some existing⟩ :
        (effect : Effect) × effect.Answer) ∈ seen) :
      Due seen (retractWork existing source.organizationId retractedAt reason)

/-- A call commits once, and only what is due. -/
def conduct : Discipline Effect Effect.Answer where
  told := fun _ _ => True
  owed := fun seen effect =>
    match effect with
    | .commit work => (∀ entry ∈ seen, ¬Committing entry.1) ∧ Due seen work
    | _ => True

/-- The call was told that its fact was already there. -/
def Lost (seen : History Effect Effect.Answer) : Prop :=
  ∃ work, (⟨.commit work, .error .duplicateSignal⟩ :
    (effect : Effect) × effect.Answer) ∈ seen

/-- A call that lost does not raise. -/
def unraised {β : Type} (seen : History Effect Effect.Answer) (result : Except Raised β) : Prop :=
  ∀ error, result = .error error → ¬Lost seen

theorem lost_uncommitted {seen : History Effect Effect.Answer}
    (h : ∀ entry ∈ seen, ¬Committing entry.1) : ¬Lost seen := by
  rintro ⟨work, hwork⟩
  exact h _ hwork trivial

section Conduct

-- a check is one step, whatever text it compares
attribute [local irreducible] trim

variable {β γ : Type} {seen : History Effect Effect.Answer}

/-- A check commits nothing. -/
theorem avoids_require {condition : Bool} {refusal : Raised} {next : Unit → Call γ}
    (h : Avoids Committing (next ())) : Avoids Committing (require condition refusal >>= next) := by
  unfold require
  split
  · exact h
  · exact trivial

theorem avoids_judge (service : ReputationService) (input : RecordSignalInput) :
    Avoids Committing (service.judge input) := by
  unfold ReputationService.judge assertId
  apply avoids_require
  apply avoids_require
  split
  · exact trivial
  split
  · exact trivial
  apply avoids_require
  apply avoids_require
  apply avoids_require
  split
  · exact trivial
  apply avoids_require
  exact trivial

/-- What commits nothing ends without a commit behind it. -/
theorem keeps_uncommitting {call : Call β} (h : Avoids Committing call)
    (hseen : ∀ entry ∈ seen, ¬Committing entry.1) :
    Keeps conduct (fun later _ => ∀ entry ∈ later, ¬Committing entry.1) call seen := by
  have howed : ∀ before effect, ¬Committing effect → conduct.owed before effect := by
    intro before effect hno
    cases effect with
    | commit work => exact absurd trivial hno
    | newId => trivial
    | clock => trivial
    | findBySource source => trivial
    | get signalId => trivial
  apply (h.keeps howed seen).mono
  rintro later result ⟨rest, rfl, hrest⟩ entry hentry
  rcases List.mem_append.mp hentry with hold | hnew
  · exact hseen entry hold
  · exact hrest entry hnew

/-- Due work lands, loses, or is refused by the store; what is refused is raised. -/
theorem keeps_landed {work : Work} (hseen : ∀ entry ∈ seen, ¬Committing entry.1)
    (hdue : Due seen work) :
    Keeps conduct (fun later result => unraised later result) (landed work) seen := by
  refine ⟨⟨hseen, hdue⟩, fun answer _ => ?_⟩
  cases answer with
  | ok done =>
      rintro error ⟨⟩
  | error failure =>
      cases failure with
      | duplicateSignal => rintro error ⟨⟩
      | store message =>
          rintro error - ⟨work', hwork'⟩
          rcases List.mem_append.mp hwork' with hold | hnew
          · exact hseen _ hold trivial
          · have hsame := List.mem_singleton.mp hnew
            simp only [Sigma.mk.injEq, Effect.commit.injEq] at hsame
            obtain ⟨rfl, hanswer⟩ := hsame
            cases eq_of_heq hanswer

/-- What is read or drawn commits nothing. -/
theorem keeps_await {effect : Effect} {next : effect.Answer → Call β}
    {post : History Effect Effect.Answer → Except Raised β → Prop} (heffect : ¬Committing effect)
    (hseen : ∀ entry ∈ seen, ¬Committing entry.1)
    (hnext : ∀ answer, (∀ entry ∈ seen ++ [⟨effect, answer⟩], ¬Committing entry.1) →
      Keeps conduct post (next answer) (seen ++ [⟨effect, answer⟩])) :
    Keeps conduct post (await effect >>= next) seen := by
  have howed : conduct.owed seen effect := by
    cases effect with
    | commit work => exact absurd trivial heffect
    | newId => trivial
    | clock => trivial
    | findBySource source => trivial
    | get signalId => trivial
  refine ⟨howed, fun answer _ => hnext answer (fun entry hentry => ?_)⟩
  rcases List.mem_append.mp hentry with hold | hnew
  · exact hseen entry hold
  · rw [List.mem_singleton.mp hnew]
    exact heffect

/-- A read after the commit changes nothing about how the call ends. -/
theorem keeps_answered {effect : Effect} {next : effect.Answer → Call β}
    (heffect : ¬Committing effect) (hnext : ∀ answer, ∃ value, next answer = .done value) :
    Keeps conduct unraised (await effect >>= next) seen := by
  refine ⟨?_, fun answer _ => ?_⟩
  · cases effect with
    | commit work => exact absurd trivial heffect
    | newId => trivial
    | clock => trivial
    | findBySource source => trivial
    | get signalId => trivial
  · obtain ⟨value, hvalue⟩ := hnext answer
    change Keeps conduct unraised (next answer) _
    rw [hvalue]
    rintro error ⟨⟩

theorem keeps_recordSignal (service : ReputationService) (input : RecordSignalInput) :
    Keeps conduct unraised (service.recordSignal input) [] := by
  unfold ReputationService.recordSignal
  refine (keeps_uncommitting (avoids_judge service input) (by simp)).bind ?_ ?_
  · intro judgedSeen judged hjudged
    refine keeps_await (by simp [Committing]) hjudged (fun signalId hdrawn => ?_)
    refine keeps_await (by simp [Committing]) hdrawn (fun now hread => ?_)
    refine (keeps_landed hread (.recording _ rfl)).bind ?_ ?_
    · intro later recorded _
      cases recorded with
      | true => rintro error ⟨⟩
      | false => exact keeps_answered (by simp [Committing]) (fun stored => ⟨_, rfl⟩)
    · intro later error hunraised other hother
      obtain rfl := Except.error.inj hother
      exact hunraised error rfl
  · intro later error hlater other hother
    exact lost_uncommitted hlater

theorem keeps_retractSignal (service : ReputationService) (input : RetractSignalInput) :
    Keeps conduct unraised (service.retractSignal input) [] := by
  unfold ReputationService.retractSignal assertId
  have hcheck : ∀ {condition : Bool} {refusal : Raised} {next : Unit → Call RetractSignalResult},
      Keeps conduct unraised (next ()) [] →
        Keeps conduct unraised (require condition refusal >>= next) [] := by
    intro condition refusal next hnext
    unfold require
    split
    · exact hnext
    · exact fun error _ => lost_uncommitted (by simp)
  apply hcheck
  dsimp only
  apply hcheck
  split
  · exact fun error _ => lost_uncommitted (by simp)
  rename_i retractedAt _
  refine keeps_await (by simp [Committing]) (by simp) (fun existing hread => ?_)
  cases existing with
  | none => rintro error ⟨⟩
  | some existing =>
      dsimp only
      split
      · rintro error ⟨⟩
      · refine (keeps_landed hread (.retracting _ existing retractedAt _ (by simp; rfl))).bind ?_ ?_
        · intro later applied _
          exact keeps_answered (by simp [Committing]) (fun stored => ⟨_, rfl⟩)
        · intro later error hunraised other hother
          obtain rfl := Except.error.inj hother
          exact hunraised error rfl

/-- Every call of the service keeps the conduct, and where it loses it does not raise. -/
theorem keeps_signalling {call : Call SignalResult} (h : Signalling call) :
    Keeps conduct unraised call [] := by
  cases h with
  | recording service input =>
      refine (keeps_recordSignal service input).bind ?_ ?_
      · rintro later value - error ⟨⟩
      · intro later error hunraised other hother
        obtain rfl := Except.error.inj hother
        exact hunraised error rfl
  | retracting service input =>
      refine (keeps_retractSignal service input).bind ?_ ?_
      · rintro later value - error ⟨⟩
      · intro later error hunraised other hother
        obtain rfl := Except.error.inj hother
        exact hunraised error rfl

end Conduct

/-! ### Every run -/

/-- What a read of a source told stays true: the row it found is there, as it was or with
its marker. -/
def known (effect : Effect) (answer : effect.Answer) (store : ReputationStore) : Prop :=
  match effect, answer with
  | .findBySource source, some existing =>
      existing.source = source ∧
        ∃ now, store.get existing.reputationSignalId = some now ∧ existing.Later now
  | _, _ => True

def signalContract : Contract ReputationStore Effect Effect.Answer where
  toDiscipline := conduct
  inv := Once
  guar := AppendOnly
  guar_refl := AppendOnly.refl
  guar_trans := AppendOnly.trans
  known := known
  known_stable := by
    intro effect answer store store' happend hknown
    cases effect with
    | findBySource source =>
        cases answer with
        | none => trivial
        | some existing =>
            obtain ⟨hsource, now, hnow, hlater⟩ := hknown
            obtain ⟨later, hget, hlater'⟩ := happend _ now hnow
            have hid := hlater.id
            exact ⟨hsource, later, hget, hlater.trans hlater'⟩
    | newId => trivial
    | clock => trivial
    | get signalId => trivial
    | commit work => trivial

/-- Work that is due lands without a second row, event or entry. -/
theorem Once.landed {store store' : ReputationStore} {seen : History Effect Effect.Answer}
    {work : Work} (h : Once store) (hseen : ∀ entry ∈ seen, known entry.1 entry.2 store)
    (hdue : Due seen work) (hcommit : store.commit work = .ok store') :
    Once store' ∧ AppendOnly store store' := by
  cases hdue with
  | recording signal hstanding => exact h.recorded hstanding hcommit
  | retracting source existing retractedAt reason hread =>
      obtain ⟨hsource, now, hnow, hlater⟩ := hseen _ hread
      exact h.retracted (by rw [← hsource]; rfl) hnow hlater hcommit

theorem signal_upheld : Upheld signalContract reputation Signalling anything where
  call := fun call hcall => (keeps_signalling hcall).mono (fun _ _ _ => trivial)
  act := by
    intro seen effect choice answer store store' hinv hseen howed _ hperform
    have hsame : store' = store → known effect answer store →
        signalContract.told effect answer ∧ signalContract.inv store' ∧
          signalContract.guar store store' ∧ signalContract.known effect answer store' := by
      rintro rfl hknown
      exact ⟨trivial, hinv, AppendOnly.refl _, hknown⟩
    change store.answer effect choice = some (answer, store') at hperform
    cases effect with
    | newId =>
        cases choice <;> try cases hperform
        rename_i id
        simp only [ReputationStore.answer] at hperform
        split at hperform
        · exact hsame (Prod.mk.inj (Option.some.inj hperform)).2.symm trivial
        · cases hperform
    | clock =>
        cases choice <;> try cases hperform
        exact hsame rfl trivial
    | findBySource source =>
        cases choice <;> try cases hperform
        apply hsame rfl
        unfold known
        split
        · rename_i existing hsource hanswer
          cases hsource
          obtain ⟨hmember, hown⟩ := mem_of_findBySource hanswer
          exact ⟨hown, existing, get_of_mem hinv.keyed hmember, .inl rfl⟩
        · trivial
    | get signalId =>
        cases choice <;> try cases hperform
        exact hsame rfl trivial
    | commit work =>
        cases choice <;> try cases hperform
        simp only [ReputationStore.answer] at hperform
        split at hperform
        · rename_i written hcommit
          obtain ⟨rfl, rfl⟩ := Prod.mk.inj (Option.some.inj hperform)
          obtain ⟨honce, happend⟩ := hinv.landed hseen howed.2 hcommit
          exact ⟨trivial, honce, happend, trivial⟩
        · exact hsame (Prod.mk.inj (Option.some.inj hperform)).2.symm trivial
  tick := by
    intro choice store store' _ htick
    cases htick

/-! ### What each call has added -/

/-- The work of a commit that landed. -/
def landedWork (entry : (effect : Effect) × effect.Answer) : Option Work :=
  match entry with
  | ⟨.commit work, .ok ()⟩ => some work
  | _ => none

def landedEvents (seen : History Effect Effect.Answer) : List Event :=
  (seen.filterMap landedWork).flatMap (fun work => work.events)

def landedEntries (seen : History Effect Effect.Answer) : List AuditEntry :=
  (seen.filterMap landedWork).flatMap (fun work => work.audits.map AuditEntry.recorded)

/-- The outbox and the audit log are what the calls have added to them, each its own. -/
structure Attributed (world : World ReputationStore Effect Effect.Answer Raised SignalResult) :
    Prop where
  events : world.store.outbox.Perm (world.tasks.flatMap (fun task => landedEvents task.seen))
  entries : world.store.audit.Perm (world.tasks.flatMap (fun task => landedEntries task.seen))

theorem landedEvents_snoc (seen : History Effect Effect.Answer) (effect : Effect)
    (answer : effect.Answer) :
    landedEvents (seen ++ [⟨effect, answer⟩]) =
      landedEvents seen ++ landedEvents [⟨effect, answer⟩] := by
  simp [landedEvents]

theorem landedEntries_snoc (seen : History Effect Effect.Answer) (effect : Effect)
    (answer : effect.Answer) :
    landedEntries (seen ++ [⟨effect, answer⟩]) =
      landedEntries seen ++ landedEntries [⟨effect, answer⟩] := by
  simp [landedEntries]

/-- One action adds to the outbox and the audit log what it adds to its call. -/
theorem answer_adds {store store' : ReputationStore} {effect : Effect} {choice : Choice}
    {answer : effect.Answer} (h : store.answer effect choice = some (answer, store')) :
    store'.outbox = store.outbox ++ landedEvents [⟨effect, answer⟩] ∧
      store'.audit = store.audit ++ landedEntries [⟨effect, answer⟩] := by
  have hread : ∀ {answer : effect.Answer}, ¬Committing effect →
      landedEvents [⟨effect, answer⟩] = [] ∧ landedEntries [⟨effect, answer⟩] = [] := by
    intro answer hno
    cases effect with
    | commit work => exact absurd trivial hno
    | newId => exact ⟨rfl, rfl⟩
    | clock => exact ⟨rfl, rfl⟩
    | findBySource source => exact ⟨rfl, rfl⟩
    | get signalId => exact ⟨rfl, rfl⟩
  have hsame : ¬Committing effect → store' = store →
      store'.outbox = store.outbox ++ landedEvents [⟨effect, answer⟩] ∧
        store'.audit = store.audit ++ landedEntries [⟨effect, answer⟩] := by
    rintro hno rfl
    rw [(hread hno).1, (hread hno).2, List.append_nil, List.append_nil]
    exact ⟨rfl, rfl⟩
  cases effect with
  | newId =>
      cases choice <;> try cases h
      simp only [ReputationStore.answer] at h
      split at h
      · exact hsame (by simp [Committing]) (Prod.mk.inj (Option.some.inj h)).2.symm
      · cases h
  | clock =>
      cases choice <;> try cases h
      exact hsame (by simp [Committing]) rfl
  | findBySource source =>
      cases choice <;> try cases h
      exact hsame (by simp [Committing]) rfl
  | get signalId =>
      cases choice <;> try cases h
      exact hsame (by simp [Committing]) rfl
  | commit work =>
      cases choice <;> try cases h
      simp only [ReputationStore.answer] at h
      split at h
      · rename_i written hcommit
        obtain ⟨rfl, rfl⟩ := Prod.mk.inj (Option.some.inj h)
        unfold ReputationStore.commit at hcommit
        split at hcommit
        · cases hcommit
        rename_i after hrun
        obtain rfl := Except.ok.inj hcommit
        have hkept : ∀ {writes : List Staged} {before : ReputationStore},
            runAll before writes = .ok after →
              after.outbox = before.outbox ∧ after.audit = before.audit := by
          intro writes
          induction writes with
          | nil =>
              intro before hran
              obtain rfl := Except.ok.inj hran
              exact ⟨rfl, rfl⟩
          | cons staged rest ih =>
              intro before hran
              simp only [runAll] at hran
              split at hran
              · rename_i next hnext
                obtain ⟨houtbox, haudit⟩ := ih hran
                have hwrote : next.outbox = before.outbox ∧ next.audit = before.audit := by
                  cases run_wrote hnext <;> exact ⟨rfl, rfl⟩
                exact ⟨houtbox.trans hwrote.1, haudit.trans hwrote.2⟩
              · cases hran
        obtain ⟨houtbox, haudit⟩ := hkept hrun
        simp [landedEvents, landedEntries, landedWork, houtbox, haudit]
      · obtain ⟨rfl, rfl⟩ := Prod.mk.inj (Option.some.inj h)
        simp [landedEvents, landedEntries, landedWork]

/-- What one call adds more, wherever the call stands among the others. -/
theorem perm_flatMap_snoc {α τ : Type} {share : τ → List α} {before after : List τ} {task task' : τ}
    {whole more : List α} (h : whole.Perm ((before ++ task :: after).flatMap share))
    (htask : share task' = share task ++ more) :
    (whole ++ more).Perm ((before ++ task' :: after).flatMap share) := by
  have hmoved : (before.flatMap share ++ (share task ++ after.flatMap share) ++ more).Perm
      (before.flatMap share ++ (share task ++ more ++ after.flatMap share)) := by
    simp only [List.append_assoc]
    exact ((List.perm_append_comm.append_left _).append_left _)
  simp only [List.flatMap_append, List.flatMap_cons] at h ⊢
  rw [htask]
  exact (h.append_right more).trans hmoved

theorem run_attributed {organizations : List String}
    {world : World ReputationStore Effect Effect.Answer Raised SignalResult}
    (hrun : Run reputation Signalling anything (World.initial (.empty organizations)) world) :
    Attributed world := by
  induction hrun with
  | refl => exact ⟨List.Perm.refl _, List.Perm.refl _⟩
  | tail _ hstep ih =>
      cases hstep with
      | start hcall =>
          exact ⟨by simpa [landedEvents] using ih.events, by simpa [landedEntries] using ih.entries⟩
      | @act _ _ seen effect answer _ hperforms =>
          cases hperforms with
          | @intro store store' before after seen effect next answer choice hperform =>
              obtain ⟨houtbox, haudit⟩ := answer_adds hperform
              refine ⟨?_, ?_⟩
              · dsimp only
                rw [houtbox]
                exact perm_flatMap_snoc ih.events (landedEvents_snoc seen effect answer)
              · dsimp only
                rw [haudit]
                exact perm_flatMap_snoc ih.entries (landedEntries_snoc seen effect answer)
      | tick choice htick => cases htick

/-- A call that lost has landed nothing: it commits once. -/
def LostNothing (seen : History Effect Effect.Answer) : Prop :=
  Lost seen → landedEvents seen = [] ∧ landedEntries seen = []

theorem landed_uncommitted (seen : History Effect Effect.Answer)
    (h : ∀ entry ∈ seen, ¬Committing entry.1) : seen.filterMap landedWork = [] := by
  refine List.filterMap_eq_nil_iff.mpr fun entry hentry => ?_
  obtain ⟨effect, answer⟩ := entry
  cases effect with
  | commit work => exact absurd trivial (h _ hentry)
  | newId => rfl
  | clock => rfl
  | findBySource source => rfl
  | get signalId => rfl

theorem lostNothing_snoc {seen : History Effect Effect.Answer} {effect : Effect}
    {answer : effect.Answer} (h : LostNothing seen) (howed : conduct.owed seen effect) :
    LostNothing (seen ++ [⟨effect, answer⟩]) := by
  rintro ⟨work, hwork⟩
  rw [landedEvents_snoc, landedEntries_snoc]
  rcases List.mem_append.mp hwork with hold | hnew
  · obtain ⟨hevents, hentries⟩ := h ⟨work, hold⟩
    rw [hevents, hentries]
    have hother : ¬Committing effect := by
      intro hcommitting
      cases effect with
      | commit other => exact howed.1 _ hold trivial
      | newId => exact hcommitting
      | clock => exact hcommitting
      | findBySource source => exact hcommitting
      | get signalId => exact hcommitting
    have hnone := landed_uncommitted [⟨effect, answer⟩]
      (fun entry hentry => by rwa [List.mem_singleton.mp hentry])
    simp [landedEvents, landedEntries, hnone]
  · have hlast := List.mem_singleton.mp hnew
    cases hlast
    have hnone := landed_uncommitted _ howed.1
    simp [landedEvents, landedEntries, hnone, landedWork]

/-- Signals of a world: each recorded and withdrawn once, each event and entry the work
of the one call that won, and no call that lost with anything to show or to raise. -/
structure Settled (world : World ReputationStore Effect Effect.Answer Raised SignalResult) :
    Prop where
  once : Once world.store
  attributed : Attributed world
  losers : ∀ task ∈ world.tasks, Lost task.seen →
    landedEvents task.seen = [] ∧ landedEntries task.seen = [] ∧
      ∀ error, task.rest ≠ .fail error

/-- Any number of recordings and retractions, in any order of their steps: one row, one
event and one entry per report, one event and one entry per marker, nothing left behind
by a call that lost, and no field of a row but its marker ever changed. -/
theorem run_signals_once {organizations : List String}
    {world world' : World ReputationStore Effect Effect.Answer Raised SignalResult}
    (hreached : Run reputation Signalling anything (World.initial (.empty organizations)) world)
    (hrun : Run reputation Signalling anything world world') :
    Settled world' ∧ AppendOnly world.store world'.store := by
  have hall := hreached.trans hrun
  have hinitial : Kept signalContract
      (World.initial (.empty organizations) :
        World ReputationStore Effect Effect.Answer Raised SignalResult) :=
    Kept.initial (once_empty organizations)
  obtain ⟨hkept, -⟩ := signal_upheld.run hinitial hreached
  obtain ⟨hkept', happend⟩ := signal_upheld.run hkept hrun
  refine ⟨⟨hkept'.inv, run_attributed hall, fun task htask hlost => ?_⟩, happend⟩
  have hnothing := Run.remembers (P := LostNothing)
    (fun call hcall => (keeps_signalling hcall).mono (fun _ _ _ => trivial)) (fun _ => trivial)
    (fun hnone => absurd hnone (lost_uncommitted (by simp)))
    (fun h howed _ => lostNothing_snoc h howed) hall task htask
  obtain ⟨hevents, hentries⟩ := hnothing hlost
  refine ⟨hevents, hentries, fun error hrest => ?_⟩
  have hends := Run.ends (fun call hcall => keeps_signalling hcall) (fun _ => trivial) hall task
    htask
  rw [hrest] at hends
  exact hends error rfl hlost

/-! ### A race -/

/-- The one instant of the race, as the platform reads it. -/
def noon : ReputationService :=
  ⟨fun text => if text = "2026-02-01T12:00:00.000Z" then some 1769947200000 else none⟩

def idOf (digit : Char) : String :=
  String.ofList ("00000000-0000-4000-8000-00000000000".toList ++ [digit])

/-- One report, sent twice. -/
def report : Call SignalResult := do
  let result ← noon.recordSignal ⟨idOf '1', "identity", idOf '2', "service_rating", some 4,
    "wasla-market", "review-7", "2026-02-01T12:00:00.000Z", "c-1"⟩
  pure (.recording result)

def withdrawal : Call SignalResult := do
  let result ← noon.retractSignal ⟨idOf '1', "wasla-market", "review-7",
    "2026-02-01T12:00:00.000Z", "moderated", "c-2"⟩
  pure (.retracting result)

abbrev Race := List (Move Effect Effect.Answer Choice Raised SignalResult)

/-- Both copies draw their identifiers before either commits. -/
def reportRace : Race :=
  [.start report, .start report] ++ acts 0 [.drawn (idOf '3'), .reading 10] ++
    acts 1 [.drawn (idOf '4'), .reading 11] ++ acts 0 [.proceed] ++ acts 1 [.proceed, .proceed]

/-- Both withdrawals read the signal while it stands. -/
def withdrawalRace : Race :=
  [.start withdrawal, .start withdrawal] ++ acts 2 [.proceed] ++ acts 3 [.proceed, .proceed, .proceed] ++
    acts 2 [.proceed, .proceed]

def firstReport : World ReputationStore Effect Effect.Answer Raised SignalResult :=
  World.initial (.empty [idOf '1'])

theorem signalling_races {call : Call SignalResult}
    (h : Move.start call ∈ reportRace ++ withdrawalRace) : Signalling call := by
  simp only [reportRace, withdrawalRace, acts, List.mem_append, List.mem_cons, List.mem_map,
    Move.start.injEq, List.not_mem_nil, or_false, reduceCtorEq, and_false, exists_false] at h
  rcases h with (rfl | rfl) | (rfl | rfl)
  · exact .recording noon _
  · exact .recording noon _
  · exact .retracting noon _
  · exact .retracting noon _

set_option maxRecDepth 20000 in
theorem run_signals_once_raced :
    ∃ world world', Run reputation Signalling anything firstReport world ∧
      Run reputation Signalling anything world world' ∧
      world'.store.signals.values.length = 1 ∧ world'.store.outbox.length = 2 ∧
      Settled world' ∧ AppendOnly world.store world'.store := by
  have hplays : (play reputation unrestricted reportRace firstReport).any (fun world =>
      (play reputation unrestricted withdrawalRace world).any (fun world' =>
        world'.store.signals.values.length = 1 ∧ world'.store.outbox.length = 2)) = true := by
    decide +kernel
  obtain ⟨world, hworld, hlater⟩ := (Option.any_eq_true _ _).mp hplays
  obtain ⟨world', hworld', hcounts⟩ := (Option.any_eq_true _ _).mp hlater
  obtain ⟨hrows, hevents⟩ := of_decide_eq_true hcounts
  have hreached : Run reputation Signalling anything firstReport world :=
    play_run hworld (fun call hcall => signalling_races (List.mem_append_left _ hcall))
      (fun _ _ _ _ => trivial)
  have hrun : Run reputation Signalling anything world world' :=
    play_run hworld' (fun call hcall => signalling_races (List.mem_append_right _ hcall))
      (fun _ _ _ _ => trivial)
  exact ⟨world, world', hreached, hrun, hrows, hevents, run_signals_once hreached hrun⟩

end WaslaCore.Reputation
