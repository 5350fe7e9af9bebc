import Mathlib.Data.List.DropRight
import WaslaCore.Interleaving.Completion
import WaslaCore.Reputation.Counted
import WaslaCore.Reputation.SignalledOnce

/-!
Ratings and their retractions in whatever order they are delivered. What is left of a
source is the first rating of it, withdrawn where a retraction came behind: a retraction
delivered before the rating it withdraws is answered and forgotten, so two orders agree
exactly where they agree on that.
-/

namespace WaslaCore.Reputation

open Platform Data Interleaving

/-! ### What is set apart by an order -/

def ReputationStore.ratings (store : ReputationStore) : List Rating :=
  store.signals.values.map ReputationSignal.rating

/-- The same ratings, and with them the same standing of every subject. -/
structure SameRatings (store store' : ReputationStore) : Prop where
  ratings : ∀ rating, rating ∈ store.ratings ↔ rating ∈ store'.ratings
  standings : ∀ subject, SameStanding (store.standing subject) (store'.standing subject)

/-! ### Deliveries -/

/-- Handlers run one after another, each to its end, whether it returns or raises. -/
inductive Delivered (service : ReputationService) :
    List ReviewEvent → ReputationStore → ReputationStore → Prop where
  | none (store : ReputationStore) : Delivered service [] store store
  | next {event rest store result middle last}
      (hhandled : Completes reputation (service.consume event) store result middle)
      (hrest : Delivered service rest middle last) :
      Delivered service (event :: rest) store last

namespace ReputationService

/-- What `recordSignal` makes of a report that passes its checks. -/
def judges (service : ReputationService) (input : RecordSignalInput) : Option Judged :=
  if isId input.organizationId && isId input.subjectId then
    match ReputationSubjectType.ofName input.subjectType,
        ReputationSignalKind.ofName input.signalKind, service.readInstant input.occurredAt with
    | some subjectType, some signalKind, some occurredAt =>
        if ratingShapeIsValid signalKind input.ratingValue && !(trim input.sourceSystem).isEmpty &&
            !(trim input.sourceReference).isEmpty && !isBlank input.correlationId then
          some ⟨subjectType, signalKind,
            ⟨input.organizationId, trim input.sourceSystem, trim input.sourceReference⟩, occurredAt⟩
        else none
    | _, _, _ => none
  else none

/-- The source and the report of a rating that is recorded where it comes first. -/
def reports (service : ReputationService) (organizations : List String) :
    ReviewEvent → Option (SignalSource × Report)
  | .rated producer correlationId payload =>
      let input := ratedInput producer correlationId payload
      match service.judges input with
      | some judged =>
          if judged.source.organizationId ∈ organizations then
            some (judged.source, (signalOf input judged "" 0).report)
          else none
      | none => none
  | .retracted _ _ _ => none

/-- The source a retraction withdraws, where it passes its checks. -/
def withdraws (service : ReputationService) : ReviewEvent → Option SignalSource
  | .rated _ _ _ => none
  | .retracted producer _ payload =>
      if isId payload.organizationId && !(trim payload.reason).isEmpty &&
          (service.readInstant payload.retractedAt).isSome then
        some ⟨payload.organizationId, trim producer, trim payload.reviewReference⟩
      else none

/-- The first rating of a source that can be recorded. -/
def firstReport (service : ReputationService) (organizations : List String)
    (events : List ReviewEvent) (source : SignalSource) : Option Report :=
  ((events.filterMap (service.reports organizations)).find?
    (fun reported => reported.1 = source)).map Prod.snd

/-- A retraction of the source is delivered behind a rating of it. -/
def RetractedAfter (service : ReputationService) (organizations : List String)
    (events : List ReviewEvent) (source : SignalSource) : Prop :=
  ∃ before rating between retraction after report,
    events = before ++ rating :: (between ++ retraction :: after) ∧
      service.reports organizations rating = some (source, report) ∧
      service.withdraws retraction = some source

end ReputationService

/-! ### The checks -/

section Checks

attribute [local irreducible] trim

theorem require_bind {β : Type} (condition : Bool) (refusal : Raised) (next : Unit → Call β) :
    (require condition refusal >>= next) = if condition then next () else .fail refusal := by
  unfold require
  cases condition <;> rfl

/-- The checks either all pass, and say what they judged, or one of them is raised. -/
theorem judge_eq (service : ReputationService) (input : RecordSignalInput) :
    (∃ judged, service.judges input = some judged ∧ service.judge input = .done judged) ∨
      service.judges input = none ∧ ∃ error, service.judge input = .fail error := by
  unfold ReputationService.judges ReputationService.judge assertId
  simp only [require_bind]
  cases isId input.organizationId with
  | false => exact .inr ⟨rfl, _, rfl⟩
  | true =>
  cases isId input.subjectId with
  | false => exact .inr ⟨rfl, _, rfl⟩
  | true =>
  cases ReputationSubjectType.ofName input.subjectType with
  | none => exact .inr ⟨rfl, _, rfl⟩
  | some subjectType =>
  cases ReputationSignalKind.ofName input.signalKind with
  | none => exact .inr ⟨rfl, _, rfl⟩
  | some signalKind =>
  dsimp only
  cases service.readInstant input.occurredAt with
  | none =>
      refine .inr ⟨rfl, ?_⟩
      cases ratingShapeIsValid signalKind input.ratingValue with
      | false => exact ⟨_, rfl⟩
      | true =>
      cases (trim input.sourceSystem).isEmpty with
      | true => exact ⟨_, rfl⟩
      | false =>
      cases (trim input.sourceReference).isEmpty <;> exact ⟨_, rfl⟩
  | some occurredAt =>
  dsimp only
  cases ratingShapeIsValid signalKind input.ratingValue with
  | false => exact .inr ⟨rfl, _, rfl⟩
  | true =>
  cases (trim input.sourceSystem).isEmpty with
  | true => exact .inr ⟨rfl, _, rfl⟩
  | false =>
  cases (trim input.sourceReference).isEmpty with
  | true => exact .inr ⟨rfl, _, rfl⟩
  | false =>
  cases isBlank input.correlationId with
  | true => exact .inr ⟨rfl, _, rfl⟩
  | false => exact .inl ⟨_, rfl, rfl⟩

/-- A text that is blank holds nothing but white space. -/
theorem isTrimmed_of_isBlank {text : String} (h : isBlank text = true) :
    ∀ char ∈ text.toList, isTrimmed char = true := by
  have hnil : (text.toList.dropWhile isTrimmed).rdropWhile isTrimmed = [] := by
    unfold isBlank trim at h
    rw [String.isEmpty_iff] at h
    simpa [List.rdropWhile] using h
  have hlater := List.rdropWhile_eq_nil_iff.mp hnil
  intro char hchar
  rw [← List.takeWhile_append_dropWhile (p := isTrimmed) (l := text.toList)] at hchar
  rcases List.mem_append.mp hchar with hbefore | hbehind
  · exact List.mem_takeWhile_imp hbefore
  · exact hlater char hbehind

/-- What is left of a trimmed text is not blank. -/
theorem isBlank_trim {text : String} (h : (trim text).isEmpty = false) :
    isBlank (trim text) = false := by
  rw [Bool.eq_false_iff]
  intro hblank
  have hlist : (trim text).toList = (text.toList.dropWhile isTrimmed).rdropWhile isTrimmed := by
    unfold trim
    simp [List.rdropWhile]
  have hsome : (text.toList.dropWhile isTrimmed).rdropWhile isTrimmed ≠ [] := by
    intro hnil
    rw [hnil] at hlist
    rw [String.toList_eq_nil_iff.mp hlist] at h
    cases h
  have hall := isTrimmed_of_isBlank hblank
  rw [hlist] at hall
  exact List.rdropWhile_last_not isTrimmed _ hsome (hall _ (List.getLast_mem hsome))

end Checks

/-! ### One handler -/

/-- Rows under their own identifiers, one to a source, each with its organization. -/
structure Sound (store : ReputationStore) : Prop where
  keyed : store.signals.KeyedBy ReputationSignal.reputationSignalId
  oneRow : ∀ row ∈ store.signals.values, ∀ other ∈ store.signals.values,
    row.source = other.source → row = other
  parents : ∀ row ∈ store.signals.values, row.organizationId ∈ store.organizations

theorem sound_empty (organizations : List String) : Sound (.empty organizations) := by
  refine ⟨?_, ?_, ?_⟩
  · intro key row hrow
    cases hrow
  · intro row hrow
    cases hrow
  · intro row hrow
    cases hrow

theorem Sound.get {store : ReputationStore} (h : Sound store) {row : ReputationSignal}
    (hrow : row ∈ store.signals.values) : store.get row.reputationSignalId = some row := by
  obtain ⟨key, hkey⟩ := Table.mem_values.mp hrow
  rw [← h.keyed key row hkey] at hkey
  exact hkey

theorem Sound.findBySource_iff {store : ReputationStore} (h : Sound store) {source : SignalSource}
    {row : ReputationSignal} :
    store.findBySource source = some row ↔ row ∈ store.signals.values ∧ row.source = source := by
  refine ⟨mem_of_findBySource, fun ⟨hrow, hsource⟩ => ?_⟩
  cases hfound : store.findBySource source with
  | none => exact absurd hsource (findBySource_none hfound hrow)
  | some other =>
      obtain ⟨hother, hsame⟩ := mem_of_findBySource hfound
      rw [h.oneRow other hother row hrow (hsame.trans hsource.symm)]

/-- What is found under a source: its report, and whether it is withdrawn. -/
def ReputationStore.found (store : ReputationStore) (source : SignalSource) :
    Option (Report × Bool) :=
  (store.findBySource source).map (fun row => (row.report, row.retractedAt.isSome))

/-- One row written, of a source and an identifier that belong together. -/
theorem Sound.written {store : ReputationStore} {signal : ReputationSignal} (h : Sound store)
    (hparent : signal.organizationId ∈ store.organizations)
    (hown : ∀ row ∈ store.signals.values,
      row.source = signal.source ↔ row.reputationSignalId = signal.reputationSignalId)
    {store' : ReputationStore} (horganizations : store'.organizations = store.organizations)
    (hsignals : store'.signals = store.signals.put signal.reputationSignalId signal) :
    Sound store' ∧ ∀ source, store'.found source =
      if source = signal.source then some (signal.report, signal.retractedAt.isSome)
      else store.found source := by
  have hmember : ∀ row, row ∈ store'.signals.values ↔
      row = signal ∨ row ∈ store.signals.values ∧ row.source ≠ signal.source := by
    intro row
    rw [hsignals, Table.mem_values]
    constructor
    · rintro ⟨key, hkey⟩
      rw [Table.get_put] at hkey
      split at hkey
      · exact .inl (Option.some.inj hkey).symm
      · rename_i hother
        have hrow := Table.mem_values.mpr ⟨key, hkey⟩
        refine .inr ⟨hrow, fun hsame => hother ?_⟩
        rw [← (hown row hrow).mp hsame]
        exact h.keyed key row hkey
    · rintro (rfl | ⟨hrow, hother⟩)
      · exact ⟨_, Table.get_put_self _ _ _⟩
      · refine ⟨row.reputationSignalId, ?_⟩
        rw [Table.get_put, if_neg (fun hsame => hother ((hown row hrow).mpr hsame.symm))]
        exact h.get hrow
  have hsound : Sound store' := by
    refine ⟨?_, ?_, ?_⟩
    · rw [hsignals]
      exact h.keyed.put signal
    · intro row hrow other hother hsame
      rcases (hmember row).mp hrow with rfl | ⟨hold, hnot⟩
      · rcases (hmember other).mp hother with rfl | ⟨-, hnot⟩
        · rfl
        · exact absurd hsame.symm hnot
      · rcases (hmember other).mp hother with rfl | ⟨hold', -⟩
        · exact absurd hsame hnot
        · exact h.oneRow row hold other hold' hsame
    · intro row hrow
      rw [horganizations]
      rcases (hmember row).mp hrow with rfl | ⟨hold, -⟩
      · exact hparent
      · exact h.parents row hold
  refine ⟨hsound, fun source => ?_⟩
  unfold ReputationStore.found
  by_cases hsource : source = signal.source
  · rw [if_pos hsource, (hsound.findBySource_iff).mpr ⟨(hmember signal).mpr (.inl rfl), hsource.symm⟩]
    rfl
  · rw [if_neg hsource]
    congr 1
    ext row
    rw [hsound.findBySource_iff, h.findBySource_iff, hmember]
    constructor
    · rintro ⟨rfl | ⟨hold, -⟩, hrow⟩
      · exact absurd hrow.symm hsource
      · exact ⟨hold, hrow⟩
    · rintro ⟨hold, hrow⟩
      exact ⟨.inr ⟨hold, fun hsame => hsource (hrow.symm.trans hsame)⟩, hrow⟩

/-- A unit of work that completes landed, lost, or was refused by the store. -/
theorem completes_landed {work : Work} {store store' : ReputationStore}
    {result : Except Raised Bool} (h : Completes reputation (landed work) store result store') :
    (result = .ok true ∧ store.commit work = .ok store') ∨
      result ≠ .ok true ∧ store' = store ∧ ∃ failure, store.commit work = .error failure := by
  obtain ⟨choice, answer, middle, hperform, hrest⟩ := completes_act.mp h
  change store.answer (.commit work) choice = some (answer, middle) at hperform
  cases choice <;> try cases hperform
  simp only [ReputationStore.answer] at hperform
  split at hperform
  · rename_i written hcommit
    obtain ⟨rfl, rfl⟩ := Prod.mk.inj (Option.some.inj hperform)
    obtain ⟨rfl, rfl⟩ := completes_done.mp hrest
    exact .inl ⟨rfl, hcommit⟩
  · rename_i failure hcommit
    obtain ⟨rfl, rfl⟩ := Prod.mk.inj (Option.some.inj hperform)
    refine .inr ?_
    cases failure with
    | duplicateSignal =>
        obtain ⟨rfl, rfl⟩ := completes_done.mp hrest
        exact ⟨by simp, rfl, _, hcommit⟩
    | store message =>
        obtain ⟨rfl, rfl⟩ := completes_fail.mp hrest
        exact ⟨by simp, rfl, _, hcommit⟩

section Handlers

attribute [local irreducible] trim

variable {β : Type} {store store' : ReputationStore} {result : Except Raised β}

theorem completes_newId {next : String → Call β}
    (h : Completes reputation (await .newId >>= next) store result store') :
    ∃ id, store.get id = none ∧ Completes reputation (next id) store result store' := by
  obtain ⟨choice, id, middle, hperform, hrest⟩ := completes_act.mp h
  change store.answer .newId choice = some (id, middle) at hperform
  cases choice <;> try cases hperform
  simp only [ReputationStore.answer] at hperform
  split at hperform
  · rename_i hfresh
    obtain ⟨rfl, rfl⟩ := Prod.mk.inj (Option.some.inj hperform)
    refine ⟨_, ?_, hrest⟩
    simpa using (Bool.and_eq_true_iff.mp hfresh).2
  · cases hperform

theorem completes_clock {next : Int → Call β}
    (h : Completes reputation (await .clock >>= next) store result store') :
    ∃ now, Completes reputation (next now) store result store' := by
  obtain ⟨choice, now, middle, hperform, hrest⟩ := completes_act.mp h
  change store.answer .clock choice = some (now, middle) at hperform
  cases choice <;> try cases hperform
  exact ⟨_, hrest⟩

theorem completes_findBySource {source : SignalSource} {next : Option ReputationSignal → Call β}
    (h : Completes reputation (await (.findBySource source) >>= next) store result store') :
    Completes reputation (next (store.findBySource source)) store result store' := by
  obtain ⟨choice, found, middle, hperform, hrest⟩ := completes_act.mp h
  change store.answer (.findBySource source) choice = some (found, middle) at hperform
  cases choice <;> try cases hperform
  exact hrest

theorem completes_get {signalId : String} {next : Option ReputationSignal → Call β}
    (h : Completes reputation (await (.get signalId) >>= next) store result store') :
    Completes reputation (next (store.get signalId)) store result store' := by
  obtain ⟨choice, found, middle, hperform, hrest⟩ := completes_act.mp h
  change store.answer (.get signalId) choice = some (found, middle) at hperform
  cases choice <;> try cases hperform
  exact hrest

/-- What was judged has the shape of its table. -/
theorem assertSignalShape_judged {service : ReputationService} {input : RecordSignalInput}
    {judged : Judged} (h : service.judges input = some judged) (signalId : String) (now : Int) :
    assertSignalShape (ReputationService.signalOf input judged signalId now) = .ok () := by
  unfold ReputationService.judges at h
  split at h
  · split at h
    · split at h
      · rename_i hchecks
        obtain rfl := Option.some.inj h
        simp only [Bool.and_eq_true, Bool.not_eq_true'] at hchecks
        obtain ⟨⟨⟨hshape, hsystem⟩, hreference⟩, hcorrelation⟩ := hchecks
        unfold assertSignalShape ReputationService.signalOf
        simp [hshape, isBlank_trim hsystem, isBlank_trim hreference, hcorrelation]
      · cases h
    · cases h
  · cases h

/-- A recording lands exactly where its source is not taken and its organization is
there. -/
theorem commit_recordWork (signal : ReputationSignal)
    (hshape : assertSignalShape signal = .ok ())
    (hnew : store.get signal.reputationSignalId = none) :
    (store.findBySource signal.source = none ∧ signal.organizationId ∈ store.organizations ∧
        ∃ written, store.commit (recordWork signal) = .ok written ∧
          written.organizations = store.organizations ∧
          written.signals = store.signals.put signal.reputationSignalId signal) ∨
      ¬(store.findBySource signal.source = none ∧ signal.organizationId ∈ store.organizations) ∧
        ∃ failure, store.commit (recordWork signal) = .error failure := by
  rw [show recordWork signal = ⟨[.insert signal], [signalRecorded signal],
    [recordedEntry signal]⟩ from rfl]
  by_cases hlands : store.findBySource signal.source = none ∧
      signal.organizationId ∈ store.organizations
  · obtain ⟨habsent, hparent⟩ := hlands
    have hput := putRow_eq hparent (fun previous hprevious => by rw [hnew] at hprevious; cases hprevious)
    have hinsert : store.insertIfAbsent signal = .ok (.inserted, { store with
        signals := store.signals.put signal.reputationSignalId signal }) := by
      unfold ReputationStore.insertIfAbsent
      rw [hshape, habsent, hput]
      rfl
    have hcommit : ∃ written, store.commit ⟨[.insert signal], [signalRecorded signal],
        [recordedEntry signal]⟩ = .ok written ∧ written.organizations = store.organizations ∧
          written.signals = store.signals.put signal.reputationSignalId signal := by
      simp only [ReputationStore.commit, runAll, Staged.run, hinsert, Except.ok.injEq,
        exists_eq_left', and_self]
    exact .inl ⟨habsent, hparent, hcommit⟩
  · refine .inr ⟨hlands, ?_⟩
    cases hcommit : store.commit ⟨[.insert signal], [signalRecorded signal],
        [recordedEntry signal]⟩ with
    | error failure => exact ⟨failure, rfl⟩
    | ok written =>
        obtain ⟨after, hwrote, -⟩ := commit_ok hcommit
        cases hwrote with
        | inserted _ _ habsent hparent => exact absurd ⟨habsent, hparent⟩ hlands

/-- What a call leaves: a sound store, and what is found in it. -/
structure Leaves (store store' : ReputationStore)
    (found : SignalSource → Option (Report × Bool)) : Prop where
  sound : Sound store'
  organizations : store'.organizations = store.organizations
  found : ∀ source, store'.found source = found source

theorem Leaves.same (h : Sound store) : Leaves store store store.found :=
  ⟨h, rfl, fun _ => rfl⟩

/-- A report is the first of its source or changes nothing. -/
theorem completes_recordSignal {service : ReputationService} {input : RecordSignalInput}
    {result : Except Raised RecordSignalResult} (hsound : Sound store)
    (h : Completes reputation (service.recordSignal input) store result store') :
    Leaves store store' (fun source =>
      match service.judges input with
      | some judged =>
          if judged.source.organizationId ∈ store.organizations ∧ source = judged.source ∧
              store.found source = none then
            some ((ReputationService.signalOf input judged "" 0).report, false)
          else store.found source
      | none => store.found source) := by
  unfold ReputationService.recordSignal at h
  rcases judge_eq service input with ⟨judged, hjudged, hcall⟩ | ⟨hnone, error, hcall⟩
  · rw [hcall] at h
    rw [hjudged]
    obtain ⟨signalId, hnew, hrest⟩ := completes_newId h
    obtain ⟨now, hrest⟩ := completes_clock hrest
    let signal := ReputationService.signalOf input judged signalId now
    have hshape := assertSignalShape_judged hjudged signalId now
    have hsettled : ∀ {recorded : Bool} {middle : ReputationStore},
        Completes reputation (if recorded = true then pure ⟨signal, true⟩ else do
          let stored : Option ReputationSignal ← await (.findBySource judged.source)
          pure ⟨stored.getD signal, false⟩) middle result store' → store' = middle := by
      intro recorded middle hend
      cases recorded with
      | true => exact (completes_done.mp hend).2
      | false =>
          have hread : Completes reputation (await (.findBySource judged.source) >>=
            fun stored : Option ReputationSignal => pure ⟨stored.getD signal, false⟩) middle result
              store' := hend
          have hdone := completes_findBySource hread
          exact (completes_done.mp hdone).2
    have hcommitted : (∃ written, store.commit (recordWork signal) = .ok written ∧
        store' = written) ∨ (∃ failure, store.commit (recordWork signal) = .error failure) ∧
          store' = store := by
      rcases completes_bind.mp hrest with ⟨recorded, middle, hlanded, hend⟩ | ⟨error, hlanded, -⟩
      · obtain rfl := hsettled hend
        rcases completes_landed hlanded with ⟨-, hcommit⟩ | ⟨-, rfl, hfailed⟩
        · exact .inl ⟨_, hcommit, rfl⟩
        · exact .inr ⟨hfailed, rfl⟩
      · rcases completes_landed hlanded with ⟨hok, -⟩ | ⟨-, rfl, hfailed⟩
        · cases hok
        · exact .inr ⟨hfailed, rfl⟩
    have hsource : signal.source = judged.source := rfl
    rcases commit_recordWork signal hshape hnew with
      ⟨habsent, hparent, written, hok, horganizations, hsignals⟩ | ⟨hrefused, failure, herror⟩
    · obtain rfl : store' = written := by
        rcases hcommitted with ⟨other, hother, rfl⟩ | ⟨⟨failure, hfailed⟩, -⟩
        · rw [hok] at hother
          exact (Except.ok.inj hother).symm
        · rw [hok] at hfailed
          cases hfailed
      have hown : ∀ row ∈ store.signals.values,
          row.source = signal.source ↔ row.reputationSignalId = signal.reputationSignalId := by
        refine fun row hrow => iff_of_false (findBySource_none habsent hrow) (fun hsame => ?_)
        have hget := hsound.get hrow
        rw [hsame] at hget
        exact absurd (hnew.symm.trans hget) (by simp)
      obtain ⟨hsound', hfound⟩ := hsound.written hparent hown horganizations hsignals
      refine ⟨hsound', horganizations, fun source => ?_⟩
      dsimp only
      rw [hfound, hsource]
      by_cases hthis : source = judged.source
      · have hnothing : store.found source = none := by
          rw [hthis, ReputationStore.found, ← hsource, habsent]
          rfl
        rw [if_pos hthis, if_pos ⟨hparent, hthis, hnothing⟩]
        rfl
      · rw [if_neg hthis, if_neg (fun hall => hthis hall.2.1)]
    · obtain rfl : store' = store := by
        rcases hcommitted with ⟨other, hother, -⟩ | ⟨-, hsame⟩
        · rw [herror] at hother
          cases hother
        · exact hsame
      refine ⟨hsound, rfl, fun source => ?_⟩
      dsimp only
      rw [if_neg]
      rintro ⟨hparent, rfl, hnothing⟩
      refine hrefused ⟨?_, hparent⟩
      rw [hsource]
      simpa [ReputationStore.found] using hnothing
  · rw [hcall] at h
    rw [hnone]
    obtain ⟨-, rfl⟩ := completes_fail.mp h
    exact Leaves.same hsound

/-- A signal that stands takes its marker. -/
theorem commit_retractWork {existing : ReputationSignal} {organizationId reason : String}
    (retractedAt : Int) (hsound : Sound store) (hreason : isBlank reason = false)
    (horganization : existing.organizationId = organizationId)
    (hexisting : existing ∈ store.signals.values) (hstanding : existing.retractedAt = none) :
    ∃ retraction written,
      store.commit (retractWork existing organizationId retractedAt reason) = .ok written ∧
        written.organizations = store.organizations ∧
        written.signals = store.signals.put existing.reputationSignalId
          (existing.marked retraction) := by
  subst horganization
  let retraction : Retraction := ⟨existing.source, retractedAt, reason⟩
  refine ⟨retraction, ?_⟩
  rw [show retractWork existing existing.organizationId retractedAt reason =
    ⟨[.retract retraction], [signalRetracted existing retractedAt],
      [retractedEntry existing reason]⟩ from rfl]
  have hfound : store.findBySource retraction.source = some existing :=
    hsound.findBySource_iff.mpr ⟨hexisting, rfl⟩
  have hput : store.putRow (existing.marked retraction) = .ok { store with
      signals := store.signals.put existing.reputationSignalId (existing.marked retraction) } := by
    refine putRow_eq (hsound.parents existing hexisting) (fun previous hprevious => ?_)
    have hsame : some existing = some previous := (hsound.get hexisting).symm.trans hprevious
    obtain rfl := Option.some.inj hsame
    exact assertAppendOnly_marked retraction hstanding
  have hretract : store.retractIfStanding retraction = .ok (.applied, { store with
      signals := store.signals.put existing.reputationSignalId (existing.marked retraction) }) := by
    unfold ReputationStore.retractIfStanding
    rw [show isBlank retraction.reason = false from hreason, hfound]
    dsimp only
    rw [hstanding, hput]
    rfl
  simp only [ReputationStore.commit, runAll, Staged.run, hretract, Except.ok.injEq,
    exists_eq_left', and_self]

/-- From what was found of the source on. -/
theorem completes_retracting {source : SignalSource} {retractedAt : Int} {reason : String}
    {result : Except Raised RetractSignalResult} (hsound : Sound store)
    (hreason : isBlank reason = false)
    (h : Completes reputation (match store.findBySource source with
      | none => pure ⟨none, false⟩
      | some existing =>
          if existing.retractedAt.isSome then pure ⟨some existing, false⟩
          else do
            let applied ← landed (retractWork existing source.organizationId retractedAt reason)
            let stored : Option ReputationSignal ← await (.get existing.reputationSignalId)
            pure ⟨stored, applied⟩) store result store') :
    Leaves store store' (fun other =>
      if other = source then (store.found other).map (fun found => (found.1, true))
      else store.found other) := by
  have hunchanged : store' = store →
      (store.found source).map (fun found => (found.1, true)) = store.found source →
        Leaves store store' (fun other =>
          if other = source then (store.found other).map (fun found => (found.1, true))
          else store.found other) := by
    rintro rfl hsame
    refine ⟨hsound, rfl, fun other => ?_⟩
    split
    · rename_i hother
      rw [hother, hsame]
    · rfl
  cases hfound : store.findBySource source with
  | none =>
      rw [hfound] at h
      obtain ⟨-, hsame⟩ := completes_done.mp h
      exact hunchanged hsame (by simp [ReputationStore.found, hfound])
  | some existing =>
      rw [hfound] at h
      dsimp only at h
      obtain ⟨hexisting, hsource⟩ := mem_of_findBySource hfound
      by_cases hretracted : existing.retractedAt.isSome = true
      · rw [if_pos hretracted] at h
        obtain ⟨-, hsame⟩ := completes_done.mp h
        exact hunchanged hsame (by simp [ReputationStore.found, hfound, hretracted])
      · rw [if_neg hretracted] at h
        have hstanding : existing.retractedAt = none := by simpa using hretracted
        have horganization : existing.organizationId = source.organizationId := by
          rw [← hsource]
          rfl
        obtain ⟨retraction, written, hcommit, horganizations, hsignals⟩ :=
          commit_retractWork retractedAt hsound hreason horganization hexisting
            hstanding
        obtain rfl : store' = written := by
          rcases completes_bind.mp h with ⟨applied, middle, hlanded, hend⟩ | ⟨error, hlanded, -⟩
          · have hdone := completes_get hend
            obtain ⟨-, rfl⟩ := completes_done.mp hdone
            rcases completes_landed hlanded with ⟨-, hok⟩ | ⟨-, -, failure, hfailed⟩
            · exact Except.ok.inj (hok.symm.trans hcommit)
            · cases hfailed.symm.trans hcommit
          · rcases completes_landed hlanded with ⟨hok, -⟩ | ⟨-, -, failure, hfailed⟩
            · cases hok
            · cases hfailed.symm.trans hcommit
        have hown : ∀ row ∈ store.signals.values,
            row.source = (existing.marked retraction).source ↔
              row.reputationSignalId = (existing.marked retraction).reputationSignalId := by
          intro row hrow
          constructor
          · intro hsame
            rw [hsound.oneRow row hrow existing hexisting hsame]
            rfl
          · intro hsame
            have hget : store.get existing.reputationSignalId = some row := by
              rw [show existing.reputationSignalId = row.reputationSignalId from hsame.symm]
              exact hsound.get hrow
            rw [Option.some.inj ((hsound.get hexisting).symm.trans hget)]
            rfl
        have hparent : (existing.marked retraction).organizationId ∈ store.organizations :=
          hsound.parents existing hexisting
        obtain ⟨hsound', hfound'⟩ := hsound.written hparent hown horganizations hsignals
        refine ⟨hsound', horganizations, fun other => ?_⟩
        rw [hfound', show (existing.marked retraction).source = source from hsource]
        split
        · rename_i hother
          rw [hother, ReputationStore.found, hfound]
          rfl
        · rfl

/-- A retraction withdraws what stands under its source, and changes nothing else. -/
theorem completes_retractSignal {service : ReputationService} {input : RetractSignalInput}
    {result : Except Raised RetractSignalResult} (hsound : Sound store)
    (h : Completes reputation (service.retractSignal input) store result store') :
    Leaves store store' (fun source =>
      if (isId input.organizationId && !(trim input.reason).isEmpty &&
          (service.readInstant input.retractedAt).isSome) = true ∧
          source = ⟨input.organizationId, trim input.sourceSystem, trim input.sourceReference⟩ then
        (store.found source).map (fun found => (found.1, true))
      else store.found source) := by
  unfold ReputationService.retractSignal assertId at h
  simp only [require_bind] at h
  have hrefused : ∀ {error : Raised}, Completes reputation (.fail error) store result store' →
      (isId input.organizationId && !(trim input.reason).isEmpty &&
          (service.readInstant input.retractedAt).isSome) = false →
        Leaves store store' (fun source =>
          if (isId input.organizationId && !(trim input.reason).isEmpty &&
              (service.readInstant input.retractedAt).isSome) = true ∧
              source = ⟨input.organizationId, trim input.sourceSystem,
                trim input.sourceReference⟩ then
            (store.found source).map (fun found => (found.1, true))
          else store.found source) := by
    intro error hfail hfalse
    obtain ⟨-, rfl⟩ := completes_fail.mp hfail
    simp only [hfalse, Bool.false_eq_true, false_and, if_false]
    exact Leaves.same hsound
  split at h
  · rename_i horganization
    split at h
    · rename_i hreason
      cases hinstant : service.readInstant input.retractedAt with
      | none =>
          rw [hinstant] at h hrefused
          exact hrefused h (by simp)
      | some retractedAt =>
          rw [hinstant] at h
          simp only [horganization, hreason, Option.isSome_some, Bool.and_self, true_and]
          exact completes_retracting hsound (isBlank_trim (by simpa using hreason))
            (completes_findBySource h)
    · rename_i hreason
      exact hrefused h (by simp [hreason])
  · rename_i horganization
    exact hrefused h (by simp [horganization])

end Handlers

/-! ### A sequence of deliveries -/

/-- What one event makes of what is found under a source. -/
def follow (service : ReputationService) (organizations : List String) (source : SignalSource)
    (found : Option (Report × Bool)) (event : ReviewEvent) : Option (Report × Bool) :=
  match service.reports organizations event with
  | some (own, report) => if own = source ∧ found = none then some (report, false) else found
  | none =>
      if service.withdraws event = some source then found.map (fun found => (found.1, true))
      else found

section Sequences

variable {service : ReputationService} {organizations : List String}

/-- One delivery, whatever its handler returns or raises. -/
theorem completes_consume {store store' : ReputationStore} {event : ReviewEvent}
    {result : Except Raised Unit} (hsound : Sound store)
    (h : Completes reputation (service.consume event) store result store') :
    Leaves store store'
      (fun source => follow service store.organizations source (store.found source) event) := by
  cases event with
  | rated producer correlationId payload =>
      have hrecorded : ∃ result', Completes reputation (service.recordSignal
          (ReputationService.ratedInput producer correlationId payload)) store result' store' := by
        rcases completes_bind.mp h with ⟨recorded, middle, hcall, hend⟩ | ⟨error, hcall, -⟩
        · obtain ⟨-, rfl⟩ := completes_done.mp hend
          exact ⟨_, hcall⟩
        · exact ⟨_, hcall⟩
      obtain ⟨result', hcall⟩ := hrecorded
      obtain ⟨hsound', horganizations, hfound⟩ := completes_recordSignal hsound hcall
      refine ⟨hsound', horganizations, fun source => ?_⟩
      rw [hfound]
      simp only [follow, ReputationService.reports, ReputationService.withdraws]
      cases service.judges (ReputationService.ratedInput producer correlationId payload) with
      | none => rfl
      | some judged =>
          dsimp only
          by_cases hparent : judged.source.organizationId ∈ store.organizations
          · simp only [hparent, if_true, true_and]
            exact if_congr (and_congr_left' eq_comm) rfl rfl
          · simp [hparent]
  | retracted producer correlationId payload =>
      have hretracted : ∃ result', Completes reputation (service.retractSignal
          (ReputationService.retractedInput producer correlationId payload)) store result'
            store' := by
        rcases completes_bind.mp h with ⟨retracted, middle, hcall, hend⟩ | ⟨error, hcall, -⟩
        · obtain ⟨-, rfl⟩ := completes_done.mp hend
          exact ⟨_, hcall⟩
        · exact ⟨_, hcall⟩
      obtain ⟨result', hcall⟩ := hretracted
      obtain ⟨hsound', horganizations, hfound⟩ := completes_retractSignal hsound hcall
      refine ⟨hsound', horganizations, fun source => ?_⟩
      rw [hfound]
      simp only [follow, ReputationService.reports, ReputationService.withdraws,
        ReputationService.retractedInput]
      by_cases hchecks : (isId payload.organizationId && !(trim payload.reason).isEmpty &&
          (service.readInstant payload.retractedAt).isSome) = true
      · simp only [hchecks, if_true, true_and, Option.some.injEq]
        exact if_congr eq_comm rfl rfl
      · simp only [hchecks, Bool.false_eq_true, if_false, false_and, reduceCtorEq]

/-- Every sequence of deliveries, event by event. -/
theorem delivered_leaves {events : List ReviewEvent} {store store' : ReputationStore}
    (hsound : Sound store) (h : Delivered service events store store') :
    Leaves store store' (fun source =>
      events.foldl (follow service store.organizations source) (store.found source)) := by
  induction h with
  | none store => exact Leaves.same hsound
  | next hhandled _ ih =>
      obtain ⟨hmiddle, horganizations, hfound⟩ := completes_consume hsound hhandled
      obtain ⟨hlast, horganizations', hfound'⟩ := ih hmiddle
      refine ⟨hlast, horganizations'.trans horganizations, fun source => ?_⟩
      rw [hfound', hfound, horganizations]
      rfl

/-- Once a report is found it stays, and is withdrawn by any retraction of its source. -/
theorem follow_found (source : SignalSource) (report : Report) (withdrawn : Bool)
    (events : List ReviewEvent) :
    events.foldl (follow service organizations source) (some (report, withdrawn)) =
      some (report, withdrawn || events.any (fun event =>
        service.withdraws event = some source)) := by
  induction events generalizing withdrawn with
  | nil => simp
  | cons event rest ih =>
      have hstep : follow service organizations source (some (report, withdrawn)) event =
          some (report, withdrawn || decide (service.withdraws event = some source)) := by
        cases event with
        | rated producer correlationId payload =>
            unfold follow
            split
            · simp [ReputationService.withdraws]
            · simp [ReputationService.withdraws]
        | retracted producer correlationId payload =>
            simp only [follow, ReputationService.reports]
            split
            · rename_i hwithdraws
              simp [hwithdraws]
            · rename_i hother
              simp [hother]
      rw [List.foldl_cons, hstep, ih, List.any_cons, Bool.or_assoc]

/-- What is left of a source says what its first report said. -/
theorem follow_report (source : SignalSource) (events : List ReviewEvent) :
    (events.foldl (follow service organizations source) none).map Prod.fst =
      service.firstReport organizations events source := by
  induction events with
  | nil => rfl
  | cons event rest ih =>
      unfold ReputationService.firstReport at ih ⊢
      rw [List.foldl_cons]
      cases hreports : service.reports organizations event with
      | none =>
          have hstep : follow service organizations source none event = none := by
            simp [follow, hreports]
          rw [hstep, ih, List.filterMap_cons_none hreports]
      | some reported =>
          obtain ⟨own, report⟩ := reported
          rw [List.filterMap_cons_some hreports]
          by_cases hown : own = source
          · have hstep : follow service organizations source none event = some (report, false) := by
              simp [follow, hreports, hown]
            rw [hstep, follow_found, List.find?_cons_of_pos (by simpa using hown)]
            rfl
          · have hstep : follow service organizations source none event = none := by
              simp [follow, hreports, hown]
            rw [hstep, ih, List.find?_cons_of_neg (by simpa using hown)]

theorem retractedAfter_cons {event : ReviewEvent} {rest : List ReviewEvent}
    {source : SignalSource} :
    service.RetractedAfter organizations (event :: rest) source ↔
      (∃ report, service.reports organizations event = some (source, report)) ∧
          (∃ retraction ∈ rest, service.withdraws retraction = some source) ∨
        service.RetractedAfter organizations rest source := by
  constructor
  · rintro ⟨before, rating, between, retraction, after, report, hevents, hreports, hwithdraws⟩
    cases before with
    | nil =>
        obtain ⟨rfl, rfl⟩ := List.cons.inj hevents
        exact .inl ⟨⟨report, hreports⟩, retraction, by simp, hwithdraws⟩
    | cons first before =>
        obtain ⟨rfl, rfl⟩ := List.cons.inj hevents
        exact .inr ⟨before, rating, between, retraction, after, report, rfl, hreports, hwithdraws⟩
  · rintro (⟨⟨report, hreports⟩, retraction, hretraction, hwithdraws⟩ |
      ⟨before, rating, between, retraction, after, report, rfl, hreports, hwithdraws⟩)
    · obtain ⟨between, after, rfl⟩ := List.append_of_mem hretraction
      exact ⟨[], event, between, retraction, after, report, rfl, hreports, hwithdraws⟩
    · exact ⟨event :: before, rating, between, retraction, after, report, rfl, hreports, hwithdraws⟩

/-- It is withdrawn exactly where a retraction came behind a report. -/
theorem follow_withdrawn (source : SignalSource) (events : List ReviewEvent) :
    (∃ report, events.foldl (follow service organizations source) none = some (report, true)) ↔
      service.RetractedAfter organizations events source := by
  induction events with
  | nil =>
      constructor
      · rintro ⟨report, ⟨⟩⟩
      · rintro ⟨before, rating, between, retraction, after, report, hevents, -⟩
        cases before <;> cases hevents
  | cons event rest ih =>
      rw [List.foldl_cons, retractedAfter_cons]
      by_cases hreports : ∃ report, service.reports organizations event = some (source, report)
      · obtain ⟨report, hreported⟩ := hreports
        have hstep : follow service organizations source none event = some (report, false) := by
          simp [follow, hreported]
        have hbehind : service.RetractedAfter organizations rest source →
            ∃ retraction ∈ rest, service.withdraws retraction = some source := by
          rintro ⟨before, rating, between, retraction, after, report, rfl, -, hwithdraws⟩
          exact ⟨retraction, by simp, hwithdraws⟩
        rw [hstep, follow_found]
        simp only [Bool.false_or, Option.some.injEq, Prod.mk.injEq, exists_eq_left',
          List.any_eq_true, decide_eq_true_eq]
        exact ⟨fun hany => .inl ⟨⟨report, hreported⟩, hany⟩,
          fun h => h.elim (fun hfirst => hfirst.2) hbehind⟩
      · have hstep : follow service organizations source none event = none := by
          unfold follow
          split
          · rename_i own report hown
            rw [if_neg]
            rintro ⟨rfl, -⟩
            exact hreports ⟨report, hown⟩
          · simp
        rw [hstep, ih]
        exact ⟨.inr, fun h => h.elim (fun hfirst => absurd hfirst.1 hreports) id⟩

end Sequences

/-! ### Two orders -/

section Orders

variable {service : ReputationService} {store store' : ReputationStore}

/-- The ratings are what is found under their sources. -/
theorem Sound.mem_ratings (h : Sound store) (rating : Rating) :
    rating ∈ store.ratings ↔
      store.found rating.source = some (rating.report, rating.withdrawn) := by
  unfold ReputationStore.ratings ReputationStore.found
  rw [List.mem_map, Option.map_eq_some_iff]
  constructor
  · rintro ⟨row, hrow, rfl⟩
    exact ⟨row, h.findBySource_iff.mpr ⟨hrow, rfl⟩, rfl⟩
  · rintro ⟨row, hfound, hsame⟩
    obtain ⟨hrow, hsource⟩ := h.findBySource_iff.mp hfound
    obtain ⟨hreport, hwithdrawn⟩ := Prod.mk.inj hsame
    refine ⟨row, hrow, ?_⟩
    unfold ReputationSignal.rating
    rw [hsource, hreport, hwithdrawn]

/-- Equal ratings, whichever came first, give equal standings. -/
theorem SameRatings.of_mem (h : Sound store) (h' : Sound store')
    (hsame : ∀ rating, rating ∈ store.ratings ↔ rating ∈ store'.ratings) :
    SameRatings store store' := by
  refine ⟨hsame, fun subject => deriveStanding_perm subject ?_⟩
  have hsubject : ∀ store : ReputationStore,
      (store.forSubject subject).map ReputationSignal.rating =
        store.ratings.filter (fun rating => rating.report.subject = subject) := by
    intro store
    unfold ReputationStore.forSubject ReputationStore.ratings
    rw [List.filter_map]
    rfl
  have hnodup : ∀ {store : ReputationStore}, Sound store → store.ratings.Nodup := by
    intro store hsound
    refine (List.Nodup.of_map _ hsound.keyed.keys_nodup).map_on fun row hrow other hother hrating => ?_
    exact hsound.oneRow row hrow other hother (congrArg Rating.source hrating)
  rw [hsubject, hsubject]
  exact ((List.perm_ext_iff_of_nodup (hnodup h) (hnodup h')).mpr hsame).filter _

/-- The same ratings are found where the same is found under every source. -/
theorem sameRatings_iff (h : Sound store) (h' : Sound store') :
    SameRatings store store' ↔ ∀ source, store.found source = store'.found source := by
  constructor
  · intro hsame source
    refine Option.ext fun found => ?_
    have hrating := hsame.ratings ⟨source, found.1, found.2⟩
    rwa [h.mem_ratings, h'.mem_ratings] at hrating
  · intro hfound
    refine SameRatings.of_mem h h' fun rating => ?_
    rw [h.mem_ratings, h'.mem_ratings, hfound]

/-- Two sequences leave the same under a source where they agree on its first report and
on whether a retraction came behind one. -/
theorem follow_same_iff {organizations : List String} {first second : List ReviewEvent}
    (source : SignalSource) :
    first.foldl (follow service organizations source) none =
        second.foldl (follow service organizations source) none ↔
      service.firstReport organizations first source =
          service.firstReport organizations second source ∧
        (service.RetractedAfter organizations first source ↔
          service.RetractedAfter organizations second source) := by
  rw [← follow_report, ← follow_report, ← follow_withdrawn, ← follow_withdrawn]
  constructor
  · intro hsame
    rw [hsame]
    exact ⟨rfl, Iff.rfl⟩
  · rintro ⟨hreport, hwithdrawn⟩
    cases hfirst : first.foldl (follow service organizations source) none with
    | none =>
        rw [hfirst] at hreport
        cases hsecond : second.foldl (follow service organizations source) none with
        | none => rfl
        | some found => rw [hsecond] at hreport; cases hreport
    | some found =>
        rw [hfirst] at hreport hwithdrawn
        cases hsecond : second.foldl (follow service organizations source) none with
        | none => rw [hsecond] at hreport; cases hreport
        | some found' =>
            rw [hsecond] at hreport hwithdrawn
            obtain ⟨report, withdrawn⟩ := found
            obtain ⟨report', withdrawn'⟩ := found'
            obtain rfl : report = report' := Option.some.inj hreport
            have hsame : withdrawn = true ↔ withdrawn' = true := by
              simpa using hwithdrawn
            rw [Bool.eq_iff_iff.mpr hsame]

/-- Two sequences of deliveries end with the same ratings and standings exactly where
every source has the same first report in both, and is retracted behind it in both or in
neither. -/
theorem delivered_same_iff {organizations : List String} {first second : List ReviewEvent}
    (hfirst : Delivered service first (.empty organizations) store)
    (hsecond : Delivered service second (.empty organizations) store') :
    SameRatings store store' ↔ ∀ source,
      service.firstReport organizations first source =
          service.firstReport organizations second source ∧
        (service.RetractedAfter organizations first source ↔
          service.RetractedAfter organizations second source) := by
  obtain ⟨hsound, -, hfound⟩ := delivered_leaves (sound_empty organizations) hfirst
  obtain ⟨hsound', -, hfound'⟩ := delivered_leaves (sound_empty organizations) hsecond
  rw [sameRatings_iff hsound hsound']
  refine forall_congr' fun source => ?_
  rw [hfound, hfound']
  exact follow_same_iff source

/-- Each reference has one rated content and one retraction. -/
structure OneContent (events : List ReviewEvent) : Prop where
  rated : ∀ producer correlationId payload producer' correlationId' payload',
    .rated producer correlationId payload ∈ events →
      .rated producer' correlationId' payload' ∈ events →
        payload.reviewReference = payload'.reviewReference →
          ReviewEvent.rated producer correlationId payload =
            .rated producer' correlationId' payload'
  retracted : ∀ producer correlationId payload producer' correlationId' payload',
    .retracted producer correlationId payload ∈ events →
      .retracted producer' correlationId' payload' ∈ events →
        payload.reviewReference = payload'.reviewReference →
          ReviewEvent.retracted producer correlationId payload =
            .retracted producer' correlationId' payload'

/-- The first report is settled by the events alone where every report of a source says
the same: what an order decides is whether a retraction came behind. -/
theorem firstReport_same {organizations : List String} {first second : List ReviewEvent}
    {source : SignalSource} (hsame : ∀ event, event ∈ first ↔ event ∈ second)
    (hone : ∀ rating ∈ first, ∀ other ∈ first, ∀ report report',
      service.reports organizations rating = some (source, report) →
        service.reports organizations other = some (source, report') → report = report') :
    service.firstReport organizations first source =
      service.firstReport organizations second source := by
  have hfound : ∀ {events : List ReviewEvent} {report : Report},
      service.firstReport organizations events source = some report →
        ∃ rating ∈ events, service.reports organizations rating = some (source, report) := by
    intro events report h
    obtain ⟨⟨own, reported⟩, hfind, rfl⟩ := Option.map_eq_some_iff.mp h
    obtain ⟨rating, hrating, hreports⟩ := List.mem_filterMap.mp (List.mem_of_find?_eq_some hfind)
    have hown : own = source := by simpa using List.find?_some hfind
    exact ⟨rating, hrating, by rw [hreports, hown]⟩
  have hnone : ∀ {events : List ReviewEvent}, service.firstReport organizations events source = none →
      ∀ rating ∈ events, ∀ report,
        service.reports organizations rating ≠ some (source, report) := by
    intro events h rating hrating report hreports
    have hmissing := List.find?_eq_none.mp (Option.map_eq_none_iff.mp h) (source, report)
      (List.mem_filterMap.mpr ⟨rating, hrating, hreports⟩)
    simp at hmissing
  cases hfirst : service.firstReport organizations first source with
  | none =>
      cases hsecond : service.firstReport organizations second source with
      | none => rfl
      | some report =>
          obtain ⟨rating, hrating, hreports⟩ := hfound hsecond
          exact absurd hreports (hnone hfirst rating ((hsame rating).mpr hrating) report)
  | some report =>
      obtain ⟨rating, hrating, hreports⟩ := hfound hfirst
      cases hsecond : service.firstReport organizations second source with
      | none => exact absurd hreports (hnone hsecond rating ((hsame rating).mp hrating) report)
      | some report' =>
          obtain ⟨other, hother, hreports'⟩ := hfound hsecond
          rw [hone rating hrating other ((hsame other).mpr hother) report report' hreports hreports']

end Orders

/-! ### A retraction before its rating -/

/-- Delivers events with what is chosen at each action of their handlers. -/
def deliver (service : ReputationService) :
    List (ReviewEvent × List Choice) → ReputationStore → Option ReputationStore
  | [], store => some store
  | (event, choices) :: rest, store =>
      match complete reputation choices (service.consume event) store with
      | some (_, middle) => deliver service rest middle
      | none => none

theorem deliver_delivered {service : ReputationService}
    {events : List (ReviewEvent × List Choice)} {store store' : ReputationStore}
    (h : deliver service events store = some store') :
    Delivered service (events.map Prod.fst) store store' := by
  induction events generalizing store with
  | nil =>
      cases h
      exact .none _
  | cons delivery rest ih =>
      obtain ⟨event, choices⟩ := delivery
      simp only [deliver] at h
      split at h
      · rename_i result middle hhandled
        exact .next (complete_completes hhandled) (ih h)
      · cases h

def reviewRated : ReviewEvent :=
  .rated "wasla-market" "c-1" ⟨"review-7", idOf '1', "identity", idOf '2', 4,
    "2026-02-01T12:00:00.000Z"⟩

def reviewRetracted : ReviewEvent :=
  .retracted "wasla-market" "c-2" ⟨"review-7", idOf '1', "moderated", "2026-02-01T12:00:00.000Z"⟩

def reviewSource : SignalSource := ⟨idOf '1', "wasla-market", "review-7"⟩

def reviewReport : Report :=
  ⟨⟨idOf '1', .identity, idOf '2'⟩, .serviceRating, some 4⟩

theorem reports_reviewRated :
    noon.reports [idOf '1'] reviewRated = some (reviewSource, reviewReport) := by
  decide +kernel

theorem withdraws_reviewRetracted : noon.withdraws reviewRetracted = some reviewSource := by
  decide +kernel

def recorded : List Choice := [.drawn (idOf '3'), .reading 10, .proceed]

def withdrawn : List Choice := [.proceed, .proceed, .proceed]

theorem follow_reviewRated (source : SignalSource) (found : Option (Report × Bool)) :
    follow noon [idOf '1'] source found reviewRated =
      if reviewSource = source ∧ found = none then some (reviewReport, false) else found := by
  unfold follow
  rw [reports_reviewRated]

theorem follow_reviewRetracted (source : SignalSource) (found : Option (Report × Bool)) :
    follow noon [idOf '1'] source found reviewRetracted =
      if reviewSource = source then found.map (fun found => (found.1, true)) else found := by
  have hreports : noon.reports [idOf '1'] reviewRetracted = none := rfl
  unfold follow
  rw [hreports, withdraws_reviewRetracted]
  simp only [Option.some.injEq]

/-- A rating that is sent again before it is withdrawn makes no difference. -/
theorem delivered_same_redelivered :
    ∃ store store', Delivered noon [reviewRated, reviewRetracted] (.empty [idOf '1']) store ∧
      Delivered noon [reviewRated, reviewRated, reviewRetracted] (.empty [idOf '1']) store' ∧
      SameRatings store store' := by
  have hdelivers : (deliver noon [(reviewRated, recorded), (reviewRetracted, withdrawn)]
      (.empty [idOf '1'])).isSome = true := by
    decide +kernel
  have hagain : (deliver noon [(reviewRated, recorded),
      (reviewRated, [.drawn (idOf '4'), .reading 11, .proceed, .proceed]),
      (reviewRetracted, withdrawn)] (.empty [idOf '1'])).isSome = true := by
    decide +kernel
  obtain ⟨store, hstore⟩ := Option.isSome_iff_exists.mp hdelivers
  obtain ⟨store', hstore'⟩ := Option.isSome_iff_exists.mp hagain
  have hfirst := deliver_delivered hstore
  have hsecond := deliver_delivered hstore'
  refine ⟨store, store', hfirst, hsecond, (delivered_same_iff hfirst hsecond).mpr fun source => ?_⟩
  apply (follow_same_iff source).mp
  by_cases hown : reviewSource = source
  · simp [follow_reviewRated, follow_reviewRetracted, hown]
  · simp [follow_reviewRated, follow_reviewRetracted, hown]

/-- A retraction that overtakes its rating is lost: the one order withdraws the rating, and
the other leaves it standing. -/
theorem delivered_overtaken :
    ¬∀ (service : ReputationService) (organizations : List String)
      (first second : List ReviewEvent) (store store' : ReputationStore),
      (∀ event, event ∈ first ↔ event ∈ second) → OneContent first →
        Delivered service first (.empty organizations) store →
          Delivered service second (.empty organizations) store' → SameRatings store store' := by
  intro hclaim
  have hdelivers : (deliver noon [(reviewRated, recorded), (reviewRetracted, withdrawn)]
      (.empty [idOf '1'])).any (fun store =>
        store.ratings = [⟨reviewSource, reviewReport, true⟩]) = true := by
    decide +kernel
  have hovertaken : (deliver noon [(reviewRetracted, [.proceed]), (reviewRated, recorded)]
      (.empty [idOf '1'])).any (fun store =>
        store.ratings = [⟨reviewSource, reviewReport, false⟩]) = true := by
    decide +kernel
  obtain ⟨store, hstore, hratings⟩ := (Option.any_eq_true _ _).mp hdelivers
  obtain ⟨store', hstore', hratings'⟩ := (Option.any_eq_true _ _).mp hovertaken
  have hone : OneContent [reviewRated, reviewRetracted] := by
    constructor
    · intro producer correlationId payload producer' correlationId' payload' h h'
      simp only [reviewRetracted, List.mem_cons, List.not_mem_nil, or_false, reduceCtorEq] at h h'
      intro _
      rw [h, h']
    · intro producer correlationId payload producer' correlationId' payload' h h'
      simp only [reviewRated, List.mem_cons, List.not_mem_nil, or_false, reduceCtorEq,
        false_or] at h h'
      intro _
      rw [h, h']
  have hsame := hclaim noon [idOf '1'] [reviewRated, reviewRetracted]
    [reviewRetracted, reviewRated] store store'
    (fun event => by simp only [List.mem_cons, List.not_mem_nil, or_false]; exact or_comm) hone
    (deliver_delivered hstore) (deliver_delivered hstore')
  have hwithdrawn := (hsame.ratings ⟨reviewSource, reviewReport, true⟩).mp
    (by rw [of_decide_eq_true hratings]; exact List.mem_singleton.mpr rfl)
  rw [of_decide_eq_true hratings', List.mem_singleton] at hwithdrawn
  cases congrArg Rating.withdrawn hwithdrawn

end WaslaCore.Reputation
