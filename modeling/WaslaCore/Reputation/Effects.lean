import WaslaCore.Reputation.Service

/-!
What a write to the reputation store did where it went through: one row under a new
identifier and a new source, or one marker on a row that stood.
-/

namespace WaslaCore.Reputation

open Platform Data

/-- A staged write that went through. -/
inductive Wrote (store : ReputationStore) : Staged → ReputationStore → Prop where
  | inserted (signal : ReputationSignal)
      (hnew : store.get signal.reputationSignalId = none)
      (habsent : store.findBySource signal.source = none)
      (hparent : signal.organizationId ∈ store.organizations) :
      Wrote store (.insert signal)
        { store with signals := store.signals.put signal.reputationSignalId signal }
  | marked (retraction : Retraction) (stored : ReputationSignal)
      (hstored : store.findBySource retraction.source = some stored)
      (hstanding : stored.retractedAt = none) :
      Wrote store (.retract retraction)
        { store with
          signals := store.signals.put stored.reputationSignalId (stored.marked retraction) }

theorem sameFrozen_source {previous next : ReputationSignal}
    (h : previous.sameFrozen next = true) : previous.source = next.source := by
  simp only [ReputationSignal.sameFrozen, decide_eq_true_eq, ReputationSignal.mk.injEq] at h
  obtain ⟨-, horganization, -, -, -, -, hsystem, hreference, -⟩ := h
  simp [ReputationSignal.source, horganization, hsystem, hreference]

theorem assertAppendOnly_ok {previous next : ReputationSignal}
    (h : assertAppendOnly previous next = .ok ()) : previous.source = next.source := by
  unfold assertAppendOnly at h
  split at h
  · cases h
  split at h
  · cases h
  rename_i hsame
  exact sameFrozen_source (by simpa using hsame)

theorem mem_of_findBySource {store : ReputationStore} {source : SignalSource}
    {row : ReputationSignal} (h : store.findBySource source = some row) :
    row ∈ store.signals.values ∧ row.source = source :=
  ⟨List.mem_of_find?_eq_some h, by simpa using List.find?_some h⟩

theorem findBySource_none {store : ReputationStore} {source : SignalSource}
    (h : store.findBySource source = none) {row : ReputationSignal}
    (hrow : row ∈ store.signals.values) : row.source ≠ source := by
  simpa using List.find?_eq_none.mp h row hrow

theorem putRow_ok {store store' : ReputationStore} {signal : ReputationSignal}
    (h : store.putRow signal = .ok store') :
    signal.organizationId ∈ store.organizations ∧
      store' = { store with signals := store.signals.put signal.reputationSignalId signal } ∧
      ∀ previous, store.get signal.reputationSignalId = some previous →
        assertAppendOnly previous signal = .ok () := by
  unfold ReputationStore.putRow at h
  by_cases hparent : signal.organizationId ∉ store.organizations
  · rw [if_pos hparent] at h
    cases h
  · rw [if_neg hparent] at h
    cases hprevious : store.signals.get signal.reputationSignalId with
    | none =>
        rw [hprevious] at h
        refine ⟨not_not.mp hparent, (Except.ok.inj h).symm, fun previous hfound => ?_⟩
        rw [ReputationStore.get, hprevious] at hfound
        cases hfound
    | some previous =>
        rw [hprevious] at h
        cases happend : assertAppendOnly previous signal with
        | error message =>
            simp only [happend] at h
            cases h
        | ok done =>
            simp only [happend] at h
            refine ⟨not_not.mp hparent, (Except.ok.inj h).symm, fun other hfound => ?_⟩
            rw [ReputationStore.get, hprevious] at hfound
            obtain rfl := Option.some.inj hfound
            exact happend

theorem run_wrote {store store' : ReputationStore} {staged : Staged}
    (h : staged.run store = .ok store') : Wrote store staged store' := by
  cases staged with
  | insert signal =>
      simp only [Staged.run, ReputationStore.insertIfAbsent] at h
      cases hshape : assertSignalShape signal with
      | error message =>
          rw [hshape] at h
          cases h
      | ok done =>
          cases hsource : store.findBySource signal.source with
          | some other =>
              rw [hshape, hsource] at h
              cases h
          | none =>
              rw [hshape, hsource] at h
              cases hput : store.putRow signal with
              | error message =>
                  rw [hput] at h
                  cases h
              | ok written =>
                  rw [hput] at h
                  obtain rfl := Except.ok.inj h
                  obtain ⟨hparent, rfl, hold⟩ := putRow_ok hput
                  refine .inserted signal ?_ hsource hparent
                  cases hprevious : store.get signal.reputationSignalId with
                  | none => rfl
                  | some previous =>
                      have hsame := assertAppendOnly_ok (hold previous hprevious)
                      have hrow := Table.mem_values.mpr ⟨_, hprevious⟩
                      exact absurd hsame (findBySource_none hsource hrow)
  | retract retraction =>
      simp only [Staged.run, ReputationStore.retractIfStanding] at h
      by_cases hreason : isBlank retraction.reason = true
      · rw [if_pos hreason] at h
        cases h
      · rw [if_neg hreason] at h
        cases hsource : store.findBySource retraction.source with
        | none =>
            rw [hsource] at h
            cases h
        | some stored =>
            rw [hsource] at h
            by_cases hretracted : stored.retractedAt.isSome = true
            · simp only [if_pos hretracted] at h
              cases h
            · simp only [if_neg hretracted] at h
              cases hput : store.putRow (stored.marked retraction) with
              | error message =>
                  rw [hput] at h
                  cases h
              | ok written =>
                  rw [hput] at h
                  obtain rfl := Except.ok.inj h
                  obtain ⟨-, rfl, -⟩ := putRow_ok hput
                  exact .marked retraction stored hsource (by simpa using hretracted)

/-- A row with a parent is put, where the row it replaces allows it. -/
theorem putRow_eq {store : ReputationStore} {signal : ReputationSignal}
    (hparent : signal.organizationId ∈ store.organizations)
    (hprevious : ∀ previous, store.get signal.reputationSignalId = some previous →
      assertAppendOnly previous signal = .ok ()) :
    store.putRow signal =
      .ok { store with signals := store.signals.put signal.reputationSignalId signal } := by
  unfold ReputationStore.putRow
  rw [if_neg (not_not.mpr hparent)]
  cases hget : store.signals.get signal.reputationSignalId with
  | none => rfl
  | some previous =>
      dsimp only
      rw [hprevious previous hget]
      rfl

/-- A row that stands may take its marker. -/
theorem assertAppendOnly_marked {stored : ReputationSignal} (retraction : Retraction)
    (hstanding : stored.retractedAt = none) :
    assertAppendOnly stored (stored.marked retraction) = .ok () := by
  have hsame : stored.sameFrozen (stored.marked retraction) = true := decide_eq_true rfl
  unfold assertAppendOnly
  rw [hstanding, hsame]
  rfl

/-- A commit of one staged write that went through. -/
theorem commit_ok {store store' : ReputationStore} {staged : Staged} {events : List Event}
    {audits : List AuditEntry} (h : store.commit ⟨[staged], events, audits⟩ = .ok store') :
    ∃ written, Wrote store staged written ∧
      store' = { written with
        outbox := written.outbox ++ events
        audit := written.audit ++ audits.map AuditEntry.recorded } := by
  unfold ReputationStore.commit at h
  split at h
  · cases h
  rename_i written hrun
  simp only [runAll] at hrun
  split at hrun
  · rename_i next hnext
    obtain rfl := Except.ok.inj hrun
    exact ⟨next, run_wrote hnext, (Except.ok.inj h).symm⟩
  · cases hrun

end WaslaCore.Reputation
