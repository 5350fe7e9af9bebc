import WaslaCore.Data.Aggregates
import WaslaCore.Data.Selection
import WaslaCore.Reputation.Counted

/-!
What a standing is, said without folding: how many signals there are, of which kinds, how many
were withdrawn, which ratings still stand and between which instants they were recorded. The
groups it is derived from are the rows of the database's `group by`, in the declared order of
the kinds.
-/

namespace WaslaCore.Reputation

open Data

/-! ### The rows of a group by -/

def kindIndex (kind : ReputationSignalKind) : Nat := reputationSignalKinds.idxOf kind

/-- `select signal_kind, count(*) filter …, min(recorded_at), max(recorded_at)`, for one group. -/
def groupRow (group : ReputationSignalKind × List ReputationSignal) : ReputationKindGroup where
  signalKind := group.1
  standingCount := (group.2.filter fun signal => signal.retractedAt.isNone).length
  retractedCount := (group.2.filter fun signal => signal.retractedAt.isSome).length
  ratingCount := countOf
    ((group.2.filter fun signal => signal.retractedAt.isNone).map ReputationSignal.ratingValue)
  ratingSum := (sumOf ((group.2.filter fun signal => signal.retractedAt.isNone).map
    ReputationSignal.ratingValue)).getD 0
  firstRecordedAt := ((group.2.map ReputationSignal.recordedAt).min?).getD 0
  lastRecordedAt := ((group.2.map ReputationSignal.recordedAt).max?).getD 0

/-- `… from reputation_signal where … group by signal_kind`: an answer of the database. -/
def SelectsGroups (table : List ReputationSignal) (subject : ReputationSubject)
    (answer : List ReputationKindGroup) : Prop :=
  ∃ groups, GroupsBy ReputationSignal.signalKind
    (table.filter fun signal => signal.subject = subject) groups ∧ answer = groups.map groupRow

/-- The answer, sorted into the declared order of the kinds. -/
def pgGroupsForSubject (answer : List ReputationKindGroup) : List ReputationKindGroup :=
  answer.insertionSort fun first second => kindIndex first.signalKind ≤ kindIndex second.signalKind

/-- Ratings that still stand. -/
def standingRatings (signals : List ReputationSignal) : List Int :=
  ((signals.filter fun signal => signal.retractedAt.isNone).map
    ReputationSignal.ratingValue).reduceOption

theorem standingRatings_perm {signals signals' : List ReputationSignal}
    (h : signals.Perm signals') : (standingRatings signals).Perm (standingRatings signals') :=
  ((h.filter _).map _).filterMap id

theorem groupRow_perm {kind : ReputationSignalKind} {signals signals' : List ReputationSignal}
    (h : signals.Perm signals') : groupRow (kind, signals) = groupRow (kind, signals') := by
  have hstanding := h.filter fun signal => signal.retractedAt.isNone
  have hretracted := h.filter fun signal => signal.retractedAt.isSome
  have hinstants := h.map ReputationSignal.recordedAt
  have hcount := (standingRatings_perm h).length_eq
  have hsum := (standingRatings_perm h).sum_eq
  unfold standingRatings at hcount hsum
  simp only [groupRow, sumOf_getD, countOf, hstanding.length_eq, hretracted.length_eq, hcount,
    hsum, extremum_min.perm hinstants, extremum_max.perm hinstants]

/-! ### The groups of a fold -/

/-- The group once some more signals of its kind are counted. -/
def tallied (group : ReputationKindGroup) (signals : List ReputationSignal) :
    ReputationKindGroup where
  signalKind := group.signalKind
  standingCount := group.standingCount +
    (signals.filter fun signal => signal.retractedAt.isNone).length
  retractedCount := group.retractedCount +
    (signals.filter fun signal => signal.retractedAt.isSome).length
  ratingCount := group.ratingCount + (standingRatings signals).length
  ratingSum := group.ratingSum + (standingRatings signals).sum
  firstRecordedAt := (signals.map ReputationSignal.recordedAt).foldl min group.firstRecordedAt
  lastRecordedAt := (signals.map ReputationSignal.recordedAt).foldl max group.lastRecordedAt

theorem foldl_count (signals : List ReputationSignal) (group : ReputationKindGroup)
    (hvalid : ∀ signal ∈ signals, ratingShapeIsValid signal.signalKind signal.ratingValue = true) :
    signals.foldl ReputationKindGroup.count group = tallied group signals := by
  induction signals generalizing group with
  | nil => simp [tallied, standingRatings]
  | cons signal rest ih =>
      have hshape := hvalid signal List.mem_cons_self
      rw [List.foldl_cons, ih _ fun other hother => hvalid other (List.mem_cons_of_mem _ hother)]
      unfold ReputationKindGroup.count
      cases hretracted : signal.retractedAt with
      | some instant =>
          simp [tallied, standingRatings, hretracted, min_comm, max_comm, Nat.add_assoc,
            Nat.add_comm]
      | none =>
          cases hrating : signal.ratingValue with
          | none =>
              simp [tallied, standingRatings, hretracted, hrating, min_comm, max_comm,
                Nat.add_assoc, Nat.add_comm]
          | some rating =>
              have hkind : signal.signalKind = ratedKind := by
                by_contra hother
                simp [ratingShapeIsValid, hother, hrating] at hshape
              simp [tallied, standingRatings, hretracted, hrating, hkind, min_comm, max_comm,
                Nat.add_assoc, Nat.add_comm, Int.add_assoc]

/-- The fold keeps one group for each kind, and counts into it what is of that kind. -/
theorem foldl_groups (signals : List ReputationSignal) (groups : Groups)
    (kind : ReputationSignalKind) :
    signals.foldl Groups.add groups kind =
      (signals.filter fun signal => signal.signalKind = kind).foldl
        (fun group signal => some ((group.getD (.opened signal)).count signal)) (groups kind) := by
  induction signals generalizing groups with
  | nil => rfl
  | cons signal rest ih =>
      rw [List.foldl_cons, ih]
      by_cases hown : signal.signalKind = kind
      · rw [List.filter_cons_of_pos (by simpa using hown), List.foldl_cons, Groups.add,
          if_pos hown.symm]
      · rw [List.filter_cons_of_neg (by simpa using hown), Groups.add,
          if_neg (fun heq => hown heq.symm)]

/-- The row of a kind, where it has one. -/
def selectGroup (signals : List ReputationSignal) (kind : ReputationSignalKind) :
    Option ReputationKindGroup :=
  let own := signals.filter fun signal => signal.signalKind = kind
  if own = [] then none else some (groupRow (kind, own))

theorem tallied_opened (signal : ReputationSignal) (rest : List ReputationSignal) :
    tallied (.opened signal) (signal :: rest) =
      groupRow (signal.signalKind, signal :: rest) := by
  simp only [tallied, ReputationKindGroup.opened, groupRow, countOf, sumOf_getD, standingRatings,
    List.map_cons, List.foldl_cons, min_self, max_self, List.min?_cons', List.max?_cons',
    Option.getD_some, Nat.zero_add, Int.zero_add]

/-- The group of a kind is the row the database gives. -/
theorem foldl_selectGroup {signals : List ReputationSignal}
    (hvalid : ∀ signal ∈ signals, ratingShapeIsValid signal.signalKind signal.ratingValue = true) :
    signals.foldl Groups.add (fun _ => none) = selectGroup signals := by
  funext kind
  have hsome : ∀ (rows : List ReputationSignal) (group : ReputationKindGroup),
      rows.foldl (fun group signal => some ((group.getD (.opened signal)).count signal))
        (some group) = some (rows.foldl ReputationKindGroup.count group) := by
    intro rows
    induction rows with
    | nil => exact fun _ => rfl
    | cons signal rest ih =>
        intro group
        rw [List.foldl_cons, List.foldl_cons]
        exact ih _
  rw [foldl_groups, selectGroup]
  cases hown : signals.filter fun signal => signal.signalKind = kind with
  | nil => rfl
  | cons signal rest =>
      have hkind : ∀ other ∈ signal :: rest, other ∈ signals ∧ other.signalKind = kind := by
        intro other hother
        rw [← hown] at hother
        obtain ⟨hmember, hsame⟩ := List.mem_filter.mp hother
        exact ⟨hmember, of_decide_eq_true hsame⟩
      have hcounted := foldl_count (signal :: rest) (.opened signal)
        fun other hother => hvalid other (hkind other hother).1
      rw [tallied_opened, (hkind signal List.mem_cons_self).2] at hcounted
      rw [if_neg (by simp), List.foldl_cons, Option.getD_none, hsome, ← hcounted, List.foldl_cons]

theorem groupSignals_eq {signals : List ReputationSignal}
    (hvalid : ∀ signal ∈ signals, ratingShapeIsValid signal.signalKind signal.ratingValue = true) :
    groupSignals signals = reputationSignalKinds.filterMap (selectGroup signals) := by
  rw [groupSignals, foldl_selectGroup hvalid]

/-! ### The groups are the database's -/

theorem kindIndex_injective {kind kind' : ReputationSignalKind}
    (h : kindIndex kind = kindIndex kind') : kind = kind' := by
  cases kind <;> cases kind' <;> first | rfl | exact absurd h (by decide)

theorem mem_kinds (kind : ReputationSignalKind) : kind ∈ reputationSignalKinds := by
  cases kind <;> decide

/-- The kinds a query gives a row for, and the row. -/
theorem mem_selected {signals : List ReputationSignal} {row : ReputationKindGroup} :
    row ∈ reputationSignalKinds.filterMap (selectGroup signals) ↔
      ∃ kind, selectGroup signals kind = some row := by
  constructor
  · intro h
    obtain ⟨kind, -, hrow⟩ := List.mem_filterMap.mp h
    exact ⟨kind, hrow⟩
  · rintro ⟨kind, hrow⟩
    apply List.mem_filterMap.mpr
    exact ⟨kind, mem_kinds kind, hrow⟩

theorem selectGroup_kind {signals : List ReputationSignal} {kind : ReputationSignalKind}
    {row : ReputationKindGroup} (h : selectGroup signals kind = some row) :
    row.signalKind = kind := by
  unfold selectGroup at h
  dsimp only at h
  split at h
  · cases h
  · rw [← Option.some.inj h]
    rfl

/-- Groups in the order of the kinds are in the order of their index. -/
theorem selected_ordered (signals : List ReputationSignal) :
    (reputationSignalKinds.filterMap (selectGroup signals)).Pairwise fun first second =>
      kindIndex first.signalKind < kindIndex second.signalKind := by
  have hkinds : reputationSignalKinds.Pairwise fun first second =>
      kindIndex first < kindIndex second := by decide
  apply hkinds.filterMap
  intro kind kind' hless row hrow row' hrow'
  rw [selectGroup_kind hrow, selectGroup_kind hrow']
  exact hless

/-- The rows of any answer are the groups of the kinds that occur. -/
theorem mem_answer {signals : List ReputationSignal}
    {groups : List (ReputationSignalKind × List ReputationSignal)}
    (h : GroupsBy ReputationSignal.signalKind signals groups) {row : ReputationKindGroup} :
    row ∈ groups.map groupRow ↔ ∃ kind, selectGroup signals kind = some row := by
  have hrows : ∀ group ∈ groups, selectGroup signals group.1 = some (groupRow group) := by
    intro group hgroup
    have hmembers := h.members group hgroup
    obtain ⟨signal, hsignal, hkind⟩ := (h.present group.1).mp (List.mem_map_of_mem hgroup)
    unfold selectGroup
    rw [if_neg, ← groupRow_perm hmembers]
    intro hnone
    have hmember : signal ∈ signals.filter fun signal => signal.signalKind = group.1 :=
      List.mem_filter.mpr ⟨hsignal, decide_eq_true hkind⟩
    rw [hnone] at hmember
    cases hmember
  constructor
  · intro hrow
    obtain ⟨group, hgroup, rfl⟩ := List.mem_map.mp hrow
    exact ⟨group.1, hrows group hgroup⟩
  · rintro ⟨kind, hrow⟩
    have hpresent : kind ∈ groups.map Prod.fst := by
      apply (h.present kind).mpr
      unfold selectGroup at hrow
      dsimp only at hrow
      split at hrow
      · cases hrow
      · rename_i hsome
        obtain ⟨signal, hsignal⟩ := List.exists_mem_of_ne_nil _ hsome
        obtain ⟨hmember, hkind⟩ := List.mem_filter.mp hsignal
        exact ⟨signal, hmember, of_decide_eq_true hkind⟩
    obtain ⟨group, hgroup, rfl⟩ := List.mem_map.mp hpresent
    rw [hrows group hgroup] at hrow
    exact List.mem_map.mpr ⟨group, hgroup, Option.some.inj hrow⟩

/-- Whatever order the database gives its groups in, sorted they are the reference's. -/
theorem pgGroups_eq {signals : List ReputationSignal}
    {groups : List (ReputationSignalKind × List ReputationSignal)}
    (h : GroupsBy ReputationSignal.signalKind signals groups) :
    pgGroupsForSubject (groups.map groupRow) =
      reputationSignalKinds.filterMap (selectGroup signals) := by
  have hkeys : ((groups.map groupRow).map fun row => kindIndex row.signalKind).Nodup := by
    rw [List.map_map]
    have hindex : (groups.map Prod.fst).map kindIndex =
        groups.map ((fun row => kindIndex row.signalKind) ∘ groupRow) := by
      rw [List.map_map]
      rfl
    rw [← hindex]
    exact h.once.map fun _ _ => kindIndex_injective
  have hselected := selected_ordered signals
  have hperm : (reputationSignalKinds.filterMap (selectGroup signals)).Perm
      (groups.map groupRow) := by
    apply (List.perm_ext_iff_of_nodup ?_ (List.Nodup.of_map _ hkeys)).mpr
    · intro row
      rw [mem_selected, mem_answer h]
    · exact hselected.imp fun hless heq => by
        rw [heq] at hless
        exact Nat.lt_irrefl _ hless
  have hordered : Ordered (fun row : ReputationKindGroup => kindIndex row.signalKind)
      (groups.map groupRow) (reputationSignalKinds.filterMap (selectGroup signals)) :=
    ⟨hperm, hselected.imp Nat.le_of_lt⟩
  have htotal : Std.Total (fun first second : ReputationKindGroup =>
      kindIndex first.signalKind ≤ kindIndex second.signalKind) := ⟨fun _ _ => Nat.le_total _ _⟩
  have htrans : IsTrans ReputationKindGroup (fun first second =>
      kindIndex first.signalKind ≤ kindIndex second.signalKind) := ⟨fun _ _ _ => Nat.le_trans⟩
  have hsorted : Ordered (fun row : ReputationKindGroup => kindIndex row.signalKind)
      (groups.map groupRow) (pgGroupsForSubject (groups.map groupRow)) :=
    ⟨List.perm_insertionSort _ _, List.pairwise_insertionSort _ _⟩
  exact hsorted.unique hkeys hordered

/-! ### The standing -/

/-- The standing of these signals. -/
structure StandingOf (signals : List ReputationSignal) (standing : ReputationStanding) : Prop where
  counts : ∀ kind, standing.counts kind = (signals.filter fun signal =>
    signal.signalKind = kind && signal.retractedAt.isNone).length
  signalCount : standing.signalCount = signals.length
  retractedCount : standing.retractedCount =
    (signals.filter fun signal => signal.retractedAt.isSome).length
  ratingCount : standing.ratingCount = (standingRatings signals).length
  ratingSum : standing.ratingSum = (standingRatings signals).sum
  firstSignalAt : standing.firstSignalAt = (signals.map ReputationSignal.recordedAt).min?
  lastSignalAt : standing.lastSignalAt = (signals.map ReputationSignal.recordedAt).max?

section Totals

variable {β : Type} [AddCommMonoid β] {signals : List ReputationSignal}

/-- A total of a standing gains what every signal brings to the group of its kind. -/
theorem total_selected {measure : ReputationKindGroup → β} {total : StandingFold → β}
    (gain : ReputationSignal → β) (htotals : Totals measure total) (hempty : total .empty = 0)
    (hrow : ∀ group, measure (groupRow group) = (group.2.map gain).sum) :
    total ((reputationSignalKinds.filterMap (selectGroup signals)).foldl StandingFold.add .empty) =
      (signals.map gain).sum := by
  rw [htotals.folded, hempty, zero_add, ← sum_by_key ReputationSignal.signalKind gain signals
    reputationSignalKinds (by decide) (fun signal _ => mem_kinds signal.signalKind)]
  apply congrArg List.sum
  apply List.map_congr_left
  intro kind _
  unfold selectGroup
  dsimp only
  split
  · rename_i hnone
    rw [hnone]
    rfl
  · exact hrow _

theorem standingRatings_cons (signal : ReputationSignal) (rest : List ReputationSignal) :
    standingRatings (signal :: rest) = standingRatings [signal] ++ standingRatings rest := by
  unfold standingRatings
  rw [← List.singleton_append, List.filter_append, List.map_append, List.reduceOption_append]

theorem sum_retracted (signals : List ReputationSignal) :
    (signals.map fun signal => if signal.retractedAt.isSome then 1 else 0).sum =
      (signals.filter fun signal => signal.retractedAt.isSome).length := by
  induction signals with
  | nil => rfl
  | cons signal rest ih =>
      rw [List.map_cons, List.sum_cons, ih, List.filter_cons]
      split
      · rw [List.length_cons, Nat.add_comm]
      · rw [Nat.zero_add]

theorem sum_rated (signals : List ReputationSignal) :
    (signals.map fun signal => (standingRatings [signal]).length).sum =
      (standingRatings signals).length := by
  induction signals with
  | nil => rfl
  | cons signal rest ih =>
      rw [List.map_cons, List.sum_cons, ih, standingRatings_cons signal rest, List.length_append]

theorem sum_ratings (signals : List ReputationSignal) :
    (signals.map fun signal => (standingRatings [signal]).sum).sum =
      (standingRatings signals).sum := by
  induction signals with
  | nil => rfl
  | cons signal rest ih =>
      rw [List.map_cons, List.sum_cons, ih, standingRatings_cons signal rest, List.sum_append]

/-- Every signal stands or was retracted. -/
theorem sum_counted (signals : List ReputationSignal) :
    (signals.filter fun signal => signal.retractedAt.isNone).length +
      (signals.filter fun signal => signal.retractedAt.isSome).length =
        (signals.map fun _ => 1).sum := by
  induction signals with
  | nil => rfl
  | cons signal rest ih =>
      rw [List.map_cons, List.sum_cons, ← ih, List.filter_cons, List.filter_cons]
      cases signal.retractedAt with
      | none =>
          simp only [Option.isNone_none, Option.isSome_none, if_true, List.length_cons]
          simp only [Bool.false_eq_true, if_false]
          omega
      | some instant =>
          simp only [Option.isNone_some, Option.isSome_some, if_true, List.length_cons]
          simp only [Bool.false_eq_true, if_false]
          omega

end Totals

section Extrema

theorem foldl_first (groups : List ReputationKindGroup) (fold : StandingFold) :
    (groups.foldl StandingFold.add fold).first =
      (groups.map ReputationKindGroup.firstRecordedAt).foldl
        (fun kept value => some (kept.elim value (min value))) fold.first := by
  induction groups generalizing fold with
  | nil => rfl
  | cons group rest ih =>
      rw [List.foldl_cons, ih, List.map_cons, List.foldl_cons]
      rfl

theorem foldl_last (groups : List ReputationKindGroup) (fold : StandingFold) :
    (groups.foldl StandingFold.add fold).last =
      (groups.map ReputationKindGroup.lastRecordedAt).foldl
        (fun kept value => some (kept.elim value (max value))) fold.last := by
  induction groups generalizing fold with
  | nil => rfl
  | cons group rest ih =>
      rw [List.foldl_cons, ih, List.map_cons, List.foldl_cons]
      rfl

/-- A bound of the groups is the bound of the signals of each kind. -/
theorem map_selected {pick : List Int → Option Int} {before : Int → Int → Prop}
    (hpick : Extremum pick before) {bound : ReputationKindGroup → Int}
    (hbound : ∀ group, bound (groupRow group) =
      (pick (group.2.map ReputationSignal.recordedAt)).getD 0) (signals : List ReputationSignal) :
    (reputationSignalKinds.filterMap (selectGroup signals)).map bound =
      reputationSignalKinds.filterMap fun kind =>
        pick ((signals.filter fun signal => signal.signalKind = kind).map
          ReputationSignal.recordedAt) := by
  rw [List.map_filterMap]
  apply List.filterMap_congr
  intro kind _
  unfold selectGroup
  dsimp only
  split
  · rename_i hnone
    rw [hnone, List.map_nil, (hpick.none_iff []).mpr rfl]
    rfl
  · rename_i hsome
    rw [Option.map_some, hbound]
    dsimp only
    cases hchosen : pick ((signals.filter fun signal => signal.signalKind = kind).map
        ReputationSignal.recordedAt) with
    | none =>
        rw [hpick.none_iff, List.map_eq_nil_iff] at hchosen
        exact absurd hchosen hsome
    | some chosen => rfl

end Extrema

/-- A kind's count is that of its signals that stand. -/
theorem counts_selected (signals : List ReputationSignal) (kind : ReputationSignalKind) :
    ((reputationSignalKinds.filterMap (selectGroup signals)).foldl StandingFold.add .empty).counts
      kind = (signals.filter fun signal =>
        signal.signalKind = kind && signal.retractedAt.isNone).length := by
  rw [counted_kind (fun _ _ hrow => selectGroup_kind hrow) _ (by decide), if_pos (mem_kinds kind)]
  have hfilter : (signals.filter fun signal =>
      signal.signalKind = kind && signal.retractedAt.isNone) =
        (signals.filter fun signal => signal.signalKind = kind).filter fun signal =>
          signal.retractedAt.isNone := by
    rw [List.filter_filter]
    apply List.filter_congr
    intro signal _
    rw [Bool.and_comm]
  rw [hfilter]
  unfold selectGroup
  dsimp only
  split
  · rename_i hnone
    rw [hnone]
    rfl
  · rfl

/-- A standing is what it says of the signals it is derived from. -/
theorem standing_of {signals : List ReputationSignal} (subject : ReputationSubject)
    (hvalid : ∀ signal ∈ signals, ratingShapeIsValid signal.signalKind signal.ratingValue = true) :
    StandingOf signals (deriveStanding subject (groupSignals signals)) := by
  unfold deriveStanding
  rw [groupSignals_eq hvalid]
  constructor
  · exact counts_selected signals
  · have htotal : Totals (fun group => group.standingCount + group.retractedCount)
        StandingFold.total := fun _ _ => rfl
    dsimp only
    rw [total_selected (fun _ => 1) htotal rfl fun group => sum_counted group.2]
    simp
  · have hretracted : Totals ReputationKindGroup.retractedCount StandingFold.retracted :=
      fun _ _ => rfl
    dsimp only
    rw [total_selected _ hretracted rfl fun group => (sum_retracted group.2).symm, sum_retracted]
  · have hrated : Totals ReputationKindGroup.ratingCount StandingFold.ratingCount := fun _ _ => rfl
    dsimp only
    rw [total_selected _ hrated rfl fun group => (sum_rated group.2).symm, sum_rated]
  · have hsum : Totals ReputationKindGroup.ratingSum StandingFold.ratingSum := fun _ _ => rfl
    have hrow : ∀ group, (groupRow group).ratingSum =
        (group.2.map fun signal => (standingRatings [signal]).sum).sum := by
      intro group
      rw [sum_ratings]
      exact sumOf_getD _
    dsimp only
    rw [total_selected _ hsum rfl hrow, sum_ratings]
  · dsimp only
    rw [foldl_first, map_selected extremum_min (fun _ => rfl)]
    exact (foldl_min _).trans (extremum_min.by_key ReputationSignal.signalKind _ signals _
      fun signal _ => mem_kinds signal.signalKind)
  · dsimp only
    rw [foldl_last, map_selected extremum_max (fun _ => rfl)]
    exact (foldl_max _).trans (extremum_max.by_key ReputationSignal.signalKind _ signals _
      fun signal _ => mem_kinds signal.signalKind)

theorem selectGroup_perm {signals signals' : List ReputationSignal} (h : signals.Perm signals') :
    selectGroup signals = selectGroup signals' := by
  funext kind
  have hown := h.filter fun signal => signal.signalKind = kind
  unfold selectGroup
  dsimp only
  by_cases hnone : (signals.filter fun signal => signal.signalKind = kind) = []
  · rw [if_pos hnone]
    rw [hnone] at hown
    rw [if_pos hown.symm.eq_nil]
  · rw [if_neg hnone, if_neg, groupRow_perm hown]
    intro hnone'
    rw [hnone'] at hown
    exact hnone hown.eq_nil

/-- The signals of one subject, in any order, have the standing their specification says, from
the groups the database answers with. -/
theorem standing_specified {subject : ReputationSubject} {signals : List ReputationSignal}
    (hsubject : ∀ signal ∈ signals, signal.subject = subject)
    (hvalid : ∀ signal ∈ signals, ratingShapeIsValid signal.signalKind signal.ratingValue = true) :
    StandingOf signals (deriveStanding subject (groupSignals signals)) ∧
      (∀ signals', signals'.Perm signals → deriveStanding subject (groupSignals signals') =
        deriveStanding subject (groupSignals signals)) ∧
      ∀ table others answer, table.Perm (signals ++ others) →
        (∀ other ∈ others, other.subject ≠ subject) → SelectsGroups table subject answer →
          pgGroupsForSubject answer = groupSignals signals := by
  refine ⟨standing_of subject hvalid, fun signals' hperm => ?_, ?_⟩
  · have hvalid' : ∀ signal ∈ signals',
        ratingShapeIsValid signal.signalKind signal.ratingValue = true :=
      fun signal hsignal => hvalid signal (hperm.mem_iff.mp hsignal)
    rw [groupSignals_eq hvalid, groupSignals_eq hvalid', selectGroup_perm hperm]
  · rintro table others answer htable hothers ⟨groups, hgroups, rfl⟩
    have hrows := htable.filter fun signal => signal.subject = subject
    have hmine : (signals ++ others).filter (fun signal => signal.subject = subject) = signals := by
      rw [List.filter_append, List.filter_eq_self.mpr (by simpa using hsubject),
        List.filter_eq_nil_iff.mpr (by simpa using hothers), List.append_nil]
    rw [hmine] at hrows
    rw [pgGroups_eq hgroups, groupSignals_eq hvalid, selectGroup_perm hrows]

/-- A subject rated twice, the first rating withdrawn, and disputed once. -/
def rider : ReputationSubject := ⟨"org-1", .identity, "rider-1"⟩

def riderSignal (kind : ReputationSignalKind) (rating : Option Int) (recordedAt : Int)
    (retractedAt : Option Int) : ReputationSignal :=
  ⟨"s", "org-1", .identity, "rider-1", kind, rating, "wasla-market", "r", 0, recordedAt, "c",
    retractedAt, retractedAt.map fun _ => "moderated"⟩

def riderSignals : List ReputationSignal :=
  [riderSignal .serviceRating (some 1) 30 (some 90), riderSignal .serviceRating (some 5) 20 none,
    riderSignal .dispute none 40 none]

theorem standing_specified_rider :
    StandingOf riderSignals (deriveStanding rider (groupSignals riderSignals)) ∧
      deriveStanding rider (groupSignals riderSignals.reverse) =
        deriveStanding rider (groupSignals riderSignals) := by
  have hsubject : ∀ signal ∈ riderSignals, signal.subject = rider := by decide
  obtain ⟨hstanding, hperm, -⟩ := standing_specified hsubject (by decide)
  exact ⟨hstanding, hperm _ (List.reverse_perm _)⟩

end WaslaCore.Reputation
