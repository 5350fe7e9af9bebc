import Mathlib.Algebra.BigOperators.Group.List.Basic
import WaslaCore.Reputation.Domain

/-!
What a standing counts. Each number of a standing adds up, kind by kind, over the ratings
it is folded from, so it depends on which ratings there are and not on the order in which
they were recorded.
-/

namespace WaslaCore.Reputation

/-- What a signal says, apart from what withdraws it. -/
structure Report where
  subject : ReputationSubject
  signalKind : ReputationSignalKind
  ratingValue : Option Int
  deriving DecidableEq, Repr

/-- A rating as a standing counts it. -/
structure Rating where
  source : SignalSource
  report : Report
  withdrawn : Bool
  deriving DecidableEq, Repr

def ReputationSignal.report (signal : ReputationSignal) : Report :=
  ⟨signal.subject, signal.signalKind, signal.ratingValue⟩

def ReputationSignal.rating (signal : ReputationSignal) : Rating :=
  ⟨signal.source, signal.report, signal.retractedAt.isSome⟩

/-- What a standing says of a subject, apart from CORE's own clock. -/
structure SameStanding (standing standing' : ReputationStanding) : Prop where
  counts : standing.counts = standing'.counts
  retractedCount : standing.retractedCount = standing'.retractedCount
  ratingCount : standing.ratingCount = standing'.ratingCount
  ratingSum : standing.ratingSum = standing'.ratingSum
  average : standing.averageRatingMilli = standing'.averageRatingMilli

namespace Rating

def standing (rating : Rating) : Nat := if rating.withdrawn then 0 else 1

def retracted (rating : Rating) : Nat := if rating.withdrawn then 1 else 0

/-- The number a standing rating carries. -/
def points (rating : Rating) : Option Int :=
  if rating.withdrawn ∨ rating.report.signalKind ≠ ratedKind then none
  else rating.report.ratingValue

def rated (rating : Rating) : Nat := if rating.points.isSome then 1 else 0

def sum (rating : Rating) : Int := rating.points.getD 0

end Rating

section Sums

variable {β : Type} [AddCommMonoid β]

/-- What the ratings of one kind add up to. -/
def gained (gain : Rating → β) (kind : ReputationSignalKind) (ratings : List Rating) : β :=
  ((ratings.filter (fun rating => rating.report.signalKind = kind)).map gain).sum

theorem gained_perm (gain : Rating → β) (kind : ReputationSignalKind)
    {ratings ratings' : List Rating} (h : ratings.Perm ratings') :
    gained gain kind ratings = gained gain kind ratings' :=
  ((h.filter _).map gain).sum_eq

/-- A number a group gains with each signal of its kind. -/
structure Counts (measure : ReputationKindGroup → β) (gain : Rating → β) : Prop where
  opened : ∀ signal, measure (.opened signal) = 0
  count : ∀ (group : ReputationKindGroup) (signal : ReputationSignal),
    measure (group.count signal) = measure group + gain signal.rating

/-- It adds up over the signals, whichever came first. -/
theorem Counts.folded {measure : ReputationKindGroup → β} {gain : Rating → β}
    (h : Counts measure gain) (kind : ReputationSignalKind) (signals : List ReputationSignal)
    (groups : Groups) :
    ((signals.foldl Groups.add groups) kind).elim 0 measure =
      (groups kind).elim 0 measure + gained gain kind (signals.map ReputationSignal.rating) := by
  induction signals generalizing groups with
  | nil => simp [gained]
  | cons signal rest ih =>
      have hopened : measure (((groups kind).getD (.opened signal)).count signal) =
          (groups kind).elim 0 measure + gain signal.rating := by
        rw [h.count]
        cases groups kind with
        | none => simp [h.opened]
        | some group => rfl
      rw [List.foldl_cons, ih, List.map_cons]
      by_cases hkind : kind = signal.signalKind
      · have hcounted : (groups.add signal) kind =
            some (((groups kind).getD (.opened signal)).count signal) := if_pos hkind
        have hown : signal.rating.report.signalKind = kind := hkind.symm
        rw [hcounted, Option.elim_some, hopened]
        unfold gained
        rw [List.filter_cons_of_pos (by simpa using hown), List.map_cons, List.sum_cons, add_assoc]
      · have hcounted : (groups.add signal) kind = groups kind := if_neg hkind
        have hother : ¬signal.rating.report.signalKind = kind := fun hown => hkind hown.symm
        rw [hcounted]
        unfold gained
        rw [List.filter_cons_of_neg (by simpa using hother)]

/-- A total of a standing that gains a number of each group. -/
def Totals (measure : ReputationKindGroup → β) (total : StandingFold → β) : Prop :=
  ∀ fold group, total (StandingFold.add fold group) = total fold + measure group

/-- It adds up over the groups. -/
theorem Totals.folded {measure : ReputationKindGroup → β} {total : StandingFold → β}
    (h : Totals measure total) (groups : Groups) (kinds : List ReputationSignalKind)
    (fold : StandingFold) :
    total ((kinds.filterMap groups).foldl StandingFold.add fold) =
      total fold + (kinds.map (fun kind => (groups kind).elim 0 measure)).sum := by
  induction kinds generalizing fold with
  | nil => simp
  | cons kind rest ih =>
      cases hgroup : groups kind with
      | none => rw [List.filterMap_cons_none hgroup, ih]; simp [hgroup]
      | some group =>
          rw [List.filterMap_cons_some hgroup, List.foldl_cons, ih, h]
          simp [hgroup, add_assoc]

/-- So it depends on the ratings alone. -/
theorem Totals.perm {measure : ReputationKindGroup → β} {gain : Rating → β}
    {total : StandingFold → β} (htotals : Totals measure total) (hcounts : Counts measure gain)
    {signals signals' : List ReputationSignal}
    (h : (signals.map ReputationSignal.rating).Perm (signals'.map ReputationSignal.rating)) :
    total ((groupSignals signals).foldl StandingFold.add .empty) =
      total ((groupSignals signals').foldl StandingFold.add .empty) := by
  unfold groupSignals
  rw [htotals.folded, htotals.folded]
  simp only [hcounts.folded, gained_perm gain _ h]

end Sums

/-! ### The numbers of a standing -/

theorem counts_standing : Counts ReputationKindGroup.standingCount Rating.standing := by
  refine ⟨fun _ => rfl, fun group signal => ?_⟩
  unfold ReputationKindGroup.count Rating.standing ReputationSignal.rating
  dsimp only
  split
  · rfl
  · split
    · split <;> rfl
    · rfl

theorem counts_retracted : Counts ReputationKindGroup.retractedCount Rating.retracted := by
  refine ⟨fun _ => rfl, fun group signal => ?_⟩
  unfold ReputationKindGroup.count Rating.retracted ReputationSignal.rating
  dsimp only
  split
  · rfl
  · split
    · split <;> rfl
    · rfl

theorem counts_rated : Counts ReputationKindGroup.ratingCount Rating.rated := by
  refine ⟨fun _ => rfl, fun group signal => ?_⟩
  unfold ReputationKindGroup.count Rating.rated Rating.points ReputationSignal.rating
    ReputationSignal.report
  dsimp only
  split
  · rename_i hwithdrawn
    simp [hwithdrawn]
  · rename_i hstanding
    split
    · rename_i rating hrating
      split
      · rename_i hkind
        simp [hstanding, hkind, hrating]
      · rename_i hkind
        simp [hkind]
    · rename_i hrating
      simp [hrating]

theorem counts_sum : Counts ReputationKindGroup.ratingSum Rating.sum := by
  refine ⟨fun _ => rfl, fun group signal => ?_⟩
  unfold ReputationKindGroup.count Rating.sum Rating.points ReputationSignal.rating
    ReputationSignal.report
  dsimp only
  split
  · rename_i hwithdrawn
    simp [hwithdrawn]
  · rename_i hstanding
    split
    · rename_i rating hrating
      split
      · rename_i hkind
        simp [hstanding, hkind, hrating]
      · rename_i hkind
        simp [hkind]
    · rename_i hrating
      simp [hrating]

/-- Each group stays under its own kind. -/
theorem folded_kind (signals : List ReputationSignal) {groups : Groups}
    (h : ∀ kind group, groups kind = some group → group.signalKind = kind)
    (kind : ReputationSignalKind) (group : ReputationKindGroup)
    (hgroup : (signals.foldl Groups.add groups) kind = some group) : group.signalKind = kind := by
  induction signals generalizing groups with
  | nil => exact h kind group hgroup
  | cons signal rest ih =>
      refine ih (fun other counted hcounted => ?_) hgroup
      unfold Groups.add at hcounted
      split at hcounted
      · rename_i hown
        have hcount : ∀ before : ReputationKindGroup,
            (before.count signal).signalKind = before.signalKind := by
          intro before
          unfold ReputationKindGroup.count
          dsimp only
          split
          · rfl
          · split
            · split <;> rfl
            · rfl
        rw [← Option.some.inj hcounted, hcount]
        cases hbefore : groups other with
        | none => exact hown.symm
        | some before => exact h other before hbefore
      · exact h other counted hcounted

/-- A kind's count is its own group's. -/
theorem counted_kind {groups : Groups}
    (h : ∀ kind group, groups kind = some group → group.signalKind = kind)
    (kinds : List ReputationSignalKind) (hkinds : kinds.Nodup) (fold : StandingFold)
    (kind : ReputationSignalKind) :
    ((kinds.filterMap groups).foldl StandingFold.add fold).counts kind =
      if kind ∈ kinds then
        (groups kind).elim (fold.counts kind) ReputationKindGroup.standingCount
      else fold.counts kind := by
  induction kinds generalizing fold with
  | nil => rfl
  | cons first rest ih =>
      obtain ⟨hfresh, hrest⟩ := List.nodup_cons.mp hkinds
      cases hgroup : groups first with
      | none =>
          rw [List.filterMap_cons_none hgroup, ih hrest]
          by_cases hown : kind = first
          · subst hown
            simp [hfresh, hgroup]
          · simp [hown]
      | some group =>
          rw [List.filterMap_cons_some hgroup, List.foldl_cons, ih hrest]
          have hkind := h first group hgroup
          by_cases hown : kind = first
          · subst hown
            simp [hfresh, hgroup, StandingFold.add, hkind]
          · simp [StandingFold.add, hkind, hown]

/-- The same ratings, in any order, make the same standing. -/
theorem deriveStanding_perm (subject : ReputationSubject) {signals signals' : List ReputationSignal}
    (h : (signals.map ReputationSignal.rating).Perm (signals'.map ReputationSignal.rating)) :
    SameStanding (deriveStanding subject (groupSignals signals))
      (deriveStanding subject (groupSignals signals')) := by
  have hkinds : ∀ signals : List ReputationSignal, ∀ kind group,
      (signals.foldl Groups.add (fun _ => none)) kind = some group → group.signalKind = kind :=
    fun signals => folded_kind signals (fun _ _ hnone => by cases hnone)
  have hretracted : Totals ReputationKindGroup.retractedCount StandingFold.retracted :=
    fun _ _ => rfl
  have hrated : Totals ReputationKindGroup.ratingCount StandingFold.ratingCount := fun _ _ => rfl
  have hsum : Totals ReputationKindGroup.ratingSum StandingFold.ratingSum := fun _ _ => rfl
  refine ⟨?_, hretracted.perm counts_retracted h, hrated.perm counts_rated h,
    hsum.perm counts_sum h, ?_⟩
  · funext kind
    unfold deriveStanding groupSignals
    dsimp only
    rw [counted_kind (hkinds signals) _ (by decide), counted_kind (hkinds signals') _ (by decide)]
    refine if_congr Iff.rfl ?_ rfl
    change ((signals.foldl Groups.add (fun _ => none)) kind).elim 0 _ =
      ((signals'.foldl Groups.add (fun _ => none)) kind).elim 0 _
    rw [counts_standing.folded, counts_standing.folded, gained_perm Rating.standing kind h]
  · exact congrArg₂ averageMilli (hsum.perm counts_sum h) (hrated.perm counts_rated h)

end WaslaCore.Reputation
