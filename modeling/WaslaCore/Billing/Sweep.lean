import WaslaCore.Billing.Conduct
import WaslaCore.Interleaving.Isolation

/-!
The renewal sweep as a batch. A refused payment is an outcome of the charge, so an empty
wallet does not stop the subscriptions after it; whatever else a renewal raises is let
through, and ends the sweep with the rest of its candidates untouched and no summary.
-/

namespace WaslaCore.Billing

open Platform Interleaving

/-! ### The sweep as a batch -/

theorem renewEach_eq (now : Int) (candidates : List Subscription) (result : Renewal) :
    renewEach now candidates result = workEach (renewOne now) candidates result := by
  induction candidates generalizing result with
  | nil => rfl
  | cons subscription rest ih =>
      unfold renewEach workEach
      congr 1
      funext account
      exact ih account

/-- What the sweep is told before its first candidate. -/
def sweepStarts (now : Int) (candidates : List Subscription) : Seen :=
  [⟨.core .clock, now⟩,
    ⟨.read (.listSubscriptionsByStatus [.active, .pastDue, .cancelled]), .ok candidates⟩]

theorem finishes_sweep {now : Int} {candidates : List Subscription} {seen : Seen}
    {result : Except Thrown Renewal} :
    Finishes renewDuePeriods (sweepStarts now candidates ++ seen) result ↔
      Finishes (workEach (renewOne now) candidates ⟨[], [], []⟩) seen result := by
  rw [← renewEach_eq]
  constructor
  · intro h
    obtain ⟨time, rest, hsame, h⟩ := finishes_act.mp h
    cases hsame
    obtain ⟨listed, rest, hsame, h⟩ := finishes_act.mp h
    cases hsame
    exact h
  · exact fun h => .act (.act h)

/-! ### What the summary says -/

/-- What a sweep reports of one candidate. -/
inductive Fate where
  | passedOver
  | expired
  | renewed (period : SubscriptionPeriod) (uncollectible : Option String)

def Renewal.report (result : Renewal) (subscription : Subscription) : Fate → Renewal
  | .passedOver => result
  | .expired => { result with expired := result.expired ++ [subscription.subscriptionId] }
  | .renewed period uncollectible =>
      { result with
        renewed := result.renewed ++ [period]
        uncollectible := result.uncollectible ++ uncollectible.toList }

/-- The summary of the candidates, each with its fate, in order. -/
def Renewal.summary (result : Renewal) (fates : List (Subscription × Fate)) : Renewal :=
  fates.foldl (fun account fate => account.report fate.1 fate.2) result

/-- A candidate whose renewal returned is reported once. -/
theorem renewFrom_reports {subscription : Subscription} {latest : SubscriptionPeriod}
    {result result' : Renewal} {seen : Seen}
    (h : Finishes (renewFrom subscription latest result) seen (.ok result')) :
    ∃ fate, result' = result.report subscription fate := by
  unfold renewFrom at h
  split at h
  · rcases finishes_bind.mp h with ⟨_, _, _, _, _, h⟩ | ⟨_, _, hraised⟩
    · obtain ⟨-, hsame⟩ := finishes_done.mp h
      exact ⟨.expired, Except.ok.inj hsame⟩
    · cases hraised
  · rcases finishes_bind.mp h with ⟨found, _, _, _, _, h⟩ | ⟨_, _, hraised⟩
    · cases found with
      | none =>
          obtain ⟨-, hsame⟩ := finishes_done.mp h
          exact ⟨.passedOver, Except.ok.inj hsame⟩
      | some plan =>
          rcases finishes_bind.mp h with ⟨next, _, _, _, _, h⟩ | ⟨_, _, hraised⟩
          · rcases finishes_bind.mp h with ⟨_, _, _, _, _, h⟩ | ⟨_, _, hraised⟩
            · rcases finishes_bind.mp h with ⟨charge, _, _, _, _, h⟩ | ⟨_, _, hraised⟩
              · obtain ⟨-, hsame⟩ := finishes_done.mp h
                refine ⟨.renewed charge.period
                  (if charge.collected then none else some next.periodId), ?_⟩
                rw [Except.ok.inj hsame, Renewal.report]
                cases charge.collected <;> simp
              · cases hraised
            · cases hraised
          · cases hraised
    · cases hraised

theorem renewOne_reports {now : Int} {subscription : Subscription} {result result' : Renewal}
    {seen : Seen} (h : Finishes (renewOne now subscription result) seen (.ok result')) :
    ∃ fate, result' = result.report subscription fate := by
  rcases finishes_bind.mp h with ⟨found, _, _, _, _, h⟩ | ⟨_, _, hraised⟩
  · cases found with
    | none =>
        obtain ⟨-, hsame⟩ := finishes_done.mp h
        exact ⟨.passedOver, Except.ok.inj hsame⟩
    | some latest =>
        dsimp only at h
        split at h
        · obtain ⟨-, hsame⟩ := finishes_done.mp h
          exact ⟨.passedOver, Except.ok.inj hsame⟩
        · exact renewFrom_reports h
  · cases hraised

/-- A sweep in isolation reports every candidate once, in order; one that raised is passed
over. -/
theorem worksEach_reports {now : Int} {candidates : List Subscription} {result last : Renewal}
    {attempts : List (Attempt Action Action.Answer Thrown Renewal)}
    (h : WorksEach (renewOne now) candidates result attempts last) :
    ∃ fates : List Fate, fates.length = candidates.length ∧
      last = result.summary (candidates.zip fates) := by
  induction h with
  | nil account => exact ⟨[], rfl, rfl⟩
  | @cons subscription rest account attempt attempts last hrow hrest ih =>
      obtain ⟨fates, hlength, hlast⟩ := ih
      have hmine : ∃ fate, attempt.account account = account.report subscription fate := by
        obtain ⟨seen, outcome⟩ := attempt
        cases outcome with
        | ok after => exact renewOne_reports hrow
        | error error => exact ⟨.passedOver, rfl⟩
      obtain ⟨fate, hfate⟩ := hmine
      refine ⟨fate :: fates, by simp [hlength], ?_⟩
      rw [hlast, hfate]
      rfl

/-- The sweep isolates its candidates: given the answers under which each of them is worked
in isolation, it returns their summary, which reports every candidate once. -/
def Isolates (now : Int) (candidates : List Subscription)
    (attempts : List (Attempt Action Action.Answer Thrown Renewal)) (summary : Renewal) : Prop :=
  Finishes renewDuePeriods (sweepStarts now candidates ++ attempts.flatMap Attempt.seen)
      (.ok summary) ∧
    ∃ fates : List Fate, fates.length = candidates.length ∧
      summary = Renewal.summary ⟨[], [], []⟩ (candidates.zip fates)

/-- For every list of candidates and whichever of their renewals raise: the sweep isolates
them exactly where none does, and otherwise raises what the first one raises, with every
candidate after it untouched. -/
theorem renewDuePeriods_isolates_iff {now : Int} {candidates : List Subscription}
    {attempts : List (Attempt Action Action.Answer Thrown Renewal)} {summary : Renewal}
    (h : WorksEach (renewOne now) candidates ⟨[], [], []⟩ attempts summary) :
    (Isolates now candidates attempts summary ↔
      ∀ attempt ∈ attempts, attempt.raised = false) ∧
    ∀ before after seen error, attempts = before ++ ⟨seen, .error error⟩ :: after →
      (∀ attempt ∈ before, attempt.raised = false) →
      Finishes renewDuePeriods (sweepStarts now candidates ++ (before.flatMap Attempt.seen ++ seen))
        (.error error) := by
  refine ⟨⟨fun hisolates => ?_, fun hcalm => ?_⟩, ?_⟩
  · exact h.finishes_iff.mp (finishes_sweep.mp hisolates.1)
  · exact ⟨finishes_sweep.mpr (h.finishes hcalm), worksEach_reports h⟩
  · rintro before after seen error rfl hcalm
    exact finishes_sweep.mpr (h.raises hcalm)

/-! ### Two subscriptions that are due -/

/-- A cancelled subscription whose paid period is over. -/
def lapsing : Subscription :=
  ⟨idOf '6', .identity, idOf '3', idOf '9', idOf '7', .cancelled, 0, some 5, some "moved", some 10⟩

def lapsingPeriod : SubscriptionPeriod :=
  ⟨idOf '8', idOf '6', 1, 0, 10, "SAR", 0, .settled, none, 0, some 0, none⟩

/-- It expires. -/
def lapses (account : Renewal) : Attempt Action Action.Answer Thrown Renewal where
  seen :=
    [⟨.read (.latestPeriod (idOf '6')), .ok (some lapsingPeriod)⟩, ⟨.core .clock, (20 : Int)⟩,
      ⟨.commit (expiredWork lapsing (expiredRow lapsing 20))
        [.updateSubscription (expiredRow lapsing 20)], .ok ()⟩]
  outcome := .ok { account with expired := account.expired ++ [idOf '6'] }

theorem lapses_finishes (account : Renewal) :
    Finishes (renewOne 20 lapsing account) (lapses account).seen (lapses account).outcome :=
  .act (.act (.act (.done _)))

/-- An active subscription whose period is over too. -/
def renewing : Subscription :=
  ⟨idOf '4', .identity, idOf '1', idOf '9', idOf '2', .active, 0, none, none, none⟩

def renewingPeriod : SubscriptionPeriod :=
  ⟨idOf '5', idOf '4', 1, 0, 10, "SAR", 60, .settled, some (idOf 'a'), 0, some 0, none⟩

/-- Its next period, as the sweep builds it. -/
def nextPeriod : SubscriptionPeriod :=
  ⟨idOf 'c', idOf '4', 2, 10, 2678400010, "SAR", 60, .pending, none, 20, none, none⟩

/-- It is cancelled between the commit of that period and its charge, which voids it. -/
def voids : Attempt Action Action.Answer Thrown Renewal where
  seen :=
    [⟨.read (.latestPeriod (idOf '4')), .ok (some renewingPeriod)⟩,
      ⟨.read (.getPlan (idOf '9')), .ok (some monthly)⟩, ⟨.core .newId, idOf 'c'⟩,
      ⟨.core .clock, (20 : Int)⟩,
      ⟨.commit (renewedWork renewing nextPeriod) [.insertPeriod nextPeriod], .ok ()⟩,
      ⟨.read (.getPeriod (idOf 'c')), .ok (some (voidedRow nextPeriod))⟩]
  outcome := .error (conflict "period was voided and cannot be collected")

theorem voids_finishes (account : Renewal) :
    Finishes (renewOne 20 renewing account) voids.seen voids.outcome :=
  .act (.act (.act (.act (.act (.act (.fail _))))))

theorem renewDuePeriods_isolates_iff_lapsing :
    (Isolates 20 [lapsing] [lapses ⟨[], [], []⟩] ⟨[], [idOf '6'], []⟩ ↔
      ∀ attempt ∈ [lapses ⟨[], [], []⟩], attempt.raised = false) ∧
    ∀ before after seen error, [lapses ⟨[], [], []⟩] = before ++ ⟨seen, .error error⟩ :: after →
      (∀ attempt ∈ before, attempt.raised = false) →
      Finishes renewDuePeriods (sweepStarts 20 [lapsing] ++ (before.flatMap Attempt.seen ++ seen))
        (.error error) :=
  renewDuePeriods_isolates_iff (.cons (lapses_finishes _) (.nil _))

/-- A subscription cancelled while it is renewed keeps the next one from being expired, and
the sweep from answering. -/
theorem renewDuePeriods_isolates_fails : ¬∀ (now : Int) (candidates : List Subscription)
    (attempts : List (Attempt Action Action.Answer Thrown Renewal)) (summary : Renewal),
    WorksEach (renewOne now) candidates ⟨[], [], []⟩ attempts summary →
      Isolates now candidates attempts summary := by
  intro htrue
  have hworks : WorksEach (renewOne 20) [renewing, lapsing] ⟨[], [], []⟩
      [voids, lapses ⟨[], [], []⟩] ⟨[], [idOf '6'], []⟩ :=
    .cons (voids_finishes _) (.cons (lapses_finishes _) (.nil _))
  have hcalm := hworks.finishes_iff.mp (finishes_sweep.mp (htrue 20 _ _ _ hworks).1)
  cases hcalm voids List.mem_cons_self

end WaslaCore.Billing
