import WaslaCore.Eventing.DeliverySummaries

/-!
What the drains report. Of every row a drain claimed one acknowledgement was answered, and
the summary is to count it under what the store did with it: applied, and then under what
was acknowledged, or refused. The dispatcher and the delivery worker read that answer in
every branch. The relay reads it only where its publish succeeded, so a failure it reports
for a row it no longer holds is counted as one that was recorded.
-/

namespace WaslaCore.Eventing

open Data Interleaving Notification

/-! ### What an acknowledgement came to -/

inductive EventOutcome where
  | finished
  | failed
  | dead
  deriving DecidableEq, Repr

def Acknowledgement.outcome : Acknowledgement → EventOutcome
  | .finished _ => .finished
  | .failed _ _ => .failed
  | .dead _ => .dead

/-- The claim a row is held under: its queue, its event and the token. -/
abbrev EventClaim := QueueName × String × Fence

/-- An acknowledgement the store answered. -/
structure EventSettled where
  claim : EventClaim
  outcome : EventOutcome
  applied : Bool
  deriving DecidableEq, Repr

/-- The acknowledgements that were answered, the relay's commit among them. -/
def settlement : (action : Action) × action.Answer → Option EventSettled
  | ⟨.acknowledge name eventId fence how, .ok applied⟩ =>
      some ⟨(name, eventId, fence), how.outcome, applied⟩
  | ⟨.commit work, .ok applied⟩ =>
      some ⟨(.outbox, work.eventId, work.fence), .finished, applied⟩
  | _ => none

def QueueRow.claim (name : QueueName) (row : QueueRow) : EventClaim :=
  (name, row.event.eventId, row.claimToken)

/-- The rows an answer handed over. -/
def handedOver : (action : Action) × action.Answer → List EventClaim
  | ⟨.claimDue name _ _, .ok (rows : List QueueRow)⟩ => rows.map (QueueRow.claim name)
  | _ => []

/-- The rows a call claimed, in order. -/
def claimedIn (seen : Seen) : List EventClaim := seen.flatMap handedOver

/-- The summary counts what happened: each claimed row was acknowledged once, and is
counted under what that acknowledgement did to it. -/
structure Counts (seen : Seen) (result : DrainResult) : Prop where
  once : (settledIn settlement seen).map EventSettled.claim = claimedIn seen
  finished : result.finished =
    (settledIn settlement seen).countP (fun settled => settled.applied && settled.outcome = .finished)
  failed : result.failed =
    (settledIn settlement seen).countP (fun settled => settled.applied && settled.outcome = .failed)
  dead : result.dead =
    (settledIn settlement seen).countP (fun settled => settled.applied && settled.outcome = .dead)
  fenced : result.fenced = (settledIn settlement seen).countP (fun settled => !settled.applied)

/-- The relay reports a failed publish of a row it no longer holds. -/
def EventSettled.unheeded (settled : EventSettled) : Bool :=
  !settled.applied && settled.claim.1 = .outbox && settled.outcome ≠ .finished

/-- How the drains count an acknowledgement. -/
def DrainResult.count (result : DrainResult) (settled : EventSettled) : DrainResult :=
  if settled.applied || settled.unheeded then
    match settled.outcome with
    | .finished => { result with finished := result.finished + 1 }
    | .failed => { result with failed := result.failed + 1 }
    | .dead => { result with dead := result.dead + 1 }
  else { result with fenced := result.fenced + 1 }

/-! ### What a row settles -/

/-- The actions that claim rows or acknowledge them. -/
def Ruling : Action → Prop
  | .claimDue _ _ _ => True
  | .acknowledge _ _ _ _ => True
  | .commit _ => True
  | _ => False

theorem settlement_eq_none (entry : (action : Action) × action.Answer) (h : ¬Ruling entry.1) :
    settlement entry = none := by
  obtain ⟨action, answer⟩ := entry
  cases action with
  | acknowledge name eventId fence how => exact absurd trivial h
  | commit work => exact absurd trivial h
  | _ => rfl

/-- An error, and no refused acknowledgement. -/
def Failure.IsError : Failure → Prop
  | .error _ => True
  | .fenced _ => False

theorem raises_await (action : Action) : Raises Failure.IsError (await action) := by
  intro answer
  cases answer <;> trivial

section Publishing

variable (bus : LocalEventBus) (event : EventEnvelope)

theorem publish_unruling : Avoids Ruling (bus.publish event) :=
  (bus.publish_delivers event).mono fun action hruling hdelivering => by
    cases action with
    | claim consumer event attempts => exact hruling
    | handle consumer event attempts => exact hruling
    | release consumer event attempts lastError => exact hruling
    | _ => exact hdelivering

theorem attempt_raises (consumer : String) (maxAttempts left : Nat) (lastError : String) :
    Raises Failure.IsError (LocalEventBus.attempt consumer event maxAttempts left lastError) := by
  induction left generalizing lastError with
  | zero => trivial
  | succ left ih =>
      unfold LocalEventBus.attempt
      refine raises_tryCatch fun error => ?_
      refine raises_bind (raises_await _) fun (_ : Unit) => raises_bind ?_ fun _ => ih _
      unfold LocalEventBus.claimAgain
      split
      · exact raises_bind (raises_await _) fun (claimed : Bool) => trivial
      · trivial

theorem deliverAll_raises (subs : List Subscription) (failures : List String) :
    Raises Failure.IsError (bus.deliverAll event subs failures) := by
  induction subs generalizing failures with
  | nil => trivial
  | cons sub rest ih =>
      unfold LocalEventBus.deliverAll
      split
      · refine raises_bind (raises_bind (raises_await _) fun (claimed : Bool) => ?_) fun _ => ih _
        cases claimed with
        | false => trivial
        | true => exact attempt_raises event _ _ _ _
      · exact ih failures

/-- A publish fails with an error: no acknowledgement is part of it. -/
theorem publish_raises : Raises Failure.IsError (bus.publish event) := by
  refine raises_bind (deliverAll_raises bus event bus.subs []) fun failures => ?_
  split <;> trivial

theorem queueFor_raises (fanOut : FanOut) (staged : List Staged) :
    Raises Failure.IsError (fanOut.queueFor event staged) := by
  cases fanOut with
  | delivery =>
      refine raises_bind (raises_await _) fun (subscriptions : List EventSubscription) => ?_
      refine raises_bind (raises_await _) fun (now : Int) => ?_
      generalize (⟨0, 0, 0⟩ : FanOutResult) = result
      induction subscriptions generalizing staged result with
      | nil => trivial
      | cons subscription rest ih =>
          refine raises_bind (raises_await _) fun (deliveryId : String) => ?_
          exact raises_bind (raises_await _) fun (queued : Bool) => ih _ _
  | notification =>
      change Raises Failure.IsError (NotificationFanOut.queueFor event staged)
      unfold NotificationFanOut.queueFor
      cases renderMessage event.eventType event.payload with
      | none => trivial
      | some rendered =>
          refine raises_bind (raises_await _) fun (recipients : List NotificationRecipient) => ?_
          refine raises_bind (raises_await _) fun (now : Int) => ?_
          generalize (⟨0, 0, 0⟩ : FanOutResult) = result
          induction recipients generalizing staged result with
          | nil => trivial
          | cons recipient rest ih =>
              refine raises_bind (raises_await _) fun (address : Option String) => ?_
              refine raises_bind (raises_await _) fun (notificationId : String) => ?_
              exact raises_bind (raises_await _) fun (queued : Bool) => ih _ _

theorem stageAll_raises (fanOuts : List FanOut) (staged : List Staged) :
    Raises Failure.IsError (OutboxPublisher.stageAll event fanOuts staged) := by
  induction fanOuts generalizing staged with
  | nil => trivial
  | cons fanOut rest ih => exact raises_bind (queueFor_raises event fanOut staged) fun _ => ih _

theorem stageAll_unruling (fanOuts : List FanOut) (staged : List Staged) :
    Avoids Ruling (OutboxPublisher.stageAll event fanOuts staged) :=
  stageAll_avoids (fun action hstaging hruling => by
    cases action <;> first | exact hstaging | exact hruling) event fanOuts staged

end Publishing

section Rows

variable (seen : Seen)

theorem settledIn_answered (action : Action) (value : action.Value) :
    settledIn settlement (seen ++ [⟨action, .ok value⟩]) =
      settledIn settlement seen ++ (settlement ⟨action, .ok value⟩).toList := by
  rw [settledIn_append]
  cases hsettled : settlement ⟨action, .ok value⟩ with
  | none => simp [settledIn, hsettled]
  | some settled => simp [settledIn, hsettled]

theorem settledIn_failed (action : Action) (message : String) :
    settledIn settlement (seen ++ [⟨action, .error message⟩]) = settledIn settlement seen := by
  have hnone : settlement ⟨action, .error message⟩ = none := by cases action <;> rfl
  rw [settledIn_append]
  simp [settledIn, hnone]

/-- Awaiting what settles something: the answer is settled, a throw settles nothing. -/
theorem keeps_await_settling {γ : Type} {action : Action} {next : action.Value → Call γ}
    {post : Seen → Except Failure γ → Prop}
    (hok : ∀ value later, settledIn settlement later =
      settledIn settlement seen ++ (settlement ⟨action, .ok value⟩).toList →
        Keeps Discipline.free post (next value) later)
    (herror : ∀ message later, settledIn settlement later = settledIn settlement seen →
      post later (.error (.error message))) :
    Keeps Discipline.free post (await action >>= next) seen :=
  keeps_await_bind trivial (fun value _ => hok value _ (settledIn_answered seen action value))
    (fun message => herror message _ (settledIn_failed seen action message))

end Rows

/-- What claims and acknowledges nothing, and raises errors only, settles nothing. -/
theorem unruling_bind {β γ : Type} {call : Call β} {next : β → Call γ}
    {post : Seen → Except Failure γ → Prop} {seen : Seen} (havoids : Avoids Ruling call)
    (hraises : Raises Failure.IsError call)
    (hok : ∀ value later, settledIn settlement later = settledIn settlement seen →
      Keeps Discipline.free post (next value) later)
    (herror : ∀ message later, settledIn settlement later = settledIn settlement seen →
      post later (.error (.error message))) :
    Keeps Discipline.free post (call >>= next) seen := by
  refine ((havoids.settles_nothing settlement_eq_none seen).and (hraises.keeps seen)).bind ?_ ?_
  · rintro later value ⟨hsame, -⟩
    exact hok value later hsame
  · rintro later error ⟨hsame, hraised⟩
    cases error with
    | error message => exact herror message later hsame
    | fenced recordId => exact absurd (hraised _ rfl) not_false

/-- The row's one acknowledgement, counted. -/
def Settled (seen : Seen) (claim : EventClaim) (result : DrainResult) (later : Seen)
    (account : DrainResult) : Prop :=
  ∃ settled, settledIn settlement later = settledIn settlement seen ++ [settled] ∧
    settled.claim = claim ∧ account = result.count settled

/-- A failed publish ends in another attempt or in none. -/
theorem afterFailure_cases (settings : WorkerSettings) (now : Int) (row : QueueRow)
    (message : String) :
    settings.afterFailure now row message = .dead message ∨
      ∃ next, settings.afterFailure now row message = .failed message next := by
  unfold WorkerSettings.afterFailure
  split
  · exact .inl rfl
  · exact .inr ⟨_, rfl⟩

/-- The dispatcher reads the answer of every acknowledgement. -/
theorem dispatchRow_settles (dispatcher : InboundDispatcher) (now : Int) (row : QueueRow)
    (result : DrainResult) (seen : Seen) :
    SettlesOne settlement EventSettled.claim DrainResult.count (row.claim .inbound) result seen
      (dispatcher.dispatchRow now row result) := by
  unfold InboundDispatcher.dispatchRow
  refine Keeps.tryCatch (p := fun later ended => match ended with
    | .ok account => Settled seen (row.claim .inbound) result later account
    | .error _ => settledIn settlement later = settledIn settlement seen) ?_ ?_ ?_
  · refine unruling_bind (publish_unruling _ _) (publish_raises _ _) (fun _ middle hmiddle => ?_)
      (fun message later hsame => hsame)
    refine keeps_await_settling middle ?_ (fun message later hsame => hsame.trans hmiddle)
    intro (applied : Bool) later hsettled
    refine ⟨⟨row.claim .inbound, .finished, applied⟩, ?_, rfl, ?_⟩
    · rw [hsettled, hmiddle]
      rfl
    · cases applied <;> rfl
  · rintro later value hvalue account ⟨⟩
    exact hvalue
  · intro middle error hmiddle
    refine keeps_await_settling middle ?_ (fun message later hsame account herror => nomatch herror)
    rintro (applied : Bool) later hsettled account ⟨⟩
    refine ⟨⟨row.claim .inbound, (dispatcher.settings.afterFailure now row error.message).outcome,
      applied⟩, ?_, rfl, ?_⟩
    · rw [hsettled, hmiddle]
      rfl
    · rcases afterFailure_cases dispatcher.settings now row error.message with hdead | ⟨next, hfailed⟩
      · rw [hdead]
        cases applied <;> rfl
      · rw [hfailed]
        cases applied <;> rfl

/-- A publish that went through is acknowledged, and a refusal is thrown. -/
theorem acknowledgePublish_settles (relay : OutboxPublisher) (row : QueueRow) (seen : Seen) :
    Keeps Discipline.free (fun later ended => match ended with
      | .ok _ => settledIn settlement later =
          settledIn settlement seen ++ [⟨row.claim .outbox, .finished, true⟩]
      | .error (.fenced _) => settledIn settlement later =
          settledIn settlement seen ++ [⟨row.claim .outbox, .finished, false⟩]
      | .error (.error _) => settledIn settlement later = settledIn settlement seen)
      (relay.acknowledgePublish row) seen := by
  have hmark : ∀ (action : Action) (before : Seen) (answer : action.Value → Bool),
      (∀ value, settlement ⟨action, .ok value⟩ = some ⟨row.claim .outbox, .finished, answer value⟩) →
      settledIn settlement before = settledIn settlement seen →
      Keeps Discipline.free (fun later ended => match ended with
        | .ok _ => settledIn settlement later =
            settledIn settlement seen ++ [⟨row.claim .outbox, .finished, true⟩]
        | .error (.fenced _) => settledIn settlement later =
            settledIn settlement seen ++ [⟨row.claim .outbox, .finished, false⟩]
        | .error (.error _) => settledIn settlement later = settledIn settlement seen)
        (await action >>= fun value =>
          if answer value then pure () else throw (.fenced row.event.eventId)) before := by
    intro action before answer hanswer hbefore
    refine keeps_await_settling before ?_ (fun message later hsame => hsame.trans hbefore)
    intro value later hsettled
    rw [hanswer value, hbefore] at hsettled
    cases hvalue : answer value with
    | false =>
        rw [hvalue] at hsettled
        exact hsettled
    | true =>
        rw [hvalue] at hsettled
        exact hsettled
  unfold OutboxPublisher.acknowledgePublish
  split
  · refine unruling_bind (stageAll_unruling _ _ _) (stageAll_raises _ _ _)
      (fun staged middle hmiddle => ?_) (fun message later hsame => hsame)
    exact hmark (.commit ⟨staged, row.event.eventId, row.claimToken⟩) middle id (fun _ => rfl) hmiddle
  · exact hmark (.acknowledge .outbox row.event.eventId row.claimToken (.finished .published)) seen id
      (fun _ => rfl) rfl

/-- The relay counts a failure it could not record as one it did. -/
theorem publishRow_settles (relay : OutboxPublisher) (now : Int) (row : QueueRow)
    (result : DrainResult) (seen : Seen) :
    SettlesOne settlement EventSettled.claim DrainResult.count (row.claim .outbox) result seen
      (relay.publishRow now row result) := by
  unfold OutboxPublisher.publishRow
  refine Keeps.tryCatch (p := fun later ended => match ended with
    | .ok account => Settled seen (row.claim .outbox) result later account
    | .error (.fenced _) => settledIn settlement later =
        settledIn settlement seen ++ [⟨row.claim .outbox, .finished, false⟩]
    | .error (.error _) => settledIn settlement later = settledIn settlement seen) ?_ ?_ ?_
  · refine unruling_bind (publish_unruling _ _) (publish_raises _ _) (fun _ middle hmiddle => ?_)
      (fun message later hsame => hsame)
    refine (acknowledgePublish_settles relay row middle).bind ?_ ?_
    · intro later _ hsettled
      refine ⟨⟨row.claim .outbox, .finished, true⟩, ?_, rfl, rfl⟩
      rw [hsettled, hmiddle]
    · intro later error hended
      cases error with
      | fenced recordId => exact hended.trans (by rw [hmiddle])
      | error message => exact hended.trans hmiddle
  · rintro later value hvalue account ⟨⟩
    exact hvalue
  · intro middle error hended
    cases error with
    | fenced recordId =>
        rintro account ⟨⟩
        exact ⟨_, hended, rfl, rfl⟩
    | error message =>
        refine keeps_await_settling middle ?_ (fun message later hsame account herror => nomatch herror)
        rintro (applied : Bool) later hsettled account ⟨⟩
        refine ⟨⟨row.claim .outbox, (relay.settings.afterFailure now row message).outcome,
          applied⟩, ?_, rfl, ?_⟩
        · rw [hsettled, hended]
          rfl
        · rcases afterFailure_cases relay.settings now row message with hdead | ⟨next, hfailed⟩
          · rw [hdead]
            cases applied <;> rfl
          · rw [hfailed]
            cases applied <;> rfl

/-! ### What a drain reports -/

/-- Only the head of a drain claims rows. -/
def Claiming : Action → Prop
  | .claimDue _ _ _ => True
  | _ => False

theorem Claiming.ruling {action : Action} (h : Claiming action) : Ruling action := by
  cases action <;> first | exact h | trivial

theorem dispatchRow_claimless (dispatcher : InboundDispatcher) (now : Int) (row : QueueRow)
    (result : DrainResult) : Avoids Claiming (dispatcher.dispatchRow now row result) := by
  have hpublish := (publish_unruling dispatcher.bus row.event).mono fun _ => Claiming.ruling
  refine avoids_tryCatch (avoids_bind hpublish fun _ => ?_) fun error => ?_
  · exact avoids_bind (avoids_await not_false) fun (applied : Bool) => trivial
  · exact avoids_bind (avoids_await not_false) fun (applied : Bool) => trivial

theorem publishRow_claimless (relay : OutboxPublisher) (now : Int) (row : QueueRow)
    (result : DrainResult) : Avoids Claiming (relay.publishRow now row result) := by
  have hpublish := (publish_unruling relay.bus row.event).mono fun _ => Claiming.ruling
  have hstages := (stageAll_unruling row.event relay.fanOuts []).mono fun _ => Claiming.ruling
  have hthrown : ∀ applied : Bool, Avoids Claiming
      (if applied then pure () else throw (.fenced row.event.eventId) : Call Unit) := by
    intro applied
    cases applied <;> trivial
  have hacknowledge : Avoids Claiming (relay.acknowledgePublish row) := by
    unfold OutboxPublisher.acknowledgePublish
    split
    · exact avoids_bind hstages fun staged => avoids_bind (avoids_await not_false) hthrown
    · exact avoids_bind (avoids_await not_false) hthrown
  refine avoids_tryCatch (avoids_bind hpublish fun _ => avoids_bind hacknowledge fun _ => trivial)
    fun error => ?_
  cases error with
  | fenced recordId => trivial
  | error message => exact avoids_bind (avoids_await not_false) fun (applied : Bool) => trivial

theorem drainRows_eq (each : QueueRow → DrainResult → Call DrainResult) (rows : List QueueRow)
    (result : DrainResult) : drainRows each rows result = workEach each rows result := by
  induction rows generalizing result with
  | nil => rfl
  | cons row rest ih =>
      unfold drainRows workEach
      congr 1
      funext account
      exact ih account

/-- The settled rows are the claimed ones, and the summary is what they come to. -/
def Reported (seen : Seen) (result : DrainResult) : Prop :=
  (settledIn settlement seen).map EventSettled.claim = claimedIn seen ∧
    ∃ reclaimed exhausted, result =
      (settledIn settlement seen).foldl DrainResult.count ⟨0, 0, 0, reclaimed, exhausted, 0⟩

theorem drainQueue_reports {name : QueueName} {settings : WorkerSettings}
    {each : Int → QueueRow → DrainResult → Call DrainResult} {limit : Nat}
    (hsettles : ∀ now row result seen, SettlesOne settlement EventSettled.claim DrainResult.count
      (row.claim name) result seen (each now row result))
    (hclaimless : ∀ now row result, Avoids Claiming (each now row result)) :
    Keeps Discipline.free (fun later ended => ∀ result, ended = .ok result → Reported later result)
      (drainQueue name settings each limit) [] := by
  unfold drainQueue
  refine keeps_await_bind trivial ?_ (fun message result herror => nomatch herror)
  intro (now : Int) _
  refine keeps_await_bind trivial ?_ (fun message result herror => nomatch herror)
  intro (reclaim : EventQueue.ReclaimOutcome) _
  refine keeps_await_bind trivial ?_ (fun message result herror => nomatch herror)
  intro (due : List QueueRow) _
  rw [drainRows_eq]
  have hquiet : ∀ entry : (action : Action) × action.Answer, ¬Claiming entry.1 →
      handedOver entry = [] := by
    rintro ⟨action, answer⟩ hquiet
    cases action with
    | claimDue name now limit => exact absurd trivial hquiet
    | _ => rfl
  refine (workEach_reports (hsettles now) (hclaimless now) hquiet rfl ?_).mono ?_
  · simp [handedOver]
  · intro later ended hended result hresult
    obtain ⟨honce, hcount⟩ := hended result hresult
    exact ⟨honce, reclaim.reclaimed, reclaim.dead, hcount⟩

/-! ### What the counts are -/

/-- The acknowledgement is counted as one that was applied. -/
def EventSettled.credited (settled : EventSettled) : Bool := settled.applied || settled.unheeded

theorem foldl_count (settled : List EventSettled) (result : DrainResult) :
    settled.foldl DrainResult.count result = { result with
      finished := result.finished +
        settled.countP (fun one => one.credited && one.outcome = .finished)
      failed := result.failed + settled.countP (fun one => one.credited && one.outcome = .failed)
      dead := result.dead + settled.countP (fun one => one.credited && one.outcome = .dead)
      fenced := result.fenced + settled.countP (fun one => !one.credited) } := by
  induction settled generalizing result with
  | nil => rfl
  | cons first rest ih =>
      rw [List.foldl_cons, ih]
      obtain ⟨claim, outcome, applied⟩ := first
      simp only [List.countP_cons]
      cases hcredited : (EventSettled.mk claim outcome applied).credited with
      | false =>
          have hnot : ¬(applied || EventSettled.unheeded ⟨claim, outcome, applied⟩) = true := by
            rw [← Bool.not_eq_true] at hcredited
            exact hcredited
          simp only [DrainResult.count, if_neg hnot, Bool.false_and, Bool.not_false, if_true]
          grind
      | true =>
          have hyes : (applied || EventSettled.unheeded ⟨claim, outcome, applied⟩) = true := hcredited
          simp only [DrainResult.count, if_pos hyes, Bool.true_and, Bool.not_true]
          cases outcome <;> grind

/-- Refused acknowledgements are counted as fenced, but for those nobody heeded. -/
theorem countP_refused (settled : List EventSettled) :
    settled.countP (fun one => !one.applied) =
      settled.countP (fun one => !one.credited) + settled.countP EventSettled.unheeded := by
  induction settled with
  | nil => rfl
  | cons first rest ih =>
      obtain ⟨claim, outcome, applied⟩ := first
      simp only [List.countP_cons, ih, EventSettled.credited]
      cases hunheeded : (EventSettled.mk claim outcome applied).unheeded with
      | false =>
          cases applied with
          | false =>
              simp
              omega
          | true => simp
      | true =>
          have hrefused : applied = false := by
            cases applied with
            | false => rfl
            | true => cases hunheeded
          subst hrefused
          simp
          omega

/-- A summary counts what happened exactly where no refused report of a failure went
unheeded. -/
theorem Reported.counts_iff {seen : Seen} {result : DrainResult} (h : Reported seen result) :
    Counts seen result ↔
      ∀ settled ∈ settledIn settlement seen, settled.unheeded = false := by
  obtain ⟨honce, reclaimed, exhausted, rfl⟩ := h
  have hrefused := countP_refused (settledIn settlement seen)
  constructor
  · intro hcounts settled hsettled
    have hfenced := hcounts.fenced
    rw [foldl_count] at hfenced
    have hnone : (settledIn settlement seen).countP EventSettled.unheeded = 0 := by
      simp only [Nat.zero_add] at hfenced
      omega
    exact Bool.eq_false_iff.mpr (List.countP_eq_zero.mp hnone settled hsettled)
  · intro hheeded
    have hcredited : ∀ settled ∈ settledIn settlement seen,
        settled.credited = settled.applied := by
      intro settled hsettled
      rw [EventSettled.credited, hheeded settled hsettled, Bool.or_false]
    have hcount : ∀ outcome, (settledIn settlement seen).countP
        (fun one => one.credited && one.outcome = outcome) =
          (settledIn settlement seen).countP (fun one => one.applied && one.outcome = outcome) :=
      fun outcome => List.countP_congr fun one hone => by rw [hcredited one hone]
    have hfenced : (settledIn settlement seen).countP (fun one => !one.credited) =
        (settledIn settlement seen).countP (fun one => !one.applied) :=
      List.countP_congr fun one hone => by rw [hcredited one hone]
    have hresult := foldl_count (settledIn settlement seen) ⟨0, 0, 0, reclaimed, exhausted, 0⟩
    refine ⟨honce, ?_, ?_, ?_, ?_⟩
    · exact (congrArg DrainResult.finished hresult).trans ((Nat.zero_add _).trans (hcount .finished))
    · exact (congrArg DrainResult.failed hresult).trans ((Nat.zero_add _).trans (hcount .failed))
    · exact (congrArg DrainResult.dead hresult).trans ((Nat.zero_add _).trans (hcount .dead))
    · exact (congrArg DrainResult.fenced hresult).trans ((Nat.zero_add _).trans hfenced)

/-! ### What the answers say of the store -/

/-- What the store did with an acknowledgement it answered so. -/
def EventSettled.Told (settled : EventSettled) (store store' : EventStore) : Prop :=
  match settled.claim, settled.applied with
  | (name, eventId, fence), true => ∃ row how, (store.queue name).get eventId = some row ∧
      isFenced row.claimToken fence = false ∧ how.outcome = settled.outcome ∧
      (store'.queue name).get eventId = some (row.acknowledged how)
  | (name, eventId, fence), false => store' = store ∧
      ∀ row, (store.queue name).get eventId = some row → isFenced row.claimToken fence = true

theorem withQueue_self (store : EventStore) (name : QueueName) :
    store.withQueue name (store.queue name) = store := by
  cases name <;> rfl

theorem acknowledge_refused {queue : EventQueue} {eventId : String} {fence : Fence}
    {how : Acknowledgement} (h : (queue.acknowledge eventId fence how).1 = false) :
    (queue.acknowledge eventId fence how).2 = queue ∧
      ∀ row, queue.get eventId = some row → isFenced row.claimToken fence = true := by
  unfold EventQueue.acknowledge at h ⊢
  cases hrow : queue.get eventId with
  | none => exact ⟨rfl, fun row hfound => nomatch hfound⟩
  | some row =>
      simp only [hrow] at h ⊢
      by_cases hfenced : isFenced row.claimToken fence = true
      · rw [if_pos hfenced]
        refine ⟨rfl, ?_⟩
        rintro found ⟨⟩
        exact hfenced
      · rw [if_neg hfenced] at h
        cases h

/-- The queue answers an acknowledgement truly. -/
theorem acknowledged_told {store store' : EventStore} {name : QueueName} {eventId : String}
    {fence : Fence} {applied : Bool} (how : Acknowledgement)
    (happlied : applied = ((store.queue name).acknowledge eventId fence how).1)
    (hafter : applied = true →
      store'.queue name = ((store.queue name).acknowledge eventId fence how).2)
    (hrefused : applied = false → store' = store) :
    EventSettled.Told ⟨(name, eventId, fence), how.outcome, applied⟩ store store' := by
  cases applied with
  | false => exact ⟨hrefused rfl, (acknowledge_refused happlied.symm).2⟩
  | true =>
      rcases EventQueue.acknowledge_cases (store.queue name) eventId fence how with
        hnot | ⟨row, hrow, hheld, hdone⟩
      · rw [hnot] at happlied
        cases happlied
      · refine ⟨row, how, hrow, hheld, rfl, ?_⟩
        rw [hafter rfl, hdone, Table.get_put, if_pos rfl]

/-- The relay's commit marks its row as an acknowledgement does. -/
theorem commit_told {store store' : EventStore} {work : FanOutWork} {applied : Bool}
    (h : store.commit work = .ok (applied, store')) :
    EventSettled.Told ⟨(.outbox, work.eventId, work.fence), .finished, applied⟩ store store' := by
  unfold EventStore.commit at h
  split at h
  · cases h
  rename_i written hwritten
  obtain ⟨deliveries, notifications, rfl⟩ := EventStore.insertAll_ok hwritten
  dsimp only at h
  cases hmark : store.outbox.acknowledge work.eventId work.fence (.finished .published) with
  | mk accepted outbox =>
      have hqueue : (store.queue .outbox).acknowledge work.eventId work.fence
          (.finished .published) = (accepted, outbox) := hmark
      rw [hmark] at h
      cases accepted with
      | false =>
          cases h
          exact acknowledged_told (.finished .published) (by rw [hqueue]) (fun h => nomatch h)
            fun _ => rfl
      | true =>
          cases h
          exact acknowledged_told (.finished .published) (by rw [hqueue]) (fun _ => by rw [hqueue]; rfl)
            fun h => nomatch h

/-- The store answers an acknowledgement truly: an applied one ended the claim the row was
held under, and a refused one found the row under another and changed nothing. -/
theorem settlement_told {action : Action} {turn : Turn} {answer : action.Answer}
    {store store' : EventStore} {settled : EventSettled}
    (hperform : eventing.perform action turn store = some (answer, store'))
    (hsettled : settlement ⟨action, answer⟩ = some settled) : settled.Told store store' := by
  cases turn with
  | inr happening => cases hperform
  | inl choice =>
      cases answer with
      | error message => cases action <;> cases hsettled
      | ok value =>
          have hdid := perform_ok hperform
          cases action with
          | acknowledge name eventId fence how =>
              obtain rfl := Option.some.inj hsettled
              obtain ⟨hvalue, rfl⟩ := hdid
              refine acknowledged_told how hvalue (fun _ => ?_) fun hrefused => ?_
              · rw [EventStore.queue_withQueue, if_pos rfl]
              · rw [(acknowledge_refused (hvalue.symm.trans hrefused)).1, withQueue_self]
          | commit work =>
              obtain rfl := Option.some.inj hsettled
              exact commit_told hdid
          | _ => cases hsettled

/-! ### Every drain of a run -/

/-- Any number of dispatchers and relays, each configured in its own way. -/
def queueDrains (call : Call DrainResult) : Prop :=
  (∃ (dispatcher : InboundDispatcher) (limit : Nat), call = dispatcher.drainOnce limit) ∨
    ∃ (relay : OutboxPublisher) (limit : Nat), call = relay.drainOnce limit

theorem queueDrains_report (call : Call DrainResult) (h : queueDrains call) :
    Keeps Discipline.free (fun later ended => ∀ result, ended = .ok result → Reported later result)
      call [] := by
  rcases h with ⟨dispatcher, limit, rfl⟩ | ⟨relay, limit, rfl⟩
  · exact drainQueue_reports (dispatchRow_settles dispatcher) (dispatchRow_claimless dispatcher)
  · exact drainQueue_reports (publishRow_settles relay) (publishRow_claimless relay)

/-- A failure is reported to the outbox by who still holds the row. -/
def HeldWhenReported (_ : Seen) : Action → EventStore → Prop
  | .acknowledge .outbox eventId fence how, store => how.outcome ≠ .finished →
      (store.outbox.get eventId).any (fun row => !isFenced row.claimToken fence) = true
  | _, _ => True

/-- Where failures are reported by who holds the row, none goes unheeded. -/
theorem held_heeded {seen : Seen} {action : Action} {turn : Turn} {answer : action.Answer}
    {store store' : EventStore} {settled : EventSettled}
    (hheld : HeldWhenReported seen action store)
    (hperform : eventing.perform action turn store = some (answer, store'))
    (hsettled : settlement ⟨action, answer⟩ = some settled) : settled.unheeded = false := by
  have htold := settlement_told hperform hsettled
  by_contra hunheeded
  rw [Bool.not_eq_false] at hunheeded
  obtain ⟨⟨name, eventId, fence⟩, outcome, applied⟩ := settled
  simp only [EventSettled.unheeded, Bool.and_eq_true, Bool.not_eq_true', decide_eq_true_eq]
    at hunheeded
  obtain ⟨⟨rfl, rfl⟩, hfailure⟩ := hunheeded
  cases answer with
  | error message => cases action <;> cases hsettled
  | ok value =>
      cases action with
      | acknowledge name' eventId' fence' how =>
          obtain ⟨hclaim, houtcome, -⟩ := EventSettled.mk.inj (Option.some.inj hsettled)
          obtain ⟨rfl, hkey⟩ := Prod.mk.inj hclaim
          obtain ⟨rfl, rfl⟩ := Prod.mk.inj hkey
          obtain ⟨row, hrow, hfree⟩ := (Option.any_eq_true _ _).mp (hheld (houtcome ▸ hfailure))
          have hfenced := htold.2 row hrow
          rw [hfenced] at hfree
          cases hfree
      | commit work =>
          obtain ⟨-, houtcome, -⟩ := EventSettled.mk.inj (Option.some.inj hsettled)
          exact hfailure houtcome.symm
      | _ => cases hsettled

theorem run_heeded {store : EventStore}
    {world : World EventStore Action Action.Answer Failure DrainResult}
    (hrun : Run eventing queueDrains HeldWhenReported (World.initial store) world) :
    ∀ task ∈ world.tasks, ∀ settled ∈ settledIn settlement task.seen, settled.unheeded = false := by
  induction hrun with
  | refl => simp [World.initial]
  | tail _ hstep ih =>
      cases hstep with
      | start hcall =>
          intro task htask
          rcases List.mem_append.mp htask with hold | hnew
          · exact ih task hold
          · rw [List.mem_singleton.mp hnew]
            rintro settled ⟨⟩
      | @act _ _ seen action answer hheld hperforms =>
          cases hperforms with
          | @intro store store' before after seen action next answer turn hperform =>
              have hown := ih ⟨seen, .act action next⟩ (by simp)
              refine forall_seen_replace
                (P := fun seen => ∀ settled ∈ settledIn settlement seen, settled.unheeded = false)
                ih fun settled hsettled => ?_
              rw [settledIn_append] at hsettled
              rcases List.mem_append.mp hsettled with hold | hnew
              · exact hown settled hold
              · obtain ⟨entry, hentry, hanswered⟩ := List.mem_filterMap.mp hnew
                rw [List.mem_singleton.mp hentry] at hanswered
                exact held_heeded hheld hperform hanswered
      | tick choice htick => exact ih

/-- Whatever runs beside it, a drain that returns counts what happened exactly where no
refused report of a failed publish went unheeded, and so wherever the relays report only
failures of rows they still hold; a drain of the delivery queue always does. -/
theorem run_counts {store : EventStore}
    {world : World EventStore Action Action.Answer Failure DrainResult} {depot : Depot}
    {yard : World Depot DeliveryAction DeliveryAction.Answer String DeliveryWorkerResult}
    (hrun : Run eventing queueDrains anything (World.initial store) world)
    (hdeliver : Run delivering deliveryDrains anything (World.initial depot) yard) :
    (∀ task ∈ world.tasks, ∀ result, task.rest = .done result →
      (Counts task.seen result ↔
        ∀ settled ∈ settledIn settlement task.seen, settled.unheeded = false)) ∧
    (Run eventing queueDrains HeldWhenReported (World.initial store) world →
      ∀ task ∈ world.tasks, ∀ result, task.rest = .done result → Counts task.seen result) ∧
    (∀ task ∈ yard.tasks, ∀ result, task.rest = .done result →
      DeliveryCounts task.seen result) := by
  have hreported : ∀ task ∈ world.tasks, ∀ result, task.rest = .done result →
      Reported task.seen result := by
    intro task htask result hrest
    have hends := Run.ends queueDrains_report (fun _ => trivial) hrun task htask
    rw [hrest] at hends
    exact hends result rfl
  refine ⟨?_, ?_, ?_⟩
  · exact fun task htask result hrest => (hreported task htask result hrest).counts_iff
  · intro hheld task htask result hrest
    exact (hreported task htask result hrest).counts_iff.mpr (run_heeded hheld task htask)
  · intro task htask result hrest
    have hcalls : ∀ call, deliveryDrains call → Keeps Discipline.free (fun later ended =>
        ∀ result, ended = .ok result → DeliveryCounts later result) call [] := by
      rintro call ⟨worker, limit, rfl⟩
      exact drainOnce_counts worker limit
    have hends := Run.ends hcalls (fun _ => trivial) hdeliver task htask
    rw [hrest] at hends
    exact hends result rfl

/-- A bus that tries its one consumer once. -/
def hastyBus : LocalEventBus := { orderBus with maxAttempts := 1 }

def hastyRelay : OutboxPublisher := ⟨hastyBus, [], false, {}⟩

abbrev DrainSchedule := List (Move Action Action.Answer Turn Failure DrainResult)

def drainsOn (index : Nat) (choices : List Choice) : DrainSchedule :=
  acts index (choices.map Sum.inl)

/-- An event is relayed and its consumer fails; the relay still holds the row. -/
def failedOnce : DrainSchedule :=
  [.tick (.inr (.arrived .outbox orderCreated)), .start (hastyRelay.drainOnce 100)] ++
  drainsOn 0 [.proceed, .proceed, .drawn "claim", .proceed, .failing "busy", .proceed, .proceed]

/-- The consumer takes longer than the lease before it fails; another relay has claimed the
row by then. -/
def failedLate : DrainSchedule :=
  [.tick (.inr (.arrived .outbox orderCreated)), .start (hastyRelay.drainOnce 100)] ++
  drainsOn 0 [.proceed, .proceed, .drawn "claim", .proceed, .failing "busy", .proceed] ++
  [.tick (.inr (.elapsed 30000)), .start (hastyRelay.drainOnce 100)] ++
  drainsOn 1 [.proceed, .proceed, .drawn "reclaim"] ++
  drainsOn 0 [.proceed]

/-- A webhook is delivered. -/
def deliveredOnce :
    List (Move DeliveryAction DeliveryAction.Answer DepotTurn String DeliveryWorkerResult) :=
  [.tick (.subscribed ⟨⟨"shop", "shop", "market.order.created", true⟩, "https://shop", "secret"⟩),
    .tick (.appended orderCreated),
    .tick (.queued (.queued "delivery" "order-created" "shop" 0)),
    .start (DeliveryWorker.drainOnce {} 100)] ++
  acts 0 [.proceed, .proceed, .drawn "claim", .proceed, .proceed, .response ⟨some 200, none⟩, .proceed]

instance (seen : Seen) (action : Action) (store : EventStore) :
    Decidable (HeldWhenReported seen action store) :=
  match action with
  | .acknowledge .outbox _ _ how => inferInstanceAs (Decidable (how.outcome ≠ .finished → _ = true))
  | .acknowledge .inbound .. => .isTrue trivial
  | .clock | .newId | .claim .. | .handle .. | .release .. | .reclaimExpired .. | .claimDue ..
  | .subscriptionsFor .. | .recipientsFor .. | .verifiedAddress .. | .queue .. | .commit .. =>
      .isTrue trivial

set_option maxRecDepth 20000 in
theorem run_counts_failedOnce :
    ∃ (world : World EventStore Action Action.Answer Failure DrainResult)
      (yard : World Depot DeliveryAction DeliveryAction.Answer String DeliveryWorkerResult),
      (∃ task ∈ world.tasks, task.returned = some ⟨0, 1, 0, 0, 0, 0⟩ ∧
        Counts task.seen ⟨0, 1, 0, 0, 0, 0⟩) ∧
      ∃ task ∈ yard.tasks, task.returned = some ⟨1, 0, 0, 0, 0, 0, 0⟩ ∧
        DeliveryCounts task.seen ⟨1, 0, 0, 0, 0, 0, 0⟩ := by
  have hplays : (play eventing (fun seen action store => decide (HeldWhenReported seen action store))
      failedOnce (World.initial (EventStore.empty 0))).any (fun world =>
        world.tasks.any (fun task => task.returned = some ⟨0, 1, 0, 0, 0, 0⟩)) = true := by
    decide +kernel
  obtain ⟨world, hworld, hany⟩ := (Option.any_eq_true _ _).mp hplays
  have hdelivers : (play delivering unrestricted deliveredOnce
      (World.initial ⟨0, .empty, .empty, .empty⟩)).any (fun yard =>
        yard.tasks.any (fun task => task.returned = some ⟨1, 0, 0, 0, 0, 0, 0⟩)) = true := by
    decide +kernel
  obtain ⟨yard, hyard, hsent⟩ := (Option.any_eq_true _ _).mp hdelivers
  have hheld : Run eventing queueDrains HeldWhenReported (World.initial (EventStore.empty 0)) world := by
    refine play_run hworld ?_ (fun _ _ _ h => of_decide_eq_true h)
    intro call hcall
    simp only [failedOnce, drainsOn, acts, List.mem_append, List.mem_cons, List.mem_map,
      List.not_mem_nil, or_false, reduceCtorEq, false_or, Move.start.injEq] at hcall
    rcases hcall with rfl | ⟨choice, -, hnot⟩
    · exact .inr ⟨hastyRelay, 100, rfl⟩
    · cases hnot
  have hrun : Run delivering deliveryDrains anything (World.initial ⟨0, .empty, .empty, .empty⟩) yard := by
    refine play_run hyard ?_ (fun _ _ _ _ => trivial)
    intro call hcall
    simp only [deliveredOnce, acts, List.mem_append, List.mem_cons, List.mem_map,
      List.not_mem_nil, or_false, reduceCtorEq, false_or, Move.start.injEq] at hcall
    rcases hcall with rfl | ⟨choice, -, hnot⟩
    · exact ⟨{}, 100, rfl⟩
    · cases hnot
  obtain ⟨-, hcounts, hdelivered⟩ := run_counts hheld.unrestrict hrun
  obtain ⟨task, htask, hreturned⟩ := List.any_eq_true.mp hany
  obtain ⟨sent, hmember, hback⟩ := List.any_eq_true.mp hsent
  have hreturned := of_decide_eq_true hreturned
  have hback := of_decide_eq_true hback
  exact ⟨world, yard,
    ⟨task, htask, hreturned, hcounts hheld task htask _ (Task.returned_eq_some.mp hreturned)⟩,
    ⟨sent, hmember, hback, hdelivered sent hmember _ (Task.returned_eq_some.mp hback)⟩⟩

set_option maxRecDepth 20000 in
/-- Without the condition a drain counts a refused report as a recorded failure. -/
theorem counts_fails :
    ¬∀ (store : EventStore) (world : World EventStore Action Action.Answer Failure DrainResult),
      Run eventing queueDrains anything (World.initial store) world →
        ∀ task ∈ world.tasks, ∀ result, task.rest = .done result → Counts task.seen result := by
  intro h
  have hplays : (play eventing unrestricted failedLate (World.initial (EventStore.empty 0))).any
      (fun world => world.tasks.any (fun task => task.returned = some ⟨0, 1, 0, 0, 0, 0⟩ ∧
        settledIn settlement task.seen =
          [⟨(.outbox, "order-created", some "claim"), .failed, false⟩])) = true := by
    decide +kernel
  obtain ⟨world, hworld, hany⟩ := (Option.any_eq_true _ _).mp hplays
  have hrun : Run eventing queueDrains anything (World.initial (EventStore.empty 0)) world := by
    refine play_run hworld ?_ (fun _ _ _ _ => trivial)
    intro call hcall
    refine .inr ⟨hastyRelay, 100, ?_⟩
    revert call
    simp [failedLate, drainsOn, acts]
  obtain ⟨task, htask, hstate⟩ := List.any_eq_true.mp hany
  obtain ⟨hreturned, hsettled⟩ := of_decide_eq_true hstate
  have hfenced := (h _ world hrun task htask _ (Task.returned_eq_some.mp hreturned)).fenced
  rw [hsettled] at hfenced
  cases hfenced

end WaslaCore.Eventing
