import WaslaCore.Eventing.Workers

/-!
Effectively-once handling. A delivery holds its consumer's inbox entry from the
claim that took it to the handler's return or the release after a failure. While
every claim that is made again finds the entry free, an entry has at most one
holder, and a completed handler keeps it for good.
-/

namespace WaslaCore.Eventing

open Interleaving

/-! ### Who holds an inbox entry -/

/-- Whether one answered action leaves the call holding the consumer's entry. -/
def holdsAfter (consumer eventId : String) (holding : Bool) :
    ((action : Action) × action.Answer) → Bool
  | ⟨.claim other event _, .ok claimed⟩ =>
      if other = consumer ∧ event.eventId = eventId then holding || (claimed : Bool) else holding
  | ⟨.handle other event _, .ok _⟩ =>
      if other = consumer ∧ event.eventId = eventId then false else holding
  | ⟨.release other event _ _, .ok _⟩ =>
      if other = consumer ∧ event.eventId = eventId then false else holding
  | _ => holding

/-- Whether a call holds the entry after what it has seen. -/
def holds (consumer eventId : String) (seen : Seen) : Bool :=
  seen.foldl (holdsAfter consumer eventId) false

@[simp] theorem holds_snoc (consumer eventId : String) (seen : Seen)
    (entry : (action : Action) × action.Answer) :
    holds consumer eventId (seen ++ [entry]) =
      holdsAfter consumer eventId (holds consumer eventId seen) entry := by
  simp [holds, List.foldl_append]

/-- An action that threw leaves everything held as it was. -/
@[simp] theorem holdsAfter_error (consumer eventId : String) (holding : Bool) (action : Action)
    (message : String) :
    holdsAfter consumer eventId holding ⟨action, .error message⟩ = holding := by
  cases action <;> rfl

/-- How many handlers of one consumer completed for one event. -/
def completions (consumer eventId : String) (completed : List (String × EventEnvelope)) : Nat :=
  completed.countP (fun entry => entry.1 = consumer ∧ entry.2.eventId = eventId)

/-- A handler runs, and an entry is released, only by a call that holds it. A claim
made again is answered with the entry. -/
def holding : Discipline Action Action.Answer where
  told action answer :=
    match action, answer with
    | .claim _ _ attempts, .ok claimed => attempts ≠ 0 → (claimed : Bool) = true
    | _, _ => True
  owed seen action :=
    match action with
    | .handle consumer event _ => holds consumer event.eventId seen = true
    | .release consumer event _ _ => holds consumer event.eventId seen = true
    | _ => True

section Calls

variable {γ : Type} {seen : Seen}

theorem claimAgain_keeps (consumer : String) (event : EventEnvelope) (attempts maxAttempts : Nat)
    (hattempts : 0 < attempts) :
    Keeps holding (fun later result => attempts < maxAttempts → result = .ok () →
        holds consumer event.eventId later = true)
      (LocalEventBus.claimAgain consumer event attempts maxAttempts) seen := by
  unfold LocalEventBus.claimAgain
  by_cases hleft : attempts < maxAttempts
  · rw [if_pos hleft]
    refine keeps_await_bind trivial ?_ (fun _ _ hresult => by cases hresult)
    intro (claimed : Bool) htold
    have hclaimed : claimed = true := htold (Nat.pos_iff_ne_zero.mp hattempts)
    intro _ _
    rw [holds_snoc]
    simp [holdsAfter, hclaimed]
  · rw [if_neg hleft]
    exact fun hlater => absurd hlater hleft

/-- From the claim on, every attempt runs the handler while the call holds the entry. -/
theorem attempt_keeps (consumer : String) (event : EventEnvelope) (maxAttempts left : Nat)
    (lastError : String) (hleft : left ≤ maxAttempts)
    (hholds : 0 < left → holds consumer event.eventId seen = true) :
    Keeps holding anyEnd (LocalEventBus.attempt consumer event maxAttempts left lastError)
      seen := by
  induction left generalizing lastError seen with
  | zero => trivial
  | succ left ih =>
      unfold LocalEventBus.attempt
      have hhandled : Keeps holding (fun later result => ∀ error, result = .error error →
          holds consumer event.eventId later = true)
          (do
            let _ : Unit ← await (.handle consumer event (maxAttempts - left))
            pure none : Call (Option String)) seen := by
        refine keeps_await_bind (hholds (Nat.succ_pos left)) ?_ ?_
        · rintro - - error ⟨⟩
        · intro message _ _
          rw [holds_snoc, holdsAfter_error]
          exact hholds (Nat.succ_pos left)
      refine hhandled.tryCatch (fun _ _ _ => trivial) ?_
      intro later error hlater
      refine keeps_await_bind (hlater error rfl) ?_ (fun _ => trivial)
      intro _ _
      refine (claimAgain_keeps consumer event (maxAttempts - left) maxAttempts (by omega)).bind ?_
        (fun _ _ _ => trivial)
      intro final _ hfinal
      exact ih _ (by omega) (fun hpos => hfinal (by omega) rfl)

theorem deliver_keeps (bus : LocalEventBus) (sub : Subscription) (event : EventEnvelope) :
    Keeps holding anyEnd (bus.deliver sub event) seen := by
  unfold LocalEventBus.deliver
  refine keeps_await_bind trivial ?_ (fun _ => trivial)
  intro (claimed : Bool) _
  cases claimed with
  | false => trivial
  | true =>
      refine attempt_keeps _ _ _ _ _ (Nat.le_refl _) (fun _ => ?_)
      rw [holds_snoc]
      simp [holdsAfter]

theorem deliverAll_keeps (bus : LocalEventBus) (event : EventEnvelope)
    (subs : List Subscription) (failures : List String) :
    Keeps holding anyEnd (bus.deliverAll event subs failures) seen := by
  induction subs generalizing failures seen with
  | nil => trivial
  | cons sub rest ih =>
      unfold LocalEventBus.deliverAll
      by_cases htype : sub.eventType = event.eventType
      · rw [if_pos htype]
        exact (deliver_keeps bus sub event).bind (fun _ _ _ => ih _) (fun _ _ _ => trivial)
      · rw [if_neg htype]
        exact ih failures

theorem publish_keeps (bus : LocalEventBus) (event : EventEnvelope) :
    Keeps holding anyEnd (bus.publish event) seen := by
  unfold LocalEventBus.publish
  refine (deliverAll_keeps bus event bus.subs []).bind ?_ (fun _ _ _ => trivial)
  intro later failures _
  by_cases hempty : failures.isEmpty
  · rw [if_pos hempty]
    trivial
  · rw [if_neg hempty]
    trivial

end Calls

/-! ### Around the bus a worker holds nothing -/

section Avoiding

theorem markProcessed_avoids (row : QueueRow) (result : DrainResult) :
    Avoids Delivering (InboundDispatcher.markProcessed row result) :=
  avoids_bind (avoids_await not_false) fun _ => trivial

theorem markUnprocessed_avoids (dispatcher : InboundDispatcher) (now : Int) (row : QueueRow)
    (result : DrainResult) (message : String) :
    Avoids Delivering (dispatcher.markUnprocessed now row result message) :=
  avoids_bind (avoids_await not_false) fun _ => trivial

theorem acknowledgePublish_avoids (relay : OutboxPublisher) (row : QueueRow) :
    Avoids Delivering (relay.acknowledgePublish row) := by
  unfold OutboxPublisher.acknowledgePublish
  split
  · unfold OutboxPublisher.publishWithFanOut
    refine avoids_bind (stageAll_avoids ?_ _ _ _) fun staged => ?_
    · intro action hstaging
      cases action <;> first | exact not_false | cases hstaging
    refine avoids_bind (avoids_await not_false) fun (applied : Bool) => ?_
    cases applied <;> trivial
  · unfold OutboxPublisher.markPublished
    refine avoids_bind (avoids_await not_false) fun (applied : Bool) => ?_
    cases applied <;> trivial

theorem afterError_avoids (relay : OutboxPublisher) (now : Int) (row : QueueRow)
    (result : DrainResult) (error : Failure) :
    Avoids Delivering (relay.afterError now row result error) := by
  cases error with
  | fenced recordId => trivial
  | error message => exact avoids_bind (avoids_await not_false) fun _ => trivial

/-- What a worker does around its deliveries owes nothing. -/
theorem unowed_of_avoids {γ : Type} {call : Call γ} {seen : Seen} (h : Avoids Delivering call) :
    Keeps holding anyEnd call seen := by
  refine (h.keeps (fun _ action haction => ?_) seen).mono fun _ _ _ => trivial
  cases action with
  | handle consumer event attempts => exact absurd trivial haction
  | release consumer event attempts lastError => exact absurd trivial haction
  | _ => trivial

end Avoiding

/-- Every call of a worker keeps the rule of holding. -/
theorem errands_keep (bus : LocalEventBus) (call : Call Unit) (hcall : errands bus call) :
    Keeps holding anyEnd call [] := by
  obtain ⟨errand, rfl⟩ := hcall
  cases errand with
  | publish event => exact publish_keeps bus event
  | dispatch settings limit =>
      refine Keeps.bind (p := anyEnd) ?_ (fun _ _ _ => trivial) (fun _ _ _ => trivial)
      refine drainQueue_keeps (fun _ => trivial) (fun _ _ => trivial) (fun _ _ => trivial) ?_
      intro now rows later _ _ row _ result
      refine Keeps.tryCatch (p := anyEnd) ?_ (fun _ _ _ => trivial) ?_
      · exact (publish_keeps bus row.event).bind
          (fun _ _ _ => unowed_of_avoids (markProcessed_avoids row result)) (fun _ _ _ => trivial)
      · exact fun _ error _ =>
          unowed_of_avoids (markUnprocessed_avoids ⟨bus, settings⟩ now row result error.message)
  | relay fanOuts boundary settings limit =>
      refine Keeps.bind (p := anyEnd) ?_ (fun _ _ _ => trivial) (fun _ _ _ => trivial)
      refine drainQueue_keeps (fun _ => trivial) (fun _ _ => trivial) (fun _ _ => trivial) ?_
      intro now rows later _ _ row _ result
      refine Keeps.tryCatch (p := anyEnd) ?_ (fun _ _ _ => trivial) ?_
      · refine (publish_keeps bus row.event).bind (fun _ _ _ => ?_) (fun _ _ _ => trivial)
        exact Keeps.bind (p := anyEnd) (unowed_of_avoids (acknowledgePublish_avoids _ row))
          (fun _ _ _ => trivial) (fun _ _ _ => trivial)
      · exact fun _ error _ => unowed_of_avoids (afterError_avoids _ now row result error)

/-! ### Entries have one holder -/

/-- How many calls hold the entry. -/
def holders (consumer eventId : String) (tasks : List (Task Action Action.Answer Failure Unit)) :
    Nat :=
  tasks.countP (fun task => holds consumer eventId task.seen)

/-- Completed handlers and holders together need an entry, and share one. -/
def OneHolder (world : World EventStore Action Action.Answer Failure Unit) : Prop :=
  ∀ consumer eventId,
    completions consumer eventId world.store.completed + holders consumer eventId world.tasks ≤
      if (consumer, eventId) ∈ world.store.inbox then 1 else 0

/-- Every claim made again after a failed attempt finds the entry free. -/
def ReclaimsFree (_ : Seen) (action : Action) (store : EventStore) : Prop :=
  match action with
  | .claim consumer event attempts => attempts ≠ 0 → (consumer, event.eventId) ∉ store.inbox
  | _ => True

instance (seen : Seen) (action : Action) (store : EventStore) :
    Decidable (ReclaimsFree seen action store) :=
  match action with
  | .claim consumer event attempts =>
      inferInstanceAs (Decidable (attempts ≠ 0 → (consumer, event.eventId) ∉ store.inbox))
  | .clock | .newId | .handle .. | .release .. | .reclaimExpired .. | .claimDue ..
  | .acknowledge .. | .subscriptionsFor .. | .recipientsFor .. | .verifiedAddress .. | .queue ..
  | .commit .. => .isTrue trivial

/-- An answer of an action that is not a delivery's changes nothing that is held. -/
theorem holdsAfter_undelivering (consumer eventId : String) (holding : Bool) {action : Action}
    (answer : action.Answer) (h : ¬Delivering action) :
    holdsAfter consumer eventId holding ⟨action, answer⟩ = holding := by
  cases action with
  | claim other event attempts => exact absurd trivial h
  | handle other event attempts => exact absurd trivial h
  | release other event attempts lastError => exact absurd trivial h
  | _ => cases answer <;> rfl

/-- What one action does to one entry: it stays enough for the completed handlers
and the holders. -/
theorem Did.oneHolder {action : Action} {value : action.Value} {store store' : EventStore}
    {seen : Seen} {others : Nat} (consumer eventId : String)
    (hdid : Did action value store store') (howed : holding.owed seen action)
    (h : completions consumer eventId store.completed +
        (others + if holds consumer eventId seen then 1 else 0) ≤
      if (consumer, eventId) ∈ store.inbox then 1 else 0) :
    completions consumer eventId store'.completed +
        (others + if holds consumer eventId (seen ++ [⟨action, .ok value⟩]) then 1 else 0) ≤
      if (consumer, eventId) ∈ store'.inbox then 1 else 0 := by
  rw [holds_snoc]
  by_cases hdelivering : Delivering action
  swap
  · obtain ⟨hinbox, hcompleted⟩ := hdid.undelivering hdelivering
    rw [hinbox, hcompleted, holdsAfter_undelivering consumer eventId _ _ hdelivering]
    exact h
  cases action with
  | claim other event attempts =>
      obtain ⟨rfl, rfl⟩ := hdid
      by_cases hentry : other = consumer ∧ event.eventId = eventId
      · obtain ⟨rfl, rfl⟩ := hentry
        by_cases hpresent : (other, event.eventId) ∈ store.inbox
        · simpa [EventStore.claim, holdsAfter, hpresent] using h
        · simp only [hpresent, if_false] at h
          simp [EventStore.claim, holdsAfter, hpresent]
          omega
      · have hother : (consumer, eventId) ≠ (other, event.eventId) := by
          rintro ⟨⟩
          exact hentry ⟨rfl, rfl⟩
        have hinbox : (consumer, eventId) ∈ (store.claim other event.eventId).2.inbox ↔
            (consumer, eventId) ∈ store.inbox := by
          unfold EventStore.claim
          split
          · exact Iff.rfl
          · simp [hother]
        have hcompleted : (store.claim other event.eventId).2.completed = store.completed := by
          unfold EventStore.claim
          split <;> rfl
        simpa [holdsAfter, hentry, hinbox, hcompleted] using h
  | handle other event attempts =>
      obtain rfl := hdid
      by_cases hentry : other = consumer ∧ event.eventId = eventId
      · obtain ⟨rfl, rfl⟩ := hentry
        have hheld : holds other event.eventId seen = true := howed
        simp only [hheld, if_true] at h
        simp [holdsAfter, completions, List.countP_append] at h ⊢
        omega
      · simpa [holdsAfter, completions, List.countP_append, hentry] using h
  | release other event attempts lastError =>
      obtain rfl := hdid
      by_cases hentry : other = consumer ∧ event.eventId = eventId
      · obtain ⟨rfl, rfl⟩ := hentry
        have hheld : holds other event.eventId seen = true := howed
        simp only [hheld, if_true] at h
        have hnone : completions other event.eventId store.completed = 0 ∧ others = 0 := by
          split at h <;> omega
        simp [holdsAfter, EventStore.release, hnone.1, hnone.2]
      · have hother : (consumer, eventId) ≠ (other, event.eventId) := by
          rintro ⟨⟩
          exact hentry ⟨rfl, rfl⟩
        simpa [holdsAfter, EventStore.release, hentry, hother] using h
  | _ => exact absurd hdelivering not_false

/-! ### Effectively-once handling over runs -/

/-- While every claim made again finds its entry free, no entry ever has more than
one completed handler or holder. -/
theorem oneHolder_run {bus : LocalEventBus} {start : Int}
    {world : World EventStore Action Action.Answer Failure Unit}
    (hrun : Run eventing (errands bus) ReclaimsFree (World.initial (EventStore.empty start)) world) :
    OneHolder world := by
  refine (Run.maintains (I := OneHolder) (errands_keep bus) ?_ ?_ ?_ (orderly_initial _) ?_ hrun).2
  · intro store tasks call _ hone consumer eventId
    have hnew : holders consumer eventId (tasks ++ [⟨[], call⟩]) =
        holders consumer eventId tasks := by
      simp [holders, List.countP_append, holds]
    rw [hnew]
    exact hone consumer eventId
  · intro before after seen action answer hone howed hallowed hperforms
    cases hperforms with
    | @intro store store' earlier later seen action next answer turn hperform =>
        cases turn with
        | inr happening => cases hperform
        | inl choice =>
            have hcount : ∀ consumer eventId (history : Seen) (rest : Call Unit),
                holders consumer eventId (earlier ++ ⟨history, rest⟩ :: later) =
                  holders consumer eventId earlier + holders consumer eventId later +
                    if holds consumer eventId history then 1 else 0 := by
              intro consumer eventId history rest
              simp only [holders, List.countP_append, List.countP_cons]
              omega
            cases answer with
            | error message =>
                have hstore : store' = store := perform_error hperform
                subst hstore
                refine ⟨by cases action <;> trivial, fun consumer eventId => ?_⟩
                have h := hone consumer eventId
                simpa [hcount] using h
            | ok value =>
                have hdid := perform_ok hperform
                refine ⟨?_, fun consumer eventId => ?_⟩
                · cases action with
                  | claim consumer event attempts =>
                      intro hattempts
                      have hfree : (consumer, event.eventId) ∉ store.inbox := hallowed hattempts
                      have hclaimed : (store.claim consumer event.eventId).1 = true := by
                        simp [EventStore.claim, hfree]
                      exact hdid.1.trans hclaimed
                  | _ => trivial
                · have h := hone consumer eventId
                  simp only [hcount] at h ⊢
                  exact hdid.oneHolder consumer eventId howed h
  · intro store store' tasks turn hone htick
    cases turn with
    | inl choice => cases htick
    | inr happening =>
        obtain rfl := Option.some.inj htick
        intro consumer eventId
        change completions consumer eventId (store.happen happening).completed +
          holders consumer eventId tasks ≤
            if (consumer, eventId) ∈ (store.happen happening).inbox then 1 else 0
        rw [EventStore.happen_completed, EventStore.happen_inbox]
        exact hone consumer eventId
  · intro consumer eventId
    simp [World.initial, EventStore.empty, completions, holders]

/-- Each pair of a consumer and an event has at most one completed handler, in every
run whose claims made again after a failed attempt find their entries free. -/
theorem run_once {bus : LocalEventBus} {start : Int}
    {world : World EventStore Action Action.Answer Failure Unit}
    (hrun : Run eventing (errands bus) ReclaimsFree (World.initial (EventStore.empty start)) world)
    (consumer eventId : String) :
    completions consumer eventId world.store.completed ≤ 1 := by
  have h := oneHolder_run hrun consumer eventId
  split at h <;> omega

/-! ### Runs on one event -/

/-- The first publish fails once and succeeds on its second attempt; the second
publish finds the event handled. -/
def retriedOnce : Schedule :=
  .start (Errand.call orderBus (.publish orderCreated)) ::
    works 0 [.proceed, .failing "busy", .proceed, .proceed, .proceed] ++
  .start (Errand.call orderBus (.publish orderCreated)) :: works 1 [.proceed]

/-- Between the release after the first publish's failed attempt and its second
claim, another publish claims the entry; the second claim's refusal is not read. -/
def claimedBetween : Schedule :=
  .start (Errand.call orderBus (.publish orderCreated)) ::
    works 0 [.proceed, .failing "busy", .proceed] ++
  .start (Errand.call orderBus (.publish orderCreated)) :: works 1 [.proceed] ++
    works 0 [.proceed, .proceed] ++ works 1 [.proceed]

set_option maxRecDepth 20000 in
theorem run_once_retriedOnce :
    ∃ world, play eventing (fun seen action store => decide (ReclaimsFree seen action store))
        retriedOnce (World.initial (EventStore.empty 0)) = some world ∧
      completions "intake" "order-created" world.store.completed = 1 ∧
      ∀ consumer eventId, completions consumer eventId world.store.completed ≤ 1 := by
  have hplays : (play eventing (fun seen action store => decide (ReclaimsFree seen action store))
      retriedOnce (World.initial (EventStore.empty 0))).any
        (fun world => completions "intake" "order-created" world.store.completed = 1) = true := by
    decide +kernel
  obtain ⟨world, hworld, hcompleted⟩ := (Option.any_eq_true _ _).mp hplays
  have hrun : Run eventing (errands orderBus) ReclaimsFree (World.initial (EventStore.empty 0))
      world := by
    refine play_run hworld ?_ (fun _ _ _ h => of_decide_eq_true h)
    simp [retriedOnce, works, acts, errands]
  exact ⟨world, hworld, of_decide_eq_true hcompleted, run_once hrun⟩

set_option maxRecDepth 20000 in
/-- Without the condition a handler completes twice for one event. -/
theorem once_fails :
    ¬∀ (bus : LocalEventBus) (start : Int)
      (world : World EventStore Action Action.Answer Failure Unit),
      Run eventing (errands bus) anything (World.initial (EventStore.empty start)) world →
      ∀ consumer eventId, completions consumer eventId world.store.completed ≤ 1 := by
  intro h
  have hplays : (play eventing unrestricted claimedBetween
      (World.initial (EventStore.empty 0))).any
        (fun world => completions "intake" "order-created" world.store.completed = 2) = true := by
    decide +kernel
  obtain ⟨world, hworld, hcompleted⟩ := (Option.any_eq_true _ _).mp hplays
  have hrun : Run eventing (errands orderBus) anything (World.initial (EventStore.empty 0)) world := by
    refine play_run hworld ?_ (fun _ _ _ _ => trivial)
    simp [claimedBetween, works, acts, errands]
  have htwice : completions "intake" "order-created" world.store.completed = 2 :=
    of_decide_eq_true hcompleted
  have hbound := h orderBus 0 world hrun "intake" "order-created"
  omega

end WaslaCore.Eventing
