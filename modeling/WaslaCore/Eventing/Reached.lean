import WaslaCore.Eventing.Workers

/-!
What a finished row says. A publish that reports success was told of every
matching consumer either that its handler returned or that its inbox entry was
taken already. The second is as good as the first only while an entry is never
left behind by a delivery that did not end, so the result is about runs in which
a refused claim is always about a handled event.
-/

namespace WaslaCore.Eventing

open Data Interleaving

/-- Every subscribed consumer has completed its handler for the event. -/
def Reached (bus : LocalEventBus) (completed : List (String × EventEnvelope))
    (event : EventEnvelope) : Prop :=
  ∀ sub ∈ bus.subs, sub.eventType = event.eventType → (sub.consumer, event) ∈ completed

/-- Every row marked processed or published is about an event that reached every
consumer. -/
def FinishedReached (bus : LocalEventBus) (store : EventStore) : Prop :=
  ∀ name id row, (store.queue name).get id = some row →
    row.status = .processed ∨ row.status = .published → Reached bus store.completed row.event

/-- The handler returned, or the claim before the first attempt was refused. -/
def ReachedBy (consumer : String) (event : EventEnvelope) (seen : Seen) : Prop :=
  (∃ attempts, ⟨.handle consumer event attempts, .ok ()⟩ ∈ seen) ∨
    ⟨.claim consumer event 0, .ok false⟩ ∈ seen

def ReachedIn (bus : LocalEventBus) (event : EventEnvelope) (seen : Seen) : Prop :=
  ∀ sub ∈ bus.subs, sub.eventType = event.eventType → ReachedBy sub.consumer event seen

/-- The call was given a row about the event by a claim on the queue. -/
def Taken (name : QueueName) (event : EventEnvelope) (seen : Seen) : Prop :=
  ∃ (now : Int) (limit : Nat) (rows : List QueueRow),
    ⟨.claimDue name now limit, .ok rows⟩ ∈ seen ∧ ∃ row ∈ rows, row.event = event

theorem ReachedBy.later {consumer : String} {event : EventEnvelope} {seen later : Seen}
    (h : ReachedBy consumer event seen) (hlater : seen <+: later) :
    ReachedBy consumer event later := by
  rcases h with ⟨attempts, hhandled⟩ | hrefused
  · exact .inl ⟨attempts, hlater.subset hhandled⟩
  · exact .inr (hlater.subset hrefused)

theorem Taken.later {name : QueueName} {event : EventEnvelope} {seen later : Seen}
    (h : Taken name event seen) (hlater : seen <+: later) : Taken name event later := by
  obtain ⟨now, limit, rows, hclaim, hrow⟩ := h
  exact ⟨now, limit, rows, hlater.subset hclaim, hrow⟩

/-- A row is finished only after its event was taken from the queue and reached
every consumer. A delivery whose last attempt failed has an error text to report. -/
def reaching (bus : LocalEventBus) : Discipline Action Action.Answer where
  told action answer :=
    match action, answer with
    | .release _ _ attempts lastError, .ok _ =>
        bus.maxAttempts ≤ attempts → lastError.isEmpty = false
    | _, _ => True
  owed seen action :=
    ∀ name eventId fence status, Marks action name eventId fence (.finished status) →
      ∃ event, event.eventId = eventId ∧ Taken name event seen ∧ ReachedIn bus event seen

/-- The actions that acknowledge a row. -/
def Marking (action : Action) : Prop := ∃ name eventId fence how, Marks action name eventId fence how

section Calls

variable {bus : LocalEventBus} {γ : Type} {seen : Seen}

theorem owed_of_not_marking {action : Action} (h : ¬Marking action) (seen : Seen) :
    (reaching bus).owed seen action :=
  fun name eventId fence _ hmarks => absurd ⟨name, eventId, fence, _, hmarks⟩ h

theorem keeps_of_avoids_marking {call : Call γ} (h : Avoids Marking call) :
    Keeps (reaching bus) anyEnd call seen :=
  (h.keeps (fun seen _ haction => owed_of_not_marking haction seen) seen).mono
    fun _ _ _ => trivial

theorem not_marking_claim (consumer : String) (event : EventEnvelope) (attempts : Nat) :
    ¬Marking (.claim consumer event attempts) := by
  rintro ⟨_, _, _, _, ⟨⟩⟩

theorem not_marking_handle (consumer : String) (event : EventEnvelope) (attempts : Nat) :
    ¬Marking (.handle consumer event attempts) := by
  rintro ⟨_, _, _, _, ⟨⟩⟩

theorem not_marking_release (consumer : String) (event : EventEnvelope) (attempts : Nat)
    (lastError : String) : ¬Marking (.release consumer event attempts lastError) := by
  rintro ⟨_, _, _, _, ⟨⟩⟩

theorem not_marking_staging {action : Action} (h : Staging action) : ¬Marking action := by
  rintro ⟨_, _, _, _, hmarks⟩
  cases hmarks <;> cases h

theorem claimAgain_reaching (consumer : String) (event : EventEnvelope)
    (attempts maxAttempts : Nat) :
    Keeps (reaching bus) anyEnd (LocalEventBus.claimAgain consumer event attempts maxAttempts)
      seen := by
  apply keeps_of_avoids_marking
  unfold LocalEventBus.claimAgain
  by_cases hleft : attempts < maxAttempts
  · rw [if_pos hleft]
    exact avoids_bind (avoids_await (not_marking_claim consumer event attempts))
      fun (claimed : Bool) => trivial
  · rw [if_neg hleft]
    trivial

/-- The attempts end without an error to report only where a handler returned. -/
theorem attempt_reaches (consumer : String) (event : EventEnvelope) (left : Nat)
    (lastError : String) (hleft : left ≤ bus.maxAttempts)
    (herror : left = 0 → lastError.isEmpty = false) :
    Keeps (reaching bus) (fun later result => ∀ failure, result = .ok failure →
        failure.all String.isEmpty = true → ReachedBy consumer event later)
      (LocalEventBus.attempt consumer event bus.maxAttempts left lastError) seen := by
  induction left generalizing lastError seen with
  | zero =>
      rintro failure ⟨rfl⟩ hempty
      rw [Option.all_some, herror rfl] at hempty
      cases hempty
  | succ left ih =>
      unfold LocalEventBus.attempt
      have hhandled : Keeps (reaching bus) (fun later result => ∀ failure, result = .ok failure →
          ReachedBy consumer event later)
          (do
            let _ : Unit ← await (.handle consumer event (bus.maxAttempts - left))
            pure none : Call (Option String)) seen := by
        refine keeps_await_bind
          (owed_of_not_marking (not_marking_handle consumer event _) seen) ?_ ?_
        · intro _ _ failure _
          exact .inl ⟨bus.maxAttempts - left,
            List.mem_append_right _ (List.mem_singleton.mpr rfl)⟩
        · rintro message failure ⟨⟩
      refine hhandled.tryCatch (fun later failure hreached other hother _ => ?_) ?_
      · exact hreached other hother
      · intro later error _
        refine keeps_await_bind
          (owed_of_not_marking (not_marking_release consumer event _ _) later) ?_ ?_
        · intro _ hspoken
          refine (claimAgain_reaching consumer event _ _).bind ?_ ?_
          · intro final _ _
            refine ih error.message (by omega) (fun hlast => hspoken ?_)
            omega
          · rintro final other - failure ⟨⟩
        · rintro message failure ⟨⟩

theorem deliver_reaches (hattempts : 0 < bus.maxAttempts) (sub : Subscription)
    (event : EventEnvelope) :
    Keeps (reaching bus) (fun later result => ∀ failure, result = .ok failure →
        failure.all String.isEmpty = true → ReachedBy sub.consumer event later)
      (bus.deliver sub event) seen := by
  unfold LocalEventBus.deliver
  refine keeps_await_bind
    (owed_of_not_marking (not_marking_claim sub.consumer event 0) seen) ?_ ?_
  · intro (claimed : Bool) _
    cases claimed with
    | false =>
        intro failure _ _
        exact .inr (by simp)
    | true =>
        exact attempt_reaches sub.consumer event bus.maxAttempts "" (Nat.le_refl _)
          (fun hnone => absurd hnone (Nat.pos_iff_ne_zero.mp hattempts))
  · rintro message failure ⟨⟩

/-- No failure was collected only where none was reported. -/
theorem addFailure_eq_nil {failures : List String} {consumer : String} {failure : Option String}
    (h : LocalEventBus.addFailure failures consumer failure = []) :
    failures = [] ∧ failure.all String.isEmpty = true := by
  cases failure with
  | none => exact ⟨h, rfl⟩
  | some message =>
      unfold LocalEventBus.addFailure at h
      by_cases hempty : message.isEmpty = true
      · simp only [if_pos hempty] at h
        exact ⟨h, by simpa using hempty⟩
      · simp only [if_neg hempty] at h
        simp at h

/-- A publish that collected no failure reached every matching consumer. -/
theorem deliverAll_reaches (hattempts : 0 < bus.maxAttempts) (event : EventEnvelope)
    (subs : List Subscription) (failures : List String) :
    Keeps (reaching bus) (fun later result => result = .ok [] → failures = [] ∧
        ∀ sub ∈ subs, sub.eventType = event.eventType → ReachedBy sub.consumer event later)
      (bus.deliverAll event subs failures) seen := by
  induction subs generalizing failures seen with
  | nil =>
      intro hnone
      exact ⟨Except.ok.inj hnone, by simp⟩
  | cons sub rest ih =>
      unfold LocalEventBus.deliverAll
      by_cases htype : sub.eventType = event.eventType
      · rw [if_pos htype]
        refine (deliver_reaches hattempts sub event).bind ?_ ?_
        · intro later failure hreached
          apply (ih (LocalEventBus.addFailure failures sub.consumer failure)).grows.mono
          rintro final result ⟨hgrown, hrest⟩ hnone
          obtain ⟨hcollected, hothers⟩ := hrest hnone
          obtain ⟨hfailures, hempty⟩ := addFailure_eq_nil hcollected
          refine ⟨hfailures, fun other hother hmatch => ?_⟩
          rcases List.mem_cons.mp hother with rfl | hlater
          · exact (hreached failure rfl hempty).later hgrown
          · exact hothers other hlater hmatch
        · rintro later error - ⟨⟩
      · rw [if_neg htype]
        apply (ih failures).mono
        intro later result hrest hnone
        refine ⟨(hrest hnone).1, fun other hother hmatch => ?_⟩
        rcases List.mem_cons.mp hother with rfl | hlater
        · exact absurd hmatch htype
        · exact (hrest hnone).2 other hlater hmatch

/-- A publish that reports success reached every matching consumer. -/
theorem publish_reaches (hattempts : 0 < bus.maxAttempts) (event : EventEnvelope) :
    Keeps (reaching bus) (fun later result => result = .ok () → ReachedIn bus event later)
      (bus.publish event) seen := by
  unfold LocalEventBus.publish
  refine (deliverAll_reaches hattempts event bus.subs []).bind ?_ ?_
  · intro later failures hreached
    cases failures with
    | nil => exact fun _ => (hreached rfl).2
    | cons failure rest =>
        rintro ⟨⟩
  · rintro later error - ⟨⟩

/-- The acknowledgement after a failed publish finishes no row. -/
theorem afterFailure_owed (settings : WorkerSettings) (name : QueueName) (now : Int)
    (row : QueueRow) (message : String) (seen : Seen) :
    (reaching bus).owed seen (.acknowledge name row.event.eventId row.claimToken
      (settings.afterFailure now row message)) := by
  unfold WorkerSettings.afterFailure
  split
  · rintro _ _ _ _ ⟨⟩
  · rintro _ _ _ _ ⟨⟩

theorem dispatchRow_reaches (dispatcher : InboundDispatcher) (hbus : dispatcher.bus = bus)
    (hattempts : 0 < bus.maxAttempts) (now : Int) (row : QueueRow) (result : DrainResult)
    (htaken : Taken .inbound row.event seen) :
    Keeps (reaching bus) anyEnd (dispatcher.dispatchRow now row result) seen := by
  subst hbus
  unfold InboundDispatcher.dispatchRow
  have hpublished : Keeps (reaching dispatcher.bus) anyEnd (do
      dispatcher.bus.publish row.event
      InboundDispatcher.markProcessed row result) seen := by
    refine (publish_reaches hattempts row.event).grows.bind ?_ (fun _ _ _ => trivial)
    rintro later value ⟨hgrown, hreached⟩
    refine keeps_await_bind ?_ (fun _ _ => trivial) (fun _ => trivial)
    rintro _ _ _ _ ⟨⟩
    exact ⟨row.event, rfl, htaken.later hgrown, hreached rfl⟩
  refine hpublished.tryCatch (fun _ _ _ => trivial) ?_
  intro later error _
  exact keeps_await_bind (afterFailure_owed _ .inbound now row _ later) (fun _ _ => trivial)
    (fun _ => trivial)

theorem acknowledgePublish_reaches (relay : OutboxPublisher) (row : QueueRow)
    (htaken : Taken .outbox row.event seen) (hreached : ReachedIn bus row.event seen) :
    Keeps (reaching bus) anyEnd (relay.acknowledgePublish row) seen := by
  have hended : ∀ (applied : Bool) (later : Seen), Keeps (reaching bus) anyEnd
      (if applied then pure () else throw (.fenced row.event.eventId) : Call Unit) later := by
    rintro (_ | _) later <;> trivial
  unfold OutboxPublisher.acknowledgePublish
  split
  · unfold OutboxPublisher.publishWithFanOut
    have hstaged := (stageAll_avoids (fun _ => not_marking_staging) row.event relay.fanOuts [])
    refine (keeps_of_avoids_marking hstaged).grows.bind ?_ (fun _ _ _ => trivial)
    rintro later staged ⟨hgrown, -⟩
    refine keeps_await_bind ?_ (fun (applied : Bool) _ => hended applied _) (fun _ => trivial)
    rintro _ _ _ _ ⟨⟩
    exact ⟨row.event, rfl, htaken.later hgrown, fun sub hsub hmatch =>
      (hreached sub hsub hmatch).later hgrown⟩
  · unfold OutboxPublisher.markPublished
    refine keeps_await_bind ?_ (fun (applied : Bool) _ => hended applied _) (fun _ => trivial)
    rintro _ _ _ _ ⟨⟩
    exact ⟨row.event, rfl, htaken, hreached⟩

theorem publishRow_reaches (relay : OutboxPublisher) (hbus : relay.bus = bus)
    (hattempts : 0 < bus.maxAttempts) (now : Int) (row : QueueRow) (result : DrainResult)
    (htaken : Taken .outbox row.event seen) :
    Keeps (reaching bus) anyEnd (relay.publishRow now row result) seen := by
  subst hbus
  unfold OutboxPublisher.publishRow
  have hpublished : Keeps (reaching relay.bus) anyEnd (do
      relay.bus.publish row.event
      relay.acknowledgePublish row
      pure { result with finished := result.finished + 1 }) seen := by
    refine (publish_reaches hattempts row.event).grows.bind ?_ (fun _ _ _ => trivial)
    rintro later value ⟨hgrown, hreached⟩
    exact (acknowledgePublish_reaches relay row (htaken.later hgrown) (hreached rfl)).bind
      (fun _ _ _ => trivial) (fun _ _ _ => trivial)
  refine hpublished.tryCatch (fun _ _ _ => trivial) ?_
  intro later error _
  cases error with
  | fenced recordId => trivial
  | error message =>
      exact keeps_await_bind (afterFailure_owed _ .outbox now row _ later) (fun _ _ => trivial)
        (fun _ => trivial)

/-- Every call of a worker finishes rows only of events that reached every consumer. -/
theorem errands_reach (hattempts : 0 < bus.maxAttempts) (call : Call Unit)
    (hcall : errands bus call) : Keeps (reaching bus) anyEnd call [] := by
  have hclock : ∀ later, (reaching bus).owed later .clock := by
    rintro later _ _ _ _ ⟨⟩
  obtain ⟨errand, rfl⟩ := hcall
  cases errand with
  | publish event => exact (publish_reaches hattempts event).mono fun _ _ _ => trivial
  | dispatch settings limit =>
      refine Keeps.bind (p := anyEnd) ?_ (fun _ _ _ => trivial) (fun _ _ _ => trivial)
      refine drainQueue_keeps hclock (by rintro _ _ _ _ _ _ ⟨⟩) (by rintro _ _ _ _ _ _ ⟨⟩) ?_
      intro now rows later _ hclaim row hrow result
      exact dispatchRow_reaches ⟨bus, settings⟩ rfl hattempts now row result
        ⟨now, limit, rows, hclaim, row, hrow, rfl⟩
  | relay fanOuts boundary settings limit =>
      refine Keeps.bind (p := anyEnd) ?_ (fun _ _ _ => trivial) (fun _ _ _ => trivial)
      refine drainQueue_keeps hclock (by rintro _ _ _ _ _ _ ⟨⟩) (by rintro _ _ _ _ _ _ ⟨⟩) ?_
      intro now rows later _ hclaim row hrow result
      exact publishRow_reaches ⟨bus, fanOuts, boundary, settings⟩ rfl hattempts now row result
        ⟨now, limit, rows, hclaim, row, hrow, rfl⟩

end Calls

/-! ### The stores keep what was reached -/

/-- Handled events stay handled, and rows stay and keep their events. -/
structure Grown (store store' : EventStore) : Prop where
  completed : ∀ entry ∈ store.completed, entry ∈ store'.completed
  rows : ∀ name id row, (store.queue name).get id = some row →
    ∃ row', (store'.queue name).get id = some row' ∧ row'.event = row.event

theorem Grown.refl (store : EventStore) : Grown store store :=
  ⟨fun _ hentry => hentry, fun _ _ row hrow => ⟨row, hrow, rfl⟩⟩

theorem Grown.trans {first second third : EventStore} (h : Grown first second)
    (h' : Grown second third) : Grown first third := by
  refine ⟨fun entry hentry => h'.completed entry (h.completed entry hentry), ?_⟩
  intro name id row hrow
  obtain ⟨row', hrow', hevent⟩ := h.rows name id row hrow
  obtain ⟨row'', hrow'', hevent'⟩ := h'.rows name id row' hrow'
  exact ⟨row'', hrow'', hevent'.trans hevent⟩

/-- Nothing takes from the log of handled events. -/
theorem Did.completed {action : Action} {value : action.Value} {store store' : EventStore}
    (h : Did action value store store') : store.completed <+: store'.completed := by
  by_cases hdelivering : Delivering action
  · cases action with
    | claim consumer event attempts =>
        obtain ⟨-, rfl⟩ := h
        unfold EventStore.claim
        split <;> exact List.prefix_refl _
    | handle consumer event attempts =>
        obtain rfl := h
        exact List.prefix_append _ _
    | release consumer event attempts lastError =>
        obtain rfl := h
        exact List.prefix_refl _
    | _ => exact absurd hdelivering not_false
  · exact ⟨[], by rw [(h.undelivering hdelivering).2, List.append_nil]⟩

theorem Turned.grown {store store' : EventStore} (h : Turned store store')
    (hcompleted : store.completed <+: store'.completed) : Grown store store' := by
  refine ⟨fun entry hentry => hcompleted.subset hentry, fun name id row hrow => ?_⟩
  have hone := h name id
  rw [hrow] at hone
  exact hone.persists

theorem Acknowledged.grown {name : QueueName} {eventId : String} {fence : Fence}
    {how : Acknowledgement} {row : QueueRow} {store store' : EventStore}
    (h : Acknowledged name eventId fence how row store store')
    (hcompleted : store.completed <+: store'.completed) : Grown store store' := by
  refine ⟨fun entry hentry => hcompleted.subset hentry, fun other id found hfound => ?_⟩
  by_cases hother : other = name
  · subst hother
    rw [h.queue, Table.get_put]
    by_cases hid : eventId = id
    · subst hid
      obtain rfl := Option.some.inj (h.found.symm.trans hfound)
      exact ⟨_, if_pos rfl, row.acknowledged_event how⟩
    · exact ⟨found, (if_neg hid).trans hfound, rfl⟩
  · rw [h.others other hother]
    exact ⟨found, hfound, rfl⟩

theorem Did.grown {action : Action} {value : action.Value} {store store' : EventStore}
    (hkeyed : store.Keyed) (h : Did action value store store') : Grown store store' := by
  rcases h.queues hkeyed with hturned | ⟨name, eventId, fence, how, row, -, hmark⟩
  · exact hturned.grown h.completed
  · exact hmark.grown h.completed

theorem Reached.grown {bus : LocalEventBus} {event : EventEnvelope} {store store' : EventStore}
    (h : Reached bus store.completed event) (hgrown : Grown store store') :
    Reached bus store'.completed event :=
  fun sub hsub hmatch => hgrown.completed _ (h sub hsub hmatch)

/-- A turn finishes no row. -/
theorem FinishedReached.turned {bus : LocalEventBus} {store store' : EventStore}
    (h : FinishedReached bus store) (hturned : Turned store store') (hgrown : Grown store store') :
    FinishedReached bus store' := by
  intro name id row' hrow' hfinished
  have hone := hturned name id
  rw [hrow'] at hone
  rcases hone.origin with ⟨-, -, hpending⟩ | ⟨row, hrow, hevent, hpending | hdead | rfl⟩
  · rw [hpending] at hfinished
    simp at hfinished
  · rw [hpending] at hfinished
    simp at hfinished
  · rw [hdead] at hfinished
    simp at hfinished
  · exact (h name id row' hrow hfinished).grown hgrown

/-- An acknowledgement finishes the one row, and only a row whose event reached
every consumer. -/
theorem FinishedReached.acknowledged {bus : LocalEventBus} {name : QueueName} {eventId : String}
    {fence : Fence} {how : Acknowledgement} {row : QueueRow} {store store' : EventStore}
    (h : FinishedReached bus store) (hmark : Acknowledged name eventId fence how row store store')
    (hgrown : Grown store store')
    (hreached : ∀ status, how = .finished status → Reached bus store.completed row.event) :
    FinishedReached bus store' := by
  intro other id found hfound hfinished
  by_cases hother : other = name
  · subst hother
    rw [hmark.queue, Table.get_put] at hfound
    split at hfound
    · rename_i hid
      subst hid
      obtain rfl := Option.some.inj hfound
      rw [row.acknowledged_event how]
      cases how with
      | finished status => exact (hreached status rfl).grown hgrown
      | failed error nextAttemptAt =>
          exact (h other eventId row hmark.found hfinished).grown hgrown
      | dead error => simp [QueueRow.acknowledged] at hfinished
    · exact (h other id found hfound hfinished).grown hgrown
  · rw [hmark.others other hother] at hfound
    exact (h other id found hfound hfinished).grown hgrown

/-! ### Finished rows over runs -/

/-- Every refused claim before a first attempt is about a handled event, and every
delivery that gives up has an error text to report. -/
def HandledBefore (bus : LocalEventBus) (_ : Seen) (action : Action) (store : EventStore) : Prop :=
  match action with
  | .claim consumer event 0 =>
      (consumer, event.eventId) ∈ store.inbox → (consumer, event) ∈ store.completed
  | .release _ _ attempts lastError => bus.maxAttempts ≤ attempts → lastError.isEmpty = false
  | _ => True

/-- Each of the rows stands in the queue with its event. -/
def StillQueued (queue : EventQueue) (rows : List QueueRow) : Prop :=
  ∀ row ∈ rows, ∃ current, queue.get row.event.eventId = some current ∧ current.event = row.event

/-- What an answer keeps telling: a handler that returned, or a claim refused
before a first attempt, a handled event; a claim on a queue, where its rows are. -/
def Told (action : Action) (answer : action.Answer) (store : EventStore) : Prop :=
  match action, answer with
  | .handle consumer event _, .ok _ => (consumer, event) ∈ store.completed
  | .claim consumer event 0, .ok claimed =>
      (claimed : Bool) = false → (consumer, event) ∈ store.completed
  | .claimDue name _ _, .ok rows => StillQueued (store.queue name) rows
  | _, _ => True

/-- An action that threw tells nothing. -/
theorem told_error (action : Action) (message : String) (store : EventStore) :
    Told action (.error message) store := by
  cases action with
  | claim consumer event attempts => cases attempts <;> trivial
  | _ => trivial

theorem Told.grown {action : Action} {answer : action.Answer} {store store' : EventStore}
    (h : Told action answer store) (hgrown : Grown store store') : Told action answer store' := by
  cases answer with
  | error message => exact told_error action message store'
  | ok value =>
      cases action with
      | handle consumer event attempts => exact hgrown.completed _ h
      | claim consumer event attempts =>
          cases attempts with
          | zero => exact fun hrefused => hgrown.completed _ (h hrefused)
          | succ attempts => trivial
      | claimDue name now limit =>
          intro row hrow
          obtain ⟨current, hcurrent, hevent⟩ := h row hrow
          obtain ⟨row', hrow', hevent'⟩ := hgrown.rows name _ current hcurrent
          exact ⟨row', hrow', hevent'.trans hevent⟩
      | _ => trivial

/-- The contract behind finished rows. -/
def reachingContract (bus : LocalEventBus) : Contract EventStore Action Action.Answer where
  toDiscipline := reaching bus
  inv store := store.Keyed ∧ FinishedReached bus store
  guar := Grown
  guar_refl := Grown.refl
  guar_trans := Grown.trans
  known := Told
  known_stable hgrown htold := htold.grown hgrown

/-- What one action that goes through tells. -/
theorem Did.told {bus : LocalEventBus} {action : Action} {value : action.Value}
    {store store' : EventStore} {seen : Seen} (hkeyed : store.Keyed)
    (h : Did action value store store') (hallowed : HandledBefore bus seen action store) :
    (reaching bus).told action (.ok value) ∧ Told action (.ok value) store' := by
  cases action with
  | handle consumer event attempts =>
      obtain rfl := h
      exact ⟨trivial, by simp [Told]⟩
  | claim consumer event attempts =>
      refine ⟨trivial, ?_⟩
      cases attempts with
      | zero =>
          obtain ⟨rfl, rfl⟩ := h
          intro hrefused
          by_cases hpresent : (consumer, event.eventId) ∈ store.inbox
          · simpa [EventStore.claim, hpresent] using hallowed hpresent
          · simp [EventStore.claim, hpresent] at hrefused
      | succ attempts => trivial
  | release consumer event attempts lastError => exact ⟨hallowed, trivial⟩
  | claimDue name now limit =>
      refine ⟨trivial, ?_⟩
      have hgrown := h.grown hkeyed
      obtain ⟨token, rfl, rfl⟩ := h
      intro row hrow
      obtain ⟨-, old, hold, hevent⟩ := EventQueue.claimFirst_mem (hkeyed name) hrow
      obtain ⟨row', hrow', hevent'⟩ := hgrown.rows name _ old hold
      exact ⟨row', hrow', hevent'.trans hevent.symm⟩
  | _ => exact ⟨trivial, trivial⟩

/-- What a call was told of one event is in the log. -/
theorem ReachedIn.reached {bus : LocalEventBus} {event : EventEnvelope} {store : EventStore}
    {seen : Seen} (h : ReachedIn bus event seen)
    (hknown : ∀ entry ∈ seen, Told entry.1 entry.2 store) : Reached bus store.completed event := by
  intro sub hsub hmatch
  rcases h sub hsub hmatch with ⟨attempts, hhandled⟩ | hrefused
  · exact hknown _ hhandled
  · exact hknown _ hrefused rfl

theorem reaching_upheld {bus : LocalEventBus} (hattempts : 0 < bus.maxAttempts) :
    Upheld (reachingContract bus) eventing (errands bus) (HandledBefore bus) where
  call := errands_reach hattempts
  act := by
    intro seen action turn answer store store' hinv hknown howed hallowed hperform
    obtain ⟨hkeyed, hfinished⟩ := hinv
    cases turn with
    | inr happening => cases hperform
    | inl choice =>
        cases answer with
        | error message =>
            obtain rfl := perform_error hperform
            exact ⟨by cases action <;> trivial, ⟨hkeyed, hfinished⟩, Grown.refl store',
              told_error action message store'⟩
        | ok value =>
            have hdid := perform_ok hperform
            have hgrown := hdid.grown hkeyed
            obtain ⟨htold, hknown'⟩ := hdid.told hkeyed hallowed
            refine ⟨htold, ⟨hdid.keyed hkeyed, ?_⟩, hgrown, hknown'⟩
            rcases hdid.queues hkeyed with hturned | ⟨name, eventId, fence, how, row, hmarks, hmark⟩
            · exact hfinished.turned hturned hgrown
            · apply hfinished.acknowledged hmark hgrown
              rintro status rfl
              obtain ⟨event, rfl, ⟨now, limit, rows, hclaim, taken, htaken, hevent⟩, hreached⟩ :=
                howed name eventId fence status hmarks
              -- the row marked is the one the claim handed out: its event is still there
              obtain ⟨current, hcurrent, hsame⟩ := hknown _ hclaim taken htaken
              rw [hevent, hmark.found] at hcurrent
              obtain rfl := Option.some.inj hcurrent
              rw [hsame, hevent]
              exact hreached.reached hknown
  tick := by
    intro turn store store' hinv htick
    obtain ⟨hkeyed, hfinished⟩ := hinv
    cases turn with
    | inl choice => cases htick
    | inr happening =>
        obtain rfl := Option.some.inj htick
        have hturned := happen_turned store happening
        have hcompleted : store.completed <+: (store.happen happening).completed :=
          ⟨[], by rw [EventStore.happen_completed, List.append_nil]⟩
        have hgrown := hturned.grown hcompleted
        exact ⟨⟨fun name => (hkeyed name).rotated (hturned name),
          hfinished.turned hturned hgrown⟩, hgrown⟩

/-- Every row marked processed or published, in every run in which a refused claim
is always about a handled event, is about an event all its consumers handled. -/
theorem run_reached {bus : LocalEventBus} (hattempts : 0 < bus.maxAttempts) {start : Int}
    {world : World EventStore Action Action.Answer Failure Unit}
    (hrun : Run eventing (errands bus) (HandledBefore bus)
      (World.initial (EventStore.empty start)) world) : FinishedReached bus world.store := by
  have hempty : (EventStore.empty start).Keyed := by
    rintro (_ | _) <;> exact EventQueue.keyed_empty
  have hnothing : FinishedReached bus (EventStore.empty start) := by
    rintro (_ | _) id row hrow <;> cases hrow
  exact ((reaching_upheld hattempts).run (Kept.initial ⟨hempty, hnothing⟩) hrun).1.inv.2

/-! ### Runs on one event -/

/-- An event arrives; its consumer's handler fails once and then returns, and the
row is marked. -/
def dispatchedOnce : Schedule :=
  [.tick (.inr (.arrived .inbound orderCreated)),
    .start (Errand.call orderBus (.dispatch {} 100))] ++
  works 0 [.proceed, .proceed, .drawn "claim", .proceed, .failing "busy", .proceed, .proceed,
    .proceed, .proceed]

/-- A dispatcher claims the row and the consumer's entry and crashes before the
handler returns; the lease runs out and another dispatcher takes the row over. -/
def crashedInHandler : Schedule :=
  [.tick (.inr (.arrived .inbound orderCreated)),
    .start (Errand.call orderBus (.dispatch {} 100))] ++
  works 0 [.proceed, .proceed, .drawn "claim", .proceed] ++
  [.tick (.inr (.elapsed 30000)), .start (Errand.call orderBus (.dispatch {} 100))] ++
  works 1 [.proceed, .proceed, .drawn "reclaim", .proceed, .proceed]

/-- The statuses of the inbound rows. -/
def inboundStatuses (store : EventStore) : List QueueStatus :=
  store.inbound.values.map QueueRow.status

instance (bus : LocalEventBus) (seen : Seen) (action : Action) (store : EventStore) :
    Decidable (HandledBefore bus seen action store) :=
  match action with
  | .claim consumer event 0 => inferInstanceAs (Decidable
      ((consumer, event.eventId) ∈ store.inbox → (consumer, event) ∈ store.completed))
  | .claim _ _ (_ + 1) => .isTrue trivial
  | .release _ _ attempts lastError =>
      inferInstanceAs (Decidable (bus.maxAttempts ≤ attempts → lastError.isEmpty = false))
  | .clock | .newId | .handle .. | .reclaimExpired .. | .claimDue .. | .acknowledge ..
  | .subscriptionsFor .. | .recipientsFor .. | .verifiedAddress .. | .queue .. | .commit .. =>
      .isTrue trivial

set_option maxRecDepth 20000 in
theorem run_reached_dispatchedOnce :
    ∃ world, play eventing (fun seen action store => decide (HandledBefore orderBus seen action store))
        dispatchedOnce (World.initial (EventStore.empty 0)) = some world ∧
      inboundStatuses world.store = [.processed] ∧ FinishedReached orderBus world.store := by
  have hplays : (play eventing
      (fun seen action store => decide (HandledBefore orderBus seen action store))
      dispatchedOnce (World.initial (EventStore.empty 0))).any
        (fun world => inboundStatuses world.store = [.processed]) = true := by
    decide +kernel
  obtain ⟨world, hworld, hstatuses⟩ := (Option.any_eq_true _ _).mp hplays
  have hrun : Run eventing (errands orderBus) (HandledBefore orderBus)
      (World.initial (EventStore.empty 0)) world := by
    refine play_run hworld ?_ (fun _ _ _ h => of_decide_eq_true h)
    simp [dispatchedOnce, works, acts, errands]
  exact ⟨world, hworld, of_decide_eq_true hstatuses, run_reached (by decide) hrun⟩

set_option maxRecDepth 20000 in
/-- Without the condition a row is marked processed although its handler never
returned. -/
theorem reached_fails :
    ¬∀ (bus : LocalEventBus) (start : Int)
      (world : World EventStore Action Action.Answer Failure Unit), 0 < bus.maxAttempts →
      Run eventing (errands bus) anything (World.initial (EventStore.empty start)) world →
      FinishedReached bus world.store := by
  intro h
  have hplays : (play eventing unrestricted crashedInHandler
      (World.initial (EventStore.empty 0))).any
        (fun world => world.store.completed = [] ∧
          (world.store.inbound.get "order-created").map
            (fun row => (row.status, row.event)) = some (.processed, orderCreated)) = true := by
    decide +kernel
  obtain ⟨world, hworld, hstate⟩ := (Option.any_eq_true _ _).mp hplays
  obtain ⟨hcompleted, hstored⟩ := of_decide_eq_true hstate
  have hrun : Run eventing (errands orderBus) anything (World.initial (EventStore.empty 0)) world := by
    refine play_run hworld ?_ (fun _ _ _ _ => trivial)
    simp [crashedInHandler, works, acts, errands]
  obtain ⟨row, hrow, hfound⟩ := Option.map_eq_some_iff.mp hstored
  obtain ⟨hstatus, hevent⟩ := Prod.mk.inj hfound
  have hreached := h orderBus 0 world (by decide) hrun .inbound "order-created" row hrow (.inl hstatus)
  have hhandled := hreached ⟨"intake", "market.order.created"⟩ (by decide) (by rw [hevent]; rfl)
  rw [hcompleted] at hhandled
  cases hhandled

end WaslaCore.Eventing
