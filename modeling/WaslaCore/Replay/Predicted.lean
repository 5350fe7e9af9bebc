import WaslaCore.Replay.Service

/-!
A plan predicts its run. What a run does about one event leaves every other event as it was:
its row, and its entries in the inbox. So an event is decided as it was before the run began,
and where no handler fails every event that was to be applied is.
-/

namespace WaslaCore.Replay

open Platform Data Eventing

variable {σ : Type}

/-! ### What an offer touches -/

/-- The inbox entry of one consumer may have changed, and dead letters were added. -/
structure Offered (entry : String × String) (before after : World σ) : Prop where
  inbound : after.inbound = before.inbound
  others : ∀ other ≠ entry, other ∈ after.inbox ↔ other ∈ before.inbox

theorem Offered.refl (entry : String × String) (world : World σ) : Offered entry world world :=
  ⟨rfl, fun _ _ => Iff.rfl⟩

theorem Offered.trans {entry : String × String} {before middle after : World σ}
    (h : Offered entry before middle) (h' : Offered entry middle after) :
    Offered entry before after :=
  ⟨h'.inbound.trans h.inbound, fun other hother =>
    (h'.others other hother).trans (h.others other hother)⟩

theorem claim_offered (world : World σ) (consumer eventId : String) :
    Offered (consumer, eventId) world (world.claim consumer eventId).2 := by
  unfold World.claim
  split
  · exact .refl _ _
  · refine ⟨rfl, fun other hother => ?_⟩
    simp [hother]

theorem release_offered (world : World σ) (consumer eventId : String) :
    Offered (consumer, eventId) world (world.release consumer eventId) := by
  refine ⟨rfl, fun other hother => ?_⟩
  simp [World.release, hother]

namespace LocalEventBus

theorem attempt_offered (sub : Subscription σ) (event : Envelope) (maxAttempts left : Nat)
    (lastError : String) (world : World σ) :
    Offered (sub.consumer, event.eventId) world
      (attempt sub event maxAttempts left lastError world).2 := by
  induction left generalizing lastError world with
  | zero => exact ⟨rfl, fun _ _ => Iff.rfl⟩
  | succ left ih =>
      unfold attempt
      split
      · exact ⟨rfl, fun _ _ => Iff.rfl⟩
      · rename_i message domain hraised
        have hdomain : Offered (sub.consumer, event.eventId) world { world with domain := domain } :=
          ⟨rfl, fun _ _ => Iff.rfl⟩
        have hreleased := hdomain.trans (release_offered _ sub.consumer event.eventId)
        refine Offered.trans ?_ (ih message _)
        split
        · exact hreleased.trans (claim_offered _ sub.consumer event.eventId)
        · exact hreleased

theorem deliver_offered (bus : LocalEventBus σ) (sub : Subscription σ) (event : Envelope)
    (world : World σ) :
    Offered (sub.consumer, event.eventId) world (bus.deliver sub event world).2 := by
  have hclaimed := claim_offered world sub.consumer event.eventId
  unfold deliver
  split
  · rename_i hclaim
    rwa [hclaim] at hclaimed
  · rename_i hclaim
    rw [hclaim] at hclaimed
    exact hclaimed.trans (attempt_offered sub event _ _ _ _)

/-- What a publish leaves behind of every other event. -/
theorem deliverAll_keeps (bus : LocalEventBus σ) (event : Envelope) (subs : List (Subscription σ))
    (failures : List String) (world : World σ) :
    let after := (bus.deliverAll event subs failures world).2
    after.inbound = world.inbound ∧
      ∀ other : String × String, other.2 ≠ event.eventId →
        (other ∈ after.inbox ↔ other ∈ world.inbox) := by
  induction subs generalizing failures world with
  | nil => exact ⟨rfl, fun _ _ => Iff.rfl⟩
  | cons sub rest ih =>
      unfold deliverAll
      split
      · have hoffered := bus.deliver_offered sub event world
        obtain ⟨hinbound, hothers⟩ := ih
          (addFailure failures sub.consumer (bus.deliver sub event world).1)
          (bus.deliver sub event world).2
        refine ⟨hinbound.trans hoffered.inbound, fun other hother => ?_⟩
        refine (hothers other hother).trans (hoffered.others other ?_)
        rintro rfl
        exact hother rfl
      · exact ih failures world

/-! ### Dead letters -/

/-- What a failed delivery adds to the failures of its publish. -/
def reasons (letters : List DeadLetter) : List String :=
  (letters.filter fun letter => letter.error ≠ "").map fun letter =>
    letter.consumer ++ ": " ++ letter.error

theorem attempt_letters (sub : Subscription σ) (event : Envelope) (maxAttempts left : Nat)
    (lastError : String) (world : World σ) :
    let ended := attempt sub event maxAttempts left lastError world
    ended.2.deadLetters = world.deadLetters ++
      (ended.1.map fun message =>
        (⟨event, sub.consumer, message, maxAttempts⟩ : DeadLetter)).toList := by
  induction left generalizing lastError world with
  | zero => rfl
  | succ left ih =>
      unfold attempt
      split
      · exact (List.append_nil _).symm
      · rename_i message domain hraised
        have hkept : ∀ claimed : Bool, (if claimed then
            (({ world with domain := domain }.release sub.consumer event.eventId).claim
              sub.consumer event.eventId).2
            else { world with domain := domain }.release sub.consumer event.eventId).deadLetters =
              world.deadLetters := by
          intro claimed
          cases claimed with
          | false => rfl
          | true =>
              unfold World.claim
              simp only [if_true]
              split <;> rfl
        have hlater := ih message (if maxAttempts - left < maxAttempts then
            (({ world with domain := domain }.release sub.consumer event.eventId).claim
              sub.consumer event.eventId).2
            else { world with domain := domain }.release sub.consumer event.eventId)
        have hsame := hkept (decide (maxAttempts - left < maxAttempts))
        simp only [decide_eq_true_eq] at hsame
        rw [hsame] at hlater
        exact hlater

/-- The failures of a publish are the dead letters it left, where they have a reason. -/
theorem deliverAll_letters (bus : LocalEventBus σ) (event : Envelope)
    (subs : List (Subscription σ)) (failures : List String) (world : World σ) :
    ∃ letters, (bus.deliverAll event subs failures world).2.deadLetters =
        world.deadLetters ++ letters ∧
      (bus.deliverAll event subs failures world).1 = failures ++ reasons letters := by
  induction subs generalizing failures world with
  | nil => exact ⟨[], (List.append_nil _).symm, (List.append_nil _).symm⟩
  | cons sub rest ih =>
      unfold deliverAll
      split
      · obtain ⟨letters, hletters, hfailures⟩ := ih
          (addFailure failures sub.consumer (bus.deliver sub event world).1)
          (bus.deliver sub event world).2
        have hdelivered : (bus.deliver sub event world).2.deadLetters = world.deadLetters ++
            ((bus.deliver sub event world).1.map fun message =>
              (⟨event, sub.consumer, message, bus.maxAttempts⟩ : DeadLetter)).toList := by
          unfold deliver World.claim
          split
          · rename_i hclaim
            split at hclaim
            · obtain ⟨-, rfl⟩ := Prod.mk.inj hclaim
              exact (List.append_nil _).symm
            · cases hclaim
          · rename_i hclaim
            split at hclaim
            · cases hclaim
            · obtain ⟨-, rfl⟩ := Prod.mk.inj hclaim
              exact attempt_letters sub event _ _ _ _
        refine ⟨((bus.deliver sub event world).1.map fun message =>
          (⟨event, sub.consumer, message, bus.maxAttempts⟩ : DeadLetter)).toList ++ letters, ?_, ?_⟩
        · rw [hletters, hdelivered, List.append_assoc]
        · rw [hfailures]
          cases (bus.deliver sub event world).1 with
          | none => rfl
          | some message =>
              by_cases hempty : message = ""
              · simp [addFailure, reasons, hempty]
              · simp [addFailure, reasons, hempty]
      · exact ih failures world

end LocalEventBus

/-- No dead letter with a reason was added: no handler failed every attempt it was given. -/
def Quiet (before after : World σ) : Prop :=
  ∃ letters, after.deadLetters = before.deadLetters ++ letters ∧
    ∀ letter ∈ letters, letter.error = ""

theorem Quiet.refl (world : World σ) : Quiet world world :=
  ⟨[], (List.append_nil _).symm, fun _ h => (nomatch h)⟩

/-- What was added on the way is part of what was added in all. -/
theorem Quiet.split {before middle after : World σ} {letters : List DeadLetter}
    (h : Quiet before after) (hmiddle : middle.deadLetters = before.deadLetters ++ letters)
    (hafter : ∃ later, after.deadLetters = middle.deadLetters ++ later) :
    (∀ letter ∈ letters, letter.error = "") ∧ Quiet middle after := by
  obtain ⟨all, hall, hquiet⟩ := h
  obtain ⟨later, hlater⟩ := hafter
  rw [hlater, hmiddle, List.append_assoc] at hall
  obtain rfl := List.append_cancel_left hall
  refine ⟨fun letter hletter => hquiet letter (List.mem_append_left _ hletter), later, hlater, ?_⟩
  exact fun letter hletter => hquiet letter (List.mem_append_right _ hletter)

namespace ReplayService

variable {service : ReplayService σ} {scope : ReplayScope} {mode : ReplayMode}

/-! ### One event -/

/-- The row goes only forward: its envelope and its attempts stay, and processed is final. -/
structure Forward (row row' : Record) : Prop where
  event : row'.event = row.event
  receivedAt : row'.receivedAt = row.receivedAt
  attempts : row'.attempts = row.attempts
  status : row.status = .processed → row'.status = .processed

theorem Forward.refl (row : Record) : Forward row row := ⟨rfl, rfl, rfl, fun h => h⟩

theorem Forward.trans {row row' row'' : Record} (h : Forward row row') (h' : Forward row' row'') :
    Forward row row'' :=
  ⟨h'.event.trans h.event, h'.receivedAt.trans h.receivedAt, h'.attempts.trans h.attempts,
    fun hstatus => h'.status (h.status hstatus)⟩

/-- What a step about one event leaves: every row further on, the other events untouched. -/
structure Touches (eventId : String) (before after : World σ) : Prop where
  rows : ∀ id row, before.inbound.table.get id = some row →
    ∃ row', after.inbound.table.get id = some row' ∧ Forward row row'
  others : ∀ id ≠ eventId, after.inbound.table.get id = before.inbound.table.get id
  inbox : ∀ entry : String × String, entry.2 ≠ eventId →
    (entry ∈ after.inbox ↔ entry ∈ before.inbox)

theorem markProcessed_get (inbound : Inbound) (eventId processedAt id : String) :
    (inbound.markProcessed eventId processedAt).table.get id =
      if id = eventId then (inbound.table.get id).map (Record.processed · processedAt)
      else inbound.table.get id := by
  unfold Inbound.markProcessed
  split
  · rename_i hnone
    split
    · rename_i hid
      rw [hid, hnone]
      rfl
    · rfl
  · rename_i record hfound
    have hkey : (record.processed processedAt).event.eventId = eventId :=
      inbound.keyed eventId record hfound
    unfold Inbound.putRow
    rw [Table.get_put, hkey]
    by_cases hid : eventId = id
    · subst hid
      rw [if_pos rfl, if_pos rfl, hfound]
      rfl
    · rw [if_neg hid, if_neg (Ne.symm hid)]

theorem cleared_keeps (consumers : List String) (eventId : String) (world : World σ) :
    let cleared := consumers.foldl (fun world consumer => world.release consumer eventId) world
    cleared.inbound = world.inbound ∧ cleared.deadLetters = world.deadLetters ∧
      ∀ entry : String × String, entry.2 ≠ eventId →
        (entry ∈ cleared.inbox ↔ entry ∈ world.inbox) := by
  induction consumers generalizing world with
  | nil => exact ⟨rfl, rfl, fun _ _ => Iff.rfl⟩
  | cons consumer rest ih =>
      obtain ⟨hinbound, hletters, hinbox⟩ := ih (world.release consumer eventId)
      refine ⟨hinbound, hletters, fun entry hentry => (hinbox entry hentry).trans ?_⟩
      apply (release_offered world consumer eventId).others entry
      rintro rfl
      exact hentry rfl

variable (service mode) in
theorem cleared_touches (record : Record) (world : World σ) :
    (service.cleared record mode world).inbound = world.inbound ∧
      (service.cleared record mode world).deadLetters = world.deadLetters ∧
      ∀ entry : String × String, entry.2 ≠ record.event.eventId →
        (entry ∈ (service.cleared record mode world).inbox ↔ entry ∈ world.inbox) := by
  unfold cleared
  split
  · exact cleared_keeps _ _ world
  · exact ⟨rfl, rfl, fun _ _ => Iff.rfl⟩

theorem publish_spec (bus : LocalEventBus σ) (event : Envelope) (world : World σ) :
    let ended := bus.publish event world
    ended.2.inbound = world.inbound ∧
      (∀ entry : String × String, entry.2 ≠ event.eventId →
        (entry ∈ ended.2.inbox ↔ entry ∈ world.inbox)) ∧
      ∃ letters, ended.2.deadLetters = world.deadLetters ++ letters ∧
        (ended.1 = none ↔ ∀ letter ∈ letters, letter.error = "") := by
  obtain ⟨hinbound, hinbox⟩ := bus.deliverAll_keeps event bus.subs [] world
  obtain ⟨letters, hletters, hfailures⟩ := bus.deliverAll_letters event bus.subs [] world
  have hnone : LocalEventBus.reasons letters = [] ↔ ∀ letter ∈ letters, letter.error = "" := by
    simp [LocalEventBus.reasons]
  unfold LocalEventBus.publish
  split
  · rename_i world' hended
    rw [hended] at hinbound hinbox hletters hfailures
    exact ⟨hinbound, hinbox, letters, hletters, iff_of_true rfl (hnone.mp hfailures.symm)⟩
  · rename_i failures world' hfull hended
    rw [hended] at hinbound hinbox hletters hfailures
    refine ⟨hinbound, hinbox, letters, hletters, iff_of_false (by simp) fun hquiet => ?_⟩
    have hempty : failures = [] := hfailures.trans (hnone.mpr hquiet)
    exact hfull hempty

variable (service mode) in
/-- A delivery that throws has marked nothing, and one that does not throw is quiet. -/
theorem deliver_spec (record : Record) (processedAt : String) (world : World σ) :
    let ended := service.deliver record mode processedAt world
    Touches record.event.eventId world ended.2 ∧
      (∀ reason, ended.1 = some reason → ended.2.inbound = world.inbound) ∧
      ∃ letters, ended.2.deadLetters = world.deadLetters ++ letters ∧
        (ended.1 = none ↔ ∀ letter ∈ letters, letter.error = "") := by
  obtain ⟨hinbound, hletters, hinbox⟩ := cleared_touches service mode record world
  obtain ⟨hpublished, hothers, letters, hadded, hquiet⟩ :=
    publish_spec service.bus record.event (service.cleared record mode world)
  have hentries : ∀ entry : String × String, entry.2 ≠ record.event.eventId →
      (entry ∈ (service.bus.publish record.event (service.cleared record mode world)).2.inbox ↔
        entry ∈ world.inbox) :=
    fun entry hentry => (hothers entry hentry).trans (hinbox entry hentry)
  rw [hletters] at hadded
  rw [hinbound] at hpublished
  unfold deliver
  split
  · rename_i message after hended
    rw [hended] at hpublished hentries hadded hquiet
    refine ⟨⟨?_, ?_, hentries⟩, fun _ _ => hpublished, letters, hadded, hquiet⟩
    · intro id row hrow
      exact ⟨row, by rw [hpublished, hrow], .refl row⟩
    · intro id _
      rw [hpublished]
  · rename_i after hended
    rw [hended] at hpublished hentries hadded hquiet
    split
    · refine ⟨⟨?_, ?_, hentries⟩, fun _ h => (nomatch h), letters, hadded, hquiet⟩
      · intro id row hrow
        rw [markProcessed_get, hpublished, hrow]
        split
        · exact ⟨row.processed processedAt, rfl, ⟨rfl, rfl, rfl, fun _ => rfl⟩⟩
        · exact ⟨row, rfl, .refl row⟩
      · intro id hid
        rw [markProcessed_get, if_neg hid, hpublished]
    · refine ⟨⟨?_, ?_, hentries⟩, fun _ h => (nomatch h), letters, hadded, hquiet⟩
      · intro id row hrow
        exact ⟨row, by rw [hpublished, hrow], .refl row⟩
      · intro id _
        rw [hpublished]

/-- How an event is decided turns on its own entries of the inbox alone. -/
theorem classify_congr {record : Record} {world world' : World σ}
    (h : ∀ consumer, (consumer, record.event.eventId) ∈ world'.inbox ↔
      (consumer, record.event.eventId) ∈ world.inbox) :
    service.classify record scope mode world' = service.classify record scope mode world := by
  have hseen : ∀ consumer, world'.seen consumer record.event.eventId =
      world.seen consumer record.event.eventId := by
    intro consumer
    unfold World.seen
    rw [decide_eq_decide]
    exact h consumer
  unfold classify
  simp only [hseen]

/-! ### The loop -/

/-- The records of a page are not those of any other event. -/
def Apart (records : List Record) : Prop :=
  records.Pairwise fun first second => first.event.eventId ≠ second.event.eventId

/-- Every record of the page is decided as it was at the start. -/
def DecidedAs (records : List Record) (start world : World σ) : Prop :=
  ∀ record ∈ records, ∀ consumer, (consumer, record.event.eventId) ∈ world.inbox ↔
    (consumer, record.event.eventId) ∈ start.inbox

theorem DecidedAs.touched {record : Record} {records : List Record} {start world after : World σ}
    (h : DecidedAs (record :: records) start world) (hapart : Apart (record :: records))
    (htouches : Touches record.event.eventId world after) : DecidedAs records start after := by
  intro other hother consumer
  have hne := (List.pairwise_cons.mp hapart).1 other hother
  exact (htouches.inbox (consumer, other.event.eventId) (Ne.symm hne)).trans
    (h other (List.mem_cons_of_mem _ hother) consumer)

variable {stopOnError : Bool} {readings : Readings}

theorem replayEach_forward (records : List Record) (progress : Progress) (world : World σ) :
    ∀ id row, world.inbound.table.get id = some row → ∃ row',
      (service.replayEach scope mode stopOnError readings records progress world).2.inbound.table.get
        id = some row' ∧ Forward row row' := by
  induction records generalizing progress world with
  | nil => exact fun id row hrow => ⟨row, hrow, .refl row⟩
  | cons record rest ih =>
      intro id row hrow
      unfold replayEach
      split
      · exact ⟨row, hrow, .refl row⟩
      · split
        · exact ih _ world id row hrow
        · obtain ⟨htouches, -⟩ := deliver_spec service mode record
            (readings.processedAt record.event.eventId) world
          split
          · rename_i after hended
            rw [hended] at htouches
            obtain ⟨middle, hmiddle, hforward⟩ := htouches.rows id row hrow
            obtain ⟨row', hrow', hlater⟩ := ih _ after id middle hmiddle
            exact ⟨row', hrow', hforward.trans hlater⟩
          · rename_i reason after hended
            rw [hended] at htouches
            obtain ⟨middle, hmiddle, hforward⟩ := htouches.rows id row hrow
            split
            · exact ⟨middle, hmiddle, hforward⟩
            · obtain ⟨row', hrow', hlater⟩ := ih _ after id middle hmiddle
              exact ⟨row', hrow', hforward.trans hlater⟩

theorem replayEach_letters (records : List Record) (progress : Progress) (world : World σ) :
    ∃ letters, (service.replayEach scope mode stopOnError readings records progress
      world).2.deadLetters = world.deadLetters ++ letters := by
  induction records generalizing progress world with
  | nil => exact ⟨[], (List.append_nil _).symm⟩
  | cons record rest ih =>
      unfold replayEach
      split
      · exact ⟨[], (List.append_nil _).symm⟩
      · split
        · exact ih _ world
        · obtain ⟨-, -, letters, hletters, -⟩ := deliver_spec service mode
            record (readings.processedAt record.event.eventId) world
          split
          · rename_i after hended
            rw [hended] at hletters
            obtain ⟨later, hlater⟩ := ih (progress.past record _) after
            exact ⟨letters ++ later, by rw [hlater, hletters, List.append_assoc]⟩
          · rename_i reason after hended
            rw [hended] at hletters
            split
            · exact ⟨letters, hletters⟩
            · obtain ⟨later, hlater⟩ := ih (progress.failing record _ reason) after
              exact ⟨letters ++ later, by rw [hlater, hletters, List.append_assoc]⟩

variable (service scope mode stopOnError readings) in
/-- Where no handler fails, what is reported is how each record was decided at the start. -/
theorem replayEach_planned (start : World σ) (records : List Record) (progress : Progress)
    (world : World σ) (hapart : Apart records) (hsame : DecidedAs records start world)
    (hquiet : Quiet world
      (service.replayEach scope mode stopOnError readings records progress world).2) :
    (service.replayEach scope mode stopOnError readings records progress world).1.map
        Progress.outcomes =
      (records.mapM fun record => service.classify record scope mode start).map
        (progress.outcomes ++ ·) := by
  induction records generalizing progress world with
  | nil => simp [replayEach, Except.map, pure, Except.pure]
  | cons record rest ih =>
      have hdecided : service.classify record scope mode world =
          service.classify record scope mode start :=
        classify_congr (hsame record List.mem_cons_self)
      have hrest := (List.pairwise_cons.mp hapart).2
      rw [List.mapM_cons]
      unfold replayEach at hquiet ⊢
      cases hclassified : service.classify record scope mode start with
      | error thrown =>
          rw [hdecided, hclassified]
          rfl
      | ok classified =>
          rw [hdecided, hclassified] at hquiet ⊢
          have hpast : ∀ world' : World σ, DecidedAs rest start world' →
              Quiet world' (service.replayEach scope mode stopOnError readings rest
                (progress.past record classified) world').2 →
              (service.replayEach scope mode stopOnError readings rest
                (progress.past record classified) world').1.map Progress.outcomes =
              ((do
                let outcomes ← rest.mapM fun record => service.classify record scope mode start
                pure (classified :: outcomes)) : Except Thrown (List ReplayOutcome)).map
                  (progress.outcomes ++ ·) := by
            intro world' hsame' hquiet'
            rw [ih (progress.past record classified) world' hrest hsame' hquiet']
            cases rest.mapM fun record => service.classify record scope mode start with
            | error thrown => rfl
            | ok outcomes =>
                simp [Except.map, Progress.past, bind, Except.bind, pure, Except.pure]
          dsimp only at hquiet ⊢
          by_cases happlied : classified.outcome ≠ .applied
          · rw [if_pos happlied] at hquiet ⊢
            refine hpast world (fun other hother => ?_) hquiet
            exact hsame other (List.mem_cons_of_mem _ hother)
          · rw [if_neg happlied] at hquiet ⊢
            obtain ⟨htouches, -, letters, hletters, hnone⟩ := deliver_spec service mode record
              (readings.processedAt record.event.eventId) world
            cases hended : service.deliver record mode (readings.processedAt record.event.eventId)
              world with
            | mk ended after =>
                rw [hended] at htouches hletters hnone hquiet
                have hafter := hsame.touched hapart htouches
                cases ended with
                | none =>
                    obtain ⟨-, hlater⟩ := hquiet.split hletters (replayEach_letters rest _ after)
                    exact hpast after hafter hlater
                | some reason =>
                    have hall : ∀ letter ∈ letters, letter.error = "" := by
                      cases stopOnError with
                      | true => exact (hquiet.split hletters ⟨[], (List.append_nil _).symm⟩).1
                      | false => exact (hquiet.split hletters (replayEach_letters rest _ after)).1
                    exact absurd (hnone.mpr hall) (Option.some_ne_none reason)

/-! ### The page -/

theorem select_apart (inbound : Inbound) (selection : InboundSelection) :
    Apart (inbound.select selection) := by
  have hkeys : (inbound.table.values.map fun record => record.event.eventId).Nodup :=
    inbound.keyed.keys_nodup
  have hordered := inPositionOrder_ordered Record.position (inbound.table.values.filter fun record =>
    matchesSelection record.toInboundRow selection)
  have hchosen : ((inPositionOrder Record.position (inbound.table.values.filter fun record =>
      matchesSelection record.toInboundRow selection)).map fun record =>
        record.event.eventId).Nodup :=
    ((hordered.1.map _).nodup_iff).mpr (hkeys.sublist (List.filter_sublist.map _))
  exact (List.pairwise_map.mp hchosen).sublist (List.take_sublist _ _)

/-! ### Handlers that never fail -/

theorem attempt_passes {sub : Subscription σ} {event : Envelope} {maxAttempts : Nat}
    (h : ∀ domain, (sub.handler event domain).1 = none) (left : Nat) (world : World σ)
    (message : String)
    (hended : (LocalEventBus.attempt sub event maxAttempts left "" world).1 = some message) :
    message = "" := by
  cases left with
  | zero => exact (Option.some.inj hended).symm
  | succ left =>
      have hnone := h world.domain
      unfold LocalEventBus.attempt at hended
      split at hended
      · cases hended
      · rename_i raised domain hraised
        rw [hraised] at hnone
        cases hnone

theorem deliverAll_passes (bus : LocalEventBus σ) {event : Envelope}
    (h : bus.maxAttempts = 0 ∨ ∀ sub ∈ bus.subs, ∀ domain, (sub.handler event domain).1 = none)
    (subs : List (Subscription σ)) (hsubs : ∀ sub ∈ subs, sub ∈ bus.subs) (failures : List String)
    (world : World σ) : (bus.deliverAll event subs failures world).1 = failures := by
  induction subs generalizing failures world with
  | nil => rfl
  | cons sub rest ih =>
      have hrest := ih fun other hother => hsubs other (List.mem_cons_of_mem _ hother)
      unfold LocalEventBus.deliverAll
      split
      · have hpassed : LocalEventBus.addFailure failures sub.consumer
            (bus.deliver sub event world).1 = failures := by
          cases hended : (bus.deliver sub event world).1 with
          | none => rfl
          | some message =>
              have hempty : message = "" := by
                unfold LocalEventBus.deliver at hended
                split at hended
                · cases hended
                · rcases h with hzero | hcalm
                  · rw [hzero] at hended
                    exact (Option.some.inj hended).symm
                  · exact attempt_passes (hcalm sub (hsubs sub List.mem_cons_self)) _ _ _ hended
              exact if_pos hempty
        rw [hrest, hpassed]
      · exact hrest failures world

theorem publish_passes (bus : LocalEventBus σ) {event : Envelope}
    (h : bus.maxAttempts = 0 ∨ ∀ sub ∈ bus.subs, ∀ domain, (sub.handler event domain).1 = none)
    (world : World σ) : (bus.publish event world).1 = none := by
  have hpassed := deliverAll_passes bus h bus.subs (fun _ hsub => hsub) [] world
  unfold LocalEventBus.publish
  split
  · rfl
  · rename_i failures after hfull hended
    rw [hended] at hpassed
    exact absurd hpassed hfull

theorem deliver_isNone (record : Record) (processedAt : String) (world : World σ) :
    (service.deliver record mode processedAt world).1 =
      (service.bus.publish record.event (service.cleared record mode world)).1 := by
  unfold deliver
  split
  · rename_i hended
    rw [hended]
  · rename_i hended
    rw [hended]
    split <;> rfl

theorem replayEach_quiet
    (h : ∀ sub ∈ service.bus.subs, ∀ event domain, (sub.handler event domain).1 = none)
    (records : List Record) (progress : Progress) (world : World σ) :
    Quiet world (service.replayEach scope mode stopOnError readings records progress world).2 := by
  induction records generalizing progress world with
  | nil => exact .refl world
  | cons record rest ih =>
      unfold replayEach
      split
      · exact .refl world
      · split
        · exact ih _ world
        · have hpassed := publish_passes service.bus
            (.inr fun sub hsub domain => h sub hsub record.event domain)
            (service.cleared record mode world)
          rw [← deliver_isNone record (readings.processedAt record.event.eventId) world] at hpassed
          obtain ⟨-, -, letters, hletters, hnone⟩ := deliver_spec service mode
            record (readings.processedAt record.event.eventId) world
          split
          · rename_i after hended
            rw [hended] at hletters hnone
            obtain ⟨later, hlater, hquiet⟩ := ih (progress.past record _) after
            refine ⟨letters ++ later, by rw [hlater, hletters, List.append_assoc], ?_⟩
            intro letter hletter
            rcases List.mem_append.mp hletter with hfirst | hsecond
            · exact hnone.mp rfl letter hfirst
            · exact hquiet letter hsecond
          · rename_i reason after hended
            rw [hended] at hpassed
            cases hpassed

/-! ### The prediction -/

variable (service scope mode readings) in
/-- A run is refused, or is its loop between two entries of the journal. -/
theorem run_cases (actor : ReplayActor) (options : ReplayOptions) (world : World σ) :
    (∃ thrown, service.run scope mode actor options readings world = (.error thrown, world) ∧
      (assertNarrow scope = .error thrown ∨ world.held = true)) ∨
    assertNarrow scope = .ok () ∧ world.held = false ∧ ∃ journal journal' ended,
      ended = service.replayEach scope mode (options.stopOnError.getD true) readings
        (world.inbound.select (selectionFor scope)) (Progress.begin scope)
        { world with held := true, journal := journal } ∧
      service.run scope mode actor options readings world =
        (ended.1.map (report readings mode false scope actor
          (world.inbound.select (selectionFor scope))),
        { ended.2 with held := false, journal := journal' }) := by
  unfold run
  cases hnarrow : assertNarrow scope with
  | error thrown => exact .inl ⟨thrown, rfl, .inl rfl⟩
  | ok narrow =>
      cases hheld : world.held with
      | true => exact .inl ⟨_, rfl, .inr rfl⟩
      | false =>
          refine .inr ⟨rfl, rfl, world.journal ++ [journalled readings actor "event_replay.started"
            (.started mode scope (world.inbound.select (selectionFor scope)).length)], ?_⟩
          dsimp only
          rw [if_neg Bool.false_ne_true]
          split
          · rename_i thrown after hended
            exact ⟨_, (.error thrown, after), hended.symm, rfl⟩
          · rename_i progress after hended
            exact ⟨_, (.ok progress, after), hended.symm, rfl⟩

/-- Handlers that never throw leave every run quiet. -/
theorem run_quiet
    (h : ∀ sub ∈ service.bus.subs, ∀ event domain, (sub.handler event domain).1 = none)
    (actor : ReplayActor) (options : ReplayOptions) (world : World σ) :
    Quiet world (service.run scope mode actor options readings world).2 := by
  rcases run_cases service scope mode readings actor options
    world with ⟨thrown, hrun, -⟩ | ⟨-, -, journal, journal', ended, hended, hrun⟩
  · rw [hrun]
    exact .refl world
  · rw [hrun, hended]
    exact replayEach_quiet h _ _ { world with held := true, journal := journal }

theorem run_forward (actor : ReplayActor) (options : ReplayOptions) (world : World σ) :
    ∀ id row, world.inbound.table.get id = some row → ∃ row',
      (service.run scope mode actor options readings world).2.inbound.table.get id = some row' ∧
        Forward row row' := by
  intro id row hrow
  rcases run_cases service scope mode readings actor options
    world with ⟨thrown, hrun, -⟩ | ⟨-, -, journal, journal', ended, hended, hrun⟩
  · rw [hrun]
    exact ⟨row, hrow, .refl row⟩
  · rw [hrun, hended]
    exact replayEach_forward _ _ { world with held := true, journal := journal } id row hrow

/-- What a plan and a run report of the events. -/
def reported (result : Except Thrown ReplayReport) :
    Except Thrown (List ReplayOutcome × List (ReplayOutcomeKind × Nat)) :=
  result.map fun report => (report.outcomes, report.counts)

theorem run_reported (actor : ReplayActor) (options : ReplayOptions) (readings' : Readings)
    {world : World σ} (hfree : world.held = false)
    (hquiet : Quiet world (service.run scope mode actor options readings world).2) :
    reported (service.run scope mode actor options readings world).1 =
      reported (service.plan scope mode readings' world).1 := by
  rcases run_cases service scope mode readings actor options
    world with ⟨thrown, hrun, hnarrow | hheld⟩ |
    ⟨hnarrow, -, journal, journal', ended, hended, hrun⟩
  · rw [hrun]
    unfold plan
    rw [hnarrow]
  · rw [hfree] at hheld
    cases hheld
  · rw [hrun] at hquiet ⊢
    have hplanned := replayEach_planned service scope mode (options.stopOnError.getD true) readings
      world (world.inbound.select (selectionFor scope)) (Progress.begin scope)
      { world with held := true, journal := journal } (select_apart _ _) (fun _ _ _ => Iff.rfl)
      (by rw [← hended]; exact hquiet)
    rw [← hended] at hplanned
    unfold plan
    rw [hnarrow]
    dsimp only
    cases hplan : (world.inbound.select (selectionFor scope)).mapM fun record =>
        service.classify record scope mode world with
    | error thrown =>
        rw [hplan] at hplanned
        cases hresult : ended.1 with
        | error raised =>
            rw [hresult] at hplanned
            exact congrArg Except.error (Except.error.inj hplanned)
        | ok progress =>
            rw [hresult] at hplanned
            cases hplanned
    | ok outcomes =>
        rw [hplan] at hplanned
        cases hresult : ended.1 with
        | error raised =>
            rw [hresult] at hplanned
            cases hplanned
        | ok progress =>
            rw [hresult] at hplanned
            have hsame : progress.outcomes = outcomes := Except.ok.inj hplanned
            simp only [reported, Except.map, report, hsame]

theorem plan_unchanged (readings : Readings) (world : World σ) :
    (service.plan scope mode readings world).2 = world := by
  unfold plan
  split
  · rfl
  · dsimp only
    split <;> rfl

end ReplayService

open ReplayService in
/-- Where no handler fails, a run that holds the lock reports what its plan did; a plan changes
nothing; and no run takes a row back, spends an attempt or rewrites an envelope. -/
theorem plan_predicts (service : ReplayService σ) (scope : ReplayScope) (mode : ReplayMode)
    (actor : ReplayActor) (options : ReplayOptions) (readings readings' : Readings)
    (world : World σ) :
    (world.held = false → Quiet world (service.run scope mode actor options readings world).2 →
      reported (service.run scope mode actor options readings world).1 =
        reported (service.plan scope mode readings' world).1) ∧
      (service.plan scope mode readings' world).2 = world ∧
      ∀ eventId row, world.inbound.table.get eventId = some row → ∃ row',
        (service.run scope mode actor options readings world).2.inbound.table.get eventId =
          some row' ∧ Forward row row' := by
  refine ⟨?_, plan_unchanged readings' world, run_forward actor options world⟩
  intro hfree hquiet
  exact run_reported actor options readings' hfree hquiet

/-! A processed event, one its consumer has seen and one that is new, under a handler that counts. -/

def orderPayload : Http.Json :=
  .object [("order_id", .text "order-1"),
    ("organization_id", .text "11111111-1111-4111-8111-111111111111"),
    ("requested_service", .text "delivery")]

def historyOf (status : InboundStatus) (eventId : String) (attempts : Nat) : Record where
  event := { tiedEvent eventId with payload := orderPayload }
  status := status
  receivedAt := "2026-01-01T00:00:00.000Z"
  attempts := attempts
  lastError := none
  nextAttemptAt := "2026-01-01T00:00:00.000Z"
  processedAt := none
  claimedAt := none
  reclaims := 0
  claimToken := none

def history : World Nat where
  inbound := .stored [historyOf .processed "a" 2, historyOf .dead "b" 5, historyOf .pending "c" 0]
  inbox := [("intake", "a"), ("intake", "b")]
  deadLetters := []
  journal := []
  held := false
  domain := 0

def counting : ReplayService Nat where
  dates := ⟨fun _ => some 0, fun _ => "2026-01-01T00:00:00.000Z"⟩
  bus := ⟨[⟨"intake", "market.order.created", fun _ handled => (none, handled + 1)⟩], 3⟩

def ordersEverywhere : ReplayScope where
  eventTypes := some ["market.order.created"]
  statuses := some [.pending, .processed, .dead]
  limit := 10

def oneReading : Readings := ⟨"replay", "start", "finish", fun _ => "processed"⟩

open ReplayService in
theorem plan_predicts_counting :
    history.held = false ∧
      Quiet history (counting.run ordersEverywhere .pendingOnly ⟨"system", none⟩ {} oneReading
        history).2 ∧
      reported (counting.run ordersEverywhere .pendingOnly ⟨"system", none⟩ {} oneReading
        history).1 = reported (counting.plan ordersEverywhere .pendingOnly oneReading history).1 := by
  have hquiet : Quiet history (counting.run ordersEverywhere .pendingOnly ⟨"system", none⟩ {}
      oneReading history).2 := by
    refine run_quiet ?_ _ _ _
    intro sub hsub event domain
    obtain rfl := List.mem_singleton.mp hsub
    rfl
  exact ⟨rfl, hquiet, (plan_predicts counting ordersEverywhere .pendingOnly ⟨"system", none⟩ {}
    oneReading oneReading history).1 rfl hquiet⟩

end WaslaCore.Replay
