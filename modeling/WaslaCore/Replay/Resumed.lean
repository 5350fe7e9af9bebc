import WaslaCore.Replay.Predicted

/-!
Resuming a replay. The cursor of a run moves past every event that was decided and stays at one
that failed, so it stands before the failures unless a later event of the page was decided. Runs
that go on from each other's cursors leave nothing behind as long as none of them does that.
-/

namespace WaslaCore.Replay

open Platform Data Eventing

variable {σ : Type}

/-! ### Failing events -/

/-- Each handler throws at the failing events, at every attempt and with a reason, and at no
other. -/
structure Patterned (bus : LocalEventBus σ) (failing : Envelope → Bool) : Prop where
  raises : ∀ event, failing event = true → 0 < bus.maxAttempts ∧
    ∀ sub ∈ bus.subs, ∀ domain, ∃ message, (sub.handler event domain).1 = some message ∧
      message ≠ ""
  passes : ∀ event, failing event = false → bus.maxAttempts = 0 ∨
    ∀ sub ∈ bus.subs, ∀ domain, (sub.handler event domain).1 = none

theorem attempt_raises {sub : Subscription σ} {event : Envelope} (maxAttempts : Nat)
    (h : ∀ domain, ∃ message, (sub.handler event domain).1 = some message ∧ message ≠ "")
    (left : Nat) (lastError : String) (world : World σ) (hsome : 0 < left ∨ lastError ≠ "") :
    ∃ message, (LocalEventBus.attempt sub event maxAttempts left lastError world).1 = some message ∧
      message ≠ "" := by
  induction left generalizing lastError world with
  | zero => exact ⟨lastError, rfl, hsome.resolve_left (lt_irrefl 0)⟩
  | succ left ih =>
      obtain ⟨message, hmessage, hfull⟩ := h world.domain
      unfold LocalEventBus.attempt
      split
      · rename_i domain hraised
        rw [hraised] at hmessage
        cases hmessage
      · rename_i raised domain hraised
        rw [hraised] at hmessage
        obtain rfl := Option.some.inj hmessage
        exact ih raised _ (.inr hfull)

theorem addFailure_grows (failures : List String) (consumer : String) (failure : Option String)
    (h : failures ≠ []) : LocalEventBus.addFailure failures consumer failure ≠ [] := by
  cases failure with
  | none => exact h
  | some message =>
      simp only [LocalEventBus.addFailure]
      split
      · exact h
      · exact List.append_ne_nil_of_left_ne_nil h _

theorem deliverAll_grows (bus : LocalEventBus σ) (event : Envelope) (subs : List (Subscription σ))
    (failures : List String) (world : World σ) (h : failures ≠ []) :
    (bus.deliverAll event subs failures world).1 ≠ [] := by
  induction subs generalizing failures world with
  | nil => exact h
  | cons sub rest ih =>
      unfold LocalEventBus.deliverAll
      split
      · exact ih _ _ (addFailure_grows failures sub.consumer _ h)
      · exact ih failures world h

/-- A publish fails where a consumer that has not seen the event throws at it. -/
theorem deliverAll_raises (bus : LocalEventBus σ) {event : Envelope}
    (hattempts : 0 < bus.maxAttempts) {consumer : String} (subs : List (Subscription σ)) (failures : List String) (world : World σ)
    (hraises : ∀ sub ∈ subs, ∀ domain, ∃ message, (sub.handler event domain).1 = some message ∧
      message ≠ "")
    (hsub : ∃ sub ∈ subs, sub.eventType = event.eventType ∧ sub.consumer = consumer)
    (hunseen : (consumer, event.eventId) ∉ world.inbox) :
    (bus.deliverAll event subs failures world).1 ≠ [] := by
  induction subs generalizing failures world with
  | nil =>
      obtain ⟨sub, hsub, -⟩ := hsub
      cases hsub
  | cons sub rest ih =>
      have hrest := fun other hother => hraises other (List.mem_cons_of_mem _ hother)
      unfold LocalEventBus.deliverAll
      split
      · rename_i htype
        by_cases hown : sub.consumer = consumer
        · obtain ⟨message, hmessage, hfull⟩ := attempt_raises bus.maxAttempts
            (hraises sub List.mem_cons_self) bus.maxAttempts ""
            { world with inbox := world.inbox ++ [(sub.consumer, event.eventId)] } (.inl hattempts)
          have hdelivered : (bus.deliver sub event world).1 = some message := by
            unfold LocalEventBus.deliver World.claim
            rw [hown, if_neg hunseen, ← hown]
            exact hmessage
          have hadded : LocalEventBus.addFailure failures sub.consumer
              (bus.deliver sub event world).1 ≠ [] := by
            rw [hdelivered]
            simp only [LocalEventBus.addFailure, if_neg hfull]
            exact List.append_ne_nil_of_right_ne_nil _ (List.cons_ne_nil _ _)
          exact deliverAll_grows bus event rest _ _ hadded
        · have hoffered := (bus.deliver_offered sub event world).others (consumer, event.eventId)
            fun hsame => hown (Prod.mk.inj hsame).1.symm
          refine ih _ _ hrest ?_ (fun hseen => hunseen (hoffered.mp hseen))
          obtain ⟨other, hother, hmatches⟩ := hsub
          rcases List.mem_cons.mp hother with rfl | hlater
          · exact absurd hmatches.2 hown
          · exact ⟨other, hlater, hmatches⟩
      · rename_i htype
        refine ih failures world hrest ?_ hunseen
        obtain ⟨other, hother, hmatches⟩ := hsub
        rcases List.mem_cons.mp hother with rfl | hlater
        · exact absurd hmatches.1 htype
        · exact ⟨other, hlater, hmatches⟩

namespace ReplayService

variable {service : ReplayService σ} {scope : ReplayScope} {mode : ReplayMode}
  {failing : Envelope → Bool}

theorem mem_consumersFor {bus : LocalEventBus σ} {eventType consumer : String} :
    consumer ∈ bus.consumersFor eventType ↔
      ∃ sub ∈ bus.subs, sub.eventType = eventType ∧ sub.consumer = consumer := by
  unfold LocalEventBus.consumersFor
  rw [List.mem_eraseDups]
  simp [and_assoc]

theorem cleared_unseen (consumers : List String) (eventId : String) (world : World σ)
    {consumer : String} (h : consumer ∈ consumers ∨ (consumer, eventId) ∉ world.inbox) :
    (consumer, eventId) ∉
      (consumers.foldl (fun world consumer => world.release consumer eventId) world).inbox := by
  induction consumers generalizing world with
  | nil => exact h.resolve_left (List.not_mem_nil)
  | cons first rest ih =>
      apply ih
      rcases h with hmem | hunseen
      · rcases List.mem_cons.mp hmem with rfl | hlater
        · exact .inr (by simp [World.release])
        · exact .inl hlater
      · exact .inr fun hseen => hunseen (List.mem_filter.mp hseen).1

/-- What is said of an event is about it and no failure; it is to be applied where a consumer is
left that the mode offers it to. -/
theorem classify_spec {record : Record} {world : World σ} {classified : ReplayOutcome}
    (h : service.classify record scope mode world = .ok classified) :
    classified.position = record.position ∧ classified.outcome ≠ .failed ∧
      (classified.outcome = .applied → service.bus.consumersFor record.event.eventType ≠ [] ∧
        ¬(mode = .pendingOnly ∧ (service.bus.consumersFor record.event.eventType).all fun consumer =>
          world.seen consumer record.event.eventId)) := by
  unfold classify at h
  split at h
  · cases h
  · obtain rfl := Except.ok.inj h
    exact ⟨rfl, by simp [decided], fun happlied => by simp [decided] at happlied⟩
  · split at h
    · rename_i skipped hskipped
      obtain rfl := Except.ok.inj h
      obtain ⟨organizationId, -, hoff⟩ := Option.bind_eq_some_iff.mp hskipped
      unfold offTenant at hoff
      split at hoff
      · obtain rfl := Option.some.inj hoff
        exact ⟨rfl, by simp [decided], fun happlied => by simp [decided] at happlied⟩
      · split at hoff
        · obtain rfl := Option.some.inj hoff
          exact ⟨rfl, by simp [decided], fun happlied => by simp [decided] at happlied⟩
        · cases hoff
    · dsimp only at h
      split at h
      · obtain rfl := Except.ok.inj h
        exact ⟨rfl, by simp [decided], fun happlied => by simp [decided] at happlied⟩
      · rename_i hconsumers
        split at h
        · obtain rfl := Except.ok.inj h
          exact ⟨rfl, by simp [decided], fun happlied => by simp [decided] at happlied⟩
        · rename_i hunseen
          obtain rfl := Except.ok.inj h
          exact ⟨rfl, by simp [decided], fun _ => ⟨hconsumers, hunseen⟩⟩

/-- An event that is to be applied has a consumer that the bus will find has not seen it. -/
theorem classify_applied {record : Record} {world : World σ} {classified : ReplayOutcome}
    (h : service.classify record scope mode world = .ok classified)
    (happlied : classified.outcome = .applied) :
    ∃ consumer ∈ service.bus.consumersFor record.event.eventType,
      (consumer, record.event.eventId) ∉ (service.cleared record mode world).inbox := by
  obtain ⟨hconsumers, hseen⟩ := (classify_spec h).2.2 happlied
  cases mode with
  | reapply =>
      obtain ⟨consumer, hconsumer⟩ := List.exists_mem_of_ne_nil _ hconsumers
      exact ⟨consumer, hconsumer, cleared_unseen _ _ world (.inl hconsumer)⟩
  | pendingOnly =>
      have hsome : ¬(service.bus.consumersFor record.event.eventType).all (fun consumer =>
          world.seen consumer record.event.eventId) = true :=
        fun hall => hseen ⟨rfl, hall⟩
      simp only [List.all_eq_true, not_forall] at hsome
      obtain ⟨consumer, hconsumer, hunseen⟩ := hsome
      exact ⟨consumer, hconsumer, fun hmem => hunseen (decide_eq_true hmem)⟩

/-- Of the events that are to be applied, those fail that the pattern says. -/
theorem deliver_fails (hpattern : Patterned service.bus failing) {record : Record}
    {world : World σ} {classified : ReplayOutcome}
    (h : service.classify record scope mode world = .ok classified)
    (happlied : classified.outcome = .applied) (processedAt : String) :
    (service.deliver record mode processedAt world).1.isSome = failing record.event := by
  rw [deliver_isNone]
  cases hfailing : failing record.event with
  | false =>
      rw [publish_passes service.bus (hpattern.passes record.event hfailing)]
      rfl
  | true =>
      obtain ⟨hattempts, hraises⟩ := hpattern.raises record.event hfailing
      obtain ⟨consumer, hconsumer, hunseen⟩ := classify_applied h happlied
      have hfailures := deliverAll_raises service.bus hattempts service.bus.subs []
        (service.cleared record mode world) hraises (mem_consumersFor.mp hconsumer) hunseen
      unfold LocalEventBus.publish
      split
      · rename_i hended
        rw [hended] at hfailures
        exact absurd rfl hfailures
      · rfl

/-! ### The loop -/

/-- The event of the record is to be applied, and is one of those that fail. -/
def fails (service : ReplayService σ) (failing : Envelope → Bool) (scope : ReplayScope)
    (mode : ReplayMode) (world : World σ) (record : Record) : Bool :=
  match service.classify record scope mode world with
  | .ok classified => classified.outcome = .applied && failing record.event
  | .error _ => false

variable (service scope mode failing) in
theorem fails_congr {record : Record} {world world' : World σ}
    (h : ∀ consumer, (consumer, record.event.eventId) ∈ world'.inbox ↔
      (consumer, record.event.eventId) ∈ world.inbox) :
    service.fails failing scope mode world' record =
      service.fails failing scope mode world record := by
  unfold fails
  rw [classify_congr h]

/-- The records a run comes to: with `stopOnError`, none past the first that fails. -/
def comeTo (stopOnError : Bool) (fails : Record → Bool) : List Record → List Record
  | [] => []
  | record :: rest =>
      record :: if stopOnError && fails record then [] else comeTo stopOnError fails rest

/-- An outcome is about the record, and is a failure where the record fails. -/
def Reports (fails : Record → Bool) (record : Record) (outcome : ReplayOutcome) : Prop :=
  outcome.position = record.position ∧ (outcome.outcome = .failed ↔ fails record = true)

/-- What the loop makes of the records it comes to. -/
structure Traced (fails : Record → Bool) (come : List Record) (progress result : Progress)
    (world after : World σ) : Prop where
  outcomes : ∃ outcomes, result.outcomes = progress.outcomes ++ outcomes ∧
    List.Forall₂ (Reports fails) come outcomes
  cursor : result.resumeAfter =
    cursorPast Record.position (fun record => !fails record) come progress.resumeAfter
  rows : ∀ id, (∀ record ∈ come, fails record = false → record.event.eventId ≠ id) →
    after.inbound.table.get id = world.inbound.table.get id

/-- A record that is decided, and the rest after it. -/
theorem Traced.past {fails : Record → Bool} {record : Record} {outcome : ReplayOutcome}
    {come : List Record} {progress result : Progress} {world middle after : World σ}
    (h : Traced fails come (progress.past record outcome) result middle after)
    (hdecided : fails record = false) (habout : Reports fails record outcome)
    (hothers : ∀ id ≠ record.event.eventId,
      middle.inbound.table.get id = world.inbound.table.get id) :
    Traced fails (record :: come) progress result world after := by
  obtain ⟨outcomes, houtcomes, hreports⟩ := h.outcomes
  refine ⟨⟨outcome :: outcomes, ?_, .cons habout hreports⟩, ?_, ?_⟩
  · rw [houtcomes, Progress.past, List.append_assoc, List.singleton_append]
  · rw [h.cursor]
    simp [cursorPast, hdecided, Progress.past]
  · intro id hid
    rw [h.rows id fun other hother => hid other (List.mem_cons_of_mem _ hother)]
    exact hothers id (Ne.symm (hid record List.mem_cons_self hdecided))

/-- A record that fails, and the rest after it. -/
theorem Traced.stays {fails : Record → Bool} {record : Record} {classified : ReplayOutcome}
    {reason : String} {come : List Record} {progress result : Progress}
    {world middle after : World σ}
    (h : Traced fails come (progress.failing record classified reason) result middle after)
    (hfails : fails record = true) (habout : classified.position = record.position)
    (hinbound : middle.inbound = world.inbound) :
    Traced fails (record :: come) progress result world after := by
  obtain ⟨outcomes, houtcomes, hreports⟩ := h.outcomes
  refine ⟨⟨{ classified with outcome := .failed, reason := some reason } :: outcomes, ?_,
    .cons ⟨habout, iff_of_true rfl hfails⟩ hreports⟩, ?_, ?_⟩
  · rw [houtcomes, Progress.failing, List.append_assoc, List.singleton_append]
  · rw [h.cursor]
    simp [cursorPast, hfails, Progress.failing]
  · intro id hid
    rw [h.rows id fun other hother => hid other (List.mem_cons_of_mem _ hother), hinbound]

variable {stopOnError : Bool} {readings : Readings}

theorem replayEach_traced (hpattern : Patterned service.bus failing) (start : World σ)
    (records : List Record) (progress : Progress) (world : World σ) (hapart : Apart records)
    (hsame : DecidedAs records start world) {result : Progress} {after : World σ}
    (h : service.replayEach scope mode stopOnError readings records progress world =
      (.ok result, after)) :
    Traced (service.fails failing scope mode start)
        (comeTo stopOnError (service.fails failing scope mode start) records) progress result world
        after ∧
      (progress.stoppedEarly = false → result.stoppedEarly = false →
        comeTo stopOnError (service.fails failing scope mode start) records = records) := by
  induction records generalizing progress world with
  | nil =>
      obtain ⟨hresult, rfl⟩ := Prod.mk.inj h
      obtain rfl := Except.ok.inj hresult
      exact ⟨⟨⟨[], (List.append_nil _).symm, .nil⟩, rfl, fun _ _ => rfl⟩, fun _ _ => rfl⟩
  | cons record rest ih =>
      have hrest := (List.pairwise_cons.mp hapart).2
      have hfails := fails_congr service scope mode failing
        (hsame record List.mem_cons_self)
      unfold replayEach at h
      split at h
      · cases h
      rename_i classified hclassified
      obtain ⟨habout, hnotFailed, -⟩ := classify_spec hclassified
      split at h
      · rename_i hskipped
        have hdecided : service.fails failing scope mode start record = false := by
          rw [← hfails]
          unfold fails
          rw [hclassified]
          simp [hskipped]
        obtain ⟨htraced, hwhole⟩ := ih (progress.past record classified) world hrest
          (fun other hother => hsame other (List.mem_cons_of_mem _ hother)) h
        unfold comeTo
        rw [hdecided, Bool.and_false, if_neg Bool.false_ne_true]
        refine ⟨htraced.past hdecided ⟨habout, iff_of_false hnotFailed (by simp [hdecided])⟩
          (fun _ _ => rfl), ?_⟩
        intro hearly hlate
        rw [hwhole hearly hlate]
      · rename_i happlied
        have happlied : classified.outcome = .applied := not_not.mp happlied
        have hfailing := deliver_fails hpattern hclassified happlied
          (readings.processedAt record.event.eventId)
        obtain ⟨htouches, hunmarked, -⟩ := deliver_spec service mode record
          (readings.processedAt record.event.eventId) world
        have hfate : service.fails failing scope mode start record = failing record.event := by
          rw [← hfails]
          unfold fails
          rw [hclassified]
          simp [happlied]
        split at h
        · rename_i middle hended
          rw [hended] at hfailing htouches
          have hdecided : service.fails failing scope mode start record = false :=
            hfate.trans hfailing.symm
          obtain ⟨htraced, hwhole⟩ := ih (progress.past record classified) middle hrest
            (hsame.touched hapart htouches) h
          unfold comeTo
          rw [hdecided, Bool.and_false, if_neg Bool.false_ne_true]
          refine ⟨htraced.past hdecided ⟨habout, iff_of_false hnotFailed (by simp [hdecided])⟩
            htouches.others, ?_⟩
          intro hearly hlate
          rw [hwhole hearly hlate]
        · rename_i reason middle hended
          rw [hended] at hfailing htouches hunmarked
          have hfailed : service.fails failing scope mode start record = true :=
            hfate.trans hfailing.symm
          split at h
          · rename_i hstop
            obtain ⟨hresult, rfl⟩ := Prod.mk.inj h
            obtain rfl := Except.ok.inj hresult
            have hnone : Traced (service.fails failing scope mode start) []
                (progress.failing record classified reason)
                { progress.failing record classified reason with stoppedEarly := true } middle
                middle :=
              ⟨⟨[], (List.append_nil _).symm, .nil⟩, rfl, fun _ _ => rfl⟩
            unfold comeTo
            rw [hfailed, hstop, Bool.and_self, if_pos rfl]
            exact ⟨hnone.stays hfailed habout (hunmarked reason rfl), by rintro _ ⟨⟩⟩
          · rename_i hgoes
            obtain ⟨htraced, hwhole⟩ := ih (progress.failing record classified reason) middle hrest
              (hsame.touched hapart htouches) h
            unfold comeTo
            rw [Bool.not_eq_true] at hgoes
            rw [hgoes] at htraced hwhole ⊢
            rw [Bool.false_and, if_neg Bool.false_ne_true]
            refine ⟨htraced.stays hfailed habout (hunmarked reason rfl), ?_⟩
            intro hearly hlate
            rw [hwhole hearly hlate]

/-! ### The page -/

theorem select_ascending (inbound : Inbound) (selection : InboundSelection) :
    Ascending Position.rank Record.position
      (inPositionOrder Record.position (inbound.table.values.filter fun record =>
        matchesSelection record.toInboundRow selection)) :=
  (inPositionOrder_ordered Record.position _).ascending
    ((ranks_nodup inbound fun _ => rfl).sublist (List.filter_sublist.map _))

theorem mem_select {inbound : Inbound} {selection : InboundSelection} {record : Record}
    (h : record ∈ inbound.select selection) :
    record ∈ inbound.table.values ∧ matchesSelection record.toInboundRow selection = true := by
  have hsorted := List.mem_of_mem_take h
  rw [(inPositionOrder_ordered Record.position _).1.mem_iff] at hsorted
  exact List.mem_filter.mp hsorted

/-- A scope is its filters, and the rows that follow its cursor. -/
theorem matchesSelection_after (scope : ReplayScope) (after : Option Position) (record : Record) :
    matchesSelection record.toInboundRow (selectionFor { scope with after := after }) =
      (matchesSelection record.toInboundRow (selectionFor { scope with after := none }) &&
        follows Position.rank Record.position after record) := by
  unfold matchesSelection
  rw [← follows_compare Record.position after record]
  simp only [narrowsSelection, selectionFor, Option.all_none, Bool.and_true]
  rfl

/-! ### One run -/

/-- The cursor stands before every event that the report says failed. -/
def BeforeFailures (report : ReplayReport) : Prop :=
  ∀ outcome ∈ report.outcomes, outcome.outcome = .failed →
    follows Position.rank ReplayOutcome.position report.resumeAfter outcome = true

/-- The run stops at the first failure, or none of the page is followed by an event that does
not fail. -/
def Unovertaken (service : ReplayService σ) (failing : Envelope → Bool) (scope : ReplayScope)
    (mode : ReplayMode) (options : ReplayOptions) (world : World σ) : Prop :=
  options.stopOnError.getD true = true ∨
    (world.inbound.select (selectionFor scope)).Pairwise fun earlier later =>
      service.fails failing scope mode world earlier = true →
        service.fails failing scope mode world later = true

theorem assertNarrow_limit (h : assertNarrow scope = .ok ()) : 1 ≤ scope.limit := by
  unfold assertNarrow at h
  extract_lets narrowing at h
  split at h
  · cases h
  · split at h
    · cases h
    · omega

/-- A run that reports, in terms of the page it selected. -/
theorem run_traced (hpattern : Patterned service.bus failing) {actor : ReplayActor}
    {options : ReplayOptions} {world : World σ} {report : ReplayReport} {after : World σ}
    (h : service.run scope mode actor options readings world = (.ok report, after)) :
    let page := world.inbound.select (selectionFor scope)
    let come := comeTo (options.stopOnError.getD true) (service.fails failing scope mode world) page
    1 ≤ scope.limit ∧
      List.Forall₂ (Reports (service.fails failing scope mode world)) come report.outcomes ∧
      report.resumeAfter = cursorPast Record.position
        (fun record => !service.fails failing scope mode world record) come scope.after ∧
      (∀ id, (∀ record ∈ come, service.fails failing scope mode world record = false →
        record.event.eventId ≠ id) → after.inbound.table.get id = world.inbound.table.get id) ∧
      (report.stoppedEarly = false → come = page) ∧
      (report.moreAvailable = false → (page.length : Int) ≠ scope.limit) := by
  rcases run_cases service scope mode readings actor options
    world with ⟨thrown, hrun, -⟩ | ⟨hnarrow, -, journal, journal', ended, hended, hrun⟩
  · rw [hrun] at h
    cases h
  · rw [hrun] at h
    obtain ⟨hreport, rfl⟩ := Prod.mk.inj h
    cases hresult : ended.1 with
    | error thrown =>
        rw [hresult] at hreport
        cases hreport
    | ok progress =>
        rw [hresult] at hreport
        obtain rfl := Except.ok.inj hreport
        obtain ⟨htraced, hwhole⟩ := replayEach_traced hpattern world _ _
          { world with held := true, journal := journal } (select_apart _ _) (fun _ _ _ => Iff.rfl)
          (hended.symm.trans (Prod.ext hresult rfl))
        obtain ⟨outcomes, houtcomes, hreports⟩ := htraced.outcomes
        have hlisted : progress.outcomes = outcomes := houtcomes
        refine ⟨assertNarrow_limit hnarrow, ?_, htraced.cursor, htraced.rows, hwhole rfl, ?_⟩
        · show List.Forall₂ _ _ progress.outcomes
          rw [hlisted]
          exact hreports
        · intro hmore hfull
          exact absurd (decide_eq_true hfull) (Bool.eq_false_iff.mp hmore)

/-- What a run comes to starts the page. -/
theorem comeTo_sublist (stopOnError : Bool) (fails : Record → Bool) (records : List Record) :
    (comeTo stopOnError fails records).Sublist records := by
  induction records with
  | nil => exact .refl []
  | cons record rest ih =>
      unfold comeTo
      split
      · exact .cons_cons _ (List.nil_sublist rest)
      · exact .cons_cons _ ih

/-- With `stopOnError`, the one record that fails is the last it comes to. -/
theorem comeTo_stops (fails : Record → Bool) (records : List Record) :
    (comeTo true fails records).Pairwise fun earlier later =>
      fails earlier = true → fails later = true := by
  induction records with
  | nil => exact .nil
  | cons record rest ih =>
      unfold comeTo
      cases hfails : fails record with
      | true => exact List.pairwise_singleton _ _
      | false =>
          refine .cons (fun later _ hfailed => ?_) ih
          rw [hfails] at hfailed
          cases hfailed

theorem comeTo_goesOn (fails : Record → Bool) (records : List Record) :
    comeTo false fails records = records := by
  induction records with
  | nil => rfl
  | cons record rest ih =>
      unfold comeTo
      rw [Bool.false_and, if_neg Bool.false_ne_true, ih]

/-- A record of the page that is not come to stands behind one that failed. -/
theorem comeTo_behind (stopOnError : Bool) {fails : Record → Bool} {records : List Record}
    (h : Ascending Position.rank Record.position records) {record : Record}
    (hrecord : record ∈ records) (hnot : record ∉ comeTo stopOnError fails records) :
    ∃ failed ∈ comeTo stopOnError fails records, fails failed = true ∧
      failed.position.rank < record.position.rank := by
  induction records with
  | nil => cases hrecord
  | cons first rest ih =>
      obtain ⟨hhead, hrest⟩ := List.pairwise_cons.mp h
      unfold comeTo at hnot ⊢
      have hlater : record ∈ rest := by
        rcases List.mem_cons.mp hrecord with rfl | hlater
        · exact absurd List.mem_cons_self hnot
        · exact hlater
      by_cases hstops : (stopOnError && fails first) = true
      · rw [if_pos hstops]
        exact ⟨first, List.mem_cons_self, (Bool.and_eq_true _ _ ▸ hstops).2, hhead record hlater⟩
      · rw [if_neg hstops] at hnot ⊢
        obtain ⟨failed, hfailed, hless⟩ := ih hrest hlater fun hcome =>
          hnot (List.mem_cons_of_mem _ hcome)
        exact ⟨failed, List.mem_cons_of_mem _ hfailed, hless⟩

section OneRun

variable {actor : ReplayActor} {options : ReplayOptions} {world after : World σ}
  {report : ReplayReport}

variable (scope) in
/-- What a run comes to, in its order and behind the cursor it began at. -/
theorem comeTo_ascending (stopOnError : Bool) (fails : Record → Bool) (world : World σ) :
    let come := comeTo stopOnError fails (world.inbound.select (selectionFor scope))
    Ascending Position.rank Record.position come ∧
      ∀ record ∈ come, follows Position.rank Record.position scope.after record = true := by
  have hpage := comeTo_sublist stopOnError fails (world.inbound.select (selectionFor scope))
  refine ⟨(select_ascending world.inbound (selectionFor scope)).sublist
    (hpage.trans (List.take_sublist _ _)), fun record hrecord => ?_⟩
  have hmatches := (mem_select (hpage.subset hrecord)).2
  rw [show scope = { scope with after := scope.after } from rfl, matchesSelection_after] at hmatches
  exact (Bool.and_eq_true _ _ ▸ hmatches).2

theorem unovertaken_iff :
    Unovertaken service failing scope mode options world ↔
      (comeTo (options.stopOnError.getD true) (service.fails failing scope mode world)
        (world.inbound.select (selectionFor scope))).Pairwise fun earlier later =>
          service.fails failing scope mode world earlier = true →
            service.fails failing scope mode world later = true := by
  unfold Unovertaken
  cases options.stopOnError.getD true with
  | true => exact iff_of_true (.inl rfl) (comeTo_stops _ _)
  | false =>
      rw [comeTo_goesOn]
      exact or_iff_right Bool.false_ne_true

theorem Reports.outcome {fails : Record → Bool} {come : List Record} {outcomes : List ReplayOutcome}
    (h : List.Forall₂ (Reports fails) come outcomes) {record : Record} (hrecord : record ∈ come) :
    ∃ outcome ∈ outcomes, Reports fails record outcome := by
  induction h with
  | nil => cases hrecord
  | @cons first outcome come outcomes hfirst hrest ih =>
      rcases List.mem_cons.mp hrecord with rfl | hlater
      · exact ⟨outcome, List.mem_cons_self, hfirst⟩
      · obtain ⟨found, hfound, hreports⟩ := ih hlater
        exact ⟨found, List.mem_cons_of_mem _ hfound, hreports⟩

theorem Reports.record {fails : Record → Bool} {come : List Record} {outcomes : List ReplayOutcome}
    (h : List.Forall₂ (Reports fails) come outcomes) {outcome : ReplayOutcome}
    (houtcome : outcome ∈ outcomes) : ∃ record ∈ come, Reports fails record outcome := by
  induction h with
  | nil => cases houtcome
  | @cons record first come outcomes hfirst hrest ih =>
      rcases List.mem_cons.mp houtcome with rfl | hlater
      · exact ⟨record, List.mem_cons_self, hfirst⟩
      · obtain ⟨found, hfound, hreports⟩ := ih hlater
        exact ⟨found, List.mem_cons_of_mem _ hfound, hreports⟩

/-- The cursor is before the failures exactly where no failure is overtaken. -/
theorem beforeFailures_iff (hpattern : Patterned service.bus failing)
    (h : service.run scope mode actor options readings world = (.ok report, after)) :
    BeforeFailures report ↔ Unovertaken service failing scope mode options world := by
  obtain ⟨-, hreports, hcursor, -⟩ := run_traced hpattern h
  obtain ⟨hascending, hfollows⟩ := comeTo_ascending scope (options.stopOnError.getD true)
    (service.fails failing scope mode world) world
  have hbefore := hascending.before_undecided_iff
    (fun record => !service.fails failing scope mode world record) scope.after hfollows
  simp only [Bool.not_eq_false'] at hbefore
  rw [unovertaken_iff, ← hbefore, ← hcursor]
  constructor
  · intro hall record hrecord hfails
    obtain ⟨outcome, houtcome, hposition, hfailed⟩ := Reports.outcome hreports hrecord
    have hfollowed := hall outcome houtcome (hfailed.mpr hfails)
    unfold follows at hfollowed ⊢
    rwa [hposition] at hfollowed
  · intro hall outcome houtcome hfailed
    obtain ⟨record, hrecord, hposition, hfails⟩ := Reports.record hreports houtcome
    have hfollowed := hall record hrecord (hfails.mp hfailed)
    unfold follows at hfollowed ⊢
    rwa [hposition]

/-- The report has the event decided. -/
def DecidedIn (report : ReplayReport) (record : Record) : Prop :=
  ∃ outcome ∈ report.outcomes, outcome.position = record.position ∧ outcome.outcome ≠ .failed

/-- The report has the event failed. -/
def FailedIn (report : ReplayReport) (record : Record) : Prop :=
  ∃ outcome ∈ report.outcomes, outcome.position = record.position ∧ outcome.outcome = .failed

theorem stored_get {inbound : Inbound} {record : Record} (h : record ∈ inbound.table.values) :
    inbound.table.get record.event.eventId = some record := by
  obtain ⟨key, hkey⟩ := Table.mem_values.mp h
  have hown : record.event.eventId = key := inbound.keyed key record hkey
  rwa [hown]

/-- An event of the scope is reported as decided, or is left as it was, after the cursor. -/
theorem run_leaves (hpattern : Patterned service.bus failing)
    (h : service.run scope mode actor options readings world = (.ok report, after))
    (hmeets : Unovertaken service failing scope mode options world) {record : Record}
    (hstored : record ∈ world.inbound.table.values)
    (hmatches : matchesSelection record.toInboundRow (selectionFor scope) = true) :
    DecidedIn report record ∨
      follows Position.rank Record.position report.resumeAfter record = true ∧
        after.inbound.table.get record.event.eventId = some record := by
  obtain ⟨-, hreports, hcursor, hrows, -⟩ := run_traced hpattern h
  obtain ⟨hascending, hfollows⟩ := comeTo_ascending scope (options.stopOnError.getD true)
    (service.fails failing scope mode world) world
  have hkept := unovertaken_iff.mp hmeets
  have hpage := comeTo_sublist (options.stopOnError.getD true)
    (service.fails failing scope mode world) (world.inbound.select (selectionFor scope))
  have hsorted : record ∈ inPositionOrder Record.position (world.inbound.table.values.filter
      fun record => matchesSelection record.toInboundRow (selectionFor scope)) := by
    rw [(inPositionOrder_ordered Record.position _).1.mem_iff]
    exact List.mem_filter.mpr ⟨hstored, hmatches⟩
  generalize hcome : comeTo (options.stopOnError.getD true) (service.fails failing scope mode world)
    (world.inbound.select (selectionFor scope)) = come at *
  by_cases hdecided : record ∈ come ∧ service.fails failing scope mode world record = false
  · obtain ⟨outcome, houtcome, hposition, hfailed⟩ := Reports.outcome hreports hdecided.1
    refine .inl ⟨outcome, houtcome, hposition, fun hfails => ?_⟩
    rw [hfailed.mp hfails] at hdecided
    cases hdecided.2
  · refine .inr ⟨?_, ?_⟩
    · have hundecided : ∀ failed ∈ come, service.fails failing scope mode world failed = true →
          follows Position.rank Record.position report.resumeAfter failed = true := by
        intro failed hfailed hfails
        rw [hcursor]
        exact hascending.before_undecided hfollows (by simpa using hkept) hfailed (by simp [hfails])
      by_cases honPage : record ∈ come
      · apply hundecided record honPage
        cases hfails : service.fails failing scope mode world record with
        | true => rfl
        | false => exact absurd ⟨honPage, hfails⟩ hdecided
      · rcases (select_ascending world.inbound (selectionFor scope)).mem_take hsorted
          (selectionFor scope).limit with hselected | hbehind
        · obtain ⟨failed, hfailed, hfails, hless⟩ := comeTo_behind (options.stopOnError.getD true)
            ((select_ascending world.inbound (selectionFor scope)).sublist (List.take_sublist _ _))
            hselected (hcome ▸ honPage)
          have hahead := hundecided failed (hcome ▸ hfailed) hfails
          cases hresume : report.resumeAfter with
          | none => rfl
          | some cursor =>
              rw [hresume] at hahead
              exact follows_some.mpr ((follows_some.mp hahead).trans hless)
        · rw [hcursor]
          refine follows_cursorPast (fun other hother => hbehind other (hpage.subset hother)) ?_
          rw [show scope = { scope with after := scope.after } from rfl,
            matchesSelection_after] at hmatches
          exact (Bool.and_eq_true _ _ ▸ hmatches).2
    · rw [hrows record.event.eventId ?_, stored_get hstored]
      intro other hother hfate hid
      have hsame := stored_get (mem_select (hpage.subset hother)).1
      rw [hid, stored_get hstored] at hsame
      obtain rfl := Option.some.inj hsame
      exact hdecided ⟨hother, hfate⟩

/-- Nothing is left to select: the page was short and was gone through. -/
def Exhausted (report : ReplayReport) : Prop :=
  report.moreAvailable = false ∧ report.stoppedEarly = false

/-- A run that exhausts its scope reports on every event of it. -/
theorem run_exhausts (hpattern : Patterned service.bus failing)
    (h : service.run scope mode actor options readings world = (.ok report, after))
    (hexhausted : Exhausted report) {record : Record} (hstored : record ∈ world.inbound.table.values)
    (hmatches : matchesSelection record.toInboundRow (selectionFor scope) = true) :
    DecidedIn report record ∨ FailedIn report record := by
  obtain ⟨hlimit, hreports, -, -, hwhole, hshort⟩ := run_traced hpattern h
  have hsorted : record ∈ inPositionOrder Record.position (world.inbound.table.values.filter
      fun record => matchesSelection record.toInboundRow (selectionFor scope)) := by
    rw [(inPositionOrder_ordered Record.position _).1.mem_iff]
    exact List.mem_filter.mpr ⟨hstored, hmatches⟩
  have hselected : record ∈ world.inbound.select (selectionFor scope) := by
    have hlength := hshort hexhausted.1
    unfold Inbound.select at hlength ⊢
    rw [List.length_take] at hlength
    rwa [List.take_of_length_le]
    simp only [selectionFor] at hlength ⊢
    omega
  rw [hwhole hexhausted.2] at hreports
  obtain ⟨outcome, houtcome, hposition, -⟩ := Reports.outcome hreports hselected
  by_cases hfailed : outcome.outcome = .failed
  · exact .inr ⟨outcome, houtcome, hposition, hfailed⟩
  · exact .inl ⟨outcome, houtcome, hposition, hfailed⟩

end OneRun

end ReplayService

/-! ### Runs that resume -/

open ReplayService

/-- Runs of one scope, each from the cursor of the one before, the latest first. Each may have
other handlers, and other events that fail. -/
inductive Resumes (dates : Dates) (scope : ReplayScope) (start : World σ) :
    List ReplayReport → Option Position → World σ → Prop where
  | begin : Resumes dates scope start [] scope.after start
  | again {reports : List ReplayReport} {cursor : Option Position} {world after : World σ}
      {bus : LocalEventBus σ} {failing : Envelope → Bool} {mode : ReplayMode} {actor : ReplayActor}
      {options : ReplayOptions} {readings : Readings} {report : ReplayReport}
      (hsofar : Resumes dates scope start reports cursor world)
      (hpattern : Patterned bus failing)
      (hmeets : Unovertaken ⟨dates, bus⟩ failing { scope with after := cursor } mode options world)
      (hrun : ReplayService.run ⟨dates, bus⟩ { scope with after := cursor } mode actor options
        readings world = (.ok report, after)) :
      Resumes dates scope start (report :: reports) report.resumeAfter after

theorem Resumes.leaves {dates : Dates} {scope : ReplayScope} {start world : World σ}
    {reports : List ReplayReport} {cursor : Option Position}
    (h : Resumes dates scope start reports cursor world) {record : Record}
    (hstored : record ∈ start.inbound.table.values)
    (hmatches : matchesSelection record.toInboundRow (selectionFor scope) = true) :
    (∃ report ∈ reports, DecidedIn report record) ∨
      follows Position.rank Record.position cursor record = true ∧
        world.inbound.table.get record.event.eventId = some record := by
  rw [show scope = { scope with after := scope.after } from rfl, matchesSelection_after,
    Bool.and_eq_true] at hmatches
  induction h with
  | begin => exact .inr ⟨hmatches.2, stored_get hstored⟩
  | @again reports cursor world after bus failing mode actor options readings report hsofar hpattern
      hmeets hrun ih =>
      rcases ih with ⟨earlier, hearlier, hdecided⟩ | ⟨hfollows, hkept⟩
      · exact .inl ⟨earlier, List.mem_cons_of_mem _ hearlier, hdecided⟩
      · have hselected : matchesSelection record.toInboundRow
            (selectionFor { scope with after := cursor }) = true := by
          rw [matchesSelection_after, Bool.and_eq_true]
          exact ⟨hmatches.1, hfollows⟩
        rcases run_leaves hpattern hrun hmeets (Table.mem_values.mpr ⟨_, hkept⟩) hselected with
          hdecided | hleft
        · exact .inl ⟨report, List.mem_cons_self, hdecided⟩
        · exact .inr hleft

theorem Resumes.exhausts {dates : Dates} {scope : ReplayScope} {start world : World σ}
    {last : ReplayReport} {earlier : List ReplayReport} {cursor : Option Position}
    (h : Resumes dates scope start (last :: earlier) cursor world) (hexhausted : Exhausted last)
    {record : Record} (hstored : record ∈ start.inbound.table.values)
    (hmatches : matchesSelection record.toInboundRow (selectionFor scope) = true) :
    (∃ report ∈ last :: earlier, DecidedIn report record) ∨ FailedIn last record := by
  cases h with
  | @again _ cursor middle _ bus failing mode actor options readings _ hsofar hpattern hmeets hrun =>
      rcases hsofar.leaves hstored hmatches with ⟨report, hreport, hdecided⟩ | ⟨hfollows, hkept⟩
      · exact .inl ⟨report, List.mem_cons_of_mem _ hreport, hdecided⟩
      · rw [show scope = { scope with after := scope.after } from rfl, matchesSelection_after,
          Bool.and_eq_true] at hmatches
        have hselected : matchesSelection record.toInboundRow
            (selectionFor { scope with after := cursor }) = true := by
          rw [matchesSelection_after, Bool.and_eq_true]
          exact ⟨hmatches.1, hfollows⟩
        rcases run_exhausts hpattern hrun hexhausted (Table.mem_values.mpr ⟨_, hkept⟩) hselected with
          hdecided | hfailed
        · exact .inl ⟨last, List.mem_cons_self, hdecided⟩
        · exact .inr hfailed

/-- The cursor of a run stands before the events that failed exactly where none of them was
overtaken, and runs that resume from such cursors leave no event of the scope behind: each was
decided by one of them or is still ahead, and once the scope is exhausted each was decided or
is reported failed by the last. -/
theorem resume_before_failures (service : ReplayService σ) (failing : Envelope → Bool)
    (scope : ReplayScope) (mode : ReplayMode) (actor : ReplayActor) (options : ReplayOptions)
    (readings : Readings) (world after : World σ) (report : ReplayReport)
    (hpattern : Patterned service.bus failing)
    (hrun : service.run scope mode actor options readings world = (.ok report, after)) :
    (BeforeFailures report ↔ Unovertaken service failing scope mode options world) ∧
      ∀ reports cursor later, Resumes service.dates scope world reports cursor later →
        ∀ record ∈ world.inbound.table.values,
          matchesSelection record.toInboundRow (selectionFor scope) = true →
            ((∃ report ∈ reports, DecidedIn report record) ∨
              follows Position.rank Record.position cursor record = true) ∧
            ∀ last earlier, reports = last :: earlier → Exhausted last →
              (∃ report ∈ reports, DecidedIn report record) ∨ FailedIn last record := by
  refine ⟨beforeFailures_iff hpattern hrun, ?_⟩
  intro reports cursor later hresumes record hstored hmatches
  refine ⟨(hresumes.leaves hstored hmatches).imp_right And.left, ?_⟩
  rintro last earlier rfl hexhausted
  exact hresumes.exhausts hexhausted hstored hmatches

/-! A handler that is down for the first of three events. -/

def faltering : ReplayService Nat where
  dates := counting.dates
  bus := ⟨[⟨"intake", "market.order.created", fun event handled =>
    if event.eventId = "a" then (some "down", handled) else (none, handled + 1)⟩], 3⟩

theorem faltering_patterned : Patterned faltering.bus fun event => event.eventId = "a" where
  raises event hfailing := by
    refine ⟨by decide, fun sub hsub domain => ?_⟩
    obtain rfl := List.mem_singleton.mp hsub
    exact ⟨"down", by simp [of_decide_eq_true hfailing], by decide⟩
  passes event hfailing := by
    refine .inr fun sub hsub domain => ?_
    obtain rfl := List.mem_singleton.mp hsub
    simp [of_decide_eq_false hfailing]

/-- The run, with and without `stopOnError`, reports. -/
theorem faltering_reports (options : ReplayOptions)
    (h : (faltering.run ordersEverywhere .reapply ⟨"system", none⟩ options oneReading
      history).1.isOk = true) :
    ∃ report after, faltering.run ordersEverywhere .reapply ⟨"system", none⟩ options oneReading
      history = (.ok report, after) := by
  cases hrun : faltering.run ordersEverywhere .reapply ⟨"system", none⟩ options oneReading
    history with
  | mk result after =>
      rw [hrun] at h
      cases result with
      | error thrown => cases h
      | ok report => exact ⟨report, after, rfl⟩

theorem resume_before_failures_stopped :
    ∃ report after, faltering.run ordersEverywhere .reapply ⟨"system", none⟩ {} oneReading history =
      (.ok report, after) ∧ BeforeFailures report := by
  obtain ⟨report, after, hrun⟩ := faltering_reports {} (by decide +kernel)
  exact ⟨report, after, hrun, (resume_before_failures faltering _ _ _ _ _ _ _ _ _
    faltering_patterned hrun).1.mpr (.inl rfl)⟩

/-- Going on past the failure, the run resumes after the last event and steps over the first. -/
theorem resume_before_failures_fails :
    ¬∀ (service : ReplayService Nat) (failing : Envelope → Bool) (scope : ReplayScope)
      (mode : ReplayMode) (actor : ReplayActor) (options : ReplayOptions) (readings : Readings)
      (world after : World Nat) (report : ReplayReport), Patterned service.bus failing →
        service.run scope mode actor options readings world = (.ok report, after) →
          BeforeFailures report := by
  intro hall
  obtain ⟨report, after, hrun⟩ := faltering_reports ⟨some false⟩ (by decide +kernel)
  have hbefore := hall faltering _ _ _ _ _ _ _ _ _ faltering_patterned hrun
  have hpassed : ((faltering.run ordersEverywhere .reapply ⟨"system", none⟩ ⟨some false⟩ oneReading
      history).1.toOption.any fun report => report.outcomes.any fun outcome =>
        outcome.outcome = .failed && !report.resumeAfter.all fun cursor =>
          comparePositions outcome.position cursor = .gt) = true := by
    decide +kernel
  rw [hrun] at hpassed
  simp only [Except.toOption, Option.any_some, List.any_eq_true, Bool.and_eq_true,
    decide_eq_true_eq, follows_compare ReplayOutcome.position] at hpassed
  obtain ⟨outcome, houtcome, hfailed, hovertaken⟩ := hpassed
  rw [hbefore outcome houtcome hfailed] at hovertaken
  cases hovertaken

end WaslaCore.Replay
