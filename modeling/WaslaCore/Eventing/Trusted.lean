import WaslaCore.Eventing.Ingress

/-!
The trust boundary over whole runs: any number of submissions, by anyone and of anything,
in any order of their steps, with workers moving the rows along meanwhile. What is stored
was sent by its producer and can be read, what is there is never rewritten by a
submission, and of all copies of one event exactly one is answered as the first.
-/

namespace WaslaCore.Eventing

open Platform Data Http Interleaving

section Boundary

variable {dates : Dates} {made : Option String → Json → Prop}

abbrev IngressWorld := World InboundStore IngressEffect IngressEffect.Answer IngressError IngressResult

/-- Rows stay, with the event and the receipt they were stored with. -/
def Retained (store store' : InboundStore) : Prop :=
  ∀ eventId row, store.get eventId = some row → ∃ row', store'.get eventId = some row' ∧
    row'.event = row.event ∧ row'.receivedAt = row.receivedAt

theorem Retained.refl (store : InboundStore) : Retained store store :=
  fun _ row hrow => ⟨row, hrow, rfl, rfl⟩

theorem Retained.trans {first second third : InboundStore} (h : Retained first second)
    (h' : Retained second third) : Retained first third := by
  intro eventId row hrow
  obtain ⟨row', hrow', hevent, hreceived⟩ := h eventId row hrow
  obtain ⟨row'', hrow'', hevent', hreceived'⟩ := h' eventId row' hrow'
  exact ⟨row'', hrow'', hevent'.trans hevent, hreceived'.trans hreceived⟩

/-- What recording an event may do: nothing, or put a row where none was. -/
theorem accept_cases {store : InboundStore} {event : Envelope} {turn : IngressTurn}
    {answer : Except String Bool} {store' : InboundStore}
    (h : store.answer (.accept event) turn = some (answer, store')) :
    ((∃ message, answer = .error message) ∧ store' = store) ∨
      (answer = .ok false ∧ (store.get event.eventId).isSome = true ∧ store' = store) ∨
        answer = .ok true ∧ store.get event.eventId = none ∧
          ∃ now, store' = store.put event.eventId (acceptedRecord event now) := by
  cases turn with
  | worked eventId progress => cases h
  | failing message =>
      obtain ⟨rfl, rfl⟩ := Prod.mk.inj (Option.some.inj h)
      exact .inl ⟨⟨message, rfl⟩, rfl⟩
  | reading now =>
      unfold InboundStore.answer InboundStore.accept at h
      dsimp only at h
      by_cases hthere : (store.get event.eventId).isSome = true
      · rw [if_pos hthere] at h
        obtain ⟨rfl, rfl⟩ := Prod.mk.inj (Option.some.inj h)
        exact .inr (.inl ⟨rfl, hthere, rfl⟩)
      · rw [if_neg hthere] at h
        have hnone : store.get event.eventId = none := by simpa using hthere
        by_cases hid : isId event.eventId = true
        · rw [if_pos hid] at h
          obtain ⟨rfl, rfl⟩ := Prod.mk.inj (Option.some.inj h)
          exact .inr (.inr ⟨rfl, hnone, now, rfl⟩)
        · rw [if_neg hid] at h
          obtain ⟨rfl, rfl⟩ := Prod.mk.inj (Option.some.inj h)
          exact .inl ⟨⟨_, rfl⟩, rfl⟩

/-- A submission's step leaves every row that is there exactly as it is. -/
theorem answer_keeps {store store' : InboundStore} {effect : IngressEffect} {turn : IngressTurn}
    {answer : effect.Answer} (h : store.answer effect turn = some (answer, store')) {eventId : String}
    {row : InboundRecord} (hrow : store.get eventId = some row) : store'.get eventId = some row := by
  cases effect with
  | clock =>
      cases turn with
      | reading now =>
          obtain ⟨rfl, rfl⟩ := Prod.mk.inj (Option.some.inj h)
          exact hrow
      | _ => cases h
  | accept event =>
      rcases accept_cases h with ⟨-, rfl⟩ | ⟨-, -, rfl⟩ | ⟨-, hnone, now, rfl⟩
      · exact hrow
      · exact hrow
      · rw [Table.get_put]
        split
        · rename_i hsame
          rw [hsame, hrow] at hnone
          cases hnone
        · exact hrow

theorem worked_cases {store store' : InboundStore} {turn : IngressTurn}
    (h : store.happen turn = some store') :
    ∃ eventId row progress, store.get eventId = some row ∧
      store' = store.put eventId { row with toInboundProgress := progress } := by
  cases turn with
  | worked eventId progress =>
      obtain ⟨row, hrow, rfl⟩ := Option.map_eq_some_iff.mp h
      exact ⟨eventId, row, progress, hrow, rfl⟩
  | _ => cases h

/-! ### The contract of the edge -/

/-- Every row under its own identifier, and each of them trusted. -/
structure Guarded (dates : Dates) (made : Option String → Json → Prop) (store : InboundStore) :
    Prop where
  keyed : ∀ eventId row, store.get eventId = some row → row.event.eventId = eventId
  trusted : ∀ eventId row, store.get eventId = some row → Trusted dates made row.event

def guarding (dates : Dates) (made : Option String → Json → Prop) :
    Contract InboundStore IngressEffect IngressEffect.Answer where
  toDiscipline := entitled dates made
  inv := Guarded dates made
  guar := Retained
  guar_refl := Retained.refl
  guar_trans := Retained.trans
  known
    | .accept event, answer, store =>
        ∀ first, (show Except String Bool from answer) = .ok first →
          (store.get event.eventId).isSome = true
    | .clock, _, _ => True
  known_stable := by
    intro effect answer store store' hretained hknown
    cases effect with
    | clock => trivial
    | accept event =>
        intro first hanswer
        obtain ⟨row, hrow⟩ := Option.isSome_iff_exists.mp (hknown first hanswer)
        obtain ⟨row', hrow', -⟩ := hretained event.eventId row hrow
        rw [hrow']
        rfl

theorem guarding_upheld :
    Upheld (guarding dates made) ingress (submissions dates made) anything where
  call := fun call hcall => (submissions_keep call hcall).mono fun _ _ _ => trivial
  tick := by
    intro turn store store' hguarded htick
    obtain ⟨eventId, row, progress, hrow, rfl⟩ := worked_cases htick
    refine ⟨⟨?_, ?_⟩, ?_⟩
    · intro other found hfound
      rw [Table.get_put] at hfound
      split at hfound
      · rename_i hsame
        obtain rfl := Option.some.inj hfound
        exact hsame ▸ hguarded.keyed eventId row hrow
      · exact hguarded.keyed other found hfound
    · intro other found hfound
      rw [Table.get_put] at hfound
      split at hfound
      · obtain rfl := Option.some.inj hfound
        exact hguarded.trusted eventId row hrow
      · exact hguarded.trusted other found hfound
    · intro other found hfound
      rw [Table.get_put]
      split
      · rename_i hsame
        rw [← hsame, hrow] at hfound
        obtain rfl := Option.some.inj hfound
        exact ⟨_, rfl, rfl, rfl⟩
      · exact ⟨found, hfound, rfl, rfl⟩
  act := by
    intro seen effect turn answer store store' hguarded _ howed _ hperform
    have hretained : Retained store store' :=
      fun _ row hrow => ⟨row, answer_keeps hperform hrow, rfl, rfl⟩
    refine ⟨trivial, ?_⟩
    cases effect with
    | clock =>
        cases turn with
        | reading now =>
            obtain ⟨rfl, rfl⟩ := Prod.mk.inj (Option.some.inj hperform)
            exact ⟨hguarded, hretained, trivial⟩
        | _ => cases hperform
    | accept event =>
        obtain ⟨-, htrusted⟩ := howed
        rcases accept_cases hperform with
          ⟨⟨message, rfl⟩, rfl⟩ | ⟨rfl, hthere, rfl⟩ | ⟨rfl, hnone, now, rfl⟩
        · refine ⟨hguarded, hretained, fun first hanswer => ?_⟩
          cases hanswer
        · exact ⟨hguarded, hretained, fun _ _ => hthere⟩
        · refine ⟨⟨?_, ?_⟩, hretained, fun _ _ => ?_⟩
          · intro other found hfound
            rw [Table.get_put] at hfound
            split at hfound
            · rename_i hsame
              obtain rfl := Option.some.inj hfound
              exact hsame
            · exact hguarded.keyed other found hfound
          · intro other found hfound
            rw [Table.get_put] at hfound
            split at hfound
            · obtain rfl := Option.some.inj hfound
              exact htrusted
            · exact hguarded.trusted other found hfound
          · rw [Table.get_put_self]
            rfl

/-! ### First deliveries -/

/-- An event recorded here, for the first time. -/
def recordsFirst (eventId : String) : (effect : IngressEffect) → effect.Answer → Nat
  | .accept event, answer =>
      match (show Except String Bool from answer) with
      | .ok true => if event.eventId = eventId then 1 else 0
      | _ => 0
  | .clock, _ => 0

/-- A submission that was answered as the first delivery of the event. -/
def isFirstDelivery (eventId : String)
    (task : Task IngressEffect IngressEffect.Answer IngressError IngressResult) : Bool :=
  match task.rest with
  | .done result => result.eventId = eventId && result.firstDelivery
  | _ => false

/-- A row is there once one submission recorded it first, and no other ever does. -/
theorem run_recorded {world : IngressWorld} (eventId : String)
    (hrun : Run ingress (submissions dates made) anything (World.initial .empty) world) :
    (if (world.store.get eventId).isSome then 1 else 0) = world.total (recordsFirst eventId) := by
  have hlevel := Run.tallies (recordsFirst eventId) (fun _ => True)
    (fun store : InboundStore => if (store.get eventId).isSome then 1 else 0) ?_ ?_ trivial hrun
  · simpa [World.initial, World.total] using hlevel.2
  · intro effect turn answer store store' _ hperform
    refine ⟨trivial, ?_⟩
    cases effect with
    | clock =>
        cases turn with
        | reading now =>
            obtain ⟨rfl, rfl⟩ := Prod.mk.inj (Option.some.inj hperform)
            rfl
        | _ => cases hperform
    | accept event =>
        rcases accept_cases hperform with
          ⟨⟨message, rfl⟩, rfl⟩ | ⟨rfl, -, rfl⟩ | ⟨rfl, hnone, now, rfl⟩
        · rfl
        · rfl
        · rw [Table.get_put]
          by_cases hown : event.eventId = eventId
          · subst hown
            simp [hnone, recordsFirst]
          · simp [hown, recordsFirst]
  · intro turn store store' _ htick
    refine ⟨trivial, ?_⟩
    obtain ⟨other, row, progress, hrow, rfl⟩ := worked_cases htick
    rw [Table.get_put]
    by_cases hown : other = eventId
    · subst hown
      simp [hrow]
    · simp [hown]

theorem gainedIn_unrecorded {seen : History IngressEffect IngressEffect.Answer} (eventId : String)
    (h : ∀ entry ∈ seen, ∀ event first, entry ≠ ⟨.accept event, .ok first⟩) :
    gainedIn (recordsFirst eventId) seen = 0 := by
  unfold gainedIn
  refine List.sum_eq_zero fun gained hgained => ?_
  obtain ⟨⟨effect, answer⟩, hentry, rfl⟩ := List.mem_map.mp hgained
  cases effect with
  | clock => rfl
  | accept event =>
      cases answer with
      | error message => rfl
      | ok first => exact absurd rfl (h _ hentry event first)

theorem gainedIn_unaccepted {seen : History IngressEffect IngressEffect.Answer} (eventId : String)
    (h : ∀ entry ∈ seen, accepts entry.1 = false) : gainedIn (recordsFirst eventId) seen = 0 := by
  refine gainedIn_unrecorded eventId fun entry hentry event first hsame => ?_
  have hnone := h entry hentry
  rw [hsame] at hnone
  cases hnone

/-- Each submission recorded an event first exactly where it is answered so. -/
theorem run_answered {world : IngressWorld} (eventId : String)
    (hrun : Run ingress (submissions dates made) anything (World.initial .empty) world) :
    world.total (recordsFirst eventId) = world.tasks.countP (isFirstDelivery eventId) := by
  have hends := Run.ends submissions_keep (fun _ => trivial) hrun
  refine World.total_countP fun task htask => ?_
  obtain ⟨seen, rest⟩ := task
  cases rest with
  | done result =>
      have hanswered : Answered seen (.ok result) := hends _ htask
      obtain ⟨before, event, first, rfl, hbefore, rfl⟩ := hanswered
      rw [gainedIn_snoc, gainedIn_unaccepted eventId hbefore, Nat.zero_add]
      cases first with
      | false => simp [isFirstDelivery, recordsFirst]
      | true => simp [isFirstDelivery, recordsFirst]
  | fail error =>
      rw [gainedIn_unrecorded eventId (hends _ htask)]
      rfl
  | act action next =>
      rw [gainedIn_unaccepted eventId (hends _ htask).1.1]
      rfl

/-- From the one world to the other: what is stored is trusted and was recorded by one of
the submissions, a refused submission recorded nothing, no submission's step touches a row
that is there, and of the submissions of one event that are answered one is the first. -/
structure TrustBoundary (dates : Dates) (made : Option String → Json → Prop)
    (world world' : IngressWorld) : Prop where
  stored : ∀ eventId row, world'.store.get eventId = some row →
    row.event.eventId = eventId ∧ Trusted dates made row.event
  refused : ∀ task ∈ world'.tasks, ∀ error, task.rest = .fail error →
    ∀ entry ∈ task.seen, ∀ event first, entry ≠ ⟨.accept event, .ok first⟩
  retained : Retained world.store world'.store
  repeated : ∀ seen effect answer next, Performs ingress world' seen effect answer next →
    ∀ eventId row, world'.store.get eventId = some row → next.store.get eventId = some row
  once : ∀ eventId,
    (∃ task ∈ world'.tasks, ∃ result, task.rest = .done result ∧ result.eventId = eventId) →
      world'.tasks.countP (isFirstDelivery eventId) = 1

/-- Any submissions by any senders of anything, in any order of their steps. -/
theorem run_trusted {world world' : IngressWorld}
    (hreached : Run ingress (submissions dates made) anything (World.initial .empty) world)
    (hrun : Run ingress (submissions dates made) anything world world') :
    TrustBoundary dates made world world' := by
  have hempty : Guarded dates made .empty := by
    refine ⟨?_, ?_⟩
    · intro eventId row hrow
      cases hrow
    · intro eventId row hrow
      cases hrow
  have hall := hreached.trans hrun
  obtain ⟨hkept, -⟩ := guarding_upheld.run (Kept.initial hempty) hreached
  obtain ⟨hkept', hretained⟩ := guarding_upheld.run hkept hrun
  have hends := Run.ends submissions_keep (fun _ => trivial) hall
  refine ⟨fun eventId row hrow => ⟨hkept'.inv.keyed eventId row hrow,
    hkept'.inv.trusted eventId row hrow⟩, ?_, hretained, ?_, ?_⟩
  · intro task htask error hrest
    have hanswered := hends task htask
    rw [hrest] at hanswered
    exact hanswered
  · intro seen effect answer next hperforms eventId row hrow
    cases hperforms with
    | intro turn hperform => exact answer_keeps hperform hrow
  · rintro eventId ⟨task, htask, result, hrest, rfl⟩
    have hanswered := hends task htask
    rw [hrest] at hanswered
    obtain ⟨before, event, first, hseen, -, rfl⟩ := hanswered
    have hthere : (world'.store.get event.eventId).isSome = true :=
      hkept'.known task htask ⟨.accept event, .ok first⟩ (by simp [hseen]) first rfl
    rw [← run_answered event.eventId hall, ← run_recorded event.eventId hall, if_pos hthere]

end Boundary

/-! ### Two copies of one order -/

def plainDates : Dates := ⟨fun _ => some 0, fun _ => "1970-01-01T00:00:00.000Z"⟩

def orderBody : Json :=
  .object [("event_id", .text "00000000-0000-4000-8000-000000000001"),
    ("event_type", .text "market.order.created"), ("version", .number "1"),
    ("producer", .text "wasla-market"), ("occurred_at", .text "1970-01-01T00:00:00.000Z"),
    ("correlation_id", .text "c-1"), ("causation_id", .null), ("entity_type", .text "order"),
    ("entity_id", .text "order-1"),
    ("payload", .object [("order_id", .text "order-1"),
      ("organization_id", .text "00000000-0000-4000-8000-000000000002"),
      ("requested_service", .text "delivery")])]

def order : Submission := submit plainDates (some "wasla-market") orderBody

/-- The other system sends the same body under its own name. -/
def spoofed : Submission := submit plainDates (some "wasla-move") orderBody

/-- Both copies are read before either is recorded. -/
def bothSent : List (Move IngressEffect IngressEffect.Answer IngressTurn IngressError IngressResult) :=
  [.start order, .start order, .start spoofed] ++ acts 0 [.reading 1] ++ acts 1 [.reading 2, .reading 3]

def otherRecorded :
    List (Move IngressEffect IngressEffect.Answer IngressTurn IngressError IngressResult) :=
  acts 0 [.reading 4]

def anyone (_ : Option String) (_ : Json) : Prop := True

theorem submissions_order : submissions plainDates anyone order := ⟨_, _, trivial, rfl⟩

theorem submissions_spoofed : submissions plainDates anyone spoofed := ⟨_, _, trivial, rfl⟩

set_option maxRecDepth 20000 in
theorem run_trusted_bothSent :
    ∃ world world', world'.store.values.length = 1 ∧
      world'.tasks.countP (isFirstDelivery "00000000-0000-4000-8000-000000000001") = 1 ∧
      TrustBoundary plainDates anyone world world' := by
  have hplays : (play ingress unrestricted bothSent (World.initial .empty)).any (fun world =>
      (play ingress unrestricted otherRecorded world).any (fun world' =>
        world'.store.values.length = 1 ∧
          world'.tasks.countP (isFirstDelivery "00000000-0000-4000-8000-000000000001") = 1)) =
      true := by
    decide +kernel
  obtain ⟨world, hworld, hnext⟩ := (Option.any_eq_true _ _).mp hplays
  obtain ⟨world', hworld', hends⟩ := (Option.any_eq_true _ _).mp hnext
  obtain ⟨hone, hfirst⟩ := of_decide_eq_true hends
  have hreached : Run ingress (submissions plainDates anyone) anything (World.initial .empty) world := by
    refine play_run hworld ?_ (fun _ _ _ _ => trivial)
    simp [bothSent, acts, submissions_order, submissions_spoofed]
  have hrun : Run ingress (submissions plainDates anyone) anything world world' := by
    refine play_run hworld' ?_ (fun _ _ _ _ => trivial)
    simp [otherRecorded, acts]
  exact ⟨world, world', hone, hfirst, run_trusted hreached hrun⟩

end WaslaCore.Eventing
