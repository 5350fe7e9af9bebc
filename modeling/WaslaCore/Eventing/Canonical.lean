import WaslaCore.Eventing.Contracts
import WaslaCore.Eventing.Readable

/-!
What normalisation accepts, what it makes of it, and that doing it twice changes nothing.
An event of a contracted type is accepted where its payload meets the contract and its time
can be read. The canonical event is an envelope again, and is read as itself.
-/

namespace WaslaCore.Eventing

open Platform Data Http

/-- An instant that was read is read back from its own spelling. -/
def Dates.Stable (dates : Dates) : Prop :=
  ∀ text instant, dates.parse text = some instant →
    dates.parse (dates.toISOString instant) = some instant

/-! ### Contracts are fixed points -/

section Contracts

variable {dates : Dates} {contract : PayloadContract} {payload : Fields}

/-- A canonical value keeps its rule, and is its own canonical value. -/
theorem FieldRule.canonical_stable (hdates : dates.Stable) {rule : FieldRule} {found : Option Json}
    (h : rule.meets dates found = true) :
    rule.meets dates (some (rule.canonical dates found)) = true ∧
      rule.canonical dates (some (rule.canonical dates found)) = rule.canonical dates found := by
  cases rule with
  | instant =>
      rcases found with _ | ⟨_ | _ | _ | value | _ | _⟩ <;> try cases h
      obtain ⟨time, htime⟩ := Option.isSome_iff_exists.mp h
      have hagain := hdates value time htime
      simp only [canonical, htime, meets, hagain, Option.isSome_some, and_self]
  | reference =>
      cases found with
      | none => exact ⟨rfl, rfl⟩
      | some value => exact ⟨h, rfl⟩
  | text | id | oneOf allowed | rating =>
      cases found with
      | none => cases h
      | some value => exact ⟨h, rfl⟩

theorem PayloadContract.canonical_names :
    (contract.canonical dates payload).map Prod.fst = contract.map Prod.fst := by
  simp [PayloadContract.canonical, Function.comp_def]

theorem PayloadContract.findEntry_canonical (hnames : (contract.map Prod.fst).Nodup)
    {field : String × FieldRule} (hfield : field ∈ contract) :
    findEntry field.1 (contract.canonical dates payload) =
      some (field.2.canonical dates (findEntry field.1 payload)) := by
  have hnodup : ((contract.canonical dates payload).map Prod.fst).Nodup := by
    rwa [PayloadContract.canonical_names]
  rw [findEntry_eq_some hnodup]
  exact List.mem_map_of_mem hfield

/-- The canonical form of what meets a contract meets it, and is its own canonical form. -/
theorem PayloadContract.Met.canonical (hdates : dates.Stable) (hnames : (contract.map Prod.fst).Nodup)
    (h : contract.Met dates payload) :
    contract.Met dates (contract.canonical dates payload) ∧
      contract.canonical dates (contract.canonical dates payload) =
        contract.canonical dates payload := by
  refine ⟨⟨?_, ?_⟩, ?_⟩
  · intro name hname
    rwa [PayloadContract.canonical_names] at hname
  · intro field hfield
    rw [PayloadContract.findEntry_canonical hnames hfield]
    exact (FieldRule.canonical_stable hdates (h.2 field hfield)).1
  · apply List.map_congr_left
    intro field hfield
    rw [PayloadContract.findEntry_canonical hnames hfield,
      (FieldRule.canonical_stable hdates (h.2 field hfield)).2]

end Contracts

/-! ### The rule of a type -/

theorem organizationId_written (dates : Dates) (canonical : CanonicalPayload) :
    canonical.organizationId = textMember (canonical.fields dates) "organization_id" := by
  cases canonical <;> rfl

/-- A contracted type has one rule, which reads its contract, and a tenant that its canonical
payload decides. -/
theorem rules_read (dates : Dates) {eventType : String} {contract : PayloadContract}
    (h : (eventType, contract) ∈ contracts) :
    eventType ∉ inheritedNames ∧ (contract.map Prod.fst).Nodup ∧
      ∃ normalizer tenant, findEntry eventType (rules dates) = some ⟨[("1", normalizer)], tenant⟩ ∧
        ReadsContract dates normalizer contract ∧
        ∀ first second : CanonicalPayload, first.fields dates = second.fields dates →
          tenant first = tenant second := by
  have htenant : ∀ first second : CanonicalPayload, first.fields dates = second.fields dates →
      first.organizationId = second.organizationId := by
    intro first second hsame
    rw [organizationId_written dates, organizationId_written dates, hsame]
  simp only [contracts, List.mem_cons, Prod.mk.injEq, List.not_mem_nil, or_false] at h
  rcases h with ⟨rfl, rfl⟩ | ⟨rfl, rfl⟩ | ⟨rfl, rfl⟩ | ⟨rfl, rfl⟩ | ⟨rfl, rfl⟩ | ⟨rfl, rfl⟩
  · exact ⟨by decide, by decide, _, _, rfl, orderCreatedV1_reads dates, htenant⟩
  · exact ⟨by decide, by decide, _, _, rfl, reviewRatedV1_reads dates, htenant⟩
  · exact ⟨by decide, by decide, _, _, rfl, reviewRetractedV1_reads dates, htenant⟩
  · exact ⟨by decide, by decide, _, _, rfl, jobAcceptedV1_reads dates, fun _ _ _ => rfl⟩
  · exact ⟨by decide, by decide, _, _, rfl, jobRejectedV1_reads dates, fun _ _ _ => rfl⟩
  · exact ⟨by decide, by decide, _, _, rfl, jobCompletedV1_reads dates, fun _ _ _ => rfl⟩

/-! ### Canonical events -/

def nullableText : Option String → Json
  | some value => .text value
  | none => .null

/-- The canonical event as it is written out, the verbatim envelope aside. -/
def CanonicalEvent.written (dates : Dates) (event : CanonicalEvent) : Fields :=
  [("event_id", .text event.envelope.eventId), ("event_type", .text event.envelope.eventType),
    ("version", .number event.envelope.version), ("producer", .text event.envelope.producer),
    ("occurred_at", .text (dates.toISOString event.occurredAt)),
    ("received_at", .text (dates.toISOString event.receivedAt)),
    ("correlation_id", .text event.envelope.correlationId),
    ("causation_id", nullableText event.envelope.causationId),
    ("entity_type", .text event.envelope.entityType), ("entity_id", .text event.envelope.entityId),
    ("organization_id", nullableText event.organizationId),
    ("payload", .object (event.payload.fields dates))]

/-- The envelope that came, with the canonical time and payload in it. -/
def CanonicalEvent.asEnvelope (dates : Dates) (event : CanonicalEvent) : Envelope :=
  { event.envelope with
    occurredAt := dates.toISOString event.occurredAt
    payload := .object (event.payload.fields dates) }

/-- The canonical event is an envelope. -/
theorem readEnvelope_written (dates : Dates) (event : CanonicalEvent) :
    readEnvelope (.object (event.written dates)) = some (event.asEnvelope dates) := by
  obtain ⟨⟨_, _, _, _, _, _, causationId, _, _, _⟩, _, _, _, _⟩ := event
  cases causationId <;> rfl

section Normalising

variable {dates : Dates} {normalizer : PayloadNormalizer}
  {tenant : CanonicalPayload → Option String} {event : CanonicalEvent}

/-- An envelope of a known type and version is what its payload and its time are read as. -/
theorem normalize_ok_iff (envelope : Envelope) (receivedAt : Int)
    (hordinary : envelope.eventType ∉ inheritedNames)
    (hrules : findEntry envelope.eventType (rules dates) = some ⟨[("1", normalizer)], tenant⟩)
    (hversion : envelope.version = "1") :
    normalize dates envelope receivedAt = .ok event ↔
      ∃ payload canonical occurredAt, envelope.payload = .object payload ∧
        normalizer payload = .ok canonical ∧ dates.parse envelope.occurredAt = some occurredAt ∧
        event = ⟨envelope, occurredAt, receivedAt, tenant canonical, canonical⟩ := by
  have hfound : findEntry envelope.version [("1", normalizer)] = some normalizer := by
    rw [hversion]
    rfl
  unfold normalize
  rw [if_neg hordinary, hrules]
  simp only [hfound]
  constructor
  · intro h
    split at h
    · rename_i payload hpayload
      split at h
      · cases h
      · rename_i canonical hcanonical
        split at h
        · cases h
        · rename_i occurredAt hoccurred
          exact ⟨payload, canonical, occurredAt, hpayload, hcanonical, hoccurred,
            (Except.ok.inj h).symm⟩
    · cases h
  · rintro ⟨payload, canonical, occurredAt, hpayload, hcanonical, hoccurred, rfl⟩
    simp only [hpayload, hcanonical, hoccurred]

end Normalising

/-- An event of a contracted type is accepted exactly where its time can be read and its
payload is an object that meets the contract. Its canonical payload is then the contract's
fields, each with the value sent, an instant spelled anew and a missing reference null; and
the canonical event is accepted again and read as itself. -/
theorem normalize_exact {dates : Dates} (hdates : dates.Stable) {contract : PayloadContract}
    {envelope : Envelope} (hcontract : (envelope.eventType, contract) ∈ contracts)
    (hversion : envelope.version = "1") (receivedAt : Int) :
    ((∃ event, normalize dates envelope receivedAt = .ok event) ↔
        (∃ payload, envelope.payload = .object payload ∧ contract.Met dates payload) ∧
          (dates.parse envelope.occurredAt).isSome) ∧
      ∀ event, normalize dates envelope receivedAt = .ok event →
        (∀ payload, envelope.payload = .object payload →
          event.payload.fields dates = contract.canonical dates payload) ∧
        ∃ again, normalizeRaw dates (.object (event.written dates)) receivedAt = .ok again ∧
          again.written dates = event.written dates := by
  obtain ⟨hordinary, hnames, normalizer, tenant, hrules, hreads, htenant⟩ :=
    rules_read dates hcontract
  have haccepted : ∀ event, normalize dates envelope receivedAt = .ok event ↔ _ :=
    fun event => normalize_ok_iff envelope receivedAt hordinary hrules hversion
  refine ⟨⟨?_, ?_⟩, ?_⟩
  · rintro ⟨event, hevent⟩
    obtain ⟨payload, canonical, occurredAt, hpayload, hcanonical, hoccurred, -⟩ :=
      (haccepted event).mp hevent
    refine ⟨⟨payload, hpayload, (hreads.reads payload canonical hcanonical).1⟩, ?_⟩
    rw [hoccurred, Option.isSome_some]
  · rintro ⟨⟨payload, hpayload, hmet⟩, hreadable⟩
    obtain ⟨canonical, hcanonical⟩ := hreads.accepts payload hmet
    obtain ⟨occurredAt, hoccurred⟩ := Option.isSome_iff_exists.mp hreadable
    exact ⟨_, (haccepted _).mpr ⟨payload, canonical, occurredAt, hpayload, hcanonical, hoccurred, rfl⟩⟩
  · intro event hevent
    obtain ⟨payload, canonical, occurredAt, hpayload, hcanonical, hoccurred, rfl⟩ :=
      (haccepted event).mp hevent
    obtain ⟨hmet, hfields⟩ := hreads.reads payload canonical hcanonical
    obtain ⟨hmet', hsame⟩ := hmet.canonical hdates hnames
    obtain ⟨canonical', hcanonical'⟩ := hreads.accepts _ hmet'
    obtain ⟨-, hfields'⟩ := hreads.reads _ canonical' hcanonical'
    have hagain : canonical'.fields dates = canonical.fields dates := by
      rw [hfields', hsame, hfields]
    constructor
    · intro payload' hpayload'
      obtain rfl := Json.object.inj (hpayload.symm.trans hpayload')
      exact hfields
    · have hread := (normalize_ok_iff (CanonicalEvent.asEnvelope dates
        ⟨envelope, occurredAt, receivedAt, tenant canonical, canonical⟩) receivedAt hordinary hrules
          hversion).mpr ⟨canonical.fields dates, canonical', occurredAt, rfl, hfields ▸ hcanonical',
            hdates _ _ hoccurred, rfl⟩
      refine ⟨⟨CanonicalEvent.asEnvelope dates
        ⟨envelope, occurredAt, receivedAt, tenant canonical, canonical⟩, occurredAt, receivedAt,
          tenant canonical', canonical'⟩, ?_, ?_⟩
      · unfold normalizeRaw
        rw [readEnvelope_written]
        exact hread
      · simp only [CanonicalEvent.written, CanonicalEvent.asEnvelope, hagain,
          htenant canonical' canonical hagain]

/-! A job accepted at one in the morning, an hour east of Greenwich. -/

/-- A date reader that knows one instant, in two spellings. -/
def newYear : Dates where
  parse text :=
    if text = "2026-01-01T01:00:00+01:00" ∨ text = "2026-01-01T00:00:00.000Z" then
      some 1767225600000
    else none
  toISOString _ := "2026-01-01T00:00:00.000Z"

theorem newYear_stable : newYear.Stable := by
  intro text instant h
  simp only [newYear] at h ⊢
  split at h
  · cases h
    rfl
  · cases h

def acceptedPayload : Fields :=
  [("fulfillment_id", .text "6c0a8a4e-95f8-4c39-8a3c-2a3cde5f1f10"), ("job_id", .text "job-1"),
    ("accepted_at", .text "2026-01-01T01:00:00+01:00")]

def acceptedEnvelope : Envelope :=
  ⟨"0b1f7a62-4a0e-4a3a-9d6b-6f7f4b0f2c11", "move.job.accepted", "1", "wasla-move",
    "2026-01-01T01:00:00+01:00", "order-1", none, "job", "job-1", .object acceptedPayload⟩

def acceptedEvent : CanonicalEvent :=
  ⟨acceptedEnvelope, 1767225600000, 1767225600000, none,
    .jobAccepted ⟨"6c0a8a4e-95f8-4c39-8a3c-2a3cde5f1f10", "job-1", 1767225600000⟩⟩

theorem normalize_accepted :
    normalize newYear acceptedEnvelope 1767225600000 = .ok acceptedEvent := by
  rfl

/-- The canonical value of an instant is not the value sent. -/
theorem normalize_exact_fails :
    ¬∀ (dates : Dates) (envelope : Envelope) (payload : Fields) (receivedAt : Int)
        (event : CanonicalEvent), dates.Stable → envelope.payload = .object payload →
        normalize dates envelope receivedAt = .ok event →
        ∀ entry ∈ event.payload.fields dates, findEntry entry.1 payload = some entry.2 := by
  intro h
  have hsent := h newYear acceptedEnvelope acceptedPayload 1767225600000 acceptedEvent newYear_stable
    rfl normalize_accepted ("accepted_at", .text "2026-01-01T00:00:00.000Z") (by simp [acceptedEvent,
      CanonicalPayload.fields, newYear])
  have hvalue := Json.text.inj (Option.some.inj hsent)
  exact absurd hvalue (by decide)

theorem normalize_exact_accepted :
    ("move.job.accepted", [("fulfillment_id", FieldRule.id), ("job_id", .text),
        ("accepted_at", .instant)]) ∈ contracts ∧ newYear.Stable ∧
      (∃ event, normalize newYear acceptedEnvelope 1767225600000 = .ok event) ∧
      ∃ again, normalizeRaw newYear (.object (acceptedEvent.written newYear)) 1767225600000 =
        .ok again ∧ again.written newYear = acceptedEvent.written newYear := by
  have hcontract : ("move.job.accepted", [("fulfillment_id", FieldRule.id), ("job_id", .text),
      ("accepted_at", .instant)]) ∈ contracts := by
    decide
  have hexact := @normalize_exact newYear newYear_stable _ acceptedEnvelope hcontract rfl
    1767225600000
  exact ⟨hcontract, newYear_stable, ⟨_, normalize_accepted⟩,
    (hexact.2 acceptedEvent normalize_accepted).2⟩

end WaslaCore.Eventing
