import WaslaCore.Eventing.Normalize

/-!
What each inbound contract declares, and what CORE reads a payload as. A contract is its
fields, each with a rule; a payload meets it where every declared field keeps its rule and
no other field is there. The canonical payload is the contract's fields with the values
sent, but for an instant, which is written anew, and a reference that was left out.
-/

namespace WaslaCore.Eventing

open Platform Data Http

/-! ### Contracts -/

/-- What a contract asks of one field. -/
inductive FieldRule where
  | text
  | id
  | instant
  | reference
  | oneOf (allowed : List String)
  | rating
  deriving DecidableEq, Repr

/-- Whether what stands under the field keeps the rule. -/
def FieldRule.meets (dates : Dates) : FieldRule → Option Json → Bool
  | .text, some (.text value) => !isBlank value
  | .id, some (.text value) => isId value
  | .instant, some (.text value) => (dates.parse value).isSome
  | .reference, none => true
  | .reference, some .null => true
  | .reference, some (.text value) => !isBlank value
  | .oneOf allowed, some (.text value) => value ∈ allowed
  | .rating, some (.number literal) => literal ∈ ["1", "2", "3", "4", "5"]
  | _, _ => false

/-- What the canonical payload has under the field. -/
def FieldRule.canonical (dates : Dates) : FieldRule → Option Json → Json
  | .instant, some (.text value) =>
      match dates.parse value with
      | some time => .text (dates.toISOString time)
      | none => .text value
  | _, some value => value
  | _, none => .null

abbrev PayloadContract := List (String × FieldRule)

def contracts : List (String × PayloadContract) :=
  [("market.order.created",
      [("order_id", .text), ("organization_id", .id), ("requested_service", .text),
        ("payment_authorization_id", .reference)]),
    ("market.review.rated",
      [("review_reference", .text), ("organization_id", .id),
        ("subject_type", .oneOf ["identity", "organization"]), ("subject_id", .id),
        ("rating", .rating), ("rated_at", .instant)]),
    ("market.review.retracted",
      [("review_reference", .text), ("organization_id", .id), ("reason", .text),
        ("retracted_at", .instant)]),
    ("move.job.accepted", [("fulfillment_id", .id), ("job_id", .text), ("accepted_at", .instant)]),
    ("move.job.rejected", [("fulfillment_id", .id), ("reason", .text), ("rejected_at", .instant)]),
    ("move.job.completed",
      [("fulfillment_id", .id), ("job_id", .text), ("outcome", .oneOf ["completed", "failed"]),
        ("completed_at", .instant)])]

/-- Every declared field keeps its rule, and no other field is there. -/
def PayloadContract.Met (dates : Dates) (contract : PayloadContract) (payload : Fields) : Prop :=
  (∀ name ∈ payload.map Prod.fst, name ∈ contract.map Prod.fst) ∧
    ∀ field ∈ contract, field.2.meets dates (findEntry field.1 payload) = true

/-- The fields of the contract, each with its canonical value. -/
def PayloadContract.canonical (dates : Dates) (contract : PayloadContract) (payload : Fields) : Fields :=
  contract.map fun field => (field.1, field.2.canonical dates (findEntry field.1 payload))

def referenceJson : Option String → Json
  | some reference => .text reference
  | none => .null

def outcomeJson : Fulfillment.JobOutcome → Json
  | .completed => .text "completed"
  | .failed => .text "failed"

/-- The canonical payload as it is written out. -/
def CanonicalPayload.fields (dates : Dates) : CanonicalPayload → Fields
  | .orderCreated payload =>
      [("order_id", .text payload.orderId), ("organization_id", .text payload.organizationId),
        ("requested_service", .text payload.requestedService),
        ("payment_authorization_id", referenceJson payload.paymentAuthorizationId)]
  | .reviewRated payload =>
      [("review_reference", .text payload.reviewReference),
        ("organization_id", .text payload.organizationId),
        ("subject_type", .text payload.subjectType), ("subject_id", .text payload.subjectId),
        ("rating", .number (toString payload.rating)), ("rated_at", .text payload.ratedAt)]
  | .reviewRetracted payload =>
      [("review_reference", .text payload.reviewReference),
        ("organization_id", .text payload.organizationId), ("reason", .text payload.reason),
        ("retracted_at", .text payload.retractedAt)]
  | .jobAccepted payload =>
      [("fulfillment_id", .text payload.fulfillmentId), ("job_id", .text payload.jobId),
        ("accepted_at", .text (dates.toISOString payload.acceptedAt))]
  | .jobRejected payload =>
      [("fulfillment_id", .text payload.fulfillmentId), ("reason", .text payload.reason),
        ("rejected_at", .text (dates.toISOString payload.rejectedAt))]
  | .jobCompleted payload =>
      [("fulfillment_id", .text payload.fulfillmentId), ("job_id", .text payload.jobId),
        ("outcome", outcomeJson payload.outcome),
        ("completed_at", .text (dates.toISOString payload.completedAt))]

/-! ### Readers -/

theorem noExtraFields_ok {payload : Fields} {allowed : List String} :
    noExtraFields payload allowed = .ok () ↔
      ∀ name ∈ payload.map Prod.fst, name ∈ allowed := by
  unfold noExtraFields
  simp only [List.isEmpty_iff, List.filter_eq_nil_iff]
  split
  · rename_i hnone
    simpa using hnone
  · rename_i hsome
    simpa using hsome

section Readers

-- a check is one step, whatever text it compares
attribute [local irreducible] trim

variable (dates : Dates) {payload : Fields} {field : String}

/-- A reader answers where its rule is kept. -/
theorem requiredString_of_meets (h : FieldRule.text.meets dates (findEntry field payload) = true) :
    ∃ value, requiredString payload field = .ok value := by
  rcases hfound : findEntry field payload with _ | ⟨_ | _ | _ | value | _ | _⟩ <;>
    rw [hfound] at h <;> try cases h
  have hblank : isBlank value = false := by simpa [FieldRule.meets] using h
  exact ⟨value, by simp only [requiredString, hfound, hblank, Bool.false_eq_true, if_false]⟩

theorem requiredId_of_meets (h : FieldRule.id.meets dates (findEntry field payload) = true) :
    ∃ value, requiredId payload field = .ok value := by
  rcases hfound : findEntry field payload with _ | ⟨_ | _ | _ | value | _ | _⟩ <;>
    rw [hfound] at h <;> try cases h
  have hid : isId value = true := h
  exact ⟨value, by simp only [requiredId, hfound, hid, if_true]⟩

theorem requiredInstant_of_meets
    (h : FieldRule.instant.meets dates (findEntry field payload) = true) :
    ∃ time, requiredInstant dates payload field = .ok time := by
  rcases hfound : findEntry field payload with _ | ⟨_ | _ | _ | value | _ | _⟩ <;>
    rw [hfound] at h <;> try cases h
  obtain ⟨time, htime⟩ := Option.isSome_iff_exists.mp h
  exact ⟨time, by simp only [requiredInstant, hfound, htime]⟩

theorem optionalReference_of_meets
    (h : FieldRule.reference.meets dates (findEntry field payload) = true) :
    ∃ reference, optionalReference payload field = .ok reference := by
  rcases hfound : findEntry field payload with _ | ⟨_ | _ | _ | value | _ | _⟩ <;>
    rw [hfound] at h <;> try cases h
  · exact ⟨none, by simp only [optionalReference, hfound]⟩
  · exact ⟨none, by simp only [optionalReference, hfound]⟩
  · have hblank : isBlank value = false := by simpa [FieldRule.meets] using h
    exact ⟨some value, by
      simp only [optionalReference, hfound, hblank, Bool.false_eq_true, if_false]⟩

/-- What a reader answers is what stands there, and keeps the rule. -/
theorem requiredString_reads {value : String} (h : requiredString payload field = .ok value) :
    FieldRule.text.meets dates (findEntry field payload) = true ∧
      FieldRule.text.canonical dates (findEntry field payload) = .text value := by
  unfold requiredString at h
  split at h
  · rename_i text hfound
    split at h
    · cases h
    · rename_i hblank
      obtain rfl := Except.ok.inj h
      rw [hfound]
      exact ⟨by simpa [FieldRule.meets] using hblank, rfl⟩
  · cases h

theorem requiredId_reads {value : String} (h : requiredId payload field = .ok value) :
    FieldRule.id.meets dates (findEntry field payload) = true ∧
      FieldRule.id.canonical dates (findEntry field payload) = .text value := by
  unfold requiredId at h
  split at h
  · rename_i text hfound
    split at h
    · rename_i hid
      obtain rfl := Except.ok.inj h
      rw [hfound]
      exact ⟨hid, rfl⟩
    · cases h
  · cases h

theorem requiredInstant_reads {time : Int} (h : requiredInstant dates payload field = .ok time) :
    FieldRule.instant.meets dates (findEntry field payload) = true ∧
      FieldRule.instant.canonical dates (findEntry field payload) =
        .text (dates.toISOString time) := by
  unfold requiredInstant at h
  split at h
  · rename_i text hfound
    split at h
    · rename_i found hparse
      obtain rfl := Except.ok.inj h
      rw [hfound]
      simp only [FieldRule.meets, FieldRule.canonical, hparse, Option.isSome_some, and_self]
    · cases h
  · cases h

theorem optionalReference_reads {reference : Option String}
    (h : optionalReference payload field = .ok reference) :
    FieldRule.reference.meets dates (findEntry field payload) = true ∧
      FieldRule.reference.canonical dates (findEntry field payload) = referenceJson reference := by
  unfold optionalReference at h
  split at h
  · rename_i hfound
    obtain rfl := Except.ok.inj h
    rw [hfound]
    exact ⟨rfl, rfl⟩
  · rename_i hfound
    obtain rfl := Except.ok.inj h
    rw [hfound]
    exact ⟨rfl, rfl⟩
  · rename_i text hfound
    split at h
    · cases h
    · rename_i hblank
      obtain rfl := Except.ok.inj h
      rw [hfound]
      exact ⟨by simpa [FieldRule.meets] using hblank, rfl⟩
  · cases h

theorem requiredString_of_oneOf {allowed : List String}
    (hfull : ∀ value ∈ allowed, isBlank value = false)
    (h : (FieldRule.oneOf allowed).meets dates (findEntry field payload) = true) :
    ∃ value ∈ allowed, requiredString payload field = .ok value := by
  rcases hfound : findEntry field payload with _ | ⟨_ | _ | _ | value | _ | _⟩ <;>
    rw [hfound] at h <;> try cases h
  have hallowed : value ∈ allowed := of_decide_eq_true h
  exact ⟨value, hallowed, by
    simp only [requiredString, hfound, hfull value hallowed, Bool.false_eq_true, if_false]⟩

theorem requiredString_reads_oneOf {allowed : List String} {value : String}
    (h : requiredString payload field = .ok value) (hallowed : value ∈ allowed) :
    (FieldRule.oneOf allowed).meets dates (findEntry field payload) = true ∧
      (FieldRule.oneOf allowed).canonical dates (findEntry field payload) = .text value := by
  unfold requiredString at h
  split at h
  · rename_i text hfound
    split at h
    · cases h
    · obtain rfl := Except.ok.inj h
      rw [hfound]
      exact ⟨decide_eq_true hallowed, rfl⟩
  · cases h

/-- A rating is one of five numbers, and is written as it was sent. -/
theorem readRating_some {found : Option Json} {rating : Int} :
    readRating found = some rating ↔
      found = some (.number (toString rating)) ∧ rating ∈ [1, 2, 3, 4, 5] := by
  constructor
  · intro h
    rcases found with _ | ⟨_ | _ | literal | _ | _ | _⟩ <;> try cases h
    have hlisted : (literal, rating) ∈ [("1", (1 : Int)), ("2", 2), ("3", 3), ("4", 4), ("5", 5)] := by
      obtain ⟨front, back, hsplit, -⟩ := List.lookup_eq_some_iff.mp h
      rw [hsplit]
      exact List.mem_append_right _ List.mem_cons_self
    simp only [List.mem_cons, Prod.mk.injEq, List.not_mem_nil, or_false] at hlisted
    rcases hlisted with ⟨rfl, rfl⟩ | ⟨rfl, rfl⟩ | ⟨rfl, rfl⟩ | ⟨rfl, rfl⟩ | ⟨rfl, rfl⟩ <;>
      exact ⟨rfl, by decide⟩
  · rintro ⟨rfl, hrating⟩
    simp only [List.mem_cons, List.not_mem_nil, or_false] at hrating
    rcases hrating with rfl | rfl | rfl | rfl | rfl <;> rfl

theorem readRating_of_meets {found : Option Json} (h : FieldRule.rating.meets dates found = true) :
    ∃ rating, readRating found = some rating := by
  rcases found with _ | ⟨_ | _ | literal | _ | _ | _⟩ <;> try cases h
  simp only [FieldRule.meets, List.mem_cons, List.not_mem_nil, or_false, decide_eq_true_eq] at h
  rcases h with rfl | rfl | rfl | rfl | rfl <;> exact ⟨_, rfl⟩

theorem readRating_reads {found : Option Json} {rating : Int} (h : readRating found = some rating) :
    FieldRule.rating.meets dates found = true ∧
      FieldRule.rating.canonical dates found = .number (toString rating) := by
  obtain ⟨rfl, hrating⟩ := readRating_some.mp h
  simp only [List.mem_cons, List.not_mem_nil, or_false] at hrating
  rcases hrating with rfl | rfl | rfl | rfl | rfl <;> exact ⟨rfl, rfl⟩

end Readers

/-! ### Each type reads its contract -/

/-- The normaliser accepts what meets the contract, and reads it as the contract says. -/
structure ReadsContract (dates : Dates) (normalizer : PayloadNormalizer)
    (contract : PayloadContract) : Prop where
  accepts : ∀ payload, contract.Met dates payload → ∃ canonical, normalizer payload = .ok canonical
  reads : ∀ payload canonical, normalizer payload = .ok canonical →
    contract.Met dates payload ∧ canonical.fields dates = contract.canonical dates payload

section Types

variable (dates : Dates)

theorem orderCreatedV1_reads :
    ReadsContract dates orderCreatedV1
      [("order_id", .text), ("organization_id", .id), ("requested_service", .text),
        ("payment_authorization_id", .reference)] where
  accepts := by
    rintro payload ⟨hextra, hfields⟩
    simp only [List.forall_mem_cons] at hfields
    obtain ⟨horder, horganization, hservice, hreference, -⟩ := hfields
    obtain ⟨orderId, horder⟩ := requiredString_of_meets dates horder
    obtain ⟨organizationId, horganization⟩ := requiredId_of_meets dates horganization
    obtain ⟨requestedService, hservice⟩ := requiredString_of_meets dates hservice
    obtain ⟨reference, hreference⟩ := optionalReference_of_meets dates hreference
    have hdeclared := noExtraFields_ok.mpr hextra
    simp only [List.map_cons, List.map_nil] at hdeclared
    unfold orderCreatedV1
    rw [hdeclared, horder, horganization, hservice, hreference]
    exact ⟨_, rfl⟩
  reads := by
    intro payload canonical h
    unfold orderCreatedV1 at h
    obtain ⟨⟨⟩, hextra, h⟩ := bind_ok.mp h
    obtain ⟨orderId, horder, h⟩ := bind_ok.mp h
    obtain ⟨organizationId, horganization, h⟩ := bind_ok.mp h
    obtain ⟨requestedService, hservice, h⟩ := bind_ok.mp h
    obtain ⟨reference, hreference, h⟩ := bind_ok.mp h
    obtain rfl := Except.ok.inj h
    have horder := requiredString_reads dates horder
    have horganization := requiredId_reads dates horganization
    have hservice := requiredString_reads dates hservice
    have hreference := optionalReference_reads dates hreference
    refine ⟨⟨noExtraFields_ok.mp hextra, ?_⟩, ?_⟩
    · simp only [List.forall_mem_cons]
      exact ⟨horder.1, horganization.1, hservice.1, hreference.1, by simp⟩
    · simp only [PayloadContract.canonical, List.map_cons, List.map_nil, horder.2, horganization.2,
        hservice.2, hreference.2, CanonicalPayload.fields]

theorem reviewRetractedV1_reads :
    ReadsContract dates (reviewRetractedV1 dates)
      [("review_reference", .text), ("organization_id", .id), ("reason", .text), ("retracted_at", .instant)] where
  accepts := by
    rintro payload ⟨hextra, hfields⟩
    simp only [List.forall_mem_cons] at hfields
    obtain ⟨hreference, horganization, hreason, hretracted, -⟩ := hfields
    obtain ⟨reviewReference, hreference⟩ := requiredString_of_meets dates hreference
    obtain ⟨organizationId, horganization⟩ := requiredId_of_meets dates horganization
    obtain ⟨reason, hreason⟩ := requiredString_of_meets dates hreason
    obtain ⟨retractedAt, hretracted⟩ := requiredInstant_of_meets dates hretracted
    have hdeclared := noExtraFields_ok.mpr hextra
    simp only [List.map_cons, List.map_nil] at hdeclared
    unfold reviewRetractedV1
    rw [hdeclared, hreference, horganization, hreason, hretracted]
    exact ⟨_, rfl⟩
  reads := by
    intro payload canonical h
    unfold reviewRetractedV1 at h
    obtain ⟨⟨⟩, hextra, h⟩ := bind_ok.mp h
    obtain ⟨reviewReference, hreference, h⟩ := bind_ok.mp h
    obtain ⟨organizationId, horganization, h⟩ := bind_ok.mp h
    obtain ⟨reason, hreason, h⟩ := bind_ok.mp h
    obtain ⟨retractedAt, hretracted, h⟩ := bind_ok.mp h
    obtain rfl := Except.ok.inj h
    have hreference := requiredString_reads dates hreference
    have horganization := requiredId_reads dates horganization
    have hreason := requiredString_reads dates hreason
    have hretracted := requiredInstant_reads dates hretracted
    refine ⟨⟨noExtraFields_ok.mp hextra, ?_⟩, ?_⟩
    · simp only [List.forall_mem_cons]
      exact ⟨hreference.1, horganization.1, hreason.1, hretracted.1, by simp⟩
    · simp only [PayloadContract.canonical, List.map_cons, List.map_nil, hreference.2, horganization.2, hreason.2, hretracted.2,
        CanonicalPayload.fields]

theorem jobAcceptedV1_reads :
    ReadsContract dates (jobAcceptedV1 dates)
      [("fulfillment_id", .id), ("job_id", .text), ("accepted_at", .instant)] where
  accepts := by
    rintro payload ⟨hextra, hfields⟩
    simp only [List.forall_mem_cons] at hfields
    obtain ⟨hfulfillment, hjob, haccepted, -⟩ := hfields
    obtain ⟨fulfillmentId, hfulfillment⟩ := requiredId_of_meets dates hfulfillment
    obtain ⟨jobId, hjob⟩ := requiredString_of_meets dates hjob
    obtain ⟨acceptedAt, haccepted⟩ := requiredInstant_of_meets dates haccepted
    have hdeclared := noExtraFields_ok.mpr hextra
    simp only [List.map_cons, List.map_nil] at hdeclared
    unfold jobAcceptedV1
    rw [hdeclared, hfulfillment, hjob, haccepted]
    exact ⟨_, rfl⟩
  reads := by
    intro payload canonical h
    unfold jobAcceptedV1 at h
    obtain ⟨⟨⟩, hextra, h⟩ := bind_ok.mp h
    obtain ⟨fulfillmentId, hfulfillment, h⟩ := bind_ok.mp h
    obtain ⟨jobId, hjob, h⟩ := bind_ok.mp h
    obtain ⟨acceptedAt, haccepted, h⟩ := bind_ok.mp h
    obtain rfl := Except.ok.inj h
    have hfulfillment := requiredId_reads dates hfulfillment
    have hjob := requiredString_reads dates hjob
    have haccepted := requiredInstant_reads dates haccepted
    refine ⟨⟨noExtraFields_ok.mp hextra, ?_⟩, ?_⟩
    · simp only [List.forall_mem_cons]
      exact ⟨hfulfillment.1, hjob.1, haccepted.1, by simp⟩
    · simp only [PayloadContract.canonical, List.map_cons, List.map_nil, hfulfillment.2, hjob.2, haccepted.2,
        CanonicalPayload.fields]

theorem jobRejectedV1_reads :
    ReadsContract dates (jobRejectedV1 dates)
      [("fulfillment_id", .id), ("reason", .text), ("rejected_at", .instant)] where
  accepts := by
    rintro payload ⟨hextra, hfields⟩
    simp only [List.forall_mem_cons] at hfields
    obtain ⟨hfulfillment, hreason, hrejected, -⟩ := hfields
    obtain ⟨fulfillmentId, hfulfillment⟩ := requiredId_of_meets dates hfulfillment
    obtain ⟨reason, hreason⟩ := requiredString_of_meets dates hreason
    obtain ⟨rejectedAt, hrejected⟩ := requiredInstant_of_meets dates hrejected
    have hdeclared := noExtraFields_ok.mpr hextra
    simp only [List.map_cons, List.map_nil] at hdeclared
    unfold jobRejectedV1
    rw [hdeclared, hfulfillment, hreason, hrejected]
    exact ⟨_, rfl⟩
  reads := by
    intro payload canonical h
    unfold jobRejectedV1 at h
    obtain ⟨⟨⟩, hextra, h⟩ := bind_ok.mp h
    obtain ⟨fulfillmentId, hfulfillment, h⟩ := bind_ok.mp h
    obtain ⟨reason, hreason, h⟩ := bind_ok.mp h
    obtain ⟨rejectedAt, hrejected, h⟩ := bind_ok.mp h
    obtain rfl := Except.ok.inj h
    have hfulfillment := requiredId_reads dates hfulfillment
    have hreason := requiredString_reads dates hreason
    have hrejected := requiredInstant_reads dates hrejected
    refine ⟨⟨noExtraFields_ok.mp hextra, ?_⟩, ?_⟩
    · simp only [List.forall_mem_cons]
      exact ⟨hfulfillment.1, hreason.1, hrejected.1, by simp⟩
    · simp only [PayloadContract.canonical, List.map_cons, List.map_nil, hfulfillment.2, hreason.2, hrejected.2,
        CanonicalPayload.fields]

theorem reviewRatedV1_reads :
    ReadsContract dates (reviewRatedV1 dates)
      [("review_reference", .text), ("organization_id", .id),
        ("subject_type", .oneOf ["identity", "organization"]), ("subject_id", .id),
        ("rating", .rating), ("rated_at", .instant)] where
  accepts := by
    rintro payload ⟨hextra, hfields⟩
    simp only [List.forall_mem_cons] at hfields
    obtain ⟨hreference, horganization, htype, hsubject, hrating, hrated, -⟩ := hfields
    obtain ⟨subjectType, hallowed, htype⟩ := requiredString_of_oneOf dates (by decide +kernel) htype
    obtain ⟨rating, hrating⟩ := readRating_of_meets dates hrating
    obtain ⟨reviewReference, hreference⟩ := requiredString_of_meets dates hreference
    obtain ⟨organizationId, horganization⟩ := requiredId_of_meets dates horganization
    obtain ⟨subjectId, hsubject⟩ := requiredId_of_meets dates hsubject
    obtain ⟨ratedAt, hrated⟩ := requiredInstant_of_meets dates hrated
    have hdeclared := noExtraFields_ok.mpr hextra
    simp only [List.map_cons, List.map_nil] at hdeclared
    have hknown : ¬(subjectType ≠ "identity" ∧ subjectType ≠ "organization") := by
      simp only [List.mem_cons, List.not_mem_nil, or_false] at hallowed
      tauto
    unfold reviewRatedV1
    simp only [hdeclared, htype, hrating, hreference, horganization, hsubject, hrated, hknown,
      bind, Except.bind, pure, Except.pure, if_false]
    exact ⟨_, rfl⟩
  reads := by
    intro payload canonical h
    unfold reviewRatedV1 at h
    obtain ⟨⟨⟩, hextra, h⟩ := bind_ok.mp h
    obtain ⟨subjectType, htype, h⟩ := bind_ok.mp h
    by_cases hunknown : subjectType ≠ "identity" ∧ subjectType ≠ "organization"
    · rw [if_pos hunknown] at h
      cases h
    rw [if_neg hunknown] at h
    cases hrating : readRating (findEntry "rating" payload) with
    | none =>
        rw [hrating] at h
        cases h
    | some rating =>
        rw [hrating] at h
        obtain ⟨_, hsame, h⟩ := bind_ok.mp h
        obtain rfl := Except.ok.inj hsame
        obtain ⟨reviewReference, hreference, h⟩ := bind_ok.mp h
        obtain ⟨organizationId, horganization, h⟩ := bind_ok.mp h
        obtain ⟨subjectId, hsubject, h⟩ := bind_ok.mp h
        obtain ⟨ratedAt, hrated, h⟩ := bind_ok.mp h
        obtain rfl := Except.ok.inj h
        have hallowed : subjectType ∈ ["identity", "organization"] := by
          simp only [List.mem_cons, List.not_mem_nil, or_false]
          tauto
        have htype := requiredString_reads_oneOf dates htype hallowed
        have hrating := readRating_reads dates hrating
        have hreference := requiredString_reads dates hreference
        have horganization := requiredId_reads dates horganization
        have hsubject := requiredId_reads dates hsubject
        have hrated := requiredInstant_reads dates hrated
        refine ⟨⟨noExtraFields_ok.mp hextra, ?_⟩, ?_⟩
        · simp only [List.forall_mem_cons]
          exact ⟨hreference.1, horganization.1, htype.1, hsubject.1, hrating.1, hrated.1, by simp⟩
        · simp only [PayloadContract.canonical, List.map_cons, List.map_nil, hreference.2, horganization.2,
            htype.2, hsubject.2, hrating.2, hrated.2, CanonicalPayload.fields]

theorem jobCompletedV1_reads :
    ReadsContract dates (jobCompletedV1 dates)
      [("fulfillment_id", .id), ("job_id", .text), ("outcome", .oneOf ["completed", "failed"]),
        ("completed_at", .instant)] where
  accepts := by
    rintro payload ⟨hextra, hfields⟩
    simp only [List.forall_mem_cons] at hfields
    obtain ⟨hfulfillment, hjob, houtcome, hcompleted, -⟩ := hfields
    obtain ⟨outcome, hallowed, houtcome⟩ := requiredString_of_oneOf dates (by decide +kernel) houtcome
    obtain ⟨fulfillmentId, hfulfillment⟩ := requiredId_of_meets dates hfulfillment
    obtain ⟨jobId, hjob⟩ := requiredString_of_meets dates hjob
    obtain ⟨completedAt, hcompleted⟩ := requiredInstant_of_meets dates hcompleted
    have hdeclared := noExtraFields_ok.mpr hextra
    simp only [List.map_cons, List.map_nil] at hdeclared
    simp only [List.mem_cons, List.not_mem_nil, or_false] at hallowed
    unfold jobCompletedV1
    rw [hdeclared, houtcome, hfulfillment, hjob, hcompleted]
    rcases hallowed with rfl | rfl <;> exact ⟨_, rfl⟩
  reads := by
    intro payload canonical h
    unfold jobCompletedV1 at h
    obtain ⟨⟨⟩, hextra, h⟩ := bind_ok.mp h
    obtain ⟨text, htext, h⟩ := bind_ok.mp h
    obtain ⟨outcome, hallowed, hwritten, h⟩ : ∃ outcome, text ∈ ["completed", "failed"] ∧
        outcomeJson outcome = .text text ∧ (do
          let fulfillmentId ← requiredId payload "fulfillment_id"
          let jobId ← requiredString payload "job_id"
          let completedAt ← requiredInstant dates payload "completed_at"
          pure (CanonicalPayload.jobCompleted ⟨fulfillmentId, jobId, outcome, completedAt⟩)) =
            Except.ok canonical := by
      by_cases hcompleted : text = "completed"
      · rw [if_pos hcompleted] at h
        exact ⟨.completed, by simp [hcompleted], by rw [hcompleted]; rfl, h⟩
      · rw [if_neg hcompleted] at h
        by_cases hfailed : text = "failed"
        · rw [if_pos hfailed] at h
          exact ⟨.failed, by simp [hfailed], by rw [hfailed]; rfl, h⟩
        · rw [if_neg hfailed] at h
          cases h
    obtain ⟨fulfillmentId, hfulfillment, h⟩ := bind_ok.mp h
    obtain ⟨jobId, hjob, h⟩ := bind_ok.mp h
    obtain ⟨completedAt, hcompleted, h⟩ := bind_ok.mp h
    obtain rfl := Except.ok.inj h
    have htext := requiredString_reads_oneOf dates htext hallowed
    have hfulfillment := requiredId_reads dates hfulfillment
    have hjob := requiredString_reads dates hjob
    have hcompleted := requiredInstant_reads dates hcompleted
    refine ⟨⟨noExtraFields_ok.mp hextra, ?_⟩, ?_⟩
    · simp only [List.forall_mem_cons]
      exact ⟨hfulfillment.1, hjob.1, htext.1, hcompleted.1, by simp⟩
    · simp only [PayloadContract.canonical, List.map_cons, List.map_nil, hfulfillment.2, hjob.2, htext.2,
        hcompleted.2, CanonicalPayload.fields, hwritten]

end Types

end WaslaCore.Eventing
