import WaslaCore.Eventing.Normalize

/-!
What normalisation makes of whatever arrives. Every reader of a field answers with a value
or with a reason, so a payload of any shape is accepted or refused. The look-up of the
rules is another matter: an event type named like a property that every object inherits
finds that property, and the look into it throws.
-/

namespace WaslaCore.Eventing

open Platform Data Http

/-- `normalize`, of whatever was received. -/
def normalizeRaw (dates : Dates) (raw : Json) (receivedAt : Int) : NormalizationResult :=
  match readEnvelope raw with
  | none => .error (.rejected .envelopeMalformed "envelope is not well-formed")
  | some envelope => normalize dates envelope receivedAt

/-- The call ended in an exception, neither accepting nor refusing. -/
def Thrown (result : NormalizationResult) : Prop := ∃ message, result = .error (.raised message)

/-- Only the look-up of the rules throws. -/
theorem normalize_thrown (dates : Dates) (envelope : Envelope) (receivedAt : Int) :
    Thrown (normalize dates envelope receivedAt) ↔ envelope.eventType ∈ inheritedNames := by
  constructor
  · rintro ⟨message, hthrown⟩
    by_contra hordinary
    unfold normalize at hthrown
    rw [if_neg hordinary] at hthrown
    split at hthrown
    · cases hthrown
    split at hthrown
    · cases hthrown
    split at hthrown
    · split at hthrown
      · cases hthrown
      · split at hthrown <;> cases hthrown
    · cases hthrown
  · intro hinherited
    unfold Thrown normalize
    rw [if_pos hinherited]
    exact ⟨_, rfl⟩

/-- Normalisation accepts or refuses whatever it is given, except an envelope whose event
type names an inherited property. -/
theorem normalizeRaw_total_iff (dates : Dates) (raw : Json) (receivedAt : Int) :
    ¬Thrown (normalizeRaw dates raw receivedAt) ↔
      ∀ envelope, readEnvelope raw = some envelope → envelope.eventType ∉ inheritedNames := by
  unfold normalizeRaw
  cases hread : readEnvelope raw with
  | none =>
      constructor
      · rintro - envelope ⟨⟩
      · rintro - ⟨message, hthrown⟩
        cases hthrown
  | some envelope =>
      constructor
      · rintro hreturned found ⟨⟩ hinherited
        exact hreturned ((normalize_thrown dates envelope receivedAt).mpr hinherited)
      · intro hordinary hthrown
        exact hordinary envelope rfl ((normalize_thrown dates envelope receivedAt).mp hthrown)

/-- An envelope whose event type is `constructor`. -/
def constructorEvent : Json :=
  .object [("event_id", .text "6c0a8a4e-95f8-4c39-8a3c-2a3cde5f1f10"),
    ("event_type", .text "constructor"), ("version", .number "1"),
    ("producer", .text "wasla-market"), ("occurred_at", .text "2026-01-01T00:00:00Z"),
    ("correlation_id", .text "order-1"), ("causation_id", .null), ("entity_type", .text "order"),
    ("entity_id", .text "order-1"), ("payload", .object [])]

/-- Such an envelope is neither accepted nor refused. -/
theorem normalizeRaw_total_fails :
    ¬∀ (dates : Dates) (raw : Json) (receivedAt : Int),
      ¬Thrown (normalizeRaw dates raw receivedAt) := by
  intro h
  exact h ⟨fun _ => none, fun _ => ""⟩ constructorEvent 0 ⟨_, rfl⟩

end WaslaCore.Eventing
