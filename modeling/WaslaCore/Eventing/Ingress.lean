import WaslaCore.Data.Table
import WaslaCore.Eventing.Normalize
import WaslaCore.Interleaving.Tally

/-!
The edge through which other systems drive CORE. A submission is refused for who sends it,
for what it claims to be and for what CORE cannot read; what is left is recorded once, in
one check-then-write, whichever of several copies comes first.
-/

namespace WaslaCore.Eventing

open Platform Data Http Interleaving Identity

/-! ### The inbound store -/

inductive InboundStatus where
  | pending
  | processed
  | dead
  deriving DecidableEq, Repr

/-- How far an inbound row has come. -/
structure InboundProgress where
  status : InboundStatus
  attempts : Nat
  lastError : Option String
  nextAttemptAt : Int
  processedAt : Option Int
  claimedAt : Option Int
  reclaims : Nat
  claimToken : Option String
  deriving DecidableEq, Repr

structure InboundRecord extends InboundProgress where
  event : Envelope
  receivedAt : Int

abbrev InboundStore := Table InboundRecord

def acceptedRecord (event : Envelope) (now : Int) : InboundRecord where
  event := event
  receivedAt := now
  status := .pending
  attempts := 0
  lastError := none
  nextAttemptAt := now
  processedAt := none
  claimedAt := none
  reclaims := 0
  claimToken := none

/-- `InMemoryInboundEventStore.accept`. Of the columns only the identifier can still be
refused: the rest of a normalised envelope fits. -/
def InboundStore.accept (store : InboundStore) (event : Envelope) (now : Int) :
    Except String (Bool × InboundStore) :=
  if (store.get event.eventId).isSome then .ok (false, store)
  else if isId event.eventId then .ok (true, store.put event.eventId (acceptedRecord event now))
  else .error ("invalid input syntax for type uuid: \"" ++ event.eventId ++ "\"")

/-! ### Submissions -/

/-- `INGRESS_PRODUCERS`: what the types of each producer begin with. -/
def ingressProducers : List (String × String) :=
  [("wasla-market", "market."), ("wasla-move", "move.")]

structure IngressResult where
  eventId : String
  accepted : Bool
  firstDelivery : Bool
  deriving DecidableEq, Repr

/-- What a submission awaits; `accept` is one transaction. -/
inductive IngressEffect where
  | clock
  | accept (event : Envelope)

@[reducible] def IngressEffect.Answer : IngressEffect → Type
  | .clock => Int
  | .accept _ => Except String Bool

/-- What a submission raises: a refusal of its own, or whatever else went wrong. -/
inductive IngressError where
  | refused (refusal : Refusal)
  | other (message : String)
  deriving DecidableEq, Repr

abbrev Submission := Process IngressEffect IngressEffect.Answer IngressError IngressResult

def beginsWith (start text : String) : Bool := start.toList.isPrefixOf text.toList

def unreadable : NormalizationFailure → IngressError
  | .rejected rejection detail =>
      .refused (refused .invalidRequest detail [("rejection", .text rejection.name)])
  | .raised message => .other message

/-- `submit`. The service name is the credential's, never the request's. -/
def submit (dates : Dates) (serviceName : Option String) (event : Json) : Submission :=
  match serviceName.bind (fun name => findEntry name ingressProducers) with
  | none => throw (.refused (forbidden "this caller may not submit events" []))
  | some source =>
      match readEnvelope event with
      | none => throw (.refused (refused .invalidRequest "invalid event envelope" []))
      | some envelope =>
          if !beginsWith source envelope.eventType then
            throw (.refused (forbidden ("this caller may only submit " ++ source ++ "* events") []))
          else if some envelope.producer ≠ serviceName then
            throw (.refused (forbidden "envelope producer does not match the authenticated caller" []))
          else do
            let now : Int ← Process.act .clock .done
            match normalize dates envelope now with
            | .error failure => throw (unreadable failure)
            | .ok _ => do
                let outcome : Except String Bool ← Process.act (.accept envelope) .done
                match outcome with
                | .error message => throw (.other message)
                | .ok first => pure ⟨envelope.eventId, true, first⟩

/-! ### The edge -/

/-- What the store does not decide: its clock, a failure of the transaction, and what the
workers behind it make of a row meanwhile. -/
inductive IngressTurn where
  | reading (now : Int)
  | failing (message : String)
  | worked (eventId : String) (progress : InboundProgress)

def InboundStore.answer (store : InboundStore) :
    (effect : IngressEffect) → IngressTurn → Option (effect.Answer × InboundStore)
  | .clock, .reading now => some (now, store)
  | .accept event, .reading now =>
      match store.accept event now with
      | .ok (first, store') => some (.ok first, store')
      | .error message => some (.error message, store)
  | .accept _, .failing message => some (.error message, store)
  | _, _ => none

/-- A worker moves a row along; it neither removes one nor rewrites its event. -/
def InboundStore.happen (store : InboundStore) : IngressTurn → Option InboundStore
  | .worked eventId progress =>
      (store.get eventId).map (fun row =>
        store.put eventId { row with toInboundProgress := progress })
  | _ => none

def ingress : System InboundStore IngressEffect IngressEffect.Answer IngressTurn where
  perform := fun effect turn store => store.answer effect turn
  tick := fun turn store => store.happen turn

/-- The submissions made, each under the service its credential names. -/
def submissions (dates : Dates) (made : Option String → Json → Prop) (call : Submission) : Prop :=
  ∃ serviceName event, made serviceName event ∧ call = submit dates serviceName event

/-! ### What a submission may store -/

/-- One accepted submission stands behind the event: its sender is the producer, the type
is one of that producer's, and CORE can read it. -/
def Trusted (dates : Dates) (made : Option String → Json → Prop) (event : Envelope) : Prop :=
  ∃ body types, made (some event.producer) body ∧ readEnvelope body = some event ∧
    findEntry event.producer ingressProducers = some types ∧
    beginsWith types event.eventType = true ∧ normalizes dates event = true

def accepts : IngressEffect → Bool
  | .accept _ => true
  | .clock => false

/-- Nothing was recorded yet, and what is to be recorded is trusted. -/
def entitled (dates : Dates) (made : Option String → Json → Prop) :
    Discipline IngressEffect IngressEffect.Answer where
  told _ _ := True
  owed seen effect := (∀ entry ∈ seen, accepts entry.1 = false) ∧
    match effect with
    | .accept event => Trusted dates made event
    | .clock => True

/-- A submission that is answered recorded its event last, and says whether it was first;
one that is refused recorded none. -/
def Answered (seen : History IngressEffect IngressEffect.Answer) :
    Except IngressError IngressResult → Prop
  | .ok result => ∃ before event first, seen = before ++ [⟨.accept event, .ok first⟩] ∧
      (∀ entry ∈ before, accepts entry.1 = false) ∧ result = ⟨event.eventId, true, first⟩
  | .error _ => ∀ entry ∈ seen, ∀ event first, entry ≠ ⟨.accept event, .ok first⟩

section Calls

variable {dates : Dates} {made : Option String → Json → Prop}

theorem submit_keeps {serviceName : Option String} {event : Json} (hmade : made serviceName event) :
    Keeps (entitled dates made) Answered (submit dates serviceName event) [] := by
  have hnothing : ∀ error, Answered [] (.error error) := by
    intro error entry hentry
    cases hentry
  unfold submit
  split
  · exact hnothing _
  · rename_i source hsource
    split
    · exact hnothing _
    · rename_i envelope henvelope
      split
      · exact hnothing _
      · rename_i htypes
        split
        · exact hnothing _
        · rename_i hproducer
          refine ⟨⟨by simp, trivial⟩, ?_⟩
          intro (now : Int) _
          dsimp only [Process.bind]
          have hclock : ∀ entry ∈ ([] ++ [⟨.clock, now⟩] :
              History IngressEffect IngressEffect.Answer), accepts entry.1 = false := by
            intro entry hentry
            rw [List.mem_singleton.mp hentry]
            rfl
          cases hread : normalize dates envelope now with
          | error failure =>
              intro entry hentry accepted first hsame
              rw [hsame] at hentry
              exact absurd (hclock _ hentry) (by simp [accepts])
          | ok canonical =>
              have hservice : serviceName = some envelope.producer :=
                (not_not.mp hproducer).symm
              subst hservice
              refine ⟨⟨hclock, event, source, hmade, henvelope, hsource, by simpa using htypes, ?_⟩, ?_⟩
              · rw [← normalize_isOk dates envelope now, hread]
                rfl
              · intro (outcome : Except String Bool) _
                cases outcome with
                | error message =>
                    intro entry hentry accepted first hsame
                    rw [hsame] at hentry
                    rcases List.mem_append.mp hentry with hold | hlast
                    · exact absurd (hclock _ hold) (by simp [accepts])
                    · cases List.mem_singleton.mp hlast
                | ok first => exact ⟨_, envelope, first, rfl, hclock, rfl⟩

theorem submissions_keep (call : Submission) (hcall : submissions dates made call) :
    Keeps (entitled dates made) Answered call [] := by
  obtain ⟨serviceName, event, hmade, rfl⟩ := hcall
  exact submit_keeps hmade

end Calls

end WaslaCore.Eventing
