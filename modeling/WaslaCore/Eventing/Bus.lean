import WaslaCore.Eventing.Store

/-!
The event bus. A publish offers the event to every matching subscription in
turn; a delivery claims the consumer's inbox entry, runs the handler, and after
a failure releases the entry and takes it again before the next attempt.
-/

namespace WaslaCore.Eventing

open Interleaving

structure Subscription where
  consumer : String
  eventType : String
  deriving DecidableEq, Repr

/-- The bus as configured. `maxAttempts` is 3 unless the constructor is told otherwise. -/
structure LocalEventBus where
  subs : List Subscription
  maxAttempts : Nat := 3
  deriving DecidableEq, Repr

namespace LocalEventBus

/-- The claim before an attempt that follows a failed one. Its answer is not read. -/
def claimAgain (consumer : String) (event : EventEnvelope) (attempts maxAttempts : Nat) :
    Call Unit :=
  if attempts < maxAttempts then do
    let _ : Bool ← await (.claim consumer event attempts)
    pure ()
  else pure ()

/-- The attempts still left, and the error that ended the last one. The failed
delivery's dead letter stays in the process and nothing modelled reads it. -/
def attempt (consumer : String) (event : EventEnvelope) (maxAttempts : Nat) :
    Nat → String → Call (Option String)
  | 0, lastError => pure (some lastError)
  | left + 1, _ =>
      let attempts := maxAttempts - left
      tryCatch (do
        let _ : Unit ← await (.handle consumer event attempts)
        pure none) fun error => do
          let _ : Unit ← await (.release consumer event attempts error.message)
          claimAgain consumer event attempts maxAttempts
          attempt consumer event maxAttempts left error.message

/-- The error that ended the attempts, or nothing on success. A refused claim is
taken for a duplicate of a delivery already handled. -/
def deliver (bus : LocalEventBus) (sub : Subscription) (event : EventEnvelope) :
    Call (Option String) := do
  let claimed : Bool ← await (.claim sub.consumer event 0)
  if claimed then attempt sub.consumer event bus.maxAttempts bus.maxAttempts ""
  else pure none

/-- `if (failure) failures.push(…)`: an empty error text counts as no failure. -/
def addFailure (failures : List String) (consumer : String) : Option String → List String
  | none => failures
  | some message =>
      if message.isEmpty then failures else failures ++ [consumer ++ ": " ++ message]

/-- Every subscriber is attempted before anything is thrown. -/
def deliverAll (bus : LocalEventBus) (event : EventEnvelope) :
    List Subscription → List String → Call (List String)
  | [], failures => pure failures
  | sub :: rest, failures =>
      if sub.eventType = event.eventType then do
        let failure ← bus.deliver sub event
        bus.deliverAll event rest (addFailure failures sub.consumer failure)
      else bus.deliverAll event rest failures

def notConsumed (event : EventEnvelope) (failures : List String) : Failure :=
  .error ("event " ++ event.eventId ++ " was not consumed by " ++ "; ".intercalate failures)

def publish (bus : LocalEventBus) (event : EventEnvelope) : Call Unit := do
  let failures ← bus.deliverAll event bus.subs []
  if failures.isEmpty then pure () else throw (notConsumed event failures)

/-! ### A publish only delivers -/

theorem claimAgain_delivers (consumer : String) (event : EventEnvelope)
    (attempts maxAttempts : Nat) :
    Avoids (fun action => ¬Delivering action)
      (claimAgain consumer event attempts maxAttempts) := by
  unfold claimAgain
  by_cases hleft : attempts < maxAttempts
  · rw [if_pos hleft]
    exact avoids_bind (avoids_await (not_not.mpr trivial)) fun (claimed : Bool) => trivial
  · rw [if_neg hleft]
    trivial

theorem attempt_delivers (consumer : String) (event : EventEnvelope) (maxAttempts left : Nat)
    (lastError : String) :
    Avoids (fun action => ¬Delivering action)
      (attempt consumer event maxAttempts left lastError) := by
  induction left generalizing lastError with
  | zero => trivial
  | succ left ih =>
      unfold attempt
      refine avoids_tryCatch ?_ fun error => ?_
      · exact avoids_bind (avoids_await (not_not.mpr trivial)) fun (_ : Unit) => trivial
      · refine avoids_bind (avoids_await (not_not.mpr trivial)) fun (_ : Unit) => ?_
        exact avoids_bind (claimAgain_delivers consumer event _ maxAttempts) fun _ => ih _

theorem deliverAll_delivers (bus : LocalEventBus) (event : EventEnvelope)
    (subs : List Subscription) (failures : List String) :
    Avoids (fun action => ¬Delivering action) (bus.deliverAll event subs failures) := by
  induction subs generalizing failures with
  | nil => trivial
  | cons sub rest ih =>
      unfold deliverAll
      by_cases htype : sub.eventType = event.eventType
      · rw [if_pos htype]
        refine avoids_bind ?_ fun _ => ih _
        unfold deliver
        refine avoids_bind (avoids_await (not_not.mpr trivial)) fun (claimed : Bool) => ?_
        cases claimed with
        | false => trivial
        | true => exact attempt_delivers sub.consumer event _ _ _
      · rw [if_neg htype]
        exact ih failures

theorem publish_delivers (bus : LocalEventBus) (event : EventEnvelope) :
    Avoids (fun action => ¬Delivering action) (bus.publish event) := by
  unfold publish
  refine avoids_bind (deliverAll_delivers bus event bus.subs []) fun failures => ?_
  by_cases hempty : failures.isEmpty
  · rw [if_pos hempty]
    trivial
  · rw [if_neg hempty]
    trivial

end LocalEventBus

end WaslaCore.Eventing
