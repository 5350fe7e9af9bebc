import WaslaCore.Data.Table
import WaslaCore.Http.Json
import WaslaCore.Identity.Service

/-!
The record of a keyed request. A request claims its key before the work, and its
answer completes the claim or its refusal releases it. A claim held past the horizon
is taken over by the next request, and a record past its retention is no record.
-/

namespace WaslaCore.Http

open Data Platform Identity

/-- How long a recorded answer is replayed for. -/
def retentionMs : Int := 24 * 60 * 60 * 1000

/-- How long a claim may be held before the next request may take it over. -/
def claimHorizonMs : Int := 60 * 1000

/-- What a handler answers with. -/
structure Answer where
  status : Nat
  body : Json

def Answer.succeeded (answer : Answer) : Bool := 200 ≤ answer.status && answer.status < 300

/-- What makes two requests the same request. `sha256` is the hash's hex digest. -/
def fingerprintRequest (sha256 : String → String) (method template : String) (body : Json) :
    String :=
  sha256 (method ++ "\x00" ++ template ++ "\x00" ++ canonicalJson body)

/-- The three columns that identify a record. -/
structure RetryLookup where
  key : String
  method : String
  scope : String
  deriving DecidableEq, Repr

/-- The primary key, as one map key. -/
def RetryLookup.id (lookup : RetryLookup) : String :=
  lookup.method ++ "\x00" ++ lookup.scope ++ "\x00" ++ lookup.key

/-- A row is a claim or a recorded answer, and only an answer has a status and a body. -/
inductive RetryState where
  | claimed
  | completed (completedAt : Int) (answer : Answer)

structure RetryRecordRow where
  lookup : RetryLookup
  requestFingerprint : String
  state : RetryState
  claimToken : String
  claimedAt : Int
  createdAt : Int
  expiresAt : Int

/-- The four situations a keyed request can be in. The instant of a granted claim is
not told to the router. -/
inductive RetryClaimOutcome where
  | claimed (claimToken : String) (claimedAt : Int)
  | completed (record : RetryRecordRow) (answer : Answer)
  | inFlight (claimedAt : Int)
  | reused

abbrev RetryRecords := Table RetryRecordRow

namespace RetryRecords

/-- The live row, or none when there is none or it has expired. -/
def live (records : RetryRecords) (now : Int) (lookup : RetryLookup) : Option RetryRecordRow :=
  match records.get lookup.id with
  | none => none
  | some found => if found.expiresAt ≤ now then none else some found

def claimRow (now : Int) (lookup : RetryLookup) (fingerprint token : String) : RetryRecordRow :=
  { lookup := lookup
    requestFingerprint := fingerprint
    state := .claimed
    claimToken := token
    claimedAt := now
    createdAt := now
    expiresAt := now + retentionMs }

def isAbandoned (row : RetryRecordRow) (now : Int) : Bool :=
  match row.state with
  | .claimed => row.claimedAt + claimHorizonMs ≤ now
  | .completed _ _ => false

/-- What a row that is not abandoned answers. The fingerprint before the state: a key
reused for another request is refused whether its twin has finished or not. -/
def occupied (row : RetryRecordRow) (fingerprint : String) : RetryClaimOutcome :=
  if row.requestFingerprint ≠ fingerprint then .reused
  else
    match row.state with
    | .completed _ answer => .completed row answer
    | .claimed => .inFlight row.claimedAt

def claim (records : RetryRecords) (now : Int) (lookup : RetryLookup)
    (fingerprint token : String) : RetryClaimOutcome × RetryRecords :=
  let granted := (.claimed token now, records.put lookup.id (claimRow now lookup fingerprint token))
  match records.live now lookup with
  | none => granted
  | some existing =>
      if isAbandoned existing now then granted else (occupied existing fingerprint, records)

/-- The live row where it is a claim under this token. -/
def holding (records : RetryRecords) (now : Int) (lookup : RetryLookup) (token : String) :
    Option RetryRecordRow :=
  match records.live now lookup with
  | none => none
  | some existing =>
      match existing.state with
      | .claimed => if existing.claimToken = token then some existing else none
      | .completed _ _ => none

/-- Records the answer. A JSON value comes back from `JSON.parse` as it was. -/
def complete (records : RetryRecords) (now : Int) (lookup : RetryLookup) (token : String)
    (answer : Answer) : Bool × RetryRecords :=
  match records.holding now lookup token with
  | none => (false, records)
  | some existing =>
      (true, records.put lookup.id { existing with state := .completed now answer })

def release (records : RetryRecords) (now : Int) (lookup : RetryLookup) (token : String) :
    Bool × RetryRecords :=
  match records.holding now lookup token with
  | none => (false, records)
  | some _ => (true, records.erase lookup.id)

end RetryRecords

/-! ### Refusals -/

def inFlightRetryAfterSeconds : Nat := 1

def missingIdempotencyKey (method template : String) : Refusal :=
  refused .invalidRequest (method ++ " " ++ template ++ " requires an Idempotency-Key header: " ++
    "this route has no natural key to collapse a repeat on, so the key is what lets CORE answer " ++
    "a retried request with the answer it already gave instead of creating a second row") []

def idempotencyKeyReused : Refusal :=
  refused .conflict "this Idempotency-Key was already used with a different request" []

def idempotencyKeyInFlight (claimedAt : Int) : Refusal :=
  { error := ⟨.conflict, "an identical request under this Idempotency-Key is already being " ++
      "processed: it was not run again, and nothing was created. Resend the identical request " ++
      "after retry-after to be given the answer the first one produced",
      some inFlightRetryAfterSeconds⟩
    details := [("claimed_at", .number claimedAt)] }

/-! ### What the operations do -/

namespace RetryRecords

variable {records : RetryRecords} {now : Int} {lookup : RetryLookup} {token : String}

theorem live_eq_some {row : RetryRecordRow} :
    records.live now lookup = some row ↔
      records.get lookup.id = some row ∧ now < row.expiresAt := by
  unfold live
  cases records.get lookup.id with
  | none => simp
  | some found =>
      by_cases hexpired : found.expiresAt ≤ now
      · simp only [if_pos hexpired, reduceCtorEq, Option.some.injEq, false_iff, not_and, not_lt]
        exact fun hsame => hsame ▸ hexpired
      · simp only [if_neg hexpired, Option.some.injEq]
        exact ⟨fun hsame => ⟨hsame, hsame ▸ not_le.mp hexpired⟩, fun h => h.1⟩

theorem live_eq_none :
    records.live now lookup = none ↔
      ∀ row, records.get lookup.id = some row → row.expiresAt ≤ now := by
  unfold live
  cases records.get lookup.id with
  | none => simp
  | some found =>
      by_cases hexpired : found.expiresAt ≤ now
      · simp [hexpired]
      · simp [hexpired]

theorem holding_eq_some {row : RetryRecordRow} :
    records.holding now lookup token = some row ↔ records.live now lookup = some row ∧
      row.state = .claimed ∧ row.claimToken = token := by
  unfold holding
  cases records.live now lookup with
  | none => simp
  | some existing =>
      obtain ⟨_, _, state, existingToken, _, _, _⟩ := existing
      cases state with
      | completed completedAt answer =>
          simp only [reduceCtorEq, Option.some.injEq, false_iff]
          rintro ⟨rfl, hclaimed, -⟩
          cases hclaimed
      | claimed =>
          by_cases htoken : existingToken = token
          · simp only [if_pos htoken, Option.some.injEq]
            exact ⟨fun hsame => hsame ▸ ⟨rfl, rfl, htoken⟩, fun h => h.1⟩
          · simp only [if_neg htoken, reduceCtorEq, Option.some.injEq, false_iff]
            rintro ⟨rfl, -, hsame⟩
            exact htoken hsame

/-- A token that is not the live claim's completes nothing and releases nothing. -/
theorem stale_token (answer : Answer)
    (h : ∀ row, records.live now lookup = some row → row.state = .claimed →
      row.claimToken ≠ token) :
    records.complete now lookup token answer = (false, records) ∧
      records.release now lookup token = (false, records) := by
  have hnone : records.holding now lookup token = none := by
    cases hholding : records.holding now lookup token with
    | none => rfl
    | some row =>
        obtain ⟨hlive, hstate, htoken⟩ := holding_eq_some.mp hholding
        exact absurd htoken (h row hlive hstate)
  exact ⟨by simp [complete, hnone], by simp [release, hnone]⟩

/-- A release that was applied leaves the key free: the next request is granted its
claim at once. -/
theorem release_frees (h : (records.release now lookup token).1 = true) :
    (records.release now lookup token).2.live now lookup = none ∧
      ∀ later fingerprint token', ((records.release now lookup token).2.claim later lookup
        fingerprint token').1 = .claimed token' later := by
  have hgone : (records.release now lookup token).2.get lookup.id = none := by
    unfold release at h ⊢
    cases hholding : records.holding now lookup token with
    | none => simp [hholding] at h
    | some row => simp [Table.get_erase]
  have hlive : ∀ later, (records.release now lookup token).2.live later lookup = none :=
    fun later => live_eq_none.mpr fun row hrow => by simp [hgone] at hrow
  exact ⟨hlive now, fun later fingerprint token' => by simp [claim, hlive later]⟩

theorem occupied_ne_claimed (row : RetryRecordRow) (fingerprint token : String)
    (claimedAt : Int) : occupied row fingerprint ≠ .claimed token claimedAt := by
  unfold occupied
  split
  · simp
  · split <;> simp

/-- A claim is granted where no live claim or record stands, or is refused as it stands. -/
theorem claim_cases (records : RetryRecords) (now : Int) (lookup : RetryLookup)
    (fingerprint token : String) :
    ((∀ row, records.live now lookup = some row → isAbandoned row now = true) ∧
      records.claim now lookup fingerprint token = (.claimed token now,
        records.put lookup.id (claimRow now lookup fingerprint token))) ∨
    ∃ row, records.live now lookup = some row ∧
      records.claim now lookup fingerprint token =
        (occupied row fingerprint, records) := by
  unfold claim
  cases records.live now lookup with
  | none => exact .inl ⟨by simp, rfl⟩
  | some row =>
      by_cases habandoned : isAbandoned row now = true
      · simp [habandoned]
      · simp [habandoned]

/-- A claim that is refused with a recorded answer came upon its row. -/
theorem occupied_completed {row record : RetryRecordRow} {fingerprint : String} {answer : Answer}
    (h : occupied row fingerprint = .completed record answer) :
    record = row ∧ row.requestFingerprint = fingerprint ∧
      ∃ completedAt, row.state = .completed completedAt answer := by
  obtain ⟨_, rowFingerprint, state, _, _, _, _⟩ := row
  unfold occupied at h
  split at h
  · cases h
  · rename_i hfingerprint
    cases state with
    | claimed => cases h
    | completed completedAt recordedAnswer =>
        obtain ⟨rfl, rfl⟩ := RetryClaimOutcome.completed.inj h
        exact ⟨rfl, not_not.mp hfingerprint, completedAt, rfl⟩

end RetryRecords

end WaslaCore.Http
