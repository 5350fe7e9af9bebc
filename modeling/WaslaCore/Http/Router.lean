import WaslaCore.Http.Retry
import WaslaCore.Interleaving.Process

/-!
The router on its keyed routes: who is calling, what was asked, the claim on the key,
the handler, and the claim settled with the handler's answer. Every one of these is an
await, so any number of requests may be between any two of them. What a handler does
besides its permission check is the environment's to decide.
-/

namespace WaslaCore.Http

open Data Platform Identity Interleaving

/-- A route that collapses a repeat against the caller's key, and the permission its
handler asks for before it does anything. -/
structure KeyedRoute where
  method : String
  template : String
  permission : Permission
  deriving DecidableEq, Repr

def keyedRoutes : List KeyedRoute :=
  [⟨"POST", "/v1/organizations", .organizationWrite⟩,
    ⟨"POST", "/v1/geography/countries", .organizationWrite⟩,
    ⟨"POST", "/v1/geography/cities", .organizationWrite⟩,
    ⟨"POST", "/v1/geography/service-areas", .organizationWrite⟩,
    ⟨"POST", "/v1/subscriptions", .subscriptionWrite⟩]

/-- A request on a keyed route, with what authentication and the parsers made of it. -/
structure Request where
  route : KeyedRoute
  authentication : Except Refusal AuthenticatedPrincipal
  body : Except Refusal Json
  idempotencyKey : Option String

/-- What the caller is sent. -/
inductive Response where
  | answered (answer : Answer)
  | replayed (answer : Answer)
  | refused (refusal : Refusal)

/-- A granted claim, with who it was granted to and for which permission. -/
structure Claim where
  lookup : RetryLookup
  token : String
  claimedAt : Int
  caller : AuthenticatedPrincipal
  permission : Permission
  deriving DecidableEq, Repr

/-- What the router awaits, and last the response it sends. A claim is made with who
asks for it, and the rest is done under the claim that was granted. -/
inductive Duty where
  | claim (lookup : RetryLookup) (fingerprint : String) (caller : AuthenticatedPrincipal)
      (permission : Permission)
  | handle (claim : Claim)
  | complete (claim : Claim) (answer : Answer)
  | release (claim : Claim)
  | respond (response : Response)

/-- The store may fail, and a handler may throw. -/
@[reducible] def Duty.Answer : Duty → Type
  | .claim _ _ _ _ => Except Unit RetryClaimOutcome
  | .handle _ => Except Refusal Http.Answer
  | .complete _ _ => Except Unit Bool
  | .release _ => Except Unit Bool
  | .respond _ => Unit

abbrev Handling := Process Duty Duty.Answer Unit Unit

def perform (duty : Duty) : Process Duty Duty.Answer Unit duty.Answer := .act duty .done

def unexpectedError : Refusal := refused .internal "unexpected error" []

def respond (response : Response) : Handling := perform (.respond response)

/-- The claim is settled one way or the other: completed on a 2xx, released on anything
else. A store that cannot do either does not change the answer. -/
def settle (claim : Claim) : Except Refusal Answer → Handling
  | .ok answer =>
      if answer.succeeded then do
        let _ : Except Unit Bool ← perform (.complete claim answer)
        respond (.answered answer)
      else do
        let _ : Except Unit Bool ← perform (.release claim)
        respond (.answered answer)
  | .error refusal => do
      let _ : Except Unit Bool ← perform (.release claim)
      respond (.refused refusal)

def work (claim : Claim) : Handling := do
  let result : Except Refusal Answer ← perform (.handle claim)
  settle claim result

/-- What the claim's outcome asks for. Only a granted claim runs the handler. -/
def follow (lookup : RetryLookup) (caller : AuthenticatedPrincipal) (permission : Permission) :
    Except Unit RetryClaimOutcome → Handling
  | .error _ => respond (.refused unexpectedError)
  | .ok (.claimed token claimedAt) => work ⟨lookup, token, claimedAt, caller, permission⟩
  | .ok (.completed _ answer) => respond (.replayed answer)
  | .ok (.inFlight claimedAt) => respond (.refused (idempotencyKeyInFlight claimedAt))
  | .ok .reused => respond (.refused idempotencyKeyReused)

/-- `Router.handle` on a keyed route. -/
def handle (sha256 : String → String) (request : Request) : Handling :=
  match request.authentication with
  | .error refusal => respond (.refused refusal)
  | .ok caller =>
      match request.body with
      | .error refusal => respond (.refused refusal)
      | .ok body =>
          match request.idempotencyKey with
          | none =>
              respond (.refused (missingIdempotencyKey request.route.method request.route.template))
          | some key => do
              let lookup : RetryLookup := ⟨key, request.route.method, request.route.template⟩
              let outcome : Except Unit RetryClaimOutcome ← perform (.claim lookup
                (fingerprintRequest sha256 request.route.method request.route.template body) caller
                request.route.permission)
              follow lookup caller request.route.permission outcome

/-- Any number of requests on the keyed routes. -/
def requests (sha256 : String → String) (call : Handling) : Prop :=
  ∃ request : Request, request.route ∈ keyedRoutes ∧ call = handle sha256 request

/-! ### The server -/

/-- A handler that has ended, under the claim it ran for. -/
structure HandlerRun where
  claim : Claim
  result : Except Refusal Answer

def HandlerRun.succeeded (run : HandlerRun) : Bool :=
  match run.result with
  | .ok answer => answer.succeeded
  | .error _ => false

/-- The records, and beside them every token drawn, the claims whose handler is still
running, those not settled yet, and every handler that has ended. -/
structure Server where
  now : Int
  records : RetryRecords
  drawn : List String
  running : List Claim
  held : List Claim
  runs : List HandlerRun

def Server.start (now : Int) : Server := ⟨now, .empty, [], [], [], []⟩

/-- What the server does not decide. -/
inductive ServerTurn where
  | proceed
  | drawn (token : String)
  | ended (result : Except Refusal Answer)
  | failed
  | elapsed (milliseconds : Nat)

namespace Server

def without (claims : List Claim) (token : String) : List Claim :=
  claims.filter (fun claim => claim.token ≠ token)

/-- A granted claim is running and held from here on. -/
def grant (server : Server) (records : RetryRecords) (claim : Claim) : Server :=
  { server with
    records := records
    drawn := claim.token :: server.drawn
    running := claim :: server.running
    held := claim :: server.held }

/-- A handler checks its permission first, and then does whatever it does. -/
def handlerResult (claim : Claim) (result : Except Refusal Answer) : Except Refusal Answer :=
  match authorize claim.caller claim.permission none with
  | .error refusal => .error refusal
  | .ok () => result

def answer (reliable : Bool) (server : Server) :
    (duty : Duty) → ServerTurn → Option (duty.Answer × Server)
  | .claim lookup fingerprint caller permission, .drawn token =>
      if token ∈ server.drawn then none
      else
        match server.records.claim server.now lookup fingerprint token with
        | (.claimed token claimedAt, records) =>
            some (.ok (.claimed token claimedAt),
              server.grant records ⟨lookup, token, claimedAt, caller, permission⟩)
        | (outcome, records) => some (.ok outcome, { server with records := records })
  | .handle claim, .ended result =>
      let result := handlerResult claim result
      some (result, { server with
        running := without server.running claim.token
        runs := ⟨claim, result⟩ :: server.runs })
  | .complete claim answer, .proceed =>
      let result := server.records.complete server.now claim.lookup claim.token answer
      some (.ok result.1, { server with
        records := result.2, held := without server.held claim.token })
  | .release claim, .proceed =>
      let result := server.records.release server.now claim.lookup claim.token
      some (.ok result.1, { server with
        records := result.2, held := without server.held claim.token })
  | .respond _, .proceed => some ((), server)
  | .claim _ _ _ _, .failed => if reliable then none else some (.error (), server)
  | .complete _ _, .failed => if reliable then none else some (.error (), server)
  | .release _, .failed => if reliable then none else some (.error (), server)
  | _, _ => none

end Server

/-- Requests on one server. `reliable` excludes failing store operations, and time never
passes the horizon of a claim that is `due` to be over by then. -/
def serving (reliable : Bool) (due : Server → List Claim) :
    System Server Duty Duty.Answer ServerTurn where
  perform := fun duty turn server => server.answer reliable duty turn
  tick := fun turn server =>
    match turn with
    | .elapsed milliseconds =>
        if ∀ claim ∈ due server, server.now + milliseconds < claim.claimedAt + claimHorizonMs then
          some { server with now := server.now + milliseconds }
        else none
    | _ => none

abbrev HttpTask := Task Duty Duty.Answer Unit Unit

abbrev HttpWorld := World Server Duty Duty.Answer Unit Unit

abbrev HttpSchedule := List (Move Duty Duty.Answer ServerTurn Unit Unit)

def principal (principalId : String) (permissions : List Permission) : AuthenticatedPrincipal :=
  { principalId := principalId, identityId := principalId, sessionId := principalId
    organizationIds := [], roles := [], permissions := permissions, serviceName := none }

/-- `POST /v1/organizations` under the key `k`. -/
def organizationRequest (caller : AuthenticatedPrincipal) : Request :=
  { route := ⟨"POST", "/v1/organizations", .organizationWrite⟩
    authentication := .ok caller
    body := .ok .null
    idempotencyKey := some "k" }

theorem requests_organizationRequest (caller : AuthenticatedPrincipal) :
    requests id (handle id (organizationRequest caller)) :=
  ⟨organizationRequest caller, by simp [organizationRequest, keyedRoutes], rfl⟩

/-- A claim is granted where no live claim or record stands, or leaves the server as it
is and answers what stands there. -/
theorem Server.answer_claim {server server' : Server} {reliable : Bool} {lookup : RetryLookup}
    {fingerprint token : String} {caller : AuthenticatedPrincipal} {permission : Permission}
    {outcome : Except Unit RetryClaimOutcome}
    (h : server.answer reliable (.claim lookup fingerprint caller permission) (.drawn token) =
      some (outcome, server')) :
    token ∉ server.drawn ∧
      (((∀ row, server.records.live server.now lookup = some row →
          RetryRecords.isAbandoned row server.now = true) ∧
        outcome = .ok (.claimed token server.now) ∧
        server' = server.grant (server.records.put lookup.id
            (RetryRecords.claimRow server.now lookup fingerprint token))
          ⟨lookup, token, server.now, caller, permission⟩) ∨
      ∃ row, server.records.live server.now lookup = some row ∧
        outcome = .ok (RetryRecords.occupied row fingerprint) ∧ server' = server) := by
  simp only [Server.answer] at h
  split at h
  · cases h
  rename_i hfresh
  refine ⟨hfresh, ?_⟩
  rcases server.records.claim_cases server.now lookup fingerprint token
    with ⟨hover, hclaim⟩ | ⟨row, hrow, hclaim⟩
  · simp only [hclaim] at h
    obtain ⟨rfl, rfl⟩ := Prod.mk.inj (Option.some.inj h)
    exact .inl ⟨hover, rfl, rfl⟩
  · rw [hclaim] at h
    refine .inr ⟨row, hrow, ?_⟩
    cases houtcome : RetryRecords.occupied row fingerprint with
    | claimed token claimedAt =>
        exact absurd houtcome (RetryRecords.occupied_ne_claimed row fingerprint _ _)
    | _ =>
        rw [houtcome] at h
        obtain ⟨rfl, rfl⟩ := Prod.mk.inj (Option.some.inj h)
        exact ⟨rfl, rfl⟩

end WaslaCore.Http
