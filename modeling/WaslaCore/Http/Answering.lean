import WaslaCore.Http.Headers
import WaslaCore.Http.Router

/-!
`Router.handle` from the request line to the sealed answer, with everything the router
awaits left to its surroundings: the limiter, the authenticator, the record store and the
handler may each fail. What is tried inside the boundary is answered whatever it throws;
the request line, the path, the limiter, the metric labels and the sealing of the
correlation identifier are outside it.
-/

namespace WaslaCore.Http

open Data Platform Identity

/-! ### Decoding a path -/

/-- An octet a percent escape stands for, or a character as it is. -/
inductive PathUnit where
  | octet (value : Nat)
  | plain (char : Char)
  deriving DecidableEq, Repr

def hexValue (char : Char) : Nat :=
  if char.isDigit then char.toNat - 48
  else if isAsciiLower char then char.toNat - 87
  else char.toNat - 55

/-- Every percent sign starts an escape of two hexadecimal digits. -/
def pathUnits : List Char → Option (List PathUnit)
  | [] => some []
  | '%' :: high :: low :: rest =>
      if isHexDigit high && isHexDigit low then
        (pathUnits rest).map (fun units => .octet (16 * hexValue high + hexValue low) :: units)
      else none
  | char :: rest =>
      if char = '%' then none else (pathUnits rest).map (fun units => .plain char :: units)

def isTail (octet : Nat) : Bool := 0x80 ≤ octet && octet ≤ 0xbf

/-- The second octet of a well-formed sequence of three octets. -/
def isSecondOfThree (first second : Nat) : Bool :=
  if first = 0xe0 then 0xa0 ≤ second && second ≤ 0xbf
  else if first = 0xed then 0x80 ≤ second && second ≤ 0x9f
  else isTail second

/-- The second octet of a well-formed sequence of four octets. -/
def isSecondOfFour (first second : Nat) : Bool :=
  if first = 0xf0 then 0x90 ≤ second && second ≤ 0xbf
  else if first = 0xf4 then 0x80 ≤ second && second ≤ 0x8f
  else isTail second

/-- The octets read as UTF-8; none where they are not. -/
def readUnits : List PathUnit → Option (List Char)
  | [] => some []
  | .plain char :: rest => (readUnits rest).map (char :: ·)
  | .octet a :: rest =>
      if a < 0x80 then (readUnits rest).map (Char.ofNat a :: ·)
      else
        match rest with
        | .octet b :: rest =>
            if 0xc2 ≤ a && a ≤ 0xdf && isTail b then
              (readUnits rest).map (Char.ofNat ((a - 0xc0) * 64 + (b - 0x80)) :: ·)
            else
              match rest with
              | .octet c :: rest =>
                  if 0xe0 ≤ a && a ≤ 0xef && isSecondOfThree a b && isTail c then
                    (readUnits rest).map (Char.ofNat ((a - 0xe0) * 4096 + (b - 0x80) * 64 +
                      (c - 0x80)) :: ·)
                  else
                    match rest with
                    | .octet d :: rest =>
                        if 0xf0 ≤ a && a ≤ 0xf4 && isSecondOfFour a b && isTail c && isTail d then
                          (readUnits rest).map (Char.ofNat ((a - 0xf0) * 262144 +
                            (b - 0x80) * 4096 + (c - 0x80) * 64 + (d - 0x80)) :: ·)
                        else none
                    | _ => none
              | _ => none
        | _ => none

/-- `decodeURIComponent`; none where it throws a `URIError`. -/
def decodeURIComponent (text : String) : Option String :=
  ((pathUnits text.toList).bind readUnits).map String.ofList

example : decodeURIComponent "caf%C3%A9" = some "café" := by decide +kernel

example : decodeURIComponent "%C0%AF" = none := by decide +kernel

/-! ### Metric labels -/

def isLabelChar (char : Char) : Bool :=
  isAsciiLower char || isAsciiDigit char || "_.:/-".toList.contains char

/-- `assertLabelValue`: a bounded enumeration, and nothing that looks like an
identifier. -/
def isLabelValue (value : String) : Bool :=
  someOf isLabelChar value.toList && value.toList.length ≤ 96 &&
    !value.toList.tails.any (fun tail =>
      matchesShape "hhhhhhhh-hhhh-hhhh-hhhh-hhhhhhhhhhhh".toList (tail.take 36) ||
        ((tail.take 24).length = 24 && (tail.take 24).all isAsciiAlnum))

/-! ### The limiter -/

inductive RateClass where
  | ingressEvents
  | write
  | read
  | unmatched
  deriving DecidableEq, Repr

def RateClass.text : RateClass → String
  | .ingressEvents => "ingress_events"
  | .write => "write"
  | .read => "read"
  | .unmatched => "unmatched"

inductive SubjectKind where
  | credential
  | network
  deriving DecidableEq, Repr

def SubjectKind.text : SubjectKind → String
  | .credential => "credential"
  | .network => "network"

structure RateLimitSubject where
  kind : SubjectKind
  hash : String
  deriving DecidableEq, Repr

inductive RateLimitDecision where
  | allowed (limit remaining resetAt : Nat)
  | refused (limit retryAfterMs resetAt : Nat)
  deriving DecidableEq, Repr

def unlimitedRoutes : List String := ["/health", "/ready", "/metrics"]

def rateClassFor (method : String) : Option String → Option RateClass
  | none => some .unmatched
  | some template =>
      if unlimitedRoutes.contains template then none
      else if template = "/v1/events" && method = "POST" then some .ingressEvents
      else if method = "GET" then some .read
      else some .write

/-- The credential of a bearer header: the scheme in any case, then white space. -/
def bearerToken (authorization : String) : Option String :=
  let rest := authorization.toList.drop 6
  if (authorization.toList.take 6).map lowerLetter = "bearer".toList &&
      !(rest.takeWhile isTrimmed).isEmpty && !(rest.dropWhile isTrimmed).isEmpty then
    some (String.ofList (rest.dropWhile isTrimmed))
  else none

def subjectFor (sha256 : String → String) (headers : RequestHeaders) : RateLimitSubject :=
  match (headers.value "authorization").bind bearerToken with
  | some token => ⟨.credential, sha256 token⟩
  | none =>
      let address := ((headers.firstForwarded "x-forwarded-for").or
        (headers.firstForwarded "x-real-ip")).or (headers.firstForwarded "x-client-ip")
      ⟨.network, sha256 (address.getD "unattributed")⟩

/-- The whole seconds an instant or a duration in milliseconds comes to. -/
def ceilSeconds (milliseconds : Nat) : Nat := (milliseconds + 999) / 1000

def retryAfterSeconds (milliseconds : Nat) : Nat := max 1 (ceilSeconds milliseconds)

def RateLimitDecision.headers : RateLimitDecision → Headers
  | .allowed limit remaining resetAt =>
      [("x-ratelimit-limit", toString limit), ("x-ratelimit-remaining", toString remaining),
        ("x-ratelimit-reset", toString (ceilSeconds resetAt))]
  | .refused limit _ resetAt =>
      [("x-ratelimit-limit", toString limit), ("x-ratelimit-remaining", toString 0),
        ("x-ratelimit-reset", toString (ceilSeconds resetAt))]

/-! ### Refusals -/

def statusForCode : ErrorCode → Nat
  | .invalidRequest => 400
  | .unauthenticated => 401
  | .forbidden => 403
  | .notFound => 404
  | .conflict => 409
  | .rateLimited => 429
  | .internal => 500
  | .unavailable => 503

/-- A refusal as its constructor leaves it: a time it states is a whole number of
seconds not below one. -/
structure CoreRefusal where
  refusal : Refusal
  stated : ∀ seconds, refusal.error.retryAfterSeconds = some seconds → 1 ≤ seconds

def CoreRefusal.status (error : CoreRefusal) : Nat := statusForCode error.refusal.error.code

def CoreRefusal.headers (error : CoreRefusal) : Headers :=
  match error.refusal.error.retryAfterSeconds with
  | none => []
  | some seconds => [("retry-after", toString seconds)]

/-- A refusal that states no time. -/
def CoreRefusal.untimed (refusal : Refusal) (h : refusal.error.retryAfterSeconds = none) :
    CoreRefusal :=
  ⟨refusal, fun _ hseconds => by rw [h] at hseconds; cases hseconds⟩

/-- A refusal as it is raised without a time. -/
def CoreRefusal.plain (refusal : Refusal) : CoreRefusal :=
  .untimed { refusal with error := ⟨refusal.error.code, refusal.error.message, none⟩ } rfl

/-- A header is refused without a time, so its refusal is sent as it is. -/
theorem parseHeaders_plain {raw : RawHeaders} {refusal : Refusal}
    (h : parseHeaders raw = .error refusal) : (CoreRefusal.plain refusal).refusal = refusal := by
  obtain ⟨message, rfl⟩ := parseHeaders_error h
  rfl

def CoreRefusal.internal : CoreRefusal := .untimed unexpectedError rfl

def rateLimited (limit retryAfterMs : Nat) : CoreRefusal where
  refusal :=
    { error := ⟨.rateLimited, "rate limit exceeded for this credential and route class",
        some (retryAfterSeconds retryAfterMs)⟩
      details := [("retry_after_ms", .number retryAfterMs), ("limit", .number limit)] }
  stated := by
    intro seconds hseconds
    rw [← Option.some.inj hseconds]
    exact Nat.le_max_left _ _

def inFlight (claimedAt : Int) : CoreRefusal where
  refusal := idempotencyKeyInFlight claimedAt
  stated := by
    intro seconds hseconds
    rw [← Option.some.inj hseconds]
    decide

/-- Whatever is thrown inside the boundary. -/
inductive Raised where
  | refusal (error : CoreRefusal)
  | other (message : String)

/-- Anything that is not a refusal is an internal error, and says nothing more. -/
def Raised.answered : Raised → CoreRefusal
  | .refusal error => error
  | .other _ => .internal

/-! ### Routes -/

/-- What a handler is given. -/
structure RequestContext (A S : Type) where
  method : String
  path : String
  params : List (String × String)
  selection : S
  input : Json
  headers : RequestHeaders
  principal : Option A
  correlationId : String

/-- A body as a handler returns it. One that is still a promise was not awaited. -/
inductive HandlerBody where
  | value (json : Json)
  | thenable

structure HandlerResult where
  status : Nat
  body : HandlerBody
  headers : Headers

/-- A registration, with what its parsers and its handler make of any request: each of
them may throw. -/
structure Route (A S : Type) where
  method : String
  template : String
  selection : String → Except Raised S
  body : Option Json → Except Raised Json
  required : Bool
  keyed : Bool
  handler : RequestContext A S → Except Raised HandlerResult

/-- `path.split("/").filter(Boolean)`. -/
def segmentsOf (path : String) : List String :=
  ((path.toList.splitOn '/').filter (fun part => !part.isEmpty)).map String.ofList

/-- The path and the query of a parsed request line. -/
structure Url where
  pathname : String
  search : String

/-- Why a request is left without an answer. -/
inductive Rejection where
  | invalidUrl
  | malformedPath
  | limiterFailed
  | unlabelled
  | unsealed
  deriving DecidableEq, Repr

/-- The segments of a route against the parts of a path, in order: a parameter is
decoded where it is reached, and the first literal that differs ends the attempt. -/
def matchSegments : List String → List String → List (String × String) →
    Except Rejection (Option (List (String × String)))
  | segment :: segments, part :: parts, params =>
      match segment.toList with
      | ':' :: name =>
          match decodeURIComponent part with
          | none => .error .malformedPath
          | some value => matchSegments segments parts (putEntry (String.ofList name) value params)
      | _ => if segment ≠ part then .ok none else matchSegments segments parts params
  | _, _, params => .ok (some params)

section Matching

variable {A S : Type}

def matchRoutes (method : String) (parts : List String) :
    List (Route A S) → Except Rejection (Option (Route A S × List (String × String)))
  | [] => .ok none
  | route :: rest =>
      if route.method ≠ method ∨ (segmentsOf route.template).length ≠ parts.length then
        matchRoutes method parts rest
      else
        match matchSegments (segmentsOf route.template) parts [] with
        | .error rejection => .error rejection
        | .ok (some params) => .ok (some (route, params))
        | .ok none => matchRoutes method parts rest

/-- The label of a request: the template of its route, never its path. -/
def routeLabel : Option (Route A S × List (String × String)) → String
  | none => "unmatched"
  | some (route, _) => route.template

end Matching

/-! ### The router -/

/-- A request as the transport hands it over. -/
structure Input where
  method : String
  url : String
  body : Option Json
  headers : RawHeaders

/-- The router and what surrounds it. An identifier it draws is one CORE issues, and a
recorded answer was a success when it was recorded. -/
structure Router (A S : Type) where
  routes : List (Route A S)
  parseUrl : String → Option Url
  sha256 : String → String
  newId : String
  issued : isId newId = true
  metrics : Bool
  limiter : Option (RateLimitSubject → RateClass → Except Unit RateLimitDecision)
  authenticate : String → Except Raised A
  claim : RetryLookup → String → Except Unit RetryClaimOutcome
  recorded : ∀ lookup fingerprint row answer,
    claim lookup fingerprint = .ok (.completed row answer) → answer.succeeded = true
  complete : RetryLookup → String → Answer → Except Unit Bool
  release : RetryLookup → String → Except Unit Bool

/-- A body as it is sent. -/
inductive SentBody where
  | value (json : Json)
  | error (refusal : Refusal) (correlationId : String)

structure Sent where
  status : Nat
  body : SentBody
  headers : Headers

namespace Router

variable {A S : Type}

/-- The labels of a request are admitted, where metrics are kept. -/
def record (router : Router A S) (label method : String) (status : Nat) :
    Except Rejection Unit :=
  if router.metrics then
    if isLabelValue label && isLabelValue (toLowerCase method) && isLabelValue (toString status) then
      .ok ()
    else .error .unlabelled
  else .ok ()

/-- The correlation identifier last, so that nothing overwrites it. -/
def sealAnswer (parts : List Headers) (correlationId : String) : Except Rejection Headers :=
  match sealHeaders (parts ++ [[("x-correlation-id", correlationId)]]) with
  | .ok sealed => .ok sealed
  | .error _ => .error .unsealed

/-- A request as far as it is known when it is answered. -/
structure Known where
  label : String
  method : String
  correlationId : String
  rateHeaders : Headers

/-- An answer the router states itself: recorded, then sealed. -/
def refuse (router : Router A S) (known : Known) (error : CoreRefusal) : Except Rejection Sent := do
  router.record known.label known.method error.status
  let headers ← sealAnswer [known.rateHeaders, error.headers] known.correlationId
  pure ⟨error.status, .error error.refusal known.correlationId, headers⟩

/-- A request over its budget is recorded, then counted by its class and the kind of its
subject, then sealed. -/
def limited (router : Router A S) (rateClass : RateClass) (kind : SubjectKind) (known : Known)
    (error : CoreRefusal) : Except Rejection Sent := do
  router.record known.label known.method error.status
  if router.metrics && !(isLabelValue rateClass.text && isLabelValue kind.text) then
    throw .unlabelled
  let headers ← sealAnswer [known.rateHeaders, error.headers] known.correlationId
  pure ⟨error.status, .error error.refusal known.correlationId, headers⟩

/-- An answer CORE already gave, under the replay header. -/
def replay (router : Router A S) (known : Known) (answer : Answer) : Except Rejection Sent := do
  router.record known.label known.method answer.status
  let headers ← sealAnswer [known.rateHeaders, [("idempotent-replay", "true")]] known.correlationId
  pure ⟨answer.status, .value answer.body, headers⟩

def bearerCredential (headers : RequestHeaders) : Except Raised String :=
  let missing := Raised.refusal (.untimed (Identity.unauthenticated "missing bearer token") rfl)
  match headers.value "authorization" with
  | none => .error missing
  | some raw =>
      if raw.toList.take 7 ≠ "Bearer ".toList then .error missing
      else if (raw.toList.drop 7).isEmpty then .error missing
      else .ok (String.ofList (raw.toList.drop 7))

/-- Who is calling, then the query, then the body. -/
def prepare (router : Router A S) (route : Route A S) (headers : RequestHeaders) (search : String)
    (body : Option Json) : Except Raised (Option A × S × Json) := do
  let principal ←
    if route.required then do
      let credential ← bearerCredential headers
      let principal ← router.authenticate credential
      pure (some principal)
    else pure none
  let selection ← route.selection search
  let parsed ← route.body body
  pure (principal, selection, parsed)

/-- What the record of a keyed request says of it. -/
inductive Standing where
  | unclaimed
  | claimed (lookup : RetryLookup) (token : String)
  | refused (error : CoreRefusal)
  | replayed (answer : Answer)

def standing (router : Router A S) (route : Route A S) (method : String) (headers : RequestHeaders)
    (parsed : Json) : Standing :=
  if route.keyed then
    match headers.value "idempotency-key" with
    | none => .refused (.untimed (missingIdempotencyKey method route.template) rfl)
    | some key =>
        let lookup : RetryLookup := ⟨key, method, route.template⟩
        match router.claim lookup (fingerprintRequest router.sha256 method route.template parsed) with
        | .error _ => .refused .internal
        | .ok (.claimed token _) => .claimed lookup token
        | .ok (.completed _ answer) => .replayed answer
        | .ok (.inFlight claimedAt) => .refused (inFlight claimedAt)
        | .ok .reused => .refused (.untimed idempotencyKeyReused rfl)
  else .unclaimed

/-- The claim is settled one way or the other, and its failure changes no answer. -/
def settleClaim (router : Router A S) (claim : Option (RetryLookup × String)) (answer : Answer) :
    Except Unit Bool :=
  match claim with
  | none => .ok true
  | some (lookup, token) =>
      if answer.succeeded then router.complete lookup token answer
      else router.release lookup token

/-- Inside the boundary: the handler, its claim settled, its answer recorded and
sealed. -/
def attempt (router : Router A S) (route : Route A S) (known : Known)
    (claim : Option (RetryLookup × String)) (context : RequestContext A S) :
    Except Raised Sent :=
  match route.handler context with
  | .error raised => .error raised
  | .ok result =>
      match result.body with
      | .thenable =>
          .error (.other ("route " ++ known.method ++ " " ++ route.template ++
            " returned a promise as its body"))
      | .value json =>
          let _ := router.settleClaim claim ⟨result.status, json⟩
          match router.record known.label known.method result.status with
          | .error _ => .error (.other "metric label")
          | .ok () =>
              match sealAnswer [known.rateHeaders, result.headers] known.correlationId with
              | .error _ => .error (.other "response header")
              | .ok headers => .ok ⟨result.status, .value json, headers⟩

/-- Whatever the attempt throws is answered, and its claim released. -/
def run (router : Router A S) (route : Route A S) (known : Known)
    (claim : Option (RetryLookup × String)) (context : RequestContext A S) :
    Except Rejection Sent :=
  match router.attempt route known claim context with
  | .ok sent => .ok sent
  | .error raised =>
      let _ := claim.map (fun (lookup, token) => router.release lookup token)
      router.refuse known raised.answered

/-- A matched request past the limiter. -/
def serve (router : Router A S) (route : Route A S) (params : List (String × String))
    (known : Known) (url : Url) (headers : RequestHeaders) (input : Input) :
    Except Rejection Sent :=
  match router.prepare route headers url.search input.body with
  | .error raised => router.refuse known raised.answered
  | .ok (principal, selection, parsed) =>
      let context : RequestContext A S :=
        ⟨input.method, url.pathname, params, selection, parsed, headers, principal,
          known.correlationId⟩
      match router.standing route input.method headers parsed with
      | .refused error => router.refuse known error
      | .replayed answer => router.replay known answer
      | .unclaimed => router.run route known none context
      | .claimed lookup token => router.run route known (some (lookup, token)) context

/-- What the limiter decides, where one is consulted at all. -/
def limit (router : Router A S) (headers : RequestHeaders) (rateClass : Option RateClass) :
    Except Rejection (Option RateLimitDecision) :=
  match router.limiter, rateClass with
  | some check, some rateClass =>
      match check (subjectFor router.sha256 headers) rateClass with
      | .error _ => .error .limiterFailed
      | .ok decision => .ok (some decision)
  | _, _ => .ok none

/-- No route: sealed, then recorded. -/
def unrouted (router : Router A S) (known : Known) (pathname : String) : Except Rejection Sent := do
  let refusal := refused .notFound ("no route for " ++ known.method ++ " " ++ pathname) []
  let headers ← sealAnswer [known.rateHeaders] known.correlationId
  router.record known.label known.method 404
  pure ⟨404, .error refusal known.correlationId, headers⟩

/-- The answer of a request whose route and budget are known. -/
def dispatch (router : Router A S) (matched : Option (Route A S × List (String × String)))
    (known : Known) (url : Url) (headers : RequestHeaders) (input : Input) :
    Except Rejection Sent :=
  match matched with
  | none => router.unrouted known url.pathname
  | some (route, params) => router.serve route params known url headers input

/-- The template the rate class is looked up by. -/
def templateOf (matched : Option (Route A S × List (String × String))) : Option String :=
  matched.map (fun found => found.1.template)

/-- A request whose headers are accepted: its route, then its budget, then its answer. -/
def accept (router : Router A S) (url : Url) (headers : RequestHeaders) (input : Input) :
    Except Rejection Sent :=
  let correlationId := (headers.value "x-correlation-id").getD router.newId
  match matchRoutes input.method (segmentsOf url.pathname) router.routes with
  | .error rejection => .error rejection
  | .ok matched =>
      let rateClass := rateClassFor input.method (templateOf matched)
      match router.limit headers rateClass with
      | .error rejection => .error rejection
      | .ok none =>
          router.dispatch matched ⟨routeLabel matched, input.method, correlationId, []⟩ url headers
            input
      | .ok (some (.refused limit retryAfterMs resetAt)) =>
          let decision := RateLimitDecision.refused limit retryAfterMs resetAt
          router.limited (rateClass.getD .unmatched) (subjectFor router.sha256 headers).kind
            ⟨routeLabel matched, input.method, correlationId, decision.headers⟩
            (rateLimited limit retryAfterMs)
      | .ok (some (.allowed limit remaining resetAt)) =>
          let decision := RateLimitDecision.allowed limit remaining resetAt
          router.dispatch matched
            ⟨routeLabel matched, input.method, correlationId, decision.headers⟩ url headers input

def handle (router : Router A S) (input : Input) : Except Rejection Sent :=
  match router.parseUrl input.url with
  | none => .error .invalidUrl
  | some url =>
      match parseHeaders input.headers with
      -- a generated identifier, never the rejected header
      | .error refusal =>
          router.refuse ⟨"unmatched", input.method, router.newId, []⟩ (.plain refusal)
      | .ok headers => router.accept url headers input

end Router

end WaslaCore.Http
