import WaslaCore.Identity.Service
import WaslaCore.Interleaving.Process

/-!
Sessions one database action at a time: their issue, their end, and the authentication that looks
them up. The other identity tables change underneath in whatever way their own checks admit. A
token is handed out once and stored as its hash.
-/

namespace WaslaCore.Identity.Sessions

open Platform Interleaving Data

/-- The identity tables as the calls meet them. -/
structure Desk where
  tables : Store
  audit : List AuditEntry
  now : Int
  /-- Every identifier drawn so far. -/
  drawn : List String

inductive Query where
  | getPrincipal (principalId : String)
  | getIdentity (identityId : String)
  | getSession (sessionId : String)
  | getSessionByTokenHash (tokenHash : String)
  | listMemberships (principalId : String)

@[reducible] def Query.Answer : Query → Type
  | .getPrincipal _ => Option Principal
  | .getIdentity _ => Option Identity
  | .getSession _ => Option Session
  | .getSessionByTokenHash _ => Option Session
  | .listMemberships _ => List Membership

def Query.eval (tables : Store) : (query : Query) → query.Answer
  | .getPrincipal principalId => tables.getPrincipal principalId
  | .getIdentity identityId => tables.getIdentity identityId
  | .getSession sessionId => tables.getSession sessionId
  | .getSessionByTokenHash tokenHash => tables.getSessionByTokenHash tokenHash
  | .listMemberships principalId => tables.listMemberships principalId

/-- What a session's transaction writes. -/
inductive SessionWrite where
  | insertSession (session : Session)
  | updateSession (session : Session)

def SessionWrite.session : SessionWrite → Session
  | .insertSession session => session
  | .updateSession session => session

def SessionWrite.write : SessionWrite → Write
  | .insertSession session => .insertSession session
  | .updateSession session => .updateSession session

inductive Action where
  | read (query : Query)
  | clock
  | newToken
  | newId
  | commit (write : SessionWrite) (entry : AuditEntry)

@[reducible] def Action.Answer : Action → Type
  | .read query => query.Answer
  | .clock => Int
  | .newToken => String
  | .newId => String
  | .commit _ _ => Except Refusal Unit

/-- What the tables do not decide themselves. -/
inductive Choice where
  | proceed
  | drawn (text : String)
  | failed (error : Refusal)
  | elapsed (milliseconds : Nat)
  | written (write : Write)

def Desk.commit (desk : Desk) (write : SessionWrite) (entry : AuditEntry) : Except String Desk :=
  (desk.tables.apply write.write).map fun tables =>
    { desk with tables := tables, audit := desk.audit ++ [entry.recorded] }

/-- A token may be drawn twice, an identifier is not. -/
def perform : (action : Action) → Choice → Desk → Option (action.Answer × Desk)
  | .read query, .proceed, desk => some (query.eval desk.tables, desk)
  | .clock, .proceed, desk => some (desk.now, desk)
  | .newToken, .drawn token, desk => some (token, desk)
  | .newId, .drawn id, desk =>
      if isId id && !desk.drawn.contains id then some (id, { desk with drawn := id :: desk.drawn })
      else none
  | .commit write entry, .proceed, desk =>
      match desk.commit write entry with
      | .ok after => some (.ok (), after)
      | .error message => some (.error (storeFailed message), desk)
  | .commit _ _, .failed error, desk => some (.error error, desk)
  | _, _, _ => none

/-- A write of the tables beside the sessions. -/
def beside : Write → Bool
  | .insertSession _ => false
  | .updateSession _ => false
  | _ => true

/-- Time passes, and identities, principals, links and memberships come and change. -/
def tick : Choice → Desk → Option Desk
  | .elapsed milliseconds, desk => some { desk with now := desk.now + milliseconds }
  | .written write, desk =>
      if beside write then
        match desk.tables.apply write with
        | .ok tables => some { desk with tables := tables }
        | .error _ => none
      else none
  | _, _ => none

def desks : System Desk Action Action.Answer Choice := ⟨perform, tick⟩

abbrev Call (β : Type) := Process Action Action.Answer Refusal β

abbrev Seen := History Action Action.Answer

def settled {β : Type} : Except Refusal β → Call β
  | .ok value => .done value
  | .error error => .fail error

def read (query : Query) : Call query.Answer := .act (.read query) .done

def clock : Call Int := .act .clock .done

def newToken : Call String := .act .newToken .done

def newId : Call String := .act .newId .done

def withTransaction (write : SessionWrite) (entry : AuditEntry) : Call Unit :=
  .act (.commit write entry) settled

/-- `SESSION_TTL_MS`. -/
def sessionTtlMs : Int := 12 * 60 * 60 * 1000

def issuedEntry (session : Session) : AuditEntry :=
  ⟨"session.issued", "session", session.sessionId,
    [("channel_type", .text session.channelType.name)]⟩

def revokedEntry (session : Session) : AuditEntry :=
  ⟨"session.revoked", "session", session.sessionId, []⟩

/-- The session and its token. Only the hash of the token is stored. -/
def issueSession (hashToken : String → String) (principalId : String) (channelType : ChannelType) :
    Call (Session × String) := do
  settled (assertIdentifier "principal_id" principalId)
  match ← read (.getPrincipal principalId) with
  | none => throw (refused .notFound "principal not found" [])
  | some principal =>
      match ← read (.getIdentity principal.identityId) with
      | none => throw (refused .notFound "identity not found" [])
      | some identity =>
          if identity.status ≠ .active then throw (forbidden "identity is not active" [])
          else
            let now ← clock
            let token ← newToken
            let sessionId ← newId
            let session : Session :=
              { sessionId := sessionId
                principalId := principal.principalId
                tokenHash := hashToken token
                channelType := channelType
                issuedAt := now
                expiresAt := now + sessionTtlMs
                revokedAt := none }
            withTransaction (.insertSession session) (issuedEntry session)
            pure (session, token)

def revokeSession (sessionId : String) : Call Unit := do
  settled (assertIdentifier "session_id" sessionId)
  match ← read (.getSession sessionId) with
  | none => throw (refused .notFound "session not found" [])
  | some session =>
      if session.revokedAt.isSome then pure ()
      else
        let now ← clock
        let revoked : Session := { session with revokedAt := some now }
        withTransaction (.updateSession revoked) (revokedEntry revoked)

/-- Your own session is yours to end, anyone else's needs `identity.write`. -/
def mayRevokeSession (actor : AuthenticatedPrincipal) (session : Option Session) :
    Except Refusal Unit :=
  if session.any (fun session => session.principalId = actor.principalId) then .ok ()
  else authorize actor .identityWrite none

/-- The permission comes before the answer whether there is such a session. -/
def revokeSessionAs (actor : AuthenticatedPrincipal) (sessionId : String) : Call Unit := do
  settled (assertIdentifier "session_id" sessionId)
  let session ← read (.getSession sessionId)
  settled (mayRevokeSession actor session)
  match session with
  | none => throw (refused .notFound "session not found" [])
  | some session => revokeSession session.sessionId

def authenticate (hashToken : String → String) (token : String) : Call AuthenticatedPrincipal := do
  if token.isEmpty then throw (unauthenticated "unauthenticated")
  else
    match ← read (.getSessionByTokenHash (hashToken token)) with
    | none => throw (unauthenticated "unknown session token")
    | some session =>
        let now ← clock
        if !isSessionActive session now then throw (unauthenticated "session expired or revoked")
        else
          match ← read (.getPrincipal session.principalId) with
          | none => throw (unauthenticated "principal no longer exists")
          | some principal =>
              match ← read (.getIdentity principal.identityId) with
              | none => throw (forbidden "identity is not active" [])
              | some identity =>
                  if identity.status ≠ .active then throw (forbidden "identity is not active" [])
                  else
                    let memberships ← read (.listMemberships principal.principalId)
                    pure (actingPrincipal principal identity session memberships)

inductive Request where
  | issueSession (principalId : String) (channelType : ChannelType)
  | revokeSession (sessionId : String)
  | revokeSessionAs (actor : AuthenticatedPrincipal) (sessionId : String)
  | authenticate (token : String)

inductive Reply where
  | issued (session : Session) (token : String)
  | revoked
  | authenticated (actor : AuthenticatedPrincipal)

def serve (hashToken : String → String) : Request → Call Reply
  | .issueSession principalId channelType =>
      (fun done => .issued done.1 done.2) <$> issueSession hashToken principalId channelType
  | .revokeSession sessionId => (fun _ => .revoked) <$> revokeSession sessionId
  | .revokeSessionAs actor sessionId => (fun _ => .revoked) <$> revokeSessionAs actor sessionId
  | .authenticate token => .authenticated <$> authenticate hashToken token

/-- Any call of the service. -/
def requests (hashToken : String → String) (call : Call Reply) : Prop :=
  ∃ request, call = serve hashToken request

end WaslaCore.Identity.Sessions
