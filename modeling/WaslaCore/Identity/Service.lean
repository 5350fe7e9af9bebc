import WaslaCore.Identity.Repository

/-!
The decisions of the identity service that read the store as one moment shows it:
who a token belongs to, what that principal may do and where, the end of a
session, and the grant of a membership. A token is represented by its hash, the
only thing about it that is ever looked up.
-/

namespace WaslaCore.Identity

open Platform Data

/-- A refusal with what its body adds under `details`. -/
structure Refusal where
  error : CoreError
  details : Payload := []
  deriving DecidableEq, Repr

def refused (code : ErrorCode) (message : String) (details : Payload) : Refusal :=
  ⟨⟨code, message, none⟩, details⟩

def unauthenticated (message : String) : Refusal := refused .unauthenticated message []

def forbidden (message : String) (details : Payload) : Refusal := refused .forbidden message details

structure AuthenticatedPrincipal where
  principalId : String
  identityId : String
  sessionId : String
  organizationIds : List String
  roles : List Role
  permissions : List Permission
  serviceName : Option String
  deriving DecidableEq, Repr

/-- The acting principal of its memberships: roles and permissions of all of them
together, and the organizations they are in. -/
def actingPrincipal (principal : Principal) (identity : Identity) (session : Session)
    (memberships : List Membership) : AuthenticatedPrincipal :=
  let roles := (memberships.flatMap Membership.roles).eraseDups
  { principalId := principal.principalId
    identityId := identity.identityId
    sessionId := session.sessionId
    organizationIds := memberships.map Membership.organizationId
    roles := roles
    permissions := permissionsForRoles roles
    serviceName := principal.serviceName }

/-- `none` is a request without a token. -/
def authenticate (store : Store) (now : Int) (tokenHash : Option String) :
    Except Refusal AuthenticatedPrincipal :=
  match tokenHash with
  | none => .error (unauthenticated "unauthenticated")
  | some hash =>
      match store.getSessionByTokenHash hash with
      | none => .error (unauthenticated "unknown session token")
      | some session =>
          if isSessionActive session now then
            match store.getPrincipal session.principalId with
            | none => .error (unauthenticated "principal no longer exists")
            | some principal =>
                match store.getIdentity principal.identityId with
                | none => .error (forbidden "identity is not active" [])
                | some identity =>
                    if identity.status = .active then
                      .ok (actingPrincipal principal identity session
                        (store.listMemberships principal.principalId))
                    else .error (forbidden "identity is not active" [])
          else .error (unauthenticated "session expired or revoked")

/-- The permission first, then the organization. An organization is asked about
only where the caller names one. -/
def authorize (actor : AuthenticatedPrincipal) (permission : Permission)
    (organizationId : Option String) : Except Refusal Unit :=
  if permission ∈ actor.permissions then
    match organizationId with
    | none => .ok ()
    | some organization =>
        if organization ∈ actor.organizationIds || Role.platformAdmin ∈ actor.roles then .ok ()
        else .error (forbidden "principal is not a member of this organization"
          [("organization_id", .text organization)])
  else .error (forbidden "missing permission" [("permission", .text permission.name)])

def assertIdentifier (field value : String) : Except Refusal Unit :=
  if isId value then .ok () else .error (refused .invalidRequest (field ++ " must be a UUID") [])

def storeFailed (message : String) : Refusal := refused .internal message []

/-- A session already revoked stays as it was. -/
def revokeSession (store : Store) (now : Int) (sessionId : String) : Except Refusal Store := do
  assertIdentifier "session_id" sessionId
  match store.getSession sessionId with
  | none => throw (refused .notFound "session not found" [])
  | some session =>
      if session.revokedAt.isSome then pure store
      else
        match store.apply (.updateSession { session with revokedAt := some now }) with
        | .ok store' => pure store'
        | .error message => throw (storeFailed message)

/-- Your own session is yours to end, anyone else's needs `identity.write`. -/
def mayRevoke (store : Store) (actor : AuthenticatedPrincipal) (sessionId : String) :
    Except Refusal Unit :=
  if (store.getSession sessionId).any (fun session => session.principalId = actor.principalId) then
    .ok ()
  else authorize actor .identityWrite none

def revokeSessionAs (store : Store) (now : Int) (actor : AuthenticatedPrincipal)
    (sessionId : String) : Except Refusal Store := do
  assertIdentifier "session_id" sessionId
  mayRevoke store actor sessionId
  revokeSession store now sessionId

/-- The membership `grantMembership` builds. -/
def grantedMembership (membershipId principalId organizationId : String) (roles : List Role)
    (now : Int) : Membership :=
  ⟨membershipId, principalId, organizationId, roles, now⟩

def grantMembership (store : Store) (now : Int) (membershipId principalId organizationId : String)
    (roles : List Role) : Except Refusal Store := do
  assertIdentifier "principal_id" principalId
  assertIdentifier "organization_id" organizationId
  if (store.getPrincipal principalId).isNone then
    throw (refused .notFound "principal not found" [])
  else if (store.findMembership principalId organizationId).isSome then
    throw (refused .conflict "membership already exists" [])
  else
    let membership := grantedMembership membershipId principalId organizationId roles now
    match store.apply (.insertMembership membership) with
    | .ok store' => pure store'
    | .error message => throw (storeFailed message)

/-! ### What an authenticated principal is made of -/

theorem authenticate_ok {store : Store} {now : Int} {tokenHash : Option String}
    {actor : AuthenticatedPrincipal} (h : authenticate store now tokenHash = .ok actor) :
    ∃ principal identity session,
      actor = actingPrincipal principal identity session
        (store.listMemberships principal.principalId) := by
  unfold authenticate at h
  split at h
  · cases h
  split at h
  · cases h
  rename_i session _
  split at h
  · split at h
    · cases h
    rename_i principal _
    split at h
    · cases h
    rename_i identity _
    split at h
    · exact ⟨principal, identity, session, (Except.ok.inj h).symm⟩
    · cases h
  · cases h

section Acting

variable {store : Store} {now : Int} {tokenHash : Option String} {actor : AuthenticatedPrincipal}

theorem mem_actor_organizationIds (h : authenticate store now tokenHash = .ok actor)
    {organizationId : String} :
    organizationId ∈ actor.organizationIds ↔
      ∃ membership ∈ store.listMemberships actor.principalId,
        membership.organizationId = organizationId := by
  obtain ⟨principal, identity, session, rfl⟩ := authenticate_ok h
  exact List.mem_map

theorem mem_actor_roles (h : authenticate store now tokenHash = .ok actor) {role : Role} :
    role ∈ actor.roles ↔
      ∃ membership ∈ store.listMemberships actor.principalId, role ∈ membership.roles := by
  obtain ⟨principal, identity, session, rfl⟩ := authenticate_ok h
  exact List.mem_eraseDups.trans List.mem_flatMap

theorem mem_actor_permissions (h : authenticate store now tokenHash = .ok actor)
    {permission : Permission} :
    permission ∈ actor.permissions ↔ ∃ role ∈ actor.roles, permission ∈ rolePermissions role := by
  obtain ⟨principal, identity, session, rfl⟩ := authenticate_ok h
  exact mem_permissionsForRoles

end Acting

theorem authorize_ok {actor : AuthenticatedPrincipal} {permission : Permission}
    {organizationId : Option String} :
    authorize actor permission organizationId = .ok () ↔
      permission ∈ actor.permissions ∧ ∀ organization, organizationId = some organization →
        organization ∈ actor.organizationIds ∨ Role.platformAdmin ∈ actor.roles := by
  unfold authorize
  by_cases hpermission : permission ∈ actor.permissions
  · rw [if_pos hpermission]
    cases organizationId with
    | none => simp [hpermission]
    | some organization =>
        by_cases hmember : organization ∈ actor.organizationIds ∨ Role.platformAdmin ∈ actor.roles
        · simp [hpermission, hmember]
        · simp [hpermission, hmember]
  · simp [hpermission]

theorem ok_of_toOption {α : Type} {outcome : Except Refusal α} {value : α}
    (h : outcome.toOption = some value) : outcome = .ok value := by
  cases outcome with
  | error refusal => cases h
  | ok found => exact congrArg Except.ok (Option.some.inj h)

/-- A grant that goes through stored that one membership. -/
theorem grantMembership_ok {store store' : Store} {now : Int}
    {membershipId principalId organizationId : String} {roles : List Role}
    (h : grantMembership store now membershipId principalId organizationId roles = .ok store') :
    store' = { store with
      memberships := store.memberships.put membershipId
        (grantedMembership membershipId principalId organizationId roles now) } := by
  unfold grantMembership at h
  obtain ⟨_, -, h⟩ := bind_ok.mp h
  obtain ⟨_, -, h⟩ := bind_ok.mp h
  split at h
  · cases h
  split at h
  · cases h
  simp only at h
  split at h
  · rename_i after happly
    obtain rfl := Except.ok.inj h
    exact Store.insertMembership_ok happly
  · cases h

/-- Ending a session touches no membership. -/
theorem revokeSession_ok {store store' : Store} {now : Int} {sessionId : String}
    (h : revokeSession store now sessionId = .ok store') :
    store'.memberships = store.memberships := by
  unfold revokeSession at h
  obtain ⟨_, -, h⟩ := bind_ok.mp h
  split at h
  · cases h
  split at h
  · obtain rfl := Except.ok.inj h
    rfl
  split at h
  · rename_i after happly
    obtain rfl := Except.ok.inj h
    simp only [Store.apply, Store.putSession] at happly
    split at happly
    · cases happly
    · obtain rfl := Except.ok.inj happly
      rfl
  · cases h

theorem revokeSessionAs_ok {store store' : Store} {now : Int} {actor : AuthenticatedPrincipal}
    {sessionId : String} (h : revokeSessionAs store now actor sessionId = .ok store') :
    store'.memberships = store.memberships := by
  unfold revokeSessionAs at h
  obtain ⟨_, -, h⟩ := bind_ok.mp h
  obtain ⟨_, -, h⟩ := bind_ok.mp h
  exact revokeSession_ok h

end WaslaCore.Identity
