import WaslaCore.Data.Table
import WaslaCore.Identity.Domain
import WaslaCore.Platform.ListOrder

/-!
The identity tables. Every write is checked as the schema checks it: the unique
keys first, then the row rules and the foreign keys. Of an organization only its
existence is read here.
-/

namespace WaslaCore.Identity

open Platform Data

structure Store where
  identities : Table Identity
  links : Table IdentityLink
  principals : Table Principal
  sessions : Table Session
  memberships : Table Membership
  organizations : List String

namespace Store

def empty : Store := ⟨.empty, .empty, .empty, .empty, .empty, []⟩

/-! ### Reads -/

def getIdentity (store : Store) (identityId : String) : Option Identity :=
  store.identities.get identityId

def linkKey (channelType : ChannelType) (externalId : String) : String :=
  channelType.name ++ "::" ++ externalId

def findLink (store : Store) (channelType : ChannelType) (externalId : String) :
    Option IdentityLink :=
  store.links.get (linkKey channelType externalId)

def getPrincipal (store : Store) (principalId : String) : Option Principal :=
  store.principals.get principalId

def findPrincipalByIdentity (store : Store) (identityId : String) : Option Principal :=
  store.principals.values.find? (fun principal => principal.identityId = identityId)

def getSession (store : Store) (sessionId : String) : Option Session :=
  store.sessions.get sessionId

def getSessionByTokenHash (store : Store) (tokenHash : String) : Option Session :=
  store.sessions.values.find? (fun session => session.tokenHash = tokenHash)

def listMemberships (store : Store) (principalId : String) : List Membership :=
  orderedBy (fun membership => [.number membership.createdAt, .text membership.membershipId])
    (store.memberships.values.filter (fun membership => membership.principalId = principalId))

def findMembership (store : Store) (principalId organizationId : String) : Option Membership :=
  store.memberships.values.find? (fun membership =>
    membership.principalId = principalId && membership.organizationId = organizationId)

end Store

/-! ### Writes -/

inductive Write where
  | insertIdentity (identity : Identity)
  | insertPrincipal (principal : Principal)
  | insertLink (link : IdentityLink)
  | insertSession (session : Session)
  | updateSession (session : Session)
  | insertMembership (membership : Membership)
  deriving DecidableEq, Repr

def duplicate (constraint : String) : String :=
  "duplicate key value violates unique constraint \"" ++ constraint ++ "\""

def checkFailed (table constraint : String) : String :=
  "new row for relation \"" ++ table ++ "\" violates check constraint \"" ++ constraint ++ "\""

def referenceFailed (table constraint : String) : String :=
  "insert or update on table \"" ++ table ++ "\" violates foreign key constraint \"" ++
    constraint ++ "\""

namespace Store

/-- `identity_legacy_idx`: one row for each legacy record it copies. -/
def legacyTaken (store : Store) (identity : Identity) : Bool :=
  identity.legacyId.isSome && store.identities.values.any (fun existing =>
    existing.identityId ≠ identity.identityId && existing.legacyId = identity.legacyId &&
      existing.sourceSystem = identity.sourceSystem)

def insertIdentity (store : Store) (identity : Identity) : Except String Store :=
  if store.legacyTaken identity then .error (duplicate "identity_legacy_idx")
  else if identity.status = .merged && identity.canonicalIdentityId.isNone then
    .error (checkFailed "identity" "identity_merged_requires_canonical")
  else if identity.canonicalIdentityId.any (fun survivor =>
      (store.getIdentity survivor).isNone) then
    .error (referenceFailed "identity" "identity_canonical_identity_id_fkey")
  else .ok { store with identities := store.identities.put identity.identityId identity }

def insertLink (store : Store) (link : IdentityLink) : Except String Store :=
  if (store.findLink link.channelType link.externalId).isSome then
    .error (duplicate "identity_link_channel_type_external_id_key")
  else if (store.getIdentity link.identityId).isNone then
    .error (referenceFailed "identity_link" "identity_link_identity_id_fkey")
  else .ok { store with links := store.links.put (linkKey link.channelType link.externalId) link }

/-- Another principal of the same identity, or of the same service name. -/
def principalTaken (store : Store) (principal : Principal) : Option String :=
  (store.principals.values.filter (fun existing =>
      existing.principalId ≠ principal.principalId)).findSome? (fun existing =>
    if existing.identityId = principal.identityId then some "principal_identity_id_key"
    else if principal.serviceName.isSome && existing.serviceName = principal.serviceName then
      some "principal_service_name_key"
    else none)

def insertPrincipal (store : Store) (principal : Principal) : Except String Store :=
  match store.principalTaken principal with
  | some constraint => .error (duplicate constraint)
  | none =>
      if principal.serviceName = some "" then
        .error (checkFailed "principal" "principal_service_name_check")
      else if (store.getIdentity principal.identityId).isNone then
        .error (referenceFailed "principal" "principal_identity_id_fkey")
      else .ok { store with principals := store.principals.put principal.principalId principal }

/-- A session names a principal that exists. -/
def putSession (store : Store) (session : Session) : Except String Store :=
  if (store.getPrincipal session.principalId).isNone then
    .error (referenceFailed "session" "session_principal_id_fkey")
  else .ok { store with sessions := store.sessions.put session.sessionId session }

def insertSession (store : Store) (session : Session) : Except String Store :=
  if store.sessions.values.any (fun existing =>
      existing.sessionId ≠ session.sessionId && existing.tokenHash = session.tokenHash) then
    .error (duplicate "session_token_hash_key")
  else store.putSession session

def insertMembership (store : Store) (membership : Membership) : Except String Store :=
  if store.memberships.values.any (fun existing =>
      existing.membershipId ≠ membership.membershipId &&
        existing.principalId = membership.principalId &&
        existing.organizationId = membership.organizationId) then
    .error (duplicate "membership_principal_id_organization_id_key")
  else if membership.roles.isEmpty then
    .error (checkFailed "membership" "membership_roles_check")
  else if membership.organizationId ∉ store.organizations then
    .error (referenceFailed "membership" "membership_organization_id_fkey")
  else if (store.getPrincipal membership.principalId).isNone then
    .error (referenceFailed "membership" "membership_principal_id_fkey")
  else .ok { store with memberships := store.memberships.put membership.membershipId membership }

def apply (store : Store) : Write → Except String Store
  | .insertIdentity identity => store.insertIdentity identity
  | .insertPrincipal principal => store.insertPrincipal principal
  | .insertLink link => store.insertLink link
  | .insertSession session => store.insertSession session
  | .updateSession session => store.putSession session
  | .insertMembership membership => store.insertMembership membership

def applyAll (store : Store) : List Write → Except String Store
  | [] => .ok store
  | write :: rest =>
      match store.apply write with
      | .ok next => next.applyAll rest
      | .error message => .error message

/-! ### What reads and writes are about -/

@[simp] theorem mem_listMemberships {store : Store} {principalId : String}
    {membership : Membership} :
    membership ∈ store.listMemberships principalId ↔
      membership ∈ store.memberships.values ∧ membership.principalId = principalId := by
  simp [listMemberships]

/-- A membership that goes in is the only change. -/
theorem insertMembership_ok {store store' : Store} {membership : Membership}
    (h : store.insertMembership membership = .ok store') :
    store' = { store with
      memberships := store.memberships.put membership.membershipId membership } := by
  unfold insertMembership at h
  split at h
  · cases h
  split at h
  · cases h
  split at h
  · cases h
  split at h
  · cases h
  exact (Except.ok.inj h).symm

end Store

end WaslaCore.Identity
