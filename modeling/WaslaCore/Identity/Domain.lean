import WaslaCore.Platform.UnitOfWork

/-!
Identity and access: who exists, who acts, and what a role lets a principal do.
A channel account is never the identity itself, and a membership ties a principal
to one organization with the roles it has there.
-/

namespace WaslaCore.Identity

inductive IdentityStatus where
  | active
  | suspended
  | merged
  deriving DecidableEq, Repr

structure Identity where
  identityId : String
  status : IdentityStatus
  canonicalIdentityId : Option String
  displayName : Option String
  createdAt : Int
  sourceSystem : String
  legacyId : Option String
  deriving DecidableEq, Repr

inductive ChannelType where
  | telegram
  | phone
  | email
  | web
  | partnerApi
  deriving DecidableEq, Repr

def ChannelType.name : ChannelType → String
  | .telegram => "telegram"
  | .phone => "phone"
  | .email => "email"
  | .web => "web"
  | .partnerApi => "partner_api"

structure IdentityLink where
  identityLinkId : String
  identityId : String
  channelType : ChannelType
  externalId : String
  verifiedAt : Option Int
  createdAt : Int
  deriving DecidableEq, Repr

/-- `serviceName` is set only for a principal that is an external system. -/
structure Principal where
  principalId : String
  identityId : String
  createdAt : Int
  serviceName : Option String
  deriving DecidableEq, Repr

structure Session where
  sessionId : String
  principalId : String
  tokenHash : String
  channelType : ChannelType
  issuedAt : Int
  expiresAt : Int
  revokedAt : Option Int
  deriving DecidableEq, Repr

inductive Role where
  | platformAdmin
  | orgAdmin
  | orgMember
  | supportAgent
  | service
  deriving DecidableEq, Repr

structure Membership where
  membershipId : String
  principalId : String
  organizationId : String
  roles : List Role
  createdAt : Int
  deriving DecidableEq, Repr

inductive Permission where
  | identityRead
  | identityWrite
  | organizationRead
  | organizationWrite
  | fulfillmentRequest
  | fulfillmentRead
  | moneyAuthorize
  | supportAct
  | eventsSubmit
  | eventsReplay
  | eventsRevive
  | subscriptionRead
  | subscriptionWrite
  | reputationRead
  | sessionIssue
  deriving DecidableEq, Repr

def Permission.name : Permission → String
  | .identityRead => "identity.read"
  | .identityWrite => "identity.write"
  | .organizationRead => "organization.read"
  | .organizationWrite => "organization.write"
  | .fulfillmentRequest => "fulfillment.request"
  | .fulfillmentRead => "fulfillment.read"
  | .moneyAuthorize => "money.authorize"
  | .supportAct => "support.act"
  | .eventsSubmit => "events.submit"
  | .eventsReplay => "events.replay"
  | .eventsRevive => "events.revive"
  | .subscriptionRead => "subscription.read"
  | .subscriptionWrite => "subscription.write"
  | .reputationRead => "reputation.read"
  | .sessionIssue => "session.issue"

def rolePermissions : Role → List Permission
  | .platformAdmin =>
      [.identityRead, .identityWrite, .organizationRead, .organizationWrite, .fulfillmentRequest,
        .fulfillmentRead, .moneyAuthorize, .supportAct, .eventsSubmit, .eventsReplay,
        .eventsRevive, .subscriptionRead, .subscriptionWrite, .reputationRead, .sessionIssue]
  | .orgAdmin =>
      [.identityRead, .organizationRead, .organizationWrite, .fulfillmentRequest,
        .fulfillmentRead, .subscriptionRead, .reputationRead]
  | .orgMember => [.organizationRead, .fulfillmentRead]
  | .supportAgent =>
      [.identityRead, .organizationRead, .fulfillmentRead, .supportAct, .subscriptionRead,
        .reputationRead]
  | .service => [.fulfillmentRequest, .fulfillmentRead, .identityRead, .eventsSubmit, .sessionIssue]

/-- The permissions of some roles, each once and in the order first met. -/
def permissionsForRoles (roles : List Role) : List Permission :=
  (roles.flatMap rolePermissions).eraseDups

def isSessionActive (session : Session) (now : Int) : Bool :=
  session.revokedAt.isNone && now < session.expiresAt

@[simp] theorem mem_permissionsForRoles {roles : List Role} {permission : Permission} :
    permission ∈ permissionsForRoles roles ↔
      ∃ role ∈ roles, permission ∈ rolePermissions role := by
  simp [permissionsForRoles]

/-- `platform_admin` holds every permission there is. -/
theorem platformAdmin_permissions (permission : Permission) :
    permission ∈ rolePermissions .platformAdmin := by
  cases permission <;> decide

/-- The permissions that no role below `platform_admin` carries. -/
def isPlatformOnly (permission : Permission) : Bool :=
  permission ∈ [.identityWrite, .moneyAuthorize, .eventsReplay, .eventsRevive, .subscriptionWrite]

theorem isPlatformOnly_iff (permission : Permission) :
    isPlatformOnly permission = true ↔
      ∀ role, role ≠ .platformAdmin → permission ∉ rolePermissions role := by
  constructor
  · intro honly role hrole
    cases role with
    | platformAdmin => exact absurd rfl hrole
    | _ => revert honly; cases permission <;> decide
  · intro hnone
    have hadmin := hnone .orgAdmin (by decide)
    have hagent := hnone .supportAgent (by decide)
    have hservice := hnone .service (by decide)
    revert hadmin hagent hservice
    cases permission <;> decide

end WaslaCore.Identity
