import WaslaCore.Identity.Service

/-!
Whether a role stays inside the organization it was given in. A membership is the
answer to "what may this principal do here", so a permission should come from the
membership of the organization asked about, or from `platform_admin`. The service
asks two questions apart: whether any membership carries the permission, and
whether there is a membership of the organization. They agree exactly while no
membership carries a permission that the membership asked about lacks.
-/

namespace WaslaCore.Identity

open Data

/-- The principal has a membership of the organization. -/
def IsMember (store : Store) (principalId organizationId : String) : Prop :=
  ∃ membership ∈ store.memberships.values,
    membership.principalId = principalId ∧ membership.organizationId = organizationId

/-- The principal has the role in the organization. -/
def HasRole (store : Store) (principalId organizationId : String) (role : Role) : Prop :=
  ∃ membership ∈ store.memberships.values,
    membership.principalId = principalId ∧ membership.organizationId = organizationId ∧
      role ∈ membership.roles

/-- A role of the principal in the organization carries the permission. -/
def Holds (store : Store) (principalId organizationId : String) (permission : Permission) : Prop :=
  ∃ role, HasRole store principalId organizationId role ∧ permission ∈ rolePermissions role

def IsPlatformAdmin (store : Store) (principalId : String) : Prop :=
  ∃ organizationId, HasRole store principalId organizationId .platformAdmin

/-- The second store gives the principal one more role in one organization. -/
structure RoleAdded (principalId organizationId : String) (role : Role) (store store' : Store) :
    Prop where
  member : ∀ other, IsMember store' principalId other ↔
    IsMember store principalId other ∨ other = organizationId
  hasRole : ∀ other held, HasRole store' principalId other held ↔
    HasRole store principalId other held ∨ other = organizationId ∧ held = role

/-- A membership written under a new identifier. -/
theorem mem_memberships_put {store : Store} {membershipId : String} {membership other : Membership}
    (hnew : store.memberships.get membershipId = none) :
    other ∈ (store.memberships.put membershipId membership).values ↔
      other ∈ store.memberships.values ∨ other = membership := by
  rw [Table.values_put_new membership hnew, List.mem_append, List.mem_singleton]

/-- A grant of one role under a new membership adds that role and nothing else. -/
theorem grantMembership_roleAdded {store store' : Store} {now : Int}
    {membershipId principalId organizationId : String} {role : Role}
    (h : grantMembership store now membershipId principalId organizationId [role] = .ok store')
    (hnew : store.memberships.get membershipId = none) :
    RoleAdded principalId organizationId role store store' := by
  obtain rfl := grantMembership_ok h
  refine ⟨fun other => ⟨?_, ?_⟩, fun other held => ⟨?_, ?_⟩⟩
  · rintro ⟨membership, hmembership, hprincipal, horganization⟩
    rcases (mem_memberships_put hnew).mp hmembership with hold | rfl
    · exact .inl ⟨membership, hold, hprincipal, horganization⟩
    · exact .inr horganization.symm
  · rintro (⟨membership, hmembership, hthere⟩ | rfl)
    · exact ⟨membership, (mem_memberships_put hnew).mpr (.inl hmembership), hthere⟩
    · exact ⟨_, (mem_memberships_put hnew).mpr (.inr rfl), rfl, rfl⟩
  · rintro ⟨membership, hmembership, hprincipal, horganization, hheld⟩
    rcases (mem_memberships_put hnew).mp hmembership with hold | rfl
    · exact .inl ⟨membership, hold, hprincipal, horganization, hheld⟩
    · exact .inr ⟨horganization.symm, List.mem_singleton.mp hheld⟩
  · rintro (⟨membership, hmembership, hthere⟩ | ⟨rfl, rfl⟩)
    · exact ⟨membership, (mem_memberships_put hnew).mpr (.inl hmembership), hthere⟩
    · exact ⟨_, (mem_memberships_put hnew).mpr (.inr rfl), rfl, rfl, List.mem_singleton.mpr rfl⟩

section Acting

variable {store : Store} {now : Int} {tokenHash : Option String} {actor : AuthenticatedPrincipal}

theorem actor_isMember (h : authenticate store now tokenHash = .ok actor) {organizationId : String} :
    organizationId ∈ actor.organizationIds ↔ IsMember store actor.principalId organizationId := by
  rw [mem_actor_organizationIds h]
  simp only [Store.mem_listMemberships, IsMember, and_assoc]

theorem actor_hasRole (h : authenticate store now tokenHash = .ok actor) {role : Role} :
    role ∈ actor.roles ↔ ∃ organizationId, HasRole store actor.principalId organizationId role := by
  rw [mem_actor_roles h]
  constructor
  · rintro ⟨membership, hmembership, hrole⟩
    obtain ⟨hstored, hprincipal⟩ := Store.mem_listMemberships.mp hmembership
    exact ⟨membership.organizationId, membership, hstored, hprincipal, rfl, hrole⟩
  · rintro ⟨organizationId, membership, hstored, hprincipal, -, hrole⟩
    exact ⟨membership, Store.mem_listMemberships.mpr ⟨hstored, hprincipal⟩, hrole⟩

theorem actor_holds (h : authenticate store now tokenHash = .ok actor) {permission : Permission} :
    permission ∈ actor.permissions ↔
      ∃ organizationId, Holds store actor.principalId organizationId permission := by
  rw [mem_actor_permissions h]
  constructor
  · rintro ⟨role, hrole, hpermission⟩
    obtain ⟨organizationId, hhas⟩ := (actor_hasRole h).mp hrole
    exact ⟨organizationId, role, hhas, hpermission⟩
  · rintro ⟨organizationId, role, hhas, hpermission⟩
    exact ⟨role, (actor_hasRole h).mpr ⟨organizationId, hhas⟩, hpermission⟩

/-- The two questions the service asks, in terms of memberships. -/
theorem authorize_iff (h : authenticate store now tokenHash = .ok actor) (permission : Permission)
    (organizationId : String) :
    authorize actor permission (some organizationId) = .ok () ↔
      (∃ other, Holds store actor.principalId other permission) ∧
        (IsMember store actor.principalId organizationId ∨
          IsPlatformAdmin store actor.principalId) := by
  rw [authorize_ok, actor_holds h]
  refine and_congr_right fun _ => ?_
  constructor
  · intro hscope
    rcases hscope organizationId rfl with hmember | hadmin
    · exact .inl ((actor_isMember h).mp hmember)
    · exact .inr ((actor_hasRole h).mp hadmin)
  · rintro (hmember | hadmin) organization ⟨rfl⟩
    · exact .inl ((actor_isMember h).mpr hmember)
    · exact .inr ((actor_hasRole h).mpr hadmin)

/-- The answer comes from the organization's own membership or from
`platform_admin` exactly where no other membership carries a permission this one
lacks; and a role added elsewhere leaves the answer alone exactly where it brings
no permission the principal had nowhere. -/
theorem authorize_confined_iff (h : authenticate store now tokenHash = .ok actor)
    (permission : Permission) (organizationId : String) :
    ((authorize actor permission (some organizationId) = .ok () →
        IsPlatformAdmin store actor.principalId ∨
          Holds store actor.principalId organizationId permission) ↔
      (IsMember store actor.principalId organizationId →
        ¬IsPlatformAdmin store actor.principalId → ∀ other, other ≠ organizationId →
          Holds store actor.principalId other permission →
            Holds store actor.principalId organizationId permission)) ∧
    ∀ (other : String) (role : Role) (store' : Store) (now' : Int) (tokenHash' : Option String)
      (actor' : AuthenticatedPrincipal), other ≠ organizationId → role ≠ .platformAdmin →
      RoleAdded actor.principalId other role store store' →
      authenticate store' now' tokenHash' = .ok actor' → actor'.principalId = actor.principalId →
      ((authorize actor' permission (some organizationId) = .ok () ↔
          authorize actor permission (some organizationId) = .ok ()) ↔
        (IsMember store actor.principalId organizationId → permission ∈ rolePermissions role →
          ∃ held, Holds store actor.principalId held permission)) := by
  refine ⟨?_, ?_⟩
  · rw [authorize_iff h]
    constructor
    · intro hconfined hmember hnot other _ hholds
      exact (hconfined ⟨⟨other, hholds⟩, .inl hmember⟩).resolve_left hnot
    · rintro hcondition ⟨⟨other, hholds⟩, hscope⟩
      rcases hscope with hmember | hadmin
      · by_cases hadmin : IsPlatformAdmin store actor.principalId
        · exact .inl hadmin
        · by_cases hother : other = organizationId
          · exact .inr (hother ▸ hholds)
          · exact .inr (hcondition hmember hadmin other hother hholds)
      · exact .inl hadmin
  · intro other role store' now' tokenHash' actor' hother hrole hadded h' hsame
    have hmember : IsMember store' actor.principalId organizationId ↔
        IsMember store actor.principalId organizationId := by
      rw [hadded.member, or_iff_left (Ne.symm hother)]
    have hadmin : IsPlatformAdmin store' actor.principalId ↔
        IsPlatformAdmin store actor.principalId := by
      refine exists_congr fun held => ?_
      rw [hadded.hasRole, or_iff_left (fun heq => hrole heq.2.symm)]
    have hholds : (∃ held, Holds store' actor.principalId held permission) ↔
        (∃ held, Holds store actor.principalId held permission) ∨
          permission ∈ rolePermissions role := by
      simp only [Holds, hadded.hasRole]
      constructor
      · rintro ⟨held, had, hhad | ⟨rfl, rfl⟩, hcarries⟩
        · exact .inl ⟨held, had, hhad, hcarries⟩
        · exact .inr hcarries
      · rintro (⟨held, had, hhad, hcarries⟩ | hcarries)
        · exact ⟨held, had, .inl hhad, hcarries⟩
        · exact ⟨other, role, .inr ⟨rfl, rfl⟩, hcarries⟩
    rw [authorize_iff h, authorize_iff h', hsame, hmember, hadmin, hholds]
    constructor
    · intro hunchanged hin hcarries
      exact (hunchanged.mp ⟨.inr hcarries, .inl hin⟩).1
    · intro hcondition
      constructor
      · rintro ⟨hfound | hcarries, hscope⟩
        · exact ⟨hfound, hscope⟩
        · rcases hscope with hin | hin
          · exact ⟨hcondition hin hcarries, .inl hin⟩
          · obtain ⟨held, hhas⟩ := hin
            exact ⟨⟨held, .platformAdmin, hhas, platformAdmin_permissions permission⟩,
              .inr ⟨held, hhas⟩⟩
      · rintro ⟨hfound, hscope⟩
        exact ⟨.inl hfound, hscope⟩

end Acting

/-! ### A principal of two organizations -/

def alice : String := "aaaaaaaa-0000-4000-8000-000000000001"

def ownTenant : String := "0a0a0a0a-0000-4000-8000-000000000001"

def otherTenant : String := "0b0b0b0b-0000-4000-8000-000000000001"

def thirdTenant : String := "0c0c0c0c-0000-4000-8000-000000000001"

/-- Alice administers one organization and is an ordinary member of another. -/
def twoTenants : Store :=
  { Store.empty with
    identities := Table.empty.put "person" ⟨"person", .active, none, none, 0, "wasla-core", none⟩
    principals := Table.empty.put alice ⟨alice, "person", 0, none⟩
    sessions := Table.empty.put "session" ⟨"session", alice, "hash", .web, 0, 1000, none⟩
    memberships := (Table.empty.put "first" ⟨"first", alice, ownTenant, [.orgAdmin], 0⟩).put
      "second" ⟨"second", alice, otherTenant, [.orgMember], 0⟩
    organizations := [ownTenant, otherTenant, thirdTenant] }

theorem twoTenants_hasRole (organizationId : String) (role : Role) :
    HasRole twoTenants alice organizationId role ↔
      organizationId = ownTenant ∧ role = .orgAdmin ∨
        organizationId = otherTenant ∧ role = .orgMember := by
  have hvalues : twoTenants.memberships.values =
      [⟨"first", alice, ownTenant, [.orgAdmin], 0⟩,
        ⟨"second", alice, otherTenant, [.orgMember], 0⟩] := rfl
  simp [HasRole, hvalues, eq_comm]

/-- Alice's own answers before and after one more role in a third organization. -/
theorem authorize_confined_iff_twoTenants :
    ∃ (actor actor' : AuthenticatedPrincipal) (store' : Store),
      authenticate twoTenants 0 (some "hash") = .ok actor ∧
      grantMembership twoTenants 0 "third" alice thirdTenant [.supportAgent] = .ok store' ∧
      authenticate store' 0 (some "hash") = .ok actor' ∧
      ((authorize actor .organizationWrite (some ownTenant) = .ok () →
          IsPlatformAdmin twoTenants actor.principalId ∨
            Holds twoTenants actor.principalId ownTenant .organizationWrite) ↔
        (IsMember twoTenants actor.principalId ownTenant →
          ¬IsPlatformAdmin twoTenants actor.principalId → ∀ other, other ≠ ownTenant →
            Holds twoTenants actor.principalId other .organizationWrite →
              Holds twoTenants actor.principalId ownTenant .organizationWrite)) ∧
      ((authorize actor' .supportAct (some ownTenant) = .ok () ↔
          authorize actor .supportAct (some ownTenant) = .ok ()) ↔
        (IsMember twoTenants actor.principalId ownTenant →
          .supportAct ∈ rolePermissions .supportAgent →
            ∃ held, Holds twoTenants actor.principalId held .supportAct)) := by
  have hactor : (authenticate twoTenants 0 (some "hash")).toOption.any
      (fun actor => actor.principalId = alice) = true := by decide +kernel
  have hgranted : (grantMembership twoTenants 0 "third" alice thirdTenant
      [.supportAgent]).toOption.any (fun store' =>
        (authenticate store' 0 (some "hash")).toOption.any
          (fun actor => actor.principalId = alice)) = true := by decide +kernel
  obtain ⟨actor, hfound, hprincipal⟩ := (Option.any_eq_true _ _).mp hactor
  obtain ⟨store', hstore, hafter⟩ := (Option.any_eq_true _ _).mp hgranted
  obtain ⟨actor', hfound', hprincipal'⟩ := (Option.any_eq_true _ _).mp hafter
  have hauthenticated := ok_of_toOption hfound
  have hstored := ok_of_toOption hstore
  have hauthenticated' := ok_of_toOption hfound'
  have hprincipal := of_decide_eq_true hprincipal
  have hprincipal' := of_decide_eq_true hprincipal'
  refine ⟨actor, actor', store', hauthenticated, hstored, hauthenticated',
    (authorize_confined_iff hauthenticated .organizationWrite ownTenant).1, ?_⟩
  refine (authorize_confined_iff hauthenticated .supportAct ownTenant).2 thirdTenant .supportAgent
    store' 0 (some "hash") actor' (by decide) (by decide) ?_ hauthenticated'
    (hprincipal'.trans hprincipal.symm)
  rw [hprincipal]
  exact grantMembership_roleAdded hstored rfl

/-- Alice may change the organization she is an ordinary member of, because she
administers another one. -/
theorem authorize_confined_fails :
    ¬∀ (store : Store) (now : Int) (tokenHash : Option String) (actor : AuthenticatedPrincipal)
      (permission : Permission) (organizationId : String),
      authenticate store now tokenHash = .ok actor →
      authorize actor permission (some organizationId) = .ok () →
      IsPlatformAdmin store actor.principalId ∨
        Holds store actor.principalId organizationId permission := by
  intro h
  have hactor : (authenticate twoTenants 0 (some "hash")).toOption.any (fun actor =>
      actor.principalId = alice ∧
        authorize actor .organizationWrite (some otherTenant) = .ok ()) = true := by
    decide +kernel
  obtain ⟨actor, hfound, hanswer⟩ := (Option.any_eq_true _ _).mp hactor
  obtain ⟨hprincipal, hallowed⟩ := of_decide_eq_true hanswer
  have hconfined := h twoTenants 0 (some "hash") actor .organizationWrite otherTenant
    (ok_of_toOption hfound) hallowed
  rw [hprincipal] at hconfined
  rcases hconfined with ⟨organizationId, hadmin⟩ | ⟨role, hrole, hcarries⟩
  · rcases (twoTenants_hasRole organizationId .platformAdmin).mp hadmin with ⟨-, ⟨⟩⟩ | ⟨-, ⟨⟩⟩
  · rcases (twoTenants_hasRole otherTenant role).mp hrole with ⟨hsame, -⟩ | ⟨-, rfl⟩
    · exact absurd hsame (by decide)
    · exact absurd hcarries (by decide)

end WaslaCore.Identity
