import WaslaCore.Identity.Access

/-!
What a run of requests can make of memberships. Only one route writes them, and it
asks its caller for `organization.write` in the organization granted into, whatever
roles are named. A grant hands on nothing new exactly where its caller covers every
role named, and a run of covered grants never puts a permission into anybody's
hands that no caller held when it began.
-/

namespace WaslaCore.Identity

open Platform Data

/-- A request whose body is read. `registerIdentity` carries the three rows a
registration commits, on a route that asks for no credential; `elsewhere` is any
request that leaves these tables alone: a read, a check, another module's route. -/
inductive Request where
  | grantMembership (principalId organizationId : String) (roles : List Role)
  | revokeSession (sessionId : String)
  | createOrganization
  | registerIdentity (identity : Identity) (principal : Principal) (link : IdentityLink)
  | elsewhere
  deriving DecidableEq, Repr

/-- A request with its credential, and what the service draws while it answers. -/
structure Arrival where
  now : Int
  drawn : String
  tokenHash : Option String
  request : Request
  deriving DecidableEq, Repr

def createOrganization (store : Store) (actor : AuthenticatedPrincipal) (organizationId : String) :
    Except Refusal Store := do
  authorize actor .organizationWrite none
  pure { store with organizations := store.organizations ++ [organizationId] }

/-- `POST /v1/memberships` once its body is read: the caller is asked for
`organization.write` in the organization named, and for nothing about the roles. -/
def postMembership (store : Store) (now : Int) (actor : AuthenticatedPrincipal)
    (membershipId principalId organizationId : String) (roles : List Role) :
    Except Refusal Store := do
  authorize actor .organizationWrite (some organizationId)
  grantMembership store now membershipId principalId organizationId roles

/-- What a registration commits, on a route that asks for no credential. -/
def registerIdentity (store : Store) (identity : Identity) (principal : Principal)
    (link : IdentityLink) : Except String Store :=
  store.applyAll [.insertIdentity identity, .insertPrincipal principal, .insertLink link]

/-- The store after a handler: a refused request changes nothing. -/
def settle {ε : Type} (store : Store) : Except ε Store → Store
  | .ok store' => store'
  | .error _ => store

/-- The store after a request. -/
def serve (store : Store) (arrival : Arrival) : Store :=
  let caller := authenticate store arrival.now arrival.tokenHash
  match arrival.request with
  | .grantMembership principalId organizationId roles =>
      settle store (do
        postMembership store arrival.now (← caller) arrival.drawn principalId organizationId roles)
  | .revokeSession sessionId =>
      settle store (do revokeSessionAs store arrival.now (← caller) sessionId)
  | .createOrganization => settle store (do createOrganization store (← caller) arrival.drawn)
  | .registerIdentity identity principal link =>
      settle store (registerIdentity store identity principal link)
  | .elsewhere => store

def serveAll (store : Store) : List Arrival → Store
  | [] => store
  | arrival :: rest => serveAll (serve store arrival) rest

/-- Who makes the requests of a run. -/
def callers (store : Store) : List Arrival → List String
  | [] => []
  | arrival :: rest =>
      match authenticate store arrival.now arrival.tokenHash with
      | .error _ => callers (serve store arrival) rest
      | .ok actor => actor.principalId :: callers (serve store arrival) rest

/-- A membership granted at some point of a run, the one who granted it, and the
store it was granted in. -/
structure Grant where
  granter : String
  store : Store
  organizationId : String
  roles : List Role

/-- The grant a request makes, where it goes through. -/
def grantOf (store : Store) (arrival : Arrival) : Option Grant :=
  match arrival.request, authenticate store arrival.now arrival.tokenHash with
  | .grantMembership principalId organizationId roles, .ok actor =>
      match postMembership store arrival.now actor arrival.drawn principalId organizationId roles with
      | .ok _ => some ⟨actor.principalId, store, organizationId, roles⟩
      | .error _ => none
  | _, _ => none

def grants (store : Store) : List Arrival → List Grant
  | [] => []
  | arrival :: rest => (grantOf store arrival).toList ++ grants (serve store arrival) rest

/-- Every permission the grant gives is one its granter held in that organization. -/
def Grant.WithinGranter (grant : Grant) : Prop :=
  ∀ role ∈ grant.roles, ∀ permission ∈ rolePermissions role,
    Holds grant.store grant.granter grant.organizationId permission

/-- Every role named is one the granter has in that organization, or the role of an
ordinary member named by an administrator or an agent of the organization. -/
def Grant.Covered (grant : Grant) : Prop :=
  ∀ role ∈ grant.roles,
    HasRole grant.store grant.granter grant.organizationId role ∨
      HasRole grant.store grant.granter grant.organizationId .platformAdmin ∨
      role = .orgMember ∧
        (HasRole grant.store grant.granter grant.organizationId .orgAdmin ∨
          HasRole grant.store grant.granter grant.organizationId .supportAgent)

/-- Each role has a permission no other role below `platform_admin` carries, except
the ordinary member's, which an administrator's and an agent's contain. -/
theorem rolePermissions_covered {role : Role} {has : Role → Prop}
    (h : ∀ permission ∈ rolePermissions role,
      ∃ held, has held ∧ permission ∈ rolePermissions held) :
    has role ∨ has .platformAdmin ∨ role = .orgMember ∧ (has .orgAdmin ∨ has .supportAgent) := by
  cases role with
  | platformAdmin =>
      obtain ⟨held, hhas, hcarries⟩ := h .eventsReplay (by decide)
      cases held with
      | platformAdmin => exact .inl hhas
      | _ => exact absurd hcarries (by decide)
  | orgAdmin =>
      obtain ⟨held, hhas, hcarries⟩ := h .organizationWrite (by decide)
      cases held with
      | platformAdmin => exact .inr (.inl hhas)
      | orgAdmin => exact .inl hhas
      | _ => exact absurd hcarries (by decide)
  | orgMember =>
      obtain ⟨held, hhas, hcarries⟩ := h .organizationRead (by decide)
      cases held with
      | platformAdmin => exact .inr (.inl hhas)
      | orgAdmin => exact .inr (.inr ⟨rfl, .inl hhas⟩)
      | orgMember => exact .inl hhas
      | supportAgent => exact .inr (.inr ⟨rfl, .inr hhas⟩)
      | service => exact absurd hcarries (by decide)
  | supportAgent =>
      obtain ⟨held, hhas, hcarries⟩ := h .supportAct (by decide)
      cases held with
      | platformAdmin => exact .inr (.inl hhas)
      | supportAgent => exact .inl hhas
      | _ => exact absurd hcarries (by decide)
  | service =>
      obtain ⟨held, hhas, hcarries⟩ := h .eventsSubmit (by decide)
      cases held with
      | platformAdmin => exact .inr (.inl hhas)
      | service => exact .inl hhas
      | _ => exact absurd hcarries (by decide)

/-- A grant stays within its granter exactly where the granter covers the roles. -/
theorem Grant.withinGranter_iff (grant : Grant) : grant.WithinGranter ↔ grant.Covered := by
  constructor
  · intro hwithin role hrole
    exact rolePermissions_covered (hwithin role hrole)
  · intro hcovered role hrole permission hcarries
    rcases hcovered role hrole with hhas | hadmin | ⟨rfl, hadmin | hagent⟩
    · exact ⟨role, hhas, hcarries⟩
    · exact ⟨.platformAdmin, hadmin, platformAdmin_permissions permission⟩
    · refine ⟨.orgAdmin, hadmin, ?_⟩
      revert hcarries
      cases permission <;> decide
    · refine ⟨.supportAgent, hagent, ?_⟩
      revert hcarries
      cases permission <;> decide

/-! ### What a request leaves in the membership table -/

namespace Store

/-- No write but one touches the memberships. -/
theorem apply_memberships {store store' : Store} {write : Write}
    (h : store.apply write = .ok store') :
    store'.memberships = store.memberships ∨ ∃ membership, write = .insertMembership membership := by
  cases write with
  | insertMembership membership => exact .inr ⟨membership, rfl⟩
  | insertIdentity identity =>
      simp only [apply, insertIdentity] at h
      split at h
      · cases h
      split at h
      · cases h
      split at h
      · cases h
      obtain rfl := Except.ok.inj h
      exact .inl rfl
  | insertPrincipal principal =>
      simp only [apply, insertPrincipal] at h
      split at h
      · cases h
      split at h
      · cases h
      split at h
      · cases h
      obtain rfl := Except.ok.inj h
      exact .inl rfl
  | insertLink link =>
      simp only [apply, insertLink] at h
      split at h
      · cases h
      split at h
      · cases h
      obtain rfl := Except.ok.inj h
      exact .inl rfl
  | insertSession session =>
      simp only [apply, insertSession, putSession] at h
      split at h
      · cases h
      split at h
      · cases h
      obtain rfl := Except.ok.inj h
      exact .inl rfl
  | updateSession session =>
      simp only [apply, putSession] at h
      split at h
      · cases h
      obtain rfl := Except.ok.inj h
      exact .inl rfl

theorem applyAll_memberships {store store' : Store} {writes : List Write}
    (h : store.applyAll writes = .ok store')
    (hnone : ∀ membership, Write.insertMembership membership ∉ writes) :
    store'.memberships = store.memberships := by
  induction writes generalizing store with
  | nil =>
      obtain rfl := Except.ok.inj h
      rfl
  | cons write rest ih =>
      simp only [applyAll] at h
      split at h
      · rename_i next hnext
        have hrest := ih h fun membership hmember => hnone membership (List.mem_cons_of_mem _ hmember)
        rcases apply_memberships hnext with hsame | ⟨membership, rfl⟩
        · rw [hrest, hsame]
        · exact absurd List.mem_cons_self (hnone membership)
      · cases h

end Store

/-- A request grants one membership, or leaves every membership as it was. -/
theorem serve_memberships (store : Store) (arrival : Arrival) :
    (serve store arrival).memberships = store.memberships ∨
      ∃ grant membership, grantOf store arrival = some grant ∧
        membership.organizationId = grant.organizationId ∧ membership.roles = grant.roles ∧
        (serve store arrival).memberships =
          store.memberships.put membership.membershipId membership := by
  obtain ⟨now, drawn, tokenHash, request⟩ := arrival
  cases hcaller : authenticate store now tokenHash with
  | error refusal =>
      cases request with
      | registerIdentity identity principal link =>
          simp only [serve]
          cases hcommit : registerIdentity store identity principal link with
          | error message => exact .inl rfl
          | ok store' => exact .inl (Store.applyAll_memberships hcommit (by simp))
      | _ => exact .inl (by simp [serve, hcaller, settle, bind, Except.bind])
  | ok actor =>
      cases request with
      | grantMembership principalId organizationId roles =>
          cases hpost : postMembership store now actor drawn principalId organizationId roles with
          | error refusal => exact .inl (by simp [serve, hcaller, settle, bind, Except.bind, hpost])
          | ok store' =>
              have hserved : serve store ⟨now, drawn, tokenHash,
                  .grantMembership principalId organizationId roles⟩ = store' := by
                simp [serve, hcaller, settle, bind, Except.bind, hpost]
              obtain ⟨_, -, hgranted⟩ := bind_ok.mp hpost
              obtain rfl := grantMembership_ok hgranted
              refine .inr ⟨⟨actor.principalId, store, organizationId, roles⟩,
                grantedMembership drawn principalId organizationId roles now, ?_, rfl, rfl, ?_⟩
              · simp [grantOf, hcaller, hpost]
              · rw [hserved]
                rfl
      | revokeSession sessionId =>
          cases hrevoked : revokeSessionAs store now actor sessionId with
          | error refusal => exact .inl (by simp [serve, hcaller, settle, bind, Except.bind, hrevoked])
          | ok store' =>
              have hsame := revokeSessionAs_ok hrevoked
              exact .inl (by simp [serve, hcaller, settle, bind, Except.bind, hrevoked, hsame])
      | createOrganization =>
          cases hcreated : createOrganization store actor drawn with
          | error refusal => exact .inl (by simp [serve, hcaller, settle, bind, Except.bind, hcreated])
          | ok store' =>
              obtain ⟨_, -, hstored⟩ := bind_ok.mp hcreated
              obtain rfl := Except.ok.inj hstored
              exact .inl (by simp [serve, hcaller, settle, bind, Except.bind, hcreated])
      | registerIdentity identity principal link =>
          simp only [serve]
          cases hcommit : registerIdentity store identity principal link with
          | error message => exact .inl rfl
          | ok store' => exact .inl (Store.applyAll_memberships hcommit (by simp))
      | elsewhere => exact .inl rfl

/-- A role somebody has after a request was there before or was just granted. -/
theorem hasRole_serve {store : Store} {arrival : Arrival} {principalId organizationId : String}
    {role : Role} (h : HasRole (serve store arrival) principalId organizationId role) :
    HasRole store principalId organizationId role ∨
      ∃ grant, grantOf store arrival = some grant ∧ organizationId = grant.organizationId ∧
        role ∈ grant.roles := by
  obtain ⟨membership, hmember, hprincipal, horganization, hrole⟩ := h
  rcases serve_memberships store arrival with
    hsame | ⟨grant, granted, hgrant, hwhere, hroles, hput⟩
  · rw [hsame] at hmember
    exact .inl ⟨membership, hmember, hprincipal, horganization, hrole⟩
  · rw [hput] at hmember
    rcases Table.mem_values_put hmember with hold | rfl
    · exact .inl ⟨membership, hold, hprincipal, horganization, hrole⟩
    · exact .inr ⟨grant, hgrant, horganization.symm.trans hwhere, hroles ▸ hrole⟩

theorem grantOf_caller {store : Store} {arrival : Arrival} {grant : Grant}
    (h : grantOf store arrival = some grant) (rest : List Arrival) :
    grant.store = store ∧ grant.granter ∈ callers store (arrival :: rest) := by
  unfold grantOf at h
  split at h
  · rename_i principalId organizationId roles actor _ hcaller
    split at h
    · obtain rfl := Option.some.inj h
      refine ⟨rfl, ?_⟩
      simp [callers, hcaller]
    · cases h
  · cases h

theorem mem_callers_tail {store : Store} {arrival : Arrival} {rest : List Arrival}
    {caller : String} (h : caller ∈ callers (serve store arrival) rest) :
    caller ∈ callers store (arrival :: rest) := by
  unfold callers
  split
  · exact h
  · exact List.mem_cons_of_mem _ h

/-- What a covered grant gives, its granter held in the same organization. -/
theorem holds_serve {store : Store} {arrival : Arrival} (rest : List Arrival)
    {principalId organizationId : String} {permission : Permission}
    (hcovered : ∀ grant, grantOf store arrival = some grant → grant.Covered)
    (h : Holds (serve store arrival) principalId organizationId permission) :
    Holds store principalId organizationId permission ∨
      ∃ caller ∈ callers store (arrival :: rest), Holds store caller organizationId permission := by
  obtain ⟨role, hrole, hcarries⟩ := h
  rcases hasRole_serve hrole with hold | ⟨grant, hgrant, rfl, hnamed⟩
  · exact .inl ⟨role, hold, hcarries⟩
  · obtain ⟨hstore, hcaller⟩ := grantOf_caller hgrant rest
    have hheld := grant.withinGranter_iff.mpr (hcovered grant hgrant) role hnamed permission hcarries
    rw [hstore] at hheld
    exact .inr ⟨grant.granter, hcaller, hheld⟩

/-- A covered grant by a caller without `platform_admin` does not name it. -/
theorem isPlatformAdmin_serve {store : Store} {arrival : Arrival} {principalId : String}
    (hcallers : ∀ caller ∈ callers store [arrival], ¬IsPlatformAdmin store caller)
    (hcovered : ∀ grant, grantOf store arrival = some grant → grant.Covered)
    (h : IsPlatformAdmin (serve store arrival) principalId) : IsPlatformAdmin store principalId := by
  obtain ⟨organizationId, hrole⟩ := h
  rcases hasRole_serve hrole with hold | ⟨grant, hgrant, -, hnamed⟩
  · exact ⟨organizationId, hold⟩
  · obtain ⟨hstore, hcaller⟩ := grantOf_caller hgrant []
    have hnot : ¬HasRole store grant.granter grant.organizationId .platformAdmin :=
      fun hadmin => hcallers grant.granter hcaller ⟨_, hadmin⟩
    rw [← hstore] at hnot
    rcases hcovered grant hgrant .platformAdmin hnamed with hadmin | hadmin | ⟨⟨⟩, -⟩
    · exact absurd hadmin hnot
    · exact absurd hadmin hnot

/-- A run of covered grants by callers without `platform_admin`: every grant stays
within its granter, nobody becomes `platform_admin`, and nobody comes to hold a
permission in an organization that no caller held there when the run began. -/
theorem serveAll_within {store : Store} {arrivals : List Arrival}
    (hcallers : ∀ caller ∈ callers store arrivals, ¬IsPlatformAdmin store caller)
    (hcovered : ∀ grant ∈ grants store arrivals, grant.Covered) :
    (∀ grant ∈ grants store arrivals, grant.WithinGranter) ∧
      (∀ principalId, IsPlatformAdmin (serveAll store arrivals) principalId →
        IsPlatformAdmin store principalId) ∧
      ∀ principalId organizationId permission,
        Holds (serveAll store arrivals) principalId organizationId permission →
          Holds store principalId organizationId permission ∨
            ∃ caller ∈ callers store arrivals, Holds store caller organizationId permission := by
  refine ⟨fun grant hgrant => grant.withinGranter_iff.mpr (hcovered grant hgrant), ?_⟩
  induction arrivals generalizing store with
  | nil => exact ⟨fun _ hadmin => hadmin, fun _ _ _ hholds => .inl hholds⟩
  | cons arrival rest ih =>
      have hone : ∀ grant, grantOf store arrival = some grant → grant.Covered := by
        intro grant hgrant
        exact hcovered grant (by simp [grants, hgrant])
      have hfirst : ∀ caller ∈ callers store [arrival], ¬IsPlatformAdmin store caller := by
        intro caller hcaller
        apply hcallers caller
        unfold callers at hcaller ⊢
        split at hcaller
        · cases hcaller
        · exact List.mem_cons.mpr ((List.mem_cons.mp hcaller).imp id (fun hnone => by cases hnone))
      have hadmins : ∀ principalId, IsPlatformAdmin (serve store arrival) principalId →
          IsPlatformAdmin store principalId :=
        fun principalId => isPlatformAdmin_serve hfirst hone
      obtain ⟨hadmin, hholds⟩ := ih
        (fun caller hcaller hbecame => hcallers caller (mem_callers_tail hcaller)
          (hadmins caller hbecame))
        (fun grant hgrant => hcovered grant (List.mem_append_right _ hgrant))
      refine ⟨fun principalId h => hadmins principalId (hadmin principalId h), ?_⟩
      intro principalId organizationId permission h
      rcases hholds principalId organizationId permission h with hheld | ⟨caller, hcaller, hheld⟩
      · exact holds_serve _ hone hheld
      · rcases holds_serve rest hone hheld with hbefore | hother
        · exact .inr ⟨caller, mem_callers_tail hcaller, hbefore⟩
        · exact .inr hother

/-! ### An administrator and a stranger -/

def bob : String := "bbbbbbbb-0000-4000-8000-000000000001"

/-- Alice's two organizations, and Bob who is a member of none. -/
def withBob : Store :=
  { twoTenants with
    identities := twoTenants.identities.put "stranger"
      ⟨"stranger", .active, none, none, 0, "wasla-core", none⟩
    principals := twoTenants.principals.put bob ⟨bob, "stranger", 0, none⟩ }

/-- Alice grants Bob a role in the organization she administers. -/
def grantsBob (role : Role) : Arrival :=
  ⟨0, "granted", some "hash", .grantMembership bob ownTenant [role]⟩

theorem withBob_hasRole (organizationId : String) (role : Role) :
    HasRole withBob alice organizationId role ↔
      organizationId = ownTenant ∧ role = .orgAdmin ∨
        organizationId = otherTenant ∧ role = .orgMember :=
  twoTenants_hasRole organizationId role

theorem not_isPlatformAdmin_alice : ¬IsPlatformAdmin withBob alice := by
  rintro ⟨organizationId, hadmin⟩
  rcases (withBob_hasRole organizationId .platformAdmin).mp hadmin with ⟨-, ⟨⟩⟩ | ⟨-, ⟨⟩⟩

theorem callers_grantsBob (role : Role) : ∀ caller ∈ callers withBob [grantsBob role],
    ¬IsPlatformAdmin withBob caller := by
  have hcallers : callers withBob [grantsBob role] = [alice] := by
    cases role <;> decide +kernel
  rw [hcallers]
  intro caller hcaller
  rw [List.mem_singleton.mp hcaller]
  exact not_isPlatformAdmin_alice

/-- Alice makes Bob an ordinary member. -/
theorem serveAll_within_member :
    (∃ grant ∈ grants withBob [grantsBob .orgMember], grant.WithinGranter) ∧
      ∀ principalId, IsPlatformAdmin (serveAll withBob [grantsBob .orgMember]) principalId →
        IsPlatformAdmin withBob principalId := by
  have hgrants : (grantOf withBob (grantsBob .orgMember)).map
      (fun grant => (grant.granter, grant.organizationId, grant.roles)) =
        some (alice, ownTenant, [.orgMember]) := by decide +kernel
  obtain ⟨grant, hgrant, hparts⟩ := Option.map_eq_some_iff.mp hgrants
  have hlist : grants withBob [grantsBob .orgMember] = [grant] := by simp [grants, hgrant]
  obtain ⟨hstore, -⟩ := grantOf_caller hgrant []
  simp only [Prod.mk.injEq] at hparts
  obtain ⟨hgranter, hwhere, hroles⟩ := hparts
  have hcovered : ∀ other ∈ grants withBob [grantsBob .orgMember], other.Covered := by
    rw [hlist]
    intro other hother role hrole
    rw [List.mem_singleton.mp hother] at hrole ⊢
    rw [hroles] at hrole
    refine .inr (.inr ⟨List.mem_singleton.mp hrole, .inl ?_⟩)
    rw [hstore, hgranter, hwhere]
    exact (withBob_hasRole ownTenant .orgAdmin).mpr (.inl ⟨rfl, rfl⟩)
  have hwithin := serveAll_within (callers_grantsBob .orgMember) hcovered
  refine ⟨⟨grant, ?_, hwithin.1 grant ?_⟩, hwithin.2.1⟩
  · simp [hlist]
  · simp [hlist]

/-- Nothing stops Alice from making Bob `platform_admin`, which she is not. -/
theorem serveAll_within_fails :
    ¬∀ (store : Store) (arrivals : List Arrival),
      (∀ caller ∈ callers store arrivals, ¬IsPlatformAdmin store caller) →
      (∀ grant ∈ grants store arrivals, grant.WithinGranter) ∧
        (∀ principalId, IsPlatformAdmin (serveAll store arrivals) principalId →
          IsPlatformAdmin store principalId) ∧
        ∀ principalId organizationId permission,
          Holds (serveAll store arrivals) principalId organizationId permission →
            Holds store principalId organizationId permission ∨
              ∃ caller ∈ callers store arrivals, Holds store caller organizationId permission := by
  intro h
  have hadmin := (h withBob [grantsBob .platformAdmin] (callers_grantsBob .platformAdmin)).2.1 bob
  have hgiven : (serveAll withBob [grantsBob .platformAdmin]).memberships.values.any
      (fun membership => membership.principalId = bob ∧ membership.organizationId = ownTenant ∧
        .platformAdmin ∈ membership.roles) = true := by decide +kernel
  obtain ⟨membership, hmember, hparts⟩ := List.any_eq_true.mp hgiven
  obtain ⟨hprincipal, hwhere, hrole⟩ := of_decide_eq_true hparts
  obtain ⟨organizationId, membership', hmember', hprincipal', -⟩ :=
    hadmin ⟨ownTenant, membership, hmember, hprincipal, hwhere, hrole⟩
  have hvalues : withBob.memberships.values =
      [⟨"first", alice, ownTenant, [.orgAdmin], 0⟩,
        ⟨"second", alice, otherTenant, [.orgMember], 0⟩] := rfl
  rw [hvalues] at hmember'
  simp only [List.mem_cons, List.not_mem_nil, or_false] at hmember'
  rcases hmember' with rfl | rfl
  · exact absurd hprincipal' (by decide)
  · exact absurd hprincipal' (by decide)

end WaslaCore.Identity
