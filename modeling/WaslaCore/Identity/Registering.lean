import WaslaCore.Identity.Repository
import WaslaCore.Interleaving.Race

/-!
`registerIdentity` one database action at a time, and its racing repeats. A repeat is
answered from the channel link, which is looked up before the three rows are
inserted.
-/

namespace WaslaCore.Identity.Registering

open Platform Interleaving Data

/-- The identity tables as a call meets them. -/
structure Directory where
  store : Store
  outbox : List Event
  audit : List AuditEntry
  now : Int

inductive Query where
  | findLink (channelType : ChannelType) (externalId : String)
  | getIdentity (identityId : String)
  | findPrincipalByIdentity (identityId : String)

@[reducible] def Query.Answer : Query → Type
  | .findLink _ _ => Option IdentityLink
  | .getIdentity _ => Option Identity
  | .findPrincipalByIdentity _ => Option Principal

def Query.eval (store : Store) : (query : Query) → query.Answer
  | .findLink channelType externalId => store.findLink channelType externalId
  | .getIdentity identityId => store.getIdentity identityId
  | .findPrincipalByIdentity identityId => store.findPrincipalByIdentity identityId

inductive Action where
  | read (query : Query)
  | clock
  | newId
  | commit (uow : UnitOfWork Write)

@[reducible] def Action.Answer : Action → Type
  | .read query => query.Answer
  | .clock => Int
  | .newId => String
  | .commit _ => Except Thrown Unit

/-- All the staged rows, the audit entry and the event land, or none of them. -/
def Directory.commit (directory : Directory) (uow : UnitOfWork Write) : Except Thrown Directory :=
  match directory.store.applyAll uow.writes with
  | .error message => .error (.other message)
  | .ok store => .ok { directory with
      store := store
      audit := directory.audit ++ uow.audits.map AuditEntry.recorded
      outbox := directory.outbox ++ uow.events }

/-- The identifier stands somewhere in the identity tables. -/
def Directory.uses (directory : Directory) (id : String) : Bool :=
  (directory.store.identities.get id).isSome || (directory.store.principals.get id).isSome ||
    directory.store.principals.values.any (fun principal => principal.identityId = id)

/-- What the tables do not decide themselves: the identifier drawn, the time passed. -/
inductive Choice where
  | proceed
  | drawn (id : String)
  | elapsed (milliseconds : Nat)

/-- No outage, and every identifier drawn is a new one. -/
def perform : (action : Action) → Choice → Directory → Option (action.Answer × Directory)
  | .read query, .proceed, directory => some (query.eval directory.store, directory)
  | .clock, .proceed, directory => some (directory.now, directory)
  | .newId, .drawn id, directory =>
      if isId id && !directory.uses id then some (id, directory) else none
  | .commit uow, .proceed, directory =>
      match directory.commit uow with
      | .ok after => some (.ok (), after)
      | .error error => some (.error error, directory)
  | _, _, _ => none

def tick : Choice → Directory → Option Directory
  | .elapsed milliseconds, directory => some { directory with now := directory.now + milliseconds }
  | _, _ => none

def registry : System Directory Action Action.Answer Choice := ⟨perform, tick⟩

abbrev Call (β : Type) := Process Action Action.Answer Thrown β

abbrev Seen := History Action Action.Answer

def settled {β : Type} : Except Thrown β → Call β
  | .ok value => .done value
  | .error error => .fail error

def findLink (channelType : ChannelType) (externalId : String) : Call (Option IdentityLink) :=
  .act (.read (.findLink channelType externalId)) .done

def getIdentity (identityId : String) : Call (Option Identity) :=
  .act (.read (.getIdentity identityId)) .done

def findPrincipalByIdentity (identityId : String) : Call (Option Principal) :=
  .act (.read (.findPrincipalByIdentity identityId)) .done

def clock : Call Int := .act .clock .done

def newId : Call String := .act .newId .done

/-! ### The operation -/

structure RegisterIdentityInput where
  channelType : ChannelType
  externalId : String
  displayName : Option String := none
  sourceSystem : Option String := none
  legacyId : Option String := none
  serviceName : Option String := none
  correlationId : String

structure RegisterIdentityResult where
  identity : Identity
  principal : Principal
  created : Bool

/-- The three rows of one registration. -/
structure Registration where
  identity : Identity
  principal : Principal
  link : IdentityLink

/-- The rows a call builds of what it drew. -/
def newRegistration (input : RegisterIdentityInput) (now : Int)
    (identityId principalId identityLinkId : String) : Registration where
  identity :=
    { identityId := identityId
      status := .active
      canonicalIdentityId := none
      displayName := input.displayName
      createdAt := now
      sourceSystem := input.sourceSystem.getD "wasla-core"
      legacyId := input.legacyId }
  principal :=
    { principalId := principalId
      identityId := identityId
      createdAt := now
      serviceName := input.serviceName }
  link :=
    { identityLinkId := identityLinkId
      identityId := identityId
      channelType := input.channelType
      externalId := input.externalId
      verifiedAt := some now
      createdAt := now }

def stageRegistration (uow : UnitOfWork Write) (input : RegisterIdentityInput) (now : Int)
    (row : Registration) : UnitOfWork Write :=
  ((uow.stage [.insertIdentity row.identity, .insertPrincipal row.principal,
    .insertLink row.link]).emit
    ⟨"core.identity.verified", "identity", row.identity.identityId,
      [("identity_id", .text row.identity.identityId),
        ("principal_id", .text row.principal.principalId),
        ("channel_type", .text input.channelType.name), ("verified_at", .number now)]⟩).audit
    ⟨"identity.registered", "identity", row.identity.identityId,
      [("channel_type", .text input.channelType.name)]⟩

def registerIdentity (input : RegisterIdentityInput) : Call RegisterIdentityResult := do
  if isBlank input.externalId then throw (invalid "external_id is required")
  else if isBlank input.correlationId then throw (invalid "correlation_id is required")
  else
    match ← findLink input.channelType input.externalId with
    | some existingLink =>
        match ← getIdentity existingLink.identityId with
        | none => throw (notFound "identity referenced by link does not exist")
        | some identity =>
            match ← findPrincipalByIdentity identity.identityId with
            | none => throw (notFound "principal for identity does not exist")
            | some principal => pure ⟨identity, principal, false⟩
    | none =>
        let now ← clock
        let identityId ← newId
        let principalId ← newId
        let identityLinkId ← newId
        let row := newRegistration input now identityId principalId identityLinkId
        Process.act (.commit (stageRegistration UnitOfWork.empty input now row)) settled
        pure ⟨row.identity, row.principal, true⟩

/-! ### Racing registrations of one channel link -/

/-- A link, a legacy record and a service name nobody has yet. -/
structure RegisterReady (start : Directory) (input : RegisterIdentityInput) : Prop where
  externalId : isBlank input.externalId = false
  correlationId : isBlank input.correlationId = false
  unlinked : start.store.findLink input.channelType input.externalId = none
  legacy : input.legacyId.isSome → ∀ existing ∈ start.store.identities.values,
    existing.legacyId = input.legacyId → existing.sourceSystem ≠ input.sourceSystem.getD "wasla-core"
  named : input.serviceName ≠ some ""
  service : input.serviceName.isSome → ∀ existing ∈ start.store.principals.values,
    existing.serviceName ≠ input.serviceName

/-- The call was told that the channel is linked to nobody. -/
def MissedLink (input : RegisterIdentityInput) (seen : Seen) : Prop :=
  ⟨.read (.findLink input.channelType input.externalId), none⟩ ∈ seen

/-- A call told so acts only while it is so. -/
def LinkStillUnused (input : RegisterIdentityInput) (seen : Seen) (_ : Action)
    (directory : Directory) : Prop :=
  MissedLink input seen → directory.store.findLink input.channelType input.externalId = none

/-- The rows a copy builds, under identifiers not in use. -/
structure RegisterBuilt (start : Directory) (input : RegisterIdentityInput) (now : Int)
    (row : Registration) : Prop where
  identity : start.uses row.identity.identityId = false
  principal : start.uses row.principal.principalId = false
  rows : row = newRegistration input now row.identity.identityId row.principal.principalId
    row.link.identityLinkId

/-- The three rows are stored, and one event tells of them. -/
structure Registered (start : Directory) (input : RegisterIdentityInput) (row : Registration)
    (directory : Directory) : Prop where
  built : ∃ now, RegisterBuilt start input now row
  store : directory.store = { start.store with
    identities := start.store.identities.put row.identity.identityId row.identity
    principals := start.store.principals.put row.principal.principalId row.principal
    links := start.store.links.put (Store.linkKey input.channelType input.externalId) row.link }
  outbox : ∃ event, directory.outbox = start.outbox ++ [event]

/-- Nothing has been committed. -/
structure Idle (start directory : Directory) : Prop where
  store : directory.store = start.store
  outbox : directory.outbox = start.outbox

/-- What a copy may be told once its lookup has found `found`. -/
def registerView (start : Directory) (input : RegisterIdentityInput) (found : Option Registration) :
    Discipline Action Action.Answer where
  told action answer :=
    match action with
    | .read (.findLink _ _) => answer = found.map Registration.link ∧
        ∀ row, found = some row → row.link.identityId = row.identity.identityId
    | .read (.getIdentity _) => answer = found.map Registration.identity
    | .read (.findPrincipalByIdentity _) => answer = found.map Registration.principal
    | .clock => True
    | .newId => start.uses answer = false
    | .commit _ => answer = .ok ()
  owed seen action :=
    match action with
    | .read (.findLink channelType externalId) =>
        seen = [] ∧ channelType = input.channelType ∧ externalId = input.externalId
    | .read (.getIdentity identityId) =>
        seen ≠ [] ∧ ∃ row, found = some row ∧ identityId = row.identity.identityId
    | .read (.findPrincipalByIdentity identityId) =>
        seen ≠ [] ∧ ∃ row, found = some row ∧ identityId = row.identity.identityId
    | .clock => MissedLink input seen
    | .newId => MissedLink input seen
    | .commit uow => MissedLink input seen ∧ ∃ now row, RegisterBuilt start input now row ∧
        uow = stageRegistration UnitOfWork.empty input now row

/-- A copy is told of the registration by its own commit. -/
inductive RegisterTells (input : RegisterIdentityInput) :
    (action : Action) → action.Answer → Registration → Prop where
  | committed (now : Int) (row : Registration) : RegisterTells input
      (.commit (stageRegistration UnitOfWork.empty input now row)) (.ok ()) row

def registerRace (start : Directory) (input : RegisterIdentityInput) :
    Race Directory Action Action.Answer (Option Registration) Registration where
  view := registerView start input
  valid found directory := ∀ row, found = some row → Registered start input row directory
  inv directory := Idle start directory ∨ ∃ row, Registered start input row directory
  tells := RegisterTells input
  recorded := Registered start input

section Register

variable {start directory directory' : Directory} {input : RegisterIdentityInput}
variable {choice : Choice} {row : Registration}

theorem perform_read {query : Query} {answer : query.Answer}
    (h : perform (.read query) choice directory = some (answer, directory')) :
    answer = query.eval directory.store ∧ directory' = directory := by
  cases choice with
  | proceed =>
      obtain ⟨rfl, rfl⟩ := Prod.mk.inj (Option.some.inj h)
      exact ⟨rfl, rfl⟩
  | drawn id => cases h
  | elapsed milliseconds => cases h

theorem perform_clock {answer : Int}
    (h : perform .clock choice directory = some (answer, directory')) : directory' = directory := by
  cases choice with
  | proceed =>
      obtain ⟨-, rfl⟩ := Prod.mk.inj (Option.some.inj h)
      rfl
  | drawn id => cases h
  | elapsed milliseconds => cases h

theorem perform_newId {answer : String}
    (h : perform .newId choice directory = some (answer, directory')) :
    directory.uses answer = false ∧ directory' = directory := by
  cases choice with
  | drawn id =>
      simp only [perform] at h
      split at h
      · rename_i hnew
        obtain ⟨rfl, rfl⟩ := Prod.mk.inj (Option.some.inj h)
        simp only [Bool.and_eq_true, Bool.not_eq_true'] at hnew
        exact ⟨hnew.2, rfl⟩
      · cases h
  | proceed => cases h
  | elapsed milliseconds => cases h

theorem perform_commit {uow : UnitOfWork Write} {after : Directory}
    {answer : Except Thrown Unit} (hcommit : directory.commit uow = .ok after)
    (h : perform (.commit uow) choice directory = some (answer, directory')) :
    answer = .ok () ∧ directory' = after := by
  cases choice with
  | proceed =>
      simp only [perform, hcommit] at h
      obtain ⟨rfl, rfl⟩ := Prod.mk.inj (Option.some.inj h)
      exact ⟨rfl, rfl⟩
  | drawn id => cases h
  | elapsed milliseconds => cases h

theorem uses_false {id : String} (h : start.uses id = false) :
    start.store.identities.get id = none ∧ start.store.principals.get id = none ∧
      ∀ principal ∈ start.store.principals.values, principal.identityId ≠ id := by
  simp only [Directory.uses, Bool.or_eq_false_iff, List.any_eq_false, decide_eq_true_eq] at h
  exact ⟨by simpa using h.1.1, by simpa using h.1.2, h.2⟩

/-- On tables nothing has happened to, the commit of a new registration goes through. -/
theorem register_commits (ready : RegisterReady start input) {now : Int}
    (built : RegisterBuilt start input now row) (hidle : Idle start directory) :
    ∃ after, directory.commit (stageRegistration UnitOfWork.empty input now row) = .ok after ∧
      Registered start input row after := by
  obtain ⟨hidentity, -, howned⟩ := uses_false built.identity
  have hrows := built.rows
  have hstatus : row.identity.status = .active := by rw [hrows]; rfl
  have hcanonical : row.identity.canonicalIdentityId = none := by rw [hrows]; rfl
  have hlegacyId : row.identity.legacyId = input.legacyId := by rw [hrows]; rfl
  have hsource : row.identity.sourceSystem = input.sourceSystem.getD "wasla-core" := by
    rw [hrows]; rfl
  have hservice : row.principal.serviceName = input.serviceName := by rw [hrows]; rfl
  have howner : row.principal.identityId = row.identity.identityId := by rw [hrows]; rfl
  have hlinked : row.link.identityId = row.identity.identityId := by rw [hrows]; rfl
  have hchannel : row.link.channelType = input.channelType := by rw [hrows]; rfl
  have hexternal : row.link.externalId = input.externalId := by rw [hrows]; rfl
  have hlegacy : start.store.legacyTaken row.identity = false := by
    unfold Store.legacyTaken
    rw [hlegacyId, hsource]
    cases hsome : input.legacyId.isSome with
    | false => rfl
    | true =>
        simp only [Bool.true_and, List.any_eq_false, Bool.and_eq_true, decide_eq_true_eq, not_and]
        exact fun existing hmember hid => ready.legacy hsome existing hmember hid.2
  have hfree : ∀ store : Store, store.principals = start.store.principals →
      store.principalTaken row.principal = none := by
    intro store hsame
    unfold Store.principalTaken
    rw [List.findSome?_eq_none_iff, hsame]
    intro existing hmember
    have hmember := List.mem_of_mem_filter hmember
    rw [howner, hservice, if_neg (howned existing hmember), if_neg]
    simp only [Bool.and_eq_true, decide_eq_true_eq, not_and]
    exact fun hsome => ready.service hsome existing hmember
  have happly : directory.store.applyAll [.insertIdentity row.identity,
      .insertPrincipal row.principal, .insertLink row.link] = .ok { start.store with
        identities := start.store.identities.put row.identity.identityId row.identity
        principals := start.store.principals.put row.principal.principalId row.principal
        links := start.store.links.put (Store.linkKey input.channelType input.externalId)
          row.link } := by
    have hunlinked : start.store.links.get (Store.linkKey input.channelType input.externalId) =
      none := ready.unlinked
    simp [Store.applyAll, Store.apply, Store.insertIdentity, Store.insertPrincipal,
      Store.insertLink, Store.getIdentity, Store.findLink, hidle.store, hlegacy, hstatus,
      hcanonical, hfree, hservice, ready.named, howner, hlinked, hchannel, hexternal, hunlinked,
      Table.get_put_self]
  have hcommit : directory.commit (stageRegistration UnitOfWork.empty input now row) =
      .ok { directory with
        store := { start.store with
          identities := start.store.identities.put row.identity.identityId row.identity
          principals := start.store.principals.put row.principal.principalId row.principal
          links := start.store.links.put (Store.linkKey input.channelType input.externalId)
            row.link }
        audit := directory.audit ++
          (stageRegistration UnitOfWork.empty input now row).audits.map AuditEntry.recorded
        outbox := directory.outbox ++ (stageRegistration UnitOfWork.empty input now row).events } := by
    unfold Directory.commit
    rw [show (stageRegistration UnitOfWork.empty input now row).writes = [.insertIdentity
      row.identity, .insertPrincipal row.principal, .insertLink row.link] from rfl, happly]
  exact ⟨_, hcommit, ⟨now, built⟩, rfl, _, congrArg (· ++ _) hidle.outbox⟩

theorem Registered.link (h : Registered start input row directory) :
    directory.store.findLink input.channelType input.externalId = some row.link := by
  rw [Store.findLink, h.store, Table.get_put_self]

theorem Registered.identity (h : Registered start input row directory) :
    directory.store.getIdentity row.identity.identityId = some row.identity := by
  rw [Store.getIdentity, h.store, Table.get_put_self]

/-- The principal of a new identity is found by it: no older principal is. -/
theorem Registered.principal (h : Registered start input row directory) :
    directory.store.findPrincipalByIdentity row.identity.identityId = some row.principal := by
  obtain ⟨now, built⟩ := h.built
  obtain ⟨-, hfresh, -⟩ := uses_false built.principal
  obtain ⟨-, -, howned⟩ := uses_false built.identity
  have howner : row.principal.identityId = row.identity.identityId := by rw [built.rows]; rfl
  have hold : start.store.principals.values.find?
      (fun principal => principal.identityId = row.identity.identityId) = none := by
    rw [List.find?_eq_none]
    exact fun principal hmember => by simpa using howned principal hmember
  rw [Store.findPrincipalByIdentity, h.store, Table.values_put_new _ hfresh, List.find?_append, hold]
  simp [howner]

theorem register_races (ready : RegisterReady start input) {call : Call RegisterIdentityResult}
    (hcall : registerIdentity input = call) (found : Option Registration) :
    Keeps (registerView start input found) (fun later result => ∃ value row, result = .ok value ∧
      (registerRace start input).Ends found later row ∧ value.identity = row.identity ∧
        value.principal = row.principal) call [] := by
  rw [← hcall]
  unfold registerIdentity
  rw [if_neg (by simp [ready.externalId]), if_neg (by simp [ready.correlationId])]
  refine ⟨⟨rfl, rfl, rfl⟩, fun link hlink => ?_⟩
  obtain ⟨rfl, hlinked⟩ : link = found.map Registration.link ∧
    ∀ row, found = some row → row.link.identityId = row.identity.identityId := hlink
  cases found with
  | some row =>
      refine ⟨⟨by simp, row, rfl, hlinked row rfl⟩, fun identity hidentity => ?_⟩
      obtain rfl : identity = some row.identity := hidentity
      refine ⟨⟨by simp, row, rfl, rfl⟩, fun principal hprincipal => ?_⟩
      obtain rfl : principal = some row.principal := hprincipal
      exact ⟨_, row, rfl, .inr fun directory hvalid => hvalid row rfl, rfl, rfl⟩
  | none =>
      have hmissed : ∀ {later : Seen}, [⟨.read (.findLink input.channelType input.externalId),
          none⟩] <+: later → MissedLink input later :=
        fun hlater => hlater.subset (List.mem_singleton_self _)
      refine ⟨hmissed (List.prefix_refl _), fun now _ => ?_⟩
      refine ⟨hmissed (by simp), fun identityId hidentityId => ?_⟩
      refine ⟨hmissed (by simp), fun principalId hprincipalId => ?_⟩
      refine ⟨hmissed (by simp), fun identityLinkId _ => ?_⟩
      have built : RegisterBuilt start input now
          (newRegistration input now identityId principalId identityLinkId) :=
        ⟨hidentityId, hprincipalId, rfl⟩
      refine ⟨⟨hmissed (by simp), now, _, built, rfl⟩, fun answer hanswer => ?_⟩
      obtain rfl : answer = .ok () := hanswer
      exact ⟨_, _, rfl, .inl (.last _ (.committed now _)), rfl, rfl⟩

theorem RegisterTells.of_commit {uow : UnitOfWork Write} {answer : Except Thrown Unit}
    (h : RegisterTells input (.commit uow) answer row) :
    ∃ now, uow = stageRegistration UnitOfWork.empty input now row := by
  cases h
  exact ⟨_, rfl⟩

theorem stageRegistration_row {firstAt secondAt : Int} {first second : Registration}
    (h : stageRegistration UnitOfWork.empty input firstAt first =
      stageRegistration UnitOfWork.empty input secondAt second) : first = second := by
  have hwrites := congrArg UnitOfWork.writes h
  simp only [stageRegistration, UnitOfWork.empty, UnitOfWork.audit_writes, UnitOfWork.emit_writes,
    UnitOfWork.stage_writes, List.nil_append, List.cons.injEq, Write.insertIdentity.injEq,
    Write.insertPrincipal.injEq, Write.insertLink.injEq, and_true] at hwrites
  obtain ⟨hidentity, hprincipal, hlink⟩ := hwrites
  cases first
  cases second
  simp_all

theorem Registered.not_idle (h : Registered start input row directory) : ¬Idle start directory := by
  intro hidle
  obtain ⟨now, built⟩ := h.built
  have hget := h.identity
  rw [Store.getIdentity, hidle.store, (uses_false built.identity).1] at hget
  cases hget

/-- Where a copy acts on a lookup that found nothing, nothing has happened yet. -/
theorem register_idle {seen : Seen} {action : Action}
    (hinv : Idle start directory ∨ ∃ row, Registered start input row directory)
    (hmissed : MissedLink input seen) (hallowed : LinkStillUnused input seen action directory) :
    Idle start directory := by
  rcases hinv with hidle | ⟨row, hregistered⟩
  · exact hidle
  · have hnone := hallowed hmissed
    rw [hregistered.link] at hnone
    cases hnone

theorem register_sound (ready : RegisterReady start input) :
    (registerRace start input).Sound registry (LinkStillUnused input) where
  viewed _ := ⟨none, by rintro row ⟨⟩⟩
  act := by
    intro found seen action choice answer directory directory' hinv hvalid howed hallowed hperform
    cases action with
    | read query =>
        obtain ⟨hanswer, rfl⟩ := perform_read hperform
        refine ⟨hinv, Race.Later.refl _ _, by rintro row ⟨⟩, ?_⟩
        cases query with
        | findLink channelType externalId =>
            obtain ⟨hfirst, rfl, rfl⟩ := howed
            rcases hinv with hidle | ⟨row, hregistered⟩
            · refine ⟨none, by rintro row ⟨⟩, ⟨hanswer.trans ?_, by rintro row ⟨⟩⟩,
                fun hbegun => absurd hfirst hbegun⟩
              change directory'.store.findLink input.channelType input.externalId = none
              rw [hidle.store, ready.unlinked]
            · refine ⟨some row, ?_, ⟨hanswer.trans hregistered.link, ?_⟩,
                fun hbegun => absurd hfirst hbegun⟩
              · rintro other hother
                obtain rfl := Option.some.inj hother
                exact hregistered
              · rintro other hother
                obtain rfl := Option.some.inj hother
                obtain ⟨now, built⟩ := hregistered.built
                rw [built.rows]
                rfl
        | getIdentity identityId =>
            obtain ⟨-, row, rfl, rfl⟩ := howed
            exact ⟨some row, hvalid, hanswer.trans (hvalid row rfl).identity, fun _ => rfl⟩
        | findPrincipalByIdentity identityId =>
            obtain ⟨-, row, rfl, rfl⟩ := howed
            exact ⟨some row, hvalid, hanswer.trans (hvalid row rfl).principal, fun _ => rfl⟩
    | clock =>
        obtain rfl := perform_clock hperform
        exact ⟨hinv, Race.Later.refl _ _, by rintro row ⟨⟩, found, hvalid, trivial, fun _ => rfl⟩
    | newId =>
        have hidle := register_idle hinv howed hallowed
        obtain ⟨hnew, rfl⟩ := perform_newId hperform
        refine ⟨hinv, Race.Later.refl _ _, by rintro row ⟨⟩, found, hvalid, ?_, fun _ => rfl⟩
        rwa [Directory.uses, hidle.store] at hnew
    | commit uow =>
        obtain ⟨hmissed, now, row, built, rfl⟩ := howed
        have hidle := register_idle hinv hmissed hallowed
        obtain ⟨after, hcommit, hregistered⟩ := register_commits ready built hidle
        obtain ⟨hanswer, rfl⟩ := perform_commit hcommit hperform
        refine ⟨.inr ⟨row, hregistered⟩, ⟨?_, ?_⟩, ?_, found, ?_, hanswer, fun _ => rfl⟩
        · exact fun other hother row' hrow' => absurd hidle (hother row' hrow').not_idle
        · exact fun other hother => absurd hidle hother.not_idle
        · intro other htells
          obtain ⟨at', hsame⟩ := htells.of_commit
          rw [← stageRegistration_row hsame]
          exact hregistered
        · exact fun other hother => absurd hidle (hvalid other hother).not_idle
  tick := by
    intro choice directory directory' hinv htick
    cases choice with
    | elapsed milliseconds =>
        obtain rfl := Option.some.inj htick
        have hlater : ∀ row, Registered start input row directory → Registered start input row
            { directory with now := directory.now + milliseconds } :=
          fun row h => ⟨h.built, h.store, h.outbox⟩
        refine ⟨?_, fun found hvalid row hrow => hlater row (hvalid row hrow), hlater⟩
        rcases hinv with hidle | ⟨row, hregistered⟩
        · exact .inl ⟨hidle.store, hidle.outbox⟩
        · exact .inr ⟨row, hlater row hregistered⟩
    | proceed => cases htick
    | drawn id => cases htick

theorem Registered.identities (h : Registered start input row directory) :
    directory.store.identities.values = start.store.identities.values ++ [row.identity] := by
  obtain ⟨now, built⟩ := h.built
  rw [h.store]
  exact Table.values_put_new _ (uses_false built.identity).1

theorem Registered.principals (h : Registered start input row directory) :
    directory.store.principals.values = start.store.principals.values ++ [row.principal] := by
  obtain ⟨now, built⟩ := h.built
  rw [h.store]
  exact Table.values_put_new _ (uses_false built.principal).2.1

/-- Racing registrations of one link create one identity with one principal and
return them. -/
theorem register_recordedOnce (ready : RegisterReady start input)
    {world : World Directory Action Action.Answer Thrown RegisterIdentityResult}
    (hrun : Run registry (fun call => call = registerIdentity input) (LinkStillUnused input)
      (World.initial start) world) :
    RecordedOnce (fun directory => directory.store.identities.values) Directory.outbox
        RegisterIdentityResult.identity start world ∧
      RecordedOnce (fun directory => directory.store.principals.values) Directory.outbox
        RegisterIdentityResult.principal start world := by
  have hidle : (registerRace start input).inv start := .inl ⟨rfl, rfl⟩
  generalize hcall : registerIdentity input = call at hrun
  have hraces := register_races ready hcall
  constructor
  · apply (register_sound ready).partRecordedOnce Registration.identity _ hidle _ hrun
    · intro found
      apply (hraces found).mono
      rintro seen result ⟨value, row, hvalue, hends, hidentity, -⟩
      exact ⟨value, row, hvalue, hends, hidentity⟩
    · exact fun hregistered => ⟨hregistered.identities, hregistered.outbox⟩
  · apply (register_sound ready).partRecordedOnce Registration.principal _ hidle _ hrun
    · intro found
      apply (hraces found).mono
      rintro seen result ⟨value, row, hvalue, hends, -, hprincipal⟩
      exact ⟨value, row, hvalue, hends, hprincipal⟩
    · exact fun hregistered => ⟨hregistered.principals, hregistered.outbox⟩

end Register

end WaslaCore.Identity.Registering
