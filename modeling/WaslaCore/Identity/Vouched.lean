import WaslaCore.Identity.SessionConduct

/-!
What a session vouches for, whatever the order of the calls: a token authenticates the principal
it was issued to, until it expires or is revoked and not afterwards; and whoever may not end a
session learns nothing about it.
-/

namespace WaslaCore.Identity.Sessions

open Platform Interleaving Data

/-! ### The contract -/

/-- What was stored at the start has only gone on since. -/
def Since (base : Desk) (row : Session) : Prop :=
  ∀ old, base.tables.sessions.get row.sessionId = some old → Continues old row

/-- What an answer, once given, tells of the desk of now. -/
def Known : (action : Action) → action.Answer → Desk → Prop
  | .read (.getPrincipal id), answer, _ => ∀ row, answer = some row → row.principalId = id
  | .read (.getSession id), answer, desk =>
      ∀ row, answer = some row → row.sessionId = id ∧ Stored desk row
  | .read (.getSessionByTokenHash hash), answer, desk =>
      ∀ row, answer = some row → row.tokenHash = hash ∧ Stored desk row
  | .clock, instant, desk => instant ≤ desk.now
  | .commit write _, answer, desk => answer = .ok () → Stored desk write.session
  | _, _, _ => True

/-- What an answer tells of the time since the start. -/
def Told (base : Desk) : (action : Action) → action.Answer → Prop
  | .clock, instant => base.now ≤ instant
  | .read (.getSession _), answer => ∀ row, answer = some row → Since base row
  | .read (.getSessionByTokenHash _), answer => ∀ row, answer = some row → Since base row
  | _, _ => True

theorem Known.stable {action : Action} {answer : action.Answer} {desk desk' : Desk}
    (hextends : Extends desk desk') (h : Known action answer desk) : Known action answer desk' := by
  cases action with
  | read query =>
      cases query with
      | getPrincipal id => exact h
      | getSession id => exact fun row hrow => ⟨(h row hrow).1, (h row hrow).2.extends hextends⟩
      | getSessionByTokenHash hash =>
          exact fun row hrow => ⟨(h row hrow).1, (h row hrow).2.extends hextends⟩
      | getIdentity id => trivial
      | listMemberships id => trivial
  | commit write entry => exact fun hok => (h hok).extends hextends
  | clock => exact le_trans h hextends.now
  | newToken => trivial
  | newId => trivial

def sessions (base : Desk) : Contract Desk Action Action.Answer where
  told := Told base
  owed := conduct.owed
  inv := fun desk => Coherent desk ∧ Extends base desk
  guar := Extends
  guar_refl := Extends.refl
  guar_trans := fun h h' => h.trans h'
  known := Known
  known_stable := fun hextends h => h.stable hextends

section Contracts

variable {base desk after : Desk} {hashToken : String → String}

theorem entriesOf_snoc (action id : String) (audit : List AuditEntry) (entry : AuditEntry) :
    entriesOf action id (audit ++ [entry.recorded]) =
      entriesOf action id audit + if entry.action = action ∧ entry.entityId = id then 1 else 0 := by
  simp [entriesOf, List.countP_singleton, AuditEntry.recorded]

/-- A session of now is the session of the start, gone on. -/
theorem Extends.since (h : Extends base desk) (hcoherent : Coherent desk) {id : String}
    {row : Session} (hrow : desk.tables.sessions.get id = some row) : Since base row := by
  intro old hold
  rw [(hcoherent.session id row hrow).1] at hold
  obtain ⟨row', hrow', hcontinues⟩ := h.session id old hold
  rw [hrow] at hrow'
  exact Option.some.inj hrow' ▸ hcontinues

theorem Coherent.stored (h : Coherent desk) {id : String} {row : Session}
    (hrow : desk.tables.sessions.get id = some row) : Stored desk row := by
  refine ⟨row, ?_, Continues.refl row⟩
  rw [(h.session id row hrow).1]
  exact hrow

theorem getSessionByTokenHash_some {hash : String} {row : Session}
    (h : desk.tables.getSessionByTokenHash hash = some row) :
    row.tokenHash = hash ∧ ∃ id, desk.tables.sessions.get id = some row := by
  have hfound := List.find?_some h
  exact ⟨of_decide_eq_true hfound, Table.mem_values.mp (List.mem_of_find?_eq_some h)⟩

/-- An issue under a new identifier. -/
theorem Coherent.issue (h : Coherent desk) {session : Session}
    (hfresh : desk.tables.sessions.get session.sessionId = none)
    (hnow : session.issuedAt ≤ desk.now)
    (hexpires : session.expiresAt = session.issuedAt + sessionTtlMs)
    (hrevoked : session.revokedAt = none)
    (hcommit : desk.commit (.insertSession session) (issuedEntry session) = .ok after) :
    Coherent after ∧ Extends desk after := by
  obtain ⟨rfl, htoken⟩ := commit_ok hcommit
  have hown : ∀ id row, desk.tables.sessions.get id = some row → row.tokenHash = session.tokenHash →
      id = session.sessionId := by
    intro id row hrow hsame
    rw [← htoken session rfl row (Table.mem_values.mpr ⟨id, hrow⟩) hsame]
    exact (h.session id row hrow).1.symm
  have hkept : ∀ id row, desk.tables.sessions.get id = some row →
      (desk.tables.sessions.put session.sessionId session).get id = some row := by
    intro id row hrow
    have hne : session.sessionId ≠ id := by
      rintro rfl
      rw [hfresh] at hrow
      cases hrow
    rw [Table.get_put_ne _ _ hne, hrow]
  refine ⟨⟨?_, ?_, h.principal, ?_, ?_⟩, fun id row hrow => ⟨row, hkept id row hrow, .refl row⟩,
    le_refl _⟩
  · intro id row hrow
    simp only [SessionWrite.session, Table.get_put] at hrow
    split at hrow
    · rename_i hid
      obtain rfl := Option.some.inj hrow
      exact ⟨hid, hnow, hexpires⟩
    · exact h.session id row hrow
  · intro id id' row row' hrow hrow' hsame
    simp only [SessionWrite.session, Table.get_put] at hrow hrow'
    split at hrow
    · rename_i hid
      obtain rfl := Option.some.inj hrow
      split at hrow'
      · rename_i hid'
        exact hid.symm.trans hid'
      · rw [hown id' row' hrow' hsame.symm]
        exact hid.symm
    · split at hrow'
      · rename_i hid'
        obtain rfl := Option.some.inj hrow'
        rw [hown id row hrow hsame]
        exact hid'
      · exact h.oneToken id id' row row' hrow hrow' hsame
  · intro id
    dsimp only [SessionWrite.session]
    rw [entriesOf_snoc, h.issued id]
    simp only [Table.get_put]
    by_cases hid : session.sessionId = id
    · subst hid
      simp [issuedEntry, hfresh]
    · simp [issuedEntry, hid]
  · intro id
    have hsame : entriesOf "session.revoked" id (desk.audit ++ [(issuedEntry session).recorded]) =
        entriesOf "session.revoked" id desk.audit := by
      rw [entriesOf_snoc]
      simp [issuedEntry]
    dsimp only [SessionWrite.session]
    rw [hsame, h.revoked id]
    simp only [Table.get_put]
    by_cases hid : session.sessionId = id
    · subst hid
      simp [hfresh, hrevoked]
    · simp [hid]

/-- A revocation of a session as it once was. -/
theorem Coherent.revoke (h : Coherent desk) {row stored : Session} {at_ : Int}
    (hrow : desk.tables.sessions.get row.sessionId = some stored)
    (hcontinues : Continues row stored)
    (hcommit : desk.commit (.updateSession { row with revokedAt := some at_ })
      (revokedEntry { row with revokedAt := some at_ }) = .ok after) :
    Coherent after ∧ Extends desk after := by
  obtain ⟨rfl, -⟩ := commit_ok hcommit
  have hstored : Continues stored { row with revokedAt := some at_ } :=
    ⟨hcontinues.sessionId.symm, hcontinues.principalId.symm, hcontinues.tokenHash.symm,
      hcontinues.channelType.symm, hcontinues.issuedAt.symm, hcontinues.expiresAt.symm,
      fun _ => rfl⟩
  -- Every row after the write goes on from the one before it, under the same identifier.
  have hback : ∀ id row', (desk.tables.sessions.put row.sessionId
      { row with revokedAt := some at_ }).get id = some row' →
      ∃ old, desk.tables.sessions.get id = some old ∧ Continues old row' ∧
        (row.sessionId = id ∧ row'.revokedAt.isSome ∨ row.sessionId ≠ id ∧ row' = old) := by
    intro id row' hget
    rw [Table.get_put] at hget
    split at hget
    · rename_i hid
      obtain rfl := Option.some.inj hget
      exact ⟨stored, hid ▸ hrow, hstored, .inl ⟨hid, rfl⟩⟩
    · rename_i hid
      exact ⟨row', hget, .refl row', .inr ⟨hid, rfl⟩⟩
  refine ⟨⟨?_, ?_, h.principal, ?_, ?_⟩, ?_, le_refl _⟩
  · intro id row' hget
    obtain ⟨old, hold, hon, -⟩ := hback id row' hget
    obtain ⟨hid, hnow, hexpires⟩ := h.session id old hold
    exact ⟨hon.sessionId.trans hid, hon.issuedAt ▸ hnow,
      by rw [hon.expiresAt, hon.issuedAt, hexpires]⟩
  · intro id id' first second hget hget' hsame
    obtain ⟨old, hold, hon, -⟩ := hback id first hget
    obtain ⟨old', hold', hon', -⟩ := hback id' second hget'
    exact h.oneToken id id' old old' hold hold' (by rw [← hon.tokenHash, ← hon'.tokenHash, hsame])
  · intro id
    dsimp only [SessionWrite.session]
    rw [entriesOf_snoc, h.issued id]
    simp only [Table.get_put]
    by_cases hid : row.sessionId = id
    · subst hid
      simp [revokedEntry, hrow]
    · simp [revokedEntry, hid]
  · intro id
    dsimp only [SessionWrite.session]
    rw [entriesOf_snoc]
    simp only [Table.get_put]
    by_cases hid : row.sessionId = id
    · subst hid
      simp [revokedEntry]
    · simp [revokedEntry, hid, h.revoked id]
  · intro id old hold
    by_cases hid : row.sessionId = id
    · subst hid
      rw [hrow] at hold
      obtain rfl := Option.some.inj hold
      exact ⟨_, Table.get_put_self _ _ _, hstored⟩
    · refine ⟨old, ?_, .refl old⟩
      simp only [SessionWrite.session]
      rw [Table.get_put_ne _ _ hid, hold]

theorem Coherent.known_read (h : Coherent desk) (query : Query) :
    Known (.read query) (query.eval desk.tables) desk := by
  cases query with
  | getPrincipal id => exact fun row hrow => h.principal id row hrow
  | getIdentity id => trivial
  | getSession id => exact fun row hrow => ⟨(h.session id row hrow).1, h.stored hrow⟩
  | getSessionByTokenHash hash =>
      intro row hrow
      obtain ⟨hhash, id, hget⟩ := getSessionByTokenHash_some hrow
      exact ⟨hhash, h.stored hget⟩
  | listMemberships id => trivial

theorem Extends.told_read (h : Extends base desk) (hcoherent : Coherent desk) (query : Query) :
    Told base (.read query) (query.eval desk.tables) := by
  cases query with
  | getSession id => exact fun row hrow => h.since hcoherent hrow
  | getSessionByTokenHash hash =>
      intro row hrow
      obtain ⟨-, id, hget⟩ := getSessionByTokenHash_some hrow
      exact h.since hcoherent hget
  | _ => trivial

/-- A commit that its call's history foresees. -/
theorem Coherent.commit {seen : Seen} {write : SessionWrite} {entry : AuditEntry}
    (h : Coherent desk) (hknown : ∀ entry ∈ seen, Known entry.1 entry.2 desk)
    (hforeseen : Foreseen seen write entry)
    (hfresh : ∀ id, ids.used (.commit write entry) = some id →
      ¬(desk.tables.sessions.get id).isSome)
    (hcommit : desk.commit write entry = .ok after) : Coherent after ∧ Extends desk after := by
  cases write with
  | insertSession session =>
      obtain ⟨rfl, hrevoked, hexpires, hclock⟩ := hforeseen
      have hnone : desk.tables.sessions.get session.sessionId = none := by
        simpa using hfresh _ rfl
      exact h.issue hnone (hknown _ hclock) hexpires hrevoked hcommit
  | updateSession session =>
      obtain ⟨rfl, id, row, at_, hread, rfl⟩ := hforeseen
      obtain ⟨-, stored, hrow, hcontinues⟩ := hknown _ hread row rfl
      exact h.revoke hrow hcontinues hcommit

theorem tick_coherent {choice : Choice} (h : Coherent desk)
    (htick : tick choice desk = some after) :
    Coherent after ∧ Extends desk after := by
  rcases tick_ok htick with ⟨milliseconds, rfl⟩ | ⟨write, tables, hbeside, happly, rfl⟩
  · have hlater : desk.now ≤ desk.now + milliseconds := by omega
    refine ⟨{ h with session := ?_ }, fun id row hrow => ⟨row, hrow, .refl row⟩, hlater⟩
    intro id row hrow
    obtain ⟨hid, hnow, hexpires⟩ := h.session id row hrow
    exact ⟨hid, hnow.trans hlater, hexpires⟩
  · obtain ⟨hsessions, hprincipals⟩ := beside_apply hbeside happly
    refine ⟨⟨?_, ?_, ?_, ?_, ?_⟩, ?_, le_refl _⟩
    · rw [hsessions]
      exact h.session
    · rw [hsessions]
      exact h.oneToken
    · intro id row hrow
      rcases hprincipals id row hrow with hold | hid
      · exact h.principal id row hold
      · exact hid
    · rw [hsessions]
      exact h.issued
    · rw [hsessions]
      exact h.revoked
    · intro id row hrow
      exact ⟨row, by rw [hsessions]; exact hrow, .refl row⟩

/-- A session is revoked where it is stored. -/
def Lawful : Action → Desk → Prop
  | .commit (.updateSession session) _, desk =>
      (desk.tables.sessions.get session.sessionId).isSome
  | _, _ => True

theorem ids_minted : ids.Minted desks Lawful (fun desk id => id ∈ desk.drawn)
    (fun desk id => (desk.tables.sessions.get id).isSome) where
  issued := by
    intro action choice desk answer after h
    cases action with
    | newId =>
        obtain ⟨hnew, rfl⟩ := perform_newId h
        refine ⟨List.nodup_singleton _, ?_⟩
        intro id hid
        rw [List.mem_singleton.mp hid]
        exact ⟨hnew, List.mem_cons_self⟩
    | _ => exact ⟨List.nodup_nil, by simp [ids]⟩
  kept := by
    intro action choice desk answer after h id hid
    cases action with
    | read query =>
        obtain ⟨-, rfl⟩ := perform_read h
        exact hid
    | clock =>
        obtain ⟨-, rfl⟩ := perform_clock h
        exact hid
    | newToken =>
        obtain rfl := perform_newToken h
        exact hid
    | newId =>
        obtain ⟨-, rfl⟩ := perform_newId h
        exact List.mem_cons_of_mem _ hid
    | commit write entry =>
        rcases perform_commit h with ⟨-, hcommit⟩ | ⟨-, rfl⟩
        · obtain ⟨rfl, -⟩ := commit_ok hcommit
          exact hid
        · exact hid
  stores := by
    intro action choice desk answer after hlawful h id hid
    cases action with
    | read query =>
        obtain ⟨-, rfl⟩ := perform_read h
        exact .inl hid
    | clock =>
        obtain ⟨-, rfl⟩ := perform_clock h
        exact .inl hid
    | newToken =>
        obtain rfl := perform_newToken h
        exact .inl hid
    | newId =>
        obtain ⟨-, rfl⟩ := perform_newId h
        exact .inl hid
    | commit write entry =>
        rcases perform_commit h with ⟨-, hcommit⟩ | ⟨-, rfl⟩
        · obtain ⟨rfl, -⟩ := commit_ok hcommit
          simp only [Table.get_put] at hid
          split at hid
          · rename_i hsame
            cases write with
            | insertSession session => exact .inr (congrArg some hsame)
            | updateSession session => exact .inl (hsame ▸ hlawful)
          · exact .inl hid
        · exact .inl hid
  ticks := by
    intro choice desk after h id
    rcases tick_ok h with ⟨milliseconds, rfl⟩ | ⟨write, tables, hbeside, happly, rfl⟩
    · exact ⟨fun hid => hid, fun hid => hid⟩
    · obtain ⟨hsessions, -⟩ := beside_apply hbeside happly
      exact ⟨fun hid => hid, fun hid => by rw [← hsessions]; exact hid⟩

theorem sessions_founded : Founded desks (requests hashToken) ids Lawful
    (fun desk id => id ∈ desk.drawn) (fun desk id => (desk.tables.sessions.get id).isSome) conduct
    sessions where
  minted := ids_minted
  keeps := by
    rintro call ⟨request, rfl⟩
    exact keeps_serve request
  free := fun _ _ => trivial
  spends := fun _ _ howed => howed.1
  owed := fun _ _ _ => Iff.rfl
  known := fun h _ => h
  rebase := by
    intro base desk hinv
    refine ⟨⟨hinv.1, Extends.refl _⟩, ?_⟩
    have hsince : ∀ row, Since desk row → Since base row := by
      intro row hrow old hold
      obtain ⟨row', hrow', hcontinues⟩ := hinv.2.session _ old hold
      exact hcontinues.trans (hrow row' hrow')
    intro action answer htold
    cases action with
    | read query =>
        cases query with
        | getSession id => exact fun row hrow => hsince row (htold row hrow)
        | getSessionByTokenHash hash => exact fun row hrow => hsince row (htold row hrow)
        | _ => trivial
    | clock => exact le_trans hinv.2.now htold
    | _ => trivial
  lawful := by
    intro base seen action desk hinv hknown howed
    cases action with
    | commit write entry =>
        cases write with
        | insertSession session => trivial
        | updateSession session =>
            obtain ⟨-, -, id, row, at_, hread, rfl⟩ := howed
            obtain ⟨-, stored, hrow, -⟩ := hknown _ hread row rfl
            simp [Lawful, hrow]
    | _ => trivial
  act := by
    intro base seen action choice answer desk after hinv hknown howed hstoring hperform
    obtain ⟨hcoherent, hbase⟩ := hinv
    cases action with
    | read query =>
        obtain ⟨rfl, rfl⟩ := perform_read hperform
        exact ⟨hbase.told_read hcoherent query, ⟨hcoherent, hbase⟩, Extends.refl _,
          hcoherent.known_read query⟩
    | clock =>
        obtain ⟨rfl, rfl⟩ := perform_clock hperform
        exact ⟨hbase.now, ⟨hcoherent, hbase⟩, Extends.refl _, le_refl _⟩
    | newToken =>
        obtain rfl := perform_newToken hperform
        exact ⟨trivial, ⟨hcoherent, hbase⟩, Extends.refl _, trivial⟩
    | newId =>
        obtain ⟨-, rfl⟩ := perform_newId hperform
        have hsame : Extends desk { desk with drawn := answer :: desk.drawn } :=
          ⟨fun _ row hrow => ⟨row, hrow, .refl row⟩, le_refl _⟩
        exact ⟨trivial, ⟨{ hcoherent with }, hbase.trans hsame⟩, hsame, trivial⟩
    | commit write entry =>
        rcases perform_commit hperform with ⟨rfl, hcommit⟩ | ⟨⟨error, rfl⟩, rfl⟩
        · obtain ⟨hcoherent', hextends⟩ :=
            hcoherent.commit hknown howed.2 hstoring.2 hcommit
          refine ⟨trivial, ⟨hcoherent', hbase.trans hextends⟩, hextends, fun _ => ?_⟩
          have hput : after.tables.sessions.get write.session.sessionId = some write.session := by
            obtain ⟨rfl, -⟩ := commit_ok hcommit
            exact Table.get_put_self _ _ _
          exact hcoherent'.stored hput
        · exact ⟨trivial, ⟨hcoherent, hbase⟩, Extends.refl _, fun hok => by cases hok⟩
  tick := by
    intro base choice desk after hinv htick
    obtain ⟨hcoherent, hextends⟩ := tick_coherent hinv.1 htick
    exact ⟨⟨hcoherent, hinv.2.trans hextends⟩, hextends⟩

end Contracts

abbrev SessionWorld := World Desk Action Action.Answer Refusal Reply

/-! ### Two sessions of one principal -/

def Reply.actor? : Reply → Option AuthenticatedPrincipal
  | .authenticated actor => some actor
  | _ => none

def Reply.isRevoked : Reply → Bool
  | .revoked => true
  | _ => false

theorem Reply.actor?_some {reply : Reply} {actor : AuthenticatedPrincipal}
    (h : reply.actor? = some actor) : reply = .authenticated actor := by
  cases reply with
  | authenticated other => rw [Option.some.inj h]
  | _ => cases h

def personId : String := "00000000-0000-4000-8000-00000000000a"

def firstId : String := "00000000-0000-4000-8000-000000000001"

def secondId : String := "00000000-0000-4000-8000-000000000002"

/-- One person, and nobody signed in. -/
def onePerson : Desk where
  tables := { Store.empty with
    identities := Table.empty.put "person" ⟨"person", .active, none, none, 0, "wasla-core", none⟩
    principals := Table.empty.put personId ⟨personId, "person", 0, none⟩ }
  audit := []
  now := 0
  drawn := []

theorem onePerson_opening : Opening onePerson := by
  refine ⟨rfl, ?_, rfl⟩
  intro id row hrow
  simp only [onePerson, Table.get_put, Table.get_empty] at hrow
  split at hrow
  · rename_i hid
    exact (Option.some.inj hrow) ▸ hid
  · cases hrow

def hashed (token : String) : String := "sha256:" ++ token

/-- Both sessions are issued, one after the other, with an hour in between. -/
def twoSessions : List (Move Action Action.Answer Choice Refusal Reply) :=
  [.start (serve hashed (.issueSession personId .telegram))] ++
  acts 0 [.proceed, .proceed, .proceed, .drawn "tango", .drawn firstId, .proceed] ++
  [.tick (.elapsed 3600000), .start (serve hashed (.issueSession personId .web))] ++
  acts 1 [.proceed, .proceed, .proceed, .drawn "whisky", .drawn secondId, .proceed]

/-- One call that starts and is played to its end. -/
def following (world : SessionWorld) (request : Request) (choices : List Choice) :
    Option SessionWorld :=
  play desks unrestricted (acts world.tasks.length choices)
    ⟨world.store, world.tasks ++ [⟨[], serve hashed request⟩]⟩

theorem following_run {world world' : SessionWorld} {request : Request} {choices : List Choice}
    (h : following world request choices = some world') :
    Run desks (requests hashed) anything
      ⟨world.store, world.tasks ++ [⟨[], serve hashed request⟩]⟩ world' :=
  play_run h (by simp [acts]) fun _ _ _ _ => trivial

theorem twoSessions_run {world : SessionWorld}
    (h : play desks unrestricted twoSessions (World.initial onePerson) = some world) :
    Run desks (requests hashed) anything (World.initial onePerson) world := by
  apply play_run h ?_ fun _ _ _ _ => trivial
  simp [twoSessions, acts, requests]

/-! ### What a session vouches for -/

section Results

variable {hashToken : String → String} {start : Desk} {world world' : SessionWorld}

/-- A point of a run of the service. -/
abbrev Reached (base : Desk) (world : SessionWorld) : Prop :=
  Founded.Reached ids (fun desk id => id ∈ desk.drawn)
    (fun desk id => (desk.tables.sessions.get id).isSome) sessions base world

theorem reached (hopening : Opening start)
    (hrun : Run desks (requests hashToken) anything (World.initial start) world) :
    Reached start world := by
  refine (sessions_founded.run (Founded.initial ⟨hopening.coherent, Extends.refl _⟩ ?_) hrun).2
  intro id hstored
  simp [hopening.sessions] at hstored

theorem extends_run (h : Reached start world)
    (hrun : Run desks (requests hashToken) anything world world') :
    Extends world.store world'.store := by
  have founded : Founded desks (requests hashToken) ids Lawful (fun desk id => id ∈ desk.drawn)
      (fun desk id => (desk.tables.sessions.get id).isSome) conduct sessions := sessions_founded
  exact (founded.run (founded.anew h) hrun).2.kept.inv.2

theorem keeps_issuedEnd (request : Request) :
    Keeps conduct (fun seen result => ∀ session token, result = .ok (.issued session token) →
      session.tokenHash = hashToken token ∧
        ⟨.commit (.insertSession session) (issuedEntry session), .ok ()⟩ ∈ seen)
      (serve hashToken request) [] := by
  cases request with
  | issueSession principalId channelType =>
      apply (keeps_reply _ (keeps_issueSession principalId channelType)).mono
      rintro seen result ⟨ended, hissued, rfl⟩ session token hended
      cases ended with
      | error error => cases hended
      | ok done =>
          obtain ⟨rfl, rfl⟩ := Reply.issued.inj (Except.ok.inj hended)
          exact (hissued done.1 done.2 rfl).2
  | revokeSession sessionId =>
      apply (keeps_reply _ (keeps_revokeSession sessionId)).mono
      rintro seen result ⟨ended, -, rfl⟩ session token hended
      cases ended <;> cases hended
  | revokeSessionAs actor sessionId =>
      apply (keeps_reply _ (keeps_revokeSessionAs actor sessionId)).mono
      rintro seen result ⟨ended, -, rfl⟩ session token hended
      cases ended <;> cases hended
  | authenticate token =>
      apply (keeps_reply _ (keeps_authenticate token)).mono
      rintro seen result ⟨ended, -, rfl⟩ session token' hended
      cases ended <;> cases hended

/-- A token that was handed out is stored, as its hash, with the session it was handed out with. -/
theorem issued_stored (hopening : Opening start)
    (hrun : Run desks (requests hashToken) anything (World.initial start) world)
    {task : Task Action Action.Answer Refusal Reply} (htask : task ∈ world.tasks)
    {session : Session} {token : String} (hdone : task.rest = .done (.issued session token)) :
    session.tokenHash = hashToken token ∧ Stored world.store session := by
  have hends := Run.ends (by
    rintro call ⟨request, rfl⟩
    exact keeps_issuedEnd request) (fun _ => trivial) hrun task htask
  rw [hdone] at hends
  obtain ⟨hhash, hcommitted⟩ := hends session token rfl
  exact ⟨hhash, (reached hopening hrun).kept.known task htask _ hcommitted rfl⟩

/-- What authenticating with a token comes to. -/
structure Vouched (hashToken : String → String) (token : String) (actor : AuthenticatedPrincipal)
    (world world' : SessionWorld) : Prop where
  /-- The session is the principal's, under the hash of the token. -/
  session : ∃ session, world'.store.tables.sessions.get actor.sessionId = some session ∧
    session.tokenHash = hashToken token ∧ session.principalId = actor.principalId ∧
    session.issuedAt ≤ world'.store.now ∧ world.store.now < session.issuedAt + sessionTtlMs
  issued : entriesOf "session.issued" actor.sessionId world'.store.audit = 1
  /-- It had not been revoked when the call started. -/
  unrevoked : entriesOf "session.revoked" actor.sessionId world.store.audit = 0
  /-- The token was handed out for no other session and to nobody else. -/
  handed : ∀ task ∈ world'.tasks, ∀ session, task.rest = .done (.issued session token) →
    session.sessionId = actor.sessionId ∧ session.principalId = actor.principalId

/-- The session that an authentication read, and where it stands when the call has returned. -/
theorem authenticated_read (hreached : Reached start world) {token : String}
    (hrun : Run desks (requests hashToken) anything
      ⟨world.store, world.tasks ++ [⟨[], serve hashToken (.authenticate token)⟩]⟩ world')
    {task : Task Action Action.Answer Refusal Reply} {actor : AuthenticatedPrincipal}
    (htask : world'.tasks[world.tasks.length]? = some task)
    (hdone : task.rest = .done (.authenticated actor)) :
    ∃ session stored, world'.store.tables.sessions.get actor.sessionId = some stored ∧
      Continues session stored ∧ Since world.store session ∧ session.sessionId = actor.sessionId ∧
      session.tokenHash = hashToken token ∧ session.principalId = actor.principalId ∧
      session.revokedAt = none ∧ world.store.now < session.expiresAt ∧
      Coherent world'.store := by
  obtain ⟨hend, hknown, hinv⟩ := sessions_founded.follows hreached ⟨.authenticate token, rfl⟩
    (keeps_reply Reply.authenticated (keeps_authenticate token)) hrun htask
  rw [hdone] at hend
  obtain ⟨⟨ended, hpost, hended⟩, htold⟩ := hend
  cases ended with
  | error error => cases hended
  | ok returned =>
      obtain rfl := Reply.authenticated.inj (Except.ok.inj hended)
      obtain ⟨session, now, principal, hread, hclock, hactive, hprincipal, hid, howner⟩ :=
        hpost _ rfl
      obtain ⟨hhash, stored, hstored, hcontinues⟩ := hknown _ hread session rfl
      have hinstant : world.store.now ≤ now := htold _ hclock
      have hkeyed : principal.principalId = session.principalId := hknown _ hprincipal principal rfl
      simp only [isSessionActive, Bool.and_eq_true, Option.isNone_iff_eq_none,
        decide_eq_true_eq] at hactive
      rw [← hid] at hstored
      refine ⟨session, stored, hstored, hcontinues, htold _ hread session rfl, hid.symm, hhash, ?_,
        hactive.1, by omega, hinv.1⟩
      rw [howner, hkeyed]

/-- A session that an authentication read as not revoked had not been revoked before. -/
theorem Since.unrevoked {base : Desk} {session : Session} (h : Since base session)
    (hcoherent : Coherent base) (hrevoked : session.revokedAt = none) :
    entriesOf "session.revoked" session.sessionId base.audit = 0 := by
  by_contra hentries
  have hpositive : 0 < entriesOf "session.revoked" session.sessionId base.audit := by
    omega
  obtain ⟨old, hold, hbefore⟩ := (hcoherent.revoked _).mp hpositive
  have hstill := (h old hold).revoked hbefore
  rw [hrevoked] at hstill
  cases hstill

/-- Whatever else goes on, a token authenticates the principal that its session was issued to,
within the session's time, and only if it had not been revoked before. -/
theorem session_vouches (hopening : Opening start)
    (hreach : Run desks (requests hashToken) anything (World.initial start) world)
    {token : String}
    (hrun : Run desks (requests hashToken) anything
      ⟨world.store, world.tasks ++ [⟨[], serve hashToken (.authenticate token)⟩]⟩ world')
    {task : Task Action Action.Answer Refusal Reply} {actor : AuthenticatedPrincipal}
    (htask : world'.tasks[world.tasks.length]? = some task)
    (hdone : task.rest = .done (.authenticated actor)) :
    Vouched hashToken token actor world world' := by
  have hreached := reached hopening hreach
  obtain ⟨session, stored, hstored, hcontinues, hsince, hid, hhash, howner, hrevoked, hinstant,
    hcoherent⟩ := authenticated_read hreached hrun htask hdone
  obtain ⟨-, hissuedAt, hexpires⟩ := hcoherent.session _ stored hstored
  refine ⟨⟨stored, hstored, hcontinues.tokenHash.trans hhash, hcontinues.principalId.trans howner,
    hissuedAt, ?_⟩, ?_, ?_, ?_⟩
  · rw [← hexpires, hcontinues.expiresAt]
    exact hinstant
  · rw [hcoherent.issued, hstored]
    rfl
  · rw [← hid]
    exact hsince.unrevoked hreached.kept.inv.1 hrevoked
  · intro other hother issued hissued
    have htotal : Run desks (requests hashToken) anything (World.initial start) world' :=
      (hreach.tail (.start ⟨.authenticate token, rfl⟩)).trans hrun
    obtain ⟨hhash', row, hrow, hon⟩ := issued_stored hopening htotal hother hissued
    have hsame := hcoherent.oneToken _ _ row stored hrow hstored (by
      rw [hon.tokenHash, hhash', hcontinues.tokenHash, hhash])
    refine ⟨hsame, ?_⟩
    rw [hsame, hstored] at hrow
    obtain rfl := Option.some.inj hrow
    rw [← hon.principalId, hcontinues.principalId, howner]

/-- The second token, half an hour before the first session expires. -/
theorem twoSessions_vouch :
    ∃ (actor : AuthenticatedPrincipal) (world world' : SessionWorld),
      actor.sessionId = secondId ∧ Vouched hashed "whisky" actor world world' := by
  have hplays : (play desks unrestricted twoSessions (World.initial onePerson)).any (fun world =>
      (following world (.authenticate "whisky")
        [.proceed, .proceed, .proceed, .proceed, .proceed]).any fun world' =>
          (world'.returned world.tasks.length).any fun reply =>
            reply.actor?.any fun actor => actor.sessionId = secondId) = true := by
    decide +kernel
  obtain ⟨world, hworld, hplays⟩ := (Option.any_eq_true _ _).mp hplays
  obtain ⟨world', hworld', hplays⟩ := (Option.any_eq_true _ _).mp hplays
  obtain ⟨reply, hreply, hplays⟩ := (Option.any_eq_true _ _).mp hplays
  obtain ⟨actor, hactor, hid⟩ := (Option.any_eq_true _ _).mp hplays
  obtain rfl := Reply.actor?_some hactor
  obtain ⟨task, htask, hdone⟩ := World.returned_some hreply
  exact ⟨actor, world, world', of_decide_eq_true hid, session_vouches onePerson_opening
    (twoSessions_run hworld) (following_run hworld') htask hdone⟩

/-- A call that ends a session, whoever makes it. -/
def Request.Ends (sessionId : String) (request : Request) : Prop :=
  request = .revokeSession sessionId ∨ ∃ actor, request = .revokeSessionAs actor sessionId

/-- What a call that has ended a session read and wrote. -/
def EndRead (sessionId : String) (seen : Seen) : Prop :=
  Revoked sessionId seen ∨ ∃ row, ⟨.read (.getSession sessionId), some row⟩ ∈ seen ∧
    Revoked row.sessionId seen

theorem keeps_ends {sessionId : String} {request : Request} (hends : request.Ends sessionId) :
    Keeps conduct (fun seen result => result = .ok .revoked → EndRead sessionId seen)
      (serve hashToken request) [] := by
  rcases hends with rfl | ⟨actor, rfl⟩
  · apply (keeps_reply _ (keeps_revokeSession sessionId)).mono
    rintro seen result ⟨ended, ⟨-, hrevoked⟩, rfl⟩ hok
    cases ended with
    | ok done => exact .inl (hrevoked rfl)
    | error error => cases hok
  · apply (keeps_reply _ (keeps_revokeSessionAs actor sessionId)).mono
    rintro seen result ⟨ended, hended, rfl⟩ hok
    cases ended with
    | ok done => exact .inr (hended.revoked rfl)
    | error error => cases hok

/-- Once a call that ends a session has returned, the session is revoked. -/
theorem revoked_stored {sessionId : String} {seen : Seen} {desk : Desk}
    (hknown : ∀ entry ∈ seen, Known entry.1 entry.2 desk) (h : EndRead sessionId seen) :
    ∃ row, desk.tables.sessions.get sessionId = some row ∧ row.revokedAt.isSome := by
  have hrevoked : Revoked sessionId seen := by
    rcases h with hrevoked | ⟨row, hread, hrevoked⟩
    · exact hrevoked
    · have hkeyed := (hknown _ hread row rfl).1
      rw [← hkeyed]
      exact hrevoked
  obtain ⟨row, hread, hbefore | ⟨at_, entry, hcommitted⟩⟩ := hrevoked
  · obtain ⟨hid, row', hrow', hcontinues⟩ := hknown _ hread row rfl
    exact ⟨row', hid ▸ hrow', hcontinues.revoked hbefore⟩
  · obtain ⟨hid, -⟩ := hknown _ hread row rfl
    obtain ⟨row', hrow', hcontinues⟩ : Stored desk { row with revokedAt := some at_ } :=
      hknown _ hcommitted rfl
    exact ⟨row', hid ▸ hrow', hcontinues.revoked rfl⟩

/-- After a call that ends a session has returned, no token authenticates as that session,
whatever calls are made in between and however many end it again. -/
theorem revocation_locks_out (hopening : Opening start) {sessionId : String} {request : Request}
    (hends : request.Ends sessionId)
    (hreach : Run desks (requests hashToken) anything (World.initial start) world)
    {middle later : SessionWorld}
    (hrun : Run desks (requests hashToken) anything
      ⟨world.store, world.tasks ++ [⟨[], serve hashToken request⟩]⟩ middle)
    {ending : Task Action Action.Answer Refusal Reply}
    (hending : middle.tasks[world.tasks.length]? = some ending)
    (hended : ending.rest = .done .revoked)
    (hlater : Run desks (requests hashToken) anything middle later) {token : String}
    (hrun' : Run desks (requests hashToken) anything
      ⟨later.store, later.tasks ++ [⟨[], serve hashToken (.authenticate token)⟩]⟩ world')
    {task : Task Action Action.Answer Refusal Reply} {actor : AuthenticatedPrincipal}
    (htask : world'.tasks[later.tasks.length]? = some task)
    (hdone : task.rest = .done (.authenticated actor)) : actor.sessionId ≠ sessionId := by
  rintro rfl
  have hreached := reached hopening hreach
  obtain ⟨hend, hknown, hinv⟩ := sessions_founded.follows hreached ⟨request, rfl⟩
    (keeps_ends hends) hrun hending
  rw [hended] at hend
  obtain ⟨row, hrow, hrevoked⟩ := revoked_stored hknown (hend.1 rfl)
  have hmiddle : Run desks (requests hashToken) anything (World.initial start) middle :=
    (hreach.tail (.start ⟨request, rfl⟩)).trans hrun
  have htotal := hmiddle.trans hlater
  obtain ⟨row', hrow', hcontinues⟩ :=
    (extends_run (reached hopening hmiddle) hlater).session _ row hrow
  have hentries := ((reached hopening htotal).kept.inv.1.revoked actor.sessionId).mpr
    ⟨row', hrow', hcontinues.revoked hrevoked⟩
  obtain ⟨session, -, -, -, hsince, hid, -, -, hopen, -⟩ :=
    authenticated_read (reached hopening htotal) hrun' htask hdone
  rw [← hid, hsince.unrevoked (reached hopening htotal).kept.inv.1 hopen] at hentries
  exact absurd hentries (lt_irrefl 0)

/-- The first session is ended; the second token still authenticates, as the second session. -/
theorem twoSessions_locked_out :
    ∃ actor : AuthenticatedPrincipal, actor.sessionId = secondId ∧ actor.sessionId ≠ firstId := by
  have hplays : (play desks unrestricted twoSessions (World.initial onePerson)).any (fun world =>
      (following world (.revokeSession firstId) [.proceed, .proceed, .proceed]).any fun middle =>
        (middle.returned world.tasks.length).any Reply.isRevoked &&
        (following middle (.authenticate "whisky")
          [.proceed, .proceed, .proceed, .proceed, .proceed]).any fun world' =>
            (world'.returned middle.tasks.length).any fun reply =>
              reply.actor?.any fun actor => actor.sessionId = secondId) = true := by
    decide +kernel
  obtain ⟨world, hworld, hplays⟩ := (Option.any_eq_true _ _).mp hplays
  obtain ⟨middle, hmiddle, hplays⟩ := (Option.any_eq_true _ _).mp hplays
  obtain ⟨hended, hplays⟩ := Bool.and_eq_true_iff.mp hplays
  obtain ⟨answer, hanswer, hends⟩ := (Option.any_eq_true _ _).mp hended
  obtain ⟨world', hworld', hplays⟩ := (Option.any_eq_true _ _).mp hplays
  obtain ⟨reply, hreply, hplays⟩ := (Option.any_eq_true _ _).mp hplays
  obtain ⟨actor, hactor, hid⟩ := (Option.any_eq_true _ _).mp hplays
  obtain rfl := Reply.actor?_some hactor
  obtain ⟨ending, hending, hdone⟩ := World.returned_some hanswer
  obtain ⟨task, htask, hdone'⟩ := World.returned_some hreply
  cases answer with
  | revoked =>
      exact ⟨actor, of_decide_eq_true hid, revocation_locks_out onePerson_opening (.inl rfl)
        (twoSessions_run hworld) (following_run hmiddle) hending hdone .refl (following_run hworld')
        htask hdone'⟩
  | _ => cases hends

/-- Whoever has no permission to end other people's sessions ends none of them, writes nothing in
trying, and is told the same whether there is such a session or not. -/
theorem revocation_not_an_oracle (hopening : Opening start)
    (hreach : Run desks (requests hashToken) anything (World.initial start) world)
    {actor : AuthenticatedPrincipal} (hactor : .identityWrite ∉ actor.permissions)
    {sessionId : String}
    (hrun : Run desks (requests hashToken) anything
      ⟨world.store, world.tasks ++ [⟨[], serve hashToken (.revokeSessionAs actor sessionId)⟩]⟩
      world')
    (hother : ∀ row, world'.store.tables.sessions.get sessionId = some row →
      row.principalId ≠ actor.principalId)
    {task : Task Action Action.Answer Refusal Reply}
    (htask : world'.tasks[world.tasks.length]? = some task) :
    (∀ reply, task.rest ≠ .done reply) ∧ ∀ error, task.rest = .fail error →
      error = denied sessionId ∧ ∀ entry ∈ task.seen, ∃ query, entry.1 = .read query := by
  obtain ⟨hend, hknown, hinv⟩ := sessions_founded.follows (reached hopening hreach)
    ⟨.revokeSessionAs actor sessionId, rfl⟩
    (keeps_reply _ (keeps_revokeSessionAs actor sessionId)) hrun htask
  have hentitled : ∀ ended, Ended actor sessionId task.seen ended →
      ended = .error (denied sessionId) ∧ ∀ entry ∈ task.seen, ∃ query, entry.1 = .read query := by
    intro ended h
    rcases h.entitled with hwrite | ⟨row, hread, howner⟩ | hdenied
    · exact absurd hwrite hactor
    · obtain ⟨hid, row', hrow', hcontinues⟩ := hknown _ hread row rfl
      exact absurd (hcontinues.principalId.trans howner) (hother row' (hid ▸ hrow'))
    · exact hdenied
  constructor
  · intro reply hdone
    rw [hdone] at hend
    obtain ⟨⟨ended, hpost, hended⟩, -⟩ := hend
    obtain ⟨rfl, -⟩ := hentitled ended hpost
    cases hended
  · intro error hfailed
    rw [hfailed] at hend
    obtain ⟨⟨ended, hpost, hended⟩, -⟩ := hend
    obtain ⟨rfl, hreads⟩ := hentitled ended hpost
    exact ⟨Except.error.inj hended, hreads⟩

/-- A stranger, and the first session. -/
theorem stranger_not_told :
    ∃ task : Task Action Action.Answer Refusal Reply,
      (∀ reply, task.rest ≠ .done reply) ∧ ∀ error, task.rest = .fail error →
        error = denied firstId ∧ ∀ entry ∈ task.seen, ∃ query, entry.1 = .read query := by
  let stranger : AuthenticatedPrincipal :=
    ⟨"stranger", "somebody", "session", [], [.orgAdmin], permissionsForRoles [.orgAdmin], none⟩
  have hplays : (play desks unrestricted twoSessions (World.initial onePerson)).any (fun world =>
      (following world (.revokeSessionAs stranger firstId) [.proceed]).any fun world' =>
        (world'.store.tables.sessions.get firstId).all
            (fun row => row.principalId ≠ stranger.principalId) &&
          world'.tasks[world.tasks.length]?.isSome) = true := by
    decide +kernel
  obtain ⟨world, hworld, hplays⟩ := (Option.any_eq_true _ _).mp hplays
  obtain ⟨world', hworld', hplays⟩ := (Option.any_eq_true _ _).mp hplays
  obtain ⟨hother, htold⟩ := Bool.and_eq_true_iff.mp hplays
  obtain ⟨task, htask⟩ := Option.isSome_iff_exists.mp htold
  have hstranger : Permission.identityWrite ∉ stranger.permissions := by decide
  refine ⟨task, revocation_not_an_oracle onePerson_opening (twoSessions_run hworld) hstranger
    (following_run hworld') ?_ htask⟩
  intro row hrow
  rw [hrow] at hother
  exact of_decide_eq_true hother

end Results

end WaslaCore.Identity.Sessions
