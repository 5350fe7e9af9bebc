import WaslaCore.Identity.Sessions
import WaslaCore.Interleaving.Founded

/-!
What holds of the sessions throughout every run. A session changes in nothing but its revocation,
which is never taken back; a token's hash names one session; and each issue and each revocation
stands in the audit trail.
-/

namespace WaslaCore.Identity.Sessions

open Platform Interleaving Data

/-! ### Sessions over time -/

/-- A session at a later time. -/
structure Continues (row row' : Session) : Prop where
  sessionId : row'.sessionId = row.sessionId
  principalId : row'.principalId = row.principalId
  tokenHash : row'.tokenHash = row.tokenHash
  channelType : row'.channelType = row.channelType
  issuedAt : row'.issuedAt = row.issuedAt
  expiresAt : row'.expiresAt = row.expiresAt
  revoked : row.revokedAt.isSome → row'.revokedAt.isSome

theorem Continues.refl (row : Session) : Continues row row :=
  ⟨rfl, rfl, rfl, rfl, rfl, rfl, fun h => h⟩

theorem Continues.trans {first second third : Session} (h : Continues first second)
    (h' : Continues second third) : Continues first third :=
  ⟨h'.sessionId.trans h.sessionId, h'.principalId.trans h.principalId,
    h'.tokenHash.trans h.tokenHash, h'.channelType.trans h.channelType,
    h'.issuedAt.trans h.issuedAt, h'.expiresAt.trans h.expiresAt,
    fun hrevoked => h'.revoked (h.revoked hrevoked)⟩

/-- The row is still there, as far as it does not change. -/
def Stored (desk : Desk) (row : Session) : Prop :=
  ∃ row', desk.tables.sessions.get row.sessionId = some row' ∧ Continues row row'

structure Extends (desk desk' : Desk) : Prop where
  session : ∀ id row, desk.tables.sessions.get id = some row →
    ∃ row', desk'.tables.sessions.get id = some row' ∧ Continues row row'
  now : desk.now ≤ desk'.now

theorem Extends.refl (desk : Desk) : Extends desk desk :=
  ⟨fun _ row hrow => ⟨row, hrow, Continues.refl row⟩, le_refl _⟩

theorem Extends.trans {first second third : Desk} (h : Extends first second)
    (h' : Extends second third) : Extends first third := by
  refine ⟨?_, h.now.trans h'.now⟩
  intro id row hrow
  obtain ⟨row', hrow', hcontinues⟩ := h.session id row hrow
  obtain ⟨row'', hrow'', hcontinues'⟩ := h'.session id row' hrow'
  exact ⟨row'', hrow'', hcontinues.trans hcontinues'⟩

theorem Stored.extends {desk desk' : Desk} {row : Session} (h : Stored desk row)
    (hextends : Extends desk desk') : Stored desk' row := by
  obtain ⟨row', hrow', hcontinues⟩ := h
  obtain ⟨row'', hrow'', hcontinues'⟩ := hextends.session _ row' hrow'
  exact ⟨row'', hrow'', hcontinues.trans hcontinues'⟩

structure Coherent (desk : Desk) : Prop where
  session : ∀ id row, desk.tables.sessions.get id = some row →
    row.sessionId = id ∧ row.issuedAt ≤ desk.now ∧ row.expiresAt = row.issuedAt + sessionTtlMs
  oneToken : ∀ id id' row row', desk.tables.sessions.get id = some row →
    desk.tables.sessions.get id' = some row' → row.tokenHash = row'.tokenHash → id = id'
  principal : ∀ id row, desk.tables.principals.get id = some row → row.principalId = id
  issued : ∀ id, entriesOf "session.issued" id desk.audit =
    if (desk.tables.sessions.get id).isSome then 1 else 0
  revoked : ∀ id, 0 < entriesOf "session.revoked" id desk.audit ↔
    ∃ row, desk.tables.sessions.get id = some row ∧ row.revokedAt.isSome

/-- A desk before any session, with principals stored under their own identifiers. -/
structure Opening (desk : Desk) : Prop where
  sessions : desk.tables.sessions = .empty
  principal : ∀ id row, desk.tables.principals.get id = some row → row.principalId = id
  audit : desk.audit = []

theorem Opening.coherent {desk : Desk} (h : Opening desk) : Coherent desk := by
  obtain ⟨hsessions, hprincipal, haudit⟩ := h
  refine ⟨?_, ?_, hprincipal, ?_, ?_⟩ <;> simp [hsessions, haudit, entriesOf]

/-! ### What each step does -/

section Steps

variable {desk after : Desk} {choice : Choice}

theorem perform_read {query : Query} {answer : query.Answer}
    (h : perform (.read query) choice desk = some (answer, after)) :
    answer = query.eval desk.tables ∧ after = desk := by
  cases choice with
  | proceed =>
      obtain ⟨rfl, rfl⟩ := Prod.mk.inj (Option.some.inj h)
      exact ⟨rfl, rfl⟩
  | _ => cases h

theorem perform_clock {answer : Int} (h : perform .clock choice desk = some (answer, after)) :
    answer = desk.now ∧ after = desk := by
  cases choice with
  | proceed =>
      obtain ⟨rfl, rfl⟩ := Prod.mk.inj (Option.some.inj h)
      exact ⟨rfl, rfl⟩
  | _ => cases h

theorem perform_newToken {answer : String}
    (h : perform .newToken choice desk = some (answer, after)) : after = desk := by
  cases choice with
  | drawn token =>
      obtain ⟨-, rfl⟩ := Prod.mk.inj (Option.some.inj h)
      rfl
  | _ => cases h

theorem perform_newId {answer : String}
    (h : perform .newId choice desk = some (answer, after)) :
    answer ∉ desk.drawn ∧ after = { desk with drawn := answer :: desk.drawn } := by
  cases choice with
  | drawn id =>
      simp only [perform] at h
      split at h
      · rename_i hnew
        obtain ⟨rfl, rfl⟩ := Prod.mk.inj (Option.some.inj h)
        exact ⟨by simpa using (Bool.and_eq_true_iff.mp hnew).2, rfl⟩
      · cases h
  | _ => cases h

theorem perform_commit {write : SessionWrite} {entry : AuditEntry} {answer : Except Refusal Unit}
    (h : perform (.commit write entry) choice desk = some (answer, after)) :
    answer = .ok () ∧ desk.commit write entry = .ok after ∨
      (∃ error, answer = .error error) ∧ after = desk := by
  cases choice with
  | proceed =>
      simp only [perform] at h
      split at h
      · rename_i landed hcommit
        obtain ⟨rfl, rfl⟩ := Prod.mk.inj (Option.some.inj h)
        exact .inl ⟨rfl, hcommit⟩
      · rename_i message hcommit
        obtain ⟨rfl, rfl⟩ := Prod.mk.inj (Option.some.inj h)
        exact .inr ⟨⟨_, rfl⟩, rfl⟩
  | failed error =>
      obtain ⟨rfl, rfl⟩ := Prod.mk.inj (Option.some.inj h)
      exact .inr ⟨⟨error, rfl⟩, rfl⟩
  | _ => cases h

/-- Every committed session is stored under its own identifier, beside the entry; an inserted one
has a token of its own. -/
theorem commit_ok {write : SessionWrite} {entry : AuditEntry}
    (h : desk.commit write entry = .ok after) :
    after = { desk with
        tables := { desk.tables with
          sessions := desk.tables.sessions.put write.session.sessionId write.session }
        audit := desk.audit ++ [entry.recorded] } ∧
      ∀ session, write = .insertSession session → ∀ existing ∈ desk.tables.sessions.values,
        existing.tokenHash = session.tokenHash → existing.sessionId = session.sessionId := by
  have hput : ∀ {session : Session} {tables : Store},
      desk.tables.putSession session = .ok tables → tables = { desk.tables with
        sessions := desk.tables.sessions.put session.sessionId session } := by
    intro session tables hput
    unfold Store.putSession at hput
    split at hput
    · cases hput
    · exact (Except.ok.inj hput).symm
  unfold Desk.commit at h
  cases happly : desk.tables.apply write.write with
  | error message =>
      rw [happly] at h
      cases h
  | ok tables =>
      rw [happly] at h
      obtain rfl := Except.ok.inj h
      cases write with
      | insertSession session =>
          simp only [SessionWrite.write, Store.apply, Store.insertSession] at happly
          split at happly
          · cases happly
          · rename_i hfree
            obtain rfl := hput happly
            refine ⟨rfl, ?_⟩
            intro other hother existing hmember htoken
            cases hother
            by_contra hne
            exact hfree (List.any_eq_true.mpr ⟨existing, hmember, by simp [hne, htoken]⟩)
      | updateSession session =>
          obtain rfl := hput happly
          refine ⟨rfl, ?_⟩
          intro other hother
          cases hother

/-- Beside the sessions nothing happens to a session, and principals stay under their names. -/
theorem beside_apply {tables tables' : Store} {write : Write} (hbeside : beside write = true)
    (h : tables.apply write = .ok tables') :
    tables'.sessions = tables.sessions ∧ ∀ id row, tables'.principals.get id = some row →
      tables.principals.get id = some row ∨ row.principalId = id := by
  cases write with
  | insertIdentity identity =>
      simp only [Store.apply, Store.insertIdentity] at h
      split at h
      · cases h
      split at h
      · cases h
      split at h
      · cases h
      obtain rfl := Except.ok.inj h
      exact ⟨rfl, fun id row hrow => .inl hrow⟩
  | insertPrincipal principal =>
      simp only [Store.apply, Store.insertPrincipal] at h
      split at h
      · cases h
      split at h
      · cases h
      split at h
      · cases h
      obtain rfl := Except.ok.inj h
      refine ⟨rfl, fun id row hrow => ?_⟩
      dsimp only at hrow
      rw [Table.get_put] at hrow
      split at hrow
      · rename_i hid
        exact .inr ((Option.some.inj hrow) ▸ hid)
      · exact .inl hrow
  | insertLink link =>
      simp only [Store.apply, Store.insertLink] at h
      split at h
      · cases h
      split at h
      · cases h
      obtain rfl := Except.ok.inj h
      exact ⟨rfl, fun id row hrow => .inl hrow⟩
  | insertSession session => cases hbeside
  | updateSession session => cases hbeside
  | insertMembership membership =>
      obtain rfl := Store.insertMembership_ok h
      exact ⟨rfl, fun id row hrow => .inl hrow⟩

theorem tick_ok (h : tick choice desk = some after) :
    (∃ milliseconds : Nat, after = { desk with now := desk.now + milliseconds }) ∨
      ∃ write tables, beside write = true ∧ desk.tables.apply write = .ok tables ∧
        after = { desk with tables := tables } := by
  cases choice with
  | elapsed milliseconds => exact .inl ⟨milliseconds, (Option.some.inj h).symm⟩
  | written write =>
      simp only [tick] at h
      split at h
      · rename_i hbeside
        split at h
        · rename_i tables happly
          exact .inr ⟨write, tables, hbeside, happly, (Option.some.inj h).symm⟩
        · cases h
      · cases h
  | _ => cases h

end Steps

/-! ### What the calls owe -/

/-- Identifiers, from the draw to the insert. -/
def ids : Tokens Action Action.Answer String where
  issued
    | .newId, id => [id]
    | .read _, _ => []
    | .clock, _ => []
    | .newToken, _ => []
    | .commit _ _, _ => []
  used
    | .commit (.insertSession session) _ => some session.sessionId
    | .commit (.updateSession _) _ => none
    | .read _ => none
    | .clock => none
    | .newToken => none
    | .newId => none

/-- A session is issued at the instant read for it, and revoked as it was read. -/
def Foreseen (seen : Seen) : SessionWrite → AuditEntry → Prop
  | .insertSession session, entry => entry = issuedEntry session ∧ session.revokedAt = none ∧
      session.expiresAt = session.issuedAt + sessionTtlMs ∧ ⟨.clock, session.issuedAt⟩ ∈ seen
  | .updateSession session, entry => entry = revokedEntry session ∧ ∃ id row at_,
      ⟨.read (.getSession id), some row⟩ ∈ seen ∧ session = { row with revokedAt := some at_ }

/-- Nothing is relied on that is not in the history. -/
def conduct : Discipline Action Action.Answer where
  told := fun _ _ => True
  owed := fun seen action =>
    ids.spending.owed seen action ∧
      match action with
      | .commit write entry => Foreseen seen write entry
      | _ => True

section Calls

variable {hashToken : String → String} {β γ : Type} {seen : Seen}
variable {post : Seen → Except Refusal γ → Prop}

/-- Only a commit is owed anything. -/
theorem keeps_asked_bind {action : Action} {next : action.Answer → Call γ}
    (hasks : ∀ write entry, action ≠ .commit write entry)
    (h : ∀ answer, Keeps conduct post (next answer) (seen ++ [⟨action, answer⟩])) :
    Keeps conduct post (.act action .done >>= next) seen := by
  refine ⟨?_, fun answer _ => h answer⟩
  cases action with
  | commit write entry => exact absurd rfl (hasks write entry)
  | _ =>
      refine ⟨?_, trivial⟩
      intro id hid
      cases hid

theorem keeps_read_bind {query : Query} {next : query.Answer → Call γ}
    (h : ∀ answer, Keeps conduct post (next answer) (seen ++ [⟨.read query, answer⟩])) :
    Keeps conduct post (read query >>= next) seen := keeps_asked_bind (by simp) h

theorem keeps_clock_bind {next : Int → Call γ}
    (h : ∀ instant, Keeps conduct post (next instant) (seen ++ [⟨.clock, instant⟩])) :
    Keeps conduct post (clock >>= next) seen := keeps_asked_bind (by simp) h

theorem keeps_newToken_bind {next : String → Call γ}
    (h : ∀ token, Keeps conduct post (next token) (seen ++ [⟨.newToken, token⟩])) :
    Keeps conduct post (newToken >>= next) seen := keeps_asked_bind (by simp) h

theorem keeps_newId_bind {next : String → Call γ}
    (h : ∀ id, Keeps conduct post (next id) (seen ++ [⟨.newId, id⟩])) :
    Keeps conduct post (newId >>= next) seen := keeps_asked_bind (by simp) h

theorem keeps_settled_bind {result : Except Refusal β} {next : β → Call γ}
    (hok : ∀ value, result = .ok value → Keeps conduct post (next value) seen)
    (herror : ∀ error, result = .error error → post seen (.error error)) :
    Keeps conduct post (settled result >>= next) seen := by
  cases result with
  | ok value => exact hok value rfl
  | error error => exact herror error rfl

theorem keeps_withTransaction {write : SessionWrite} {entry : AuditEntry}
    {post : Seen → Except Refusal Unit → Prop}
    (hid : ids.spending.owed seen (.commit write entry)) (hforeseen : Foreseen seen write entry)
    (hok : post (seen ++ [⟨.commit write entry, .ok ()⟩]) (.ok ()))
    (herror : ∀ error, post (seen ++ [⟨.commit write entry, .error error⟩]) (.error error)) :
    Keeps conduct post (withTransaction write entry) seen := by
  refine ⟨⟨hid, hforeseen⟩, fun answer _ => ?_⟩
  cases answer with
  | ok done => exact hok
  | error error => exact herror error

/-- How `issueSession` comes by what it returns. -/
def Issued (hashToken : String → String) (principalId : String) (seen : Seen) (session : Session)
    (token : String) : Prop :=
  (∃ principal, ⟨.read (.getPrincipal principalId), some principal⟩ ∈ seen ∧
      session.principalId = principal.principalId) ∧
    session.tokenHash = hashToken token ∧
    ⟨.commit (.insertSession session) (issuedEntry session), .ok ()⟩ ∈ seen

theorem keeps_issueSession (principalId : String) (channelType : ChannelType) :
    Keeps conduct (fun later result => ∀ session token, result = .ok (session, token) →
        Issued hashToken principalId later session token)
      (issueSession hashToken principalId channelType) [] := by
  unfold issueSession
  apply keeps_settled_bind
  · intro _ _
    apply keeps_read_bind
    intro found
    cases found with
    | none =>
        intro session token h
        cases h
    | some principal =>
        apply keeps_read_bind
        intro found
        cases found with
        | none =>
            intro session token h
            cases h
        | some identity =>
            dsimp only
            split
            · intro session token h
              cases h
            · apply keeps_clock_bind
              intro now
              apply keeps_newToken_bind
              intro token
              apply keeps_newId_bind
              intro id
              apply Keeps.bind (p := fun later ended => ended = .ok () →
                Issued hashToken principalId later ⟨id, principal.principalId, hashToken token,
                  channelType, now, now + sessionTtlMs, none⟩ token)
              · apply keeps_withTransaction
                · intro other hother
                  obtain rfl := Option.some.inj hother
                  simp [ids, Tokens.issuedIn, Tokens.usedIn]
                · exact ⟨rfl, rfl, rfl, by simp⟩
                · exact fun _ => ⟨⟨principal, by simp, rfl⟩, rfl, by simp⟩
                · intro error h
                  cases h
              · intro later value hissued session token' h
                cases h
                exact hissued rfl
              · intro later error _ session token' h
                cases h
  · intro error _ session token h
    cases h

/-- How a revocation ends well: the session was read revoked, or was revoked. -/
def Revoked (sessionId : String) (seen : Seen) : Prop :=
  ∃ row, ⟨.read (.getSession sessionId), some row⟩ ∈ seen ∧ (row.revokedAt.isSome ∨
    ∃ at_ entry, ⟨.commit (.updateSession { row with revokedAt := some at_ }) entry, .ok ()⟩ ∈ seen)

theorem keeps_revokeSession (sessionId : String) :
    Keeps conduct (fun later result => seen <+: later ∧ (result = .ok () → Revoked sessionId later))
      (revokeSession sessionId) seen := by
  have hrevokes : Keeps conduct (fun later result => result = .ok () → Revoked sessionId later)
      (revokeSession sessionId) seen := by
    unfold revokeSession
    apply keeps_settled_bind
    · intro _ _
      apply keeps_read_bind
      intro found
      cases found with
      | none =>
          intro h
          cases h
      | some row =>
          dsimp only
          split
          · rename_i hrevoked
            exact fun _ => ⟨row, by simp, .inl hrevoked⟩
          · apply keeps_clock_bind
            intro now
            apply keeps_withTransaction
            · intro id hid
              cases hid
            · exact ⟨rfl, sessionId, row, now, by simp, rfl⟩
            · exact fun _ =>
                ⟨row, by simp, .inr ⟨now, _, List.mem_append_right _ List.mem_cons_self⟩⟩
            · intro error h
              cases h
    · intro error _ h
      cases h
  exact hrevokes.grows

/-- What a caller is told who may not end the session: the same whether there is one or not. -/
def denied (sessionId : String) : Refusal :=
  if isId sessionId then forbidden "missing permission" [("permission", .text "identity.write")]
  else refused .invalidRequest "session_id must be a UUID" []

/-- How `revokeSessionAs` ends. -/
structure Ended (actor : AuthenticatedPrincipal) (sessionId : String) (seen : Seen)
    (result : Except Refusal Unit) : Prop where
  revoked : result = .ok () → ∃ row, ⟨.read (.getSession sessionId), some row⟩ ∈ seen ∧
    Revoked row.sessionId seen
  entitled : .identityWrite ∈ actor.permissions ∨
    (∃ row, ⟨.read (.getSession sessionId), some row⟩ ∈ seen ∧
      row.principalId = actor.principalId) ∨
    result = .error (denied sessionId) ∧ ∀ entry ∈ seen, ∃ query, entry.1 = .read query

/-- Who may end a session owns it or has the permission; anyone else is told one thing. -/
theorem mayRevokeSession_cases (actor : AuthenticatedPrincipal) (session : Option Session) :
    (∃ row, session = some row ∧ row.principalId = actor.principalId) ∨
      .identityWrite ∈ actor.permissions ∨
      mayRevokeSession actor session =
        .error (forbidden "missing permission" [("permission", .text "identity.write")]) := by
  by_cases howner : session.any (fun session => session.principalId = actor.principalId) = true
  · obtain ⟨row, hrow, hsame⟩ := (Option.any_eq_true _ _).mp howner
    exact .inl ⟨row, hrow, of_decide_eq_true hsame⟩
  · by_cases hwrite : Permission.identityWrite ∈ actor.permissions
    · exact .inr (.inl hwrite)
    · refine .inr (.inr ?_)
      rw [mayRevokeSession, if_neg howner, authorize, if_neg hwrite]
      rfl

/-- A refusal that comes before anything is written. -/
theorem ended_denied {actor : AuthenticatedPrincipal} {sessionId : String} {seen : Seen}
    (hreads : ∀ entry ∈ seen, ∃ query, entry.1 = .read query) :
    Ended actor sessionId seen (.error (denied sessionId)) := by
  refine ⟨?_, .inr (.inr ⟨rfl, hreads⟩)⟩
  intro h
  cases h

theorem keeps_revokeSessionAs (actor : AuthenticatedPrincipal) (sessionId : String) :
    Keeps conduct (Ended actor sessionId) (revokeSessionAs actor sessionId) [] := by
  unfold revokeSessionAs
  by_cases hshape : isId sessionId = true
  · rw [assertIdentifier, if_pos hshape]
    apply keeps_read_bind
    intro found
    rcases mayRevokeSession_cases actor found with ⟨row, rfl, howner⟩ | hwrite | hrefused
    · have hmember : ∀ later : Seen,
          ([] ++ [⟨.read (.getSession sessionId), some row⟩] : Seen) <+: later →
            ⟨.read (.getSession sessionId), some row⟩ ∈ later :=
        fun later hgrown => hgrown.subset (by simp)
      apply keeps_settled_bind
      · intro _ _
        apply (keeps_revokeSession row.sessionId).mono
        rintro later result ⟨hgrown, hrevoked⟩
        exact ⟨fun hok => ⟨row, hmember later hgrown, hrevoked hok⟩,
          .inr (.inl ⟨row, hmember later hgrown, howner⟩)⟩
      · intro error herror
        simp [mayRevokeSession, howner] at herror
    · apply keeps_settled_bind
      · intro _ _
        cases found with
        | none =>
            refine ⟨?_, .inl hwrite⟩
            intro h
            cases h
        | some row =>
            apply (keeps_revokeSession row.sessionId).mono
            rintro later result ⟨hgrown, hrevoked⟩
            exact ⟨fun hok => ⟨row, hgrown.subset (by simp), hrevoked hok⟩, .inl hwrite⟩
      · intro error _
        refine ⟨?_, .inl hwrite⟩
        intro h
        cases h
    · rw [hrefused]
      have hdenied : Ended actor sessionId [⟨.read (.getSession sessionId), found⟩]
          (.error (denied sessionId)) := ended_denied (by simp)
      rw [denied, if_pos hshape] at hdenied
      exact hdenied
  · rw [assertIdentifier, if_neg hshape]
    have hdenied : Ended actor sessionId [] (.error (denied sessionId)) := ended_denied (by simp)
    rw [denied, if_neg hshape] at hdenied
    exact hdenied

/-- How `authenticate` comes by the principal it returns. -/
def Authenticated (hashToken : String → String) (token : String) (seen : Seen)
    (actor : AuthenticatedPrincipal) : Prop :=
  ∃ session now principal, ⟨.read (.getSessionByTokenHash (hashToken token)), some session⟩ ∈ seen ∧
    ⟨.clock, now⟩ ∈ seen ∧ isSessionActive session now = true ∧
    ⟨.read (.getPrincipal session.principalId), some principal⟩ ∈ seen ∧
    actor.sessionId = session.sessionId ∧ actor.principalId = principal.principalId

theorem keeps_authenticate (token : String) :
    Keeps conduct (fun later result => ∀ actor, result = .ok actor →
      Authenticated hashToken token later actor) (authenticate hashToken token) [] := by
  unfold authenticate
  split
  · intro actor h
    cases h
  · apply keeps_read_bind
    intro found
    cases found with
    | none =>
        intro actor h
        cases h
    | some session =>
        apply keeps_clock_bind
        intro now
        split
        · intro actor h
          cases h
        · rename_i hactive
          apply keeps_read_bind
          intro found
          cases found with
          | none =>
              intro actor h
              cases h
          | some principal =>
              apply keeps_read_bind
              intro found
              cases found with
              | none =>
                  intro actor h
                  cases h
              | some identity =>
                  dsimp only
                  split
                  · intro actor h
                    cases h
                  · apply keeps_read_bind
                    intro memberships actor h
                    obtain rfl := Except.ok.inj h
                    exact ⟨session, now, principal, by simp, by simp, by simpa using hactive,
                      by simp, rfl, rfl⟩

/-- The end of a call, told under the reply's own name. -/
theorem keeps_reply {call : Call β} (reply : β → γ) {post : Seen → Except Refusal β → Prop}
    (h : Keeps conduct post call seen) :
    Keeps conduct (fun later result => ∃ ended, post later ended ∧ result = ended.map reply)
      (reply <$> call) seen := by
  induction call generalizing seen with
  | done value => exact ⟨.ok value, h, rfl⟩
  | fail error => exact ⟨.error error, h, rfl⟩
  | act action next ih => exact ⟨h.1, fun answer htold => ih answer (h.2 answer htold)⟩

/-- Every request keeps the discipline. -/
theorem keeps_serve (request : Request) : Keeps conduct anyEnd (serve hashToken request) [] := by
  cases request with
  | issueSession principalId channelType =>
      exact (keeps_reply _ (keeps_issueSession principalId channelType)).mono fun _ _ _ => trivial
  | revokeSession sessionId =>
      exact (keeps_reply _ (keeps_revokeSession sessionId)).mono fun _ _ _ => trivial
  | revokeSessionAs actor sessionId =>
      exact (keeps_reply _ (keeps_revokeSessionAs actor sessionId)).mono fun _ _ _ => trivial
  | authenticate token =>
      exact (keeps_reply _ (keeps_authenticate token)).mono fun _ _ _ => trivial

end Calls

end WaslaCore.Identity.Sessions
