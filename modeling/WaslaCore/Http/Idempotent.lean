import WaslaCore.Http.Router
import WaslaCore.Interleaving.Tokens

/-!
One success for each retained record. The results are about servers whose store
operations succeed and whose claims are settled within the horizon: then no claim is
ever taken over, so a handler that succeeds is the only one to do so until its record
expires.
-/

namespace WaslaCore.Http

open Data Platform Identity Interleaving

/-- Of two successes under one key, the later was claimed when the retention of the
earlier was over. -/
def OneSuccessPerRecord (server : Server) : Prop :=
  server.runs.Pairwise fun later earlier =>
    later.succeeded = true → earlier.succeeded = true →
      later.claim.lookup.id = earlier.claim.lookup.id →
        earlier.claim.claimedAt + retentionMs ≤ later.claim.claimedAt

/-- A handler ended in the result. -/
def succeededResult : Except Refusal Answer → Bool
  | .ok answer => answer.succeeded
  | .error _ => false

theorem HandlerRun.succeeded_eq (run : HandlerRun) : run.succeeded = succeededResult run.result := by
  obtain ⟨claim, result⟩ := run
  cases result <;> rfl

/-! ### What a request owes -/

def grantOf : (duty : Duty) → duty.Answer → Option Claim
  | .claim lookup _ caller permission, .ok (.claimed token claimedAt) =>
      some ⟨lookup, token, claimedAt, caller, permission⟩
  | _, _ => none

def tokenHandled : Duty → Option String
  | .handle claim => some claim.token
  | _ => none

def tokenSettled : Duty → Option String
  | .complete claim _ => some claim.token
  | .release claim => some claim.token
  | _ => none

/-- A granted claim hands out its token, and the handler that runs for it uses it. -/
def claimTokens : Tokens Duty Duty.Answer String where
  issued duty answer := ((grantOf duty answer).map Claim.token).toList
  used := tokenHandled

def grantedIn (seen : History Duty Duty.Answer) : List Claim :=
  seen.filterMap (fun entry => grantOf entry.1 entry.2)

def settledIn (seen : History Duty Duty.Answer) : List String :=
  seen.filterMap (fun entry => tokenSettled entry.1)

/-- A claim of the call that has not been settled. -/
def Holding (seen : History Duty Duty.Answer) (claim : Claim) : Prop :=
  claim ∈ grantedIn seen ∧ claim.token ∉ settledIn seen

/-- What a response rests on: the handler's own end, the record of an earlier one, or a
conflict on the key, where the request got as far as its claim. -/
def Justified (seen : History Duty Duty.Answer) : Response → Prop
  | .answered answer =>
      ∃ claim, ⟨.handle claim, .ok answer⟩ ∈ seen ∧
        (answer.succeeded = false → ⟨.release claim, .ok true⟩ ∈ seen)
  | .replayed answer =>
      ∃ lookup fingerprint caller permission record,
        ⟨.claim lookup fingerprint caller permission, .ok (.completed record answer)⟩ ∈ seen
  | .refused refusal =>
      (∃ claim, ⟨.handle claim, .error refusal⟩ ∈ seen ∧ ⟨.release claim, .ok true⟩ ∈ seen) ∨
        refusal = idempotencyKeyReused ∨ (∃ claimedAt, refusal = idempotencyKeyInFlight claimedAt) ∨
          seen = []

/-- A handler runs once for each claim, and its claim is settled once, by what the
handler ended in. -/
def requestRule : Discipline Duty Duty.Answer where
  told
    | .claim _ _ _ _, answer => ∃ outcome, answer = .ok outcome
    | .complete _ _, answer => answer = .ok true
    | .release _, answer => answer = .ok true
    | _, _ => True
  owed seen
    | .handle claim => Holding seen claim ∧ claim.token ∉ claimTokens.usedIn seen
    | .complete claim answer =>
        Holding seen claim ∧ ⟨.handle claim, .ok answer⟩ ∈ seen ∧ answer.succeeded = true
    | .release claim =>
        Holding seen claim ∧ ∀ result, ⟨.handle claim, result⟩ ∈ seen →
          succeededResult result = false
    | .respond response => Justified seen response
    | .claim _ _ _ _ => True

theorem respond_keeps {seen : History Duty Duty.Answer} {response : Response}
    (h : Justified seen response) : Keeps requestRule anyEnd (respond response) seen :=
  ⟨h, fun _ _ => trivial⟩

theorem work_keeps {lookup : RetryLookup} {fingerprint : String} (claim : Claim)
    (hlookup : claim.lookup = lookup) :
    Keeps requestRule anyEnd (work claim)
      [⟨.claim lookup fingerprint claim.caller claim.permission,
        .ok (.claimed claim.token claim.claimedAt)⟩] := by
  subst hlookup
  refine ⟨⟨⟨by simp [grantedIn, grantOf], by simp [settledIn, tokenSettled]⟩,
    by simp [Tokens.usedIn, claimTokens, tokenHandled]⟩, ?_⟩
  intro (result : Except Refusal Answer) _
  change Keeps requestRule anyEnd (settle claim result) _
  have hheld : Holding ([⟨.claim claim.lookup fingerprint claim.caller claim.permission,
      .ok (.claimed claim.token claim.claimedAt)⟩] ++ [⟨.handle claim, result⟩]) claim :=
    ⟨by simp [grantedIn, grantOf], by simp [settledIn, tokenSettled]⟩
  cases result with
  | error refusal =>
      refine ⟨⟨hheld, by simp [succeededResult]⟩, ?_⟩
      intro (released : Except Unit Bool) (hreleased : released = .ok true)
      refine respond_keeps (.inl ⟨claim, by simp, ?_⟩)
      simp [hreleased]
  | ok answer =>
      by_cases hsuccess : answer.succeeded = true
      · simp only [settle, hsuccess, if_true]
        refine ⟨⟨hheld, by simp, hsuccess⟩, ?_⟩
        intro (completed : Except Unit Bool) _
        exact respond_keeps ⟨claim, by simp, by simp [hsuccess]⟩
      · simp only [settle, hsuccess]
        refine ⟨⟨hheld, by simp [succeededResult, hsuccess]⟩, ?_⟩
        intro (released : Except Unit Bool) (hreleased : released = .ok true)
        exact respond_keeps ⟨claim, by simp, fun _ => by simp [hreleased]⟩

theorem requests_keep {sha256 : String → String} (call : Handling)
    (hcall : requests sha256 call) : Keeps requestRule anyEnd call [] := by
  obtain ⟨⟨route, authentication, body, idempotencyKey⟩, -, rfl⟩ := hcall
  have hrefused : ∀ refusal, Justified [] (.refused refusal) :=
    fun refusal => .inr (.inr (.inr rfl))
  unfold handle
  cases authentication with
  | error refusal => exact respond_keeps (hrefused refusal)
  | ok caller =>
      cases body with
      | error refusal => exact respond_keeps (hrefused refusal)
      | ok body =>
          cases idempotencyKey with
          | none => exact respond_keeps (hrefused _)
          | some key =>
              refine ⟨trivial, ?_⟩
              rintro _ ⟨outcome, rfl⟩
              cases outcome with
              | claimed token claimedAt => exact work_keeps ⟨_, token, claimedAt, caller, _⟩ rfl
              | completed record answer => exact respond_keeps ⟨_, _, _, _, _, List.mem_singleton_self _⟩
              | inFlight claimedAt => exact respond_keeps (.inr (.inr (.inl ⟨claimedAt, rfl⟩)))
              | reused => exact respond_keeps (.inr (.inl rfl))

/-! ### What the server keeps -/

/-- Every held claim is the claim its row shows, within its horizon, and a success is
held, recorded or past its retention. -/
structure Server.Sound (server : Server) : Prop where
  heldDrawn : ∀ claim ∈ server.held, claim.token ∈ server.drawn
  heldOnce : ∀ claim ∈ server.held, ∀ other ∈ server.held,
    claim.token = other.token → claim = other
  inTime : ∀ claim ∈ server.held, server.now < claim.claimedAt + claimHorizonMs
  heldRow : ∀ claim ∈ server.held, ∃ row, server.records.get claim.lookup.id = some row ∧
    row.state = .claimed ∧ row.claimToken = claim.token ∧
      row.expiresAt = claim.claimedAt + retentionMs
  rowHeld : ∀ key row, server.records.get key = some row → row.state = .claimed →
    ∃ claim ∈ server.held, claim.lookup.id = key ∧ row.claimedAt = claim.claimedAt
  recorded : ∀ key row completedAt answer, server.records.get key = some row →
    row.state = .completed completedAt answer → answer.succeeded = true ∧
      ∃ run ∈ server.runs, run.claim.lookup.id = key ∧ run.result = .ok answer
  kept : ∀ run ∈ server.runs, run.succeeded = true → run.claim ∈ server.held ∨
    (∃ row completedAt answer, server.records.get run.claim.lookup.id = some row ∧
      row.state = .completed completedAt answer ∧
        row.expiresAt = run.claim.claimedAt + retentionMs) ∨
    run.claim.claimedAt + retentionMs ≤ server.now
  apart : ∀ claim ∈ server.held, ∀ run ∈ server.runs, run.succeeded = true →
    run.claim.lookup.id = claim.lookup.id → run.claim.token ≠ claim.token →
      run.claim.claimedAt + retentionMs ≤ claim.claimedAt
  one : OneSuccessPerRecord server

/-- The answer is a success of a handler that ran under the key. -/
def RecordedAnswer (server : Server) (lookup : RetryLookup) (answer : Answer) : Prop :=
  answer.succeeded = true ∧
    ∃ run ∈ server.runs, run.claim.lookup.id = lookup.id ∧ run.result = .ok answer

abbrev DrawnBy (server : Server) (token : String) : Prop := token ∈ server.drawn

/-- The server and its requests: every call holds the claims it has not settled, and
the handlers that ended are the ones the calls have seen end. -/
structure Served (world : HttpWorld) : Prop where
  sound : world.store.Sound
  separate : claimTokens.Separate DrawnBy world
  holds : ∀ task ∈ world.tasks, ∀ claim, Holding task.seen claim → claim ∈ world.store.held
  ran : ∀ run ∈ world.store.runs, ∃ task ∈ world.tasks, ⟨.handle run.claim, run.result⟩ ∈ task.seen
  logged : ∀ task ∈ world.tasks, ∀ claim result, ⟨.handle claim, result⟩ ∈ task.seen →
    ⟨claim, result⟩ ∈ world.store.runs
  replayed : ∀ task ∈ world.tasks, ∀ lookup fingerprint caller permission record answer,
    ⟨.claim lookup fingerprint caller permission, .ok (.completed record answer)⟩ ∈ task.seen →
      RecordedAnswer world.store lookup answer

section Serving

variable {server server' : Server} {seen : History Duty Duty.Answer}
variable {before after : List HttpTask}

theorem mem_without {claims : List Claim} {claim : Claim} {token : String} :
    claim ∈ Server.without claims token ↔ claim ∈ claims ∧ claim.token ≠ token := by
  simp [Server.without]

/-- Two held claims on one key are one claim. -/
theorem Server.Sound.heldAlone (h : server.Sound) {claim other : Claim}
    (hclaim : claim ∈ server.held) (hother : other ∈ server.held)
    (hkey : claim.lookup.id = other.lookup.id) : claim = other := by
  obtain ⟨row, hrow, -, htoken, -⟩ := h.heldRow claim hclaim
  obtain ⟨row', hrow', -, htoken', -⟩ := h.heldRow other hother
  rw [hkey, hrow'] at hrow
  obtain rfl := Option.some.inj hrow
  exact h.heldOnce claim hclaim other hother (htoken.symm.trans htoken')

/-- The row of a held claim is live, and it is the holder's. -/
theorem Server.Sound.heldLive (h : server.Sound) {claim : Claim} (hclaim : claim ∈ server.held) :
    ∃ row, server.records.holding server.now claim.lookup claim.token = some row ∧
      server.records.get claim.lookup.id = some row ∧
        row.expiresAt = claim.claimedAt + retentionMs := by
  obtain ⟨row, hrow, hstate, htoken, hexpires⟩ := h.heldRow claim hclaim
  have hnow := h.inTime claim hclaim
  have hlive : server.now < row.expiresAt := by
    rw [hexpires]
    simp only [retentionMs, claimHorizonMs] at hnow ⊢
    omega
  exact ⟨row, RetryRecords.holding_eq_some.mpr
    ⟨RetryRecords.live_eq_some.mpr ⟨hrow, hlive⟩, hstate, htoken⟩, hrow, hexpires⟩

/-- Nothing on the server changes for a claim that is refused. -/
theorem Server.Sound.live_notAbandoned (h : server.Sound) {lookup : RetryLookup}
    {row : RetryRecordRow} (hrow : server.records.live server.now lookup = some row) :
    RetryRecords.isAbandoned row server.now = false := by
  obtain ⟨hfound, -⟩ := RetryRecords.live_eq_some.mp hrow
  unfold RetryRecords.isAbandoned
  cases hstate : row.state with
  | completed completedAt answer => rfl
  | claimed =>
      obtain ⟨claim, hclaim, -, hclaimedAt⟩ := h.rowHeld lookup.id row hfound hstate
      have hnow := h.inTime claim hclaim
      simp only [decide_eq_false_iff_not, not_le]
      omega

/-- A granted claim: the key was free, and every earlier success under it is past its
retention. -/
theorem Server.Sound.grant (h : server.Sound) {lookup : RetryLookup} {fingerprint token : String}
    {caller : AuthenticatedPrincipal} {permission : Permission} (hfresh : token ∉ server.drawn)
    (hfree : server.records.live server.now lookup = none) :
    (server.grant (server.records.put lookup.id
        (RetryRecords.claimRow server.now lookup fingerprint token))
      ⟨lookup, token, server.now, caller, permission⟩).Sound := by
  have hnone : ∀ claim ∈ server.held, claim.lookup.id ≠ lookup.id := by
    intro claim hclaim hkey
    obtain ⟨row, hholding, hrow, -⟩ := h.heldLive hclaim
    obtain ⟨hlive, -, -⟩ := RetryRecords.holding_eq_some.mp hholding
    have hexpired := RetryRecords.live_eq_none.mp hfree row (hkey ▸ hrow)
    exact absurd (RetryRecords.live_eq_some.mp hlive).2 (not_lt.mpr hexpired)
  have hover : ∀ run ∈ server.runs, run.succeeded = true → run.claim.lookup.id = lookup.id →
      run.claim.claimedAt + retentionMs ≤ server.now := by
    intro run hrun hsuccess hkey
    rcases h.kept run hrun hsuccess with hheld | ⟨row, _, _, hrow, -, hexpires⟩ | hpast
    · exact absurd hkey (hnone run.claim hheld)
    · rw [← hexpires]
      exact RetryRecords.live_eq_none.mp hfree row (hkey ▸ hrow)
    · exact hpast
  have hother : ∀ key, key ≠ lookup.id → ∀ row,
      (server.records.put lookup.id (RetryRecords.claimRow server.now lookup fingerprint token)).get
        key = some row ↔ server.records.get key = some row := by
    intro key hkey row
    rw [Table.get_put_ne _ _ (Ne.symm hkey)]
  refine ⟨?_, ?_, ?_, ?_, ?_, ?_, ?_, ?_, h.one⟩
  · intro claim hclaim
    rcases List.mem_cons.mp hclaim with rfl | hold
    · exact List.mem_cons_self
    · exact List.mem_cons_of_mem _ (h.heldDrawn claim hold)
  · intro claim hclaim other hother' hsame
    rcases List.mem_cons.mp hclaim with rfl | hold
    · rcases List.mem_cons.mp hother' with rfl | hold'
      · rfl
      · have hsame' : token = other.token := hsame
        exact absurd (hsame' ▸ h.heldDrawn other hold') hfresh
    · rcases List.mem_cons.mp hother' with rfl | hold'
      · have hsame' : claim.token = token := hsame
        exact absurd (hsame' ▸ h.heldDrawn claim hold) hfresh
      · exact h.heldOnce claim hold other hold' hsame
  · intro claim hclaim
    rcases List.mem_cons.mp hclaim with rfl | hold
    · simp only [Server.grant, claimHorizonMs]
      omega
    · exact h.inTime claim hold
  · intro claim hclaim
    rcases List.mem_cons.mp hclaim with rfl | hold
    · exact ⟨_, Table.get_put_self _ _ _, rfl, rfl, rfl⟩
    · obtain ⟨row, hrow, hrest⟩ := h.heldRow claim hold
      exact ⟨row, (hother _ (hnone claim hold) row).mpr hrow, hrest⟩
  · intro key row hrow hstate
    by_cases hkey : key = lookup.id
    · subst hkey
      obtain rfl := Option.some.inj ((Table.get_put_self _ _ _).symm.trans hrow)
      exact ⟨_, List.mem_cons_self, rfl, rfl⟩
    · obtain ⟨claim, hclaim, hrest⟩ := h.rowHeld key row ((hother key hkey row).mp hrow) hstate
      exact ⟨claim, List.mem_cons_of_mem _ hclaim, hrest⟩
  · intro key row completedAt answer hrow hstate
    by_cases hkey : key = lookup.id
    · subst hkey
      obtain rfl := Option.some.inj ((Table.get_put_self _ _ _).symm.trans hrow)
      cases hstate
    · exact h.recorded key row completedAt answer ((hother key hkey row).mp hrow) hstate
  · intro run hrun hsuccess
    by_cases hkey : run.claim.lookup.id = lookup.id
    · exact .inr (.inr (hover run hrun hsuccess hkey))
    · rcases h.kept run hrun hsuccess with hheld | ⟨row, at', answer, hrow, hrest⟩ | hpast
      · exact .inl (List.mem_cons_of_mem _ hheld)
      · exact .inr (.inl ⟨row, at', answer, (hother _ hkey row).mpr hrow, hrest⟩)
      · exact .inr (.inr hpast)
  · intro claim hclaim run hrun hsuccess hkey htoken
    rcases List.mem_cons.mp hclaim with rfl | hold
    · exact hover run hrun hsuccess hkey
    · exact h.apart claim hold run hrun hsuccess hkey htoken

/-- A handler that ended under a held claim that no handler had ended under before. -/
theorem Server.Sound.handled (h : server.Sound) {claim : Claim} (hclaim : claim ∈ server.held)
    (hfirst : ∀ run ∈ server.runs, run.claim.token ≠ claim.token) (result : Except Refusal Answer) :
    ({ server with
      running := Server.without server.running claim.token
      runs := ⟨claim, result⟩ :: server.runs } : Server).Sound := by
  refine ⟨h.heldDrawn, h.heldOnce, h.inTime, h.heldRow, h.rowHeld, ?_, ?_, ?_, ?_⟩
  · intro key row completedAt answer hrow hstate
    obtain ⟨hsuccess, run, hrun, hrest⟩ := h.recorded key row completedAt answer hrow hstate
    exact ⟨hsuccess, run, List.mem_cons_of_mem _ hrun, hrest⟩
  · intro run hrun hsuccess
    rcases List.mem_cons.mp hrun with rfl | hold
    · exact .inl hclaim
    · exact h.kept run hold hsuccess
  · intro other hother run hrun hsuccess hkey htoken
    rcases List.mem_cons.mp hrun with rfl | hold
    · exact absurd (congrArg Claim.token (h.heldAlone hclaim hother hkey)) htoken
    · exact h.apart other hother run hold hsuccess hkey htoken
  · refine List.pairwise_cons.mpr ⟨fun run hrun _ hsuccess hkey => ?_, h.one⟩
    exact h.apart claim hclaim run hrun hsuccess hkey.symm (hfirst run hrun)

/-- A settled claim: its row is gone, or is the record of its handler's success. -/
theorem Server.Sound.settled (h : server.Sound) {claim : Claim} {records : RetryRecords}
    (hclaim : claim ∈ server.held)
    (hother : ∀ key, key ≠ claim.lookup.id → records.get key = server.records.get key)
    (hclosed : ∀ row, records.get claim.lookup.id = some row → ∃ completedAt answer,
      row.state = .completed completedAt answer ∧ answer.succeeded = true ∧
        ∃ run ∈ server.runs, run.claim.lookup.id = claim.lookup.id ∧ run.result = .ok answer)
    (hkept : ∀ run ∈ server.runs, run.succeeded = true → run.claim = claim →
      ∃ row, records.get claim.lookup.id = some row ∧
        row.expiresAt = claim.claimedAt + retentionMs) :
    ({ server with
      records := records
      held := Server.without server.held claim.token } : Server).Sound := by
  have hapart : ∀ other ∈ Server.without server.held claim.token,
      other ∈ server.held ∧ other.lookup.id ≠ claim.lookup.id := by
    intro other hmember
    obtain ⟨hheld, htoken⟩ := mem_without.mp hmember
    exact ⟨hheld, fun hkey => htoken (congrArg Claim.token (h.heldAlone hheld hclaim hkey))⟩
  refine ⟨?_, ?_, ?_, ?_, ?_, ?_, ?_, ?_, h.one⟩
  · exact fun other hmember => h.heldDrawn other (hapart other hmember).1
  · exact fun other hmember another hanother =>
      h.heldOnce other (hapart other hmember).1 another (hapart another hanother).1
  · exact fun other hmember => h.inTime other (hapart other hmember).1
  · intro other hmember
    obtain ⟨hheld, hkey⟩ := hapart other hmember
    obtain ⟨row, hrow, hrest⟩ := h.heldRow other hheld
    exact ⟨row, (hother _ hkey).trans hrow, hrest⟩
  · intro key row hrow hstate
    by_cases hkey : key = claim.lookup.id
    · obtain ⟨_, _, hcompleted, -⟩ := hclosed row (hkey ▸ hrow)
      rw [hstate] at hcompleted
      cases hcompleted
    · obtain ⟨other, hheld, hat, hclaimedAt⟩ :=
        h.rowHeld key row ((hother key hkey).symm.trans hrow) hstate
      refine ⟨other, mem_without.mpr ⟨hheld, fun htoken => hkey ?_⟩, hat, hclaimedAt⟩
      rw [← hat, h.heldOnce other hheld claim hclaim htoken]
  · intro key row completedAt answer hrow hstate
    by_cases hkey : key = claim.lookup.id
    · subst hkey
      obtain ⟨_, _, hcompleted, hsuccess, hrun⟩ := hclosed row hrow
      rw [hstate] at hcompleted
      obtain ⟨-, rfl⟩ := RetryState.completed.inj hcompleted
      exact ⟨hsuccess, hrun⟩
    · exact h.recorded key row completedAt answer ((hother key hkey).symm.trans hrow) hstate
  · intro run hrun hsuccess
    rcases h.kept run hrun hsuccess with hheld | ⟨row, completedAt, answer, hrow, hstate, hexpires⟩ | hpast
    · by_cases hsame : run.claim = claim
      · obtain ⟨row, hrow, hexpires⟩ := hkept run hrun hsuccess hsame
        obtain ⟨completedAt, answer, hstate, -⟩ := hclosed row hrow
        rw [hsame]
        exact .inr (.inl ⟨row, completedAt, answer, hrow, hstate, hexpires⟩)
      · refine .inl (mem_without.mpr ⟨hheld, fun htoken => hsame ?_⟩)
        exact h.heldOnce run.claim hheld claim hclaim htoken
    · by_cases hkey : run.claim.lookup.id = claim.lookup.id
      · obtain ⟨held, hheld, hclaimed, -⟩ := h.heldRow claim hclaim
        rw [hkey, hheld] at hrow
        rw [← Option.some.inj hrow, hclaimed] at hstate
        cases hstate
      · exact .inr (.inl ⟨row, completedAt, answer, (hother _ hkey).trans hrow, hstate, hexpires⟩)
    · exact .inr (.inr hpast)
  · exact fun other hmember => h.apart other (hapart other hmember).1

/-! ### One action of a request -/

theorem mem_issuedIn_of_granted {claim : Claim} (h : claim ∈ grantedIn seen) :
    claim.token ∈ claimTokens.issuedIn seen := by
  obtain ⟨entry, hentry, hgrant⟩ := List.mem_filterMap.mp h
  refine List.mem_flatMap.mpr ⟨entry, hentry, ?_⟩
  simp [claimTokens, hgrant]

theorem mem_usedIn_of_handled {claim : Claim} {result : Except Refusal Answer}
    (h : ⟨.handle claim, result⟩ ∈ seen) : claim.token ∈ claimTokens.usedIn seen :=
  List.mem_filterMap.mpr ⟨⟨.handle claim, result⟩, h, rfl⟩

/-- No handler has ended under a claim of the acting call that it has not run itself. -/
theorem Served.first {rest : Handling} (h : Served ⟨server, before ++ ⟨seen, rest⟩ :: after⟩)
    {claim : Claim} (hgranted : claim ∈ grantedIn seen)
    (hunused : claim.token ∉ claimTokens.usedIn seen) :
    ∀ run ∈ server.runs, run.claim.token ≠ claim.token := by
  intro run hrun htoken
  obtain ⟨task, htask, hhandled⟩ := h.ran run hrun
  have hused := mem_usedIn_of_handled hhandled
  have hissued := h.separate.own task htask _ hused
  rw [htoken] at hissued hused
  have hsame := h.separate.alone (mem_issuedIn_of_granted hgranted) htask hissued
  rw [hsame] at hused
  exact hunused hused

/-- What the acting call knows of a run under its own claim. -/
theorem Served.ownRun {rest : Handling} (h : Served ⟨server, before ++ ⟨seen, rest⟩ :: after⟩)
    {run : HandlerRun} (hrun : run ∈ server.runs) (hgranted : run.claim ∈ grantedIn seen) :
    ⟨.handle run.claim, run.result⟩ ∈ seen := by
  obtain ⟨task, htask, hhandled⟩ := h.ran run hrun
  have hissued := h.separate.own task htask _ (mem_usedIn_of_handled hhandled)
  have hsame := h.separate.alone (mem_issuedIn_of_granted hgranted) htask hissued
  rw [hsame] at hhandled
  exact hhandled

/-- A call's action leaves the world served where the server stays sound, keeps the
claims that were not settled and logs the handler that ended, if one did. -/
theorem Served.next {duty : Duty} {answer : duty.Answer} {rest rest' : Handling}
    (h : Served ⟨server, before ++ ⟨seen, rest⟩ :: after⟩) (hsound : server'.Sound)
    (hdrawn : ∀ token, DrawnBy server token → DrawnBy server' token)
    (hissued : ∀ claim, grantOf duty answer = some claim →
      claim.token ∉ server.drawn ∧ claim.token ∈ server'.drawn ∧ claim ∈ server'.held)
    (hused : ∀ token, tokenHandled duty = some token → token ∈ claimTokens.issuedIn seen)
    (hsettled : ∀ token, tokenSettled duty = some token → token ∈ claimTokens.issuedIn seen)
    (hheld : ∀ claim ∈ server.held, tokenSettled duty ≠ some claim.token → claim ∈ server'.held)
    (hran : ∀ run ∈ server'.runs, run ∈ server.runs ∨
      (⟨.handle run.claim, run.result⟩ : (duty : Duty) × duty.Answer) = ⟨duty, answer⟩)
    (hlogged : ∀ run ∈ server.runs, run ∈ server'.runs)
    (hended : ∀ claim result, (⟨.handle claim, result⟩ : (duty : Duty) × duty.Answer) =
      ⟨duty, answer⟩ → ⟨claim, result⟩ ∈ server'.runs)
    (hreplayed : ∀ lookup fingerprint caller permission record recorded,
      (⟨.claim lookup fingerprint caller permission, .ok (.completed record recorded)⟩ :
        (duty : Duty) × duty.Answer) = ⟨duty, answer⟩ → RecordedAnswer server lookup recorded) :
    Served ⟨server', before ++ ⟨seen ++ [⟨duty, answer⟩], rest'⟩ :: after⟩ := by
  have hseparate : claimTokens.Separate DrawnBy
      ⟨server', before ++ ⟨seen ++ [⟨duty, answer⟩], rest'⟩ :: after⟩ := by
    refine h.separate.act hdrawn ?_ ?_ hused
    · cases hgrant : grantOf duty answer <;> simp [claimTokens, hgrant]
    · intro token htoken
      cases hgrant : grantOf duty answer with
      | none => simp [claimTokens, hgrant] at htoken
      | some claim =>
          have hsame : token = claim.token := by simpa [claimTokens, hgrant] using htoken
          obtain ⟨hfresh, hnew, -⟩ := hissued claim hgrant
          exact hsame ▸ ⟨hfresh, hnew⟩
  have hself : (⟨seen, rest⟩ : HttpTask) ∈ before ++ ⟨seen, rest⟩ :: after := by simp
  have hcases : ∀ task ∈ before ++ ⟨seen ++ [⟨duty, answer⟩], rest'⟩ :: after,
      task ∈ before ++ after ∨ task = ⟨seen ++ [⟨duty, answer⟩], rest'⟩ := by
    intro task htask
    rcases List.mem_append.mp htask with hbefore | htail
    · exact .inl (List.mem_append_left _ hbefore)
    · rcases List.mem_cons.mp htail with hsame | hafter
      · exact .inr hsame
      · exact .inl (List.mem_append_right _ hafter)
  have hmember : ∀ task ∈ before ++ after, task ∈ before ++ ⟨seen, rest⟩ :: after := by
    intro task htask
    rcases List.mem_append.mp htask with hbefore | hafter
    · exact List.mem_append_left _ hbefore
    · exact List.mem_append_right _ (List.mem_cons_of_mem _ hafter)
  have hgrown : ∀ lookup answer, RecordedAnswer server lookup answer →
      RecordedAnswer server' lookup answer := by
    rintro lookup answer ⟨hsuccess, run, hrun, hrest⟩
    exact ⟨hsuccess, run, hlogged run hrun, hrest⟩
  refine ⟨hsound, hseparate, ?_, ?_, ?_, ?_⟩
  · intro task htask claim hholding
    rcases hcases task htask with hother | rfl
    · refine hheld claim (h.holds task (hmember task hother) claim hholding) fun hsame => ?_
      exact h.separate.others (hsettled _ hsame) hother (mem_issuedIn_of_granted hholding.1)
    · obtain ⟨hgranted, hopen⟩ := hholding
      simp only [grantedIn, settledIn, List.filterMap_append, List.mem_append, not_or] at hgranted hopen
      rcases hgranted with hold | hnew
      · refine hheld claim (h.holds _ hself claim ⟨hold, hopen.1⟩) fun hsame => ?_
        exact hopen.2 (by simp [hsame])
      · exact (hissued claim (by simpa using hnew)).2.2
  · intro run hrun
    rcases hran run hrun with hold | hnew
    · obtain ⟨task, htask, hhandled⟩ := h.ran run hold
      rcases List.mem_append.mp htask with hbefore | htail
      · exact ⟨task, List.mem_append_left _ hbefore, hhandled⟩
      · rcases List.mem_cons.mp htail with rfl | hafter
        · exact ⟨_, List.mem_append_right _ List.mem_cons_self, List.mem_append_left _ hhandled⟩
        · exact ⟨task, List.mem_append_right _ (List.mem_cons_of_mem _ hafter), hhandled⟩
    · exact ⟨_, List.mem_append_right _ List.mem_cons_self,
        List.mem_append_right _ (List.mem_singleton.mpr hnew)⟩
  · intro task htask claim result hhandled
    rcases hcases task htask with hother | rfl
    · exact hlogged _ (h.logged task (hmember task hother) claim result hhandled)
    · rcases List.mem_append.mp hhandled with hold | hnew
      · exact hlogged _ (h.logged _ hself claim result hold)
      · exact hended claim result (List.mem_singleton.mp hnew)
  · intro task htask lookup fingerprint caller permission record recorded hentry
    rcases hcases task htask with hother | rfl
    · exact hgrown _ _ (h.replayed task (hmember task hother) _ _ _ _ _ _ hentry)
    · rcases List.mem_append.mp hentry with hold | hnew
      · exact hgrown _ _ (h.replayed _ hself _ _ _ _ _ _ hold)
      · exact hgrown _ _ (hreplayed _ _ _ _ _ _ (List.mem_singleton.mp hnew))

/-- A held claim is settled by its holder: the store completes it. -/
theorem Server.Sound.complete_eq (h : server.Sound) {claim : Claim} (hclaim : claim ∈ server.held)
    (answer : Answer) : ∃ row : RetryRecordRow, row.expiresAt = claim.claimedAt + retentionMs ∧
      server.records.complete server.now claim.lookup claim.token answer =
        (true, server.records.put claim.lookup.id
          { row with state := .completed server.now answer }) := by
  obtain ⟨row, hholding, -, hexpires⟩ := h.heldLive hclaim
  exact ⟨row, hexpires, by simp [RetryRecords.complete, hholding]⟩

theorem Server.Sound.release_eq (h : server.Sound) {claim : Claim} (hclaim : claim ∈ server.held) :
    server.records.release server.now claim.lookup claim.token =
      (true, server.records.erase claim.lookup.id) := by
  obtain ⟨row, hholding, -, -⟩ := h.heldLive hclaim
  simp [RetryRecords.release, hholding]

/-- One action of a request. -/
theorem Served.act {duty : Duty} {answer : duty.Answer} {next : duty.Answer → Handling}
    {turn : ServerTurn} (h : Served ⟨server, before ++ ⟨seen, .act duty next⟩ :: after⟩)
    (howed : requestRule.owed seen duty)
    (hperform : server.answer true duty turn = some (answer, server')) :
    requestRule.told duty answer ∧
      Served ⟨server', before ++ ⟨seen ++ [⟨duty, answer⟩], next answer⟩ :: after⟩ := by
  have hsound : server.Sound := h.sound
  have hself : (⟨seen, .act duty next⟩ : HttpTask) ∈ before ++ ⟨seen, .act duty next⟩ :: after := by
    simp
  cases duty with
  | claim lookup fingerprint caller permission =>
      cases turn with
      | drawn token =>
          obtain ⟨hfresh, ⟨hover, rfl, rfl⟩ | ⟨row, hrow, rfl, rfl⟩⟩ := Server.answer_claim hperform
          · have hfree : server.records.live server.now lookup = none := by
              cases hlive : server.records.live server.now lookup with
              | none => rfl
              | some row =>
                  have hnot := hsound.live_notAbandoned hlive
                  rw [hover row hlive] at hnot
                  cases hnot
            refine ⟨⟨_, rfl⟩, h.next (hsound.grant hfresh hfree)
              (fun _ hdrawn => List.mem_cons_of_mem _ hdrawn) ?_ (by simp [tokenHandled])
              (by simp [tokenSettled]) (fun _ hheld _ => List.mem_cons_of_mem _ hheld)
              (fun _ hrun => .inl hrun) (fun _ hrun => hrun) (by simp) (by simp)⟩
            intro claim hgrant
            obtain rfl := Option.some.inj hgrant
            exact ⟨hfresh, List.mem_cons_self, List.mem_cons_self⟩
          · refine ⟨⟨_, rfl⟩, h.next hsound (fun _ hdrawn => hdrawn) ?_ (by simp [tokenHandled])
              (by simp [tokenSettled]) (fun _ hheld _ => hheld) (fun _ hrun => .inl hrun)
              (fun _ hrun => hrun) (by simp) ?_⟩
            · intro claim hgrant
              cases houtcome : RetryRecords.occupied row fingerprint with
              | claimed token claimedAt =>
                  exact absurd houtcome (RetryRecords.occupied_ne_claimed row fingerprint _ _)
              | _ =>
                  rw [houtcome] at hgrant
                  cases hgrant
            · intro lookup' fingerprint' caller' permission' record recorded heq
              obtain ⟨hduty, hanswer⟩ := Sigma.mk.inj heq
              obtain ⟨rfl, rfl, rfl, rfl⟩ := Duty.claim.inj hduty
              have hcompleted := Except.ok.inj (eq_of_heq hanswer)
              obtain ⟨rfl, -, completedAt, hstate⟩ := RetryRecords.occupied_completed hcompleted.symm
              exact hsound.recorded _ _ _ _ (RetryRecords.live_eq_some.mp hrow).1 hstate
      | _ => cases hperform
  | handle claim =>
      cases turn with
      | ended result =>
          obtain ⟨rfl, rfl⟩ := Prod.mk.inj (Option.some.inj hperform)
          obtain ⟨⟨hgranted, hopen⟩, hunused⟩ := howed
          have hclaim := h.holds _ hself claim ⟨hgranted, hopen⟩
          refine ⟨trivial, h.next (hsound.handled hclaim (h.first hgranted hunused) _)
            (fun _ hdrawn => hdrawn) (fun _ hgrant => by cases hgrant) ?_ (by simp [tokenSettled])
            (fun _ hheld _ => hheld) ?_ (fun _ hrun => List.mem_cons_of_mem _ hrun) ?_ (by simp)⟩
          · intro token htoken
            obtain rfl := Option.some.inj htoken
            exact mem_issuedIn_of_granted hgranted
          · intro run hrun
            rcases List.mem_cons.mp hrun with rfl | hold
            · exact .inr rfl
            · exact .inl hold
          · intro other result' heq
            obtain ⟨hduty, hresult⟩ := Sigma.mk.inj heq
            obtain rfl := Duty.handle.inj hduty
            obtain rfl := eq_of_heq hresult
            exact List.mem_cons_self
      | _ => cases hperform
  | complete claim recorded =>
      obtain ⟨⟨hgranted, hopen⟩, hhandled, hsuccess⟩ := howed
      have hclaim := h.holds _ hself claim ⟨hgranted, hopen⟩
      obtain ⟨row, hexpires, hcomplete⟩ := hsound.complete_eq hclaim recorded
      have hrun := h.logged _ hself claim _ hhandled
      cases turn with
      | proceed =>
          simp only [Server.answer, hcomplete] at hperform
          obtain ⟨rfl, rfl⟩ := Prod.mk.inj (Option.some.inj hperform)
          refine ⟨rfl, h.next (hsound.settled hclaim
            (fun key hkey => Table.get_put_ne _ _ (Ne.symm hkey)) ?_ ?_) (fun _ hdrawn => hdrawn)
            (fun _ hgrant => by cases hgrant) (by simp [tokenHandled]) ?_ ?_
            (fun _ hrun => .inl hrun) (fun _ hrun => hrun) (by simp) (by simp)⟩
          · intro found hfound
            obtain rfl := Option.some.inj ((Table.get_put_self _ _ _).symm.trans hfound)
            exact ⟨server.now, recorded, rfl, hsuccess, _, hrun, rfl, rfl⟩
          · intro _ _ _ _
            exact ⟨_, Table.get_put_self _ _ _, hexpires⟩
          · intro token htoken
            obtain rfl := Option.some.inj htoken
            exact mem_issuedIn_of_granted hgranted
          · intro other hother hne
            exact mem_without.mpr ⟨hother, fun hsame => hne (congrArg some hsame.symm)⟩
      | _ => cases hperform
  | release claim =>
      obtain ⟨⟨hgranted, hopen⟩, hfailed⟩ := howed
      have hclaim := h.holds _ hself claim ⟨hgranted, hopen⟩
      have hrelease := hsound.release_eq hclaim
      cases turn with
      | proceed =>
          simp only [Server.answer, hrelease] at hperform
          obtain ⟨rfl, rfl⟩ := Prod.mk.inj (Option.some.inj hperform)
          have hgone : (server.records.erase claim.lookup.id).get claim.lookup.id = none := by
            simp [Table.get_erase]
          refine ⟨rfl, h.next (hsound.settled hclaim ?_ ?_ ?_) (fun _ hdrawn => hdrawn)
            (fun _ hgrant => by cases hgrant) (by simp [tokenHandled]) ?_ ?_
            (fun _ hrun => .inl hrun) (fun _ hrun => hrun) (by simp) (by simp)⟩
          · intro key hkey
            rw [Table.get_erase, if_neg (Ne.symm hkey)]
          · intro found hfound
            rw [hgone] at hfound
            cases hfound
          · rintro run hrun hsuccess rfl
            rw [HandlerRun.succeeded_eq, hfailed _ (h.ownRun hrun hgranted)] at hsuccess
            cases hsuccess
          · intro token htoken
            obtain rfl := Option.some.inj htoken
            exact mem_issuedIn_of_granted hgranted
          · intro other hother hne
            exact mem_without.mpr ⟨hother, fun hsame => hne (congrArg some hsame.symm)⟩
      | _ => cases hperform
  | respond response =>
      cases turn with
      | proceed =>
          obtain ⟨rfl, rfl⟩ := Prod.mk.inj (Option.some.inj hperform)
          exact ⟨trivial, h.next hsound (fun _ hdrawn => hdrawn) (fun _ hgrant => by cases hgrant)
            (by simp [tokenHandled]) (by simp [tokenSettled]) (fun _ hheld _ => hheld)
            (fun _ hrun => .inl hrun) (fun _ hrun => hrun) (by simp) (by simp)⟩
      | _ => cases hperform

/-- Every run whose claims are settled in time serves its requests. -/
theorem run_served {sha256 : String → String} {start : Int} {world : HttpWorld}
    (hrun : Run (serving true Server.held) (requests sha256) anything
      (World.initial (Server.start start)) world) :
    Orderly requestRule world ∧ Served world := by
  refine Run.maintains requests_keep ?_ ?_ ?_ (orderly_initial _) ?_ hrun
  · intro server tasks call _ h
    have hnew : ∀ task ∈ tasks ++ [(⟨[], call⟩ : HttpTask)], task ∈ tasks ∨ task.seen = [] := by
      intro task htask
      rcases List.mem_append.mp htask with hold | hlast
      · exact .inl hold
      · exact .inr (by rw [List.mem_singleton.mp hlast])
    refine ⟨h.sound, h.separate.start, ?_, ?_, ?_, ?_⟩
    · intro task htask claim hholding
      rcases hnew task htask with hold | hempty
      · exact h.holds task hold claim hholding
      · rw [hempty] at hholding
        cases hholding.1
    · intro run hmember
      obtain ⟨task, htask, hhandled⟩ := h.ran run hmember
      exact ⟨task, List.mem_append_left _ htask, hhandled⟩
    · intro task htask claim result hhandled
      rcases hnew task htask with hold | hempty
      · exact h.logged task hold claim result hhandled
      · rw [hempty] at hhandled
        cases hhandled
    · intro task htask lookup fingerprint caller permission record answer hentry
      rcases hnew task htask with hold | hempty
      · exact h.replayed task hold _ _ _ _ _ _ hentry
      · rw [hempty] at hentry
        cases hentry
  · intro world world' seen duty answer h howed _ hperforms
    cases hperforms with
    | @intro server server' before after seen duty next answer turn hperform =>
        exact h.act howed hperform
  · intro server server' tasks turn h htick
    cases turn with
    | elapsed milliseconds =>
        change (if _ then _ else none) = some server' at htick
        split at htick
        · rename_i hdue
          obtain rfl := Option.some.inj htick
          refine ⟨⟨h.sound.heldDrawn, h.sound.heldOnce, hdue, h.sound.heldRow, h.sound.rowHeld,
            h.sound.recorded, ?_, h.sound.apart, h.sound.one⟩, h.separate.tick fun _ hdrawn => hdrawn,
            h.holds, h.ran, h.logged, h.replayed⟩
          intro run hmember hsuccess
          rcases h.sound.kept run hmember hsuccess with hheld | hrow | hpast
          · exact .inl hheld
          · exact .inr (.inl hrow)
          · have hpast' : run.claim.claimedAt + retentionMs ≤ server.now := hpast
            refine .inr (.inr ?_)
            change run.claim.claimedAt + retentionMs ≤ server.now + milliseconds
            omega
        · cases htick
    | _ => cases htick
  · refine ⟨⟨?_, ?_, ?_, ?_, ?_, ?_, ?_, ?_, List.Pairwise.nil⟩, Tokens.separate_initial _,
      ?_, ?_, ?_, ?_⟩ <;>
    simp [World.initial, Server.start]

/-- What the response of a request that got as far as its claim rests on, with the
recorded answer it repeats. -/
def Answered (server : Server) (seen : History Duty Duty.Answer) : Response → Prop
  | .replayed answer =>
      ∃ lookup fingerprint caller permission record,
        ⟨.claim lookup fingerprint caller permission, .ok (.completed record answer)⟩ ∈ seen ∧
          RecordedAnswer server lookup answer
  | response => Justified seen response

/-- The key is free, and whoever asks next is granted its claim. -/
def KeyFree (server : Server) (lookup : RetryLookup) : Prop :=
  server.records.live server.now lookup = none ∧ ∀ later fingerprint token,
    (server.records.claim later lookup fingerprint token).1 = .claimed token later

/-- One success for each retained record; every response is the handler's own, a recorded
answer as it stands, or a conflict; a release frees its key; a stale token does nothing. -/
theorem run_idempotent {sha256 : String → String} {start : Int} {world : HttpWorld}
    (hrun : Run (serving true Server.held) (requests sha256) anything
      (World.initial (Server.start start)) world) :
    OneSuccessPerRecord world.store ∧
    (∀ seen response world', Performs (serving true Server.held) world seen (.respond response) ()
      world' → Answered world.store seen response) ∧
    (∀ seen claim released world', Performs (serving true Server.held) world seen (.release claim)
      released world' → released = .ok true ∧ KeyFree world'.store claim.lookup) ∧
    (∀ lookup token answer, (∀ row, world.store.records.live world.store.now lookup = some row →
        row.state = .claimed → row.claimToken ≠ token) →
      world.store.records.complete world.store.now lookup token answer =
          (false, world.store.records) ∧
        world.store.records.release world.store.now lookup token = (false, world.store.records)) := by
  obtain ⟨horderly, hserved⟩ := run_served hrun
  refine ⟨hserved.sound.one, ?_, ?_, fun lookup token answer => RetryRecords.stale_token answer⟩
  · intro seen response world' hperforms
    have hjustified : Justified seen response := (horderly.performs hperforms).1
    cases hperforms with
    | @intro server server' before after seen duty next answer turn hperform =>
        cases response with
        | answered answer => exact hjustified
        | refused refusal => exact hjustified
        | replayed answer =>
            obtain ⟨lookup, fingerprint, caller, permission, record, hentry⟩ := hjustified
            exact ⟨lookup, fingerprint, caller, permission, record, hentry,
              hserved.replayed _ (List.mem_append_right _ List.mem_cons_self) _ _ _ _ _ _ hentry⟩
  · intro seen claim released world' hperforms
    obtain ⟨⟨hgranted, hopen⟩, -⟩ := (horderly.performs hperforms).1
    cases hperforms with
    | @intro server server' before after seen duty next answer turn hperform =>
        have hclaim := hserved.holds _ (List.mem_append_right _ List.mem_cons_self) claim
          ⟨hgranted, hopen⟩
        have hrelease := hserved.sound.release_eq hclaim
        cases turn with
        | proceed =>
            obtain ⟨rfl, rfl⟩ := Prod.mk.inj (Option.some.inj hperform)
            have happlied : (server.records.release server.now claim.lookup claim.token).1 = true :=
              congrArg Prod.fst hrelease
            exact ⟨congrArg Except.ok happlied, RetryRecords.release_frees happlied⟩
        | _ => cases hperform

end Serving

/-! ### Runs of two identical requests -/

instance (server : Server) : Decidable (OneSuccessPerRecord server) :=
  inferInstanceAs (Decidable (List.Pairwise _ server.runs))

def admin : AuthenticatedPrincipal := principal "admin" [.organizationWrite]

def created : Answer := ⟨201, .null⟩

/-- The second request finds the first one working, is refused, and the third is given
the recorded answer. -/
def collapsed : HttpSchedule :=
  .start (handle id (organizationRequest admin)) ::
    acts 0 [.drawn "first", .ended (.ok created)] ++
  .start (handle id (organizationRequest admin)) :: acts 1 [.drawn "second", .proceed] ++
    acts 0 [.proceed, .proceed] ++
  .tick (.elapsed 60000) :: .start (handle id (organizationRequest admin)) ::
    acts 2 [.drawn "third"]

/-- The first handler ends in time, but its claim is completed only after the horizon:
the second request takes the claim over and creates a second organization. -/
def completedLate : HttpSchedule :=
  .start (handle id (organizationRequest admin)) ::
    acts 0 [.drawn "first", .ended (.ok created)] ++
  .tick (.elapsed 60000) :: .start (handle id (organizationRequest admin)) ::
    acts 1 [.drawn "second", .ended (.ok created)]

set_option maxRecDepth 20000 in
theorem run_idempotent_collapsed :
    ∃ world, play (serving true Server.held) unrestricted collapsed
        (World.initial (Server.start 0)) = some world ∧
      world.store.runs.length = 1 ∧ OneSuccessPerRecord world.store := by
  have hplays : (play (serving true Server.held) unrestricted collapsed
      (World.initial (Server.start 0))).any (fun world => world.store.runs.length = 1) = true := by
    decide +kernel
  obtain ⟨world, hworld, hone⟩ := (Option.any_eq_true _ _).mp hplays
  have hrun : Run (serving true Server.held) (requests id) anything
      (World.initial (Server.start 0)) world := by
    refine play_run hworld ?_ (fun _ _ _ _ => trivial)
    simp [collapsed, acts, requests_organizationRequest]
  exact ⟨world, hworld, of_decide_eq_true hone, (run_idempotent hrun).1⟩

set_option maxRecDepth 20000 in
/-- Handlers that all end within the horizon are not enough. -/
theorem run_idempotent_fails :
    ¬∀ (sha256 : String → String) (start : Int) (world : HttpWorld),
      Run (serving true Server.running) (requests sha256) anything
        (World.initial (Server.start start)) world → OneSuccessPerRecord world.store := by
  intro hclaim
  have hplays : (play (serving true Server.running) unrestricted completedLate
      (World.initial (Server.start 0))).any (fun world => ¬OneSuccessPerRecord world.store) = true := by
    decide +kernel
  obtain ⟨world, hworld, htwo⟩ := (Option.any_eq_true _ _).mp hplays
  have hrun : Run (serving true Server.running) (requests id) anything
      (World.initial (Server.start 0)) world := by
    refine play_run hworld ?_ (fun _ _ _ _ => trivial)
    simp [completedLate, acts, requests_organizationRequest]
  exact of_decide_eq_true htwo (hclaim id 0 world hrun)

end WaslaCore.Http
