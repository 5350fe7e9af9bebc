import WaslaCore.Http.Answering
import WaslaCore.Http.Canonical
import WaslaCore.Http.Router
import WaslaCore.Interleaving.Logic

/-!
Which requests share a record. A record is found by method, route template and key and told
by a fingerprint over method, route template and body: what a path says beyond its template,
and what a query says, are in neither. The requests here are on any keyed registration.
-/

namespace WaslaCore.Http

open Data Platform Identity Interleaving

/-- The names a template's parameters go by. -/
def parameterNames (template : String) : List String :=
  (segmentsOf template).filterMap fun segment =>
    match segment.toList with
    | ':' :: name => some (String.ofList name)
    | _ => none

/-- A keyed registration, and the names its query is read by. -/
structure KeyedRegistration extends KeyedRoute where
  accepts : List String
  plain : '\x00' ∉ method.toList ∧ '\x00' ∉ template.toList

/-- A keyed request whose path, query and body were understood. -/
structure KeyedRequest where
  route : KeyedRegistration
  key : String
  params : List (String × String)
  query : List (String × String)
  body : Json
  named : ∀ entry ∈ params, entry.1 ∈ parameterNames route.template
  declared : ∀ entry ∈ query, entry.1 ∈ route.accepts

namespace KeyedRequest

/-- The request as its caller makes it. -/
def madeBy (request : KeyedRequest) (caller : AuthenticatedPrincipal) : Request :=
  { route := request.route.toKeyedRoute, authentication := .ok caller, body := .ok request.body
    idempotencyKey := some request.key }

def lookup (request : KeyedRequest) : RetryLookup :=
  ⟨request.key, request.route.method, request.route.template⟩

def fingerprint (request : KeyedRequest) (sha256 : String → String) : String :=
  fingerprintRequest sha256 request.route.method request.route.template request.body

/-- What the fingerprint is taken of. -/
def identity (request : KeyedRequest) : String :=
  request.route.method ++ "\x00" ++ request.route.template ++ "\x00" ++ canonicalJson request.body

def claimBy (request : KeyedRequest) (sha256 : String → String)
    (caller : AuthenticatedPrincipal) : Duty :=
  .claim request.lookup (request.fingerprint sha256) caller request.route.permission

/-- Two requests that ask for different things: of another route, of another resource, with
another query, or with a body that is another value. -/
def Differs (first second : KeyedRequest) : Prop :=
  first.route.method ≠ second.route.method ∨ first.route.template ≠ second.route.template ∨
    first.params ≠ second.params ∨ first.query ≠ second.query ∨
    first.body.normal ≠ second.body.normal

end KeyedRequest

/-- Any number of requests on any keyed routes. -/
def anyRequests (sha256 : String → String) (call : Handling) : Prop :=
  ∃ request : Request, call = handle sha256 request

/-- The second request was answered with what was recorded under the first one's claim. -/
def AnsweredFrom (sha256 : String → String) (world : HttpWorld) (first second : KeyedRequest) :
    Prop :=
  ∃ task ∈ world.tasks, ∃ task' ∈ world.tasks, ∃ caller caller' claimedAt record answer,
    ⟨first.claimBy sha256 caller, .ok (.claimed record.claimToken claimedAt)⟩ ∈ task.seen ∧
      ⟨second.claimBy sha256 caller', .ok (.completed record answer)⟩ ∈ task'.seen ∧
      ⟨.respond (.replayed answer), ()⟩ ∈ task'.seen

/-- Under one key, two different requests never share a recorded answer, whatever else is
asked for and in whatever order. -/
def KeptApart (sha256 : String → String) (first second : KeyedRequest) : Prop :=
  first.key = second.key → first.Differs second →
    ∀ start world, Run (serving false (fun _ => [])) (anyRequests sha256) anything
      (World.initial (Server.start start)) world → ¬AnsweredFrom sha256 world first second

/-! ### What a run tells of its records -/

/-- The token and the fingerprint of a claim that was granted. -/
def grantIn : (duty : Duty) → duty.Answer → Option (String × String)
  | .claim _ fingerprint _ _, .ok (.claimed token _) => some (token, fingerprint)
  | _, _ => none

/-- The token of the record a claim was answered from, and the fingerprint it was made with. -/
def replayIn : (duty : Duty) → duty.Answer → Option (String × String)
  | .claim _ fingerprint _ _, .ok (.completed record _) => some (record.claimToken, fingerprint)
  | _, _ => none

/-- Every record is one that stood before, up to its state. -/
def RecordsKept (records records' : RetryRecords) : Prop :=
  ∀ key row, records'.get key = some row → ∃ key' earlier, records.get key' = some earlier ∧
    earlier.claimToken = row.claimToken ∧ earlier.requestFingerprint = row.requestFingerprint

theorem recordsKept_complete (records : RetryRecords) (now : Int) (lookup : RetryLookup)
    (token : String) (answer : Answer) :
    RecordsKept records (records.complete now lookup token answer).2 := by
  intro key row hrow
  unfold RetryRecords.complete at hrow
  cases hholding : records.holding now lookup token with
  | none =>
      simp only [hholding] at hrow
      exact ⟨key, row, hrow, rfl, rfl⟩
  | some existing =>
      have hget := (RetryRecords.live_eq_some.mp (RetryRecords.holding_eq_some.mp hholding).1).1
      simp only [hholding] at hrow
      by_cases hkey : lookup.id = key
      · subst hkey
        obtain rfl := Option.some.inj ((Table.get_put_self _ _ _).symm.trans hrow)
        exact ⟨_, existing, hget, rfl, rfl⟩
      · exact ⟨key, row, (Table.get_put_ne _ _ hkey).symm.trans hrow, rfl, rfl⟩

theorem recordsKept_release (records : RetryRecords) (now : Int) (lookup : RetryLookup)
    (token : String) : RecordsKept records (records.release now lookup token).2 := by
  intro key row hrow
  unfold RetryRecords.release at hrow
  cases hholding : records.holding now lookup token with
  | none =>
      simp only [hholding] at hrow
      exact ⟨key, row, hrow, rfl, rfl⟩
  | some existing =>
      simp only [hholding] at hrow
      by_cases hkey : lookup.id = key
      · simp [Table.get_erase, hkey] at hrow
      · refine ⟨key, row, ?_, rfl, rfl⟩
        simpa [Table.get_erase, hkey] using hrow

/-- What an answer tells: a claim granted under a fresh token, or one answered from a record
that stands. -/
theorem Server.answer_tells {server server' : Server} {reliable : Bool} {duty : Duty}
    {turn : ServerTurn} {answer : duty.Answer}
    (h : server.answer reliable duty turn = some (answer, server')) :
    (∃ token fingerprint key row, grantIn duty answer = some (token, fingerprint) ∧
      replayIn duty answer = none ∧ token ∉ server.drawn ∧ server'.drawn = token :: server.drawn ∧
      row.claimToken = token ∧ row.requestFingerprint = fingerprint ∧
      server'.records = server.records.put key row) ∨
    (grantIn duty answer = none ∧ server'.drawn = server.drawn ∧
      RecordsKept server.records server'.records ∧
      ∀ token fingerprint, replayIn duty answer = some (token, fingerprint) →
        ∃ key row, server.records.get key = some row ∧ row.claimToken = token ∧
          row.requestFingerprint = fingerprint) := by
  have hsame : RecordsKept server.records server.records :=
    fun key row hrow => ⟨key, row, hrow, rfl, rfl⟩
  cases duty with
  | claim lookup fingerprint caller permission =>
      cases turn with
      | drawn token =>
          obtain ⟨hfresh, ⟨-, rfl, rfl⟩ | ⟨row, hrow, rfl, rfl⟩⟩ := Server.answer_claim h
          · exact .inl ⟨token, fingerprint, lookup.id, _, rfl, rfl, hfresh, rfl, rfl, rfl, rfl⟩
          · refine .inr ⟨?_, rfl, hsame, ?_⟩
            · cases houtcome : RetryRecords.occupied row fingerprint with
              | claimed token claimedAt =>
                  exact absurd houtcome (RetryRecords.occupied_ne_claimed row fingerprint _ _)
              | _ => rfl
            · intro token' fingerprint' hreplay
              cases houtcome : RetryRecords.occupied row fingerprint with
              | completed record recorded =>
                  obtain ⟨rfl, hfingerprint, -⟩ := RetryRecords.occupied_completed houtcome
                  rw [houtcome] at hreplay
                  obtain ⟨rfl, rfl⟩ := Prod.mk.inj (Option.some.inj hreplay)
                  exact ⟨_, _, (RetryRecords.live_eq_some.mp hrow).1, rfl, hfingerprint⟩
              | _ =>
                  rw [houtcome] at hreplay
                  cases hreplay
      | failed =>
          simp only [Server.answer] at h
          split at h
          · cases h
          · obtain ⟨rfl, rfl⟩ := Prod.mk.inj (Option.some.inj h)
            exact .inr ⟨rfl, rfl, hsame, by rintro _ _ ⟨⟩⟩
      | _ => cases h
  | handle claim =>
      cases turn with
      | ended result =>
          obtain ⟨rfl, rfl⟩ := Prod.mk.inj (Option.some.inj h)
          exact .inr ⟨rfl, rfl, hsame, by rintro _ _ ⟨⟩⟩
      | _ => cases h
  | complete claim recorded =>
      cases turn with
      | proceed =>
          obtain ⟨rfl, rfl⟩ := Prod.mk.inj (Option.some.inj h)
          refine .inr ⟨rfl, rfl, ?_, by rintro _ _ ⟨⟩⟩
          exact recordsKept_complete _ _ _ _ _
      | failed =>
          simp only [Server.answer] at h
          split at h
          · cases h
          · obtain ⟨rfl, rfl⟩ := Prod.mk.inj (Option.some.inj h)
            exact .inr ⟨rfl, rfl, hsame, by rintro _ _ ⟨⟩⟩
      | _ => cases h
  | release claim =>
      cases turn with
      | proceed =>
          obtain ⟨rfl, rfl⟩ := Prod.mk.inj (Option.some.inj h)
          refine .inr ⟨rfl, rfl, ?_, by rintro _ _ ⟨⟩⟩
          exact recordsKept_release _ _ _ _
      | failed =>
          simp only [Server.answer] at h
          split at h
          · cases h
          · obtain ⟨rfl, rfl⟩ := Prod.mk.inj (Option.some.inj h)
            exact .inr ⟨rfl, rfl, hsame, by rintro _ _ ⟨⟩⟩
      | _ => cases h
  | respond response =>
      cases turn with
      | proceed =>
          obtain ⟨rfl, rfl⟩ := Prod.mk.inj (Option.some.inj h)
          exact .inr ⟨rfl, rfl, hsame, by rintro _ _ ⟨⟩⟩
      | _ => cases h

/-! ### What holds of a run -/

/-- An answer some request was given. -/
def Given (world : HttpWorld) (entry : (duty : Duty) × duty.Answer) : Prop :=
  ∃ task ∈ world.tasks, entry ∈ task.seen

/-- Tokens are drawn once, a record bears the fingerprint its token was granted for, and who
is answered from it asked with that fingerprint. -/
structure Traced (world : HttpWorld) : Prop where
  rows : ∀ key row, world.store.records.get key = some row → row.claimToken ∈ world.store.drawn
  granted : ∀ entry, Given world entry → ∀ token fingerprint,
    grantIn entry.1 entry.2 = some (token, fingerprint) → token ∈ world.store.drawn ∧
      ∀ key row, world.store.records.get key = some row → row.claimToken = token →
        row.requestFingerprint = fingerprint
  replayed : ∀ entry, Given world entry → ∀ token fingerprint,
    replayIn entry.1 entry.2 = some (token, fingerprint) → token ∈ world.store.drawn ∧
      ∀ other, Given world other → ∀ fingerprint',
        grantIn other.1 other.2 = some (token, fingerprint') → fingerprint' = fingerprint

/-- A step gives one answer, and every other was given before. -/
theorem given_of_performs {system : System Server Duty Duty.Answer ServerTurn}
    {world world' : HttpWorld} {seen : History Duty Duty.Answer} {duty : Duty}
    {answer : duty.Answer} (h : Performs system world seen duty answer world')
    {entry : (duty : Duty) × duty.Answer} (hentry : Given world' entry) :
    Given world entry ∨ entry = ⟨duty, answer⟩ := by
  cases h with
  | @intro store store' before after seen duty next answer choice hperform =>
      obtain ⟨task, htask, hmem⟩ := hentry
      rcases List.mem_append.mp htask with hbefore | hrest
      · exact .inl ⟨task, List.mem_append_left _ hbefore, hmem⟩
      · rcases List.mem_cons.mp hrest with rfl | hafter
        · rcases List.mem_append.mp hmem with hold | hnew
          · exact .inl ⟨⟨seen, .act duty next⟩, by simp, hold⟩
          · exact .inr (List.mem_singleton.mp hnew)
        · exact .inl ⟨task, List.mem_append_right _ (List.mem_cons_of_mem _ hafter), hmem⟩

section Answers

variable {world world' : HttpWorld} {duty : Duty} {answer : duty.Answer}

/-- A claim granted under a fresh token. -/
theorem Traced.grant (h : Traced world)
    (hgiven : ∀ entry, Given world' entry → Given world entry ∨ entry = ⟨duty, answer⟩)
    {token fingerprint key : String} {row : RetryRecordRow}
    (hgrant : grantIn duty answer = some (token, fingerprint)) (hnone : replayIn duty answer = none)
    (hfresh : token ∉ world.store.drawn) (hdrawn : world'.store.drawn = token :: world.store.drawn)
    (htoken : row.claimToken = token) (hfingerprint : row.requestFingerprint = fingerprint)
    (hrecords : world'.store.records = world.store.records.put key row) : Traced world' := by
  have hcases : ∀ key' row', world'.store.records.get key' = some row' →
      row' = row ∨ world.store.records.get key' = some row' := by
    intro key' row' hrow'
    rw [hrecords] at hrow'
    by_cases hkey : key = key'
    · subst hkey
      exact .inl (Option.some.inj ((Table.get_put_self _ _ _).symm.trans hrow')).symm
    · exact .inr ((Table.get_put_ne _ _ hkey).symm.trans hrow')
  constructor
  · intro key' row' hrow'
    rw [hdrawn]
    rcases hcases key' row' hrow' with rfl | hold
    · rw [htoken]
      exact List.mem_cons_self
    · exact List.mem_cons_of_mem _ (h.rows key' row' hold)
  · intro entry hentry token' fingerprint' hgrant'
    rw [hdrawn]
    rcases hgiven entry hentry with hold | rfl
    · obtain ⟨hmem, hsame⟩ := h.granted entry hold token' fingerprint' hgrant'
      refine ⟨List.mem_cons_of_mem _ hmem, ?_⟩
      intro key' row' hrow' htoken'
      rcases hcases key' row' hrow' with rfl | hstood
      · rw [← htoken', htoken] at hmem
        exact absurd hmem hfresh
      · exact hsame key' row' hstood htoken'
    · obtain ⟨rfl, rfl⟩ := Prod.mk.inj (Option.some.inj (hgrant.symm.trans hgrant'))
      refine ⟨List.mem_cons_self, ?_⟩
      intro key' row' hrow' htoken'
      rcases hcases key' row' hrow' with rfl | hstood
      · exact hfingerprint
      · exact absurd (htoken' ▸ h.rows key' row' hstood) hfresh
  · intro entry hentry token' fingerprint' hreplay
    rw [hdrawn]
    rcases hgiven entry hentry with hold | rfl
    · obtain ⟨hmem, hsame⟩ := h.replayed entry hold token' fingerprint' hreplay
      refine ⟨List.mem_cons_of_mem _ hmem, ?_⟩
      intro other hother granted hgranted
      rcases hgiven other hother with hstood | rfl
      · exact hsame other hstood granted hgranted
      · obtain ⟨rfl, -⟩ := Prod.mk.inj (Option.some.inj (hgrant.symm.trans hgranted))
        exact absurd hmem hfresh
    · exact nomatch hnone.symm.trans hreplay

/-- Anything else, an answer from a record that stands among it. -/
theorem Traced.keep (h : Traced world)
    (hgiven : ∀ entry, Given world' entry → Given world entry ∨ entry = ⟨duty, answer⟩)
    (hnone : grantIn duty answer = none) (hdrawn : world'.store.drawn = world.store.drawn)
    (hkept : RecordsKept world.store.records world'.store.records)
    (hreplayed : ∀ token fingerprint, replayIn duty answer = some (token, fingerprint) →
      ∃ key row, world.store.records.get key = some row ∧ row.claimToken = token ∧
        row.requestFingerprint = fingerprint) : Traced world' := by
  constructor
  · intro key row hrow
    obtain ⟨key', earlier, hearlier, htoken, -⟩ := hkept key row hrow
    rw [hdrawn, ← htoken]
    exact h.rows key' earlier hearlier
  · intro entry hentry token fingerprint hgrant
    rw [hdrawn]
    rcases hgiven entry hentry with hold | rfl
    · obtain ⟨hmem, hsame⟩ := h.granted entry hold token fingerprint hgrant
      refine ⟨hmem, ?_⟩
      intro key row hrow htoken
      obtain ⟨key', earlier, hearlier, htoken', hfingerprint⟩ := hkept key row hrow
      exact hfingerprint.symm.trans (hsame key' earlier hearlier (htoken'.trans htoken))
    · exact nomatch hnone.symm.trans hgrant
  · intro entry hentry token fingerprint hreplay
    rw [hdrawn]
    have hothers : ∀ other, Given world' other → ∀ granted,
        grantIn other.1 other.2 = some (token, granted) → Given world other := by
      intro other hother granted hgranted
      rcases hgiven other hother with hstood | rfl
      · exact hstood
      · exact nomatch hnone.symm.trans hgranted
    rcases hgiven entry hentry with hold | rfl
    · obtain ⟨hmem, hsame⟩ := h.replayed entry hold token fingerprint hreplay
      exact ⟨hmem, fun other hother granted hgranted =>
        hsame other (hothers other hother granted hgranted) granted hgranted⟩
    · obtain ⟨key, row, hrow, htoken, hfingerprint⟩ := hreplayed token fingerprint hreplay
      refine ⟨htoken ▸ h.rows key row hrow, ?_⟩
      intro other hother granted hgranted
      have hgranted' := (h.granted other (hothers other hother granted hgranted) token granted
        hgranted).2 key row hrow htoken
      exact hgranted'.symm.trans hfingerprint

end Answers

theorem Traced.step {sha256 : String → String} {world world' : HttpWorld} (h : Traced world)
    (hstep : Step (serving false (fun _ => [])) (anyRequests sha256) anything world world') :
    Traced world' := by
  cases hstep with
  | @start store tasks call hcall =>
      have hgiven : ∀ entry, Given ⟨store, tasks ++ [⟨[], call⟩]⟩ entry → Given ⟨store, tasks⟩ entry := by
        rintro entry ⟨task, htask, hmem⟩
        rcases List.mem_append.mp htask with hold | hnew
        · exact ⟨task, hold, hmem⟩
        · rw [List.mem_singleton.mp hnew] at hmem
          cases hmem
      exact ⟨h.rows, fun entry hentry => h.granted entry (hgiven entry hentry),
        fun entry hentry token fingerprint hreplay =>
          ⟨(h.replayed entry (hgiven entry hentry) token fingerprint hreplay).1,
            fun other hother => (h.replayed entry (hgiven entry hentry) token fingerprint
              hreplay).2 other (hgiven other hother)⟩⟩
  | @act _ _ seen duty answer hallowed hperforms =>
      have hgiven := fun entry (hentry : Given world' entry) => given_of_performs hperforms hentry
      obtain ⟨turn, hanswer⟩ : ∃ turn,
          world.store.answer false duty turn = some (answer, world'.store) := by
        cases hperforms with
        | intro turn hperform => exact ⟨turn, hperform⟩
      rcases Server.answer_tells hanswer with
        ⟨token, fingerprint, key, row, hgrant, hnone, hfresh, hdrawn, htoken, hfingerprint, hrecords⟩ |
          ⟨hnone, hdrawn, hkept, hreplayed⟩
      · exact h.grant hgiven hgrant hnone hfresh hdrawn htoken hfingerprint hrecords
      · exact h.keep hgiven hnone hdrawn hkept hreplayed
  | @tick store store' tasks choice htick =>
      have hsame : store'.records = store.records ∧ store'.drawn = store.drawn := by
        cases choice with
        | elapsed milliseconds =>
            simp only [serving] at htick
            split at htick
            · obtain rfl := Option.some.inj htick
              exact ⟨rfl, rfl⟩
            · cases htick
        | _ => cases htick
      obtain ⟨hrows, hgranted, hreplayed⟩ := h
      dsimp only at hrows hgranted hreplayed
      rw [← hsame.2] at hrows hgranted hreplayed
      rw [← hsame.1] at hrows hgranted
      exact ⟨hrows, hgranted, hreplayed⟩

/-- In every run, who is answered from a record asked with the fingerprint its claim was made
with. -/
theorem run_traced {sha256 : String → String} {start : Int} {world : HttpWorld}
    (hrun : Run (serving false (fun _ => [])) (anyRequests sha256) anything
      (World.initial (Server.start start)) world) : Traced world := by
  induction hrun with
  | refl =>
      have hnobody : ∀ entry, ¬Given (World.initial (Server.start start)) entry := by
        rintro entry ⟨task, htask, -⟩
        cases htask
      exact ⟨fun key row hrow => (nomatch hrow),
        fun entry hentry => absurd hentry (hnobody entry),
        fun entry hentry => absurd hentry (hnobody entry)⟩
  | tail _ hstep ih => exact ih.step hstep

/-! ### One request answered from another's record -/

/-- A caller whom the request's handler lets pass. -/
def permitted (request : KeyedRequest) : AuthenticatedPrincipal :=
  principal "owner" [request.route.permission]

/-- The call that was started last performs its next action. -/
theorem Run.last {sha256 : String → String} {world : HttpWorld} {store store' : Server}
    {before : List HttpTask} {seen : History Duty Duty.Answer} {duty : Duty}
    {answer : duty.Answer} {next : duty.Answer → Handling}
    (hrun : Run (serving false (fun _ => [])) (anyRequests sha256) anything world
      ⟨store, before ++ [⟨seen, .act duty next⟩]⟩) (turn : ServerTurn)
    (h : store.answer false duty turn = some (answer, store')) :
    Run (serving false (fun _ => [])) (anyRequests sha256) anything world
      ⟨store', before ++ [⟨seen ++ [⟨duty, answer⟩], next answer⟩]⟩ :=
  hrun.tail (.act trivial (.intro turn h))

def recordedAnswer : Answer := ⟨201, .null⟩

/-- The row of a request that was answered at once. -/
def answeredRow (sha256 : String → String) (request : KeyedRequest) : RetryRecordRow :=
  { RetryRecords.claimRow 0 request.lookup (request.fingerprint sha256) "first" with
    state := .completed 0 recordedAnswer }

/-- A request on a fresh server is answered by its handler and recorded. -/
theorem run_recorded (sha256 : String → String) (request : KeyedRequest) :
    ∃ server task,
      Run (serving false (fun _ => [])) (anyRequests sha256) anything
        (World.initial (Server.start 0)) ⟨server, [task]⟩ ∧
      ⟨request.claimBy sha256 (permitted request), .ok (.claimed "first" 0)⟩ ∈ task.seen ∧
      server.now = 0 ∧ server.drawn = ["first"] ∧
      server.records.get request.lookup.id = some (answeredRow sha256 request) := by
  let row := RetryRecords.claimRow 0 request.lookup (request.fingerprint sha256) "first"
  let claim : Claim :=
    ⟨request.lookup, "first", 0, permitted request, request.route.permission⟩
  let granted := (Server.start 0).grant (Table.empty.put request.lookup.id row) claim
  have hallowed : Server.handlerResult claim (.ok recordedAnswer) = .ok recordedAnswer := by
    have hpass : authorize (permitted request) request.route.permission none = .ok () := by
      simp [permitted, principal, authorize_ok]
    simp [Server.handlerResult, claim, hpass]
  have hholding : RetryRecords.holding (Table.empty.put request.lookup.id row) 0 request.lookup
      "first" = some row := by
    apply RetryRecords.holding_eq_some.mpr
    refine ⟨RetryRecords.live_eq_some.mpr ⟨Table.get_put_self _ _ _, ?_⟩, rfl, rfl⟩
    change (0 : Int) < 0 + retentionMs
    decide
  have hstart : Run (serving false (fun _ => [])) (anyRequests sha256) anything
      (World.initial (Server.start 0))
      ⟨Server.start 0, [] ++ [⟨[], handle sha256 (request.madeBy (permitted request))⟩]⟩ :=
    .single (.start ⟨_, rfl⟩)
  have hgrant : (Server.start 0).answer false (request.claimBy sha256 (permitted request))
      (.drawn "first") = some (.ok (.claimed "first" 0), granted) := rfl
  have hended : granted.answer false (.handle claim) (.ended (.ok recordedAnswer)) =
      some (.ok recordedAnswer, { granted with
        running := Server.without granted.running "first", runs := [⟨claim, .ok recordedAnswer⟩] }) := by
    simp only [Server.answer, hallowed]
    rfl
  let answered := (Table.empty.put request.lookup.id row).put request.lookup.id
    (answeredRow sha256 request)
  let completed : Server := { granted with
    records := answered
    running := Server.without granted.running "first"
    held := Server.without granted.held "first"
    runs := [⟨claim, .ok recordedAnswer⟩] }
  have hcompleted : ({ granted with
      running := Server.without granted.running "first"
      runs := [⟨claim, .ok recordedAnswer⟩] } : Server).answer false
        (.complete claim recordedAnswer) .proceed = some (.ok true, completed) := by
    have hcomplete : RetryRecords.complete (Table.empty.put request.lookup.id row) 0 request.lookup
        "first" recordedAnswer = (true, answered) := by
      simp only [RetryRecords.complete, hholding]
      rfl
    exact congrArg (fun result : Bool × RetryRecords =>
      some ((.ok result.1 : Except Unit Bool), { completed with records := result.2 })) hcomplete
  have hrun := Run.last (Run.last (Run.last hstart (.drawn "first") hgrant)
    (.ended (.ok recordedAnswer)) hended) .proceed hcompleted
  refine ⟨completed, _, hrun, ?_, rfl, rfl, Table.get_put_self _ _ _⟩
  exact List.mem_append_left _ (List.mem_append_left _ (List.mem_singleton_self _))

/-- Where the two have one lookup and one fingerprint, the second is answered from the first
one's record. -/
theorem run_answeredFrom {sha256 : String → String} {first second : KeyedRequest}
    (hlookup : first.lookup = second.lookup)
    (hfingerprint : first.fingerprint sha256 = second.fingerprint sha256) :
    ∃ world, Run (serving false (fun _ => [])) (anyRequests sha256) anything
        (World.initial (Server.start 0)) world ∧ AnsweredFrom sha256 world first second := by
  obtain ⟨server, task, hrun, hseen, hnow, hdrawn, hrow⟩ := run_recorded sha256 first
  have hstart := hrun.tail (.start ⟨second.madeBy (permitted second), rfl⟩)
  have hclaim : server.records.claim server.now second.lookup (second.fingerprint sha256) "second" =
      (.completed (answeredRow sha256 first) recordedAnswer, server.records) := by
    have hlive : server.records.live server.now second.lookup =
        some (answeredRow sha256 first) := by
      apply RetryRecords.live_eq_some.mpr
      rw [← hlookup, hnow]
      refine ⟨hrow, ?_⟩
      change (0 : Int) < 0 + retentionMs
      decide
    have hown : (answeredRow sha256 first).requestFingerprint = second.fingerprint sha256 :=
      hfingerprint
    have hkept : RetryRecords.isAbandoned (answeredRow sha256 first) server.now = false := rfl
    simp only [RetryRecords.claim, hlive, hkept, Bool.false_eq_true, if_false]
    rw [RetryRecords.occupied, if_neg (not_not.mpr hown)]
    rfl
  have hanswer : server.answer false (second.claimBy sha256 (permitted second)) (.drawn "second") =
      some (.ok (.completed (answeredRow sha256 first) recordedAnswer), server) := by
    have hfresh : "second" ∉ server.drawn := by
      rw [hdrawn]
      decide
    simp only [KeyedRequest.claimBy, Server.answer, if_neg hfresh, hclaim]
  have hended := Run.last (Run.last hstart (.drawn "second") hanswer) .proceed rfl
  refine ⟨_, hended, task, List.mem_append_left _ (List.mem_singleton_self _), _,
    List.mem_append_right _ (List.mem_singleton_self _), permitted first, permitted second, 0,
    answeredRow sha256 first, recordedAnswer, hseen, ?_, ?_⟩
  · exact List.mem_append_left _ (List.mem_singleton_self _)
  · exact List.mem_append_right _ (List.mem_singleton_self _)

/-! ### Which requests are kept apart -/

/-- A part without the separator ends at the first one. -/
theorem split_at_separator {separator : Char} {part part' rest rest' : List Char}
    (hpart : separator ∉ part) (hpart' : separator ∉ part')
    (h : part ++ separator :: rest = part' ++ separator :: rest') : part = part' ∧ rest = rest' := by
  induction part generalizing part' with
  | nil =>
      cases part' with
      | nil => exact ⟨rfl, (List.cons.inj h).2⟩
      | cons char later' =>
          obtain ⟨rfl, -⟩ := List.cons.inj h
          exact absurd List.mem_cons_self hpart'
  | cons char later ih =>
      cases part' with
      | nil =>
          obtain ⟨rfl, -⟩ := List.cons.inj h
          exact absurd List.mem_cons_self hpart
      | cons char' later' =>
          obtain ⟨rfl, hlater⟩ := List.cons.inj h
          obtain ⟨rfl, hrest⟩ := ih (fun hmem => hpart (List.mem_cons_of_mem _ hmem))
            (fun hmem => hpart' (List.mem_cons_of_mem _ hmem)) hlater
          exact ⟨rfl, hrest⟩

/-- The text behind a fingerprint is read back part by part. -/
theorem KeyedRequest.identity_inj {first second : KeyedRequest}
    (h : first.identity = second.identity) :
    first.route.method = second.route.method ∧ first.route.template = second.route.template ∧
      canonicalJson first.body = canonicalJson second.body := by
  have hseparator : "\x00".toList = ['\x00'] := rfl
  have hchars := congrArg String.toList h
  simp only [KeyedRequest.identity, String.toList_append, List.append_assoc, hseparator,
    List.cons_append, List.nil_append] at hchars
  obtain ⟨hmethod, hrest⟩ := split_at_separator first.route.plain.1 second.route.plain.1 hchars
  obtain ⟨htemplate, hbody⟩ := split_at_separator first.route.plain.2 second.route.plain.2 hrest
  exact ⟨String.toList_inj.mp hmethod, String.toList_inj.mp htemplate, String.toList_inj.mp hbody⟩

/-- Two requests are kept apart exactly where, asked for by one route and one key with one
text of the body, they ask for one thing: what the path and the query say is in neither the
lookup nor the fingerprint. -/
theorem keptApart_iff (sha256 : String → String) (first second : KeyedRequest)
    (hcollision : sha256 first.identity = sha256 second.identity →
      first.identity = second.identity) :
    KeptApart sha256 first second ↔
      (first.lookup = second.lookup → canonicalJson first.body = canonicalJson second.body →
        first.params = second.params ∧ first.query = second.query ∧
          first.body.normal = second.body.normal) := by
  constructor
  · intro hapart hlookup hbody
    have hfingerprint : first.fingerprint sha256 = second.fingerprint sha256 := by
      have hmethod := congrArg RetryLookup.method hlookup
      have htemplate := congrArg RetryLookup.scope hlookup
      simp only [KeyedRequest.lookup] at hmethod htemplate
      simp only [KeyedRequest.fingerprint, fingerprintRequest, hmethod, htemplate, hbody]
    obtain ⟨world, hrun, hanswered⟩ := run_answeredFrom hlookup hfingerprint
    have hsame : ¬first.Differs second := fun hdiffers =>
      hapart (congrArg RetryLookup.key hlookup) hdiffers 0 world hrun hanswered
    simp only [KeyedRequest.Differs, not_or, not_not] at hsame
    exact hsame.2.2
  · intro hcondition hkey hdiffers start world hrun hanswered
    obtain ⟨task, htask, task', htask', caller, caller', claimedAt, record, answer, hgranted,
      hreplayed, -⟩ := hanswered
    have hfingerprint : first.fingerprint sha256 = second.fingerprint sha256 :=
      ((run_traced hrun).replayed _ ⟨task', htask', hreplayed⟩ record.claimToken _ rfl).2 _
        ⟨task, htask, hgranted⟩ _ rfl
    obtain ⟨hmethod, htemplate, hbody⟩ := KeyedRequest.identity_inj (hcollision hfingerprint)
    have hlookup : first.lookup = second.lookup := by
      simp only [KeyedRequest.lookup, hkey, hmethod, htemplate]
    obtain ⟨hparams, hquery, hnormal⟩ := hcondition hlookup hbody
    rcases hdiffers with hother | hother | hother | hother | hother
    · exact hother hmethod
    · exact hother htemplate
    · exact hother hparams
    · exact hother hquery
    · exact hother hnormal

/-- The registrations CORE makes: their templates have no parameter, and a write reads no
query. -/
def KeyedRequest.OnCore (request : KeyedRequest) : Prop :=
  request.route.toKeyedRoute ∈ keyedRoutes ∧ request.route.accepts = []

theorem keyedRoutes_fixed : ∀ route ∈ keyedRoutes, parameterNames route.template = [] := by
  decide +kernel

/-- On CORE's own registrations the body is all there is, and different requests are kept
apart. -/
theorem core_keptApart {sha256 : String → String} {first second : KeyedRequest}
    (hcollision : sha256 first.identity = sha256 second.identity →
      first.identity = second.identity) (hfirst : first.OnCore) (hsecond : second.OnCore)
    (hfinite : first.body.finite = true) (hfinite' : second.body.finite = true) :
    KeptApart sha256 first second := by
  have hnothing : ∀ request : KeyedRequest, request.OnCore →
      request.params = [] ∧ request.query = [] := by
    intro request hcore
    constructor
    · apply List.eq_nil_iff_forall_not_mem.mpr
      intro entry hentry
      have hname := request.named entry hentry
      rw [keyedRoutes_fixed _ hcore.1] at hname
      cases hname
    · apply List.eq_nil_iff_forall_not_mem.mpr
      intro entry hentry
      have hname := request.declared entry hentry
      rw [hcore.2] at hname
      cases hname
  apply (keptApart_iff sha256 first second hcollision).mpr
  intro _ hbody
  rw [(hnothing first hfirst).1, (hnothing first hfirst).2, (hnothing second hsecond).1,
    (hnothing second hsecond).2]
  exact ⟨rfl, rfl, (canonicalJson_eq_iff hfinite hfinite').mp hbody⟩

/-! ### Requests on one route -/

def organizations : KeyedRegistration :=
  { method := "POST", template := "/v1/organizations", permission := .organizationWrite
    accepts := [], plain := by decide +kernel }

def organizationNamed (name : String) : KeyedRequest :=
  { route := organizations, key := "k", params := [], query := []
    body := .object [("name", .text name), ("country_code", .text "SA")]
    named := fun _ h => (nomatch h), declared := fun _ h => (nomatch h) }

/-- The digests of the two requests' texts. -/
def organizationDigest (text : String) : String :=
  if text = (organizationNamed "One").identity then
    "c85aebfcb96d3df1468395d243f99da1e9dfa11d0000a4eddad341868f8c858b"
  else "52b5659d5230aa8db7602bd6622784e7b664d3d11bfa5f705abfef1c80b84043"

theorem keptApart_organizations :
    KeptApart organizationDigest (organizationNamed "One") (organizationNamed "Two") := by
  have hbodies : canonicalJson (organizationNamed "One").body ≠
      canonicalJson (organizationNamed "Two").body := by decide +kernel
  have hdigests : organizationDigest (organizationNamed "One").identity =
      organizationDigest (organizationNamed "Two").identity →
        (organizationNamed "One").identity = (organizationNamed "Two").identity := by
    decide +kernel
  exact (keptApart_iff organizationDigest _ _ hdigests).mpr fun _ hsame => absurd hsame hbodies

/-- A keyed registration that acts on one of many things. -/
def things : KeyedRegistration :=
  { method := "POST", template := "/v1/things/:id/act", permission := .organizationWrite
    accepts := [], plain := by decide +kernel }

def actOn (id : String) : KeyedRequest :=
  { route := things, key := "k", params := [("id", id)], query := [], body := .object []
    named := by
      have hnames : parameterNames things.template = ["id"] := by decide +kernel
      intro entry hentry
      rw [List.mem_singleton.mp hentry, hnames]
      exact List.mem_singleton_self _
    declared := fun _ h => nomatch h }

/-- The act on the second thing is answered with what was recorded for the first. -/
theorem keptApart_fails :
    ¬∀ (sha256 : String → String) (first second : KeyedRequest), KeptApart sha256 first second := by
  intro hall
  have hlookup : (actOn "first").lookup = (actOn "second").lookup := rfl
  have hfingerprint : (actOn "first").fingerprint id = (actOn "second").fingerprint id := rfl
  obtain ⟨world, hrun, hanswered⟩ := run_answeredFrom hlookup hfingerprint
  refine hall id (actOn "first") (actOn "second") rfl ?_ 0 world hrun hanswered
  refine .inr (.inr (.inl ?_))
  decide +kernel

end WaslaCore.Http
