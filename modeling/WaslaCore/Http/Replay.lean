import WaslaCore.Http.Router
import WaslaCore.Interleaving.Logic

/-!
Who is given a recorded answer. A record is found by method, route template, key and
the fingerprint of the body, and it is replayed before any handler has asked for a
permission. The result is about runs in which whoever comes upon another principal's
record could have passed the handler's check.
-/

namespace WaslaCore.Http

open Data Platform Identity Interleaving

/-- The principal could have been given the answer by the handler: the handler ran for
it, or its permission check lets the principal pass. -/
def MayBeGiven (caller : AuthenticatedPrincipal) (permission : Permission) (run : HandlerRun) : Prop :=
  caller.principalId = run.claim.caller.principalId ∨ authorize caller permission none = .ok ()

/-- Every recorded answer that a request was given is the answer of a handler run that
its principal could have been given. -/
def ReplaysRespectCallers (world : HttpWorld) : Prop :=
  ∀ task ∈ world.tasks, ∀ lookup fingerprint caller permission record answer,
    ⟨.claim lookup fingerprint caller permission, .ok (.completed record answer)⟩ ∈ task.seen →
      ∃ run ∈ world.store.runs, run.claim.token = record.claimToken ∧ run.result = .ok answer ∧
        MayBeGiven caller permission run

/-- A request that comes upon the recorded answer of the same request is made by the
principal whose handler gave it, or by one that passes the handler's check. -/
def RepeatsOwn (_ : History Duty Duty.Answer) (duty : Duty) (server : Server) : Prop :=
  match duty with
  | .claim lookup fingerprint caller permission =>
      ∀ row, server.records.live server.now lookup = some row →
        row.requestFingerprint = fingerprint →
          ∀ run ∈ server.runs, run.claim.token = row.claimToken → MayBeGiven caller permission run
  | _ => True

/-! ### The contract -/

/-- Every recorded answer is one a handler gave, under the row's token. -/
def Authored (server : Server) : Prop :=
  ∀ key row completedAt answer, server.records.get key = some row →
    row.state = .completed completedAt answer →
      ∃ run ∈ server.runs, run.claim.token = row.claimToken ∧ run.result = .ok answer

/-- A claim is completed with what its handler answered. -/
def authoring : Discipline Duty Duty.Answer where
  told _ _ := True
  owed seen
    | .complete claim answer => ⟨.handle claim, .ok answer⟩ ∈ seen
    | _ => True

def respecting : Contract Server Duty Duty.Answer where
  toDiscipline := authoring
  inv := Authored
  guar server server' := ∀ run ∈ server.runs, run ∈ server'.runs
  guar_refl _ _ hrun := hrun
  guar_trans h h' run hrun := h' run (h run hrun)
  known
    | .handle claim, result, server => ⟨claim, result⟩ ∈ server.runs
    | .claim _ _ caller permission, .ok (.completed record answer), server =>
        ∃ run ∈ server.runs, run.claim.token = record.claimToken ∧ run.result = .ok answer ∧
          MayBeGiven caller permission run
    | _, _, _ => True
  known_stable := by
    intro duty answer server server' hguar hknown
    cases duty with
    | handle claim => exact hguar _ hknown
    | claim lookup fingerprint caller permission =>
        cases answer with
        | error failure => trivial
        | ok outcome =>
            cases outcome with
            | completed record recorded =>
                obtain ⟨run, hrun, hrest⟩ := hknown
                exact ⟨run, hguar run hrun, hrest⟩
            | _ => trivial
    | _ => trivial

/-- A completed claim is completed with what the handler answered that ran for it. -/
theorem settle_keeps {claim : Claim} {result : Except Refusal Answer}
    {seen : History Duty Duty.Answer} (h : ⟨.handle claim, result⟩ ∈ seen) :
    Keeps authoring anyEnd (settle claim result) seen := by
  cases result with
  | error refusal => exact ⟨trivial, fun _ _ => ⟨trivial, fun _ _ => trivial⟩⟩
  | ok answer =>
      by_cases hsuccess : answer.succeeded = true
      · simp only [settle, hsuccess, if_true]
        exact ⟨h, fun _ _ => ⟨trivial, fun _ _ => trivial⟩⟩
      · simp only [settle, hsuccess]
        exact ⟨trivial, fun _ _ => ⟨trivial, fun _ _ => trivial⟩⟩

theorem follow_keeps (lookup : RetryLookup) (caller : AuthenticatedPrincipal)
    (permission : Permission) (outcome : Except Unit RetryClaimOutcome)
    (seen : History Duty Duty.Answer) :
    Keeps authoring anyEnd (follow lookup caller permission outcome) seen := by
  cases outcome with
  | error failure => exact ⟨trivial, fun _ _ => trivial⟩
  | ok outcome =>
      cases outcome with
      | claimed token claimedAt =>
          refine ⟨trivial, ?_⟩
          intro (result : Except Refusal Answer) _
          exact settle_keeps (List.mem_append_right _ (List.mem_singleton_self _))
      | _ => exact ⟨trivial, fun _ _ => trivial⟩

theorem requests_author {sha256 : String → String} (call : Handling)
    (hcall : requests sha256 call) : Keeps authoring anyEnd call [] := by
  obtain ⟨⟨route, authentication, body, idempotencyKey⟩, -, rfl⟩ := hcall
  unfold handle
  cases authentication with
  | error refusal => exact ⟨trivial, fun _ _ => trivial⟩
  | ok caller =>
      cases body with
      | error refusal => exact ⟨trivial, fun _ _ => trivial⟩
      | ok body =>
          cases idempotencyKey with
          | none => exact ⟨trivial, fun _ _ => trivial⟩
          | some key =>
              refine ⟨trivial, ?_⟩
              intro (outcome : Except Unit RetryClaimOutcome) _
              exact follow_keeps _ _ _ outcome _

section Serving

variable {server server' : Server}

/-- A row put under a key, with every answer on it authored, leaves the records authored. -/
theorem Authored.put (h : Authored server) {key : String} {row : RetryRecordRow}
    (hrow : ∀ completedAt answer, row.state = .completed completedAt answer →
      ∃ run ∈ server.runs, run.claim.token = row.claimToken ∧ run.result = .ok answer) :
    Authored { server with records := server.records.put key row } := by
  intro other found completedAt answer hfound hstate
  by_cases hkey : key = other
  · subst hkey
    obtain rfl := Option.some.inj ((Table.get_put_self _ _ _).symm.trans hfound)
    exact hrow completedAt answer hstate
  · exact h other found completedAt answer
      ((Table.get_put_ne _ _ hkey).symm.trans hfound) hstate

theorem Authored.complete (h : Authored server) {claim : Claim} {answer : Answer}
    (hrun : ⟨claim, .ok answer⟩ ∈ server.runs) :
    Authored { server with
      records := (server.records.complete server.now claim.lookup claim.token answer).2 } := by
  unfold RetryRecords.complete
  cases hholding : server.records.holding server.now claim.lookup claim.token with
  | none => exact h
  | some row =>
      refine h.put fun completedAt recorded hstate => ?_
      obtain ⟨-, rfl⟩ := RetryState.completed.inj hstate
      exact ⟨_, hrun, (RetryRecords.holding_eq_some.mp hholding).2.2.symm, rfl⟩

theorem Authored.release (h : Authored server) (claim : Claim) :
    Authored { server with
      records := (server.records.release server.now claim.lookup claim.token).2 } := by
  unfold RetryRecords.release
  cases server.records.holding server.now claim.lookup claim.token with
  | none => exact h
  | some row =>
      intro key found completedAt answer hfound hstate
      by_cases hkey : claim.lookup.id = key
      · simp [Table.get_erase, hkey] at hfound
      · refine h key found completedAt answer ?_ hstate
        simpa [Table.get_erase, hkey] using hfound

theorem respecting_upheld {sha256 : String → String} :
    Upheld respecting (serving false (fun _ => [])) (requests sha256) RepeatsOwn where
  call := requests_author
  tick := by
    intro turn server server' h htick
    cases turn with
    | elapsed milliseconds =>
        simp only [serving] at htick
        split at htick
        · obtain rfl := Option.some.inj htick
          exact ⟨h, fun _ hrun => hrun⟩
        · cases htick
    | _ => cases htick
  act := by
    intro seen duty turn answer server server' h hknown howed hallowed hperform
    refine ⟨trivial, ?_⟩
    have hanswer : server.answer false duty turn = some (answer, server') := hperform
    cases duty with
    | claim lookup fingerprint caller permission =>
        cases turn with
        | drawn token =>
            obtain ⟨-, ⟨-, rfl, rfl⟩ | ⟨row, hrow, rfl, rfl⟩⟩ := Server.answer_claim hanswer
            · refine ⟨?_, fun _ hrun => hrun, trivial⟩
              exact Authored.put h (fun completedAt answer hstate => RetryState.noConfusion hstate)
            · refine ⟨h, fun _ hrun => hrun, ?_⟩
              cases houtcome : RetryRecords.occupied row fingerprint with
              | completed record recorded =>
                  obtain ⟨rfl, hsame, completedAt, hstate⟩ := RetryRecords.occupied_completed houtcome
                  obtain ⟨run, hrun, htoken, hresult⟩ := h lookup.id _ completedAt recorded
                    (RetryRecords.live_eq_some.mp hrow).1 hstate
                  exact ⟨run, hrun, htoken, hresult, hallowed _ hrow hsame run hrun htoken⟩
              | _ => trivial
        | failed =>
            obtain ⟨rfl, rfl⟩ := Prod.mk.inj (Option.some.inj hperform)
            exact ⟨h, fun _ hrun => hrun, trivial⟩
        | _ => cases hperform
    | handle claim =>
        cases turn with
        | ended result =>
            obtain ⟨rfl, rfl⟩ := Prod.mk.inj (Option.some.inj hperform)
            refine ⟨?_, fun _ hrun => List.mem_cons_of_mem _ hrun, List.mem_cons_self⟩
            intro key row completedAt recorded hrow hstate
            obtain ⟨run, hrun, hrest⟩ := h key row completedAt recorded hrow hstate
            exact ⟨run, List.mem_cons_of_mem _ hrun, hrest⟩
        | _ => cases hperform
    | complete claim recorded =>
        cases turn with
        | proceed =>
            obtain ⟨rfl, rfl⟩ := Prod.mk.inj (Option.some.inj hperform)
            exact ⟨h.complete (hknown _ howed), fun _ hrun => hrun, trivial⟩
        | failed =>
            obtain ⟨rfl, rfl⟩ := Prod.mk.inj (Option.some.inj hperform)
            exact ⟨h, fun _ hrun => hrun, trivial⟩
        | _ => cases hperform
    | release claim =>
        cases turn with
        | proceed =>
            obtain ⟨rfl, rfl⟩ := Prod.mk.inj (Option.some.inj hperform)
            exact ⟨h.release claim, fun _ hrun => hrun, trivial⟩
        | failed =>
            obtain ⟨rfl, rfl⟩ := Prod.mk.inj (Option.some.inj hperform)
            exact ⟨h, fun _ hrun => hrun, trivial⟩
        | _ => cases hperform
    | respond response =>
        cases turn with
        | proceed =>
            obtain ⟨rfl, rfl⟩ := Prod.mk.inj (Option.some.inj hperform)
            exact ⟨h, fun _ hrun => hrun, trivial⟩
        | _ => cases hperform

end Serving

/-- A recorded answer goes only to who could have been given it, in every run in which
nobody repeats a request that is not its own and that its principal could not make. -/
theorem run_respects {sha256 : String → String} {start : Int}
    {world : HttpWorld}
    (hrun : Run (serving false (fun _ => [])) (requests sha256) RepeatsOwn
      (World.initial (Server.start start)) world) :
    ReplaysRespectCallers world := by
  have hempty : Authored (Server.start start) := by
    intro key row completedAt answer hrow
    cases hrow
  have hkept := (respecting_upheld.run (Kept.initial hempty) hrun).1
  intro task htask lookup fingerprint caller permission record answer hentry
  exact hkept.known task htask _ hentry

/-! ### Runs of one request by two principals -/

instance (caller : AuthenticatedPrincipal) (permission : Permission) (run : HandlerRun) :
    Decidable (MayBeGiven caller permission run) :=
  decidable_of_iff (caller.principalId = run.claim.caller.principalId ∨
    permission ∈ caller.permissions) (or_congr_right (by simp [authorize_ok]))

instance (seen : History Duty Duty.Answer) (duty : Duty) (server : Server) :
    Decidable (RepeatsOwn seen duty server) :=
  match duty with
  | .claim lookup fingerprint caller permission =>
      inferInstanceAs (Decidable (∀ row ∈ server.records.live server.now lookup,
        row.requestFingerprint = fingerprint → ∀ run ∈ server.runs,
          run.claim.token = row.claimToken → MayBeGiven caller permission run))
  | .handle _ => inferInstanceAs (Decidable True)
  | .complete _ _ => inferInstanceAs (Decidable True)
  | .release _ => inferInstanceAs (Decidable True)
  | .respond _ => inferInstanceAs (Decidable True)

/-- The answer was replayed to a principal that could not have been given it. -/
def unentitled (server : Server) : (duty : Duty) → duty.Answer → Bool
  | .claim _ _ caller permission, .ok (.completed record _) =>
      server.runs.all (fun run => run.claim.token ≠ record.claimToken ∨
        ¬MayBeGiven caller permission run)
  | _, _ => false

theorem ReplaysRespectCallers.entitled {world : HttpWorld}
    (h : ReplaysRespectCallers world) :
    world.tasks.any (fun task => task.seen.any (fun entry =>
      unentitled world.store entry.1 entry.2)) = false := by
  by_contra hsome
  obtain ⟨task, htask, hany⟩ := List.any_eq_true.mp (Bool.not_eq_false _ ▸ hsome)
  obtain ⟨⟨duty, answer⟩, hentry, hbad⟩ := List.any_eq_true.mp hany
  cases duty with
  | claim lookup fingerprint caller permission =>
      cases answer with
      | error failure => cases hbad
      | ok outcome =>
          cases outcome with
          | completed record recorded =>
              obtain ⟨run, hrun, htoken, -, hgiven⟩ := h task htask _ _ _ _ _ _ hentry
              rcases of_decide_eq_true (List.all_eq_true.mp hbad run hrun) with hother | hnever
              · exact hother htoken
              · exact hnever hgiven
          | _ => cases hbad
  | _ => cases hbad

/-- The owner's request is answered and recorded, and another principal repeats it. -/
def repeatedBy (other : AuthenticatedPrincipal) : HttpSchedule :=
  .start (handle id (organizationRequest (principal "owner" [.organizationWrite]))) ::
    acts 0 [.drawn "first", .ended (.ok ⟨201, .null⟩), .proceed, .proceed] ++
  .start (handle id (organizationRequest other)) :: acts 1 [.drawn "second", .proceed]

set_option maxRecDepth 20000 in
theorem run_respects_colleague :
    ∃ world, play (serving false (fun _ => []))
        (fun seen duty server => decide (RepeatsOwn seen duty server))
        (repeatedBy (principal "colleague" [.organizationWrite]))
        (World.initial (Server.start 0)) = some world ∧
      world.tasks.map (fun task => task.seen.length) = [4, 2] ∧ ReplaysRespectCallers world := by
  have hplays : (play (serving false (fun _ => []))
      (fun seen duty server => decide (RepeatsOwn seen duty server))
      (repeatedBy (principal "colleague" [.organizationWrite]))
      (World.initial (Server.start 0))).any
        (fun world => world.tasks.map (fun task => task.seen.length) = [4, 2]) = true := by
    decide +kernel
  obtain ⟨world, hworld, hdone⟩ := (Option.any_eq_true _ _).mp hplays
  have hrun : Run (serving false (fun _ => [])) (requests id) RepeatsOwn
      (World.initial (Server.start 0)) world := by
    refine play_run hworld ?_ (fun _ _ _ h => of_decide_eq_true h)
    simp [repeatedBy, acts, requests_organizationRequest]
  exact ⟨world, hworld, of_decide_eq_true hdone, run_respects hrun⟩

set_option maxRecDepth 20000 in
/-- A principal without the permission is given the organization another one created. -/
theorem run_respects_fails :
    ¬∀ (sha256 : String → String) (start : Int)
      (world : HttpWorld),
      Run (serving false (fun _ => [])) (requests sha256) anything
        (World.initial (Server.start start)) world → ReplaysRespectCallers world := by
  intro hclaim
  have hplays : (play (serving false (fun _ => [])) unrestricted
      (repeatedBy (principal "outsider" [])) (World.initial (Server.start 0))).any
        (fun world => world.tasks.any (fun task => task.seen.any (fun entry =>
          unentitled world.store entry.1 entry.2))) = true := by
    decide +kernel
  obtain ⟨world, hworld, hbad⟩ := (Option.any_eq_true _ _).mp hplays
  have hrun : Run (serving false (fun _ => [])) (requests id) anything
      (World.initial (Server.start 0)) world := by
    refine play_run hworld ?_ (fun _ _ _ _ => trivial)
    simp [repeatedBy, acts, requests_organizationRequest]
  have hentitled := (hclaim id 0 world hrun).entitled
  rw [hbad] at hentitled
  cases hentitled

end WaslaCore.Http
