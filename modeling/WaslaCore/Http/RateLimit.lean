import WaslaCore.Http.Answering

/-!
The fixed-window limiter. A check adds one to the counter of the window its moment belongs
to and is allowed while the total stays within the policy; a prune deletes the counters
whose window started before its cutoff. The bound is about any sequence of checks and
prunes that leaves the window in progress alone.
-/

namespace WaslaCore.Http

/-- A window is not empty. -/
structure RateLimitPolicy where
  windowMs : Nat
  limits : RateClass → Nat
  windowMs_pos : 0 < windowMs

/-- The policy a limiter is built with where none is given. -/
def defaultRateLimitPolicy : RateLimitPolicy where
  windowMs := 60000
  limits
    | .ingressEvents => 600
    | .write => 120
    | .read => 300
    | .unmatched => 60
  windowMs_pos := by decide

structure RateLimitKey where
  subject : RateLimitSubject
  rateClass : RateClass
  deriving DecidableEq, Repr

/-- One row of the counter table; the key and the start of the window identify it. -/
structure RateLimitCounterRow where
  key : RateLimitKey
  windowStart : Nat
  hits : Nat
  updatedAt : Nat
  deriving DecidableEq, Repr

abbrev RateLimitWindows := List RateLimitCounterRow

namespace RateLimitWindows

def counts (key : RateLimitKey) (windowStart : Nat) (row : RateLimitCounterRow) : Bool :=
  row.key = key && row.windowStart = windowStart

/-- The hits of a window, none where it has no counter. -/
def hitsOf (windows : RateLimitWindows) (key : RateLimitKey) (windowStart : Nat) : Nat :=
  ((windows.find? (counts key windowStart)).map RateLimitCounterRow.hits).getD 0

/-- One more hit, and what the total became. -/
def hit (windows : RateLimitWindows) (key : RateLimitKey) (windowStart now : Nat) :
    Nat × RateLimitWindows :=
  let hits := windows.hitsOf key windowStart + 1
  (hits, ⟨key, windowStart, hits, now⟩ :: windows.filter (fun row => !counts key windowStart row))

/-- How many counters were removed, and the ones that are left. -/
def prune (windows : RateLimitWindows) (before : Nat) : Nat × RateLimitWindows :=
  (windows.countP (fun row => row.windowStart < before),
    windows.filter (fun row => !decide (row.windowStart < before)))

end RateLimitWindows

/-! ### Checks and prunes -/

inductive LimiterCall where
  | check (subject : RateLimitSubject) (rateClass : RateClass)
  | prune (before : Nat)
  deriving DecidableEq, Repr

/-- A call, at what the clock read. -/
structure LimiterRequest where
  now : Nat
  call : LimiterCall
  deriving DecidableEq, Repr

namespace RateLimitPolicy

/-- The window a moment belongs to, counted from the epoch. -/
def window (policy : RateLimitPolicy) (now : Nat) : Nat := now / policy.windowMs

def windowStart (policy : RateLimitPolicy) (now : Nat) : Nat := policy.window now * policy.windowMs

/-- A refused check is counted too. -/
def check (policy : RateLimitPolicy) (windows : RateLimitWindows) (now : Nat)
    (subject : RateLimitSubject) (rateClass : RateClass) : RateLimitDecision × RateLimitWindows :=
  let limit := policy.limits rateClass
  let resetAt := policy.windowStart now + policy.windowMs
  let (count, windows) := windows.hit ⟨subject, rateClass⟩ (policy.windowStart now) now
  if limit < count then (.refused limit (resetAt - now) resetAt, windows)
  else (.allowed limit (limit - count) resetAt, windows)

/-- What a check decides, and what any call leaves of the counters. -/
def serve (policy : RateLimitPolicy) (windows : RateLimitWindows) (request : LimiterRequest) :
    Option RateLimitDecision × RateLimitWindows :=
  match request.call with
  | .check subject rateClass =>
      let (decision, windows) := policy.check windows request.now subject rateClass
      (some decision, windows)
  | .prune before => (none, (windows.prune before).2)

/-- The checks of a sequence of calls that were allowed, each with its moment. -/
def allowedBy (policy : RateLimitPolicy) :
    RateLimitWindows → List LimiterRequest → List (RateLimitKey × Nat)
  | _, [] => []
  | windows, request :: rest =>
      let (decision, windows') := policy.serve windows request
      match request.call, decision with
      | .check subject rateClass, some (.allowed _ _ _) =>
          (⟨subject, rateClass⟩, request.now) :: policy.allowedBy windows' rest
      | _, _ => policy.allowedBy windows' rest

/-- How often a subject was allowed a class at a moment that passes the test. -/
def allowedCount (policy : RateLimitPolicy) (windows : RateLimitWindows)
    (requests : List LimiterRequest) (key : RateLimitKey) (during : Nat → Bool) : Nat :=
  (policy.allowedBy windows requests).countP (fun entry => entry.1 = key && during entry.2)

/-- At most the limit within one window, and twice the limit within any interval as long
as a window. -/
def Bounded (policy : RateLimitPolicy) (windows : RateLimitWindows)
    (requests : List LimiterRequest) : Prop :=
  ∀ key,
    (∀ window, policy.allowedCount windows requests key (fun at_ => policy.window at_ = window) ≤
      policy.limits key.rateClass) ∧
    ∀ start, policy.allowedCount windows requests key
      (fun at_ => start ≤ at_ && at_ < start + policy.windowMs) ≤ 2 * policy.limits key.rateClass

/-- No counter of the window in progress is deleted. -/
def SparesLive (policy : RateLimitPolicy) (windows : RateLimitWindows) (request : LimiterRequest) :
    Prop :=
  match request.call with
  | .check _ _ => True
  | .prune before =>
      ∀ row ∈ windows, row.windowStart = policy.windowStart request.now →
        before ≤ row.windowStart

instance (policy : RateLimitPolicy) (windows : RateLimitWindows) :
    (request : LimiterRequest) → Decidable (policy.SparesLive windows request)
  | ⟨_, .check _ _⟩ => inferInstanceAs (Decidable True)
  | ⟨now, .prune before⟩ => inferInstanceAs (Decidable (∀ row ∈ windows,
      row.windowStart = policy.windowStart now → before ≤ row.windowStart))

/-- Every prune of the sequence spares the window it runs in. -/
def Spared (policy : RateLimitPolicy) : RateLimitWindows → List LimiterRequest → Prop
  | _, [] => True
  | windows, request :: rest =>
      policy.SparesLive windows request ∧ policy.Spared (policy.serve windows request).2 rest

instance Spared.decide (policy : RateLimitPolicy) : (windows : RateLimitWindows) →
    (requests : List LimiterRequest) → Decidable (policy.Spared windows requests)
  | _, [] => inferInstanceAs (Decidable True)
  | windows, request :: rest =>
      @instDecidableAnd _ _ inferInstance
        (Spared.decide policy (policy.serve windows request).2 rest)

end RateLimitPolicy

/-- The clock never goes back. -/
def Chronological (requests : List LimiterRequest) : Prop :=
  requests.Pairwise (fun earlier later => earlier.now ≤ later.now)

instance (requests : List LimiterRequest) : Decidable (Chronological requests) :=
  inferInstanceAs (Decidable (requests.Pairwise _))

/-! ### What a call does to one counter -/

namespace RateLimitWindows

variable {windows : RateLimitWindows} {key other : RateLimitKey} {start otherStart : Nat}

theorem find_agree {first second : RateLimitCounterRow → Bool}
    (h : ∀ row ∈ windows, first row = second row) : windows.find? first = windows.find? second := by
  induction windows with
  | nil => rfl
  | cons row rest ih =>
      rw [List.find?_cons, List.find?_cons, h row List.mem_cons_self,
        ih fun other hother => h other (List.mem_cons_of_mem row hother)]

theorem hitsOf_hit_self (windows : RateLimitWindows) (key : RateLimitKey) (start now : Nat) :
    (windows.hit key start now).2.hitsOf key start = windows.hitsOf key start + 1 := by
  unfold hit
  simp [hitsOf, counts]

theorem hitsOf_hit_other (windows : RateLimitWindows) (now : Nat) (h : ¬(key = other ∧ start = otherStart)) :
    (windows.hit key start now).2.hitsOf other otherStart = windows.hitsOf other otherStart := by
  have hnot : counts other otherStart ⟨key, start, windows.hitsOf key start + 1, now⟩ = false := by
    simpa [counts] using h
  have hkept : ∀ row, counts other otherStart row = true → counts key start row = false := by
    intro row hrow
    simp only [counts, Bool.and_eq_true, decide_eq_true_eq] at hrow
    simp only [counts, Bool.and_eq_false_iff, decide_eq_false_iff_not]
    obtain ⟨rfl, rfl⟩ := hrow
    by_cases hkey : row.key = key
    · exact .inr fun hstart => h ⟨hkey.symm, hstart.symm⟩
    · exact .inl hkey
  unfold hitsOf hit
  rw [List.find?_cons_of_neg (by simp [hnot]), List.find?_filter]
  congr 2
  refine find_agree fun row _ => ?_
  cases hrow : counts other otherStart row with
  | false => simp
  | true => simp [hkept row hrow]

/-- A counter that no prune deletes keeps its hits. -/
theorem hitsOf_prune {before : Nat} (key : RateLimitKey)
    (h : ∀ row ∈ windows, row.windowStart = start → before ≤ row.windowStart) :
    (windows.prune before).2.hitsOf key start = windows.hitsOf key start := by
  unfold hitsOf prune
  rw [List.find?_filter]
  congr 2
  refine find_agree fun row hrow => ?_
  cases hcounts : counts key start row with
  | false => simp
  | true =>
      simp only [counts, Bool.and_eq_true, decide_eq_true_eq] at hcounts
      have hkept := h row hrow hcounts.2
      simp [hkept]

end RateLimitWindows

/-! ### The bound -/

namespace RateLimitPolicy

variable {policy : RateLimitPolicy} {windows : RateLimitWindows} {requests : List LimiterRequest}

/-- Nothing is allowed before the first call. -/
theorem allowedBy_after {now : Nat} (h : ∀ request ∈ requests, now ≤ request.now) :
    ∀ entry ∈ policy.allowedBy windows requests, now ≤ entry.2 := by
  induction requests generalizing windows with
  | nil => simp [allowedBy]
  | cons request rest ih =>
      have hrest := fun windows => @ih windows fun later hlater =>
        h later (List.mem_cons_of_mem request hlater)
      unfold allowedBy
      dsimp only
      split
      · intro entry hentry
        rcases List.mem_cons.mp hentry with rfl | hlater
        · exact h request List.mem_cons_self
        · exact hrest _ entry hlater
      · exact hrest _

theorem window_mono {earlier later : Nat} (h : earlier ≤ later) :
    policy.window earlier ≤ policy.window later :=
  Nat.div_le_div_right h

/-- A window that is over is allowed nothing more. -/
theorem allowedCount_past {now window : Nat} (h : ∀ request ∈ requests, now ≤ request.now)
    (key : RateLimitKey) (hpast : window < policy.window now) :
    policy.allowedCount windows requests key (fun at_ => policy.window at_ = window) = 0 := by
  unfold allowedCount
  rw [List.countP_eq_zero]
  intro entry hentry
  have hlater := policy.window_mono (allowedBy_after h entry hentry)
  simp only [Bool.and_eq_true, decide_eq_true_eq, not_and]
  intro _ hsame
  omega

/-- What is still left of a window: the limit less the hits, where the window is the one
in progress. -/
def left (policy : RateLimitPolicy) (windows : RateLimitWindows) (now : Nat) (key : RateLimitKey)
    (window : Nat) : Nat :=
  policy.limits key.rateClass -
    if window = policy.window now then windows.hitsOf key (policy.windowStart now) else 0

theorem allowedCount_cons (request : LimiterRequest) (key : RateLimitKey) (during : Nat → Bool) :
    policy.allowedCount windows (request :: requests) key during =
      policy.allowedCount windows [request] key during +
        policy.allowedCount (policy.serve windows request).2 requests key during := by
  unfold allowedCount
  rw [← List.countP_append]
  congr 1
  simp only [allowedBy]
  split <;> rfl

/-- A call is allowed nothing outside its own window. -/
theorem allowedCount_elsewhere (request : LimiterRequest) (key : RateLimitKey) {window : Nat}
    (h : window ≠ policy.window request.now) :
    policy.allowedCount windows [request] key (fun at_ => policy.window at_ = window) = 0 := by
  unfold allowedCount
  rw [List.countP_eq_zero]
  simp only [allowedBy]
  split
  · rintro entry hentry
    rw [List.mem_singleton.mp hentry]
    simpa using fun _ hsame => h hsame.symm
  · simp

/-- One call takes from what is left of its window. -/
theorem serve_left {request : LimiterRequest} (hspares : policy.SparesLive windows request)
    (key : RateLimitKey) :
    policy.allowedCount windows [request] key
        (fun at_ => policy.window at_ = policy.window request.now) +
      policy.left (policy.serve windows request).2 request.now key (policy.window request.now) ≤
    policy.left windows request.now key (policy.window request.now) := by
  obtain ⟨now, call⟩ := request
  cases call with
  | prune before =>
      have hkept := RateLimitWindows.hitsOf_prune key hspares
      simp only [allowedCount, allowedBy, serve, left, List.countP_nil, Nat.zero_add, if_pos]
      rw [hkept]
  | check subject rateClass =>
      by_cases hkey : (⟨subject, rateClass⟩ : RateLimitKey) = key
      · subst hkey
        have hcounted := windows.hitsOf_hit_self ⟨subject, rateClass⟩ (policy.windowStart now) now
        by_cases hover : policy.limits rateClass <
            (windows.hit ⟨subject, rateClass⟩ (policy.windowStart now) now).1
        · simp only [allowedCount, allowedBy, serve, check, hover, if_pos, left, List.countP_nil,
            Nat.zero_add]
          rw [hcounted]
          omega
        · simp only [allowedCount, allowedBy, serve, check, hover, if_neg, not_false_eq_true, left,
            if_pos]
          rw [hcounted]
          simp only [RateLimitWindows.hit] at hover
          simp
          omega
      · have hcounted : (windows.hit ⟨subject, rateClass⟩ (policy.windowStart now) now).2.hitsOf key
            (policy.windowStart now) = windows.hitsOf key (policy.windowStart now) :=
          windows.hitsOf_hit_other now fun h => hkey h.1
        have hnone : policy.allowedCount windows [⟨now, .check subject rateClass⟩] key
            (fun at_ => policy.window at_ = policy.window now) = 0 := by
          unfold allowedCount
          rw [List.countP_eq_zero]
          simp only [allowedBy]
          split
          · rename_i hcall _
            obtain ⟨rfl, rfl⟩ := LimiterCall.check.inj hcall
            simp [hkey]
          · simp
        have hserved : (policy.serve windows ⟨now, .check subject rateClass⟩).2 =
            (windows.hit ⟨subject, rateClass⟩ (policy.windowStart now) now).2 := by
          simp only [serve, check]
          split <;> rfl
        rw [hnone, hserved]
        simp only [left, if_pos, Nat.zero_add]
        rw [hcounted]

/-- Whatever is allowed from a moment on was still left at that moment. -/
theorem allowedCount_left (now : Nat) (hclock : Chronological requests)
    (hnow : ∀ request ∈ requests, now ≤ request.now) (hspared : policy.Spared windows requests)
    (key : RateLimitKey) (window : Nat) :
    policy.allowedCount windows requests key (fun at_ => policy.window at_ = window) ≤
      policy.left windows now key window := by
  induction requests generalizing windows now with
  | nil => simp [allowedCount, allowedBy]
  | cons request rest ih =>
      obtain ⟨hspares, hrest⟩ := hspared
      obtain ⟨hlater, hordered⟩ := List.pairwise_cons.mp hclock
      have htail := ih request.now hordered hlater hrest
      have hhead := policy.window_mono (hnow request List.mem_cons_self)
      rw [allowedCount_cons]
      by_cases hwindow : window = policy.window request.now
      · subst hwindow
        have hleft := serve_left hspares key
        have hstarted : policy.left windows request.now key (policy.window request.now) ≤
            policy.left windows now key (policy.window request.now) := by
          simp only [left, if_pos]
          by_cases hsame : policy.window request.now = policy.window now
          · rw [if_pos hsame, windowStart, windowStart, hsame]
          · rw [if_neg hsame]
            omega
        omega
      · rw [allowedCount_elsewhere request key hwindow, Nat.zero_add]
        by_cases hpast : window = policy.window now
        · have hover : window < policy.window request.now := by omega
          rw [allowedCount_past hlater key hover]
          exact Nat.zero_le _
        · apply htail.trans
          unfold left
          rw [if_neg hpast]
          exact Nat.sub_le _ _

/-- An interval as long as a window meets two windows at most. -/
theorem allowedCount_interval (policy : RateLimitPolicy) (windows : RateLimitWindows)
    (requests : List LimiterRequest) (key : RateLimitKey) (start : Nat) :
    policy.allowedCount windows requests key
        (fun at_ => start ≤ at_ && at_ < start + policy.windowMs) ≤
      policy.allowedCount windows requests key (fun at_ => policy.window at_ = policy.window start) +
        policy.allowedCount windows requests key
          (fun at_ => policy.window at_ = policy.window start + 1) := by
  have hmeets : ∀ moment, start ≤ moment → moment < start + policy.windowMs →
      policy.window moment = policy.window start ∨
        policy.window moment = policy.window start + 1 := by
    intro moment hfrom hto
    have hlow := policy.window_mono hfrom
    have hhigh : policy.window moment ≤ policy.window start + 1 := by
      have hnext := policy.window_mono (Nat.le_of_lt hto)
      rwa [window, window, Nat.add_div_right _ policy.windowMs_pos] at hnext
    omega
  unfold allowedCount
  induction policy.allowedBy windows requests with
  | nil => simp
  | cons entry rest ih =>
      obtain ⟨other, moment⟩ := entry
      simp only [List.countP_cons] at ih ⊢
      by_cases hinside : (decide (other = key) &&
          (decide (start ≤ moment) && decide (moment < start + policy.windowMs))) = true
      · simp only [Bool.and_eq_true, decide_eq_true_eq] at hinside
        obtain ⟨rfl, hfrom, hto⟩ := hinside
        rcases hmeets moment hfrom hto with hsame | hnext
        · simp [hfrom, hto, hsame] at ih ⊢
          omega
        · simp [hfrom, hto, hnext] at ih ⊢
          omega
      · rw [if_neg hinside]
        exact ih.trans (Nat.add_le_add (Nat.le_add_right _ _) (Nat.le_add_right _ _))

/-- Where no prune deletes a counter of the window in progress, every subject keeps to its
limit in every window, and to twice its limit in every interval as long as a window. -/
theorem serve_bounded (policy : RateLimitPolicy) (windows : RateLimitWindows)
    (requests : List LimiterRequest) (hclock : Chronological requests)
    (hspared : policy.Spared windows requests) : policy.Bounded windows requests := by
  have hwindow : ∀ key window, policy.allowedCount windows requests key
      (fun at_ => policy.window at_ = window) ≤ policy.limits key.rateClass := by
    intro key window
    have hleft := allowedCount_left 0 hclock (fun _ _ => Nat.zero_le _) hspared key window
    exact hleft.trans (Nat.sub_le _ _)
  intro key
  refine ⟨hwindow key, fun start => ?_⟩
  have hinterval := policy.allowedCount_interval windows requests key start
  have hfirst := hwindow key (policy.window start)
  have hsecond := hwindow key (policy.window start + 1)
  omega

/-- Two checks within the limit, and a prune after their window is over. -/
theorem serve_bounded_prunedLater :
    let requests : List LimiterRequest :=
      [⟨1000, .check ⟨.network, "a"⟩ .unmatched⟩, ⟨2000, .check ⟨.network, "a"⟩ .unmatched⟩,
        ⟨60001, .prune 60000⟩, ⟨60001, .check ⟨.network, "a"⟩ .unmatched⟩]
    defaultRateLimitPolicy.Bounded [] requests :=
  serve_bounded defaultRateLimitPolicy [] _ (by decide) (by decide)

/-- A policy of one check a minute. -/
def onePerMinute : RateLimitPolicy := ⟨60000, fun _ => 1, by decide⟩

/-- A prune half a minute into a window, with no cutoff in the future, forgets the check
that was allowed in it: a second one is allowed. -/
theorem bounded_fails :
    ¬∀ (policy : RateLimitPolicy) (requests : List LimiterRequest), Chronological requests →
      (∀ request ∈ requests, ∀ before, request.call = .prune before → before ≤ request.now) →
        policy.Bounded [] requests := by
  intro htrue
  let requests : List LimiterRequest :=
    [⟨1000, .check ⟨.network, "a"⟩ .unmatched⟩, ⟨30000, .prune 30000⟩,
      ⟨30000, .check ⟨.network, "a"⟩ .unmatched⟩]
  have hbounded := htrue onePerMinute requests (by decide) (by simp [requests])
  have hwindow := (hbounded ⟨⟨.network, "a"⟩, .unmatched⟩).1 0
  revert hwindow
  decide

end RateLimitPolicy

end WaslaCore.Http
