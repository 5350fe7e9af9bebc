import WaslaCore.Data.Lease

/-!
Work that may be tried again, under two budgets. An attempt somebody saw fail charges
one of them, a claim that nobody ended before its lease ran out charges the other, and
a revival starts the second anew but not the first. The tally keeps what happened to a
piece of work since it arrived or was last revived; that it stays within its budgets is
proved for one turn.
-/

namespace WaslaCore.Data

/-- What a piece of work shows of its budgets. -/
structure Account where
  phase : Phase
  token : Option String
  attempts : Nat
  reclaims : Nat
  deriving DecidableEq, Repr

/-- What a turn counts as. -/
inductive Note where
  | claimed
  | abandoned
  | failed
  | revived (attempts : Nat)
  deriving DecidableEq, Repr

/-- What happened since the arrival or the last revival, and the attempts that had been
charged by then. -/
structure Tally where
  start : Nat
  claims : Nat
  abandonments : Nat
  failures : Nat
  deriving DecidableEq, Repr

def Tally.zero : Tally := ⟨0, 0, 0, 0⟩

def Tally.add (tally : Tally) : Option Note → Tally
  | none => tally
  | some .claimed => { tally with claims := tally.claims + 1 }
  | some .abandoned => { tally with abandonments := tally.abandonments + 1 }
  | some .failed => { tally with failures := tally.failures + 1 }
  | some (.revived attempts) => ⟨attempts, 0, 0, 0⟩

namespace Account

def fresh : Account := ⟨.pending, none, 0, 0⟩

/-- An abandoned claim gives the work back, or gives up on it. -/
def abandoned (account : Account) (maxReclaims : Nat) : Account :=
  { account with
    phase := if maxReclaims < account.reclaims + 1 then .dead else .pending
    token := none
    reclaims := account.reclaims + 1 }

/-- What one operation makes of one piece of work. A failing attempt leaves it pending
only where that was not the last one allowed. -/
inductive Turn (maxAttempts maxReclaims : Nat) :
    Option Note → Option Account → Option Account → Prop where
  | same (account : Option Account) : Turn maxAttempts maxReclaims none account account
  | arrived : Turn maxAttempts maxReclaims none none (some fresh)
  | claimed (account : Account) (token : String) (hpending : account.phase = .pending)
      (hfree : account.token = none) :
      Turn maxAttempts maxReclaims (some .claimed) (some account)
        (some { account with token := some token })
  | abandoned (account : Account) (hpending : account.phase = .pending)
      (hheld : account.token.isSome = true) :
      Turn maxAttempts maxReclaims (some .abandoned) (some account)
        (some (account.abandoned maxReclaims))
  | retried (account : Account) (hpending : account.phase = .pending)
      (hheld : account.token.isSome = true) (hunder : account.attempts + 1 < maxAttempts) :
      Turn maxAttempts maxReclaims (some .failed) (some account)
        (some { account with token := none, attempts := account.attempts + 1 })
  | died (account : Account) (hpending : account.phase = .pending)
      (hheld : account.token.isSome = true) :
      Turn maxAttempts maxReclaims (some .failed) (some account)
        (some { account with phase := .dead, token := none, attempts := account.attempts + 1 })
  | ended (account : Account) (phase : Phase) (attempts : Nat)
      (hpending : account.phase = .pending) (hphase : phase ≠ .pending) :
      Turn maxAttempts maxReclaims none (some account)
        (some { account with phase := phase, token := none, attempts := attempts })
  | revived (account : Account) (hdead : account.phase = .dead) :
      Turn maxAttempts maxReclaims (some (.revived account.attempts)) (some account)
        (some { account with phase := .pending, token := none, reclaims := 0 })

/-- Work that is pending accounts for every claim: it ended in a failing attempt, was
abandoned, or is held now. -/
structure Open (maxAttempts maxReclaims : Nat) (tally : Tally) (account : Account) : Prop where
  reclaims : account.reclaims = tally.abandonments
  recoverable : tally.abandonments ≤ maxReclaims
  attempts : account.attempts = tally.start + tally.failures
  retryable : tally.failures = 0 ∨ account.attempts < maxAttempts
  claims : tally.claims =
    tally.failures + tally.abandonments + if account.token.isSome then 1 else 0

/-- The tally of a piece of work within its budgets. -/
structure Within (maxAttempts maxReclaims : Nat) (tally : Tally) (account : Account) : Prop where
  whenOpen : account.phase = .pending → Open maxAttempts maxReclaims tally account
  claims : tally.claims ≤ max (maxAttempts - tally.start) 1 + maxReclaims
  recoveries : tally.abandonments ≤ maxReclaims + 1
  abandoned : maxReclaims < tally.abandonments → account.phase = .dead
  failures : tally.failures ≤ max (maxAttempts - tally.start) 1
  spent : 0 < tally.failures → maxAttempts ≤ tally.start + tally.failures →
    account.phase = .dead

section Turns

variable {maxAttempts maxReclaims : Nat} {tally : Tally} {account : Account}

theorem within_fresh : Within maxAttempts maxReclaims .zero fresh where
  whenOpen _ := ⟨rfl, Nat.zero_le _, rfl, .inl rfl, rfl⟩
  claims := Nat.zero_le _
  recoveries := Nat.zero_le _
  abandoned h := absurd h (Nat.not_lt_zero _)
  failures := Nat.zero_le _
  spent h := absurd h (Nat.lt_irrefl 0)

/-- A claim of free work within its budgets leaves it there: the attempts and the
recoveries left bound the claims. -/
theorem Within.claimed (h : Within maxAttempts maxReclaims tally account)
    (hpending : account.phase = .pending) (hfree : account.token = none) (token : String) :
    Within maxAttempts maxReclaims (tally.add (some .claimed))
      { account with token := some token } := by
  obtain ⟨hreclaims, hrecoverable, hattempts, hretryable, hclaims⟩ := h.whenOpen hpending
  simp only [hfree, Option.isSome_none, Bool.false_eq_true, if_false, Nat.add_zero] at hclaims
  refine ⟨fun _ => ⟨hreclaims, hrecoverable, hattempts, hretryable, ?_⟩, ?_, h.recoveries,
    h.abandoned, h.failures, h.spent⟩
  · simp only [Tally.add, hclaims, Option.isSome_some, if_true]
  · simp only [Tally.add, hclaims]
    omega

theorem Within.abandons (h : Within maxAttempts maxReclaims tally account)
    (hpending : account.phase = .pending) (hheld : account.token.isSome = true) :
    Within maxAttempts maxReclaims (tally.add (some .abandoned))
      (account.abandoned maxReclaims) := by
  obtain ⟨hreclaims, hrecoverable, hattempts, hretryable, hclaims⟩ := h.whenOpen hpending
  simp only [hheld, if_true] at hclaims
  by_cases hspent : maxReclaims < account.reclaims + 1
  · have hphase : (account.abandoned maxReclaims).phase = .dead := by
      simp only [Account.abandoned, if_pos hspent]
    refine ⟨fun hopen => ?_, h.claims, ?_, fun _ => hphase, h.failures, fun _ _ => hphase⟩
    · rw [hphase] at hopen
      cases hopen
    · simp only [Tally.add]
      omega
  · have hfails : 0 < tally.failures → ¬maxAttempts ≤ tally.start + tally.failures := by
      intro hfailed hlast
      have hdead := h.spent hfailed hlast
      rw [hpending] at hdead
      cases hdead
    refine ⟨fun _ => ⟨?_, ?_, hattempts, hretryable, ?_⟩, h.claims, ?_, fun hmany => ?_,
      h.failures, fun hfailed hlast => absurd hlast (hfails hfailed)⟩
    · simp only [Account.abandoned, Tally.add, hreclaims]
    · simp only [Tally.add]
      omega
    · simp only [Account.abandoned, Tally.add, Option.isSome_none, Bool.false_eq_true, if_false]
      omega
    · simp only [Tally.add]
      omega
    · simp only [Tally.add] at hmany
      omega

theorem Within.retried (h : Within maxAttempts maxReclaims tally account)
    (hpending : account.phase = .pending) (hheld : account.token.isSome = true)
    (hunder : account.attempts + 1 < maxAttempts) :
    Within maxAttempts maxReclaims (tally.add (some .failed))
      { account with token := none, attempts := account.attempts + 1 } := by
  obtain ⟨hreclaims, hrecoverable, hattempts, hretryable, hclaims⟩ := h.whenOpen hpending
  simp only [hheld, if_true] at hclaims
  refine ⟨fun _ => ⟨hreclaims, hrecoverable, ?_, .inr hunder, ?_⟩, h.claims, h.recoveries,
    h.abandoned, ?_, fun _ hlast => ?_⟩
  · simp only [Tally.add, hattempts, Nat.add_assoc]
  · simp only [Tally.add, Option.isSome_none, Bool.false_eq_true, if_false]
    omega
  · simp only [Tally.add]
    omega
  · simp only [Tally.add] at hlast
    omega

theorem Within.died (h : Within maxAttempts maxReclaims tally account)
    (hpending : account.phase = .pending) :
    Within maxAttempts maxReclaims (tally.add (some .failed))
      { account with phase := .dead, token := none, attempts := account.attempts + 1 } := by
  obtain ⟨-, -, hattempts, hretryable, -⟩ := h.whenOpen hpending
  refine ⟨?_, h.claims, h.recoveries, fun _ => rfl, ?_, fun _ _ => rfl⟩
  · rintro ⟨⟩
  · simp only [Tally.add]
    omega

theorem Within.ended (h : Within maxAttempts maxReclaims tally account)
    (hpending : account.phase = .pending) {phase : Phase} (hphase : phase ≠ .pending)
    (attempts : Nat) :
    Within maxAttempts maxReclaims tally
      { account with phase := phase, token := none, attempts := attempts } := by
  refine ⟨fun hopen => absurd hopen hphase, h.claims, h.recoveries, fun hmany => ?_, h.failures,
    fun hfailed hlast => ?_⟩
  · have hdead := h.abandoned hmany
    rw [hpending] at hdead
    cases hdead
  · have hdead := h.spent hfailed hlast
    rw [hpending] at hdead
    cases hdead

/-- A revival keeps the attempts and forgets the rest. -/
theorem within_revived (account : Account) :
    Within maxAttempts maxReclaims (tally.add (some (.revived account.attempts)))
      { account with phase := .pending, token := none, reclaims := 0 } where
  whenOpen _ := ⟨rfl, Nat.zero_le _, rfl, .inl rfl, rfl⟩
  claims := Nat.zero_le _
  recoveries := Nat.zero_le _
  abandoned h := absurd h (Nat.not_lt_zero _)
  failures := Nat.zero_le _
  spent h := absurd h (Nat.lt_irrefl 0)

/-- The tally of work that is there is within its budgets, and that of work that is not
there yet is empty. -/
def Kept (maxAttempts maxReclaims : Nat) (tally : Tally) : Option Account → Prop
  | none => tally = .zero
  | some account => Within maxAttempts maxReclaims tally account

/-- Every turn stays within the budgets. -/
theorem Turn.kept {note : Option Note} {before after : Option Account}
    (h : Turn maxAttempts maxReclaims note before after)
    (hkept : Kept maxAttempts maxReclaims tally before) :
    Kept maxAttempts maxReclaims (tally.add note) after := by
  cases h with
  | same => exact hkept
  | arrived =>
      obtain rfl : tally = .zero := hkept
      exact within_fresh
  | claimed account token hpending hfree => exact Within.claimed hkept hpending hfree token
  | abandoned account hpending hheld => exact Within.abandons hkept hpending hheld
  | retried account hpending hheld hunder => exact Within.retried hkept hpending hheld hunder
  | died account hpending _ => exact Within.died hkept hpending
  | ended account phase attempts hpending hphase => exact Within.ended hkept hpending hphase attempts
  | revived account _ => exact within_revived account

end Turns

/-- Work that carries a token is as it was, or was free before. -/
theorem Turn.held {maxAttempts maxReclaims : Nat} {note : Option Note} {before : Option Account}
    {account : Account} (h : Turn maxAttempts maxReclaims note before (some account))
    (hheld : account.token.isSome = true) :
    before = some account ∨ ∃ old, before = some old ∧ old.token = none := by
  cases h with
  | same => exact .inl rfl
  | claimed old token _ hfree => exact .inr ⟨old, rfl, hfree⟩
  | arrived => cases hheld
  | abandoned old => cases hheld
  | retried old => cases hheld
  | died old => cases hheld
  | ended old => cases hheld
  | revived old => cases hheld

end Account

end WaslaCore.Data
