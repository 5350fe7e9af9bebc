import Mathlib.Data.List.Nodup

/-!
Work that is handed out under leases. A row is claimed under a token no claim used
before, and the claim ends by an acknowledgement that presents the token, or by a
recovery once the lease has run out. The book keeps, beside what every row shows of
its lease, the tokens drawn so far and the acknowledgements that were applied. The
invariant is proved for one move; whoever instantiates the book owes only that each
of its operations is one.
-/

namespace WaslaCore.Data

/-- How far a piece of work has come. -/
inductive Phase where
  | pending
  | finished
  | dead
  deriving DecidableEq, Repr

/-- What a row shows of its lease. -/
structure Lease where
  phase : Phase
  claimedAt : Option Int
  token : Option String
  expiresAt : Int
  reclaims : Nat
  deriving DecidableEq, Repr

namespace Lease

def fresh (now : Int) : Lease := ⟨.pending, none, none, now, 0⟩

def claimed (lease : Lease) (token : String) (now expiresAt : Int) : Lease :=
  { lease with claimedAt := some now, token := some token, expiresAt := expiresAt }

/-- A recovery spends one of the recoveries a row is allowed, or gives up on it. -/
def recovered (lease : Lease) (now : Int) (maxReclaims : Nat) : Lease :=
  { phase := if maxReclaims < lease.reclaims + 1 then .dead else lease.phase
    claimedAt := none
    token := none
    expiresAt := if maxReclaims < lease.reclaims + 1 then lease.expiresAt else now
    reclaims := lease.reclaims + 1 }

def ended (lease : Lease) (phase : Phase) (expiresAt : Int) : Lease :=
  { lease with phase := phase, claimedAt := none, token := none, expiresAt := expiresAt }

/-- A claim is on the row with its instant or not at all, and only on pending work. -/
structure WellFormed (lease : Lease) : Prop where
  together : lease.claimedAt.isSome = lease.token.isSome
  pending : lease.token.isSome = true → lease.phase = .pending

/-- What moves rows on without an acknowledgement. -/
inductive Motion where
  | arrival
  | claim (token : String)
  | recovery (now : Int) (maxReclaims : Nat)
  | revival
  deriving DecidableEq, Repr

/-- What a motion makes of one row. -/
inductive Turn : Motion → Option Lease → Option Lease → Prop where
  | same (motion : Motion) (lease : Option Lease) : Turn motion lease lease
  | arrived (now : Int) : Turn .arrival none (some (fresh now))
  | claimed (lease : Lease) (token : String) (now expiresAt : Int)
      (hpending : lease.phase = .pending) (hfree : lease.token = none) :
      Turn (.claim token) (some lease) (some (lease.claimed token now expiresAt))
  | recovered (lease : Lease) (now : Int) (maxReclaims : Nat) (hpending : lease.phase = .pending)
      (hheld : lease.token.isSome = true) (hexpired : lease.expiresAt ≤ now) :
      Turn (.recovery now maxReclaims) (some lease) (some (lease.recovered now maxReclaims))
  | revived (lease : Lease) (now : Int) (hdead : lease.phase = .dead) :
      Turn .revival (some lease) (some (fresh now))

theorem wellFormed_fresh (now : Int) : (fresh now).WellFormed :=
  ⟨rfl, fun h => by cases h⟩

theorem wellFormed_ended (lease : Lease) (phase : Phase) (expiresAt : Int) :
    (lease.ended phase expiresAt).WellFormed :=
  ⟨rfl, fun h => by cases h⟩

theorem Turn.wellFormed {motion : Motion} {before : Option Lease} {lease' : Lease}
    (h : Turn motion before (some lease'))
    (hbefore : ∀ lease, before = some lease → lease.WellFormed) : lease'.WellFormed := by
  cases h with
  | same => exact hbefore lease' rfl
  | arrived now => exact wellFormed_fresh now
  | claimed lease token now expiresAt hpending _ => exact ⟨rfl, fun _ => hpending⟩
  | recovered lease now maxReclaims => exact ⟨rfl, fun h => by cases h⟩
  | revived lease now _ => exact wellFormed_fresh now

/-- A row that carries a token has just been claimed under it or is as it was. -/
theorem Turn.token {motion : Motion} {before : Option Lease} {lease' : Lease}
    {token : String} (h : Turn motion before (some lease')) (htoken : lease'.token = some token) :
    before = some lease' ∨ motion = .claim token ∧ ∃ lease, before = some lease ∧
      lease.token = none ∧ lease.reclaims = lease'.reclaims := by
  cases h with
  | same => exact .inl rfl
  | arrived now => cases htoken
  | claimed lease drawn now expiresAt _ hfree =>
      obtain rfl := Option.some.inj htoken
      exact .inr ⟨rfl, lease, rfl, hfree, rfl⟩
  | recovered lease now maxReclaims => cases htoken
  | revived lease now _ => cases htoken

/-- A dead row was dead before, or a recovery found its lease run out and its
recoveries spent. -/
theorem Turn.dead {motion : Motion} {before : Option Lease} {lease' : Lease}
    (h : Turn motion before (some lease')) (hdead : lease'.phase = .dead) :
    before = some lease' ∨ ∃ now maxReclaims lease token, motion = .recovery now maxReclaims ∧
      before = some lease ∧ lease.token = some token ∧ lease.expiresAt ≤ now ∧
        maxReclaims < lease.reclaims + 1 := by
  cases h with
  | same => exact .inl rfl
  | arrived now => cases hdead
  | claimed lease token now expiresAt hpending _ =>
      exact absurd (hpending.symm.trans hdead) (by decide)
  | recovered lease now maxReclaims hpending hheld hexpired =>
      obtain ⟨token, htoken⟩ := Option.isSome_iff_exists.mp hheld
      by_cases hspent : maxReclaims < lease.reclaims + 1
      · exact .inr ⟨now, maxReclaims, lease, token, rfl, rfl, htoken, hexpired, hspent⟩
      · simp only [Lease.recovered, if_neg hspent] at hdead
        exact absurd (hpending.symm.trans hdead) (by decide)
  | revived lease now _ => cases hdead

end Lease

/-- The leases of a store's rows, the tokens drawn and the acknowledgements applied. -/
structure LeaseBook (κ : Type) where
  leases : κ → Option Lease
  drawn : List String
  applied : List (κ × String)

namespace LeaseBook

variable {κ : Type}

def empty : LeaseBook κ := ⟨fun _ => none, [], []⟩

/-- One operation: rows turn under at most one new token, an acknowledgement is
refused, or it ends the claim that its token holds. -/
inductive Move : LeaseBook κ → LeaseBook κ → Prop where
  | turn {book : LeaseBook κ} (leases : κ → Option Lease) (motion : Lease.Motion)
      (hmotion : ∀ token, motion ≠ .claim token)
      (hturn : ∀ key, Lease.Turn motion (book.leases key) (leases key)) :
      Move book { book with leases := leases }
  | claim {book : LeaseBook κ} (leases : κ → Option Lease) (token : String)
      (hfresh : token ∉ book.drawn)
      (hturn : ∀ key, Lease.Turn (.claim token) (book.leases key) (leases key)) :
      Move book { book with leases := leases, drawn := token :: book.drawn }
  | refuse (book : LeaseBook κ) : Move book book
  | acknowledge {book : LeaseBook κ} (leases : κ → Option Lease) (key : κ) (token : String)
      (lease : Lease) (phase : Phase) (expiresAt : Int) (hfound : book.leases key = some lease)
      (hheld : lease.token = some token)
      (hended : leases key = some (lease.ended phase expiresAt))
      (hothers : ∀ other, other ≠ key → leases other = book.leases other) :
      Move book { book with leases := leases, applied := (key, token) :: book.applied }

/-- Every lease is well formed, every token on a row was drawn, and an acknowledgement
that was applied ended its claim for good. -/
structure Sound (book : LeaseBook κ) : Prop where
  wellFormed : ∀ key lease, book.leases key = some lease → lease.WellFormed
  drawn : ∀ key lease token, book.leases key = some lease → lease.token = some token →
    token ∈ book.drawn
  appliedDrawn : ∀ key token, (key, token) ∈ book.applied → token ∈ book.drawn
  spent : ∀ key token, (key, token) ∈ book.applied → ∀ lease, book.leases key = some lease →
    lease.token ≠ some token
  once : book.applied.Nodup

theorem sound_empty : (empty : LeaseBook κ).Sound :=
  ⟨by simp [empty], by simp [empty], by simp [empty], by simp [empty], List.nodup_nil⟩

/-- Every move keeps the book sound. -/
theorem Move.sound {book book' : LeaseBook κ} (h : Move book book') (hsound : book.Sound) :
    book'.Sound := by
  cases h with
  | refuse => exact hsound
  | turn leases motion hmotion hturn =>
      have htoken : ∀ key lease token, leases key = some lease → lease.token = some token →
          book.leases key = some lease := by
        intro key lease token hlease hheld
        have hone := hturn key
        rw [hlease] at hone
        rcases hone.token hheld with hold | ⟨hclaim, -⟩
        · exact hold
        · exact absurd hclaim (hmotion token)
      refine ⟨?_, ?_, hsound.appliedDrawn, ?_, hsound.once⟩
      · intro key lease hlease
        have hone := hturn key
        rw [show leases key = some lease from hlease] at hone
        exact hone.wellFormed (hsound.wellFormed key)
      · intro key lease token hlease hheld
        exact hsound.drawn key lease token (htoken key lease token hlease hheld) hheld
      · intro key token happlied lease hlease hheld
        exact hsound.spent key token happlied lease (htoken key lease token hlease hheld) hheld
  | claim leases token hfresh hturn =>
      have htoken : ∀ key lease held, leases key = some lease → lease.token = some held →
          held = token ∨ book.leases key = some lease := by
        intro key lease held hlease hheld
        have hone := hturn key
        rw [hlease] at hone
        rcases hone.token hheld with hold | ⟨hclaim, -⟩
        · exact .inr hold
        · exact .inl (Lease.Motion.claim.inj hclaim).symm
      refine ⟨?_, ?_, ?_, ?_, hsound.once⟩
      · intro key lease hlease
        have hone := hturn key
        rw [show leases key = some lease from hlease] at hone
        exact hone.wellFormed (hsound.wellFormed key)
      · intro key lease held hlease hheld
        rcases htoken key lease held hlease hheld with rfl | hold
        · exact List.mem_cons_self
        · exact List.mem_cons_of_mem _ (hsound.drawn key lease held hold hheld)
      · intro key held happlied
        exact List.mem_cons_of_mem _ (hsound.appliedDrawn key held happlied)
      · intro key held happlied lease hlease hheld
        rcases htoken key lease held hlease hheld with rfl | hold
        · exact hfresh (hsound.appliedDrawn key held happlied)
        · exact hsound.spent key held happlied lease hold hheld
  | acknowledge leases key token lease phase expiresAt hfound hheld hended hothers =>
      have hlease : ∀ other found, leases other = some found →
          other = key ∧ found = lease.ended phase expiresAt ∨
            other ≠ key ∧ book.leases other = some found := by
        intro other found hother
        by_cases hkey : other = key
        · subst hkey
          exact .inl ⟨rfl, Option.some.inj (hother.symm.trans hended)⟩
        · exact .inr ⟨hkey, (hothers other hkey).symm.trans hother⟩
      refine ⟨?_, ?_, ?_, ?_, ?_⟩
      · intro other found hother
        rcases hlease other found hother with ⟨-, rfl⟩ | ⟨-, hold⟩
        · exact Lease.wellFormed_ended lease phase expiresAt
        · exact hsound.wellFormed other found hold
      · intro other found held hother hwho
        rcases hlease other found hother with ⟨-, rfl⟩ | ⟨-, hold⟩
        · cases hwho
        · exact hsound.drawn other found held hold hwho
      · intro other held happlied
        rcases List.mem_cons.mp happlied with hnew | hold
        · obtain ⟨rfl, rfl⟩ := Prod.mk.inj hnew
          exact hsound.drawn other lease held hfound hheld
        · exact hsound.appliedDrawn other held hold
      · intro other held happlied found hother hwho
        rcases hlease other found hother with ⟨-, rfl⟩ | ⟨hne, hold⟩
        · cases hwho
        · rcases List.mem_cons.mp happlied with hnew | hpast
          · exact hne (Prod.mk.inj hnew).1
          · exact hsound.spent other held hpast found hold hwho
      · exact List.nodup_cons.mpr
          ⟨fun hagain => hsound.spent key token hagain lease hfound hheld, hsound.once⟩

/-- A row that carries a token drawn before the move is as it was before the move,
and no token is forgotten. -/
theorem Move.follows {book book' : LeaseBook κ} (h : Move book book') :
    (∀ token ∈ book.drawn, token ∈ book'.drawn) ∧
      ∀ key lease token, book'.leases key = some lease → lease.token = some token →
        token ∈ book.drawn → book.leases key = some lease := by
  cases h with
  | refuse => exact ⟨fun _ h => h, fun _ _ _ h _ _ => h⟩
  | turn leases motion hmotion hturn =>
      refine ⟨fun _ h => h, fun key lease token hlease hheld _ => ?_⟩
      have hone := hturn key
      rw [show leases key = some lease from hlease] at hone
      rcases hone.token hheld with hold | ⟨hclaim, -⟩
      · exact hold
      · exact absurd hclaim (hmotion token)
  | claim leases token hfresh hturn =>
      refine ⟨fun _ h => List.mem_cons_of_mem _ h, fun key lease held hlease hheld hdrawn => ?_⟩
      have hone := hturn key
      rw [show leases key = some lease from hlease] at hone
      rcases hone.token hheld with hold | ⟨hclaim, -⟩
      · exact hold
      · obtain rfl := Lease.Motion.claim.inj hclaim
        exact absurd hdrawn hfresh
  | acknowledge leases key token lease phase expiresAt hfound hheld hended hothers =>
      refine ⟨fun _ h => h, fun other found held hother hwho _ => ?_⟩
      by_cases hkey : other = key
      · subst hkey
        obtain rfl := Option.some.inj (hended.symm.trans hother)
        cases hwho
      · exact (hothers other hkey).symm.trans hother

end LeaseBook

end WaslaCore.Data
