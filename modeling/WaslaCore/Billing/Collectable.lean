import WaslaCore.Billing.Calm
import WaslaCore.Billing.Coverage
import WaslaCore.Billing.Enforced
import WaslaCore.Billing.PastDue

/-!
Whether a period can be collected. The hold is looked up under the period's reference
before anything else, so what became of an earlier hold decides it: a hold voided, expired
or captured in parts beforehand is never replaced.
-/

namespace WaslaCore.Billing

open Data Platform Interleaving

/-! ### What is asked of a collection -/

/-- The period is settled, and where money is owed its hold has captured exactly that. -/
def CollectedBy (period : SubscriptionPeriod) (books : Books) : Prop :=
  ∃ settled, books.store.getPeriod period.periodId = some settled ∧ settled.status = .settled ∧
    settled.amountMinor = period.amountMinor ∧
    (period.amountMinor ≠ 0 → ∃ own, settled.authorizationId = some own ∧
      books.core.money.ledgerCaptured own = period.amountMinor)

/-- Run alone the collection can run to its end, and however it does it collects. -/
def ChargeCollects (books : Books) (period : SubscriptionPeriod) : Prop :=
  (∃ result later, Completes calm (chargePeriod period.periodId) books result later) ∧
    ∀ result later, Completes calm (chargePeriod period.periodId) books result later →
      CollectedBy period later

/-- A hold that can settle the period: a full capture has drawn exactly the amount, or it
is open, unexpired and for the whole amount. -/
def Settles (core : Db) (period : SubscriptionPeriod) (hold : Money.PaymentAuthorization) : Prop :=
  hold.currency = period.currency ∧
    if (core.money.findTransactionByReference
        (Money.fullCaptureReference hold.authorizationId)).isSome then
      hold.capturedMinor = period.amountMinor
    else
      hold.status = .authorized ∧ Money.isExpired core.now hold = false ∧
        hold.amountMinor = period.amountMinor

instance (core : Db) (period : SubscriptionPeriod) (hold : Money.PaymentAuthorization) :
    Decidable (Settles core period hold) := by
  unfold Settles
  infer_instance

/-- Nothing is owed, no hold was ever taken for the period, or the one that was can still
settle it. -/
def Collectable (books : Books) (period : SubscriptionPeriod) : Prop :=
  period.amountMinor = 0 ∨
    ∀ hold, books.core.money.findAuthorizationByReference
      (periodChargeReference period.periodId) = some hold → Settles books.core period hold

instance (books : Books) (period : SubscriptionPeriod) : Decidable (Collectable books period) :=
  inferInstanceAs (Decidable (period.amountMinor = 0 ∨
    ∀ hold ∈ books.core.money.findAuthorizationByReference
      (periodChargeReference period.periodId), Settles books.core period hold))

/-- What remains of the period's own hold, where it is open. -/
def ownRemainder (money : Money.Store) (period : SubscriptionPeriod) : Int :=
  ((money.findAuthorizationByReference (periodChargeReference period.periodId)).map
    Money.remainingHold).getD 0

/-- An open period, and the active wallet of its subscription, which covers it. -/
structure Covered (books : Books) (period : SubscriptionPeriod) (subscription : Subscription)
    (wallet : Money.Wallet) : Prop where
  collecting : Collecting books.store period subscription
  funded : books.core.money.getWallet subscription.walletId = some wallet
  active : wallet.status = .active
  covers : period.amountMinor ≤
    Money.available wallet.walletId books.core + ownRemainder books.core.money period

instance (period : SubscriptionPeriod) : Decidable period.isOpen :=
  inferInstanceAs (Decidable (period.status = .pending ∨ period.status = .uncollectible))

instance (books : Books) (period : SubscriptionPeriod) (subscription : Subscription)
    (wallet : Money.Wallet) : Decidable (Covered books period subscription wallet) :=
  decidable_of_iff
    ((books.store.getPeriod period.periodId = some period ∧ period.isOpen ∧
        books.store.getSubscription period.subscriptionId = some subscription) ∧
      books.core.money.getWallet subscription.walletId = some wallet ∧ wallet.status = .active ∧
      period.amountMinor ≤
        Money.available wallet.walletId books.core + ownRemainder books.core.money period)
    ⟨fun ⟨⟨hstored, hopen, hsold⟩, hfunded, hactive, hcovers⟩ =>
        ⟨⟨hstored, hopen, hsold⟩, hfunded, hactive, hcovers⟩,
      fun h => ⟨⟨h.collecting.stored, h.collecting.unpaid, h.collecting.sold⟩, h.funded, h.active,
        h.covers⟩⟩

/-- Two identifiers are left to draw: for a hold, and for the transaction it is captured by. -/
def IdsLeft (core : Db) : Prop :=
  ∃ first second, first ≠ second ∧ Drawable core first ∧ Drawable core second

/-! ### The commit of a settlement -/

/-- What the stores keep about a period that is open. -/
structure Settleable (books : Books) (period : SubscriptionPeriod) (subscription : Subscription) :
    Prop where
  agreement : Money.Agreement books.core.money
  keyed : books.store.Keyed
  collecting : Collecting books.store period subscription
  shaped : assertPeriodShape period = .ok ()
  sane : assertSubscriptionShape subscription = .ok ()
  alone : ∀ authorizationId instant,
    books.store.periodOverlapClash (settledRow period authorizationId instant) = false ∧
      books.store.sequenceClash (settledRow period authorizationId instant) = false
  owned : ∀ otherId other own, books.store.getPeriod otherId = some other →
    other.authorizationId = some own →
      Money.HeldUnder books.core.money (periodChargeReference otherId) own

section Settlement

variable {books : Books} {period : SubscriptionPeriod} {subscription : Subscription}

theorem settledRow_shape (h : assertPeriodShape period = .ok ()) {authorizationId : Option String}
    (hpays : (period.amountMinor = 0) = (authorizationId = none)) (instant : Int) :
    assertPeriodShape (settledRow period authorizationId instant) = .ok () := by
  unfold assertPeriodShape at h
  split at h
  · cases h
  rename_i hsequence
  split at h
  · cases h
  rename_i hordered
  split at h
  · cases h
  rename_i hamount
  simp only [assertPeriodShape, settledRow, if_neg hsequence, if_neg hordered, if_neg hamount]
  have hblank : isBlank "" = true := rfl
  simp [hpays, hblank]

theorem revived_shape (h : assertSubscriptionShape subscription = .ok ())
    (hlapsed : subscription.status = .pastDue) :
    assertSubscriptionShape { subscription with status := .active } = .ok () := by
  unfold assertSubscriptionShape at h
  split at h
  · cases h
  rename_i hcancelled
  split at h
  · cases h
  split at h
  · cases h
  rename_i hended
  have hstanding : subscription.cancelledAt = none := by simpa [hlapsed] using hcancelled
  have hrunning : subscription.endedAt = none := by simpa [hlapsed] using hended
  simp [assertSubscriptionShape, hstanding, hrunning]

/-- No other period names a hold under this one's reference. -/
theorem unclashed (hkeyed : books.store.Keyed) {authorizationId : Option String}
    (howned : ∀ otherId other own, books.store.getPeriod otherId = some other →
      other.authorizationId = some own →
        Money.HeldUnder books.core.money (periodChargeReference otherId) own)
    (hpays : ∀ own, authorizationId = some own →
      Money.HeldUnder books.core.money (periodChargeReference period.periodId) own)
    (instant : Int) :
    books.store.authorizationClash (settledRow period authorizationId instant) = false := by
  cases authorizationId with
  | none => rfl
  | some own =>
      rw [Store.authorizationClash, Bool.and_eq_false_iff]
      right
      refine List.any_eq_false.mpr fun other hother hclash => ?_
      obtain ⟨hsame, hanother⟩ := (Bool.and_eq_true _ _).mp hclash
      have hsame : other.authorizationId = some own := of_decide_eq_true hsame
      apply of_decide_eq_true hanother
      obtain ⟨otherId, hstored⟩ := Table.mem_values.mp hother
      have hheld := howned otherId other own hstored hsame
      have hreference := Money.HeldUnder.reference_unique hheld (hpays own rfl)
      rw [hkeyed.periods otherId other hstored]
      exact periodChargeReference_injective hreference

/-- The rows of a settlement are written. -/
theorem settlement_applies (hkeyed : books.store.Keyed)
    (hcollecting : Collecting books.store period subscription)
    (hsane : assertSubscriptionShape subscription = .ok ())
    {authorizationId : Option String} {instant : Int}
    (hshape : assertPeriodShape (settledRow period authorizationId instant) = .ok ())
    (hoverlap : books.store.periodOverlapClash (settledRow period authorizationId instant) = false)
    (hsequence : books.store.sequenceClash (settledRow period authorizationId instant) = false)
    (hclash : books.store.authorizationClash (settledRow period authorizationId instant) = false) :
    applyAll books.store
        (.updatePeriod (settledRow period authorizationId instant) :: revival subscription) =
      .ok { books.store with
        periods := books.store.periods.put period.periodId
          (settledRow period authorizationId instant)
        subscriptions := books.store.revived subscription } := by
  have hstored : books.store.periods.get period.periodId = some period := hcollecting.stored
  have hrevise : period.revise (settledRow period authorizationId instant) =
    settledRow period authorizationId instant := rfl
  have hid : (settledRow period authorizationId instant).periodId = period.periodId := rfl
  have hperiod : books.store.updatePeriod (settledRow period authorizationId instant) =
      .ok { books.store with
        periods := books.store.periods.put period.periodId
          (settledRow period authorizationId instant) } := by
    simp [Store.updatePeriod, hid, hstored, hrevise, Store.writePeriod, hshape, hoverlap,
      hsequence, hclash]
  simp only [applyAll, Write.apply, hperiod]
  unfold revival Store.revived
  split
  · rename_i hlapsed
    have hsold := hcollecting.sold
    have hown : subscription.subscriptionId = period.subscriptionId :=
      hkeyed.subscriptions _ _ hsold
    rw [← hown] at hsold
    have hrow : books.store.subscriptions.get subscription.subscriptionId = some subscription :=
      hsold
    have hrevised : subscription.revise { subscription with status := .active } =
      { subscription with status := .active } := rfl
    simp [applyAll, Write.apply, Store.updateSubscription, hrow, hrevised,
      revived_shape hsane hlapsed]
  · rfl

/-- A settlement commits where its hold has captured the amount. -/
theorem settlement_commits (uow : Work) (moved : List Money.Write) {money : Money.Store}
    (hwrites : uow.writes = moved.map WaslaCore.Write.money)
    (hmoney : Money.applyAll books.core.money moved = .ok money)
    (hverify : Money.verifyAll money moved = .ok ()) {authorizationId : Option String}
    {instant : Int} {store : Store}
    (happly : applyAll books.store
      (.updatePeriod (settledRow period authorizationId instant) :: revival subscription) =
        .ok store)
    (hrow : store.getPeriod period.periodId = some (settledRow period authorizationId instant))
    (hpays : ∀ own, authorizationId = some own → ∃ row,
      money.authorizations.get own = some row ∧ row.capturedMinor = period.amountMinor ∧
        row.currency = period.currency) :
    ∃ core, books.commit (settleWork uow subscription (settledRow period authorizationId instant))
        (.updatePeriod (settledRow period authorizationId instant) :: revival subscription) =
          .ok ⟨core, store⟩ ∧ core.money = money := by
  have hstaged : (settleWork uow subscription
      (settledRow period authorizationId instant)).writes = moved.map WaslaCore.Write.money := hwrites
  obtain ⟨core, hcore, rfl⟩ : ∃ core, books.core.commit
      (settleWork uow subscription (settledRow period authorizationId instant)) = .ok core ∧
        core.money = money :=
    ⟨_, commit_of_money hstaged hmoney hverify, rfl⟩
  have hagrees : assertMoneyAgreement core.money store period.periodId = .ok () := by
    simp only [Store.getPeriod] at hrow
    simp only [assertMoneyAgreement, hrow]
    cases authorizationId with
    | none => rfl
    | some own =>
        obtain ⟨row, hheld, hcaptured, hcurrency⟩ := hpays own rfl
        simp [settledRow, Money.Store.getAuthorization, hheld, hcaptured, hcurrency]
  have hverified : verifyAll core.money store
      (.updatePeriod (settledRow period authorizationId instant) :: revival subscription) =
        .ok () := by
    have hrest : verifyAll core.money store (revival subscription) = .ok () := by
      unfold revival
      split <;> rfl
    simp only [verifyAll, Write.deferred]
    rw [show (settledRow period authorizationId instant).periodId = period.periodId from rfl,
      hagrees]
    exact hrest
  exact ⟨core, by simp only [Books.commit, hcore, happly, hverified], rfl⟩

/-- A period that is settled by a hold is settled for what it captured, in its currency. -/
theorem assertMoneyAgreement_settled {money : Money.Store} {store : Store}
    (row : SubscriptionPeriod) {own : String}
    (h : assertMoneyAgreement money store row.periodId = .ok ())
    (hrow : store.getPeriod row.periodId = some row) (hsettled : row.status = .settled)
    (hpays : row.authorizationId = some own) :
    ∃ hold, money.authorizations.get own = some hold ∧ hold.capturedMinor = row.amountMinor ∧
      hold.currency = row.currency := by
  simp only [Store.getPeriod] at hrow
  simp only [assertMoneyAgreement, hrow, hsettled, hpays, Money.Store.getAuthorization, ne_eq,
    not_true_eq_false, if_false] at h
  split at h
  · cases h
  rename_i hold hstored
  split at h
  · cases h
  rename_i hamount
  split at h
  · cases h
  rename_i hcurrency
  exact ⟨hold, hstored, by simpa using hamount, by simpa using hcurrency⟩

/-- A period that is still open is not collected. -/
theorem Collecting.uncollected {store : Store} (h : Collecting store period subscription)
    (hsame : books.store = store) : ¬CollectedBy period books := by
  rintro ⟨settled, hsettled, hstatus, -⟩
  rw [hsame, h.stored] at hsettled
  obtain rfl := Option.some.inj hsettled
  rcases h.unpaid with hopen | hopen <;> simp [hopen] at hstatus

/-- What a settlement that went through did. -/
theorem Settleable.committed (h : Settleable books period subscription) {uow : Work}
    {own : String} {instant : Int} {after : Books}
    (hcommit : books.commit
      (settleWork uow subscription (settledRow period (some own) instant))
      (.updatePeriod (settledRow period (some own) instant) :: revival subscription) = .ok after) :
    CollectedBy period after ∧ ∃ hold, after.core.money.authorizations.get own = some hold ∧
      hold.capturedMinor = period.amountMinor ∧ hold.currency = period.currency := by
  obtain ⟨hcore, happly, hverified⟩ := commit_ok hcommit
  obtain ⟨hmoney, hverify⟩ := commit_money hcore
  have hagree := h.agreement.commit hmoney hverify
  have hrow : after.store.getPeriod period.periodId =
      some (settledRow period (some own) instant) := by
    rw [applied_settled h.keyed h.collecting happly]
    exact Table.get_put_self _ _ _
  have hagrees : assertMoneyAgreement after.core.money after.store period.periodId = .ok () :=
    verifyAll_mem hverified List.mem_cons_self rfl
  obtain ⟨hold, hstored, hcaptured, hcurrency⟩ :=
    assertMoneyAgreement_settled (settledRow period (some own) instant) hagrees hrow rfl rfl
  refine ⟨⟨_, hrow, rfl, rfl, fun _ => ⟨own, rfl, ?_⟩⟩, hold, hstored, hcaptured, hcurrency⟩
  rw [← hagree.captured own hold hstored]
  exact hcaptured

/-- A refused collection leaves the period open. -/
theorem refused_ends (hkeyed : books.store.Keyed)
    (h : Collecting books.store period subscription) (error : Thrown) :
    Ends calm (fun _ later => ¬CollectedBy period later)
      (match refusalAmong [.conflict] error with
        | some reason => markUncollectible period subscription reason
        | none => throw error) books := by
  cases refusalAmong [.conflict] error with
  | none => exact h.uncollected rfl
  | some reason =>
      refine calm_clock (calm_commit (fun after hcommit => ?_) fun error _ => h.uncollected rfl)
      rintro ⟨settled, hsettled, hstatus, -⟩
      rw [applied_uncollectible hkeyed h (commit_ok hcommit).2.1] at hsettled
      have hrow := (Table.get_put_self books.store.periods period.periodId
        (uncollectibleRow period reason)).symm.trans hsettled
      obtain rfl := Option.some.inj hrow
      cases hstatus

/-- The rows of a settlement of this period are written, whatever pays for it. -/
theorem Settleable.applies (h : Settleable books period subscription)
    (authorizationId : Option String)
    (hmatches : (period.amountMinor = 0) = (authorizationId = none))
    (hpays : ∀ own, authorizationId = some own →
      Money.HeldUnder books.core.money (periodChargeReference period.periodId) own)
    (instant : Int) :
    applyAll books.store
        (.updatePeriod (settledRow period authorizationId instant) :: revival subscription) =
      .ok { books.store with
        periods := books.store.periods.put period.periodId
          (settledRow period authorizationId instant)
        subscriptions := books.store.revived subscription } :=
  settlement_applies h.keyed h.collecting h.sane (settledRow_shape h.shaped hmatches instant)
    (h.alone _ _).1 (h.alone _ _).2 (unclashed h.keyed h.owned hpays instant)

/-- Where nothing is owed the period is settled at once. -/
theorem settlePeriod_free (h : Settleable books period subscription)
    (hfree : period.amountMinor = 0) :
    Ends calm (fun _ later => CollectedBy period later) (settlePeriod period subscription none)
      books := by
  apply calm_clock
  have happly := h.applies none (by simp [hfree]) (by rintro own ⟨⟩)
    books.core.now
  obtain ⟨core, hcommit, -⟩ := settlement_commits UnitOfWork.empty [] rfl rfl rfl
    happly (Table.get_put_self _ _ _) (by rintro own ⟨⟩)
  refine calm_commit (fun after hafter => ?_) fun error herror => ?_
  · rw [hcommit] at hafter
    obtain rfl := Except.ok.inj hafter
    exact ⟨_, Table.get_put_self _ _ _, rfl, rfl, fun howed => absurd hfree howed⟩
  · rw [hcommit] at herror
    cases herror

section Held

variable {hold : Money.PaymentAuthorization}

/-- The commit of a settlement whose capture found its transaction. -/
theorem settles_found (h : Settleable books period subscription) (howed : period.amountMinor ≠ 0)
    (hstored : books.core.money.authorizations.get hold.authorizationId = some hold)
    (hheld : Money.HeldUnder books.core.money (periodChargeReference period.periodId)
      hold.authorizationId) {existing : Money.LedgerTransaction}
    (hfound : books.core.money.findTransactionByReference
      (Money.fullCaptureReference hold.authorizationId) = some existing) (instant : Int) :
    (∃ after, books.commit (settleWork UnitOfWork.empty subscription
        (settledRow period (some hold.authorizationId) instant))
        (.updatePeriod (settledRow period (some hold.authorizationId) instant) ::
          revival subscription) = .ok after) ↔ Settles books.core period hold := by
  simp only [Settles, hfound, Option.isSome_some, if_true]
  constructor
  · rintro ⟨after, hcommit⟩
    obtain ⟨-, row, hrow, hcaptured, hcurrency⟩ := h.committed hcommit
    have hsame := (commit_money (commit_ok hcommit).1).1
    obtain hsame : books.core.money = after.core.money := Except.ok.inj hsame
    rw [← hsame, hstored] at hrow
    obtain rfl := Option.some.inj hrow
    exact ⟨hcurrency, hcaptured⟩
  · rintro ⟨hcurrency, hcaptured⟩
    have happly := h.applies (some hold.authorizationId) (by simp [howed])
      (by rintro own ⟨⟩; exact hheld) instant
    obtain ⟨core, hcommit, -⟩ := settlement_commits UnitOfWork.empty [] rfl rfl
      rfl happly (Table.get_put_self _ _ _)
      (by rintro own ⟨⟩; exact ⟨hold, hstored, hcaptured, hcurrency⟩)
    exact ⟨_, hcommit⟩

/-- The commit of a settlement that stages its capture. -/
theorem settles_staged (h : Settleable books period subscription) (howed : period.amountMinor ≠ 0)
    (hstored : books.core.money.authorizations.get hold.authorizationId = some hold)
    (hheld : Money.HeldUnder books.core.money (periodChargeReference period.periodId)
      hold.authorizationId) {wallet : Money.Wallet} {requested closedAt : Int}
    {moved : Money.LedgerTransaction}
    (hunused : books.core.money.findTransactionByReference
      (Money.fullCaptureReference hold.authorizationId) = none)
    (hamount : Money.captureAmount books.core.now hold
      (Money.fullCapture hold.authorizationId) = .ok requested)
    (hfresh : books.core.money.ledger.get moved.transactionId = none)
    (hreference : moved.businessReference = Money.fullCaptureReference hold.authorizationId)
    (hkind : moved.kind = .capture) (hhold : moved.authorizationId = some hold.authorizationId)
    (hlegs : moved.entries = Money.legs moved.transactionId hold.currency Money.clearingCaptured
      (Money.walletAccount wallet.walletId) requested) (instant : Int) :
    (∃ after, books.commit
        (settleWork (Money.stageCapture UnitOfWork.empty hold wallet requested closedAt moved)
          subscription (settledRow period (some hold.authorizationId) instant))
        (.updatePeriod (settledRow period (some hold.authorizationId) instant) ::
          revival subscription) = .ok after) ↔ Settles books.core period hold := by
  obtain ⟨hstatus, hopen, hpositive, -, hkeyless⟩ := Money.captureAmount_ok hamount
  have hrequested : requested = hold.amountMinor - hold.capturedMinor := by
    rw [hkeyless rfl, Money.remainingHold, if_pos hstatus]
  have hunused' : books.core.money.findTransactionByReference moved.businessReference = none := by
    rw [hreference]
    exact hunused
  have happlied := Money.capture_applies closedAt h.agreement hstored hpositive
    (by omega) hunused' hfresh hkind hhold hlegs
  have hverified := Money.capture_verifies closedAt h.agreement hstored hfresh hkind hhold hlegs
  simp only [Settles, hunused, Option.isSome_none, Bool.false_eq_true, if_false]
  constructor
  · rintro ⟨after, hcommit⟩
    obtain ⟨-, row, hrow, hcaptured, hcurrency⟩ := h.committed hcommit
    have hmoney : Money.applyAll books.core.money
        [.updateAuthorization (Money.capturedRow hold requested closedAt),
          .insertTransaction moved] = .ok after.core.money :=
      (commit_money (commit_ok hcommit).1).1
    rw [happlied] at hmoney
    rw [← Except.ok.inj hmoney, Table.get_put_self] at hrow
    obtain rfl := Option.some.inj hrow
    refine ⟨hcurrency, hstatus, hopen, ?_⟩
    simp only [Money.capturedRow] at hcaptured
    omega
  · rintro ⟨hcurrency, -, -, hsame⟩
    have happly := h.applies (some hold.authorizationId) (by simp [howed])
      (by rintro own ⟨⟩; exact hheld) instant
    obtain ⟨core, hcommit, -⟩ := settlement_commits
      (Money.stageCapture UnitOfWork.empty hold wallet requested closedAt moved)
      [.updateAuthorization (Money.capturedRow hold requested closedAt), .insertTransaction moved]
      rfl happlied hverified happly (Table.get_put_self _ _ _) (by
        rintro own ⟨⟩
        refine ⟨Money.capturedRow hold requested closedAt, Table.get_put_self _ _ _, ?_, hcurrency⟩
        simp only [Money.capturedRow]
        omega)
    exact ⟨_, hcommit⟩

/-- A hold that can settle the period, and whose wallet is there, can be captured. -/
theorem Settles.payable (h : Settles books.core period hold) (hshaped : Money.WellShaped hold)
    (hamount : period.amountMinor ≤ Money.maxSafeInteger)
    (hunused : books.core.money.findTransactionByReference
      (Money.fullCaptureReference hold.authorizationId) = none) :
    ∃ requested, Money.captureAmount books.core.now hold
      (Money.fullCapture hold.authorizationId) = .ok requested := by
  simp only [Settles, hunused, Option.isSome_none, Bool.false_eq_true, if_false] at h
  obtain ⟨-, hstatus, hopen, hsame⟩ := h
  have hpositive := hshaped.authorized_lt hstatus
  have hcaptured := hshaped.captured_nonneg
  have hremaining : Money.remainingHold hold = hold.amountMinor - hold.capturedMinor := by
    rw [Money.remainingHold, if_pos hstatus]
  refine ⟨Money.remainingHold hold, ?_⟩
  have hchecked : Money.assertAmount (Money.remainingHold hold) = .ok () := by
    unfold Money.assertAmount
    rw [if_pos (by omega)]
  simp [Money.captureAmount, hstatus, hopen, Money.fullCapture, hchecked]

/-- Against its own hold a period is settled exactly where the hold can settle it. -/
theorem settlePeriod_held (h : Settleable books period subscription)
    (howed : period.amountMinor ≠ 0) (hamount : period.amountMinor ≤ Money.maxSafeInteger)
    (hstored : books.core.money.authorizations.get hold.authorizationId = some hold)
    (hheld : Money.HeldUnder books.core.money (periodChargeReference period.periodId)
      hold.authorizationId)
    (hid : isId hold.authorizationId = true) (hwalletId : isId hold.walletId = true)
    (hwallet : ∃ wallet, books.core.money.getWallet hold.walletId = some wallet)
    (hleft : ∃ id, Drawable books.core id) :
    Ends calm (fun _ later => CollectedBy period later ↔ Settles books.core period hold)
      (tryCatch (settlePeriod period subscription (some hold.authorizationId)) fun error =>
        match refusalAmong [.conflict] error with
        | some reason => markUncollectible period subscription reason
        | none => throw error) books := by
  have hrefused : ∀ later error, later = books → ¬Settles books.core period hold →
      Ends calm (fun _ later => CollectedBy period later ↔ Settles books.core period hold)
        (match refusalAmong [.conflict] error with
          | some reason => markUncollectible period subscription reason
          | none => throw error) later := by
    rintro later error rfl hunsettled
    exact (refused_ends h.keyed h.collecting error).mono
      fun _ _ huncollected => iff_of_false huncollected hunsettled
  have hcommitted : ∀ uow instant, ((∃ after, books.commit
      (settleWork uow subscription (settledRow period (some hold.authorizationId) instant))
      (.updatePeriod (settledRow period (some hold.authorizationId) instant) ::
        revival subscription) = .ok after) ↔ Settles books.core period hold) →
      Ends calm (fun result later =>
          (∃ charge, result = .ok charge ∧
            (CollectedBy period later ↔ Settles books.core period hold)) ∨
          ∃ error, result = .error error ∧ later = books ∧ ¬Settles books.core period hold)
        (commit (settleWork uow subscription (settledRow period (some hold.authorizationId) instant))
            (.updatePeriod (settledRow period (some hold.authorizationId) instant) ::
              revival subscription) >>= fun _ =>
          pure (⟨settledRow period (some hold.authorizationId) instant, true, none⟩ : ChargeResult))
        books := by
    intro uow instant hiff
    refine calm_commit (fun after hafter => ?_) fun error herror => ?_
    · exact .inl ⟨_, rfl, iff_of_true (h.committed hafter).1 (hiff.mp ⟨after, hafter⟩)⟩
    · refine .inr ⟨error, rfl, rfl, fun hsettles => ?_⟩
      obtain ⟨after, hafter⟩ := hiff.mpr hsettles
      rw [hafter] at herror
      cases herror
  refine ends_tryCatch (p := fun result later =>
    (∃ charge, result = .ok charge ∧
      (CollectedBy period later ↔ Settles books.core period hold)) ∨
    ∃ error, result = .error error ∧ later = books ∧ ¬Settles books.core period hold) ?_ ?_ ?_
  · refine calm_clock (ends_bind (p := fun result later => later = books ∧
      ∃ captured, Money.CaptureEnd books.core hold captured ∧
        result = captured.map Prod.fst) ?_ ?_ ?_)
    · refine ends_bind (p := fun result later => later = books ∧
        Money.CaptureEnd books.core hold result) ?_ ?_ ?_
      · exact calm_lift ((Money.captureWithin_ends hid hstored hleft).mono
          fun result core hend => ⟨by rw [hend.2], hend.1⟩)
      · rintro ⟨uow, moved⟩ later ⟨rfl, hend⟩
        exact ⟨rfl, _, hend, rfl⟩
      · rintro error later ⟨rfl, hend⟩
        exact ⟨rfl, _, hend, rfl⟩
    · rintro uow later ⟨rfl, captured, hend, hvalue⟩
      cases hend with
      | found existing hfound =>
          obtain rfl := Except.ok.inj hvalue
          exact hcommitted _ _ (settles_found h howed hstored hheld hfound _)
      | staged wallet requested closedAt moved hunused hdue hfresh hreference hkind hhold hlegs =>
          obtain rfl := Except.ok.inj hvalue
          exact hcommitted _ _ (settles_staged h howed hstored hheld hunused hdue hfresh hreference
            hkind hhold hlegs _)
      | refused error hunused hunpaid => cases hvalue
    · rintro error later ⟨rfl, captured, hend, hvalue⟩
      cases hend with
      | found existing hfound => cases hvalue
      | staged wallet requested closedAt moved hunused hdue hfresh hreference hkind hhold hlegs =>
          cases hvalue
      | refused refusal hunused hunpaid =>
          refine .inr ⟨error, rfl, rfl, fun hsettles => ?_⟩
          obtain ⟨requested, hdue⟩ := hsettles.payable (h.agreement.shaped _ _ hstored) hamount
            hunused
          obtain ⟨wallet, hwallet⟩ := hwallet
          exact hunpaid requested wallet hdue hwalletId hwallet
  · rintro charge later (⟨-, -, hiff⟩ | ⟨error, herror, -⟩)
    · exact hiff
    · cases herror
  · rintro error later (⟨charge, hcharge, -⟩ | ⟨-, -, hsame, hunsettled⟩)
    · cases hcharge
    · exact hrefused later error hsame hunsettled

end Held

end Settlement

/-! ### A lone collection -/

/-- An open period, and the active wallet of its subscription. -/
structure Payable (books : Books) (period : SubscriptionPeriod) (subscription : Subscription)
    (wallet : Money.Wallet) : Prop extends Settleable books period subscription where
  periodId : isId period.periodId = true
  walletId : isId subscription.walletId = true
  funded : books.core.money.getWallet subscription.walletId = some wallet
  own : wallet.walletId = subscription.walletId
  active : wallet.status = .active
  currency : wallet.currency = period.currency
  amount : period.amountMinor ≤ Money.maxSafeInteger
  holds : ∀ hold, books.core.money.findAuthorizationByReference
    (periodChargeReference period.periodId) = some hold →
      isId hold.authorizationId = true ∧ isId hold.walletId = true ∧
        ∃ paying, books.core.money.getWallet hold.walletId = some paying

section Charge

variable {books : Books} {period : SubscriptionPeriod} {subscription : Subscription}
variable {wallet : Money.Wallet}

/-- The hold a collection takes can settle its period. -/
theorem Payable.inserted (h : Payable books period subscription wallet) {core : Db}
    {row : Money.PaymentAuthorization}
    (hinserted : Money.Inserted books.core wallet ⟨subscription.walletId, period.amountMinor,
      periodChargeReference period.periodId, .absent⟩ row core) :
    Settleable { books with core := core } period subscription ∧
      core.money.authorizations.get row.authorizationId = some row ∧
      Settles core period row := by
  obtain ⟨hdrawn, ⟨createdAt, hrow⟩, hmoney, hnow, uow, hcommit⟩ := hinserted
  have happly := (commit_money hcommit).1
  refine ⟨⟨h.agreement.commit happly (commit_money hcommit).2, h.keyed, h.collecting, h.shaped,
    h.sane, h.alone, fun otherId other own hother howns =>
      Money.applyAll_heldUnder happly (h.owned otherId other own hother howns)⟩, ?_, ?_⟩
  · rw [hmoney]
    exact Table.get_put_self _ _ _
  · have huncaptured : core.money.findTransactionByReference
        (Money.fullCaptureReference row.authorizationId) = none := by
      rw [hmoney]
      exact hdrawn.uncaptured
    simp only [Settles, huncaptured, Option.isSome_none, Bool.false_eq_true, if_false]
    rw [hrow]
    exact ⟨h.currency, rfl, rfl, rfl⟩

theorem requirePeriod_ends {β : Type} {post : Except Thrown β → Books → Prop}
    {next : SubscriptionPeriod → Call β}
    (hstored : books.store.getPeriod period.periodId = some period)
    (h : Ends calm post (next period) books) :
    Ends calm post (requirePeriod period.periodId >>= next) books := by
  unfold requirePeriod
  refine ends_bind (p := fun result later => result = .ok period ∧ later = books) ?_ ?_ ?_
  · apply calm_read
    rw [show Query.eval books.store (.getPeriod period.periodId) = some period from hstored]
    exact ⟨rfl, rfl⟩
  · rintro value later ⟨hvalue, rfl⟩
    obtain rfl := Except.ok.inj hvalue
    exact h
  · rintro error later ⟨herror, -⟩
    cases herror

theorem requireSubscription_ends {β : Type} {post : Except Thrown β → Books → Prop}
    {next : Subscription → Call β} {subscriptionId : String}
    (hstored : books.store.getSubscription subscriptionId = some subscription)
    (h : Ends calm post (next subscription) books) :
    Ends calm post (requireSubscription subscriptionId >>= next) books := by
  unfold requireSubscription
  refine ends_bind (p := fun result later => result = .ok subscription ∧ later = books) ?_ ?_ ?_
  · apply calm_read
    rw [show Query.eval books.store (.getSubscription subscriptionId) = some subscription
      from hstored]
    exact ⟨rfl, rfl⟩
  · rintro value later ⟨hvalue, rfl⟩
    obtain rfl := Except.ok.inj hvalue
    exact h
  · rintro error later ⟨herror, -⟩
    cases herror

/-- The hold of a period that money `authorize` answers with. -/
theorem authorizePeriod_ends {p : Money.PaymentAuthorization → Db → Prop}
    (h : Ends WaslaCore.calm (fun result core => ∃ row, result = .ok row ∧ p row core)
      (Money.authorize ⟨subscription.walletId, period.amountMinor,
        periodChargeReference period.periodId, .absent⟩) books.core) :
    Ends calm (fun result later => ∃ row, result = .ok (.ok row.authorizationId) ∧
        later.store = books.store ∧ p row later.core)
      (authorizePeriod period subscription) books := by
  unfold authorizePeriod
  refine ends_tryCatch (p := fun result later => ∃ row,
    result = .ok (.ok row.authorizationId) ∧ later.store = books.store ∧ p row later.core) ?_ ?_ ?_
  · refine ends_bind (p := fun result later => ∃ row, result = .ok row ∧
      later.store = books.store ∧ p row later.core) ?_ ?_ ?_
    · exact calm_lift (h.mono fun result core ⟨row, hresult, hrow⟩ => ⟨row, hresult, rfl, hrow⟩)
    · rintro value later ⟨row, hvalue, hstore, hrow⟩
      obtain rfl := Except.ok.inj hvalue
      exact ⟨_, rfl, hstore, hrow⟩
    · rintro error later ⟨row, herror, -⟩
      cases herror
  · rintro value later hvalue
    exact hvalue
  · rintro error later ⟨row, herror, -⟩
    cases herror

theorem owed_positive (h : assertPeriodShape period = .ok ()) (howed : period.amountMinor ≠ 0) :
    0 < period.amountMinor := by
  unfold assertPeriodShape at h
  split at h
  · cases h
  split at h
  · cases h
  split at h
  · cases h
  omega

/-- Run alone a collection collects exactly where the period is collectable. -/
theorem chargePeriod_ends (h : Payable books period subscription wallet)
    (hfunds : period.amountMinor ≤
      Money.available wallet.walletId books.core + ownRemainder books.core.money period)
    (hleft : IdsLeft books.core) :
    Ends calm (fun _ later => CollectedBy period later ↔ Collectable books period)
      (chargePeriod period.periodId) books := by
  have hchecked : assertId "period_id" period.periodId = .ok () := if_pos h.periodId
  refine calm_settled hchecked (requirePeriod_ends h.collecting.stored ?_)
  have hopen : period.status ≠ .settled ∧ period.status ≠ .voided := by
    rcases h.collecting.unpaid with hstatus | hstatus <;> simp [hstatus]
  rw [if_neg hopen.1, if_neg hopen.2]
  apply requireSubscription_ends h.collecting.sold
  by_cases howed : period.amountMinor = 0
  · rw [if_pos howed]
    exact (settlePeriod_free h.toSettleable howed).mono
      fun _ _ hcollected => iff_of_true hcollected (.inl howed)
  rw [if_neg howed]
  have hpositive := owed_positive h.shaped howed
  have hdue : Money.assertAmount period.amountMinor = .ok () := if_pos ⟨hpositive, h.amount⟩
  obtain ⟨first, second, hdistinct, hfirst, hsecond⟩ := hleft
  cases hfound : books.core.money.findAuthorizationByReference
      (periodChargeReference period.periodId) with
  | some hold =>
      obtain ⟨hid, hwalletId, hwallet⟩ := h.holds hold hfound
      have hheld := Money.heldUnder_of_find h.agreement.keyed hfound
      have hstored : books.core.money.authorizations.get hold.authorizationId = some hold := by
        obtain ⟨key, hkey⟩ := Table.mem_values.mp (List.mem_of_find?_eq_some hfound)
        rw [h.agreement.keyed key hold hkey]
        exact hkey
      have hcollectable : Collectable books period ↔ Settles books.core period hold := by
        simp [Collectable, howed, hfound]
      rw [hcollectable]
      have hanswer : Ends calm (fun result later => ∃ row : Money.PaymentAuthorization,
          result = .ok (.ok row.authorizationId) ∧ later.store = books.store ∧
            row = hold ∧ later.core = books.core) (authorizePeriod period subscription) books :=
        authorizePeriod_ends (p := fun row core => row = hold ∧ core = books.core)
          ((Money.authorize_finds h.walletId h.funded hdue hfound).mono
            fun result core hend => ⟨hold, hend.1, rfl, hend.2⟩)
      refine ends_bind hanswer ?_ ?_
      · rintro value later ⟨row, hvalue, hstore, rfl, hcore⟩
        obtain rfl := Except.ok.inj hvalue
        obtain rfl : later = books := by
          obtain ⟨core, store⟩ := later
          simp only at hstore hcore
          rw [hstore, hcore]
        exact settlePeriod_held h.toSettleable howed h.amount hstored hheld hid hwalletId hwallet
          ⟨first, hfirst⟩
      · rintro error later ⟨row, herror, -⟩
        cases herror
  | none =>
      have hcollectable : Collectable books period := .inr fun hold hhold => by
        rw [hfound] at hhold
        cases hhold
      have hcovered : period.amountMinor ≤ Money.available wallet.walletId books.core := by
        simpa [ownRemainder, hfound] using hfunds
      have hanswer : Ends calm (fun result later => ∃ row : Money.PaymentAuthorization,
          result = .ok (.ok row.authorizationId) ∧ later.store = books.store ∧
            Money.Inserted books.core wallet ⟨subscription.walletId, period.amountMinor,
              periodChargeReference period.periodId, .absent⟩ row later.core)
          (authorizePeriod period subscription) books :=
        authorizePeriod_ends (Money.authorize_inserts h.walletId h.funded h.own h.active hdue hfound
          hcovered rfl ⟨first, hfirst⟩)
      refine ends_bind hanswer ?_ ?_
      · rintro value later ⟨row, hvalue, hstore, hinserted⟩
        obtain rfl := Except.ok.inj hvalue
        obtain ⟨core, store⟩ := later
        obtain rfl : store = books.store := hstore
        obtain ⟨hsettleable, hstored, hsettles⟩ := h.inserted hinserted
        have hwallets : core.money.wallets = books.core.money.wallets := by rw [hinserted.money]
        obtain ⟨createdAt, hrow⟩ := hinserted.built
        have hreference : row.businessReference = periodChargeReference period.periodId := by
          rw [hrow]
          rfl
        have hpayer : row.walletId = subscription.walletId := by
          rw [hrow]
          exact h.own
        have hother : ∃ id, Drawable core id := by
          by_cases hsame : row.authorizationId = first
          · exact ⟨second, hinserted.drawable (fun heq => hdistinct (hsame.symm.trans heq)) hsecond⟩
          · exact ⟨first, hinserted.drawable hsame hfirst⟩
        have hsettled := settlePeriod_held hsettleable howed h.amount hstored
          ⟨row, hstored, hreference⟩ hinserted.drawn.shape (hpayer ▸ h.walletId)
          ⟨wallet, by rw [hpayer, Money.Store.getWallet, hwallets]; exact h.funded⟩ hother
        exact hsettled.mono fun _ _ hiff => iff_of_true (hiff.mpr hsettles) hcollectable
      · rintro error later ⟨row, herror, -⟩
        cases herror

end Charge

/-! ### Runs -/

section Runs

variable {store : Store} {period : SubscriptionPeriod}

/-- A period that is settled where it stands overlaps no other and takes no number twice. -/
theorem Tiled.alone (h : Tiled store) (hshaped : store.Shaped)
    (hstored : store.getPeriod period.periodId = some period) (authorizationId : Option String)
    (instant : Int) :
    store.periodOverlapClash (settledRow period authorizationId instant) = false ∧
      store.sequenceClash (settledRow period authorizationId instant) = false := by
  have htiles := h.tiles period.subscriptionId
  have hmine := (mem_periodsOf h.keyed).mpr ⟨hstored, rfl⟩
  have hordered := ordered_shape (hshaped _ _ hstored)
  constructor
  · refine List.any_eq_false.mpr fun other hother hclash => ?_
    simp only [settledRow, Bool.and_eq_true] at hclash
    obtain ⟨⟨⟨hsame, hanother⟩, hbefore⟩, hafter⟩ := hclash
    have hsame := of_decide_eq_true hsame
    have hanother := of_decide_eq_true hanother
    have hbefore := of_decide_eq_true hbefore
    have hafter := of_decide_eq_true hafter
    obtain ⟨otherId, hotherStored⟩ := Table.mem_values.mp hother
    have hown := h.keyed.periods otherId other hotherStored
    have htheirs := (mem_periodsOf h.keyed).mpr ⟨hown ▸ hotherStored, hsame⟩
    have hotherOrdered := ordered_shape (hshaped _ _ hotherStored)
    refine htiles.disjoint period hmine other htheirs ?_ (max period.startsAt other.startsAt) ?_
    · rintro rfl
      exact hanother rfl
    · simp only [periodCovers, Bool.and_eq_true, decide_eq_true_eq]
      omega
  · refine List.any_eq_false.mpr fun other hother hclash => ?_
    simp only [settledRow, Bool.and_eq_true] at hclash
    obtain ⟨⟨hsame, hsequence⟩, hanother⟩ := hclash
    have hsame := of_decide_eq_true hsame
    have hsequence := of_decide_eq_true hsequence
    have hanother := of_decide_eq_true hanother
    obtain ⟨otherId, hotherStored⟩ := Table.mem_values.mp hother
    have hown := h.keyed.periods otherId other hotherStored
    have htheirs := (mem_periodsOf h.keyed).mpr ⟨hown ▸ hotherStored, hsame⟩
    have heq := htiles.single period hmine other htheirs hsequence.symm
    exact hanother (heq ▸ rfl)

/-- In every run an open period of a subscription with an active wallet is payable. -/
theorem run_payable {now : Int} {plans : List Plan} {grants : Table PlanGrant}
    {world : World Books Action Action.Answer Thrown Unit}
    (hrun : Run billing allRequests Enforced
      (World.initial (Books.opened now (priceList plans) grants)) world)
    (hprices : ∀ plan ∈ plans, plan.amountMinor ≤ Money.maxSafeInteger)
    {subscription : Subscription} {wallet : Money.Wallet}
    (hcollecting : Collecting world.store.store period subscription)
    (hwallet : world.store.core.money.getWallet subscription.walletId = some wallet)
    (hactive : wallet.status = .active) :
    Payable world.store period subscription wallet := by
  have htyped := run_typed hrun
  obtain ⟨htiled, hplans⟩ := run_tiling hrun.unrestrict
  obtain ⟨hwalletId, hsane, paying, sold, hpaying, hsold, hcurrency⟩ :=
    htyped.subscriptions _ _ hcollecting.sold
  rw [hwallet] at hpaying
  obtain rfl := Option.some.inj hpaying
  obtain ⟨row, plan, hrow, hplan, hpriced, hamount⟩ := htiled.priced _ _ hcollecting.stored
  rw [hcollecting.sold] at hrow
  obtain rfl := Option.some.inj hrow
  rw [hsold] at hplan
  obtain rfl := Option.some.inj hplan
  have hlisted : sold ∈ plans := by
    rw [Store.getPlan, hplans] at hsold
    rcases Table.empty.get_putRows Plan.planId plans subscription.planId with hempty |
      ⟨plan, hplan, -, hget⟩
    · rw [priceList, hempty] at hsold
      cases hsold
    · rw [priceList, hget] at hsold
      exact Option.some.inj hsold ▸ hplan
  exact {
    agreement := htyped.core.money
    keyed := htyped.keyed
    collecting := hcollecting
    shaped := htyped.shaped _ _ hcollecting.stored
    sane := hsane
    alone := htiled.alone htyped.shaped hcollecting.stored
    owned := run_owned hrun
    periodId := htyped.periods _ _ hcollecting.stored
    walletId := hwalletId
    funded := hwallet
    own := htyped.core.wallets _ _ hwallet
    active := hactive
    currency := hcurrency.trans hpriced.symm
    amount := hamount ▸ hprices sold hlisted
    holds := fun hold hfound => by
      obtain ⟨key, hkey⟩ := Table.mem_values.mp (List.mem_of_find?_eq_some hfound)
      exact htyped.holds key hold hkey }

theorem Payable.collects_iff {books : Books} {subscription : Subscription} {wallet : Money.Wallet}
    (h : Payable books period subscription wallet)
    (hcovered : Covered books period subscription wallet) (hleft : IdsLeft books.core) :
    ChargeCollects books period ↔ Collectable books period := by
  have hends := chargePeriod_ends h hcovered.covers hleft
  constructor
  · rintro ⟨⟨result, later, hcompletes⟩, hall⟩
    exact (hends.post hcompletes).mp (hall result later hcompletes)
  · intro hcollectable
    obtain ⟨result, later, hcompletes, -⟩ := hends.completes
    exact ⟨⟨result, later, hcompletes⟩, fun result later hcompletes =>
      (hends.post hcompletes).mpr hcollectable⟩

/-- From every state reached an open period whose wallet covers it is collected by a charge
run alone exactly where it is collectable. -/
theorem run_collects {now : Int} {plans : List Plan} {grants : Table PlanGrant}
    {world : World Books Action Action.Answer Thrown Unit} {subscription : Subscription}
    {wallet : Money.Wallet}
    (hrun : Run billing allRequests Enforced
      (World.initial (Books.opened now (priceList plans) grants)) world)
    (hprices : ∀ plan ∈ plans, plan.amountMinor ≤ Money.maxSafeInteger)
    (hcovered : Covered world.store period subscription wallet)
    (hleft : IdsLeft world.store.core) :
    ChargeCollects world.store period ↔ Collectable world.store period :=
  (run_payable hrun hprices hcovered.collecting hcovered.funded hcovered.active).collects_iff
    hcovered hleft

end Runs

/-! ### Explicit histories -/

/-- The checks of the schema, as the test of a schedule. -/
def letThrough (_ : Seen) (action : Action) (books : Books) : Bool := enforced action books

theorem letThrough_run {schedule : Schedule}
    {world world' : World Books Action Action.Answer Thrown Unit}
    (h : play billing letThrough schedule world = some world')
    (hcalls : ∀ call, Move.start call ∈ schedule → allRequests call) :
    Run billing allRequests Enforced world world' :=
  play_run h hcalls fun _ _ _ hallowed => hallowed

/-- The period, subscription and wallet of the histories as a charge finds them, with two
identifiers left. -/
def coveredAs (test : Books → SubscriptionPeriod → Bool) (books : Books) : Bool :=
  (books.store.getPeriod (idOf '5')).any fun period =>
    (books.store.getSubscription (idOf '4')).any fun subscription =>
      (books.core.money.getWallet (idOf '2')).any fun wallet =>
        Covered books period subscription wallet && test books period &&
          (Drawable books.core (idOf '7') && Drawable books.core (idOf '8'))

theorem coveredAs_rows {test : Books → SubscriptionPeriod → Bool} {books : Books}
    (h : coveredAs test books = true) : ∃ period subscription wallet,
      Covered books period subscription wallet ∧ test books period = true ∧
        IdsLeft books.core := by
  obtain ⟨period, -, h⟩ := (Option.any_eq_true _ _).mp h
  obtain ⟨subscription, -, h⟩ := (Option.any_eq_true _ _).mp h
  obtain ⟨wallet, -, h⟩ := (Option.any_eq_true _ _).mp h
  obtain ⟨h, hleft⟩ := Bool.and_eq_true_iff.mp h
  obtain ⟨hcovered, htest⟩ := Bool.and_eq_true_iff.mp h
  obtain ⟨hfirst, hsecond⟩ := Bool.and_eq_true_iff.mp hleft
  exact ⟨period, subscription, wallet, of_decide_eq_true hcovered, htest, idOf '7', idOf '8',
    by decide, of_decide_eq_true hfirst, of_decide_eq_true hsecond⟩

set_option maxRecDepth 20000 in
/-- A period refused for want of money is collected once the wallet is credited. -/
theorem run_collects_credited : ∃ world period,
    play billing letThrough (walletEmpty ++ subscribedUnpaid ++ walletCredited)
      (World.initial (Books.opened 0 (priceList [monthly]) Table.empty)) = some world ∧
    world.store.store.getPeriod period.periodId = some period ∧ period.isOpen ∧
    ChargeCollects world.store period := by
  have hplays : (play billing letThrough (walletEmpty ++ subscribedUnpaid ++ walletCredited)
      (World.initial (Books.opened 0 (priceList [monthly]) Table.empty))).any (fun world =>
        coveredAs (fun books period => decide (Collectable books period)) world.store) = true := by
    decide +kernel
  obtain ⟨world, hworld, hstate⟩ := (Option.any_eq_true _ _).mp hplays
  obtain ⟨period, subscription, wallet, hcovered, hcollectable, hleft⟩ := coveredAs_rows hstate
  refine ⟨world, period, hworld, hcovered.collecting.stored, hcovered.collecting.unpaid, ?_⟩
  have hprices : ∀ plan ∈ [monthly], plan.amountMinor ≤ Money.maxSafeInteger := by decide
  refine (run_collects (letThrough_run hworld ?_) hprices hcovered hleft).mpr
    (of_decide_eq_true hcollectable)
  intro call hcall
  refine .inl ?_
  revert call
  simp [walletEmpty, subscribedUnpaid, walletCredited, acts, request_call]

/-- The first charge of a subscription took its hold and got no further; the hold is then
voided through money's own operation. -/
def holdVoided : Schedule :=
  walletFunded ++ subscribed ++ holdTaken 2 ++
  .start (lift (Money.Request.voidAuthorization ⟨idOf '6', "released by hand"⟩).call) ::
    acts 3 [.proceed, .proceed, .proceed, .proceed]

set_option maxRecDepth 20000 in
/-- Without the condition a voided hold is never replaced, and the period stays open. -/
theorem run_collects_fails : ¬∀ (now : Int) (plans : List Plan) (grants : Table PlanGrant)
    (world : World Books Action Action.Answer Thrown Unit) (period : SubscriptionPeriod)
    (subscription : Subscription) (wallet : Money.Wallet),
    Run billing allRequests Enforced
      (World.initial (Books.opened now (priceList plans) grants)) world →
    (∀ plan ∈ plans, plan.amountMinor ≤ Money.maxSafeInteger) →
    Covered world.store period subscription wallet → IdsLeft world.store.core →
    ChargeCollects world.store period := by
  intro htrue
  have hplays : (play billing letThrough holdVoided
      (World.initial (Books.opened 0 (priceList [monthly]) Table.empty))).any (fun world =>
        coveredAs (fun books period => !decide (Collectable books period)) world.store) = true := by
    decide +kernel
  obtain ⟨world, hworld, hstate⟩ := (Option.any_eq_true _ _).mp hplays
  obtain ⟨period, subscription, wallet, hcovered, hstuck, hleft⟩ := coveredAs_rows hstate
  have hrun : Run billing allRequests Enforced
      (World.initial (Books.opened 0 (priceList [monthly]) Table.empty)) world := by
    refine letThrough_run hworld fun call hcall => ?_
    by_cases hdirect : call = lift (Money.Request.voidAuthorization
        ⟨idOf '6', "released by hand"⟩).call
    · exact .inr ⟨_, hdirect⟩
    · refine .inl ?_
      revert call
      simp +contextual [holdVoided, walletFunded, subscribed, holdTaken, acts, request_call]
  have hprices : ∀ plan ∈ [monthly], plan.amountMinor ≤ Money.maxSafeInteger := by decide
  have hpayable := run_payable hrun hprices hcovered.collecting hcovered.funded hcovered.active
  have hcollects := htrue 0 [monthly] Table.empty world period subscription wallet hrun hprices
    hcovered hleft
  have hcollectable := (hpayable.collects_iff hcovered hleft).mp hcollects
  simp [hcollectable] at hstuck

end WaslaCore.Billing
