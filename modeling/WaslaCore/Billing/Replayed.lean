import WaslaCore.Billing.Service
import WaslaCore.Money.Reconciliation
import WaslaCore.Money.Replayed

/-!
What a caller of `credit` or `authorize` may rely on where its reference has been used
before, and with it what a period is collected from: its reference is derived from the
period, and whoever used it first decided the hold.
-/

namespace WaslaCore.Billing

open Platform Interleaving

section Completed

variable {β : Type} {books books' : Books}

/-- A call of the services below completes as it does on its own, and the subscription
store stays as it is. -/
theorem completes_lift {call : WaslaCore.Call β} {result : Except Thrown β} :
    Completes billing (lift call) books result books' ↔
      ∃ db, Completes core call books.core result db ∧ books' = { books with core := db } := by
  induction call generalizing books with
  | done value =>
      change Completes billing (.done value) books result books' ↔ _
      simp only [completes_done]
      constructor
      · rintro ⟨rfl, rfl⟩
        exact ⟨books'.core, ⟨rfl, rfl⟩, rfl⟩
      · rintro ⟨db, ⟨rfl, rfl⟩, rfl⟩
        exact ⟨rfl, rfl⟩
  | fail error =>
      change Completes billing (.fail error) books result books' ↔ _
      simp only [completes_fail]
      constructor
      · rintro ⟨rfl, rfl⟩
        exact ⟨books'.core, ⟨rfl, rfl⟩, rfl⟩
      · rintro ⟨db, ⟨rfl, rfl⟩, rfl⟩
        exact ⟨rfl, rfl⟩
  | act action next ih =>
      change Completes billing (.act (.core action) fun answer => lift (next answer)) books result
        books' ↔ _
      simp only [completes_act]
      constructor
      · rintro ⟨choice, answer, middle, hperform, hrest⟩
        simp only [billing, perform] at hperform
        split at hperform
        · rename_i given db hown
          obtain ⟨rfl, rfl⟩ := Prod.mk.inj (Option.some.inj hperform)
          obtain ⟨last, hcall, rfl⟩ := ih given |>.mp hrest
          exact ⟨last, ⟨choice, given, db, hown, hcall⟩, rfl⟩
        · cases hperform
      · rintro ⟨last, ⟨choice, answer, db, hown, hcall⟩, rfl⟩
        refine ⟨choice, answer, { books with core := db }, ?_, (ih answer).mpr ⟨last, hcall, rfl⟩⟩
        have hown' : WaslaCore.perform action choice books.core = some (answer, db) := hown
        simp only [billing, perform, hown']

end Completed

/-- What a collection asks the money service for. -/
def periodHold (period : SubscriptionPeriod) (subscription : Subscription) :
    Money.AuthorizeInput :=
  ⟨subscription.walletId, period.amountMinor, periodChargeReference period.periodId, .absent⟩

theorem authorizePeriod_ok {period : SubscriptionPeriod} {subscription : Subscription}
    {authorizationId : String} {books books' : Books} :
    Completes billing (authorizePeriod period subscription) books (.ok (.ok authorizationId))
        books' ↔
      ∃ row db, Completes core (Money.authorize (periodHold period subscription)) books.core
          (.ok row) db ∧ row.authorizationId = authorizationId ∧
        books' = { books with core := db } := by
  unfold authorizePeriod
  rw [completes_tryCatch]
  constructor
  · rintro (⟨answer, hbody, ⟨⟩⟩ | ⟨error, middle, -, hhandler⟩)
    · obtain ⟨row, middle, hcall, hrest⟩ | ⟨error, -, ⟨⟩⟩ := completes_bind.mp hbody
      obtain ⟨db, hown, rfl⟩ := completes_lift.mp hcall
      obtain ⟨hsame, rfl⟩ := completes_done.mp hrest
      exact ⟨row, db, hown, by simpa using hsame.symm, rfl⟩
    · split at hhandler
      · obtain ⟨⟨⟩, -⟩ := completes_done.mp hhandler
      · cases hhandler
  · rintro ⟨row, db, hcall, rfl, rfl⟩
    refine .inl ⟨.ok row.authorizationId, completes_bind.mpr (.inl ?_), rfl⟩
    exact ⟨row, { books with core := db }, completes_lift.mpr ⟨db, hcall, rfl⟩,
      completes_done.mpr ⟨rfl, rfl⟩⟩

/-- The hold a collection obtains stands under the period's reference, on the
subscription's wallet and for the period's amount. -/
def CollectsOwn (books : Books) (period : SubscriptionPeriod) (subscription : Subscription) :
    Prop :=
  ∀ authorizationId books',
    Completes billing (authorizePeriod period subscription) books (.ok (.ok authorizationId))
        books' →
      ∃ row wallet,
        books'.core.money.findAuthorizationByReference (periodChargeReference period.periodId) =
            some row ∧
          row.authorizationId = authorizationId ∧
          books.core.money.getWallet subscription.walletId = some wallet ∧
          (periodHold period subscription).MetBy wallet row

theorem collectsOwn_iff (books : Books) (period : SubscriptionPeriod)
    (subscription : Subscription) :
    CollectsOwn books period subscription ↔
      Money.HeldAlike books.core (periodHold period subscription) := by
  constructor
  · intro h existing wallet hexisting hconsidered
    have hcall := (Money.authorize_found hexisting).mpr ⟨⟨wallet, hconsidered⟩, rfl, rfl⟩
    obtain ⟨row, other, hrow, -, hother, hmet⟩ := h existing.authorizationId books
      (authorizePeriod_ok.mpr ⟨existing, books.core, hcall, rfl, rfl⟩)
    obtain rfl := Option.some.inj (hexisting.symm.trans hrow)
    obtain rfl := Option.some.inj (hconsidered.found.symm.trans hother)
    exact hmet
  · intro h authorizationId books' hcollected
    obtain ⟨row, db, hcall, rfl, rfl⟩ := authorizePeriod_ok.mp hcollected
    cases hexisting : books.core.money.findAuthorizationByReference
        (periodHold period subscription).businessReference with
    | none =>
        obtain ⟨⟨wallet, hconsidered, hmet⟩, hfound⟩ := Money.authorize_fresh hexisting hcall
        exact ⟨row, wallet, hfound, rfl, hconsidered.found, hmet⟩
    | some existing =>
        obtain ⟨⟨wallet, hconsidered⟩, rfl, rfl⟩ := (Money.authorize_found hexisting).mp hcall
        exact ⟨row, wallet, hexisting, rfl, hconsidered.found,
          h row wallet hexisting hconsidered⟩

/-- A used reference answers what was asked for exactly where the record that stands
under it is what is asked for; the same decides what a period is collected from. -/
theorem replayedAlike_iff (db : Db) (authorizing : Money.AuthorizeInput)
    (crediting : Money.CreditInput) (books : Books) (period : SubscriptionPeriod)
    (subscription : Subscription) :
    (Money.AuthorizesAlike db authorizing ↔ Money.HeldAlike db authorizing) ∧
      (Money.CreditsAlike db crediting ↔ Money.PostedAlike db crediting) ∧
      (CollectsOwn books period subscription ↔
        Money.HeldAlike books.core (periodHold period subscription)) :=
  ⟨Money.authorizesAlike_iff db authorizing, Money.creditsAlike_iff db crediting,
    collectsOwn_iff books period subscription⟩

/-! ### References used before -/

/-- Two owners' wallets; the first is credited under a reference, and a hold is placed
on it under the reference of a period of the second. -/
def referencesUsed : WaslaCore.Schedule :=
  .start (Money.Request.createWallet ⟨.identity, idOf '1', "SAR"⟩).call ::
    walletOpened 0 (idOf '2') ++
  .start (Money.Request.createWallet ⟨.identity, idOf '6', "SAR"⟩).call ::
    walletOpened 1 (idOf '5') ++
  .start (Money.Request.credit ⟨idOf '2', 100, "topup"⟩).call :: creditPosted 2 (idOf '3') ++
  .start (Money.Request.authorize
      ⟨idOf '2', 60, periodChargeReference (idOf '9'), .absent⟩).call ::
    authorizeDecided 3 ++ authorizeCommitted 3 (idOf '4')

/-- The database after them. -/
def usedDb : Db :=
  match play core unrestricted referencesUsed (World.initial (Db.empty 0)) with
  | some world => world.store
  | none => Db.empty 0

def usedBooks : Books := ⟨usedDb, Store.offering Data.Table.empty Data.Table.empty⟩

/-- A period of the second owner, for 40. -/
def otherPeriod : SubscriptionPeriod :=
  ⟨idOf '9', idOf '8', 1, 0, 1, "SAR", 40, .pending, none, 0, none, none⟩

def otherSubscription : Subscription :=
  ⟨idOf '8', .identity, idOf '6', idOf '7', idOf '5', .active, 0, none, none, none⟩

/-- The second owner's top-up, under the first one's reference. -/
def otherCredit : Money.CreditInput := ⟨idOf '5', 25, "topup"⟩

set_option maxRecDepth 20000 in
theorem usedDb_stored :
    (usedDb.money.getWallet (idOf '5')).isSome = true ∧
      (usedDb.money.findAuthorizationByReference (periodChargeReference (idOf '9'))).any
        (fun row => row.amountMinor = 60) = true ∧
      (usedDb.money.findTransactionByReference "topup").any (fun moved =>
        moved.entries.all (fun leg => leg.amountMinor ≠ 25)) = true := by decide +kernel

/-- A reference another owner used: neither the credit, nor the hold, nor what the
period is collected from is what was asked for. -/
theorem replayedAlike_fails :
    ¬Money.AuthorizesAlike usedDb (periodHold otherPeriod otherSubscription) ∧
      ¬Money.CreditsAlike usedDb otherCredit ∧
      ¬CollectsOwn usedBooks otherPeriod otherSubscription := by
  obtain ⟨hwallet, hheld, hposted⟩ := usedDb_stored
  obtain ⟨wallet, hwallet⟩ := Option.isSome_iff_exists.mp hwallet
  obtain ⟨row, hrow, hamount⟩ := (Option.any_eq_true _ _).mp hheld
  obtain ⟨moved, hmoved, hlegs⟩ := (Option.any_eq_true _ _).mp hposted
  have hunlike : ¬Money.HeldAlike usedDb (periodHold otherPeriod otherSubscription) := by
    intro h
    have hmet := (h row wallet hrow ⟨by decide +kernel, hwallet, by decide⟩).amount
    have hsixty : row.amountMinor = 60 := by simpa using hamount
    rw [hsixty] at hmet
    exact absurd hmet (by decide)
  refine ⟨fun h => hunlike ((Money.authorizesAlike_iff _ _).mp h), fun h => ?_,
    fun h => hunlike ((collectsOwn_iff usedBooks _ _).mp h)⟩
  obtain ⟨leg, hleg, -, hsame, -⟩ := (Money.creditsAlike_iff _ _).mp h moved wallet hmoved
    ⟨by decide +kernel, hwallet, by decide⟩
  have hother := List.all_eq_true.mp hlegs leg hleg
  exact absurd hsame (by simpa [otherCredit] using hother)

end WaslaCore.Billing
