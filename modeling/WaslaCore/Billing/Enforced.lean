import WaslaCore.Billing.Solo

/-!
What the tables keep under the checks of the schema that the stores leave out: identifiers
are of type `uuid`, and the trigger `subscription_currency_agrees` refuses a subscription
whose plan and wallet differ in currency. With them every stored row names a wallet that is
there, and a settled period names a hold that was taken for it.
-/

namespace WaslaCore.Billing

open Data Platform Interleaving

/-! ### The checks -/

/-- The `uuid` columns of a hold. -/
def typedMoney : WaslaCore.Write → Bool
  | .money (.insertAuthorization row) => isId row.authorizationId && isId row.walletId
  | _ => true

/-- The `uuid` columns, and `subscription_currency_agrees`. -/
def Write.typed (books : Books) : Write → Bool
  | .insertSubscription row =>
      isId row.walletId &&
        match books.core.money.getWallet row.walletId, books.store.getPlan row.planId with
        | some wallet, some plan => wallet.currency = plan.currency
        | _, _ => false
  | .insertPeriod period => isId period.periodId
  | _ => true

def enforced (action : Action) (books : Books) : Bool :=
  match action with
  | .core (.commit uow) => uow.writes.all typedMoney
  | .commit uow writes => uow.writes.all typedMoney && writes.all (Write.typed books)
  | _ => true

/-- A commit the schema lets through. -/
def Enforced (_ : Seen) (action : Action) (books : Books) : Prop := enforced action books = true

instance (seen : Seen) (action : Action) (books : Books) : Decidable (Enforced seen action books) :=
  inferInstanceAs (Decidable (enforced action books = true))

/-! ### The rows -/

/-- Every hold has its identifiers and the wallet it is on. -/
def HoldsTyped (money : Money.Store) : Prop :=
  ∀ id row, money.authorizations.get id = some row →
    isId row.authorizationId = true ∧ isId row.walletId = true ∧
      ∃ wallet, money.getWallet row.walletId = some wallet

/-- Every subscription bills a wallet that is there, in the currency of its plan. -/
def Billable (books : Books) (row : Subscription) : Prop :=
  isId row.walletId = true ∧ assertSubscriptionShape row = .ok () ∧
    ∃ wallet plan, books.core.money.getWallet row.walletId = some wallet ∧
      books.store.getPlan row.planId = some plan ∧ wallet.currency = plan.currency

structure Typed (books : Books) : Prop where
  core : Stocked books.core
  keyed : books.store.Keyed
  shaped : books.store.Shaped
  holds : HoldsTyped books.core.money
  periods : ∀ periodId period, books.store.getPeriod periodId = some period →
    isId period.periodId = true
  subscriptions : ∀ subscriptionId row,
    books.store.getSubscription subscriptionId = some row → Billable books row

/-- Wallets stay as they are. -/
def WalletsKept (money money' : Money.Store) : Prop :=
  ∀ walletId wallet, money.getWallet walletId = some wallet →
    money'.getWallet walletId = some wallet

section Writes

variable {money money' : Money.Store}

theorem apply_walletsKept {write : Money.Write} (h : write.apply money = .ok money') :
    WalletsKept money money' := by
  intro walletId wallet hwallet
  cases write with
  | insertWallet added =>
      obtain ⟨hnew, rfl⟩ := Money.insertWallet_ok h
      refine (Table.get_put_ne _ _ ?_).trans hwallet
      rintro rfl
      rw [Money.Store.getWallet, hnew] at hwallet
      cases hwallet
  | insertAuthorization row =>
      obtain ⟨-, -, -, -, rfl⟩ := Money.insertAuthorization_ok h
      exact hwallet
  | updateAuthorization next =>
      rcases Money.updateAuthorization_ok h with ⟨-, rfl⟩ | ⟨stored, -, -, rfl⟩ <;> exact hwallet
  | insertTransaction moved =>
      obtain ⟨-, -, -, rfl⟩ := Money.insertTransaction_ok h
      exact hwallet

/-- A hold is on a wallet that is there. -/
theorem insertAuthorization_wallet {row : Money.PaymentAuthorization}
    (h : money.insertAuthorization row = .ok money') :
    (money.wallets.get row.walletId).isSome = true := by
  unfold Money.Store.insertAuthorization at h
  split at h
  · cases h
  split at h
  · cases h
  split at h
  · cases h
  split at h
  · cases h
  split at h
  · cases h
  rename_i hwallet
  simpa [Option.isSome_iff_ne_none] using hwallet

theorem HoldsTyped.apply {write : Money.Write} (hholds : HoldsTyped money)
    (htyped : typedMoney (.money write) = true) (h : write.apply money = .ok money') :
    HoldsTyped money' := by
  have hkept := apply_walletsKept h
  have hlater : ∀ row : Money.PaymentAuthorization, isId row.authorizationId = true ∧
      isId row.walletId = true ∧ (∃ wallet, money.getWallet row.walletId = some wallet) →
      isId row.authorizationId = true ∧ isId row.walletId = true ∧
        ∃ wallet, money'.getWallet row.walletId = some wallet :=
    fun row ⟨hid, hwalletId, wallet, hwallet⟩ => ⟨hid, hwalletId, wallet, hkept _ _ hwallet⟩
  intro id row hrow
  cases write with
  | insertWallet added =>
      obtain ⟨-, rfl⟩ := Money.insertWallet_ok h
      exact hlater row (hholds id row hrow)
  | insertAuthorization inserted =>
      have hwallet := insertAuthorization_wallet h
      obtain ⟨-, -, -, -, rfl⟩ := Money.insertAuthorization_ok h
      rw [Table.get_put] at hrow
      split at hrow
      · obtain rfl := Option.some.inj hrow
        simp only [typedMoney, Bool.and_eq_true] at htyped
        exact hlater _ ⟨htyped.1, htyped.2, Option.isSome_iff_exists.mp hwallet⟩
      · exact hlater row (hholds id row hrow)
  | updateAuthorization next =>
      rcases Money.updateAuthorization_ok h with ⟨-, rfl⟩ | ⟨stored, hstored, -, rfl⟩
      · exact hholds id row hrow
      · rw [Table.get_put] at hrow
        split at hrow
        · obtain rfl := Option.some.inj hrow
          exact hlater _ (hholds _ stored hstored)
        · exact hlater row (hholds id row hrow)
  | insertTransaction moved =>
      obtain ⟨-, -, -, rfl⟩ := Money.insertTransaction_ok h
      exact hlater row (hholds id row hrow)

theorem applyAll_walletsKept {writes : List Money.Write}
    (h : Money.applyAll money writes = .ok money') : WalletsKept money money' := by
  apply Money.applyAll_keeps (P := WalletsKept money) _ h (fun _ _ hwallet => hwallet)
  intro write _ before after hwrite hbefore walletId wallet hwallet
  exact apply_walletsKept hwrite walletId wallet (hbefore walletId wallet hwallet)

theorem HoldsTyped.applyAll {writes : List Money.Write} (hholds : HoldsTyped money)
    (htyped : ∀ write ∈ writes, typedMoney (.money write) = true)
    (h : Money.applyAll money writes = .ok money') : HoldsTyped money' :=
  Money.applyAll_keeps
    (fun write hmember _ _ hwrite hbefore => hbefore.apply (htyped write hmember) hwrite) h hholds

end Writes

section Steps

variable {books books' : Books} {core : Db} {uow : Work}

/-- The core half of a commit the schema lets through. -/
theorem core_typed (hholds : HoldsTyped books.core.money)
    (htyped : uow.writes.all typedMoney = true) (hcommit : books.core.commit uow = .ok core) :
    HoldsTyped core.money ∧ WalletsKept books.core.money core.money := by
  have happly := (commit_money hcommit).1
  refine ⟨hholds.applyAll (fun write hwrite => ?_) happly, applyAll_walletsKept happly⟩
  obtain ⟨staged, hstaged, hsame⟩ := List.mem_filterMap.mp hwrite
  cases staged with
  | money own =>
      obtain rfl := Option.some.inj hsame
      exact List.all_eq_true.mp htyped _ hstaged
  | fulfillment own => cases hsame

theorem Billable.kept {row : Subscription} (h : Billable books row)
    (hwallets : WalletsKept books.core.money books'.core.money)
    (hplans : books'.store.plans = books.store.plans) : Billable books' row := by
  obtain ⟨hid, hshape, wallet, plan, hwallet, hplan, hcurrency⟩ := h
  exact ⟨hid, hshape, wallet, plan, hwallets _ _ hwallet,
    by rw [Store.getPlan, hplans]; exact hplan, hcurrency⟩

theorem Typed.core_commit (h : Typed books) (htyped : uow.writes.all typedMoney = true)
    (hcommit : books.core.commit uow = .ok core) : Typed { books with core := core } := by
  obtain ⟨hholds, hwallets⟩ := core_typed h.holds htyped hcommit
  exact ⟨h.core.commit hcommit, h.keyed, h.shaped, hholds, h.periods,
    fun subscriptionId row hrow => (h.subscriptions subscriptionId row hrow).kept hwallets rfl⟩

/-- The rows a write of the subscription store leaves, where the schema lets it through. -/
structure RowsTyped (books : Books) (store : Store) : Prop where
  keyed : store.Keyed
  plans : store.plans = books.store.plans
  periods : ∀ periodId period, store.getPeriod periodId = some period →
    isId period.periodId = true
  subscriptions : ∀ subscriptionId row, store.getSubscription subscriptionId = some row →
    Billable books row

/-- A subscription that is inserted has the shape its table asks for. -/
theorem insertSubscription_shape {store store' : Store} {row : Subscription}
    (h : store.insertSubscription row = .ok store') : assertSubscriptionShape row = .ok () := by
  unfold Store.insertSubscription at h
  split at h
  · cases h
  · assumption

/-- And so does one that is rewritten. -/
theorem updateSubscription_shape {store store' : Store} {next stored : Subscription}
    (hstored : store.getSubscription next.subscriptionId = some stored)
    (h : store.updateSubscription next = .ok store') :
    assertSubscriptionShape (stored.revise next) = .ok () := by
  rw [Store.getSubscription] at hstored
  simp only [Store.updateSubscription, hstored] at h
  split at h
  · cases h
  · assumption

theorem RowsTyped.apply {store store' : Store} {write : Write} (h : RowsTyped books store)
    (htyped : write.typed books = true) (happly : write.apply store = .ok store') :
    RowsTyped books store' := by
  have hwrote := apply_wrote h.keyed happly
  have hkeyed := hwrote.keyed h.keyed
  cases hwrote with
  | insertedSubscription row hnew =>
      refine ⟨hkeyed, h.plans, h.periods, fun subscriptionId found hfound => ?_⟩
      rw [Store.getSubscription_put] at hfound
      split at hfound
      · obtain rfl := Option.some.inj hfound
        simp only [Write.typed, Bool.and_eq_true] at htyped
        obtain ⟨hid, hagrees⟩ := htyped
        split at hagrees
        · rename_i wallet plan hwallet hplan
          exact ⟨hid, insertSubscription_shape happly, wallet, plan, hwallet, hplan,
            of_decide_eq_true hagrees⟩
        · cases hagrees
      · exact h.subscriptions subscriptionId found hfound
  | missedSubscription next hmissing => exact h
  | updatedSubscription next stored hstored =>
      refine ⟨hkeyed, h.plans, h.periods, fun subscriptionId found hfound => ?_⟩
      rw [Store.getSubscription_put] at hfound
      split at hfound
      · obtain rfl := Option.some.inj hfound
        obtain ⟨hid, -, hbilled⟩ := h.subscriptions _ stored hstored
        exact ⟨hid, updateSubscription_shape hstored happly, hbilled⟩
      · exact h.subscriptions subscriptionId found hfound
  | insertedPeriod period hnew hwritable =>
      refine ⟨hkeyed, h.plans, fun periodId found hfound => ?_, h.subscriptions⟩
      rw [Store.getPeriod_put] at hfound
      split at hfound
      · obtain rfl := Option.some.inj hfound
        exact htyped
      · exact h.periods periodId found hfound
  | missedPeriod next hmissing => exact h
  | updatedPeriod next stored hstored hwritable =>
      refine ⟨hkeyed, h.plans, fun periodId found hfound => ?_, h.subscriptions⟩
      rw [Store.getPeriod_put] at hfound
      split at hfound
      · obtain rfl := Option.some.inj hfound
        exact h.periods _ stored hstored
      · exact h.periods periodId found hfound

theorem RowsTyped.applyAll {store store' : Store} {writes : List Write} (h : RowsTyped books store)
    (htyped : ∀ write ∈ writes, write.typed books = true)
    (happly : Billing.applyAll store writes = .ok store') : RowsTyped books store' :=
  applyAll_keeps (fun write hmember _ _ hwrite hbefore => hbefore.apply (htyped write hmember) hwrite)
    happly h

theorem Typed.commit (h : Typed books) {writes : List Write}
    (htyped : enforced (.commit uow writes) books = true)
    (hcommit : books.commit uow writes = .ok books') : Typed books' := by
  simp only [enforced, Bool.and_eq_true] at htyped
  obtain ⟨hcore, hstore, -⟩ := commit_ok hcommit
  obtain ⟨hholds, hwallets⟩ := core_typed h.holds htyped.1 hcore
  have hbefore : RowsTyped books books.store := ⟨h.keyed, rfl, h.periods, h.subscriptions⟩
  have hrows := hbefore.applyAll (List.all_eq_true.mp htyped.2) hstore
  exact ⟨h.core.commit hcore, hrows.keyed, applyAll_shaped h.keyed h.shaped hstore, hholds,
    hrows.periods, fun subscriptionId row hrow =>
      (hrows.subscriptions subscriptionId row hrow).kept hwallets hrows.plans⟩

theorem Typed.performs (h : Typed books) {action : Action} {choice : Choice}
    {answer : action.Answer} (htyped : enforced action books = true)
    (hperform : perform action choice books = some (answer, books')) : Typed books' := by
  rcases perform_cases hperform with rfl | ⟨own, core, answer', rfl, hown, rfl⟩ |
    ⟨uow, writes, rfl, hcommit⟩
  · exact h
  · rcases WaslaCore.perform_cases hown with rfl | ⟨entry, rfl, rfl⟩ | ⟨uow, rfl, hcommit⟩
    · exact h
    · exact ⟨⟨h.core.money, h.core.wallets, h.core.ruled⟩, h.keyed, h.shaped, h.holds, h.periods,
        h.subscriptions⟩
    · exact h.core_commit htyped hcommit
  · exact h.commit htyped hcommit

theorem Typed.opened (now : Int) (plans : Table Plan) (grants : Table PlanGrant) :
    Typed (Books.opened now plans grants) where
  core := stocked_empty now
  keyed := Store.keyed_offering plans grants
  shaped := by rintro periodId period ⟨⟩
  holds := by rintro id row ⟨⟩
  periods := by rintro periodId period ⟨⟩
  subscriptions := by rintro subscriptionId row ⟨⟩

/-- In every run the schema lets through the rows are as it asks for. -/
theorem run_typed {now : Int} {plans : Table Plan} {grants : Table PlanGrant}
    {calls : Call Unit → Prop} {world : World Books Action Action.Answer Thrown Unit}
    (hrun : Run billing calls Enforced (World.initial (Books.opened now plans grants)) world) :
    Typed world.store := by
  refine Run.stored (I := Typed) ?_ ?_ (Typed.opened now plans grants) hrun
  · intro seen action choice answer books books' htyped hallowed hperform
    exact htyped.performs hallowed hperform
  · intro choice books books' htyped htick
    obtain ⟨core, hcore, rfl⟩ := tick_ok htick
    obtain ⟨elapsed, rfl⟩ := WaslaCore.tick_ok hcore
    exact ⟨⟨htyped.core.money, htyped.core.wallets, htyped.core.ruled⟩, htyped.keyed, htyped.shaped,
      htyped.holds, htyped.periods, htyped.subscriptions⟩

end Steps

/-! ### Whose hold a settled period names -/

/-- A period that names a hold names one taken under its own reference. -/
def Owned (money : Money.Store) (store : Store) : Prop :=
  ∀ periodId period own, store.getPeriod periodId = some period →
    period.authorizationId = some own →
      Money.HeldUnder money (periodChargeReference periodId) own

/-- A subscription call commits what its operation stages; money calls commit what they
like. -/
def paying : Discipline Action Action.Answer where
  told := bookkeeping.told
  owed seen action :=
    match action with
    | .commit uow writes => Staged seen uow writes
    | _ => True

/-- A write that names a hold names the period's own. -/
def Write.names (money : Money.Store) : Write → Prop
  | .insertPeriod period => period.status = .pending
  | .updatePeriod next => ∀ own, next.authorizationId = some own →
      Money.HeldUnder money (periodChargeReference next.periodId) own
  | _ => True

theorem Staged.names {seen : Seen} {uow : Work} {writes : List Write} (money : Money.Store)
    (h : Staged seen uow writes)
    (hheld : ∀ reference own, Held seen reference own → Money.HeldUnder money reference own) :
    ∀ write ∈ writes, write.names money := by
  have hrevival : ∀ subscription, ∀ write ∈ revival subscription, write.names money := by
    intro subscription
    unfold revival
    split <;> simp [Write.names]
  have hlapse : ∀ subscription, ∀ write ∈ lapse subscription, write.names money := by
    intro subscription
    unfold lapse
    split <;> simp [Write.names]
  cases h with
  | created subscription plan period hactive hpending => simpa [Write.names] using hpending
  | renewed subscription next hpending => simpa [Write.names] using hpending
  | settledFree subscription period now =>
      exact List.forall_mem_cons.mpr ⟨by rintro own ⟨⟩, hrevival subscription⟩
  | settled subscription period authorizationId now uow hcaptures hnamed =>
      refine List.forall_mem_cons.mpr ⟨?_, hrevival subscription⟩
      rintro own ⟨rfl⟩
      exact hheld _ _ hnamed
  | uncollectible subscription period reason =>
      exact List.forall_mem_cons.mpr ⟨by rintro own ⟨⟩, hlapse subscription⟩
  | cancelled subscription reason current now =>
      refine List.forall_mem_cons.mpr ⟨trivial, ?_⟩
      cases voidable current with
      | none => simp
      | some period =>
          simp only [Option.map_some, Option.toList_some, List.mem_singleton, forall_eq]
          rintro own ⟨⟩
  | expired subscription now => simp [Write.names]

theorem Owned.applyAll {money : Money.Store} {store store' : Store} {writes : List Write}
    (h : Owned money store) (hkeyed : store.Keyed) (hnames : ∀ write ∈ writes, write.names money)
    (happly : Billing.applyAll store writes = .ok store') : Owned money store' := by
  apply applyAll_wrote (P := Owned money) _ hkeyed happly h
  intro write hmember before after hwrote hbefore periodId period own hperiod hpays
  have hname := hnames write hmember
  cases hwrote with
  | insertedSubscription row hnew => exact hbefore periodId period own hperiod hpays
  | missedSubscription next hmissing => exact hbefore periodId period own hperiod hpays
  | updatedSubscription next stored hstored => exact hbefore periodId period own hperiod hpays
  | insertedPeriod added hnew hwritable =>
      rw [Store.getPeriod_put] at hperiod
      split at hperiod
      · obtain rfl := Option.some.inj hperiod
        have hpending : added.status = .pending := hname
        rw [unsettled_shape hwritable.shape (by rw [hpending]; decide)] at hpays
        cases hpays
      · exact hbefore periodId period own hperiod hpays
  | missedPeriod next hmissing => exact hbefore periodId period own hperiod hpays
  | updatedPeriod next stored hstored hwritable =>
      rw [Store.getPeriod_put] at hperiod
      split at hperiod
      · rename_i hid
        obtain rfl := Option.some.inj hperiod
        rw [← hid]
        exact hname own hpays
      · exact hbefore periodId period own hperiod hpays

/-- What every run of subscription and money calls keeps of the holds periods name. -/
def payingContract : Contract Books Action Action.Answer where
  toDiscipline := paying
  inv books := Sound books ∧ Owned books.core.money books.store
  guar := HoldsKept
  guar_refl := holdsKept_guaranteed.refl
  guar_trans := holdsKept_guaranteed.trans
  known := settlement.known
  known_stable := bookkept.known_stable

theorem allRequests_paying {call : Call Unit} (h : allRequests call) :
    Keeps paying anyEnd call [] := by
  rcases h with hown | ⟨request, rfl⟩
  · refine (requests_keep call hown).loosen (fun _ _ htold => htold) fun seen action howed => ?_
    cases action with
    | commit uow writes => exact howed
    | core own => trivial
    | read query => trivial
  · have havoids : Avoids (fun action => ∃ uow writes, action = Action.commit uow writes)
        (lift request.call) :=
      avoids_embed (avoids_impossible (by rintro action ⟨uow, writes, ⟨⟩⟩) _)
    refine (havoids.keeps (fun seen action hnot => ?_) []).mono fun _ _ _ => trivial
    cases action with
    | commit uow writes => exact absurd ⟨uow, writes, rfl⟩ hnot
    | core own => trivial
    | read query => trivial

theorem Owned.later {money money' : Money.Store} {store : Store} (h : Owned money store)
    (hkept : ∀ reference own, Money.HeldUnder money reference own →
      Money.HeldUnder money' reference own) : Owned money' store :=
  fun periodId period own hperiod hpays => hkept _ _ (h periodId period own hperiod hpays)

theorem payingContract_upheld {allowed : Seen → Action → Books → Prop} :
    Upheld payingContract billing allRequests allowed where
  call _ hcall := allRequests_paying hcall
  act := by
    intro seen action choice answer books books' hinv hseen howed _ hperform
    obtain ⟨hsound, howned⟩ := hinv
    have htold := bookkeeping_told hsound.agreement hperform
    have hkept : HoldsKept books books' := by
      rcases perform_cases hperform with rfl | ⟨own, core, answer', rfl, hown, rfl⟩ |
        ⟨uow, writes, rfl, hcommit⟩
      · exact holdsKept_guaranteed.refl _
      · intro reference held hheld
        rcases WaslaCore.perform_cases hown with rfl | ⟨entry, rfl, rfl⟩ | ⟨uow, rfl, hcommit⟩
        · exact hheld
        · exact hheld
        · exact Money.applyAll_heldUnder (commit_money hcommit).1 hheld
      · exact fun reference held hheld =>
          Money.applyAll_heldUnder (commit_money (commit_ok hcommit).1).1 hheld
    have hsound' : Sound books' := by
      rcases perform_cases hperform with rfl | ⟨own, core, answer', rfl, hown, rfl⟩ |
        ⟨uow, writes, rfl, hcommit⟩
      · exact hsound
      · rcases WaslaCore.perform_cases hown with rfl | ⟨entry, rfl, rfl⟩ | ⟨uow, rfl, hcommit⟩
        · exact hsound
        · exact ⟨hsound.agreement, hsound.keyed, hsound.shaped⟩
        · exact hsound.core hcommit
      · exact hsound.commit hcommit
    refine ⟨htold, ⟨hsound', ?_⟩, hkept, ?_⟩
    · rcases perform_cases hperform with rfl | ⟨own, core, answer', rfl, hown, rfl⟩ |
        ⟨uow, writes, rfl, hcommit⟩
      · exact howned
      · exact howned.later hkept
      · have hstaged : Staged seen uow writes := howed
        have hnames := hstaged.names books'.core.money
          fun reference own hheld => hkept _ _ (hheld.heldUnder hseen)
        exact (howned.later hkept).applyAll hsound.keyed hnames (commit_ok hcommit).2.1
    · cases action with
      | core own =>
          simp only [billing, perform] at hperform
          split at hperform
          · rename_i answer' core hown
            obtain ⟨rfl, rfl⟩ := Prod.mk.inj (Option.some.inj hperform)
            exact perform_tellsHold hsound.agreement hown
          · cases hperform
      | read query => trivial
      | commit uow writes => trivial
  tick := by
    rintro choice books books' ⟨hsound, howned⟩ htick
    obtain ⟨core, hcore, rfl⟩ := tick_ok htick
    obtain ⟨elapsed, rfl⟩ := WaslaCore.tick_ok hcore
    exact ⟨⟨⟨hsound.agreement, hsound.keyed, hsound.shaped⟩, howned⟩, fun _ _ h => h⟩

/-- In every run a settled period names a hold taken for it. -/
theorem run_owned {now : Int} {plans : Table Plan} {grants : Table PlanGrant}
    {allowed : Seen → Action → Books → Prop}
    {world : World Books Action Action.Answer Thrown Unit}
    (hrun : Run billing allRequests allowed (World.initial (Books.opened now plans grants))
      world) : Owned world.store.core.money world.store.store := by
  have hopened : payingContract.inv (Books.opened now plans grants) :=
    ⟨Sound.opened now plans grants, by rintro periodId period own ⟨⟩⟩
  exact (payingContract_upheld.run (Kept.initial hopened) hrun).1.inv.2

end WaslaCore.Billing
