import Mathlib.Data.Fintype.EquivFin
import Mathlib.Data.Fintype.List
import WaslaCore.Http.ReadsConfined

/-!
Which reads tell a caller about other tenants. Where a read does not answer from the caller's
own rows there is a state that agrees with this one and answers otherwise: the row asked for is
there in one of the two and not in the other, or its money stands differently.
-/

namespace WaslaCore.Http

open Data Platform Identity

/-! ### Other tenants' rows -/

theorem exists_stranger (actor : AuthenticatedPrincipal) :
    ∃ organizationId, isIn actor organizationId = false := by
  obtain ⟨name, hname⟩ := Infinite.exists_notMem_finset actor.organizationIds.toFinset
  exact ⟨name, decide_eq_false (fun hmember => hname (List.mem_toFinset.mpr hmember))⟩

/-- The state with a fulfillment more, or another one under its identifier. -/
def ReadStores.putFulfillment (stores : ReadStores) (row : Fulfillment.Fulfillment)
    (hid : isId row.fulfillmentId = true) (hhold : row.paymentAuthorizationId = none) :
    ReadStores where
  fulfillments := ⟨stores.fulfillments.rows.put row.fulfillmentId row⟩
  money := stores.money
  reputation := stores.reputation
  billing := stores.billing
  keyed := stores.keyed.put row
  identified := by
    intro other hother
    rcases Table.mem_values_put hother with hbefore | rfl
    · exact stores.identified other hbefore
    · exact hid
  funded := by
    intro other hother name hname
    rcases Table.mem_values_put hother with hbefore | rfl
    · exact stores.funded other hbefore name hname
    · rw [hhold] at hname
      cases hname
  billed := stores.billed

/-- The state without one fulfillment. -/
def ReadStores.eraseFulfillment (stores : ReadStores) (fulfillmentId : String) : ReadStores where
  fulfillments := ⟨stores.fulfillments.rows.erase fulfillmentId⟩
  money := stores.money
  reputation := stores.reputation
  billing := stores.billing
  keyed := by
    intro key row hrow
    rw [Table.get_erase] at hrow
    split at hrow
    · cases hrow
    · exact stores.keyed key row hrow
  identified := fun row hrow => stores.identified row (Table.mem_values_of_erase hrow)
  funded := fun row hrow => stores.funded row (Table.mem_values_of_erase hrow)
  billed := stores.billed

/-- The state with another hold under a name that has one. -/
def ReadStores.putHold (stores : ReadStores) (name : String) (hold : Money.PaymentAuthorization) :
    ReadStores where
  fulfillments := stores.fulfillments
  money := { stores.money with authorizations := stores.money.authorizations.put name hold }
  reputation := stores.reputation
  billing := stores.billing
  keyed := stores.keyed
  identified := stores.identified
  funded := by
    intro row hrow other hother
    have hbefore := stores.funded row hrow other hother
    change ((stores.money.authorizations.put name hold).get other).isSome = true
    rw [Table.get_put]
    split
    · rfl
    · exact hbefore
  billed := stores.billed

/-- The state with a subscription more, or another one under its identifier. -/
def ReadStores.putSubscription (stores : ReadStores) (subscriptionId : String)
    (subscription : Billing.Subscription) : ReadStores where
  fulfillments := stores.fulfillments
  money := stores.money
  reputation := stores.reputation
  billing :=
    { stores.billing with
      subscriptions := stores.billing.subscriptions.put subscriptionId subscription }
  keyed := stores.keyed
  identified := stores.identified
  funded := stores.funded
  billed := by
    intro period hperiod
    have hbefore := stores.billed period hperiod
    change ((stores.billing.subscriptions.put subscriptionId subscription).get
      period.subscriptionId).isSome = true
    rw [Table.get_put]
    split
    · rfl
    · exact hbefore

/-! ### States that agree -/

section Agreeing

variable {actor : AuthenticatedPrincipal} {stores : ReadStores}

theorem agree_putFulfillment {row : Fulfillment.Fulfillment}
    (hid : isId row.fulfillmentId = true) (hhold : row.paymentAuthorizationId = none)
    (hold : ∀ old, stores.fulfillments.get row.fulfillmentId = some old →
      seesFulfillment actor old = false)
    (hrow : seesFulfillment actor row = false) :
    Agree actor stores (stores.putFulfillment row hid hhold) :=
  { Agree.refl actor stores with fulfillments := (Table.restrict_put hold hrow).symm }

theorem agree_eraseFulfillment {fulfillmentId : String}
    (hold : ∀ old, stores.fulfillments.get fulfillmentId = some old →
      seesFulfillment actor old = false) :
    Agree actor stores (stores.eraseFulfillment fulfillmentId) :=
  { Agree.refl actor stores with fulfillments := (Table.restrict_erase hold).symm }

theorem agree_putHold {name : String} {old hold : Money.PaymentAuthorization}
    (hstored : stores.money.getAuthorization name = some old)
    (hold' : seesHold actor stores.money old = false) (hwallet : hold.walletId = old.walletId) :
    Agree actor stores (stores.putHold name hold) := by
  have hhidden : seesHold actor stores.money hold = false := by
    unfold seesHold
    rw [hwallet]
    exact hold'
  have hreplaced : ∀ found, stores.money.authorizations.get name = some found →
      seesHold actor stores.money found = false := by
    intro found hfound
    obtain rfl := Option.some.inj (hfound.symm.trans hstored)
    exact hold'
  exact { Agree.refl actor stores with holds := (Table.restrict_put hreplaced hhidden).symm }

theorem agree_putSubscription {subscriptionId : String} {subscription : Billing.Subscription}
    (hold : ∀ old, stores.billing.getSubscription subscriptionId = some old →
      seesSubscription actor old = false)
    (hnew : seesSubscription actor subscription = false) :
    Agree actor stores (stores.putSubscription subscriptionId subscription) := by
  have hperiods : ∀ period ∈ stores.billing.periods.values,
      seesPeriod actor stores.billing period =
        seesPeriod actor (stores.putSubscription subscriptionId subscription).billing period := by
    intro period hperiod
    obtain ⟨owner, howner⟩ := Option.isSome_iff_exists.mp (stores.billed period hperiod)
    have hget : (stores.putSubscription subscriptionId subscription).billing.getSubscription
        period.subscriptionId =
          if subscriptionId = period.subscriptionId then some subscription else some owner := by
      rw [← howner]
      exact Table.get_put _ _ _ _
    unfold seesPeriod
    rw [hget, howner]
    split
    · rename_i hsame
      rw [Option.all_some, Option.all_some, hnew, hold owner (by rw [hsame, howner])]
    · rfl
  exact { Agree.refl actor stores with
    subscriptions := (Table.restrict_put hold hnew).symm
    periods := Table.restrict_congr hperiods }

end Agreeing

/-! ### What the reads answer -/

section Answers

variable {actor : AuthenticatedPrincipal} {stores : ReadStores} {now : Int} {selection : Selected}

theorem authorize_forbids {permission : Permission} {organizationId : Option String}
    {refusal : Refusal} (h : authorize actor permission organizationId = .error refusal) :
    refusal.error.code = .forbidden := by
  unfold authorize at h
  split at h
  · split at h
    · cases h
    · split at h
      · cases h
      · rw [← Except.error.inj h]
        rfl
  · rw [← Except.error.inj h]
    rfl

theorem read_absent {fulfillmentId : String}
    (h : stores.fulfillments.get fulfillmentId = none) :
    handleRead stores now actor selection (.fulfillment fulfillmentId) =
      .error (refused .notFound "fulfillment not found" []) := by
  simp [handleRead, requireFulfillment, h, bind, Except.bind]

/-- A fulfillment of another tenant is there, and refused. -/
theorem read_foreign (hadmin : Role.platformAdmin ∉ actor.roles) {fulfillmentId : String}
    {row : Fulfillment.Fulfillment} (h : stores.fulfillments.get fulfillmentId = some row)
    (hforeign : seesFulfillment actor row = false) :
    ∃ refusal, handleRead stores now actor selection (.fulfillment fulfillmentId) =
      .error refusal ∧ refusal.error.code = .forbidden := by
  cases hauthorized : authorize actor .fulfillmentRead (some row.organizationId) with
  | error refusal =>
      refine ⟨refusal, ?_, authorize_forbids hauthorized⟩
      simp [handleRead, requireFulfillment, h, hauthorized, bind, Except.bind]
  | ok _ =>
      have hmember := authorize_isIn hadmin hauthorized
      unfold seesFulfillment at hforeign
      rw [hmember] at hforeign
      cases hforeign

variable (stores now selection) in
theorem read_subscription (hpermission : Permission.subscriptionRead ∈ actor.permissions)
    {subscriptionId : String} (hid : isId subscriptionId = true) :
    handleRead stores now actor selection (.subscription subscriptionId) =
      match stores.billing.getSubscription subscriptionId with
      | none => .error (refused .notFound "subscription not found" [])
      | some subscription =>
          .ok (.subscription subscription (stores.billing.listPeriods subscriptionId)) := by
  have hauthorized : authorize actor .subscriptionRead none = .ok () :=
    authorize_ok.mpr ⟨hpermission, fun _ hnone => by cases hnone⟩
  cases hstored : stores.billing.getSubscription subscriptionId with
  | none =>
      simp [handleRead, hauthorized, getSubscription, assertIdentifier, hid, hstored, bind,
        Except.bind, throw, throwThe, MonadExceptOf.throw]
  | some subscription =>
      simp [handleRead, hauthorized, getSubscription, assertIdentifier, hid, hstored, bind,
        Except.bind, pure, Except.pure]

theorem staleHold_iff {money : Money.Store} {item row : Fulfillment.Fulfillment} :
    (∃ entry, Fulfillment.staleHold money now item = some entry ∧ entry.fulfillment = row) ↔
      item = row ∧
        (Fulfillment.inspectStored money now item.paymentAuthorizationId).usable = false := by
  unfold Fulfillment.staleHold
  dsimp only
  cases husable :
      (Fulfillment.inspectStored money now item.paymentAuthorizationId).usable with
  | true => simp
  | false => simp

variable (stores now) in
/-- Whether a fulfillment is listed among the stale ones. -/
theorem mem_listStaleHolds {organizationId : String} {row : Fulfillment.Fulfillment}
    (hrow : row ∈ stores.fulfillments.rows.values)
    (hopen : Fulfillment.isOpenFunded (some organizationId) row = true) :
    row ∈ (stores.fulfillments.listStaleHolds stores.money now (some organizationId)).map
        Fulfillment.StaleHold.fulfillment ↔
      (Fulfillment.inspectStored stores.money now row.paymentAuthorizationId).usable = false := by
  have hlisted : row ∈ stores.fulfillments.all.filter
      (Fulfillment.isOpenFunded (some organizationId)) :=
    List.mem_filter.mpr ⟨(all_ordered stores.fulfillments).1.mem_iff.mpr hrow, hopen⟩
  unfold Fulfillment.Store.listStaleHolds
  simp only [List.mem_map, List.mem_filterMap]
  constructor
  · rintro ⟨entry, ⟨item, -, hstale⟩, hsame⟩
    obtain ⟨rfl, husable⟩ := staleHold_iff.mp ⟨entry, hstale, hsame⟩
    exact husable
  · intro husable
    obtain ⟨entry, hstale, hsame⟩ := staleHold_iff.mpr ⟨rfl, husable⟩
    exact ⟨entry, ⟨row, hlisted, hstale⟩, hsame⟩

variable (stores now) in
theorem read_staleHolds {organizationId : String}
    (h : authorizedOrganization actor selection = .ok organizationId) :
    ∃ items, handleRead stores now actor selection .staleHolds =
        .ok (.staleHolds items.length items) ∧
      items.map (fun item => item.fulfillment.record) =
        (stores.fulfillments.listStaleHolds stores.money now (some organizationId)).map
          Fulfillment.StaleHold.fulfillment := by
  refine ⟨(stores.fulfillments.listStaleHolds stores.money now (some organizationId)).map
    (fun item => { item with fulfillment := withDisposition item.fulfillment }), ?_, ?_⟩
  · simp [handleRead, h, bind, Except.bind, pure, Except.pure]
  · rw [List.map_map]
    rfl

end Answers

/-! ### What a read reveals -/

section Revealed

variable {actor : AuthenticatedPrincipal} {stores : ReadStores} {selection : Selected}

/-- Whether a fulfillment that is not the caller's own exists. -/
theorem fulfillment_revealed (now : Int) (hadmin : Role.platformAdmin ∉ actor.roles)
    {fulfillmentId : String} (hid : isId fulfillmentId = true)
    (hforeign : ∀ row, stores.fulfillments.get fulfillmentId = some row →
      seesFulfillment actor row = false) :
    ∃ stores', Agree actor stores stores' ∧
      handleRead stores' now actor selection (.fulfillment fulfillmentId) ≠
        handleRead stores now actor selection (.fulfillment fulfillmentId) := by
  cases hstored : stores.fulfillments.get fulfillmentId with
  | none =>
      obtain ⟨stranger, hstranger⟩ := exists_stranger actor
      let row : Fulfillment.Fulfillment :=
        { fulfillmentId := fulfillmentId
          organizationId := stranger
          marketOrderReference := fulfillmentId
          moveJobReference := none
          paymentAuthorizationId := none
          status := .coordinating
          settlementState := .none
          createdAt := now
          completedAt := none
          closureReason := none
          executedAfterCancellationAt := none
          executedAfterCancellationJobReference := none }
      refine ⟨stores.putFulfillment row hid rfl, agree_putFulfillment hid rfl hforeign hstranger, ?_⟩
      have hput : (stores.putFulfillment row hid rfl).fulfillments.get fulfillmentId = some row :=
        Table.get_put_self _ _ _
      obtain ⟨refusal, hrefused, hcode⟩ := read_foreign hadmin hput hstranger
      rw [hrefused, read_absent hstored]
      intro hsame
      rw [Except.error.inj hsame] at hcode
      cases hcode
  | some row =>
      refine ⟨stores.eraseFulfillment fulfillmentId, agree_eraseFulfillment hforeign, ?_⟩
      have herased : (stores.eraseFulfillment fulfillmentId).fulfillments.get fulfillmentId = none :=
        (Table.get_erase _ _ _).trans (if_pos rfl)
      obtain ⟨refusal, hrefused, hcode⟩ := read_foreign hadmin hstored (hforeign row hstored)
      rw [hrefused, read_absent herased]
      intro hsame
      rw [← Except.error.inj hsame] at hcode
      cases hcode

/-- A subscription that is not the caller's own, whole. -/
theorem subscription_revealed (now : Int)
    (hpermission : Permission.subscriptionRead ∈ actor.permissions) {subscriptionId : String}
    (hid : isId subscriptionId = true)
    (hforeign : ∀ subscription, stores.billing.getSubscription subscriptionId = some subscription →
      seesSubscription actor subscription = false) :
    ∃ stores', Agree actor stores stores' ∧
      handleRead stores' now actor selection (.subscription subscriptionId) ≠
        handleRead stores now actor selection (.subscription subscriptionId) := by
  have hput : ∀ subscription,
      (stores.putSubscription subscriptionId subscription).billing.getSubscription subscriptionId =
        some subscription := fun subscription => Table.get_put_self _ _ _
  cases hstored : stores.billing.getSubscription subscriptionId with
  | none =>
      obtain ⟨stranger, hstranger⟩ := exists_stranger actor
      let subscription : Billing.Subscription :=
        { subscriptionId := subscriptionId
          ownerType := .organization
          ownerId := stranger
          planId := subscriptionId
          walletId := subscriptionId
          status := .active
          createdAt := now
          cancelledAt := none
          cancelReason := none
          endedAt := none }
      refine ⟨stores.putSubscription subscriptionId subscription,
        agree_putSubscription hforeign hstranger, ?_⟩
      rw [read_subscription _ _ _ hpermission hid, read_subscription _ _ _ hpermission hid, hput,
        hstored]
      rintro ⟨⟩
  | some subscription =>
      let moved : Billing.Subscription :=
        { subscription with createdAt := subscription.createdAt + 1 }
      refine ⟨stores.putSubscription subscriptionId moved,
        agree_putSubscription hforeign (hforeign subscription hstored), ?_⟩
      rw [read_subscription _ _ _ hpermission hid, read_subscription _ _ _ hpermission hid, hput,
        hstored]
      intro hsame
      have hmoved : moved = subscription := (ReadBody.subscription.inj (Except.ok.inj hsame)).1
      have hinstant := congrArg Billing.Subscription.createdAt hmoved
      dsimp only [moved] at hinstant
      omega

/-- The hold as it stands after it was released, or before anything was done with it: whichever
intake would judge the other way. -/
def turned (now : Int) (hold : Money.PaymentAuthorization) : Money.PaymentAuthorization :=
  if (Fulfillment.inspectRow now hold).usable then
    { hold with
      status := .voided
      capturedMinor := 0
      refundedMinor := 0
      capturedAt := none
      voidedAt := some now
      voidReason := some "released" }
  else
    { hold with
      status := .authorized
      capturedMinor := 0
      refundedMinor := 0
      capturedAt := none
      voidedAt := none
      expiresAt := none
      voidReason := none }

theorem turned_usable (now : Int) (hold : Money.PaymentAuthorization) :
    (Fulfillment.inspectRow now (turned now hold)).usable =
      !(Fulfillment.inspectRow now hold).usable := by
  cases husable : (Fulfillment.inspectRow now hold).usable with
  | true =>
      unfold turned
      rw [if_pos husable]
      rfl
  | false =>
      unfold turned
      rw [if_neg (Bool.eq_false_iff.mp husable)]
      rfl

theorem turned_wallet (now : Int) (hold : Money.PaymentAuthorization) :
    (turned now hold).walletId = hold.walletId := by
  unfold turned
  split
  · rfl
  · rfl

/-- How the money of another tenant stands, through an own fulfillment that names its hold. -/
theorem staleHolds_revealed (now : Int) {organizationId : String}
    (horganization : authorizedOrganization actor selection = .ok organizationId)
    {row : Fulfillment.Fulfillment} (hrow : row ∈ stores.fulfillments.rows.values)
    (hopen : Fulfillment.isOpenFunded (some organizationId) row = true) {name : String}
    (hname : row.paymentAuthorizationId = some name) {hold : Money.PaymentAuthorization}
    (hhold : stores.money.getAuthorization name = some hold)
    (hforeign : seesHold actor stores.money hold = false) :
    ∃ stores', Agree actor stores stores' ∧
      handleRead stores' now actor selection .staleHolds ≠
        handleRead stores now actor selection .staleHolds := by
  refine ⟨stores.putHold name (turned now hold),
    agree_putHold hhold hforeign (turned_wallet now hold), ?_⟩
  intro hsame
  obtain ⟨items, hanswer, hitems⟩ :=
    read_staleHolds stores now horganization
  obtain ⟨items', hanswer', hitems'⟩ :=
    read_staleHolds (stores.putHold name (turned now hold)) now horganization
  rw [hanswer, hanswer'] at hsame
  obtain ⟨-, rfl⟩ := ReadBody.staleHolds.inj (Except.ok.inj hsame)
  rw [hitems] at hitems'
  have hput : (stores.putHold name (turned now hold)).money.getAuthorization name =
      some (turned now hold) := Table.get_put_self _ _ _
  have hbefore := mem_listStaleHolds stores now hrow hopen
  have hafter := mem_listStaleHolds (stores.putHold name (turned now hold)) now hrow hopen
  rw [← hitems', hbefore] at hafter
  simp only [hname, Fulfillment.inspectStored, hhold, hput, turned_usable] at hafter
  revert hafter
  cases (Fulfillment.inspectRow now hold).usable <;> simp

end Revealed

/-! ### The exact condition -/

/-- The read answers alike in every state that agrees with this one, exactly where it answers
from the caller's own rows. -/
theorem respondRead_confined_iff {actor : AuthenticatedPrincipal}
    (hadmin : Role.platformAdmin ∉ actor.roles) (stores : ReadStores) (now : Int)
    (route : ReadRoute) (query : QueryString) :
    (∀ stores', Agree actor stores stores' →
        respondRead stores' now actor route query = respondRead stores now actor route query) ↔
      ∀ selection, parseSelection query route.params = .ok selection →
        ReadsOwn actor stores selection route := by
  constructor
  · intro hsame selection hparsed
    have hhandled : ∀ stores', Agree actor stores stores' →
        handleRead stores' now actor selection route =
          handleRead stores now actor selection route := by
      intro stores' hagree
      have hanswer := hsame stores' hagree
      unfold respondRead at hanswer
      rw [hparsed] at hanswer
      exact hanswer
    have hnever : ¬∃ stores', Agree actor stores stores' ∧
        handleRead stores' now actor selection route ≠
          handleRead stores now actor selection route := by
      rintro ⟨stores', hagree, hdiffers⟩
      exact hdiffers (hhandled stores' hagree)
    cases route with
    | fulfillment fulfillmentId =>
        intro hid
        by_contra hnone
        refine hnever (fulfillment_revealed now hadmin hid fun row hrow => ?_)
        exact Bool.eq_false_iff.mpr fun hsees => hnone ⟨row, hrow, hsees⟩
    | subscription subscriptionId =>
        intro hpermission hid
        by_contra hnone
        refine hnever (subscription_revealed now hpermission hid fun subscription hstored => ?_)
        exact Bool.eq_false_iff.mpr fun hsees => hnone ⟨subscription, hstored, hsees⟩
    | staleHolds =>
        intro organizationId horganization row hrow hopen name hname hold hhold
        by_contra hforeign
        exact hnever (staleHolds_revealed now horganization hrow hopen hname hhold
          (Bool.eq_false_iff.mpr hforeign))
    | inconsistent => trivial
    | pendingFinancialDecision => trivial
    | standing subjectType subjectId => trivial
    | signals subjectType subjectId => trivial
    | plans => trivial
    | plan planId => trivial
  · intro hown stores' hagree
    unfold respondRead
    cases hparsed : parseSelection query route.params with
    | error refusal => rfl
    | ok selection => exact handleRead_agree now hadmin hagree hparsed (hown selection hparsed)

/-- An administrator of one organization. -/
def officeAdmin : AuthenticatedPrincipal :=
  { principalId := "5a1e0b7c-0d2f-4f6e-8a55-0c9a3b1f7e21"
    identityId := "a7b7d0de-41a1-4a53-9a51-6a2fd6b6f0b4"
    sessionId := "e3c5a9d2-7a44-4f0b-b0a6-5a3f19c1d9aa"
    organizationIds := ["11111111-1111-4111-8111-111111111111"]
    roles := [.orgAdmin]
    permissions := permissionsForRoles [.orgAdmin]
    serviceName := none }

/-- Nothing has been stored yet. -/
def blankStores : ReadStores where
  fulfillments := Fulfillment.Store.empty
  money := Money.Store.empty
  reputation := Reputation.ReputationStore.empty []
  billing := Billing.Store.offering Table.empty Table.empty
  keyed := fun key row hrow => by cases hrow
  identified := fun row hrow => by cases hrow
  funded := fun row hrow => by cases hrow
  billed := fun period hperiod => by cases hperiod

/-- An order of the administrator's own organization. -/
def ownOrder : Fulfillment.Fulfillment :=
  { fulfillmentId := "22222222-2222-4222-8222-222222222222"
    organizationId := "11111111-1111-4111-8111-111111111111"
    marketOrderReference := "order-1"
    moveJobReference := none
    paymentAuthorizationId := none
    status := .coordinating
    settlementState := .none
    createdAt := 0
    completedAt := none
    closureReason := none
    executedAfterCancellationAt := none
    executedAfterCancellationJobReference := none }

def withOwnOrder : ReadStores := blankStores.putFulfillment ownOrder (by decide) rfl

theorem respondRead_confined_iff_ownOrder :
    Role.platformAdmin ∉ officeAdmin.roles ∧
      ∀ stores', Agree officeAdmin withOwnOrder stores' →
        respondRead stores' 0 officeAdmin (.fulfillment ownOrder.fulfillmentId) [] =
          respondRead withOwnOrder 0 officeAdmin (.fulfillment ownOrder.fulfillmentId) [] := by
  have hstored : withOwnOrder.fulfillments.get ownOrder.fulfillmentId = some ownOrder :=
    Table.get_put_self _ _ _
  have hsees : seesFulfillment officeAdmin ownOrder = true := by decide
  exact ⟨by decide, (respondRead_confined_iff (by decide) withOwnOrder 0
    (.fulfillment ownOrder.fulfillmentId) []).mpr fun _ _ _ => ⟨ownOrder, hstored, hsees⟩⟩

/-- The subscription of an organization the administrator is not in. -/
def neighbourSubscription : Billing.Subscription :=
  { subscriptionId := "33333333-3333-4333-8333-333333333333"
    ownerType := .organization
    ownerId := "44444444-4444-4444-8444-444444444444"
    planId := "55555555-5555-4555-8555-555555555555"
    walletId := "66666666-6666-4666-8666-666666666666"
    status := .active
    createdAt := 0
    cancelledAt := none
    cancelReason := none
    endedAt := none }

/-- Asked for by its identifier, the subscription of another organization is shown. -/
theorem respondRead_confined_fails :
    ¬∀ (actor : AuthenticatedPrincipal), Role.platformAdmin ∉ actor.roles →
      ∀ (stores stores' : ReadStores), Agree actor stores stores' →
        ∀ (now : Int) (route : ReadRoute) (query : QueryString),
          respondRead stores' now actor route query = respondRead stores now actor route query := by
  intro h
  have hagree : Agree officeAdmin blankStores
      (blankStores.putSubscription neighbourSubscription.subscriptionId neighbourSubscription) :=
    agree_putSubscription (fun old hold => by cases hold) (by decide)
  have hsame := h officeAdmin (by decide) blankStores _ hagree 0
    (.subscription neighbourSubscription.subscriptionId) []
  have hpermission : Permission.subscriptionRead ∈ officeAdmin.permissions := by decide
  have hid : isId neighbourSubscription.subscriptionId = true := by decide
  have hhandled : ∀ stores, respondRead stores 0 officeAdmin
      (.subscription neighbourSubscription.subscriptionId) [] =
        handleRead stores 0 officeAdmin ⟨[]⟩
          (.subscription neighbourSubscription.subscriptionId) := fun _ => rfl
  have hstored :
      (blankStores.putSubscription neighbourSubscription.subscriptionId
        neighbourSubscription).billing.getSubscription neighbourSubscription.subscriptionId =
          some neighbourSubscription := Table.get_put_self _ _ _
  have habsent : blankStores.billing.getSubscription neighbourSubscription.subscriptionId = none :=
    rfl
  rw [hhandled, hhandled, read_subscription _ _ _ hpermission hid,
    read_subscription _ _ _ hpermission hid, hstored, habsent] at hsame
  cases hsame

end WaslaCore.Http
