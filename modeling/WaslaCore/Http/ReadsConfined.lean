import Mathlib.Data.Prod.Lex
import Mathlib.Data.String.Basic
import WaslaCore.Data.Restriction
import WaslaCore.Data.Selection
import WaslaCore.Http.Reads

/-!
What the reads tell a caller about other tenants. Two states agree for a caller when they are
the same once the rows of other organizations and of other identities are taken out. A read
that names its tenant answers from the caller's own rows. One that loads a row to learn whose
it is, or asks for no tenant at all, answers the same in every such state only where the row
asked for is the caller's own.
-/

namespace WaslaCore.Http

open Data Platform Identity

/-! ### Whose rows they are -/

section Seeing

variable (actor : AuthenticatedPrincipal)

def isIn (organizationId : String) : Bool := organizationId ∈ actor.organizationIds

/-- Wallets and subscriptions belong to an organization or to an identity. -/
def isOwner : Money.WalletOwnerType → String → Bool
  | .organization, ownerId => isIn actor ownerId
  | .identity, ownerId => ownerId = actor.identityId

def seesFulfillment (row : Fulfillment.Fulfillment) : Bool := isIn actor row.organizationId

def seesWallet (wallet : Money.Wallet) : Bool := isOwner actor wallet.ownerType wallet.ownerId

/-- A hold belongs to whom its wallet belongs to. -/
def seesHold (money : Money.Store) (hold : Money.PaymentAuthorization) : Bool :=
  (money.getWallet hold.walletId).all (seesWallet actor)

def seesSignal (signal : Reputation.ReputationSignal) : Bool := isIn actor signal.organizationId

def seesSubscription (subscription : Billing.Subscription) : Bool :=
  isOwner actor subscription.ownerType subscription.ownerId

def seesPeriod (billing : Billing.Store) (period : Billing.SubscriptionPeriod) : Bool :=
  (billing.getSubscription period.subscriptionId).all (seesSubscription actor)

/-- The states differ in rows of other tenants and in no others. Plans and their grants belong
to nobody. -/
structure Agree (stores stores' : ReadStores) : Prop where
  fulfillments : stores.fulfillments.rows.Agrees stores'.fulfillments.rows (seesFulfillment actor)
    (seesFulfillment actor)
  wallets : stores.money.wallets.Agrees stores'.money.wallets (seesWallet actor) (seesWallet actor)
  holds : stores.money.authorizations.Agrees stores'.money.authorizations
    (seesHold actor stores.money) (seesHold actor stores'.money)
  signals : stores.reputation.signals.Agrees stores'.reputation.signals (seesSignal actor)
    (seesSignal actor)
  subscriptions : stores.billing.subscriptions.Agrees stores'.billing.subscriptions
    (seesSubscription actor) (seesSubscription actor)
  periods : stores.billing.periods.Agrees stores'.billing.periods (seesPeriod actor stores.billing)
    (seesPeriod actor stores'.billing)
  plans : stores.billing.plans = stores'.billing.plans
  grants : stores.billing.grants = stores'.billing.grants

theorem Agree.refl (stores : ReadStores) : Agree actor stores stores :=
  ⟨rfl, rfl, rfl, rfl, rfl, rfl, rfl, rfl⟩

end Seeing

variable {actor : AuthenticatedPrincipal} {stores stores' : ReadStores}

/-! ### The tenant a read names -/

/-- The organization of a parsed query is a text that is not empty. -/
theorem parseSelection_organization {query : QueryString} {rest : List ParamSpec}
    {selection : Selected} {organizationId : String}
    (h : parseSelection query (organizationParam :: rest) = .ok selection)
    (hread : selection.requiredText "organization_id" = .ok organizationId) :
    organizationId.isEmpty = false := by
  unfold parseSelection at h
  dsimp only at h
  split at h
  · obtain ⟨values, hvalues, h⟩ := bind_ok.mp h
    obtain rfl := Except.ok.inj h
    obtain ⟨value, hvalue, hvalues⟩ := bind_ok.mp hvalues
    obtain ⟨others, -, hvalues⟩ := bind_ok.mp hvalues
    obtain rfl := Except.ok.inj hvalues
    cases hsent : requiredParam query "organization_id" with
    | error refusal =>
        simp [organizationParam, ParamSpec.read, hsent, Except.map] at hvalue
    | ok sent =>
        have hpresent := requiredParam_present hsent
        simp only [organizationParam, ParamSpec.read, hsent, Except.map, if_true,
          Except.ok.injEq] at hvalue
        subst hvalue
        have hsame : organizationId = sent := (Except.ok.inj hread).symm
        rw [hsame]
        cases hempty : sent.isEmpty with
        | false => rfl
        | true =>
            rw [String.isEmpty_iff] at hempty
            rw [hempty] at hpresent
            revert hpresent
            decide
  · cases h

theorem authorizedOrganization_ok {selection : Selected} {organizationId : String} :
    authorizedOrganization actor selection = .ok organizationId ↔
      selection.requiredText "organization_id" = .ok organizationId ∧
        authorize actor .fulfillmentRead (some organizationId) = .ok () := by
  unfold authorizedOrganization
  rw [bind_ok]
  constructor
  · rintro ⟨named, hnamed, h⟩
    obtain ⟨_, hauthorized, h⟩ := bind_ok.mp h
    obtain rfl := Except.ok.inj h
    exact ⟨hnamed, hauthorized⟩
  · rintro ⟨hnamed, hauthorized⟩
    exact ⟨organizationId, hnamed, bind_ok.mpr ⟨(), hauthorized, rfl⟩⟩

/-- Only a platform administrator reaches an organization it is not in. -/
theorem authorize_isIn (hadmin : Role.platformAdmin ∉ actor.roles) {permission : Permission}
    {organizationId : String} (h : authorize actor permission (some organizationId) = .ok ()) :
    isIn actor organizationId = true := by
  rcases (authorize_ok.mp h).2 organizationId rfl with hmember | hrole
  · exact decide_eq_true hmember
  · exact absurd hrole hadmin

/-- What a reconciliation read is about is the caller's own. -/
theorem isOf_sees {organizationId : String} (hnamed : organizationId.isEmpty = false)
    (hmember : isIn actor organizationId = true) {row : Fulfillment.Fulfillment}
    (h : Fulfillment.isOf (some organizationId) row = true) : seesFulfillment actor row = true := by
  have hsame : row.organizationId = organizationId := by
    simpa [Fulfillment.isOf, hnamed] using h
  unfold seesFulfillment
  rw [hsame, hmember]

/-! ### Answers from own rows -/

/-- The order of `Store.all`. -/
def fulfillmentKey (row : Fulfillment.Fulfillment) : Int ×ₗ String :=
  toLex (row.createdAt, row.fulfillmentId)

theorem all_ordered (store : Fulfillment.Store) :
    Ordered fulfillmentKey store.rows.values store.all := by
  apply orderedBy_ordered
  intro first second
  unfold fulfillmentKey
  rw [Prod.Lex.toLex_le_toLex]
  simp only [noLater, compareValues]
  rcases lt_trichotomy first.createdAt second.createdAt with hless | hsame | hmore
  · simp [compare_lt_iff_lt.mpr hless, hless]
  · rcases lt_trichotomy first.fulfillmentId second.fulfillmentId with hid | hid | hid
    · simp [hsame, hid, hid.le]
    · simp [hsame, hid]
    · simp [hsame, hid, hid.not_gt, hid.not_ge]
  · simp [compare_gt_iff_gt.mpr hmore, hmore.not_gt, hmore.ne']

/-- A listing of own rows shows the same rows in the same order. -/
theorem Agree.all (h : Agree actor stores stores') {chosen : Fulfillment.Fulfillment → Bool}
    (hown : ∀ row, chosen row = true → seesFulfillment actor row = true) :
    stores.fulfillments.all.filter chosen = stores'.fulfillments.all.filter chosen := by
  have hrows := h.fulfillments.filter hown hown
  have hkeys : ((stores.fulfillments.rows.values.filter chosen).map fulfillmentKey).Nodup := by
    apply List.Nodup.of_map (fun key => (ofLex key).2)
    rw [List.map_map]
    exact stores.keyed.keys_nodup.sublist (List.filter_sublist.map _)
  have hordered := (all_ordered stores'.fulfillments).filter chosen
  rw [← hrows] at hordered
  exact Ordered.unique hkeys ((all_ordered stores.fulfillments).filter chosen) hordered

theorem Agree.forSubject (h : Agree actor stores stores') {subject : Reputation.ReputationSubject}
    (hmember : isIn actor subject.organizationId = true) :
    stores.reputation.forSubject subject = stores'.reputation.forSubject subject := by
  have hown : ∀ row : Reputation.ReputationSignal, decide (row.subject = subject) = true →
      seesSignal actor row = true := by
    intro row hrow
    obtain rfl := of_decide_eq_true hrow
    exact hmember
  exact h.signals.filter hown hown

/-- An own subscription is read with its periods. -/
theorem Agree.subscription (h : Agree actor stores stores') {subscriptionId : String}
    {subscription : Billing.Subscription}
    (hstored : stores.billing.getSubscription subscriptionId = some subscription)
    (hown : seesSubscription actor subscription = true) :
    getSubscription stores' subscriptionId = getSubscription stores subscriptionId := by
  have hstored' : stores'.billing.getSubscription subscriptionId = some subscription :=
    (h.subscriptions.get hstored hown).1
  have hperiods : stores.billing.periodsOf subscriptionId =
      stores'.billing.periodsOf subscriptionId := by
    apply h.periods.filter
    · intro period hperiod
      obtain rfl := of_decide_eq_true hperiod
      simp [seesPeriod, hstored, hown]
    · intro period hperiod
      obtain rfl := of_decide_eq_true hperiod
      simp [seesPeriod, hstored', hown]
  unfold getSubscription Billing.Store.listPeriods
  rw [hstored, hstored', hperiods]

/-- An identifier that is none names no fulfillment. -/
theorem ReadStores.get_unidentified (stores : ReadStores) {fulfillmentId : String}
    (h : ¬isId fulfillmentId = true) : stores.fulfillments.get fulfillmentId = none := by
  cases hstored : stores.fulfillments.get fulfillmentId with
  | none => rfl
  | some row =>
      have hkey : row.fulfillmentId = fulfillmentId := stores.keyed fulfillmentId row hstored
      have hid := stores.identified row (Table.mem_values.mpr ⟨fulfillmentId, hstored⟩)
      rw [hkey] at hid
      exact absurd hid h

/-! ### Reads that answer from own rows -/

/-- The read finds the row it is about among the caller's own, or names its tenant and reads
nothing else. -/
def ReadsOwn (actor : AuthenticatedPrincipal) (stores : ReadStores) (selection : Selected) :
    ReadRoute → Prop
  | .fulfillment fulfillmentId =>
      isId fulfillmentId = true →
        ∃ row, stores.fulfillments.get fulfillmentId = some row ∧ seesFulfillment actor row = true
  | .subscription subscriptionId =>
      Permission.subscriptionRead ∈ actor.permissions → isId subscriptionId = true →
        ∃ subscription, stores.billing.getSubscription subscriptionId = some subscription ∧
          seesSubscription actor subscription = true
  | .staleHolds =>
      ∀ organizationId, authorizedOrganization actor selection = .ok organizationId →
        ∀ row ∈ stores.fulfillments.rows.values,
          Fulfillment.isOpenFunded (some organizationId) row = true →
          ∀ name, row.paymentAuthorizationId = some name →
          ∀ hold, stores.money.getAuthorization name = some hold →
            seesHold actor stores.money hold = true
  | _ => True

/-- A hold of the caller's own is judged the same. -/
theorem Agree.staleHold (h : Agree actor stores stores') {now : Int}
    {item : Fulfillment.Fulfillment} (hitem : item ∈ stores.fulfillments.rows.values)
    (hown : ∀ name, item.paymentAuthorizationId = some name →
      ∀ hold, stores.money.getAuthorization name = some hold →
        seesHold actor stores.money hold = true) :
    Fulfillment.staleHold stores.money now item = Fulfillment.staleHold stores'.money now item := by
  have hinspect : Fulfillment.inspectStored stores.money now item.paymentAuthorizationId =
      Fulfillment.inspectStored stores'.money now item.paymentAuthorizationId := by
    cases hname : item.paymentAuthorizationId with
    | none => rfl
    | some name =>
        obtain ⟨hold, hhold⟩ := Option.isSome_iff_exists.mp (stores.funded item hitem name hname)
        have hhold' : stores'.money.getAuthorization name = some hold :=
          (h.holds.get hhold (hown name hname hold hhold)).1
        simp only [Fulfillment.inspectStored, hhold, hhold']
  unfold Fulfillment.staleHold
  rw [hinspect]

/-- A read of own rows answers alike in states that agree. -/
theorem handleRead_agree (now : Int) (hadmin : Role.platformAdmin ∉ actor.roles)
    (h : Agree actor stores stores') {query : QueryString} {selection : Selected}
    {route : ReadRoute} (hparsed : parseSelection query route.params = .ok selection)
    (hown : ReadsOwn actor stores selection route) :
    handleRead stores' now actor selection route = handleRead stores now actor selection route := by
  have hlisted : ∀ {organizationId : String} {rest : List ParamSpec},
      route.params = organizationParam :: rest →
      authorizedOrganization actor selection = .ok organizationId →
      ∀ row, Fulfillment.isOf (some organizationId) row = true →
        seesFulfillment actor row = true := by
    intro organizationId rest hparams horganization row hrow
    obtain ⟨hnamed, hauthorized⟩ := authorizedOrganization_ok.mp horganization
    rw [hparams] at hparsed
    exact isOf_sees (parseSelection_organization hparsed hnamed)
      (authorize_isIn hadmin hauthorized) hrow
  cases route with
  | inconsistent =>
      cases horganization : authorizedOrganization actor selection with
      | error refusal => simp [handleRead, horganization, bind, Except.bind]
      | ok organizationId =>
          have hall := h.all (hlisted rfl horganization)
          simp [handleRead, horganization, bind, Except.bind,
            Fulfillment.Store.listFinanciallyInconsistent, hall]
  | pendingFinancialDecision =>
      cases horganization : authorizedOrganization actor selection with
      | error refusal => simp [handleRead, horganization, bind, Except.bind]
      | ok organizationId =>
          have hall := h.all (hlisted rfl horganization)
          simp [handleRead, horganization, bind, Except.bind,
            Fulfillment.Store.listPendingFinancialDecision, hall]
  | staleHolds =>
      cases horganization : authorizedOrganization actor selection with
      | error refusal => simp [handleRead, horganization, bind, Except.bind]
      | ok organizationId =>
          have hopen : ∀ row, Fulfillment.isOpenFunded (some organizationId) row = true →
              seesFulfillment actor row = true := fun row hrow =>
            hlisted rfl horganization row (Bool.and_eq_true_iff.mp hrow).2
          have hstale : stores.fulfillments.listStaleHolds stores.money now (some organizationId) =
              stores'.fulfillments.listStaleHolds stores'.money now (some organizationId) := by
            unfold Fulfillment.Store.listStaleHolds
            rw [← h.all hopen]
            apply List.filterMap_congr
            intro item hitem
            obtain ⟨hlistedItem, hchosen⟩ := List.mem_filter.mp hitem
            have hstored : item ∈ stores.fulfillments.rows.values :=
              (all_ordered stores.fulfillments).1.mem_iff.mp hlistedItem
            exact h.staleHold hstored (hown organizationId horganization item hstored hchosen)
          simp [handleRead, horganization, bind, Except.bind, hstale]
  | fulfillment fulfillmentId =>
      have hfound : requireFulfillment stores' fulfillmentId =
          requireFulfillment stores fulfillmentId := by
        unfold requireFulfillment
        by_cases hid : isId fulfillmentId = true
        · obtain ⟨row, hrow, hsees⟩ := hown hid
          rw [hrow, show stores'.fulfillments.get fulfillmentId = some row from
            (h.fulfillments.get hrow hsees).1]
        · rw [stores.get_unidentified hid, stores'.get_unidentified hid]
      simp [handleRead, hfound]
  | standing subjectType subjectId =>
      cases hsubject : subjectOf subjectType subjectId selection with
      | error refusal => simp [handleRead, hsubject, bind, Except.bind]
      | ok subject =>
          cases hauthorized : authorize actor .reputationRead (some subject.organizationId) with
          | error refusal => simp [handleRead, hsubject, hauthorized, bind, Except.bind]
          | ok _ =>
              have hsignals := h.forSubject (authorize_isIn hadmin hauthorized)
              simp [handleRead, hsubject, hauthorized, bind, Except.bind,
                Reputation.ReputationStore.standing, Reputation.ReputationStore.groupsForSubject,
                hsignals]
  | signals subjectType subjectId =>
      cases hsubject : subjectOf subjectType subjectId selection with
      | error refusal => simp [handleRead, hsubject, bind, Except.bind]
      | ok subject =>
          cases hauthorized : authorize actor .reputationRead (some subject.organizationId) with
          | error refusal => simp [handleRead, hsubject, hauthorized, bind, Except.bind]
          | ok _ =>
              have hsignals := h.forSubject (authorize_isIn hadmin hauthorized)
              simp [handleRead, hsubject, hauthorized, bind, Except.bind, listSignals,
                Reputation.ReputationStore.listForSubject, hsignals]
  | plans => simp [handleRead, Billing.Store.listPlans, h.plans]
  | plan planId =>
      simp [handleRead, getPlan, Billing.Store.getPlan, Billing.Store.listGrants, h.plans, h.grants]
  | subscription subscriptionId =>
      cases hauthorized : authorize actor .subscriptionRead none with
      | error refusal => simp [handleRead, hauthorized, bind, Except.bind]
      | ok _ =>
          have hfound : getSubscription stores' subscriptionId =
              getSubscription stores subscriptionId := by
            by_cases hid : isId subscriptionId = true
            · obtain ⟨subscription, hstored, hsees⟩ := hown (authorize_ok.mp hauthorized).1 hid
              exact h.subscription hstored hsees
            · simp [getSubscription, assertIdentifier, hid, bind, Except.bind]
          simp [handleRead, hauthorized, bind, Except.bind, hfound]

end WaslaCore.Http
