import WaslaCore.Billing.Stopped

/-!
A voided period holds nobody's money where the commit that voids it finds no open hold
for it and no hold is taken for it afterwards. Cancelling looks at the period alone: the
hold a charge has taken, and not captured yet, is found by no later operation, since a
voided period is never charged again and the hold has no expiry.
-/

namespace WaslaCore.Billing

open Data Interleaving Platform

/-! ### What a commit does to the holds -/

/-- The hold is open: authorized, and neither captured nor given back. -/
def Books.openHold (books : Books) (reference : String) : Bool :=
  books.core.money.authorizations.values.any (fun hold =>
    hold.businessReference = reference && hold.status = .authorized)

/-- The reference is that of a voided period. -/
def Books.voidedReference (books : Books) (reference : String) : Bool :=
  books.store.periods.values.any (fun period =>
    period.status = .voided && periodChargeReference period.periodId = reference)

/-- The period a write voids. -/
def Write.voids : Write → Option String
  | .insertPeriod period => if period.status = .voided then some period.periodId else none
  | .updatePeriod next => if next.status = .voided then some next.periodId else none
  | .insertSubscription _ => none
  | .updateSubscription _ => none

def Write.releases (books : Books) (write : Write) : Bool :=
  write.voids.all (fun periodId => !books.openHold (periodChargeReference periodId))

/-- A hold that is inserted is for a period that is not voided. -/
def takesFor (books : Books) : WaslaCore.Write → Bool
  | .money (.insertAuthorization row) => !books.voidedReference row.businessReference
  | _ => true

/-- No commit voids a period with an open hold, or takes a hold for a voided one. -/
def Releasing (_ : Seen) (action : Action) (books : Books) : Prop :=
  match action with
  | .core (.commit uow) => uow.writes.all (takesFor books) = true
  | .commit _ writes => writes.all (Write.releases books) = true
  | _ => True

instance (seen : Seen) (action : Action) (books : Books) :
    Decidable (Releasing seen action books) :=
  match action with
  | .core (.commit uow) => inferInstanceAs (Decidable (uow.writes.all (takesFor books) = true))
  | .commit _ writes => inferInstanceAs (Decidable (writes.all (Write.releases books) = true))
  | .core (.read _) => isTrue trivial
  | .core .clock => isTrue trivial
  | .core .newId => isTrue trivial
  | .core (.record _) => isTrue trivial
  | .read _ => isTrue trivial

/-! ### What the calls write -/

/-- No update of a hold leaves it authorized. -/
def Closes (uow : Work) : Prop :=
  ∀ next, .money (.updateAuthorization next) ∈ uow.writes → next.status ≠ .authorized

/-- The unit of work closes holds and takes none. -/
structure Collects (uow : Work) : Prop where
  closes : Closes uow
  takes : ∀ row, .money (.insertAuthorization row) ∉ uow.writes

/-- A commit that might reopen a hold, or take one beside a period. -/
def Reopening : Action → Prop
  | .core (.commit uow) => ¬Closes uow
  | .commit uow _ => ¬Collects uow
  | _ => False

theorem collects_empty : Collects (UnitOfWork.empty : Work) :=
  ⟨by rintro next ⟨⟩, by rintro row ⟨⟩⟩

section MoneyCalls

/-- The part of `Reopening` the services below can do. -/
abbrev ReopeningBelow (action : WaslaCore.Action) : Prop := Reopening (.core action)

theorem avoids_settledBelow {β : Type} (result : Except Thrown β) :
    Avoids ReopeningBelow (WaslaCore.settled result) := by
  cases result <;> trivial

theorem avoids_readBelow (query : WaslaCore.Query) :
    Avoids ReopeningBelow (WaslaCore.read query) :=
  ⟨id, fun answer => avoids_settledBelow answer⟩

theorem avoids_clockBelow : Avoids ReopeningBelow WaslaCore.clock := ⟨id, fun _ => trivial⟩

theorem avoids_newIdBelow : Avoids ReopeningBelow WaslaCore.newId := ⟨id, fun _ => trivial⟩

theorem avoids_checked {β : Type} (result : Except String β) :
    Avoids ReopeningBelow (Money.checked result) := by
  cases result <;> trivial

/-- One unit of work, decided already. -/
theorem avoids_withTransaction {uow : Work} (h : Closes uow) :
    Avoids ReopeningBelow (WaslaCore.withTransaction (fun _ => pure (uow, ()))) :=
  ⟨fun hreopens => hreopens h, fun answer => by cases answer <;> trivial⟩

theorem avoids_requireWallet (walletId : String) :
    Avoids ReopeningBelow (Money.requireWallet walletId) := by
  unfold Money.requireWallet
  refine avoids_bind (avoids_settledBelow _) fun _ => avoids_bind (avoids_readBelow _) ?_
  intro (found : Option Money.Wallet)
  cases found <;> trivial

theorem avoids_balance (walletId : String) : Avoids ReopeningBelow (Money.balance walletId) := by
  unfold Money.balance
  refine avoids_bind (avoids_requireWallet walletId) fun wallet => ?_
  refine avoids_bind (avoids_readBelow _) fun _ => avoids_bind (avoids_readBelow _) fun _ => ?_
  exact avoids_bind avoids_clockBelow fun _ => trivial

theorem avoids_transaction (kind : Money.LedgerKind)
    (reference currency creditAccount debitAccount : String) (amount : Int)
    (authorizationId : Option String) :
    Avoids ReopeningBelow (Money.transaction kind reference currency creditAccount debitAccount
      amount authorizationId) := by
  unfold Money.transaction
  refine avoids_bind avoids_newIdBelow fun transactionId => ?_
  refine avoids_bind (avoids_checked _) fun _ => ?_
  exact avoids_bind avoids_clockBelow fun _ => trivial

theorem avoids_createWallet (input : Money.CreateWalletInput) :
    Avoids ReopeningBelow (Money.createWallet input) := by
  unfold Money.createWallet
  refine avoids_bind (avoids_settledBelow _) fun _ => ?_
  split
  · trivial
  refine avoids_bind (avoids_readBelow _) fun (found : Option Money.Wallet) => ?_
  cases found with
  | some wallet => trivial
  | none =>
      refine avoids_bind avoids_newIdBelow fun walletId => avoids_bind avoids_clockBelow ?_
      intro createdAt
      refine avoids_bind (avoids_withTransaction ?_) fun _ => trivial
      simp [Closes, Money.stageWallet, UnitOfWork.empty]

theorem avoids_credit (input : Money.CreditInput) :
    Avoids ReopeningBelow (Money.credit input) := by
  unfold Money.credit
  refine avoids_bind (avoids_requireWallet _) fun wallet => ?_
  refine avoids_bind (avoids_settledBelow _) fun _ => ?_
  refine avoids_bind (avoids_readBelow _) fun (found : Option Money.LedgerTransaction) => ?_
  cases found with
  | some existing => trivial
  | none =>
      refine avoids_bind (avoids_transaction _ _ _ _ _ _ _) fun moved => ?_
      refine avoids_bind (avoids_withTransaction ?_) fun _ => trivial
      simp [Closes, Money.stageCredit, UnitOfWork.empty]

theorem avoids_authorize (input : Money.AuthorizeInput) :
    Avoids ReopeningBelow (Money.authorize input) := by
  unfold Money.authorize
  refine avoids_bind (avoids_requireWallet _) fun wallet => ?_
  refine avoids_bind (avoids_settledBelow _) fun _ => ?_
  refine avoids_bind (avoids_readBelow _) fun (found : Option Money.PaymentAuthorization) => ?_
  cases found with
  | some existing => trivial
  | none =>
      dsimp only
      split
      · trivial
      refine avoids_bind (avoids_balance _) fun current => ?_
      split
      · trivial
      refine avoids_bind avoids_newIdBelow fun authorizationId => ?_
      refine avoids_bind avoids_clockBelow fun createdAt => avoids_bind avoids_clockBelow ?_
      intro now
      refine avoids_bind (avoids_settledBelow _) fun expiresAt => ?_
      refine avoids_bind (avoids_withTransaction ?_) fun _ => trivial
      simp [Closes, Money.stageAuthorize, UnitOfWork.empty]

theorem closes_stageVoid (row : Money.PaymentAuthorization) (reason : String)
    (voidedAt closedAt : Int) :
    Closes (Money.stageVoid UnitOfWork.empty row reason voidedAt closedAt) := by
  intro next hnext
  have hrow : next = Money.voidedRow row reason voidedAt closedAt := by
    simpa [Money.stageVoid, UnitOfWork.empty] using hnext
  rw [hrow, Money.voidedRow]
  split <;> simp

theorem avoids_expireEach (rows : List Money.PaymentAuthorization) :
    Avoids ReopeningBelow (Money.expireEach rows) := by
  induction rows with
  | nil => trivial
  | cons row rest ih =>
      unfold Money.expireEach
      refine avoids_bind ?_ fun _ => avoids_bind ih fun _ => trivial
      -- two readings of the clock, then the commit
      refine ⟨id, fun voidedAt => ⟨id, fun closedAt => ⟨fun hreopens => ?_, fun answer => ?_⟩⟩⟩
      · exact hreopens (closes_stageVoid row "expired" voidedAt closedAt)
      · cases answer <;> trivial

theorem avoids_expireDueAuthorizations : Avoids ReopeningBelow Money.expireDueAuthorizations := by
  unfold Money.expireDueAuthorizations
  refine avoids_bind (avoids_readBelow _) fun rows => ?_
  exact avoids_bind avoids_clockBelow fun now => avoids_expireEach _

/-- A capture of all that is left closes the hold. -/
theorem captured_closes {now : Int} {row : Money.PaymentAuthorization} {authorizationId : String}
    {requested : Int}
    (h : Money.captureAmount now row ⟨authorizationId, none, none⟩ = .ok requested)
    (closedAt : Int) : (Money.capturedRow row requested closedAt).status = .captured := by
  unfold Money.captureAmount at h
  split at h
  · cases h
  rename_i hstatus
  split at h
  · cases h
  dsimp only at h
  split at h
  · cases h
  split at h
  · cases h
  split at h
  · cases h
  have hrequested := Except.ok.inj h
  have hopen : row.status = .authorized := not_not.mp hstatus
  simp only [Option.getD_none, Money.remainingHold, hopen, if_true] at hrequested
  have hall : row.capturedMinor + requested = row.amountMinor := by omega
  simp [Money.capturedRow, hall]

theorem avoids_captureWithin (input : Money.CaptureInput) :
    Avoids ReopeningBelow (Money.captureWithin UnitOfWork.empty input) := by
  unfold Money.captureWithin
  refine avoids_bind ?_ fun captured => trivial
  unfold Money.applyCaptureWithin
  refine avoids_bind (avoids_settledBelow _) fun _ => ?_
  refine avoids_bind (avoids_readBelow _) fun (found : Option Money.PaymentAuthorization) => ?_
  cases found with
  | none => trivial
  | some row =>
      refine avoids_bind (avoids_readBelow _) fun (existing : Option Money.LedgerTransaction) => ?_
      cases existing with
      | some transaction => trivial
      | none =>
          refine avoids_bind avoids_clockBelow fun now => ?_
          refine avoids_bind (avoids_settledBelow _) fun requested => ?_
          refine avoids_bind (avoids_requireWallet _) fun wallet => ?_
          refine avoids_bind (avoids_transaction _ _ _ _ _ _ _) fun moved => ?_
          exact avoids_bind avoids_clockBelow fun closedAt => trivial

theorem yields_settledBelow {β : Type} (result : Except Thrown β) :
    Yields (fun value => result = .ok value) (WaslaCore.settled result) := by
  cases result with
  | ok value => rfl
  | error error => trivial

/-- What a full capture enlists closes the hold it captures. -/
theorem yields_captureWithin (authorizationId : String) :
    Yields (fun captured : Work × Money.LedgerTransaction => Collects captured.1)
      (Money.captureWithin UnitOfWork.empty ⟨authorizationId, none, none⟩) := by
  unfold Money.captureWithin
  refine Yields.bind (P := fun captured : Work × Money.Captured => Collects captured.1) ?_
    fun captured hcaptured => hcaptured
  unfold Money.applyCaptureWithin
  refine yields_bind fun _ => yields_bind fun (found : Option Money.PaymentAuthorization) => ?_
  cases found with
  | none => trivial
  | some row =>
      refine yields_bind fun (existing : Option Money.LedgerTransaction) => ?_
      cases existing with
      | some transaction => exact collects_empty
      | none =>
          refine yields_bind fun now => ?_
          refine (yields_settledBelow _).bind fun requested hrequested => ?_
          refine yields_bind fun wallet => yields_bind fun moved => yields_bind fun closedAt => ?_
          constructor
          · intro next hnext
            have hrow : next = Money.capturedRow row requested closedAt := by
              simpa [Money.stageCapture, UnitOfWork.empty] using hnext
            rw [hrow, captured_closes hrequested closedAt]
            decide
          · intro other hother
            simp [Money.stageCapture, UnitOfWork.empty] at hother

end MoneyCalls

section BillingCalls

-- a check is one step, whatever text it compares
attribute [local irreducible] trim

theorem avoids_below {β : Type} {call : WaslaCore.Call β} (h : Avoids ReopeningBelow call) :
    Avoids Reopening (lift call) :=
  avoids_embed h

theorem settled_avoids {β : Type} (result : Except Thrown β) :
    Avoids Reopening (settled result) := by
  cases result <;> trivial

theorem read_avoids (query : Query) : Avoids Reopening (read query) :=
  ⟨id, fun answer => settled_avoids answer⟩

theorem clock_avoids : Avoids Reopening clock := avoids_below avoids_clockBelow

theorem newId_avoids : Avoids Reopening newId := avoids_below avoids_newIdBelow

theorem commit_avoids {uow : Work} {writes : List Write} (h : Collects uow) :
    Avoids Reopening (commit uow writes) :=
  ⟨fun hreopens => hreopens h, fun answer => settled_avoids answer⟩

theorem requirePeriod_avoids (periodId : String) :
    Avoids Reopening (requirePeriod periodId) := by
  unfold requirePeriod
  refine avoids_bind (read_avoids _) fun (found : Option SubscriptionPeriod) => ?_
  cases found <;> trivial

theorem requireSubscription_avoids (subscriptionId : String) :
    Avoids Reopening (requireSubscription subscriptionId) := by
  unfold requireSubscription
  refine avoids_bind (read_avoids _) fun (found : Option Subscription) => ?_
  cases found <;> trivial

/-- A settlement commits the capture of the hold it was given, and nothing else. -/
theorem settlePeriod_avoids (period : SubscriptionPeriod) (subscription : Subscription)
    (authorizationId : Option String) :
    Avoids Reopening (settlePeriod period subscription authorizationId) := by
  have hcaptures : Yields Collects (captureFor authorizationId) := by
    cases authorizationId with
    | none => exact collects_empty
    | some own =>
        refine Yields.bind (Q := Collects) (yields_embed (yields_captureWithin own)) ?_
        rintro ⟨uow, moved⟩ hcaptured
        exact hcaptured
  have hquiet : Avoids Reopening (captureFor authorizationId) := by
    cases authorizationId with
    | none => trivial
    | some own => exact avoids_bind (avoids_below (avoids_captureWithin _)) fun _ => trivial
  unfold settlePeriod
  refine avoids_bind clock_avoids fun now => hcaptures.avoids_bind hquiet fun uow huow => ?_
  exact avoids_bind (commit_avoids ⟨huow.closes, huow.takes⟩) fun _ => trivial

theorem markUncollectible_avoids (period : SubscriptionPeriod) (subscription : Subscription)
    (reason : String) : Avoids Reopening (markUncollectible period subscription reason) := by
  unfold markUncollectible
  refine avoids_bind clock_avoids fun _ => ?_
  exact avoids_bind (commit_avoids ⟨collects_empty.closes, collects_empty.takes⟩) fun _ => trivial

theorem authorizePeriod_avoids (period : SubscriptionPeriod) (subscription : Subscription) :
    Avoids Reopening (authorizePeriod period subscription) := by
  unfold authorizePeriod
  refine avoids_tryCatch ?_ fun error => ?_
  · exact avoids_bind (avoids_below (avoids_authorize _)) fun _ => trivial
  · cases refusalAmong [.conflict, .notFound] error <;> trivial

theorem chargePeriod_avoids (periodId : String) : Avoids Reopening (chargePeriod periodId) := by
  unfold chargePeriod
  refine avoids_bind (settled_avoids _) fun _ => ?_
  refine avoids_bind (requirePeriod_avoids periodId) fun period => ?_
  split
  · trivial
  split
  · trivial
  refine avoids_bind (requireSubscription_avoids _) fun subscription => ?_
  split
  · exact settlePeriod_avoids period subscription none
  refine avoids_bind (authorizePeriod_avoids period subscription) fun outcome => ?_
  cases outcome with
  | error reason => exact markUncollectible_avoids period subscription reason
  | ok own =>
      refine avoids_tryCatch (settlePeriod_avoids period subscription (some own)) fun error => ?_
      cases refusalAmong [.conflict] error with
      | none => trivial
      | some reason => exact markUncollectible_avoids period subscription reason

theorem buildPeriod_avoids (subscription : Subscription) (plan : Plan)
    (sequence startsAt : Int) :
    Avoids Reopening (buildPeriod subscription plan sequence startsAt) := by
  unfold buildPeriod
  refine avoids_bind newId_avoids fun periodId => avoids_bind (settled_avoids _) fun endsAt => ?_
  exact avoids_bind clock_avoids fun createdAt => trivial

theorem subscribe_avoids (input : SubscribeInput) : Avoids Reopening (subscribe input) := by
  unfold subscribe
  refine avoids_bind (settled_avoids _) fun _ => avoids_bind (settled_avoids _) fun _ => ?_
  refine avoids_bind (settled_avoids _) fun _ => ?_
  have hplan : Avoids Reopening (requirePlan input.planId) := by
    unfold requirePlan
    refine avoids_bind (read_avoids _) fun (found : Option Plan) => ?_
    cases found <;> trivial
  refine avoids_bind hplan fun plan => ?_
  split
  · trivial
  have hwallet : Avoids ReopeningBelow (Money.getWallet input.walletId) := avoids_readBelow _
  refine avoids_bind (avoids_below hwallet) fun (found : Option Money.Wallet) => ?_
  cases found with
  | none => trivial
  | some wallet =>
      dsimp only
      split
      · trivial
      split
      · trivial
      refine avoids_bind (read_avoids _) fun (existing : List Subscription) => ?_
      split
      · trivial
      have hstart : Avoids Reopening (startOf input.startsAt) := by
        unfold startOf
        split
        · exact clock_avoids
        · exact settled_avoids _
      refine avoids_bind hstart fun startsAt => avoids_bind newId_avoids fun subscriptionId => ?_
      refine avoids_bind clock_avoids fun createdAt => ?_
      refine avoids_bind (buildPeriod_avoids _ plan 1 startsAt) fun period => ?_
      refine avoids_bind (commit_avoids ⟨collects_empty.closes, collects_empty.takes⟩) fun _ => ?_
      refine avoids_bind (chargePeriod_avoids period.periodId) fun charge => ?_
      exact avoids_bind (read_avoids _) fun _ => trivial

theorem cancelSubscription_avoids (subscriptionId reason : String) :
    Avoids Reopening (cancelSubscription subscriptionId reason) := by
  unfold cancelSubscription
  refine avoids_bind (settled_avoids _) fun _ => ?_
  dsimp only
  split
  · trivial
  refine avoids_bind (requireSubscription_avoids _) fun subscription => ?_
  split
  · trivial
  split
  · trivial
  refine avoids_bind clock_avoids fun now => ?_
  refine avoids_bind (read_avoids _) fun (current : Option SubscriptionPeriod) => ?_
  exact avoids_bind (commit_avoids ⟨collects_empty.closes, collects_empty.takes⟩) fun _ => trivial

theorem renewFrom_avoids (subscription : Subscription) (latest : SubscriptionPeriod)
    (result : Renewal) : Avoids Reopening (renewFrom subscription latest result) := by
  unfold renewFrom
  split
  · refine avoids_bind ?_ fun _ => trivial
    unfold expireSubscription
    refine avoids_bind clock_avoids fun now => ?_
    exact commit_avoids ⟨collects_empty.closes, collects_empty.takes⟩
  refine avoids_bind (read_avoids _) fun (found : Option Plan) => ?_
  cases found with
  | none => trivial
  | some plan =>
      refine avoids_bind (buildPeriod_avoids _ plan _ _) fun next => ?_
      refine avoids_bind (commit_avoids ⟨collects_empty.closes, collects_empty.takes⟩) fun _ => ?_
      exact avoids_bind (chargePeriod_avoids next.periodId) fun _ => trivial

theorem renewEach_avoids (now : Int) (candidates : List Subscription) (result : Renewal) :
    Avoids Reopening (renewEach now candidates result) := by
  induction candidates generalizing result with
  | nil => trivial
  | cons subscription rest ih =>
      unfold renewEach
      refine avoids_bind ?_ fun result' => ih result'
      unfold renewOne
      refine avoids_bind (read_avoids _) fun (found : Option SubscriptionPeriod) => ?_
      cases found with
      | none => trivial
      | some latest =>
          dsimp only
          split
          · trivial
          · exact renewFrom_avoids subscription latest result

/-- No request reopens a hold. -/
theorem requests_avoid (call : Call Unit) (hcall : requests call) : Avoids Reopening call := by
  obtain ⟨request, rfl⟩ := hcall
  have hanswered : ∀ {β : Type} {call : Call β}, Avoids Reopening call →
      Avoids Reopening (answered call) := fun h => avoids_bind h fun _ => trivial
  cases request with
  | createWallet input => exact hanswered (avoids_below (avoids_createWallet input))
  | credit input => exact hanswered (avoids_below (avoids_credit input))
  | expireDueAuthorizations => exact hanswered (avoids_below avoids_expireDueAuthorizations)
  | subscribe input => exact hanswered (subscribe_avoids input)
  | chargePeriod periodId => exact hanswered (chargePeriod_avoids periodId)
  | cancelSubscription subscriptionId reason =>
      exact hanswered (cancelSubscription_avoids subscriptionId reason)
  | renewDuePeriods =>
      refine hanswered (avoids_bind clock_avoids fun now => ?_)
      exact avoids_bind (read_avoids _) fun candidates => renewEach_avoids now candidates _

end BillingCalls

/-! ### Runs -/

/-- No voided period has a hold that is still open. -/
def Unorphaned (books : Books) : Prop :=
  ∀ periodId period own hold, books.store.getPeriod periodId = some period →
    period.status = .voided → books.core.money.getAuthorization own = some hold →
    hold.businessReference = periodChargeReference periodId → hold.status ≠ .authorized

section Rows

variable {books books' : Books} {uow : Work} {writes : List Write}

theorem voidedReference_of_get (hkeyed : books.store.Keyed) {periodId : String}
    {period : SubscriptionPeriod} (hperiod : books.store.getPeriod periodId = some period)
    (hvoided : period.status = .voided) :
    books.voidedReference (periodChargeReference periodId) = true := by
  have hown := hkeyed.periods periodId period hperiod
  refine List.any_eq_true.mpr ⟨period, Table.mem_values.mpr ⟨periodId, hperiod⟩, ?_⟩
  simp [hvoided, hown]

theorem openHold_of_get {own : String} {hold : Money.PaymentAuthorization}
    (hhold : books.core.money.getAuthorization own = some hold) (hopen : hold.status = .authorized) :
    books.openHold hold.businessReference = true :=
  List.any_eq_true.mpr ⟨hold, Table.mem_values.mpr ⟨own, hhold⟩, by simp [hopen]⟩

/-- A period that stands voided after the writes was voided before, or by one of
them. -/
theorem applyAll_voided {store store' : Store} (hkeyed : store.Keyed)
    (h : applyAll store writes = .ok store') {periodId : String} {period : SubscriptionPeriod}
    (hperiod : store'.getPeriod periodId = some period) (hvoided : period.status = .voided) :
    (∃ old, store.getPeriod periodId = some old ∧ old.status = .voided) ∨
      ∃ write ∈ writes, write.voids = some periodId := by
  have hfrom : ∀ period, store'.getPeriod periodId = some period → period.status = .voided →
      (∃ old, store.getPeriod periodId = some old ∧ old.status = .voided) ∨
        ∃ write ∈ writes, write.voids = some periodId := by
    apply applyAll_wrote (P := fun later => ∀ period, later.getPeriod periodId = some period →
      period.status = .voided →
        (∃ old, store.getPeriod periodId = some old ∧ old.status = .voided) ∨
          ∃ write ∈ writes, write.voids = some periodId) _ hkeyed h
      (fun period hstored hstands => .inl ⟨period, hstored, hstands⟩)
    intro write hmember before after hwrote hbefore period hafter hstands
    cases hwrote with
    | insertedSubscription subscription hnew => exact hbefore period hafter hstands
    | missedSubscription next hmissing => exact hbefore period hafter hstands
    | updatedSubscription next stored hstored => exact hbefore period hafter hstands
    | insertedPeriod added hnew hwritable =>
        rw [Store.getPeriod_put] at hafter
        split at hafter
        · rename_i hid
          obtain rfl := Option.some.inj hafter
          exact .inr ⟨_, hmember, by simp [Write.voids, hstands, hid]⟩
        · exact hbefore period hafter hstands
    | missedPeriod next hmissing => exact hbefore period hafter hstands
    | updatedPeriod next stored hstored hwritable =>
        rw [Store.getPeriod_put] at hafter
        split at hafter
        · rename_i hid
          obtain rfl := Option.some.inj hafter
          have hnext : next.status = .voided := hstands
          exact .inr ⟨_, hmember, by simp [Write.voids, hnext, hid]⟩
        · exact hbefore period hafter hstands
  exact hfrom period hperiod hvoided

theorem mem_money {write : Money.Write}
    (h : write ∈ uow.writes.filterMap WaslaCore.Write.money?) :
    (.money write : WaslaCore.Write) ∈ uow.writes := by
  obtain ⟨staged, hstaged, hmoney⟩ := List.mem_filterMap.mp h
  cases staged with
  | money own =>
      obtain rfl := Option.some.inj hmoney
      exact hstaged
  | _ => cases hmoney

/-- A hold open after a commit of the services below was open before it, or taken for
a period that is not voided. -/
theorem Unorphaned.core {core : Db} (h : Unorphaned books) (hkeyed : books.store.Keyed)
    (hcloses : Closes uow) (htakes : uow.writes.all (takesFor books) = true)
    (hcommit : books.core.commit uow = .ok core) :
    Unorphaned { books with core := core } := by
  obtain ⟨happly, -⟩ := commit_money hcommit
  intro periodId period own hold hperiod hvoided hhold hreference hopen
  rcases Money.applyAll_authorized happly (fun next hnext => hcloses next (mem_money hnext)) hhold
    hopen with hbefore | hinserted
  · exact h periodId period own hold hperiod hvoided hbefore hreference hopen
  · have htaken := List.all_eq_true.mp htakes _ (mem_money hinserted)
    have hfound := voidedReference_of_get hkeyed hperiod hvoided
    simp [takesFor, hreference, hfound] at htaken

theorem Unorphaned.commit (h : Unorphaned books) (hkeyed : books.store.Keyed)
    (hcollects : Collects uow) (hreleases : writes.all (Write.releases books) = true)
    (hcommit : books.commit uow writes = .ok books') : Unorphaned books' := by
  obtain ⟨hcore, hstore, -⟩ := commit_ok hcommit
  obtain ⟨happly, -⟩ := commit_money hcore
  intro periodId period own hold hperiod hvoided hhold hreference hopen
  have hbefore : books.core.money.getAuthorization own = some hold := by
    rcases Money.applyAll_authorized happly
      (fun next hnext => hcollects.closes next (mem_money hnext)) hhold hopen with hold | hinserted
    · exact hold
    · exact absurd (mem_money hinserted) (hcollects.takes _)
  rcases applyAll_voided hkeyed hstore hperiod hvoided with ⟨old, hold, holdVoided⟩ |
    ⟨write, hwrite, hvoids⟩
  · exact h periodId old own _ hold holdVoided hbefore hreference hopen
  · have hreleased := List.all_eq_true.mp hreleases write hwrite
    have hfound := openHold_of_get hbefore hopen
    simp [Write.releases, hvoids, ← hreference, hfound] at hreleased

end Rows

/-- The contract of books whose voided periods hold nothing. -/
def releasing : Contract Books Action Action.Answer where
  told _ _ := True
  owed _ action := ¬Reopening action
  inv books := books.store.Keyed ∧ Unorphaned books
  guar _ _ := True
  guar_refl _ := trivial
  guar_trans _ _ := trivial
  known _ _ _ := True
  known_stable _ _ := trivial

theorem releasing_upheld : Upheld releasing billing requests Releasing where
  call call hcall :=
    ((requests_avoid call hcall).keeps (fun _ _ h => h) []).mono (fun _ _ _ => trivial)
  act := by
    rintro seen action choice answer books books' ⟨hkeyed, hnone⟩ - howed hallowed hperform
    refine ⟨trivial, ?_, trivial, trivial⟩
    rcases perform_cases hperform with rfl | ⟨own, core, answer', rfl, hown, rfl⟩ |
      ⟨uow, writes, rfl, hcommit⟩
    · exact ⟨hkeyed, hnone⟩
    · refine ⟨hkeyed, ?_⟩
      rcases WaslaCore.perform_cases hown with rfl | ⟨entry, rfl, rfl⟩ | ⟨uow, rfl, hcommit⟩
      · exact hnone
      · exact hnone
      · exact hnone.core hkeyed (not_not.mp howed) hallowed hcommit
    · exact ⟨applyAll_keyed hkeyed (commit_ok hcommit).2.1,
        hnone.commit hkeyed (not_not.mp howed) hallowed hcommit⟩
  tick := by
    rintro choice books books' ⟨hkeyed, hnone⟩ htick
    obtain ⟨core, hcore, rfl⟩ := tick_ok htick
    obtain ⟨elapsed, rfl⟩ := WaslaCore.tick_ok hcore
    exact ⟨⟨hkeyed, hnone⟩, trivial⟩

/-- In every run whose commits void no period with an open hold, and take no hold for a
voided one, no voided period holds anybody's money. -/
theorem run_released {now : Int} {plans : Table Plan} {grants : Table PlanGrant}
    {world : World Books Action Action.Answer Thrown Unit}
    (hrun : Run billing requests Releasing
      (World.initial (Books.opened now plans grants)) world) :
    Unorphaned world.store := by
  have hopened : releasing.inv (Books.opened now plans grants) :=
    ⟨Store.keyed_offering plans grants, by rintro periodId period own hold ⟨⟩⟩
  exact (releasing_upheld.run (Kept.initial hopened) hrun).1.inv.2

/-- The process stops before the hold is taken, and the period is voided. -/
def cancelledUncharged : Schedule := walletFunded ++ subscribed ++ cancelDecided 3 ++ committed 3

set_option maxRecDepth 20000 in
theorem run_released_cancelledUncharged :
    ∃ world, play billing (fun seen action books => Releasing seen action books)
        cancelledUncharged (World.initial (Books.opened 0 offered Table.empty)) = some world ∧
      (world.store.store.getPeriod (idOf '5')).map SubscriptionPeriod.status = some .voided ∧
      Unorphaned world.store := by
  have hplays : (play billing (fun seen action books => Releasing seen action books)
      cancelledUncharged (World.initial (Books.opened 0 offered Table.empty))).any (fun world =>
        (world.store.store.getPeriod (idOf '5')).map SubscriptionPeriod.status =
          some .voided) = true := by
    decide +kernel
  obtain ⟨world, hworld, hvoided⟩ := (Option.any_eq_true _ _).mp hplays
  refine ⟨world, hworld, of_decide_eq_true hvoided, ?_⟩
  refine run_released (play_run hworld ?_ (fun _ _ _ h => of_decide_eq_true h))
  simp [cancelledUncharged, walletFunded, subscribed, cancelDecided, committed, acts,
    request_call]

set_option maxRecDepth 20000 in
/-- Without the condition a cancellation between the hold and its settlement orphans the
hold. -/
theorem released_fails : ¬∀ (now : Int) (plans : Table Plan) (grants : Table PlanGrant)
    (world : World Books Action Action.Answer Thrown Unit),
    Run billing requests anything (World.initial (Books.opened now plans grants)) world →
      Unorphaned world.store := by
  intro htrue
  have hplays : (play billing unrestricted cancelledWhileCharging
      (World.initial (Books.opened 0 offered Table.empty))).any (fun world =>
        (world.store.store.getPeriod (idOf '5')).any (fun period =>
          (world.store.core.money.getAuthorization (idOf '6')).any (fun hold =>
            period.status = .voided ∧ hold.status = .authorized ∧
              hold.businessReference = periodChargeReference (idOf '5')))) = true := by
    decide +kernel
  obtain ⟨world, hworld, hrows⟩ := (Option.any_eq_true _ _).mp hplays
  obtain ⟨period, hperiod, hrows⟩ := (Option.any_eq_true _ _).mp hrows
  obtain ⟨hold, hhold, hrows⟩ := (Option.any_eq_true _ _).mp hrows
  obtain ⟨hvoided, hopen, hreference⟩ := of_decide_eq_true hrows
  have hrun : Run billing requests anything
      (World.initial (Books.opened 0 offered Table.empty)) world := by
    apply unrestricted_run hworld
    simp [cancelledWhileCharging, walletFunded, subscribed, holdTaken, cancelDecided, committed,
      acts, request_call]
  exact htrue 0 offered Table.empty world hrun _ period _ hold hperiod hvoided hhold hreference
    hopen

end WaslaCore.Billing
