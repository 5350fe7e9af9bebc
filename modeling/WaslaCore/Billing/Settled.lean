import WaslaCore.Billing.Conduct
import WaslaCore.Money.Holds

/-!
A period is paid exactly where its hold was captured, in every run whose updates
let a settled period stand. A capture is only ever committed with the settlement
of the period its hold belongs to, and the amounts of the two are compared at the
commit; but an update decided from an older row writes over the settlement, and
the captured money stays.
-/

namespace WaslaCore.Billing

open Data Interleaving Platform

/-! ### What a commit does to the periods -/

/-- An update settles its period or finds it unsettled. -/
def Write.spares (store : Store) : Write → Bool
  | .updatePeriod next =>
      (store.getPeriod next.periodId).any (fun stored =>
        stored.status ≠ .settled || next.status = .settled)
  | _ => true

/-- No commit takes a settlement back. -/
def Sparing (_ : Seen) (action : Action) (books : Books) : Prop :=
  match action with
  | .commit _ writes => eachFinds Write.spares books.store writes = true
  | _ => True

instance (seen : Seen) (action : Action) (books : Books) : Decidable (Sparing seen action books) :=
  match action with
  | .commit _ writes =>
      inferInstanceAs (Decidable (eachFinds Write.spares books.store writes = true))
  | .core _ => isTrue trivial
  | .read _ => isTrue trivial

def Write.onPeriod : Write → Bool
  | .insertSubscription _ => false
  | .updateSubscription _ => false
  | .insertPeriod _ => true
  | .updatePeriod _ => true

theorem Wrote.offPeriod {store store' : Store} {write : Write} (h : Wrote store write store')
    (hoff : write.onPeriod = false) : store'.periods = store.periods := by
  cases h with
  | insertedSubscription subscription hnew => rfl
  | missedSubscription next hmissing => rfl
  | updatedSubscription next stored hstored => rfl
  | insertedPeriod period hnew hwritable => cases hoff
  | missedPeriod next hmissing => rfl
  | updatedPeriod next stored hstored hwritable => cases hoff

theorem applyAll_offPeriod {store store' : Store} {writes : List Write} (hkeyed : store.Keyed)
    (h : applyAll store writes = .ok store') (hoff : ∀ write ∈ writes, write.onPeriod = false) :
    store'.periods = store.periods := by
  apply applyAll_wrote (P := fun later => later.periods = store.periods) _ hkeyed h rfl
  intro write hmember before after hwrote hbefore
  exact (hwrote.offPeriod (hoff write hmember)).trans hbefore

/-- What a commit did to the periods. A capture is committed with a settlement or
not at all. -/
inductive Turned (seen : Seen) (uow : Work) (writes : List Write) (store store' : Store) : Prop where
  | kept (hcaptures : captures uow = []) (hperiods : store'.periods = store.periods)
  | opened (period : SubscriptionPeriod) (hcaptures : captures uow = [])
      (hpending : period.status = .pending) (hnew : store.getPeriod period.periodId = none)
      (hshape : assertPeriodShape period = .ok ())
      (hperiods : store'.periods = store.periods.put period.periodId period)
  | closed (stored next : SubscriptionPeriod) (hcaptures : captures uow = [])
      (hstored : store.getPeriod next.periodId = some stored) (hopen : stored.status ≠ .settled)
      (hclosed : next.status ≠ .settled) (hshape : assertPeriodShape (stored.revise next) = .ok ())
      (hperiods : store'.periods = store.periods.put next.periodId (stored.revise next))
  | collected (stored next : SubscriptionPeriod)
      (hcaptures : ∀ moved ∈ captures uow, ∃ own, next.authorizationId = some own ∧
        moved.authorizationId = some own)
      (hheld : ∀ own, next.authorizationId = some own →
        Held seen (periodChargeReference next.periodId) own)
      (hmember : .updatePeriod next ∈ writes)
      (hstored : store.getPeriod next.periodId = some stored) (hsettled : next.status = .settled)
      (hshape : assertPeriodShape (stored.revise next) = .ok ())
      (hperiods : store'.periods = store.periods.put next.periodId (stored.revise next))

/-- An update that spares its period, before writes to other tables. -/
theorem updated_first {store store' : Store} {next : SubscriptionPeriod} {rest : List Write}
    (hkeyed : store.Keyed) (hspares : eachFinds Write.spares store (.updatePeriod next :: rest) = true)
    (hrest : ∀ write ∈ rest, write.onPeriod = false)
    (h : applyAll store (.updatePeriod next :: rest) = .ok store') :
    ∃ stored, store.getPeriod next.periodId = some stored ∧
      (stored.status ≠ .settled ∨ next.status = .settled) ∧
      assertPeriodShape (stored.revise next) = .ok () ∧
      store'.periods = store.periods.put next.periodId (stored.revise next) := by
  obtain ⟨middle, hwrite, hlater⟩ := applyAll_cons h
  have hwrote := apply_wrote hkeyed hwrite
  have hfound := (eachFinds_cons hspares).1
  rw [applyAll_offPeriod (hwrote.keyed hkeyed) hlater hrest]
  cases hwrote with
  | missedPeriod next hmissing => simp [Write.spares, hmissing] at hfound
  | updatedPeriod next stored hstored hwritable =>
      refine ⟨stored, hstored, ?_, hwritable.shape, rfl⟩
      simpa [Write.spares, hstored] using hfound

theorem revival_offPeriod (subscription : Subscription) :
    ∀ write ∈ revival subscription, write.onPeriod = false := by
  unfold revival
  split <;> simp [Write.onPeriod]

theorem lapse_offPeriod (subscription : Subscription) :
    ∀ write ∈ lapse subscription, write.onPeriod = false := by
  unfold lapse
  split <;> simp [Write.onPeriod]

/-- What each operation's commit does to the periods. -/
theorem Staged.turned {seen : Seen} {uow : Work} {writes : List Write} {store store' : Store}
    (h : Staged seen uow writes) (hkeyed : store.Keyed)
    (hspares : eachFinds Write.spares store writes = true)
    (happly : applyAll store writes = .ok store') : Turned seen uow writes store store' := by
  cases h with
  | created subscription plan period hactive hpending =>
      obtain ⟨middle, hfirst, hrest⟩ := applyAll_cons happly
      obtain ⟨final, hsecond, hdone⟩ := applyAll_cons hrest
      obtain rfl := Except.ok.inj hdone
      have hwrote := apply_wrote hkeyed hfirst
      have hsame : middle.periods = store.periods := hwrote.offPeriod rfl
      cases apply_wrote (hwrote.keyed hkeyed) hsecond with
      | insertedPeriod period hnew hwritable =>
          refine .opened period rfl hpending ?_ hwritable.shape ?_
          · rwa [Store.getPeriod, hsame] at hnew
          · rw [← hsame]
  | renewed subscription next hpending =>
      obtain ⟨middle, hfirst, hdone⟩ := applyAll_cons happly
      obtain rfl := Except.ok.inj hdone
      cases apply_wrote hkeyed hfirst with
      | insertedPeriod next hnew hwritable =>
          exact .opened next rfl hpending hnew hwritable.shape rfl
  | settledFree subscription period now =>
      obtain ⟨stored, hstored, -, hshape, hperiods⟩ :=
        updated_first hkeyed hspares (revival_offPeriod subscription) happly
      refine .collected stored _ ?_ ?_ (List.mem_cons_self ..) hstored rfl hshape hperiods
      · rintro moved ⟨⟩
      · rintro own ⟨⟩
  | settled subscription period authorizationId now uow hcaptures hheld =>
      obtain ⟨stored, hstored, -, hshape, hperiods⟩ :=
        updated_first hkeyed hspares (revival_offPeriod subscription) happly
      refine .collected stored _ ?_ ?_ (List.mem_cons_self ..) hstored rfl hshape hperiods
      · intro moved hmoved
        exact ⟨authorizationId, rfl, hcaptures.own moved hmoved⟩
      · rintro own ⟨rfl⟩
        exact hheld
  | uncollectible subscription period reason =>
      obtain ⟨stored, hstored, hfound, hshape, hperiods⟩ :=
        updated_first hkeyed hspares (lapse_offPeriod subscription) happly
      refine .closed stored _ rfl hstored (hfound.resolve_right ?_) ?_ hshape hperiods <;>
        simp [uncollectibleRow]
  | cancelled subscription reason current now =>
      obtain ⟨middle, hfirst, hrest⟩ := applyAll_cons happly
      have hwrote := apply_wrote hkeyed hfirst
      have hsame : middle.periods = store.periods := hwrote.offPeriod rfl
      have hspares' := (eachFinds_cons hspares).2 middle hfirst
      cases hvoided : (voidable current).map voidedRow with
      | none =>
          rw [hvoided] at hrest
          obtain rfl := Except.ok.inj hrest
          exact .kept rfl hsame
      | some voided =>
          have hstatus : voided.status ≠ .settled := by
            obtain ⟨period, -, rfl⟩ := Option.map_eq_some_iff.mp hvoided
            simp [voidedRow]
          rw [hvoided] at hrest hspares'
          obtain ⟨stored, hstored, hfound, hshape, hperiods⟩ :=
            updated_first (hwrote.keyed hkeyed) hspares' (by simp) hrest
          rw [Store.getPeriod, hsame] at hstored
          rw [hsame] at hperiods
          exact .closed stored voided rfl hstored (hfound.resolve_right hstatus) hstatus hshape
            hperiods
  | expired subscription now =>
      exact .kept rfl (applyAll_offPeriod hkeyed happly (by simp [Write.onPeriod]))

/-! ### The invariant -/

/-- Every capture is explained by a settled period and every settled period by the
hold under its own reference, captured for the amount of the period. -/
structure Explained (money : Money.Store) (store : Store) : Prop where
  keyed : store.Keyed
  unique : Money.UniqueReferences money
  shaped : ∀ periodId period, store.getPeriod periodId = some period →
    assertPeriodShape period = .ok ()
  captured : ∀ moved ∈ money.ledger.values, moved.kind = .capture →
    ∃ periodId period own, moved.authorizationId = some own ∧
      store.getPeriod periodId = some period ∧ period.status = .settled ∧
      period.authorizationId = some own
  paid : ∀ periodId period own, store.getPeriod periodId = some period →
    period.status = .settled → period.authorizationId = some own →
    Money.HeldUnder money (periodChargeReference periodId) own ∧
      ∀ row, money.authorizations.get own = some row → row.capturedMinor = period.amountMinor

/-- Settled periods stay settled, by the same hold and for the same amount. -/
def Stands (store store' : Store) : Prop :=
  ∀ periodId period, store.getPeriod periodId = some period → period.status = .settled →
    ∃ period', store'.getPeriod periodId = some period' ∧ period'.status = .settled ∧
      period'.authorizationId = period.authorizationId ∧ period'.amountMinor = period.amountMinor

theorem Stands.refl (store : Store) : Stands store store :=
  fun _ period hperiod hsettled => ⟨period, hperiod, hsettled, rfl, rfl⟩

theorem Stands.trans {first second third : Store} (h : Stands first second)
    (h' : Stands second third) : Stands first third := by
  intro periodId period hperiod hsettled
  obtain ⟨middle, hmiddle, hsettled', hown, hamount⟩ := h periodId period hperiod hsettled
  obtain ⟨last, hlast, hsettled'', hown', hamount'⟩ := h' periodId middle hmiddle hsettled'
  exact ⟨last, hlast, hsettled'', hown'.trans hown, hamount'.trans hamount⟩

/-- A settled period has a hold if and only if money was owed, and none is negative. -/
theorem settled_shape {period : SubscriptionPeriod} (h : assertPeriodShape period = .ok ())
    (hsettled : period.status = .settled) :
    0 ≤ period.amountMinor ∧ (period.amountMinor = 0 ↔ period.authorizationId = none) := by
  unfold assertPeriodShape at h
  split at h
  · cases h
  split at h
  · cases h
  split at h
  · cases h
  rename_i hamount
  split at h
  · cases h
  rename_i hfields
  refine ⟨Int.not_lt.mp hamount, ?_⟩
  by_contra hdiffers
  refine hfields ⟨hsettled, .inr ?_⟩
  simpa using hdiffers

theorem mem_captures {uow : Work} {moved : Money.LedgerTransaction}
    (h : .insertTransaction moved ∈ uow.writes.filterMap WaslaCore.Write.money?)
    (hkind : moved.kind = .capture) : moved ∈ captures uow := by
  obtain ⟨write, hwrite, hmoney⟩ := List.mem_filterMap.mp h
  cases write with
  | money write =>
      obtain rfl := Option.some.inj hmoney
      exact List.mem_filterMap.mpr ⟨_, hwrite, by simp [hkind]⟩
  | fulfillment write => cases hmoney

section Commits

variable {money money' : Money.Store} {store store' : Store} {uow : Work}

/-- A hold the unit of work does not capture keeps its captured amount. -/
theorem captured_kept (hagree : Money.Agreement money) (hagree' : Money.Agreement money')
    (hmoney : Money.applyAll money (uow.writes.filterMap WaslaCore.Write.money?) = .ok money')
    {own : String} (hnone : ∀ moved ∈ captures uow, moved.authorizationId ≠ some own)
    {row row' : Money.PaymentAuthorization} (hrow : money.authorizations.get own = some row)
    (hrow' : money'.authorizations.get own = some row') :
    row'.capturedMinor = row.capturedMinor := by
  rw [hagree'.captured own row' hrow', hagree.captured own row hrow]
  exact Money.applyAll_captured hmoney fun moved hmoved hkind =>
    hnone moved (mem_captures hmoved hkind)

/-- A period settled by a hold the unit of work does not capture stays paid. -/
theorem paid_kept (hagree : Money.Agreement money) (hagree' : Money.Agreement money')
    (hmoney : Money.applyAll money (uow.writes.filterMap WaslaCore.Write.money?) = .ok money')
    {reference own : String} {amount : Int}
    (hnone : ∀ moved ∈ captures uow, moved.authorizationId ≠ some own)
    (h : Money.HeldUnder money reference own ∧
      ∀ row, money.authorizations.get own = some row → row.capturedMinor = amount) :
    Money.HeldUnder money' reference own ∧
      ∀ row, money'.authorizations.get own = some row → row.capturedMinor = amount := by
  obtain ⟨⟨row, hrow, hreference⟩, hamount⟩ := h
  refine ⟨Money.applyAll_heldUnder hmoney ⟨row, hrow, hreference⟩, fun row' hrow' => ?_⟩
  rw [captured_kept hagree hagree' hmoney hnone hrow hrow', hamount row hrow]

/-- A commit that captures nothing and leaves the settled periods as they are. -/
theorem Explained.aside (h : Explained money store) (hagree : Money.Agreement money)
    (hagree' : Money.Agreement money')
    (hmoney : Money.applyAll money (uow.writes.filterMap WaslaCore.Write.money?) = .ok money')
    (hcaptures : captures uow = []) (hkeyed : store'.Keyed)
    (hshaped : ∀ periodId period, store'.getPeriod periodId = some period →
      assertPeriodShape period = .ok ())
    (hsame : ∀ periodId period, period.status = .settled →
      (store'.getPeriod periodId = some period ↔ store.getPeriod periodId = some period)) :
    Explained money' store' ∧ Stands store store' := by
  refine ⟨⟨hkeyed, Money.applyAll_uniqueReferences hmoney h.unique, hshaped, ?_, ?_⟩, ?_⟩
  · intro moved hmoved hkind
    rcases Money.applyAll_ledger hmoney hmoved with hold | hnew
    · obtain ⟨periodId, period, own, hown, hperiod, hsettled, hpays⟩ := h.captured moved hold hkind
      exact ⟨periodId, period, own, hown, (hsame periodId period hsettled).mpr hperiod, hsettled,
        hpays⟩
    · have hcapture := mem_captures hnew hkind
      rw [hcaptures] at hcapture
      cases hcapture
  · intro periodId period own hperiod hsettled hpays
    refine paid_kept hagree hagree' hmoney ?_
      (h.paid periodId period own ((hsame periodId period hsettled).mp hperiod) hsettled hpays)
    rw [hcaptures]
    rintro moved ⟨⟩
  · intro periodId period hperiod hsettled
    exact ⟨period, (hsame periodId period hsettled).mpr hperiod, hsettled, rfl, rfl⟩

section Settling

variable {stored next : SubscriptionPeriod}

theorem getPeriod_of_put (hperiods : store'.periods = store.periods.put next.periodId
    (stored.revise next)) (periodId : String) :
    store'.getPeriod periodId =
      if next.periodId = periodId then some (stored.revise next) else store.getPeriod periodId := by
  rw [Store.getPeriod, hperiods]
  exact Table.get_put _ _ _ _

/-- Settling a settled period again settles it by the same hold. -/
theorem Explained.again (h : Explained money store)
    (hheld : ∀ own, next.authorizationId = some own →
      Money.HeldUnder money (periodChargeReference next.periodId) own)
    (hstored : store.getPeriod next.periodId = some stored) (hsettled : next.status = .settled)
    (hshape : assertPeriodShape (stored.revise next) = .ok ())
    (hbefore : stored.status = .settled) : next.authorizationId = stored.authorizationId := by
  have hold := (settled_shape (h.shaped _ stored hstored) hbefore).2
  have hnew : stored.amountMinor = 0 ↔ next.authorizationId = none :=
    (settled_shape hshape hsettled).2
  cases hpays : stored.authorizationId with
  | none => exact hnew.mp (hold.mpr hpays)
  | some own =>
      cases hnext : next.authorizationId with
      | none =>
          rw [hold.mp (hnew.mpr hnext)] at hpays
          cases hpays
      | some other =>
          have hpaid := (h.paid _ stored own hstored hbefore hpays).1
          rw [h.unique _ other own (hheld other hnext) hpaid]

theorem Explained.stands (h : Explained money store)
    (hheld : ∀ own, next.authorizationId = some own →
      Money.HeldUnder money (periodChargeReference next.periodId) own)
    (hstored : store.getPeriod next.periodId = some stored) (hsettled : next.status = .settled)
    (hshape : assertPeriodShape (stored.revise next) = .ok ())
    (hperiods : store'.periods = store.periods.put next.periodId (stored.revise next)) :
    Stands store store' := by
  intro periodId period hperiod hbefore
  rw [getPeriod_of_put hperiods]
  by_cases hid : next.periodId = periodId
  · subst hid
    rw [hstored] at hperiod
    obtain rfl := Option.some.inj hperiod
    have hsame := h.again hheld hstored hsettled hshape hbefore
    rw [if_pos rfl]
    exact ⟨_, rfl, hsettled, hsame, rfl⟩
  · rw [if_neg hid]
    exact ⟨period, hperiod, hbefore, rfl, rfl⟩

/-- A commit that settles a period with captures of its own hold only. -/
theorem Explained.collect (h : Explained money store) (hagree : Money.Agreement money)
    (hagree' : Money.Agreement money')
    (hmoney : Money.applyAll money (uow.writes.filterMap WaslaCore.Write.money?) = .ok money')
    (hkeyed : store'.Keyed)
    (hcaptures : ∀ moved ∈ captures uow, ∃ own, next.authorizationId = some own ∧
      moved.authorizationId = some own)
    (hheld : ∀ own, next.authorizationId = some own →
      Money.HeldUnder money (periodChargeReference next.periodId) own)
    (hstored : store.getPeriod next.periodId = some stored) (hsettled : next.status = .settled)
    (hshape : assertPeriodShape (stored.revise next) = .ok ())
    (hperiods : store'.periods = store.periods.put next.periodId (stored.revise next))
    (hverified : assertMoneyAgreement money' store' next.periodId = .ok ()) :
    Explained money' store' ∧ Stands store store' := by
  have hget := getPeriod_of_put hperiods
  have hown : store'.getPeriod next.periodId = some (stored.revise next) := by
    rw [hget, if_pos rfl]
  have hstands := h.stands hheld hstored hsettled hshape hperiods
  refine ⟨⟨hkeyed, Money.applyAll_uniqueReferences hmoney h.unique, ?_, ?_, ?_⟩, hstands⟩
  · intro periodId period hperiod
    rw [hget] at hperiod
    split at hperiod
    · rw [← Option.some.inj hperiod]
      exact hshape
    · exact h.shaped periodId period hperiod
  · intro moved hmoved hkind
    rcases Money.applyAll_ledger hmoney hmoved with hold | hnew
    · obtain ⟨periodId, period, own, hmine, hperiod, hbefore, hpays⟩ := h.captured moved hold hkind
      obtain ⟨period', hperiod', hafter, hsame, -⟩ := hstands periodId period hperiod hbefore
      exact ⟨periodId, period', own, hmine, hperiod', hafter, hsame.trans hpays⟩
    · obtain ⟨own, hpays, hmine⟩ := hcaptures moved (mem_captures hnew hkind)
      exact ⟨next.periodId, _, own, hmine, hown, hsettled, hpays⟩
  · intro periodId period own hperiod hafter hpays
    by_cases hid : next.periodId = periodId
    · subst hid
      rw [hown] at hperiod
      obtain rfl := Option.some.inj hperiod
      exact ⟨Money.applyAll_heldUnder hmoney (hheld own hpays),
        fun row hrow => assertMoneyAgreement_ok hverified hown hafter hpays hrow⟩
    · rw [hget, if_neg hid] at hperiod
      have hbefore := h.paid periodId period own hperiod hafter hpays
      refine paid_kept hagree hagree' hmoney ?_ hbefore
      -- a hold belongs to one period, so the captures here are of another hold
      rintro moved hmoved hmine
      obtain ⟨other, hnext, hother⟩ := hcaptures moved hmoved
      rw [hmine] at hother
      obtain rfl := Option.some.inj hother
      exact hid (periodChargeReference_injective
        (Money.HeldUnder.reference_unique (hheld _ hnext) hbefore.1))

end Settling

/-- A commit keeps every capture explained and lets every settled period stand. -/
theorem Explained.commit {seen : Seen} {writes : List Write} (h : Explained money store)
    (hagree : Money.Agreement money) (hagree' : Money.Agreement money')
    (hmoney : Money.applyAll money (uow.writes.filterMap WaslaCore.Write.money?) = .ok money')
    (hkeyed : store'.Keyed) (hturned : Turned seen uow writes store store')
    (hheld : ∀ reference own, Held seen reference own → Money.HeldUnder money reference own)
    (hverified : verifyAll money' store' writes = .ok ()) :
    Explained money' store' ∧ Stands store store' := by
  cases hturned with
  | kept hcaptures hperiods =>
      have hsame : ∀ periodId, store'.getPeriod periodId = store.getPeriod periodId := fun periodId =>
        by rw [Store.getPeriod, hperiods]; rfl
      refine h.aside hagree hagree' hmoney hcaptures hkeyed ?_ ?_
      · intro periodId period hperiod
        rw [hsame] at hperiod
        exact h.shaped periodId period hperiod
      · intro periodId period _
        rw [hsame]
  | opened period hcaptures hpending hnew hshape hperiods =>
      have hget : ∀ periodId, store'.getPeriod periodId =
          if period.periodId = periodId then some period else store.getPeriod periodId := by
        intro periodId
        rw [Store.getPeriod, hperiods]
        exact Table.get_put _ _ _ _
      refine h.aside hagree hagree' hmoney hcaptures hkeyed ?_ ?_
      · intro periodId other hother
        rw [hget] at hother
        split at hother
        · rw [← Option.some.inj hother]
          exact hshape
        · exact h.shaped periodId other hother
      · intro periodId other hsettled
        rw [hget]
        split
        · rename_i hid
          subst hid
          rw [hnew]
          constructor
          · intro heq
            rw [← Option.some.inj heq, hpending] at hsettled
            cases hsettled
          · rintro ⟨⟩
        · exact Iff.rfl
  | closed stored next hcaptures hstored hopen hclosed hshape hperiods =>
      have hget := getPeriod_of_put hperiods
      refine h.aside hagree hagree' hmoney hcaptures hkeyed ?_ ?_
      · intro periodId other hother
        rw [hget] at hother
        split at hother
        · rw [← Option.some.inj hother]
          exact hshape
        · exact h.shaped periodId other hother
      · intro periodId other hsettled
        rw [hget]
        split
        · rename_i hid
          subst hid
          rw [hstored]
          constructor
          · intro heq
            rw [← Option.some.inj heq] at hsettled
            exact absurd hsettled hclosed
          · intro heq
            rw [← Option.some.inj heq] at hsettled
            exact absurd hsettled hopen
        · exact Iff.rfl
  | collected stored next hcaptures hheldIn hmember hstored hsettled hshape hperiods =>
      exact h.collect hagree hagree' hmoney hkeyed hcaptures
        (fun own hpays => hheld _ own (hheldIn own hpays)) hstored hsettled hshape hperiods
        (verifyAll_mem hverified hmember rfl)

end Commits

/-! ### Runs -/

/-- What an answer of the money service goes on telling about a hold. -/
def tellsHold (money : Money.Store) (action : WaslaCore.Action) (answer : action.Answer) : Prop :=
  match action, answer with
  | .read (.findAuthorizationByReference reference), .ok (some row) =>
      Money.HeldUnder money reference (Money.PaymentAuthorization.authorizationId row)
  | .commit uow, .ok () =>
      ∀ row, .insertAuthorization row ∈ uow.writes.filterMap WaslaCore.Write.money? →
        Money.HeldUnder money row.businessReference row.authorizationId
  | _, _ => True

theorem tellsHold_later {money money' : Money.Store} {action : WaslaCore.Action}
    {answer : action.Answer}
    (hlater : ∀ reference own, Money.HeldUnder money reference own →
      Money.HeldUnder money' reference own)
    (h : tellsHold money action answer) : tellsHold money' action answer := by
  cases action with
  | read query =>
      cases query with
      | findAuthorizationByReference reference =>
          cases answer with
          | error error => trivial
          | ok found =>
              revert h
              cases (found : Option Money.PaymentAuthorization) with
              | none => exact fun _ => trivial
              | some row => exact hlater reference row.authorizationId
      | _ => trivial
  | commit uow =>
      cases answer with
      | error error => trivial
      | ok value => exact fun row hrow => hlater _ _ (h row hrow)
  | _ => trivial

theorem perform_tellsHold {action : WaslaCore.Action} {choice : Choice} {answer : action.Answer}
    {db db' : Db} (hagree : Money.Agreement db.money)
    (h : WaslaCore.perform action choice db = some (answer, db')) :
    tellsHold db'.money action answer := by
  cases action with
  | read query =>
      cases query with
      | findAuthorizationByReference reference =>
          cases answer with
          | error error => trivial
          | ok found =>
              have hread := perform_read h
              have hsame : db' = db := by
                rcases WaslaCore.perform_cases h with hsame | ⟨entry, haction, -⟩ | ⟨uow, haction, -⟩
                · exact hsame
                · cases haction
                · cases haction
              rw [hsame]
              revert hread
              cases (found : Option Money.PaymentAuthorization) with
              | none => exact fun _ => trivial
              | some row =>
                  exact fun hread => Money.heldUnder_of_find hagree.keyed hread.symm
      | _ => trivial
  | commit uow =>
      cases answer with
      | error error => trivial
      | ok value =>
          exact fun row hrow => Money.applyAll_inserted (commit_money (perform_committed h)).1 hrow
  | _ => trivial

/-- The contract every call of a sparing run upholds. -/
def settlement : Contract Books Action Action.Answer where
  toDiscipline := bookkeeping
  inv books := Money.Agreement books.core.money ∧ Explained books.core.money books.store
  guar books books' :=
    (∀ reference own, Money.HeldUnder books.core.money reference own →
      Money.HeldUnder books'.core.money reference own) ∧ Stands books.store books'.store
  guar_refl books := ⟨fun _ _ h => h, Stands.refl books.store⟩
  guar_trans h h' := ⟨fun reference own hheld => h'.1 reference own (h.1 reference own hheld),
    h.2.trans h'.2⟩
  known action answer books :=
    match action, answer with
    | .core own, answer => tellsHold books.core.money own answer
    | _, _ => True
  known_stable := by
    intro action answer books books' hguar hknown
    cases action with
    | core own => exact tellsHold_later hguar.1 hknown
    | read query => trivial
    | commit uow writes => trivial

/-- A hold a call was shown or inserted is still under its reference. -/
theorem Held.heldUnder {seen : Seen} {books : Books} {reference own : String}
    (hseen : ∀ entry ∈ seen, settlement.known entry.1 entry.2 books)
    (h : Held seen reference own) : Money.HeldUnder books.core.money reference own := by
  obtain ⟨row, rfl, hshown | ⟨rfl, hinserted⟩⟩ := h
  · exact hseen _ hshown
  · exact hseen _ hinserted row (by simp [Money.stageAuthorize, UnitOfWork.empty,
      WaslaCore.Write.money?])

/-- An action of the services below, on its own, moves no captured money. -/
theorem core_upheld {books : Books} {own : WaslaCore.Action} {choice : Choice}
    {answer : own.Answer} {core : Db} (hinv : settlement.inv books)
    (howed : plainly.owed [] own)
    (h : WaslaCore.perform own choice books.core = some (answer, core)) :
    settlement.inv { books with core := core } ∧
      settlement.guar books { books with core := core } := by
  obtain ⟨hagree, hexplained⟩ := hinv
  rcases WaslaCore.perform_cases h with rfl | ⟨entry, rfl, rfl⟩ | ⟨uow, rfl, hcommit⟩
  · exact ⟨⟨hagree, hexplained⟩, fun _ _ hheld => hheld, Stands.refl books.store⟩
  · exact ⟨⟨hagree, hexplained⟩, fun _ _ hheld => hheld, Stands.refl books.store⟩
  · obtain ⟨happly, hverify⟩ := commit_money hcommit
    have hagree' := hagree.commit happly hverify
    have hplain : Plain uow := howed
    have haside := hexplained.aside hagree hagree' happly hplain.captureless hexplained.keyed
      hexplained.shaped (fun _ _ _ => Iff.rfl)
    exact ⟨⟨hagree', haside.1⟩, fun _ _ hheld => Money.applyAll_heldUnder happly hheld, haside.2⟩

/-- The commit of a subscription call, where it takes no settlement back. -/
theorem commit_upheld {books books' : Books} {uow : Work} {writes : List Write} {seen : Seen}
    (hinv : settlement.inv books)
    (hseen : ∀ entry ∈ seen, settlement.known entry.1 entry.2 books)
    (hstaged : Staged seen uow writes)
    (hspares : eachFinds Write.spares books.store writes = true)
    (h : books.commit uow writes = .ok books') :
    settlement.inv books' ∧ settlement.guar books books' := by
  obtain ⟨hagree, hexplained⟩ := hinv
  obtain ⟨hcore, hstore, hverified⟩ := commit_ok h
  obtain ⟨happly, hverify⟩ := commit_money hcore
  have hagree' := hagree.commit happly hverify
  have hturned := hstaged.turned hexplained.keyed hspares hstore
  have hcommit := hexplained.commit hagree hagree' happly (applyAll_keyed hexplained.keyed hstore)
    hturned (fun _ _ hheld => hheld.heldUnder hseen) hverified
  exact ⟨⟨hagree', hcommit.1⟩, fun _ _ hheld => Money.applyAll_heldUnder happly hheld, hcommit.2⟩

theorem settlement_upheld : Upheld settlement billing requests Sparing where
  call := requests_keep
  act := by
    intro seen action choice answer books books' hinv hseen howed hallowed hperform
    refine ⟨bookkeeping_told hinv.1 hperform, ?_⟩
    cases action with
    | core own =>
        simp only [billing, perform] at hperform
        split at hperform
        · rename_i answer' core hown
          obtain ⟨rfl, rfl⟩ := Prod.mk.inj (Option.some.inj hperform)
          obtain ⟨hinv', hguar⟩ := core_upheld hinv howed hown
          exact ⟨hinv', hguar, perform_tellsHold hinv.1 hown⟩
        · cases hperform
    | read query =>
        rcases perform_cases hperform with rfl | ⟨own, core, answer', haction, -⟩ |
          ⟨uow, writes, haction, -⟩
        · exact ⟨hinv, settlement.guar_refl _, trivial⟩
        · cases haction
        · cases haction
    | commit uow writes =>
        rcases perform_cases hperform with rfl | ⟨own, core, answer', haction, -⟩ |
          ⟨uow', writes', haction, hcommit⟩
        · exact ⟨hinv, settlement.guar_refl _, trivial⟩
        · cases haction
        · obtain ⟨rfl, rfl⟩ := Action.commit.inj haction
          obtain ⟨hinv', hguar⟩ := commit_upheld hinv hseen howed hallowed hcommit
          exact ⟨hinv', hguar, trivial⟩
  tick := by
    rintro choice books books' ⟨hagree, hexplained⟩ htick
    obtain ⟨core, hcore, rfl⟩ := tick_ok htick
    obtain ⟨elapsed, rfl⟩ := WaslaCore.tick_ok hcore
    exact ⟨⟨hagree, hexplained⟩, fun _ _ h => h, Stands.refl books.store⟩

/-- Capture and settlement of every period agree: `hold` is the payment
authorization of the period, the one under its own reference. -/
structure Settlement (books : Books) : Prop where
  hold : ∀ periodId period own, books.store.getPeriod periodId = some period →
    period.status = .settled → period.authorizationId = some own →
    ∃ hold, books.core.money.getAuthorization own = some hold ∧
      hold.businessReference = periodChargeReference periodId
  captured : ∀ periodId period own hold, books.store.getPeriod periodId = some period →
    books.core.money.getAuthorization own = some hold →
    hold.businessReference = periodChargeReference periodId →
    (0 < hold.capturedMinor ↔ period.status = .settled ∧ period.authorizationId = some own)
  amount : ∀ periodId period own hold, books.store.getPeriod periodId = some period →
    books.core.money.getAuthorization own = some hold →
    hold.businessReference = periodChargeReference periodId → 0 < hold.capturedMinor →
    hold.capturedMinor = period.amountMinor

theorem Explained.agrees {books : Books} (hagree : Money.Agreement books.core.money)
    (h : Explained books.core.money books.store) : Settlement books := by
  -- a captured hold settles the one period it belongs to
  have hsettles : ∀ periodId period own hold, books.store.getPeriod periodId = some period →
      books.core.money.getAuthorization own = some hold →
      hold.businessReference = periodChargeReference periodId → 0 < hold.capturedMinor →
      period.status = .settled ∧ period.authorizationId = some own := by
    intro periodId period own hold hperiod hstored hreference hcaptured
    obtain ⟨moved, hmoved, hkind, hmine⟩ := hagree.capture_of_captured hstored hcaptured
    obtain ⟨otherId, other, own', hmine', hother, hsettled, hpays⟩ := h.captured moved hmoved hkind
    rw [hmine] at hmine'
    obtain rfl := Option.some.inj hmine'
    have hown := (h.paid otherId other own hother hsettled hpays).1
    have hsame : otherId = periodId := periodChargeReference_injective
      (Money.HeldUnder.reference_unique hown ⟨hold, hstored, hreference⟩)
    subst hsame
    rw [hperiod] at hother
    obtain rfl := Option.some.inj hother
    exact ⟨hsettled, hpays⟩
  constructor
  · intro periodId period own hperiod hsettled hpays
    exact (h.paid periodId period own hperiod hsettled hpays).1
  · intro periodId period own hold hperiod hstored hreference
    refine ⟨hsettles periodId period own hold hperiod hstored hreference, ?_⟩
    rintro ⟨hsettled, hpays⟩
    rw [(h.paid periodId period own hperiod hsettled hpays).2 hold hstored]
    obtain ⟨hnonneg, hzero⟩ := settled_shape (h.shaped periodId period hperiod) hsettled
    have hne : period.amountMinor ≠ 0 := fun heq => by
      rw [hzero.mp heq] at hpays
      cases hpays
    omega
  · intro periodId period own hold hperiod hstored hreference hcaptured
    obtain ⟨hsettled, hpays⟩ :=
      hsettles periodId period own hold hperiod hstored hreference hcaptured
    exact (h.paid periodId period own hperiod hsettled hpays).2 hold hstored

theorem Explained.opened (now : Int) (plans : Table Plan) (grants : Table PlanGrant) :
    settlement.inv (Books.opened now plans grants) := by
  refine ⟨Money.agreement_empty, Store.keyed_offering plans grants, Money.uniqueReferences_empty,
    ?_, ?_, ?_⟩
  · rintro periodId period ⟨⟩
  · rintro moved ⟨⟩
  · rintro periodId period own ⟨⟩

/-- In every run whose commits take no settlement back, capture and settlement
agree in every state, and what is settled stays settled. -/
theorem run_settled {now : Int} {plans : Table Plan} {grants : Table PlanGrant}
    {world later : World Books Action Action.Answer Thrown Unit}
    (hrun : Run billing requests Sparing (World.initial (Books.opened now plans grants)) world)
    (hlater : Run billing requests Sparing world later) :
    Settlement world.store ∧ Stands world.store.store later.store.store := by
  obtain ⟨hkept, -⟩ := settlement_upheld.run (Kept.initial (Explained.opened now plans grants)) hrun
  obtain ⟨-, hguar⟩ := settlement_upheld.run hkept hlater
  exact ⟨hkept.inv.2.agrees hkept.inv.1, hguar.2⟩

/-- A subscription whose first period is paid. -/
def periodPaid : Schedule := walletFunded ++ subscribed ++ holdTaken 2 ++ settledBy 2

set_option maxRecDepth 20000 in
theorem run_settled_cancelled :
    ∃ world later, play billing (fun seen action books => Sparing seen action books) periodPaid
        (World.initial (Books.opened 0 offered Table.empty)) = some world ∧
      play billing (fun seen action books => Sparing seen action books)
        (cancelDecided 3 ++ committed 3) world = some later ∧
      ((later.store.store.getSubscription (idOf '4')).any
        (fun subscription => subscription.status = .cancelled)) = true ∧
      Settlement world.store ∧ Stands world.store.store later.store.store := by
  have hplays : (play billing (fun seen action books => Sparing seen action books) periodPaid
      (World.initial (Books.opened 0 offered Table.empty))).any (fun world =>
        (play billing (fun seen action books => Sparing seen action books)
          (cancelDecided 3 ++ committed 3) world).any (fun later =>
            (later.store.store.getSubscription (idOf '4')).any
              (fun subscription => subscription.status = .cancelled))) = true := by
    decide +kernel
  obtain ⟨world, hworld, hrest⟩ := (Option.any_eq_true _ _).mp hplays
  obtain ⟨later, hlater, hcancelled⟩ := (Option.any_eq_true _ _).mp hrest
  refine ⟨world, later, hworld, hlater, hcancelled,
    run_settled (play_run hworld ?_ (fun _ _ _ h => of_decide_eq_true h))
      (play_run hlater ?_ (fun _ _ _ h => of_decide_eq_true h))⟩
  · simp [periodPaid, walletFunded, subscribed, holdTaken, settledBy, acts, request_call]
  · simp [cancelDecided, committed, acts, request_call]

/-- A cancellation that read the period before it was settled, and commits after. -/
def settlementOverwritten : Schedule :=
  walletFunded ++ subscribed ++ cancelDecided 3 ++ holdTaken 2 ++ settledBy 2 ++ committed 3

set_option maxRecDepth 20000 in
/-- Without the condition a voided period keeps captured money. -/
theorem settled_fails : ¬∀ (now : Int) (plans : Table Plan) (grants : Table PlanGrant)
    (world : World Books Action Action.Answer Thrown Unit),
    Run billing requests anything (World.initial (Books.opened now plans grants)) world →
      Settlement world.store := by
  intro htrue
  have hplays : (play billing unrestricted settlementOverwritten
      (World.initial (Books.opened 0 offered Table.empty))).any (fun world =>
        (world.store.store.getPeriod (idOf '5')).any (fun period => period.status = .voided) &&
          (world.store.core.money.getAuthorization (idOf '6')).any (fun hold =>
            hold.businessReference = periodChargeReference (idOf '5') ∧
              hold.capturedMinor = 60)) = true := by
    decide +kernel
  obtain ⟨world, hworld, hstate⟩ := (Option.any_eq_true _ _).mp hplays
  obtain ⟨hperiod, hhold⟩ := Bool.and_eq_true_iff.mp hstate
  obtain ⟨period, hperiod, hvoided⟩ := (Option.any_eq_true _ _).mp hperiod
  obtain ⟨hold, hhold, hcaptured⟩ := (Option.any_eq_true _ _).mp hhold
  obtain ⟨hreference, hcaptured⟩ := of_decide_eq_true hcaptured
  have hrun := unrestricted_run hworld (by
    simp [settlementOverwritten, walletFunded, subscribed, holdTaken, settledBy, cancelDecided,
      committed, acts, request_call])
  have hsettles := ((htrue 0 offered Table.empty world hrun).captured _ period _ hold hperiod hhold
    hreference).mp (by omega)
  rw [of_decide_eq_true hvoided] at hsettles
  cases hsettles.1

end WaslaCore.Billing
