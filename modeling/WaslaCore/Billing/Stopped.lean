import WaslaCore.Billing.Settled

/-!
A cancelled subscription is over where every commit that would charge, renew or
revive one finds it running. Nothing in the code makes such a commit conditional
on the subscription, and a charge never looks at its status at all, so a call that
read the rows before the cancellation, or a retry of an old period after it, goes on
to collect.
-/

namespace WaslaCore.Billing

open Data Interleaving Platform

/-! ### Commits that find the subscription running -/

def Subscription.isStopped (subscription : Subscription) : Bool :=
  subscription.status = .cancelled || subscription.status = .expired

/-- The stored subscription was cancelled, and may have expired since. -/
def Store.stopped (store : Store) (subscriptionId : String) : Bool :=
  (store.getSubscription subscriptionId).any Subscription.isStopped

/-- A write that puts a subscription in a running status, adds a period to it or
pays one of its unpaid periods finds the subscription not stopped. -/
def Write.heeds (store : Store) : Write → Bool
  | .insertSubscription _ => true
  | .updateSubscription next => next.isStopped || !store.stopped next.subscriptionId
  | .insertPeriod period => !store.stopped period.subscriptionId
  | .updatePeriod next =>
      next.authorizationId.isNone || (store.getPeriod next.periodId).all (fun stored =>
        stored.authorizationId.isSome || !store.stopped stored.subscriptionId)

/-- No commit charges, renews or revives a subscription that is stopped. -/
def Heeding (_ : Seen) (action : Action) (books : Books) : Prop :=
  match action with
  | .commit _ writes => eachFinds Write.heeds books.store writes = true
  | _ => True

instance (seen : Seen) (action : Action) (books : Books) : Decidable (Heeding seen action books) :=
  match action with
  | .commit _ writes =>
      inferInstanceAs (Decidable (eachFinds Write.heeds books.store writes = true))
  | .core _ => isTrue trivial
  | .read _ => isTrue trivial

/-! ### What the rows of a stopped subscription keep -/

/-- The subscription stays stopped, gets no period it did not have, and its unpaid
periods stay unpaid. -/
structure Halted (subscriptionId : String) (store store' : Store) : Prop where
  stopped : store'.stopped subscriptionId = true
  opened : ∀ periodId period', store'.getPeriod periodId = some period' →
    period'.subscriptionId = subscriptionId →
    ∃ period, store.getPeriod periodId = some period ∧ period.subscriptionId = subscriptionId
  unpaid : ∀ periodId period, store.getPeriod periodId = some period →
    period.subscriptionId = subscriptionId → period.authorizationId = none →
    ∃ period', store'.getPeriod periodId = some period' ∧
      period'.subscriptionId = subscriptionId ∧ period'.authorizationId = none

section Rows

variable {subscriptionId : String} {store store' : Store}

theorem Halted.refl (h : store.stopped subscriptionId = true) :
    Halted subscriptionId store store where
  stopped := h
  opened _ period hperiod hmine := ⟨period, hperiod, hmine⟩
  unpaid _ period hperiod hmine hunpaid := ⟨period, hperiod, hmine, hunpaid⟩

theorem Halted.trans {last : Store} (h : Halted subscriptionId store store')
    (h' : Halted subscriptionId store' last) : Halted subscriptionId store last where
  stopped := h'.stopped
  opened periodId period hperiod hmine := by
    obtain ⟨middle, hmiddle, hmine'⟩ := h'.opened periodId period hperiod hmine
    exact h.opened periodId middle hmiddle hmine'
  unpaid periodId period hperiod hmine hunpaid := by
    obtain ⟨middle, hmiddle, hmine', hunpaid'⟩ := h.unpaid periodId period hperiod hmine hunpaid
    exact h'.unpaid periodId middle hmiddle hmine' hunpaid'

/-- A write that touches no period halts where the subscription stays stopped. -/
theorem Halted.of_periods (hperiods : store'.periods = store.periods)
    (h : store'.stopped subscriptionId = true) : Halted subscriptionId store store' := by
  have hsame : ∀ periodId, store'.getPeriod periodId = store.getPeriod periodId := fun periodId =>
    by rw [Store.getPeriod, hperiods]; rfl
  refine ⟨h, fun periodId period hperiod hmine => ?_, fun periodId period hperiod hmine hunpaid => ?_⟩
  · exact ⟨period, by rwa [hsame] at hperiod, hmine⟩
  · exact ⟨period, by rwa [hsame], hmine, hunpaid⟩

theorem Wrote.halted {write : Write} (h : Wrote store write store')
    (hheeds : write.heeds store = true) (hstopped : store.stopped subscriptionId = true) :
    Halted subscriptionId store store' := by
  cases h with
  | insertedSubscription subscription hnew =>
      refine .of_periods rfl ?_
      rw [Store.stopped, Store.getSubscription_put]
      split
      · rename_i hid
        subst hid
        simp [Store.stopped, hnew] at hstopped
      · exact hstopped
  | missedSubscription next hmissing => exact .refl hstopped
  | updatedSubscription next stored hstored =>
      refine .of_periods rfl ?_
      rw [Store.stopped, Store.getSubscription_put]
      split
      · rename_i hid
        subst hid
        have hnext : next.isStopped = true := by simpa [Write.heeds, hstopped] using hheeds
        exact hnext
      · exact hstopped
  | insertedPeriod period hnew hwritable =>
      have hother : period.subscriptionId ≠ subscriptionId := by
        rintro rfl
        simp [Write.heeds, hstopped] at hheeds
      refine ⟨hstopped, fun periodId period' hperiod hmine => ?_,
        fun periodId period' hperiod hmine hunpaid => ?_⟩
      · rw [Store.getPeriod_put] at hperiod
        split at hperiod
        · obtain rfl := Option.some.inj hperiod
          exact absurd hmine hother
        · exact ⟨period', hperiod, hmine⟩
      · rw [Store.getPeriod_put]
        split
        · rename_i hid
          subst hid
          rw [hnew] at hperiod
          cases hperiod
        · exact ⟨period', hperiod, hmine, hunpaid⟩
  | missedPeriod next hmissing => exact .refl hstopped
  | updatedPeriod next stored hstored hwritable =>
      refine ⟨hstopped, fun periodId period' hperiod hmine => ?_,
        fun periodId period' hperiod hmine hunpaid => ?_⟩
      · rw [Store.getPeriod_put] at hperiod
        split at hperiod
        · rename_i hid
          subst hid
          obtain rfl := Option.some.inj hperiod
          exact ⟨stored, hstored, hmine⟩
        · exact ⟨period', hperiod, hmine⟩
      · rw [Store.getPeriod_put]
        split
        · rename_i hid
          subst hid
          rw [hstored] at hperiod
          obtain rfl := Option.some.inj hperiod
          have hnext : next.authorizationId = none := by
            simpa [Write.heeds, hstored, hunpaid, hmine, hstopped] using hheeds
          exact ⟨_, rfl, hmine, hnext⟩
        · exact ⟨period', hperiod, hmine, hunpaid⟩

theorem applyAll_halted {writes : List Write} (hkeyed : store.Keyed)
    (hheeds : eachFinds Write.heeds store writes = true)
    (hstopped : store.stopped subscriptionId = true) (h : applyAll store writes = .ok store') :
    Halted subscriptionId store store' := by
  apply applyAll_finds (P := Halted subscriptionId store) _ hkeyed hheeds h (.refl hstopped)
  intro write before after _ hfirst hwrote hbefore
  exact hbefore.trans (hwrote.halted hfirst hbefore.stopped)

end Rows

/-! ### The money behind the periods -/

/-- Every stored period has the shape its table asks for. -/
def Store.Shaped (store : Store) : Prop :=
  ∀ periodId period, store.getPeriod periodId = some period → assertPeriodShape period = .ok ()

theorem Wrote.shaped {store store' : Store} {write : Write} (h : Wrote store write store')
    (hshaped : store.Shaped) : store'.Shaped := by
  intro periodId period hperiod
  cases h with
  | insertedSubscription subscription hnew => exact hshaped periodId period hperiod
  | missedSubscription next hmissing => exact hshaped periodId period hperiod
  | updatedSubscription next stored hstored => exact hshaped periodId period hperiod
  | insertedPeriod added hnew hwritable =>
      rw [Store.getPeriod_put] at hperiod
      split at hperiod
      · rw [← Option.some.inj hperiod]
        exact hwritable.shape
      · exact hshaped periodId period hperiod
  | missedPeriod next hmissing => exact hshaped periodId period hperiod
  | updatedPeriod next stored hstored hwritable =>
      rw [Store.getPeriod_put] at hperiod
      split at hperiod
      · rw [← Option.some.inj hperiod]
        exact hwritable.shape
      · exact hshaped periodId period hperiod

theorem applyAll_shaped {store store' : Store} {writes : List Write} (hkeyed : store.Keyed)
    (hshaped : store.Shaped) (h : applyAll store writes = .ok store') : store'.Shaped :=
  applyAll_wrote (fun _ _ _ _ hwrote hbefore => hwrote.shaped hbefore) hkeyed h hshaped

/-- Only a settled period names a hold. -/
theorem unsettled_shape {period : SubscriptionPeriod} (h : assertPeriodShape period = .ok ())
    (hopen : period.status ≠ .settled) : period.authorizationId = none := by
  unfold assertPeriodShape at h
  split at h
  · cases h
  split at h
  · cases h
  split at h
  · cases h
  split at h
  · cases h
  split at h
  · cases h
  split at h
  · cases h
  rename_i hfields
  by_contra hnamed
  exact hfields ⟨hopen, hnamed⟩

/-- A capture is committed with the settlement of the period its hold is for. -/
theorem Staged.captured {seen : Seen} {uow : Work} {writes : List Write}
    (h : Staged seen uow writes) {moved : Money.LedgerTransaction} (hmoved : moved ∈ captures uow) :
    ∃ next rest own, writes = .updatePeriod next :: rest ∧ next.authorizationId = some own ∧
      moved.authorizationId = some own ∧ Held seen (periodChargeReference next.periodId) own := by
  cases h with
  | settled subscription period authorizationId now uow hcaptures hheld =>
      exact ⟨_, _, authorizationId, rfl, rfl, hcaptures.own moved hmoved, hheld⟩
  | created subscription plan period hactive hpending => cases hmoved
  | renewed subscription next hpending => cases hmoved
  | settledFree subscription period now => cases hmoved
  | uncollectible subscription period reason => cases hmoved
  | cancelled subscription reason current now => cases hmoved
  | expired subscription now => cases hmoved

/-- What was captured by a hold changed for another period than this one only. -/
def Uncharged (periodId : String) (money money' : Money.Store) : Prop :=
  ∀ own, money'.ledgerCaptured own = money.ledgerCaptured own ∨
    ∃ other, other ≠ periodId ∧ Money.HeldUnder money' (periodChargeReference other) own

/-- From here on nothing is collected for the subscription. -/
structure Over (subscriptionId : String) (books books' : Books) : Prop where
  halted : Halted subscriptionId books.store books'.store
  uncharged : ∀ periodId period, books.store.getPeriod periodId = some period →
    period.subscriptionId = subscriptionId → period.authorizationId = none →
    Uncharged periodId books.core.money books'.core.money

/-- Holds keep their reference, and what is over stays over. -/
structure Onward (books books' : Books) : Prop where
  held : ∀ reference own, Money.HeldUnder books.core.money reference own →
    Money.HeldUnder books'.core.money reference own
  halted : ∀ subscriptionId, books.store.stopped subscriptionId = true →
    Over subscriptionId books books'

theorem Onward.refl (books : Books) : Onward books books where
  held _ _ h := h
  halted _ h := ⟨.refl h, fun _ _ _ _ _ _ => .inl rfl⟩

theorem Onward.trans {first second third : Books} (h : Onward first second)
    (h' : Onward second third) : Onward first third where
  held reference own hheld := h'.held reference own (h.held reference own hheld)
  halted subscriptionId hstopped := by
    have hfirst := h.halted subscriptionId hstopped
    have hsecond := h'.halted subscriptionId hfirst.halted.stopped
    refine ⟨hfirst.halted.trans hsecond.halted, fun periodId period hperiod hmine hunpaid own => ?_⟩
    obtain ⟨middle, hmiddle, hmine', hunpaid'⟩ :=
      hfirst.halted.unpaid periodId period hperiod hmine hunpaid
    rcases hsecond.uncharged periodId middle hmiddle hmine' hunpaid' own with hsame | hother
    · rcases hfirst.uncharged periodId period hperiod hmine hunpaid own with hsame' | hother
      · exact .inl (hsame.trans hsame')
      · obtain ⟨other, hne, hheld⟩ := hother
        exact .inr ⟨other, hne, h'.held _ own hheld⟩
    · exact .inr hother

/-- Ledger and holds agree, rows stand under their own identifiers and are well
shaped. -/
structure Sound (books : Books) : Prop where
  agreement : Money.Agreement books.core.money
  keyed : books.store.Keyed
  shaped : books.store.Shaped

/-- A commit of the services below captures nothing. -/
theorem onward_plain {books : Books} {core : Db} {uow : Work} (hplain : Plain uow)
    (happly : Money.applyAll books.core.money (uow.writes.filterMap WaslaCore.Write.money?) =
      .ok core.money) : Onward books { books with core := core } where
  held _ _ hheld := Money.applyAll_heldUnder happly hheld
  halted subscriptionId hstopped := by
    refine ⟨.refl hstopped, fun periodId period _ _ _ own => .inl ?_⟩
    refine Money.applyAll_captured happly fun moved hmoved hkind => ?_
    have hcapture := mem_captures hmoved hkind
    rw [hplain.captureless] at hcapture
    cases hcapture

/-- A commit of a subscription call that heeds the cancellations. -/
theorem onward_commit {books books' : Books} {uow : Work} {writes : List Write} {seen : Seen}
    (hsound : Sound books)
    (hheld : ∀ reference own, Held seen reference own →
      Money.HeldUnder books.core.money reference own)
    (hstaged : Staged seen uow writes) (hheeds : eachFinds Write.heeds books.store writes = true)
    (h : books.commit uow writes = .ok books') : Onward books books' := by
  obtain ⟨hcore, hstore, -⟩ := commit_ok h
  obtain ⟨happly, -⟩ := commit_money hcore
  refine ⟨fun _ _ hunder => Money.applyAll_heldUnder happly hunder, fun subscriptionId hstopped => ?_⟩
  refine ⟨applyAll_halted hsound.keyed hheeds hstopped hstore,
    fun periodId period hperiod hmine hunpaid own => ?_⟩
  by_cases hcaptured : ∃ moved ∈ captures uow, moved.authorizationId = some own
  · -- the period the capture settles is not one of the stopped subscription
    right
    obtain ⟨moved, hmoved, hown⟩ := hcaptured
    obtain ⟨next, rest, own', rfl, hpays, hown', hbefore⟩ := hstaged.captured hmoved
    rw [hown] at hown'
    obtain rfl := Option.some.inj hown'
    refine ⟨next.periodId, ?_, Money.applyAll_heldUnder happly (hheld _ own hbefore)⟩
    rintro rfl
    have hfound := (eachFinds_cons hheeds).1
    simp [Write.heeds, hpays, hperiod, hunpaid, hmine, hstopped] at hfound
  · left
    refine Money.applyAll_captured happly fun moved hmoved hkind hown => hcaptured ?_
    exact ⟨moved, mem_captures hmoved hkind, hown⟩

/-! ### Runs -/

theorem Sound.core {books : Books} {own : Db} {uow : Work} (h : Sound books)
    (hcommit : books.core.commit uow = .ok own) : Sound { books with core := own } where
  agreement := h.agreement.commit (commit_money hcommit).1 (commit_money hcommit).2
  keyed := h.keyed
  shaped := h.shaped

theorem Sound.commit {books books' : Books} {uow : Work} {writes : List Write} (h : Sound books)
    (hcommit : books.commit uow writes = .ok books') : Sound books' := by
  obtain ⟨hcore, hstore, -⟩ := commit_ok hcommit
  obtain ⟨happly, hverify⟩ := commit_money hcore
  exact ⟨h.agreement.commit happly hverify, applyAll_keyed h.keyed hstore,
    applyAll_shaped h.keyed h.shaped hstore⟩

/-- A guarantee from state to state under which holds keep their reference. -/
structure Guaranteed (guar : Books → Books → Prop) : Prop where
  refl : ∀ books, guar books books
  trans : ∀ {first second third}, guar first second → guar second third → guar first third
  held : ∀ {books books'}, guar books books' → ∀ reference own,
    Money.HeldUnder books.core.money reference own →
      Money.HeldUnder books'.core.money reference own

/-- The contract of sound books with one guarantee. -/
def booksContract (guar : Books → Books → Prop) (h : Guaranteed guar) :
    Contract Books Action Action.Answer where
  toDiscipline := bookkeeping
  inv := Sound
  guar := guar
  guar_refl := h.refl
  guar_trans := h.trans
  known := settlement.known
  known_stable := by
    intro action answer books books' hguar hknown
    cases action with
    | core own => exact tellsHold_later (h.held hguar) hknown
    | read query => trivial
    | commit uow writes => trivial

/-- A guarantee is upheld where the commits give it: a money commit that captures
nothing, and a commit a subscription call stages. -/
theorem booksContract_upheld {guar : Books → Books → Prop} {h : Guaranteed guar}
    {allowed : Seen → Action → Books → Prop}
    (hquiet : ∀ books core, core.money = books.core.money →
      guar books { books with core := core })
    (hplain : ∀ books core uow, Sound books → Plain uow → books.core.commit uow = .ok core →
      guar books { books with core := core })
    (hcommit : ∀ books books' seen uow writes, Sound books →
      (∀ reference own, Held seen reference own →
        Money.HeldUnder books.core.money reference own) →
      Staged seen uow writes → allowed seen (.commit uow writes) books →
      books.commit uow writes = .ok books' → guar books books') :
    Upheld (booksContract guar h) billing requests allowed where
  call := requests_keep
  act := by
    intro seen action choice answer books books' hsound hseen howed hallowed hperform
    have htold := bookkeeping_told hsound.agreement hperform
    cases action with
    | core own =>
        simp only [billing, perform] at hperform
        split at hperform
        · rename_i answer' core hown
          obtain ⟨rfl, rfl⟩ := Prod.mk.inj (Option.some.inj hperform)
          refine ⟨htold, ?_, ?_, perform_tellsHold hsound.agreement hown⟩ <;>
            rcases WaslaCore.perform_cases hown with rfl | ⟨entry, rfl, rfl⟩ | ⟨uow, rfl, hdone⟩
          · exact hsound
          · exact ⟨hsound.agreement, hsound.keyed, hsound.shaped⟩
          · exact hsound.core hdone
          · exact h.refl books
          · exact hquiet books _ rfl
          · exact hplain books core uow hsound howed hdone
        · cases hperform
    | read query =>
        rcases perform_cases hperform with rfl | ⟨own, core, answer', haction, -⟩ |
          ⟨uow, writes, haction, -⟩
        · exact ⟨htold, hsound, h.refl _, trivial⟩
        · cases haction
        · cases haction
    | commit uow writes =>
        rcases perform_cases hperform with rfl | ⟨own, core, answer', haction, -⟩ |
          ⟨uow', writes', haction, hdone⟩
        · exact ⟨htold, hsound, h.refl _, trivial⟩
        · cases haction
        · obtain ⟨rfl, rfl⟩ := Action.commit.inj haction
          have hheld : ∀ reference own, Held seen reference own →
              Money.HeldUnder books.core.money reference own :=
            fun _ _ hheld => hheld.heldUnder hseen
          exact ⟨htold, hsound.commit hdone,
            hcommit books books' seen uow writes hsound hheld howed hallowed hdone, trivial⟩
  tick := by
    rintro choice books books' hsound htick
    obtain ⟨core, hcore, rfl⟩ := tick_ok htick
    obtain ⟨elapsed, rfl⟩ := WaslaCore.tick_ok hcore
    exact ⟨⟨hsound.agreement, hsound.keyed, hsound.shaped⟩, hquiet books _ rfl⟩

/-- Holds keep their reference. -/
def HoldsKept (books books' : Books) : Prop :=
  ∀ reference own, Money.HeldUnder books.core.money reference own →
    Money.HeldUnder books'.core.money reference own

theorem holdsKept_guaranteed : Guaranteed HoldsKept where
  refl _ _ _ h := h
  trans h h' reference own hheld := h' reference own (h reference own hheld)
  held h := h

/-- What every run keeps, whatever its commits find. -/
def bookkept : Contract Books Action Action.Answer := booksContract HoldsKept holdsKept_guaranteed

theorem bookkept_upheld : Upheld bookkept billing requests anything := by
  refine booksContract_upheld ?_ ?_ ?_
  · intro books core hmoney reference own hheld
    rwa [hmoney]
  · intro books core uow _ _ hdone reference own hheld
    exact Money.applyAll_heldUnder (commit_money hdone).1 hheld
  · intro books books' seen uow writes _ _ _ _ hdone reference own hheld
    exact Money.applyAll_heldUnder (commit_money (commit_ok hdone).1).1 hheld

theorem onward_guaranteed : Guaranteed Onward := ⟨Onward.refl, Onward.trans, fun h => h.held⟩

/-- What a run keeps whose commits heed the cancellations. -/
def heeding : Contract Books Action Action.Answer := booksContract Onward onward_guaranteed

theorem heeding_upheld : Upheld heeding billing requests Heeding := by
  refine booksContract_upheld ?_ ?_ ?_
  · intro books core hmoney
    refine ⟨fun reference own hheld => by rwa [hmoney], fun subscriptionId hstopped => ?_⟩
    refine ⟨.refl hstopped, fun periodId period _ _ _ own => .inl ?_⟩
    simp only [Money.Store.ledgerCaptured, hmoney]
  · intro books core uow _ hplain hdone
    exact onward_plain hplain (commit_money hdone).1
  · intro books books' seen uow writes hsound hheld hstaged hallowed hdone
    exact onward_commit hsound hheld hstaged hallowed hdone

theorem Sound.opened (now : Int) (plans : Table Plan) (grants : Table PlanGrant) :
    Sound (Books.opened now plans grants) where
  agreement := Money.agreement_empty
  keyed := Store.keyed_offering plans grants
  shaped := by rintro periodId period ⟨⟩

/-- Between the two states the subscription stopped for good: it runs no more, has
no period it did not have, and nothing was captured by the hold of a period that was
not settled. -/
structure Ended (subscriptionId : String) (books books' : Books) : Prop where
  status : ∃ row, books'.store.getSubscription subscriptionId = some row ∧
    row.status ≠ .active ∧ row.status ≠ .pastDue
  periods : ∀ periodId period, books'.store.getPeriod periodId = some period →
    period.subscriptionId = subscriptionId →
    ∃ earlier, books.store.getPeriod periodId = some earlier
  money : ∀ periodId period own hold, books.store.getPeriod periodId = some period →
    period.subscriptionId = subscriptionId → period.status ≠ .settled →
    books'.core.money.getAuthorization own = some hold →
    hold.businessReference = periodChargeReference periodId →
    books'.core.money.ledgerCaptured own = books.core.money.ledgerCaptured own

theorem Over.ended {subscriptionId : String} {books books' : Books}
    (h : Over subscriptionId books books') (hsound : Sound books) :
    Ended subscriptionId books books' where
  status := by
    obtain ⟨row, hrow, hends⟩ := (Option.any_eq_true _ _).mp h.halted.stopped
    refine ⟨row, hrow, ?_⟩
    revert hends
    cases hstatus : row.status <;> simp [Subscription.isStopped, hstatus]
  periods periodId period hperiod hmine := by
    obtain ⟨earlier, hearlier, -⟩ := h.halted.opened periodId period hperiod hmine
    exact ⟨earlier, hearlier⟩
  money := by
    intro periodId period own hold hperiod hmine hopen hhold hreference
    have hunpaid := unsettled_shape (hsound.shaped periodId period hperiod) hopen
    rcases h.uncharged periodId period hperiod hmine hunpaid own with hsame | hother
    · exact hsame
    · obtain ⟨other, hne, hheld⟩ := hother
      exact absurd (periodChargeReference_injective
        (Money.HeldUnder.reference_unique hheld ⟨hold, hhold, hreference⟩)) hne

/-- Once a subscription reads cancelled it has ended, in every run that goes on from
there with commits that heed the cancellations. -/
theorem run_stopped {now : Int} {plans : Table Plan} {grants : Table PlanGrant}
    {world later : World Books Action Action.Answer Thrown Unit} {subscriptionId : String}
    {subscription : Subscription}
    (hrun : Run billing requests anything (World.initial (Books.opened now plans grants)) world)
    (hsubscription : world.store.store.getSubscription subscriptionId = some subscription)
    (hcancelled : subscription.status = .cancelled)
    (hlater : Run billing requests Heeding world later) :
    Ended subscriptionId world.store later.store := by
  obtain ⟨hkept, -⟩ := bookkept_upheld.run (Kept.initial (Sound.opened now plans grants)) hrun
  have hready : Kept heeding world := ⟨hkept.orderly, hkept.inv, hkept.known⟩
  obtain ⟨-, honward⟩ := heeding_upheld.run hready hlater
  have hstopped : world.store.store.stopped subscriptionId = true := by
    simp [Store.stopped, hsubscription, Subscription.isStopped, hcancelled]
  exact (Onward.halted honward subscriptionId hstopped).ended hkept.inv

/-- A paid subscription is cancelled. -/
def paidThenCancelled : Schedule := periodPaid ++ cancelDecided 3 ++ committed 3

/-- After the paid period a sweep finds the subscription cancelled, and expires it. -/
def sweptAfterwards : Schedule :=
  .tick (.elapsed 3456000000) :: .start Request.renewDuePeriods.call ::
    acts 4 [.proceed, .proceed, .proceed, .proceed, .proceed]

set_option maxRecDepth 20000 in
theorem run_stopped_expired :
    ∃ world later subscription, play billing unrestricted paidThenCancelled
        (World.initial (Books.opened 0 offered Table.empty)) = some world ∧
      play billing (fun seen action books => Heeding seen action books) sweptAfterwards world =
        some later ∧
      world.store.store.getSubscription (idOf '4') = some subscription ∧
      subscription.status = .cancelled ∧
      Ended (idOf '4') world.store later.store := by
  have hplays : (play billing unrestricted paidThenCancelled
      (World.initial (Books.opened 0 offered Table.empty))).any (fun world =>
        (play billing (fun seen action books => Heeding seen action books) sweptAfterwards
          world).any (fun later =>
            (later.store.store.getSubscription (idOf '4')).any (fun row => row.status = .expired)) &&
          (world.store.store.getSubscription (idOf '4')).any
            (fun subscription => subscription.status = .cancelled)) = true := by
    decide +kernel
  obtain ⟨world, hworld, hstate⟩ := (Option.any_eq_true _ _).mp hplays
  obtain ⟨hrest, hstate⟩ := Bool.and_eq_true_iff.mp hstate
  obtain ⟨later, hlater, -⟩ := (Option.any_eq_true _ _).mp hrest
  obtain ⟨subscription, hsubscription, hcancelled⟩ := (Option.any_eq_true _ _).mp hstate
  refine ⟨world, later, subscription, hworld, hlater, hsubscription,
    of_decide_eq_true hcancelled, ?_⟩
  refine run_stopped (unrestricted_run hworld ?_) hsubscription (of_decide_eq_true hcancelled)
    (play_run hlater ?_ (fun _ _ _ h => of_decide_eq_true h))
  · simp [paidThenCancelled, periodPaid, walletFunded, subscribed, holdTaken, settledBy,
      cancelDecided, committed, acts, request_call]
  · simp [sweptAfterwards, acts, request_call]

/-- A charge that holds the money of the first period when the cancellation
commits. -/
def cancelledWhileCharging : Schedule :=
  walletFunded ++ subscribed ++ holdTaken 2 ++ cancelDecided 3 ++ committed 3

set_option maxRecDepth 20000 in
/-- Without the condition the period is paid for after the cancellation. -/
theorem stopped_fails : ¬∀ (now : Int) (plans : Table Plan) (grants : Table PlanGrant)
    (world later : World Books Action Action.Answer Thrown Unit) (subscriptionId : String)
    (subscription : Subscription),
    Run billing requests anything (World.initial (Books.opened now plans grants)) world →
    world.store.store.getSubscription subscriptionId = some subscription →
    subscription.status = .cancelled →
    Run billing requests anything world later →
    Ended subscriptionId world.store later.store := by
  intro htrue
  have hplays : (play billing unrestricted cancelledWhileCharging
      (World.initial (Books.opened 0 offered Table.empty))).any (fun world =>
        (play billing unrestricted (settledBy 2) world).any (fun later =>
          (later.store.core.money.getAuthorization (idOf '6')).any (fun hold =>
            hold.businessReference = periodChargeReference (idOf '5') &&
              later.store.core.money.ledgerCaptured (idOf '6') = 60)) &&
          ((world.store.store.getSubscription (idOf '4')).any
            (fun subscription => subscription.status = .cancelled) &&
          ((world.store.store.getPeriod (idOf '5')).any (fun period =>
            period.subscriptionId = idOf '4' && period.status = .voided) &&
          decide (world.store.core.money.ledgerCaptured (idOf '6') = 0)))) = true := by
    decide +kernel
  obtain ⟨world, hworld, hstate⟩ := (Option.any_eq_true _ _).mp hplays
  obtain ⟨hrest, hstate⟩ := Bool.and_eq_true_iff.mp hstate
  obtain ⟨later, hlater, hcharged⟩ := (Option.any_eq_true _ _).mp hrest
  obtain ⟨hold, hhold, hcharged⟩ := (Option.any_eq_true _ _).mp hcharged
  obtain ⟨hreference, hafter⟩ := Bool.and_eq_true_iff.mp hcharged
  obtain ⟨hsubscription, hstate⟩ := Bool.and_eq_true_iff.mp hstate
  obtain ⟨subscription, hsubscription, hcancelled⟩ := (Option.any_eq_true _ _).mp hsubscription
  obtain ⟨hperiod, hbefore⟩ := Bool.and_eq_true_iff.mp hstate
  obtain ⟨period, hperiod, hvoided⟩ := (Option.any_eq_true _ _).mp hperiod
  obtain ⟨hmine, hvoided⟩ := Bool.and_eq_true_iff.mp hvoided
  have hended := htrue 0 offered Table.empty world later (idOf '4') subscription
    (unrestricted_run hworld (by
      simp [cancelledWhileCharging, walletFunded, subscribed, holdTaken, cancelDecided, committed,
        acts, request_call]))
    hsubscription (of_decide_eq_true hcancelled)
    (unrestricted_run hlater (by simp [settledBy, acts]))
  have hsame := hended.money (idOf '5') period (idOf '6') hold hperiod (of_decide_eq_true hmine)
    (by rw [of_decide_eq_true hvoided]; decide) hhold (of_decide_eq_true hreference)
  rw [of_decide_eq_true hafter, of_decide_eq_true hbefore] at hsame
  cases hsame

end WaslaCore.Billing
