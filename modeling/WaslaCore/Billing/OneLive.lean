import WaslaCore.Billing.Stopped

/-!
One live subscription per owner and plan. `subscribe` looks for a live one before it
inserts, and neither store has a rule that would refuse the second of two such inserts;
an update that was decided before a cancellation makes the cancelled row live again.
-/

namespace WaslaCore.Billing

open Data Interleaving Platform

/-- Both were sold to the same owner under the same plan. -/
def Subscription.sameSale (first second : Subscription) : Bool :=
  first.ownerType = second.ownerType && first.ownerId = second.ownerId &&
    first.planId = second.planId

/-- A live subscription to the same plan, other than the row itself. -/
def Store.otherLive (store : Store) (row : Subscription) : Bool :=
  store.subscriptions.values.any (fun other =>
    other.subscriptionId ≠ row.subscriptionId && other.sameSale row && isLive other)

/-- A write that makes a subscription live finds no other live one of its owner and
plan. -/
def Write.exclusive (store : Store) : Write → Bool
  | .insertSubscription subscription => !isLive subscription || !store.otherLive subscription
  | .updateSubscription next =>
      !isLive next || (store.getSubscription next.subscriptionId).all
        (fun stored => !store.otherLive stored)
  | .insertPeriod _ => true
  | .updatePeriod _ => true

/-- No commit makes a second subscription live. -/
def Exclusive (_ : Seen) (action : Action) (books : Books) : Prop :=
  match action with
  | .commit _ writes => eachFinds Write.exclusive books.store writes = true
  | _ => True

instance (seen : Seen) (action : Action) (books : Books) :
    Decidable (Exclusive seen action books) :=
  match action with
  | .commit _ writes =>
      inferInstanceAs (Decidable (eachFinds Write.exclusive books.store writes = true))
  | .core _ => isTrue trivial
  | .read _ => isTrue trivial

/-- At most one subscription of an owner to a plan is live. -/
def OneLive (store : Store) : Prop :=
  ∀ firstId first secondId second, store.getSubscription firstId = some first →
    store.getSubscription secondId = some second → first.sameSale second = true →
    isLive first = true → isLive second = true → firstId = secondId

theorem Subscription.sameSale_symm {first second : Subscription}
    (h : first.sameSale second = true) : second.sameSale first = true := by
  simp only [sameSale, Bool.and_eq_true, decide_eq_true_eq] at h ⊢
  exact ⟨⟨h.1.1.symm, h.1.2.symm⟩, h.2.symm⟩

section Rows

variable {store store' : Store}

theorem otherLive_of_get (hkeyed : store.Keyed) {row other : Subscription} {otherId : String}
    (hother : store.getSubscription otherId = some other) (hne : otherId ≠ row.subscriptionId)
    (hsame : other.sameSale row = true) (hlive : isLive other = true) :
    store.otherLive row = true := by
  have hown := hkeyed.subscriptions otherId other hother
  refine List.any_eq_true.mpr ⟨other, Table.mem_values.mpr ⟨otherId, hother⟩, ?_⟩
  simp [hown, hne, hsame, hlive]

theorem get_of_otherLive (hkeyed : store.Keyed) {row : Subscription}
    (h : store.otherLive row = true) :
    ∃ other, store.getSubscription other.subscriptionId = some other ∧
      other.subscriptionId ≠ row.subscriptionId ∧ other.sameSale row = true ∧
      isLive other = true := by
  obtain ⟨other, hmember, htest⟩ := List.any_eq_true.mp h
  obtain ⟨key, hstored⟩ := Table.mem_values.mp hmember
  have hown := hkeyed.subscriptions key other hstored
  simp only [Bool.and_eq_true, decide_eq_true_eq] at htest
  exact ⟨other, hown ▸ hstored, htest.1.1, htest.1.2, htest.2⟩

/-- The row that is put makes a second live one exactly where it is live and another
one is. -/
theorem oneLive_put (hkeyed : store.Keyed) (h : OneLive store) (row : Subscription) :
    OneLive { store with subscriptions := store.subscriptions.put row.subscriptionId row } ↔
      (!isLive row || !store.otherLive row) = true := by
  constructor
  · intro hafter
    by_contra hboth
    simp only [Bool.or_eq_true, Bool.not_eq_true', not_or, Bool.not_eq_false] at hboth
    obtain ⟨other, hother, hne, hsame, hlive⟩ := get_of_otherLive hkeyed hboth.2
    refine hne (hafter _ other _ row ?_ ?_ hsame hlive hboth.1)
    · rw [Store.getSubscription_put, if_neg (Ne.symm hne), hother]
    · rw [Store.getSubscription_put, if_pos rfl]
  · intro hexclusive firstId first secondId second hfirst hsecond hsame hlive hlive'
    have halone : ∀ otherId other, store.getSubscription otherId = some other →
        other.sameSale row = true → isLive other = true → isLive row = true →
        row.subscriptionId = otherId := by
      intro otherId other hother hsale hother' hrow
      by_contra hne
      have hfound := otherLive_of_get hkeyed hother (Ne.symm hne) hsale hother'
      simp [hrow, hfound] at hexclusive
    rw [Store.getSubscription_put] at hfirst hsecond
    split at hfirst <;> split at hsecond
    · rename_i hid hid'
      exact hid.symm.trans hid'
    · rename_i hid _
      obtain rfl := Option.some.inj hfirst
      exact hid.symm.trans (halone secondId second hsecond (Subscription.sameSale_symm hsame)
        hlive' hlive)
    · rename_i _ hid
      obtain rfl := Option.some.inj hsecond
      exact (hid.symm.trans (halone firstId first hfirst hsame hlive hlive')).symm
    · exact h firstId first secondId second hfirst hsecond hsame hlive hlive'

/-- A write leaves one live subscription exactly where it is exclusive. -/
theorem Wrote.oneLive_iff {write : Write} (hwrote : Wrote store write store')
    (hkeyed : store.Keyed) (h : OneLive store) :
    OneLive store' ↔ write.exclusive store = true := by
  cases hwrote with
  | insertedSubscription subscription hnew => exact oneLive_put hkeyed h subscription
  | missedSubscription next hmissing => simp [Write.exclusive, hmissing, h]
  | updatedSubscription next stored hstored =>
      have hown : (stored.revise next).subscriptionId = next.subscriptionId :=
        hkeyed.subscriptions next.subscriptionId stored hstored
      have hput := oneLive_put hkeyed h (stored.revise next)
      rw [hown] at hput
      rw [hput]
      simp only [Write.exclusive, hstored, Option.all_some]
      exact Iff.rfl
  | insertedPeriod period hnew hwritable => exact iff_of_true h rfl
  | missedPeriod next hmissing => exact iff_of_true h rfl
  | updatedPeriod next stored hstored hwritable => exact iff_of_true h rfl

theorem applyAll_oneLive {writes : List Write} (hkeyed : store.Keyed) (h : OneLive store)
    (hexclusive : eachFinds Write.exclusive store writes = true)
    (happly : applyAll store writes = .ok store') : OneLive store' :=
  applyAll_finds (fun hkept hfirst hwrote hbefore => (hwrote.oneLive_iff hkept hbefore).mpr hfirst)
    hkeyed hexclusive happly h

end Rows

/-! ### Runs -/

/-- `subscribe` up to the commit of a subscription and its first period. -/
def subscribing (index : Nat) (subscriptionId periodId : String) : Schedule :=
  .start (Request.subscribe ⟨.identity, idOf '1', idOf '9', idOf '2', .absent⟩).call ::
    acts index [.proceed, .proceed, .proceed, .proceed, .drawn subscriptionId, .proceed,
      .drawn periodId, .proceed]

/-- The subscription is cancelled before the owner subscribes again. -/
def subscribedAgain : Schedule :=
  walletFunded ++ subscribing 2 (idOf '4') (idOf '5') ++ committed 2 ++ cancelDecided 3 ++
    committed 3 ++ subscribing 4 (idOf '6') (idOf '7') ++ committed 4

/-- Two requests of one owner for one plan, each committed after both looked. -/
def subscribedTwice : Schedule :=
  walletFunded ++ subscribing 2 (idOf '4') (idOf '5') ++ subscribing 3 (idOf '6') (idOf '7') ++
    committed 2 ++ committed 3

end WaslaCore.Billing
