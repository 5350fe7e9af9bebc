import WaslaCore.Billing.Repository
import WaslaCore.Data.Extremes
import WaslaCore.Store

/-!
How long rows have been waiting, by status. The reference repositories keep the least age of a
status, which is that of its newest row; the database answers with the oldest row, to the
nearest second. The two say the same where no status has rows in different seconds of age and
no age is nearer to the next second.
-/

namespace WaslaCore

open Data

section Ages

variable {α κ : Type} [DecidableEq κ] (status : α → κ) (createdAt : α → Int)

/-- Whole seconds, rounded down. -/
def ageSeconds (now : Int) (createdAt : Int) : Int := (now - createdAt) / 1000

/-- `numeric` cast to `bigint`: the nearest whole number of seconds, halves away from zero. -/
def bigintSeconds (milliseconds : Int) : Int :=
  if 0 ≤ milliseconds then (milliseconds + 500) / 1000 else -((500 - milliseconds) / 1000)

/-- `oldestAgeByStatus` over a map: an age replaces the one kept where it is less. -/
def oldestAge (rows : List α) (now : Int) : κ → Option Int :=
  rows.foldl (keepLeast status fun row => ageSeconds now (createdAt row)) (fun _ => none)

/-- `select distinct on (status) status, extract(epoch from ($1 - created_at))::bigint … order by
status, created_at asc`. -/
def selectOldestAge (rows : List α) (now : Int) : κ → Option Int := fun group =>
  ((rows.filter fun row => status row = group).insertionSort fun first second =>
    createdAt first ≤ createdAt second).head?.map fun row => bigintSeconds (now - createdAt row)

/-- The age is not nearer to the next whole second. -/
def RoundsDown (milliseconds : Int) : Prop :=
  if 0 ≤ milliseconds then milliseconds % 1000 < 500 else milliseconds % 1000 ≤ 500

/-- The rows of a status are in one second of age, and none is nearer to the next. -/
structure EvenAges (rows : List α) (now : Int) : Prop where
  level : ∀ row ∈ rows, ∀ row' ∈ rows, status row = status row' →
    ageSeconds now (createdAt row) = ageSeconds now (createdAt row')
  down : ∀ row ∈ rows, RoundsDown (now - createdAt row)

variable {status createdAt}

theorem bigintSeconds_ge (milliseconds : Int) : milliseconds / 1000 ≤ bigintSeconds milliseconds := by
  unfold bigintSeconds
  split <;> omega

theorem bigintSeconds_eq_iff {milliseconds : Int} :
    bigintSeconds milliseconds = milliseconds / 1000 ↔ RoundsDown milliseconds := by
  unfold bigintSeconds RoundsDown
  split <;> omega

/-- Within a second, what is younger rounds down if the older does. -/
theorem RoundsDown.younger {older younger : Int} (h : RoundsDown older)
    (hsecond : younger / 1000 = older / 1000) (hle : younger ≤ older) : RoundsDown younger := by
  unfold RoundsDown at h ⊢
  split at h <;> split <;> omega

theorem oldestAge_eq (rows : List α) (now : Int) (group : κ) :
    oldestAge status createdAt rows now group =
      ((rows.filter fun row => status row = group).map fun row =>
        ageSeconds now (createdAt row)).min? :=
  foldl_keepLeast status _ rows group

theorem selectOldestAge_eq (rows : List α) (now : Int) (group : κ) :
    selectOldestAge status createdAt rows now group =
      (((rows.filter fun row => status row = group).map createdAt).min?).map fun oldest =>
        bigintSeconds (now - oldest) := by
  rw [← head_insertionSort, Option.map_map]
  rfl

/-- What either answer is for a status that has rows. -/
theorem ages_of_rows (createdAt : α → Int) (now : Int) {rows : List α} {group : κ} {row : α}
    (hrow : row ∈ rows) (hgroup : status row = group) :
    ∃ newest ∈ rows, ∃ oldest ∈ rows, status newest = group ∧ status oldest = group ∧
      oldestAge status createdAt rows now group = some (ageSeconds now (createdAt newest)) ∧
      selectOldestAge status createdAt rows now group =
        some (bigintSeconds (now - createdAt oldest)) ∧
      ∀ other ∈ rows, status other = group →
        ageSeconds now (createdAt newest) ≤ ageSeconds now (createdAt other) ∧
          createdAt oldest ≤ createdAt other := by
  have hmember : row ∈ rows.filter fun row => status row = group :=
    List.mem_filter.mpr ⟨hrow, decide_eq_true hgroup⟩
  have hothers : ∀ other ∈ rows, status other = group →
      other ∈ rows.filter fun row => status row = group := fun other hother hsame =>
    List.mem_filter.mpr ⟨hother, decide_eq_true hsame⟩
  cases hages : ((rows.filter fun row => status row = group).map fun row =>
      ageSeconds now (createdAt row)).min? with
  | none =>
      rw [List.min?_eq_none_iff, List.map_eq_nil_iff] at hages
      rw [hages] at hmember
      cases hmember
  | some age =>
      cases hinstants : ((rows.filter fun row => status row = group).map createdAt).min? with
      | none =>
          rw [List.min?_eq_none_iff, List.map_eq_nil_iff] at hinstants
          rw [hinstants] at hmember
          cases hmember
      | some instant =>
          obtain ⟨hage, hyoungest⟩ := List.min?_eq_some_iff.mp hages
          obtain ⟨hinstant, hearliest⟩ := List.min?_eq_some_iff.mp hinstants
          obtain ⟨newest, hnewest, rfl⟩ := List.mem_map.mp hage
          obtain ⟨oldest, holdest, rfl⟩ := List.mem_map.mp hinstant
          obtain ⟨hnewest, hnewestStatus⟩ := List.mem_filter.mp hnewest
          obtain ⟨holdest, holdestStatus⟩ := List.mem_filter.mp holdest
          refine ⟨newest, hnewest, oldest, holdest, of_decide_eq_true hnewestStatus,
            of_decide_eq_true holdestStatus, ?_, ?_, fun other hother hsame => ?_⟩
          · rw [oldestAge_eq, hages]
          · rw [selectOldestAge_eq, hinstants]
            rfl
          · have hlisted := hothers other hother hsame
            exact ⟨hyoungest _ (List.mem_map_of_mem hlisted),
              hearliest _ (List.mem_map_of_mem hlisted)⟩

/-- Where the answers for a status are the same, its rows are in the second of the oldest one,
which rounds down. -/
theorem ages_level {rows : List α} {now : Int} {group : κ}
    (h : oldestAge status createdAt rows now group = selectOldestAge status createdAt rows now group)
    {row : α} (hrow : row ∈ rows) (hgroup : status row = group) :
    ∃ second, (∀ other ∈ rows, status other = group → ageSeconds now (createdAt other) = second) ∧
      RoundsDown (now - createdAt row) := by
  obtain ⟨newest, -, oldest, holdest, -, holdestGroup, hages, hselected, hbounds⟩ :=
    ages_of_rows createdAt now hrow hgroup
  rw [hages, hselected, Option.some.injEq] at h
  have hrounded := bigintSeconds_ge (now - createdAt oldest)
  have hlevel : ∀ other ∈ rows, status other = group →
      ageSeconds now (createdAt other) = ageSeconds now (createdAt newest) := by
    intro other hother hsame
    obtain ⟨hnewest, hearlier⟩ := hbounds other hother hsame
    unfold ageSeconds at *
    omega
  refine ⟨ageSeconds now (createdAt newest), hlevel, ?_⟩
  have hfirst := hlevel oldest holdest holdestGroup
  have hsecond := hlevel row hrow hgroup
  have hearlier := (hbounds row hrow hgroup).2
  unfold ageSeconds at h hfirst hsecond
  have hdown : RoundsDown (now - createdAt oldest) := bigintSeconds_eq_iff.mp (by omega)
  exact hdown.younger (by omega) (by omega)

/-- The two answers are the same for every status exactly where the ages are even. -/
theorem oldestAge_eq_iff (rows : List α) (now : Int) :
    (∀ group, oldestAge status createdAt rows now group =
      selectOldestAge status createdAt rows now group) ↔ EvenAges status createdAt rows now := by
  constructor
  · intro h
    refine ⟨fun row hrow row' hrow' hsame => ?_, fun row hrow => ?_⟩
    · obtain ⟨second, hlevel, -⟩ := ages_level (h (status row)) hrow rfl
      rw [hlevel row hrow rfl, hlevel row' hrow' hsame.symm]
    · obtain ⟨second, -, hdown⟩ := ages_level (h (status row)) hrow rfl
      exact hdown
  · intro heven group
    by_cases hsome : ∃ row ∈ rows, status row = group
    · obtain ⟨row, hrow, hgroup⟩ := hsome
      obtain ⟨newest, hnewest, oldest, holdest, hnewestGroup, holdestGroup, hages, hselected, -⟩ :=
        ages_of_rows createdAt now hrow hgroup
      rw [hages, hselected, bigintSeconds_eq_iff.mpr (heven.down oldest holdest)]
      have hlevel := heven.level newest hnewest oldest holdest
        (hnewestGroup.trans holdestGroup.symm)
      rw [hlevel]
      rfl
    · have hnone : (rows.filter fun row => status row = group) = [] := by
        apply List.filter_eq_nil_iff.mpr
        intro row hrow hgroup
        exact hsome ⟨row, hrow, of_decide_eq_true hgroup⟩
      rw [oldestAge_eq, selectOldestAge_eq, hnone]
      rfl

end Ages

/-! ### The repositories -/

namespace Fulfillment

def Store.oldestAgeByStatus (store : Store) (now : Int) : FulfillmentStatus → Option Int :=
  oldestAge Fulfillment.status Fulfillment.createdAt store.rows.values now

def Store.pgOldestAgeByStatus (store : Store) (now : Int) : FulfillmentStatus → Option Int :=
  selectOldestAge Fulfillment.status Fulfillment.createdAt store.rows.values now

end Fulfillment

namespace Money

def Store.oldestWalletAgeByStatus (store : Store) (now : Int) : WalletStatus → Option Int :=
  oldestAge Wallet.status Wallet.createdAt store.wallets.values now

def Store.pgOldestWalletAgeByStatus (store : Store) (now : Int) : WalletStatus → Option Int :=
  selectOldestAge Wallet.status Wallet.createdAt store.wallets.values now

def Store.oldestAuthorizationAgeByStatus (store : Store) (now : Int) :
    AuthorizationStatus → Option Int :=
  oldestAge PaymentAuthorization.status PaymentAuthorization.createdAt store.authorizations.values
    now

def Store.pgOldestAuthorizationAgeByStatus (store : Store) (now : Int) :
    AuthorizationStatus → Option Int :=
  selectOldestAge PaymentAuthorization.status PaymentAuthorization.createdAt
    store.authorizations.values now

end Money

namespace Billing

def Store.oldestAgeByStatus (store : Store) (now : Int) : SubscriptionStatus → Option Int :=
  oldestAge Subscription.status Subscription.createdAt store.subscriptions.values now

def Store.pgOldestAgeByStatus (store : Store) (now : Int) : SubscriptionStatus → Option Int :=
  selectOldestAge Subscription.status Subscription.createdAt store.subscriptions.values now

end Billing

section Sampled

variable (fulfillments : Fulfillment.Store) (money : Money.Store) (billing : Billing.Store)
  (now : Int)

/-- Every age metric is the same on both backends. -/
structure AgesAgree : Prop where
  fulfillments : ∀ status,
    fulfillments.oldestAgeByStatus now status = fulfillments.pgOldestAgeByStatus now status
  wallets : ∀ status,
    money.oldestWalletAgeByStatus now status = money.pgOldestWalletAgeByStatus now status
  authorizations : ∀ status, money.oldestAuthorizationAgeByStatus now status =
    money.pgOldestAuthorizationAgeByStatus now status
  subscriptions : ∀ status,
    billing.oldestAgeByStatus now status = billing.pgOldestAgeByStatus now status

/-- No table has a status with rows in different seconds of age, or an age nearer to the next
second. -/
structure AgesEven : Prop where
  fulfillments : EvenAges Fulfillment.Fulfillment.status Fulfillment.Fulfillment.createdAt
    fulfillments.rows.values now
  wallets : EvenAges Money.Wallet.status Money.Wallet.createdAt money.wallets.values now
  authorizations : EvenAges Money.PaymentAuthorization.status Money.PaymentAuthorization.createdAt
    money.authorizations.values now
  subscriptions : EvenAges Billing.Subscription.status Billing.Subscription.createdAt
    billing.subscriptions.values now

/-- The age metrics agree across the backends exactly where the ages are even. -/
theorem agesAgree_iff :
    AgesAgree fulfillments money billing now ↔ AgesEven fulfillments money billing now := by
  constructor
  · intro h
    exact ⟨(oldestAge_eq_iff _ now).mp h.fulfillments, (oldestAge_eq_iff _ now).mp h.wallets,
      (oldestAge_eq_iff _ now).mp h.authorizations, (oldestAge_eq_iff _ now).mp h.subscriptions⟩
  · intro h
    exact ⟨(oldestAge_eq_iff _ now).mpr h.fulfillments, (oldestAge_eq_iff _ now).mpr h.wallets,
      (oldestAge_eq_iff _ now).mpr h.authorizations, (oldestAge_eq_iff _ now).mpr h.subscriptions⟩

end Sampled

/-- Two wallets, the second opened five seconds after the first. -/
def walletsOpened : Money.Store :=
  ⟨(Table.empty.put "w-1" ⟨"w-1", .identity, "i-1", "EUR", .active, 0⟩).put "w-2"
    ⟨"w-2", .identity, "i-2", "EUR", .active, 5000⟩, Table.empty, Table.empty⟩

/-- Ten seconds on, the oldest wallet is ten seconds old, and the reference answers five. -/
theorem oldestWalletAge_newest :
    walletsOpened.oldestWalletAgeByStatus 10000 .active = some 5 ∧
      walletsOpened.pgOldestWalletAgeByStatus 10000 .active = some 10 := by
  decide

theorem agesAgree_fails :
    ¬∀ (fulfillments : Fulfillment.Store) (money : Money.Store) (billing : Billing.Store)
      (now : Int), AgesAgree fulfillments money billing now := by
  intro hclaim
  have hsame := (hclaim .empty walletsOpened (.offering Table.empty Table.empty) 10000).wallets
    .active
  rw [oldestWalletAge_newest.1, oldestWalletAge_newest.2] at hsame
  cases hsame

end WaslaCore
