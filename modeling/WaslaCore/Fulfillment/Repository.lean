import WaslaCore.Data.Table
import WaslaCore.Fulfillment.Domain

/-!
The fulfillment store. A transition is a conditional write: the store compares
the status it holds as part of the write, and a caller that lost learns it while
its transaction can still be abandoned.
-/

namespace WaslaCore.Fulfillment

open WaslaCore.Data WaslaCore.Platform

structure Store where
  rows : Table Fulfillment

def Store.empty : Store := ⟨Table.empty⟩

/-- Whether a conditional write changed the row or found it already moved. -/
inductive ConditionalWrite where
  | applied (store : Store)
  | stale

namespace Store

def get (store : Store) (fulfillmentId : String) : Option Fulfillment :=
  store.rows.get fulfillmentId

def findByOrderReference (store : Store) (orderReference : String) : Option Fulfillment :=
  store.rows.values.find? (fun item => item.marketOrderReference = orderReference)

/-- `fulfillment_move_job_reference_key`: one MOVE job traces one fulfillment. -/
def jobReferenceTaken (store : Store) (row : Fulfillment) : Bool :=
  row.moveJobReference.isSome &&
    store.rows.values.any (fun existing =>
      existing.fulfillmentId ≠ row.fulfillmentId &&
        existing.moveJobReference = row.moveJobReference)

/-- A checked write of one row. -/
def putRow (store : Store) (key : String) (row : Fulfillment) : Except String Store :=
  match assertRow row with
  | .error message => .error message
  | .ok () =>
      if store.jobReferenceTaken row then
        .error "duplicate key value violates unique constraint \"fulfillment_move_job_reference_key\""
      else .ok ⟨store.rows.put key row⟩

end Store

/-- The stored row with every mutable column of `next`. -/
def reviseRow (stored next : Fulfillment) : Fulfillment :=
  { stored with
    moveJobReference := next.moveJobReference
    paymentAuthorizationId := next.paymentAuthorizationId
    status := next.status
    settlementState := next.settlementState
    completedAt := next.completedAt
    closureReason := next.closureReason
    executedAfterCancellationAt := next.executedAfterCancellationAt
    executedAfterCancellationJobReference := next.executedAfterCancellationJobReference }

/-- The columns B-29's marker writes, and no other. -/
def markRow (stored : Fulfillment) (executedAt : Int) (jobReference : String) :
    Fulfillment :=
  { stored with
    executedAfterCancellationAt := some executedAt
    executedAfterCancellationJobReference := some jobReference }

namespace Store

/-- `insert … on conflict do nothing`: stale when any unique column is taken. -/
def insertIfAbsent (store : Store) (row : Fulfillment) : Except String ConditionalWrite :=
  match assertRow row with
  | .error message => .error message
  | .ok () =>
      if (store.get row.fulfillmentId).isSome ||
          (store.findByOrderReference row.marketOrderReference).isSome ||
          store.jobReferenceTaken row then
        .ok .stale
      else .ok (.applied ⟨store.rows.put row.fulfillmentId row⟩)

/-- Unconditional: it records information without moving the lifecycle. -/
def update (store : Store) (next : Fulfillment) : Except String Store :=
  match store.get next.fulfillmentId with
  | none => .ok store
  | some stored => store.putRow next.fulfillmentId (reviseRow stored next)

/-- Update only while the stored status is one of `expected`. -/
def updateIfStatusIn (store : Store) (next : Fulfillment) (expected : List FulfillmentStatus) :
    Except String ConditionalWrite :=
  match store.get next.fulfillmentId with
  | none => .ok .stale
  | some stored =>
      if stored.status ∈ expected then
        match store.putRow next.fulfillmentId (reviseRow stored next) with
        | .ok store' => .ok (.applied store')
        | .error message => .error message
      else .ok .stale

/-- Only a cancelled row can hold the marker, and only the first report writes it. -/
def markExecutedAfterCancellation (store : Store) (fulfillmentId : String) (executedAt : Int)
    (jobReference : String) : Except String ConditionalWrite :=
  match store.get fulfillmentId with
  | none => .ok .stale
  | some stored =>
      if stored.status = .cancelled ∧ stored.executedAfterCancellationAt = none then
        match store.putRow fulfillmentId (markRow stored executedAt jobReference) with
        | .ok store' => .ok (.applied store')
        | .error message => .error message
      else .ok .stale

end Store

/-- A staged write, with the signal its closure throws on `stale`. -/
inductive Write where
  | intake (fulfillment : Fulfillment)
  | transition (next : Fulfillment) (expected : List FulfillmentStatus)
  | update (next : Fulfillment)
  | mark (fulfillmentId : String) (executedAt : Int) (jobReference : String)

/-- A store's refusal as the exception it reaches the caller as. -/
def thrown : Except String ConditionalWrite → Thrown → Except Thrown Store
  | .ok (.applied store), _ => .ok store
  | .ok .stale, signal => .error signal
  | .error message, _ => .error (.other message)

def Write.apply (store : Store) : Write → Except Thrown Store
  | .intake fulfillment =>
      thrown (store.insertIfAbsent fulfillment) (.intakeLost fulfillment.marketOrderReference)
  | .transition next expected =>
      thrown (store.updateIfStatusIn next expected) (.transitionLost next.fulfillmentId)
  | .update next =>
      match store.update next with
      | .ok store' => .ok store'
      | .error message => .error (.other message)
  | .mark fulfillmentId executedAt jobReference =>
      thrown (store.markExecutedAfterCancellation fulfillmentId executedAt jobReference)
        (.transitionLost fulfillmentId)

/-! ### What a write that goes through did -/

/-- One row was put under its key, past the checks of the table, and nothing
else changed. -/
structure Placed (store store' : Store) (key : String) (row : Fulfillment) : Prop where
  passes : assertRow row = .ok ()
  free : store.jobReferenceTaken row = false
  rows : store'.rows = store.rows.put key row

section Inversion

variable {store store' : Store}

namespace Placed

variable {key : String} {row : Fulfillment}

theorem get_self (h : Placed store store' key row) : store'.get key = some row := by
  rw [Store.get, h.rows, Table.get_put_self]

theorem get_ne (h : Placed store store' key row) {id : String} (hid : key ≠ id) :
    store'.get id = store.get id := by
  rw [Store.get, h.rows, Table.get_put_ne _ _ hid]
  rfl

/-- A row of the store after is the one put or one of the store before. -/
theorem get_cases (h : Placed store store' key row) {id : String} {found : Fulfillment}
    (hfound : store'.get id = some found) :
    (id = key ∧ found = row) ∨ (id ≠ key ∧ store.get id = some found) := by
  by_cases hid : key = id
  · subst hid
    rw [h.get_self] at hfound
    exact .inl ⟨rfl, (Option.some.inj hfound).symm⟩
  · rw [h.get_ne hid] at hfound
    exact .inr ⟨fun heq => hid heq.symm, hfound⟩

end Placed

theorem putRow_ok {key : String} {row : Fulfillment} (h : store.putRow key row = .ok store') :
    Placed store store' key row := by
  unfold Store.putRow at h
  split at h
  · cases h
  rename_i hrow
  split at h
  · cases h
  rename_i hfree
  obtain rfl := Except.ok.inj h
  exact ⟨hrow, by simpa using hfree, rfl⟩

/-- A guarded write that went through found its guard true and wrote one row. -/
theorem intake_ok {fulfillment : Fulfillment}
    (h : (Write.intake fulfillment).apply store = .ok store') :
    store.get fulfillment.fulfillmentId = none ∧
      store.findByOrderReference fulfillment.marketOrderReference = none ∧
      Placed store store' fulfillment.fulfillmentId fulfillment := by
  simp only [Write.apply, Store.insertIfAbsent] at h
  cases hrow : assertRow fulfillment with
  | error message =>
      rw [hrow] at h
      cases h
  | ok checked =>
      rw [hrow] at h
      dsimp only at h
      split at h
      · cases h
      rename_i hfree
      obtain rfl := Except.ok.inj h
      simp only [Bool.or_eq_true, not_or, Bool.not_eq_true, Option.isSome_eq_false_iff,
        Option.isNone_iff_eq_none] at hfree
      exact ⟨hfree.1.1, hfree.1.2, ⟨hrow, hfree.2, rfl⟩⟩

/-- Only an intake is lost as one. -/
theorem lost_intake {write : Write} {orderReference : String}
    (h : write.apply store = .error (.intakeLost orderReference)) :
    ∃ row, write = .intake row ∧ row.marketOrderReference = orderReference := by
  have hthrown : ∀ {result : Except String ConditionalWrite} {signal : Thrown},
      thrown result signal = .error (.intakeLost orderReference) →
        signal = .intakeLost orderReference := by
    intro result signal hlost
    cases result with
    | error message => cases hlost
    | ok done =>
        cases done with
        | applied store => cases hlost
        | stale => exact Except.error.inj hlost
  cases write with
  | intake fulfillment => exact ⟨fulfillment, rfl, Thrown.intakeLost.inj (hthrown h)⟩
  | transition next expected => cases hthrown h
  | update next =>
      simp only [Write.apply] at h
      split at h <;> cases h
  | mark fulfillmentId executedAt jobReference => cases hthrown h

theorem transition_ok {next : Fulfillment} {expected : List FulfillmentStatus}
    (h : (Write.transition next expected).apply store = .ok store') :
    ∃ stored, store.get next.fulfillmentId = some stored ∧ stored.status ∈ expected ∧
      Placed store store' next.fulfillmentId (reviseRow stored next) := by
  simp only [Write.apply, Store.updateIfStatusIn] at h
  cases hstored : store.get next.fulfillmentId with
  | none =>
      rw [hstored] at h
      cases h
  | some stored =>
      rw [hstored] at h
      dsimp only at h
      split at h
      · rename_i hexpected
        cases hput : store.putRow next.fulfillmentId (reviseRow stored next) with
        | error message =>
            rw [hput] at h
            cases h
        | ok after =>
            rw [hput] at h
            obtain rfl := Except.ok.inj h
            exact ⟨stored, rfl, hexpected, putRow_ok hput⟩
      · cases h

theorem update_ok {next : Fulfillment} (h : (Write.update next).apply store = .ok store') :
    (store.get next.fulfillmentId = none ∧ store' = store) ∨
      ∃ stored, store.get next.fulfillmentId = some stored ∧
        Placed store store' next.fulfillmentId (reviseRow stored next) := by
  simp only [Write.apply, Store.update] at h
  cases hstored : store.get next.fulfillmentId with
  | none =>
      rw [hstored] at h
      exact .inl ⟨rfl, (Except.ok.inj h).symm⟩
  | some stored =>
      rw [hstored] at h
      dsimp only at h
      cases hput : store.putRow next.fulfillmentId (reviseRow stored next) with
      | error message =>
          rw [hput] at h
          cases h
      | ok after =>
          rw [hput] at h
          obtain rfl := Except.ok.inj h
          exact .inr ⟨stored, rfl, putRow_ok hput⟩

theorem mark_ok {fulfillmentId jobReference : String} {executedAt : Int}
    (h : (Write.mark fulfillmentId executedAt jobReference).apply store = .ok store') :
    ∃ stored, store.get fulfillmentId = some stored ∧ stored.status = .cancelled ∧
      stored.executedAfterCancellationAt = none ∧
      Placed store store' fulfillmentId (markRow stored executedAt jobReference) := by
  simp only [Write.apply, Store.markExecutedAfterCancellation] at h
  cases hstored : store.get fulfillmentId with
  | none =>
      rw [hstored] at h
      cases h
  | some stored =>
      rw [hstored] at h
      dsimp only at h
      split at h
      · rename_i hmarkable
        cases hput : store.putRow fulfillmentId (markRow stored executedAt jobReference) with
        | error message =>
            rw [hput] at h
            cases h
        | ok after =>
            rw [hput] at h
            obtain rfl := Except.ok.inj h
            exact ⟨stored, rfl, hmarkable.1, hmarkable.2, putRow_ok hput⟩
      · cases h

end Inversion

/-! ### What the table upholds -/

/-- Every row is under its key and passes its checks; no order and no job has two
rows. -/
structure Ruled (store : Store) : Prop where
  keyed : ∀ id row, store.get id = some row → row.fulfillmentId = id
  passes : ∀ id row, store.get id = some row → assertRow row = .ok ()
  orders : ∀ id id' row row', store.get id = some row → store.get id' = some row' →
    row.marketOrderReference = row'.marketOrderReference → id = id'
  jobs : ∀ id id' row row' job, store.get id = some row → store.get id' = some row' →
    row.moveJobReference = some job → row'.moveJobReference = some job → id = id'

namespace Ruled

variable {store store' : Store}

theorem empty : Ruled Store.empty :=
  ⟨by rintro id row ⟨⟩, by rintro id row ⟨⟩, by rintro id id' row row' ⟨⟩,
    by rintro id id' row row' job ⟨⟩⟩

/-- The job of a row that was put belongs to no other stored row. -/
theorem job_free (h : Ruled store) {key id job : String} {row found : Fulfillment}
    (hplaced : Placed store store' key row) (hkey : row.fulfillmentId = key)
    (hjob : row.moveJobReference = some job) (hfound : store.get id = some found)
    (hsame : found.moveJobReference = some job) : id = key := by
  by_contra hid
  have hfree := hplaced.free
  simp only [Store.jobReferenceTaken, hjob, Option.isSome_some, Bool.true_and,
    List.any_eq_false] at hfree
  refine hfree found (Table.mem_values.mpr ⟨id, hfound⟩) ?_
  simp [hsame, h.keyed id found hfound, hkey, hid]

theorem placed (h : Ruled store) {key : String} {row : Fulfillment}
    (hplaced : Placed store store' key row) (hkey : row.fulfillmentId = key)
    (horder : ∀ id found, store.get id = some found →
      found.marketOrderReference = row.marketOrderReference → id = key) : Ruled store' := by
  constructor
  · intro id found hfound
    rcases hplaced.get_cases hfound with ⟨rfl, rfl⟩ | ⟨-, hold⟩
    · exact hkey
    · exact h.keyed id found hold
  · intro id found hfound
    rcases hplaced.get_cases hfound with ⟨rfl, rfl⟩ | ⟨-, hold⟩
    · exact hplaced.passes
    · exact h.passes id found hold
  · intro id id' found found' hfound hfound' hsame
    rcases hplaced.get_cases hfound with ⟨rfl, rfl⟩ | ⟨-, hold⟩ <;>
      rcases hplaced.get_cases hfound' with ⟨rfl, rfl⟩ | ⟨-, hold'⟩
    · rfl
    · exact (horder id' found' hold' hsame.symm).symm
    · exact horder id found hold hsame
    · exact h.orders id id' found found' hold hold' hsame
  · intro id id' found found' job hfound hfound' hjob hjob'
    rcases hplaced.get_cases hfound with ⟨rfl, rfl⟩ | ⟨-, hold⟩ <;>
      rcases hplaced.get_cases hfound' with ⟨rfl, rfl⟩ | ⟨-, hold'⟩
    · rfl
    · exact (h.job_free hplaced hkey hjob hold' hjob').symm
    · exact h.job_free hplaced hkey hjob' hold hjob
    · exact h.jobs id id' found found' job hold hold' hjob hjob'

/-- A row written over the one that is stored keeps that one's order. -/
theorem replaced (h : Ruled store) {key : String} {stored row : Fulfillment}
    (hplaced : Placed store store' key row) (hstored : store.get key = some stored)
    (hid : row.fulfillmentId = stored.fulfillmentId)
    (horder : row.marketOrderReference = stored.marketOrderReference) : Ruled store' := by
  refine h.placed hplaced (hid.trans (h.keyed key stored hstored)) (fun id found hfound hsame => ?_)
  exact h.orders id key found stored hfound hstored (hsame.trans horder)

theorem write (h : Ruled store) {write : Write} (hwrite : write.apply store = .ok store') :
    Ruled store' := by
  cases write with
  | intake fulfillment =>
      obtain ⟨-, hfree, hplaced⟩ := intake_ok hwrite
      refine h.placed hplaced rfl (fun id found hfound hsame => ?_)
      have hnone := List.find?_eq_none.mp hfree found (Table.mem_values.mpr ⟨id, hfound⟩)
      exact absurd (by simpa using hsame) hnone
  | transition next expected =>
      obtain ⟨stored, hstored, -, hplaced⟩ := transition_ok hwrite
      exact h.replaced hplaced hstored rfl rfl
  | update next =>
      rcases update_ok hwrite with ⟨-, rfl⟩ | ⟨stored, hstored, hplaced⟩
      · exact h
      · exact h.replaced hplaced hstored rfl rfl
  | mark fulfillmentId executedAt jobReference =>
      obtain ⟨stored, hstored, -, -, hplaced⟩ := mark_ok hwrite
      exact h.replaced hplaced hstored rfl rfl

end Ruled

end WaslaCore.Fulfillment
