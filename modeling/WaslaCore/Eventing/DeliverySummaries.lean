import WaslaCore.Eventing.DeliveryWorker

/-!
What a drain of the delivery queue reports. Every claimed delivery is acknowledged once,
whichever way its row goes, and every branch reads whether the store applied it.
-/

namespace WaslaCore.Eventing

open Data Interleaving

/-! ### What an acknowledgement came to -/

/-- The claim a delivery is held under. -/
abbrev DeliveryClaim := String × Fence

/-- An acknowledgement the store answered. -/
structure DeliverySettled where
  claim : DeliveryClaim
  outcome : DeliveryOutcome
  applied : Bool
  deriving DecidableEq, Repr

def deliverySettlement : (action : DeliveryAction) × action.Answer → Option DeliverySettled
  | ⟨.markDelivered deliveryId fence _, .ok applied⟩ =>
      some ⟨(deliveryId, fence), .delivered, applied⟩
  | ⟨.acknowledge deliveryId fence how, .ok applied⟩ =>
      some ⟨(deliveryId, fence), how.outcome, applied⟩
  | _ => none

def EventDelivery.claim (row : EventDelivery) : DeliveryClaim := (row.deliveryId, row.claimToken)

/-- The deliveries an answer handed over. -/
def deliveriesHandedOver : (action : DeliveryAction) × action.Answer → List DeliveryClaim
  | ⟨.claimDue _ _, .ok (rows : List EventDelivery)⟩ => rows.map EventDelivery.claim
  | _ => []

/-- The deliveries a call claimed, in order. -/
def deliveriesClaimedIn (seen : DeliverySeen) : List DeliveryClaim :=
  seen.flatMap deliveriesHandedOver

/-- How many acknowledgements of one kind the store applied. -/
def appliedIn (seen : DeliverySeen) (outcome : DeliveryOutcome) : Nat :=
  (settledIn deliverySettlement seen).countP
    (fun settled => settled.applied && settled.outcome = outcome)

/-- The summary counts what happened: each claimed delivery was acknowledged once, and is
counted under what that acknowledgement did to it. -/
structure DeliveryCounts (seen : DeliverySeen) (result : DeliveryWorkerResult) : Prop where
  once : (settledIn deliverySettlement seen).map DeliverySettled.claim = deliveriesClaimedIn seen
  delivered : result.delivered = appliedIn seen .delivered
  failed : result.failed = appliedIn seen .failed
  dead : result.dead = appliedIn seen .dead
  suppressed : result.suppressed = appliedIn seen .suppressed
  fenced : result.fenced =
    (settledIn deliverySettlement seen).countP (fun settled => !settled.applied)

def DeliveryWorkerResult.tally (result : DeliveryWorkerResult) (settled : DeliverySettled) :
    DeliveryWorkerResult :=
  result.count settled.applied settled.outcome

/-! ### What a delivery settles -/

section Rows

variable (seen : DeliverySeen)

theorem deliverySettled_answered (action : DeliveryAction) (value : action.Value) :
    settledIn deliverySettlement (seen ++ [⟨action, .ok value⟩]) =
      settledIn deliverySettlement seen ++ (deliverySettlement ⟨action, .ok value⟩).toList := by
  rw [settledIn_append]
  cases hsettled : deliverySettlement ⟨action, .ok value⟩ with
  | none => simp [settledIn, hsettled]
  | some settled => simp [settledIn, hsettled]

theorem askDepot_bind {γ : Type} {action : DeliveryAction} {next : action.Value → DeliveryCall γ}
    {post : DeliverySeen → Except String γ → Prop}
    (hok : ∀ value, Keeps Discipline.free post (next value) (seen ++ [⟨action, .ok value⟩]))
    (herror : ∀ message later, post later (.error message)) :
    Keeps Discipline.free post (askDepot action >>= next) seen := by
  refine ⟨trivial, fun answer _ => ?_⟩
  cases answer with
  | ok value => exact hok value
  | error message => exact herror message _

/-- The delivery's one acknowledgement, counted. -/
abbrev SettlesDelivery (row : EventDelivery) (result : DeliveryWorkerResult)
    (call : DeliveryCall DeliveryWorkerResult) : Prop :=
  ∀ seen, SettlesOne deliverySettlement DeliverySettled.claim DeliveryWorkerResult.tally row.claim
    result seen call

end Rows

theorem acknowledge_settles (row : EventDelivery) (how : DeliveryAcknowledgement)
    (result : DeliveryWorkerResult) :
    SettlesDelivery row result (DeliveryWorker.acknowledge row how result) := by
  intro seen
  refine askDepot_bind seen ?_ (fun message later account herror => nomatch herror)
  rintro (applied : Bool) account ⟨⟩
  exact ⟨⟨row.claim, how.outcome, applied⟩, deliverySettled_answered seen
    (.acknowledge row.deliveryId row.claimToken how) applied, rfl, rfl⟩

theorem markDelivered_settles (row : EventDelivery) (status : Nat)
    (result : DeliveryWorkerResult) :
    SettlesDelivery row result (DeliveryWorker.markDelivered row status result) := by
  intro seen
  refine askDepot_bind seen ?_ (fun message later account herror => nomatch herror)
  rintro (applied : Bool) account ⟨⟩
  exact ⟨⟨row.claim, .delivered, applied⟩, deliverySettled_answered seen
    (.markDelivered row.deliveryId row.claimToken status) applied, rfl, rfl⟩

/-- Asking what settles nothing leaves the acknowledgement to what follows. -/
theorem asking_settles {row : EventDelivery} {result : DeliveryWorkerResult}
    {action : DeliveryAction} {next : action.Value → DeliveryCall DeliveryWorkerResult}
    (hnone : ∀ value, deliverySettlement ⟨action, .ok value⟩ = none)
    (hnext : ∀ value, SettlesDelivery row result (next value)) :
    SettlesDelivery row result (askDepot action >>= next) := by
  intro seen
  refine askDepot_bind seen ?_ (fun message later account herror => nomatch herror)
  intro value
  have hsettled := deliverySettled_answered seen action value
  rw [hnone value, Option.toList_none, List.append_nil] at hsettled
  refine (hnext value _).mono fun last ended hended account haccount => ?_
  obtain ⟨settled, hsame, hrest⟩ := hended account haccount
  exact ⟨settled, hsame.trans (by rw [hsettled]), hrest⟩

/-- Whichever way a delivery goes, it is acknowledged once and counted by the answer. -/
theorem deliverRow_settles (worker : DeliveryWorker) (now : Int) (row : EventDelivery)
    (result : DeliveryWorkerResult) : SettlesDelivery row result (worker.deliverRow now row result) := by
  unfold DeliveryWorker.deliverRow
  refine asking_settles (fun _ => rfl) fun (subscription : Option DeliverySubscription) => ?_
  split
  · exact acknowledge_settles row _ result
  refine asking_settles (fun _ => rfl) fun (event : Option EventEnvelope) => ?_
  cases subscription with
  | none => exact acknowledge_settles row _ result
  | some subscription =>
      cases event with
      | none => exact acknowledge_settles row _ result
      | some event =>
          refine asking_settles (fun _ => rfl) fun (response : TransportResponse) => ?_
          split
          · exact markDelivered_settles row _ result
          · exact acknowledge_settles row _ result

/-- Only the head of a drain claims deliveries. -/
def ClaimingDeliveries : DeliveryAction → Prop
  | .claimDue _ _ => True
  | _ => False

theorem askDepot_avoids {shunned : DeliveryAction → Prop} {action : DeliveryAction}
    (h : ¬shunned action) : Avoids shunned (askDepot action) := by
  refine ⟨h, fun answer => ?_⟩
  cases answer <;> trivial

theorem deliverRow_claimless (worker : DeliveryWorker) (now : Int) (row : EventDelivery)
    (result : DeliveryWorkerResult) :
    Avoids ClaimingDeliveries (worker.deliverRow now row result) := by
  have hacknowledge : ∀ how, Avoids ClaimingDeliveries
      (DeliveryWorker.acknowledge row how result) := fun how =>
    avoids_bind (askDepot_avoids not_false) fun (applied : Bool) => trivial
  unfold DeliveryWorker.deliverRow
  refine avoids_bind (askDepot_avoids not_false)
    fun (subscription : Option DeliverySubscription) => ?_
  split
  · exact hacknowledge _
  refine avoids_bind (askDepot_avoids not_false) fun (event : Option EventEnvelope) => ?_
  cases subscription with
  | none => exact hacknowledge _
  | some subscription =>
      cases event with
      | none => exact hacknowledge _
      | some event =>
          refine avoids_bind (askDepot_avoids not_false) fun (response : TransportResponse) => ?_
          split
          · exact avoids_bind (askDepot_avoids not_false) fun (applied : Bool) => trivial
          · exact hacknowledge _

/-! ### What a drain reports -/

theorem foldl_tally (settled : List DeliverySettled) (result : DeliveryWorkerResult) :
    settled.foldl DeliveryWorkerResult.tally result = { result with
      delivered := result.delivered + settled.countP (fun one => one.applied && one.outcome = .delivered)
      failed := result.failed + settled.countP (fun one => one.applied && one.outcome = .failed)
      dead := result.dead + settled.countP (fun one => one.applied && one.outcome = .dead)
      suppressed := result.suppressed +
        settled.countP (fun one => one.applied && one.outcome = .suppressed)
      fenced := result.fenced + settled.countP (fun one => !one.applied) } := by
  induction settled generalizing result with
  | nil => rfl
  | cons first rest ih =>
      rw [List.foldl_cons, ih]
      obtain ⟨claim, outcome, applied⟩ := first
      simp only [List.countP_cons]
      cases applied with
      | false =>
          simp only [DeliveryWorkerResult.tally, DeliveryWorkerResult.count]
          grind
      | true =>
          cases outcome <;> simp only [DeliveryWorkerResult.tally, DeliveryWorkerResult.count] <;> grind

/-- A drain that returns counted what happened. -/
theorem drainOnce_counts (worker : DeliveryWorker) (limit : Nat) :
    Keeps Discipline.free
      (fun later ended => ∀ result, ended = .ok result → DeliveryCounts later result)
      (worker.drainOnce limit) [] := by
  unfold DeliveryWorker.drainOnce
  refine askDepot_bind [] ?_ (fun message later result herror => nomatch herror)
  intro (now : Int)
  refine askDepot_bind _ ?_ (fun message later result herror => nomatch herror)
  intro (reclaim : EventQueue.ReclaimOutcome)
  refine askDepot_bind _ ?_ (fun message later result herror => nomatch herror)
  intro (due : List EventDelivery)
  have hquiet : ∀ entry : (action : DeliveryAction) × action.Answer,
      ¬ClaimingDeliveries entry.1 → deliveriesHandedOver entry = [] := by
    rintro ⟨action, answer⟩ hquiet
    cases action with
    | claimDue now limit => exact absurd trivial hquiet
    | _ => rfl
  have hsettles := fun row result seen => deliverRow_settles worker now row result seen
  refine (workEach_reports hsettles (deliverRow_claimless worker now) hquiet rfl ?_).mono ?_
  · simp [deliveriesHandedOver]
  · intro later ended hended result hresult
    obtain ⟨honce, rfl⟩ := hended result hresult
    have hresult := foldl_tally (settledIn deliverySettlement later)
      ⟨0, 0, 0, reclaim.reclaimed, reclaim.dead, 0, 0⟩
    exact
      { once := honce
        delivered := (congrArg DeliveryWorkerResult.delivered hresult).trans (Nat.zero_add _)
        failed := (congrArg DeliveryWorkerResult.failed hresult).trans (Nat.zero_add _)
        dead := (congrArg DeliveryWorkerResult.dead hresult).trans (Nat.zero_add _)
        suppressed := (congrArg DeliveryWorkerResult.suppressed hresult).trans (Nat.zero_add _)
        fenced := (congrArg DeliveryWorkerResult.fenced hresult).trans (Nat.zero_add _) }

/-! ### What the answers say of the queue -/

/-- What the depot did with an acknowledgement it answered so. -/
def DeliverySettled.Told (settled : DeliverySettled) (depot depot' : Depot) : Prop :=
  match settled.claim, settled.applied with
  | (deliveryId, fence), true => ∃ row how, depot.deliveries.get deliveryId = some row ∧
      isFenced row.claimToken fence = false ∧ how.outcome = settled.outcome ∧
      depot'.deliveries.get deliveryId = some (row.acknowledged how)
  | (deliveryId, fence), false => depot' = depot ∧
      ∀ row, depot.deliveries.get deliveryId = some row → isFenced row.claimToken fence = true

theorem depotAcknowledge_told (depot : Depot) (deliveryId : String) (fence : Fence)
    (how : DeliveryAcknowledgement) :
    DeliverySettled.Told
      ⟨(deliveryId, fence), how.outcome, (depot.acknowledge deliveryId fence how).1⟩ depot
      (depot.acknowledge deliveryId fence how).2 := by
  simp only [Depot.acknowledge, DeliveryQueue.acknowledge]
  cases hrow : depot.deliveries.get deliveryId with
  | none => exact ⟨rfl, fun row hfound => nomatch hrow.symm.trans hfound⟩
  | some row =>
      dsimp only
      by_cases hfenced : isFenced row.claimToken fence = true
      · rw [if_pos hfenced]
        refine ⟨rfl, fun found hfound => ?_⟩
        obtain rfl := Option.some.inj (hrow.symm.trans hfound)
        exact hfenced
      · rw [if_neg hfenced]
        exact ⟨row, how, hrow, Bool.eq_false_iff.mpr hfenced, rfl, by rw [Table.get_put, if_pos rfl]⟩

/-- The depot answers an acknowledgement truly. -/
theorem deliverySettlement_told {action : DeliveryAction} {turn : DepotTurn}
    {answer : action.Answer} {depot depot' : Depot} {settled : DeliverySettled}
    (hperform : delivering.perform action turn depot = some (answer, depot'))
    (hsettled : deliverySettlement ⟨action, answer⟩ = some settled) :
    settled.Told depot depot' := by
  cases action with
  | markDelivered deliveryId fence status =>
      cases turn with
      | proceed =>
          obtain ⟨rfl, rfl⟩ := Prod.mk.inj (Option.some.inj hperform)
          obtain rfl := Option.some.inj hsettled
          exact depotAcknowledge_told depot deliveryId fence (.delivered status depot.now)
      | failing message =>
          obtain ⟨rfl, rfl⟩ := Prod.mk.inj (Option.some.inj hperform)
          cases hsettled
      | _ => cases hperform
  | acknowledge deliveryId fence how =>
      cases turn with
      | proceed =>
          obtain ⟨rfl, rfl⟩ := Prod.mk.inj (Option.some.inj hperform)
          obtain rfl := Option.some.inj hsettled
          exact depotAcknowledge_told depot deliveryId fence how
      | failing message =>
          obtain ⟨rfl, rfl⟩ := Prod.mk.inj (Option.some.inj hperform)
          cases hsettled
      | _ => cases hperform
  | _ => cases answer <;> cases hsettled

end WaslaCore.Eventing
