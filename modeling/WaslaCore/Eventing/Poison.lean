import WaslaCore.Eventing.Fencing
import WaslaCore.Interleaving.Logic

/-!
A row that kills whatever picks it up, and the rows claimed with it. A drain leases
a whole batch and then starts its rows one after another; when a row crashes the
worker, the rows behind it stay leased although nothing ever touched them, and the
recovery charges each of them as if it had. The result is about runs in which no row
that was never started and has no recovery left is put at that risk.
-/

namespace WaslaCore.Eventing

open Data Interleaving

inductive LeasedQueue where
  | events (name : QueueName)
  | deliveries
  deriving DecidableEq, Repr

/-- A claimed row as its worker holds it: which row, and under which token. -/
structure ClaimedRow where
  key : RowKey
  token : String
  deriving DecidableEq, Repr

def RowKey.queue : RowKey → LeasedQueue
  | .event name _ => .events name
  | .delivery _ => .deliveries

/-- The rows a claim takes, in the order it hands them over. -/
def QueueStores.dueKeys (stores : QueueStores) (now : Int) (limit : Nat) : LeasedQueue → List RowKey
  | .events name =>
      ((inDueOrder ((stores.events name).values.filter (fun row => row.isDue now))).take
        (claimLimit name limit)).map (fun row => .event name row.event.eventId)
  | .deliveries =>
      ((deliveriesInDueOrder (stores.deliveries.values.filter (fun row => row.isDue now))).take
        limit).map (fun row => .delivery row.deliveryId)

def LeasedQueue.claim (now : Int) (limit : Nat) (token : String) : LeasedQueue → Operation
  | .events name => .claimEvents name now limit token
  | .deliveries => .claimDeliveries now limit token

def LeasedQueue.reclaim (now : Int) (maxReclaims limit : Nat) : LeasedQueue → Operation
  | .events name => .reclaimEvents name now maxReclaims limit
  | .deliveries => .reclaimDeliveries now maxReclaims limit

/-- The acknowledgement of a row whose processing succeeded. -/
def ClaimedRow.succeed (row : ClaimedRow) (now : Int) : Operation :=
  match row.key with
  | .event name eventId => .acknowledgeEvent name eventId row.token .done
  | .delivery deliveryId => .acknowledgeDelivery deliveryId row.token (.delivered 200 now)

/-- The queues and their workers. `started` lists the rows whose processing was ever
started, `held` the rows a live worker has claimed and not started yet. -/
structure Plant where
  now : Int
  run : QueueRun
  started : List RowKey
  held : List ClaimedRow

namespace Plant

def empty (now : Int) : Plant := ⟨now, .start, [], []⟩

def lease (plant : Plant) (key : RowKey) : Option Lease := plant.run.stores.lease key

/-- The plant with one operation of the stores applied. -/
def operate (plant : Plant) (operation : Operation) : Option Plant :=
  (operation.apply plant.run).map (fun run => { plant with run := run })

/-- A worker starts a row. The poison row takes its worker with it, and whatever that
worker still held is held by nobody. -/
def begin (plant : Plant) (poison : RowKey) (row : ClaimedRow) : Plant :=
  { plant with
    started := row.key :: plant.started
    held := plant.held.filter (fun other =>
      if row.key = poison then other.token ≠ row.token else other ≠ row) }

end Plant

/-! ### Workers -/

/-- What a drain awaits. `start` is the moment an item's processing begins. -/
inductive Chore where
  | clock
  | reclaimExpired (queue : LeasedQueue) (now : Int) (maxReclaims limit : Nat)
  | claimDue (queue : LeasedQueue) (now : Int) (limit : Nat)
  | start (row : ClaimedRow)
  | acknowledge (row : ClaimedRow)
  deriving DecidableEq

def Chore.Answer : Chore → Type
  | .clock => Int
  | .reclaimExpired _ _ _ _ => Unit
  | .claimDue _ _ _ => List ClaimedRow
  | .start _ => Unit
  | .acknowledge _ => Unit

/-- What the stores do not decide, and what happens around the workers. -/
inductive PlantTurn where
  | proceed
  | drawn (token : String)
  | elapsed (milliseconds : Nat)
  | arrived (name : QueueName) (event : EventEnvelope)
  | queued (deliveryId eventId subscriptionId : String)
  | revivedEvent (eventId : String)
  | revivedDelivery (deliveryId : String)

def performChore (poison : RowKey) :
    (chore : Chore) → PlantTurn → Plant → Option (chore.Answer × Plant)
  | .clock, .proceed, plant => some (plant.now, plant)
  | .reclaimExpired queue now maxReclaims limit, .proceed, plant =>
      (plant.operate (queue.reclaim now maxReclaims limit)).map (fun plant' => ((), plant'))
  | .claimDue queue now limit, .drawn token, plant =>
      let batch := (plant.run.stores.dueKeys now limit queue).map (fun key => ⟨key, token⟩)
      (plant.operate (queue.claim now limit token)).map
        (fun plant' => (batch, { plant' with held := batch ++ plant'.held }))
  | .start row, .proceed, plant => some ((), plant.begin poison row)
  | .acknowledge row, .proceed, plant =>
      (plant.operate (row.succeed plant.now)).map (fun plant' => ((), plant'))
  | _, _, _ => none

def Plant.happen (plant : Plant) : PlantTurn → Option Plant
  | .elapsed milliseconds => some { plant with now := plant.now + milliseconds }
  | .arrived name event => plant.operate (.arrive name event plant.now)
  | .queued deliveryId eventId subscriptionId =>
      plant.operate (.queue deliveryId eventId subscriptionId plant.now)
  | .revivedEvent eventId => plant.operate (.reviveEvent eventId plant.now)
  | .revivedDelivery deliveryId => plant.operate (.reviveDelivery deliveryId plant.now)
  | _ => none

/-- The queues as drains see them, with one row that crashes whoever starts it. -/
def poisoned (poison : RowKey) : System Plant Chore Chore.Answer PlantTurn where
  perform := performChore poison
  tick := fun turn plant => plant.happen turn

abbrev Drain := Process Chore Chore.Answer Unit Unit

/-- One item: its processing begins, and the worker is gone or the item is done. -/
def processRow (poison : RowKey) (row : ClaimedRow) : Drain := do
  let _ : Unit ← Process.act (.start row) .done
  if row.key = poison then throw () else Process.act (.acknowledge row) .done

def processRows (poison : RowKey) : List ClaimedRow → Drain
  | [] => pure ()
  | row :: rest => do
      processRow poison row
      processRows poison rest

/-- `drainOnce` of any of the three workers: recover, claim, then item by item. -/
def drainOnce (poison : RowKey) (queue : LeasedQueue) (maxReclaims limit : Nat) : Drain := do
  let now : Int ← Process.act .clock .done
  let _ : Unit ← Process.act (.reclaimExpired queue now maxReclaims limit) .done
  let due : List ClaimedRow ← Process.act (.claimDue queue now limit) .done
  processRows poison due

/-- Any number of workers on the three queues, each with its own batch limit. -/
def drains (poison : RowKey) (maxReclaims : Nat) (drain : Drain) : Prop :=
  ∃ queue limit, drain = drainOnce poison queue maxReclaims limit

theorem drains_drainOnce (poison : RowKey) (queue : LeasedQueue) (maxReclaims limit : Nat) :
    drains poison maxReclaims (drainOnce poison queue maxReclaims limit) := ⟨queue, limit, rfl⟩

/-! ### Sparing the neighbours -/

/-- No row but the poison one is dead before its processing was ever started. -/
def NeighboursSpared (poison : RowKey) (plant : Plant) : Prop :=
  ∀ key lease, plant.lease key = some lease → lease.phase = .dead →
    key = poison ∨ key ∈ plant.started

/-- A row that was never started and has no recovery left. -/
def Plant.AtRisk (plant : Plant) (maxReclaims : Nat) (key : RowKey) : Prop :=
  key ∉ plant.started ∧ ∃ lease, plant.lease key = some lease ∧
    reclaimExhausted lease.reclaims maxReclaims = true

/-- No claim takes a row at risk behind the poison row, and no recovery comes upon a
row at risk whose worker is alive and has not started it within the lease. -/
def RiskAvoided (poison : RowKey) (maxReclaims : Nat) (_ : History Chore Chore.Answer)
    (chore : Chore) (plant : Plant) : Prop :=
  match chore with
  | .claimDue queue now limit =>
      ∀ ahead behind, plant.run.stores.dueKeys now limit queue = ahead ++ poison :: behind →
        ∀ key ∈ behind, ¬plant.AtRisk maxReclaims key
  | .reclaimExpired queue now _ _ =>
      ∀ row ∈ plant.held, row.key.queue = queue → plant.AtRisk maxReclaims row.key →
        ∀ lease, plant.lease row.key = some lease → lease.token = some row.token →
          now < lease.expiresAt
  | _ => True

/-! ### What an operation does to the rows of a plant -/

section Operations

variable {state state' : QueueRun}

/-- A claim draws a new token and touches only the rows it hands over. -/
theorem LeasedQueue.claim_apply {queue : LeasedQueue} {now : Int} {limit : Nat} {token : String}
    (h : (queue.claim now limit token).apply state = some state') :
    token ∉ state.drawn ∧ state'.drawn = token :: state.drawn ∧
      ∀ key, state'.stores.lease key = state.stores.lease key ∨
        key ∈ state.stores.dueKeys now limit queue := by
  cases queue with
  | events name =>
      simp only [LeasedQueue.claim, Operation.apply] at h
      split at h
      · cases h
      rename_i hfresh
      obtain rfl := Option.some.inj h
      refine ⟨hfresh, rfl, fun key => ?_⟩
      cases key with
      | delivery deliveryId => exact .inl (by simp [QueueStores.lease])
      | event other eventId =>
          simp only [QueueStores.lease, QueueStores.events_withEvents]
          by_cases hother : other = name
          · subst hother
            rw [if_pos rfl]
            rcases EventQueue.get_putAll (state.stores.events other)
              ((state.stores.events other).claimFirst now (claimLimit other limit) token).1 eventId
              with hsame | ⟨row, hrow, hid, -⟩
            · exact .inl (congrArg (Option.map QueueRow.lease) hsame)
            · obtain ⟨old, hold, rfl⟩ := List.mem_map.mp hrow
              refine .inr (List.mem_map.mpr ⟨old, hold, ?_⟩)
              rw [← hid]
              rfl
          · rw [if_neg hother]
            exact .inl rfl
  | deliveries =>
      simp only [LeasedQueue.claim, Operation.apply] at h
      split at h
      · cases h
      rename_i hfresh
      obtain rfl := Option.some.inj h
      refine ⟨hfresh, rfl, fun key => ?_⟩
      cases key with
      | event name eventId => cases name <;> exact .inl rfl
      | delivery deliveryId =>
          rcases Table.get_putRows EventDelivery.deliveryId state.stores.deliveries
            (DeliveryQueue.claimDue state.stores.deliveries now limit token).1 deliveryId
            with hsame | ⟨row, hrow, hid, -⟩
          · exact .inl (congrArg (Option.map EventDelivery.lease) hsame)
          · obtain ⟨old, hold, rfl⟩ := List.mem_map.mp hrow
            refine .inr (List.mem_map.mpr ⟨old, hold, ?_⟩)
            rw [← hid]
            rfl

/-- A recovery pass touches the rows of its own queue only. -/
theorem LeasedQueue.reclaim_apply {queue : LeasedQueue} {now : Int} {maxReclaims limit : Nat}
    (h : (queue.reclaim now maxReclaims limit).apply state = some state') (key : RowKey) :
    state'.stores.lease key = state.stores.lease key ∨ key.queue = queue := by
  cases queue with
  | events name =>
      obtain rfl := Option.some.inj h
      cases key with
      | delivery deliveryId => exact .inl (by simp [QueueStores.lease])
      | event other eventId =>
          by_cases hother : other = name
          · exact .inr (by rw [hother]; rfl)
          · refine .inl ?_
            simp only [QueueStores.lease, QueueStores.events_withEvents]
            rw [if_neg hother]
  | deliveries =>
      obtain rfl := Option.some.inj h
      cases key with
      | event name eventId => cases name <;> exact .inl rfl
      | delivery deliveryId => exact .inr rfl

/-- A success leaves no row dead that was not. -/
theorem ClaimedRow.succeed_apply {row : ClaimedRow} {now : Int}
    (h : (row.succeed now).apply state = some state') {key : RowKey} {lease : Lease}
    (hlease : state'.stores.lease key = some lease) (hdead : lease.phase = .dead) :
    state.stores.lease key = some lease := by
  obtain ⟨rowKey, token⟩ := row
  cases rowKey with
  | event name eventId =>
      obtain rfl := Option.some.inj h
      rcases (state.stores.events name).acknowledge_cases eventId (some token)
        (Settlement.done.acknowledgement name) with hrefused | ⟨found, -, -, happlied⟩
      · simp only [hrefused] at hlease
        cases name <;> exact hlease
      · simp only [happlied] at hlease
        cases key with
        | delivery deliveryId =>
            simpa [QueueStores.lease] using hlease
        | event other otherId =>
            simp only [QueueStores.lease, QueueStores.events_withEvents] at hlease ⊢
            by_cases hother : other = name
            · subst hother
              rw [if_pos rfl, Table.get_put] at hlease
              by_cases hid : eventId = otherId
              · rw [if_pos hid] at hlease
                obtain rfl := Option.some.inj hlease
                cases other <;> cases hdead
              · rw [if_neg hid] at hlease
                exact hlease
            · rw [if_neg hother] at hlease
              exact hlease
  | delivery deliveryId =>
      obtain rfl := Option.some.inj h
      rcases DeliveryQueue.acknowledge_cases state.stores.deliveries deliveryId (some token)
        (.delivered 200 now) with hrefused | ⟨found, -, -, happlied⟩
      · simp only [hrefused] at hlease
        exact hlease
      · simp only [happlied] at hlease
        cases key with
        | event name eventId => cases name <;> exact hlease
        | delivery otherId =>
            simp only [QueueStores.lease] at hlease ⊢
            rw [Table.get_put] at hlease
            by_cases hid : deliveryId = otherId
            · rw [if_pos hid] at hlease
              obtain rfl := Option.some.inj hlease
              cases hdead
            · rw [if_neg hid] at hlease
              exact hlease

end Operations

/-! ### The contract of the drains -/

section Spared

variable {poison : RowKey} {maxReclaims : Nat}

/-- Every row at risk that somebody holds is held by a live worker, and no neighbour
is dead unstarted. -/
structure Plant.Safe (poison : RowKey) (maxReclaims : Nat) (plant : Plant) : Prop where
  keyed : plant.run.stores.Keyed
  sound : plant.run.book.Sound
  waiting : ∀ key lease token, plant.lease key = some lease → lease.token = some token →
    key ≠ poison → plant.AtRisk maxReclaims key → ⟨key, token⟩ ∈ plant.held
  spared : NeighboursSpared poison plant

/-- What every step keeps: started rows, drawn tokens, and the lease of every row that
is still held under a token drawn before. -/
structure Plant.Later (plant plant' : Plant) : Prop where
  started : ∀ key ∈ plant.started, key ∈ plant'.started
  drawn : ∀ token ∈ plant.run.drawn, token ∈ plant'.run.drawn
  held : ∀ key lease token, plant'.lease key = some lease → lease.token = some token →
    token ∈ plant.run.drawn → plant.lease key = some lease

/-- A row at risk under the token of a batch stands ahead of the poison row in it. -/
def AheadOfPoison (poison : RowKey) (maxReclaims : Nat) (batch : List ClaimedRow) (plant : Plant) :
    Prop :=
  ∀ ahead row behind, batch = ahead ++ row :: behind → row.key = poison →
    row.token ∈ plant.run.drawn ∧ ∀ key lease, plant.lease key = some lease →
      lease.token = some row.token → key ≠ poison → plant.AtRisk maxReclaims key →
        key ∈ ahead.map ClaimedRow.key

/-- A row is started from a claimed batch, after every row ahead of it. -/
def InBatchOrder (seen : History Chore Chore.Answer) (row : ClaimedRow) : Prop :=
  ∃ (queue : LeasedQueue) (now : Int) (limit : Nat) (batch ahead behind : List ClaimedRow),
    ⟨.claimDue queue now limit, batch⟩ ∈ seen ∧ batch = ahead ++ row :: behind ∧
      ∀ earlier ∈ ahead, ⟨.start earlier, ()⟩ ∈ seen

def draining (maxReclaims : Nat) : Discipline Chore Chore.Answer where
  told _ _ := True
  owed seen chore :=
    match chore with
    | .start row => InBatchOrder seen row
    | .reclaimExpired _ _ allowed _ => allowed = maxReclaims
    | _ => True

theorem Plant.Later.atRisk {plant plant' : Plant} (h : plant.Later plant') {key : RowKey}
    {lease : Lease} {token : String} (hlease : plant'.lease key = some lease)
    (htoken : lease.token = some token) (hdrawn : token ∈ plant.run.drawn)
    (hrisk : plant'.AtRisk maxReclaims key) : plant.AtRisk maxReclaims key := by
  obtain ⟨hnever, found, hfound, hspent⟩ := hrisk
  obtain rfl := Option.some.inj (hlease.symm.trans hfound)
  exact ⟨fun hstarted => hnever (h.started key hstarted), lease,
    h.held key lease token hlease htoken hdrawn, hspent⟩

theorem Plant.Later.refl (plant : Plant) : plant.Later plant :=
  ⟨fun _ h => h, fun _ h => h, fun _ _ _ h _ _ => h⟩

theorem Plant.Later.trans {first second third : Plant} (h : first.Later second)
    (h' : second.Later third) : first.Later third where
  started := fun key hkey => h'.started key (h.started key hkey)
  drawn := fun token htoken => h'.drawn token (h.drawn token htoken)
  held := fun key lease token hlease hheld hdrawn =>
    h.held key lease token (h'.held key lease token hlease hheld (h.drawn token hdrawn)) hheld hdrawn

theorem AheadOfPoison.later {batch : List ClaimedRow} {plant plant' : Plant}
    (h : AheadOfPoison poison maxReclaims batch plant) (hlater : plant.Later plant') :
    AheadOfPoison poison maxReclaims batch plant' := by
  intro ahead row behind hbatch hpoison
  obtain ⟨hdrawn, hahead⟩ := h ahead row behind hbatch hpoison
  refine ⟨hlater.drawn _ hdrawn, fun key lease hlease htoken hne hrisk => ?_⟩
  exact hahead key lease (hlater.held key lease _ hlease htoken hdrawn) htoken hne
    (hlater.atRisk hlease htoken hdrawn hrisk)

/-- The contract of drains on a poisoned queue. -/
def sparing (poison : RowKey) (maxReclaims : Nat) : Contract Plant Chore Chore.Answer where
  toDiscipline := draining maxReclaims
  inv := Plant.Safe poison maxReclaims
  guar := Plant.Later
  guar_refl := Plant.Later.refl
  guar_trans := Plant.Later.trans
  known chore answer plant :=
    match chore, answer with
    | .claimDue _ _ _, batch => AheadOfPoison poison maxReclaims batch plant
    | .start row, _ => row.key ∈ plant.started
    | _, _ => True
  known_stable := by
    intro chore answer plant plant' hlater hknown
    cases chore with
    | claimDue queue now limit => exact AheadOfPoison.later hknown hlater
    | start row => exact hlater.started row.key hknown
    | clock => trivial
    | reclaimExpired queue now allowed limit => trivial
    | acknowledge row => trivial

/-- An operation leads to a later plant, whose tokens are old ones or a claim's. -/
theorem Plant.operate_later {plant plant' : Plant} {operation : Operation}
    (hsafe : plant.Safe poison maxReclaims) (h : plant.operate operation = some plant') :
    operation.apply plant.run = some plant'.run ∧ plant'.started = plant.started ∧
      plant'.held = plant.held ∧ plant'.run.stores.Keyed ∧ plant'.run.book.Sound ∧
      plant.Later plant' := by
  obtain ⟨run, happly, rfl⟩ := Option.map_eq_some_iff.mp h
  have hmove := operation.move hsafe.keyed hsafe.sound happly
  obtain ⟨hdrawn, hheld⟩ := hmove.follows
  exact ⟨happly, rfl, rfl, operation.keyed hsafe.keyed happly, hmove.sound hsafe.sound,
    ⟨fun _ hkey => hkey, hdrawn, hheld⟩⟩

/-- Where every token on a row was drawn before, a later plant is as safe as long as
it keeps what the workers hold and makes no neighbour dead. -/
theorem Plant.Safe.later {plant plant' : Plant} (hsafe : plant.Safe poison maxReclaims)
    (hlater : plant.Later plant') (hkeyed : plant'.run.stores.Keyed)
    (hsound : plant'.run.book.Sound) (hdrawn : plant'.run.drawn = plant.run.drawn)
    (hheld : plant'.held = plant.held) (hspared : NeighboursSpared poison plant') :
    plant'.Safe poison maxReclaims := by
  refine ⟨hkeyed, hsound, fun key lease token hlease htoken hne hrisk => ?_, hspared⟩
  have hold : token ∈ plant.run.drawn := by
    rw [← hdrawn]
    exact hsound.drawn key lease token hlease htoken
  rw [hheld]
  exact hsafe.waiting key lease token (hlater.held key lease token hlease htoken hold) htoken hne
    (hlater.atRisk hlease htoken hold hrisk)

/-- An operation that only moves rows on, and is no claim and no recovery. -/
theorem Plant.Safe.moved {plant plant' : Plant} {operation : Operation} {motion : Lease.Motion}
    (hsafe : plant.Safe poison maxReclaims) (h : plant.operate operation = some plant')
    (hmotion : operation.motion = some motion) (hclaim : ∀ token, motion ≠ .claim token)
    (hrecovery : ∀ now allowed, motion ≠ .recovery now allowed) :
    plant'.Safe poison maxReclaims ∧ plant.Later plant' := by
  obtain ⟨happly, hstarted, hheld, hkeyed, hsound, hlater⟩ := Plant.operate_later hsafe h
  have hdrawn := operation.apply_drawn happly fun token heq =>
    hclaim token (Option.some.inj (hmotion.symm.trans heq))
  refine ⟨hsafe.later hlater hkeyed hsound hdrawn hheld ?_, hlater⟩
  intro key lease hlease hdead
  have hturn := operation.turns hsafe.keyed hsafe.sound happly hmotion key
  rw [show plant'.run.stores.lease key = some lease from hlease] at hturn
  rw [hstarted]
  rcases hturn.dead hdead with hsame | ⟨now, allowed, _, _, heq, -⟩
  · exact hsafe.spared key lease hsame hdead
  · exact absurd heq (hrecovery now allowed)

theorem happen_safe {plant plant' : Plant} {turn : PlantTurn}
    (hsafe : plant.Safe poison maxReclaims) (h : plant.happen turn = some plant') :
    plant'.Safe poison maxReclaims ∧ plant.Later plant' := by
  cases turn with
  | proceed => cases h
  | drawn token => cases h
  | elapsed milliseconds =>
      obtain rfl := Option.some.inj h
      exact ⟨⟨hsafe.keyed, hsafe.sound, hsafe.waiting, hsafe.spared⟩,
        ⟨fun _ h => h, fun _ h => h, fun _ _ _ h _ _ => h⟩⟩
  | arrived name event => exact hsafe.moved h rfl (by simp) (by simp)
  | queued deliveryId eventId subscriptionId => exact hsafe.moved h rfl (by simp) (by simp)
  | revivedEvent eventId => exact hsafe.moved h rfl (by simp) (by simp)
  | revivedDelivery deliveryId => exact hsafe.moved h rfl (by simp) (by simp)

/-- A recovery under the condition comes upon no neighbour it would give up on. -/
theorem reclaim_safe {plant plant' : Plant} {queue : LeasedQueue} {now : Int} {limit : Nat}
    (hsafe : plant.Safe poison maxReclaims)
    (hcondition : RiskAvoided poison maxReclaims []
      (.reclaimExpired queue now maxReclaims limit) plant)
    (h : plant.operate (queue.reclaim now maxReclaims limit) = some plant') :
    plant'.Safe poison maxReclaims ∧ plant.Later plant' := by
  obtain ⟨happly, hstarted, hheld, hkeyed, hsound, hlater⟩ := Plant.operate_later hsafe h
  have hmotion : (queue.reclaim now maxReclaims limit).motion =
      some (.recovery now maxReclaims) := by
    cases queue <;> rfl
  have hdrawn := (queue.reclaim now maxReclaims limit).apply_drawn happly (by simp [hmotion])
  refine ⟨hsafe.later hlater hkeyed hsound hdrawn hheld ?_, hlater⟩
  intro key lease hlease hdead
  have hturn := (queue.reclaim now maxReclaims limit).turns hsafe.keyed hsafe.sound happly hmotion key
  rw [show plant'.run.stores.lease key = some lease from hlease] at hturn
  rw [hstarted]
  rcases hturn.dead hdead with hsame | ⟨at', allowed, old, token, heq, hold, htoken, hexpired, hspent⟩
  · exact hsafe.spared key lease hsame hdead
  · obtain ⟨rfl, rfl⟩ := Lease.Motion.recovery.inj heq
    by_contra hnot
    obtain ⟨hne, hnever⟩ := not_or.mp hnot
    have hrisk : plant.AtRisk maxReclaims key :=
      ⟨hnever, old, hold, by simpa [reclaimExhausted] using hspent⟩
    have hqueue : key.queue = queue := by
      rcases LeasedQueue.reclaim_apply happly key with hsame | hqueue
      · have hboth : some lease = some old := hlease.symm.trans (hsame.trans hold)
        obtain rfl := Option.some.inj hboth
        have hwell := hsafe.sound.wellFormed key lease hold
        rw [hwell.pending (by rw [htoken]; rfl)] at hdead
        cases hdead
      · exact hqueue
    have hwaiting := hsafe.waiting key old token hold htoken hne hrisk
    have hlive := hcondition ⟨key, token⟩ hwaiting hqueue hrisk old hold htoken
    omega

/-- A claim under the condition puts no row at risk behind the poison row, and every
row it takes is held by its worker. -/
theorem claim_safe {plant plant' : Plant} {queue : LeasedQueue} {now : Int} {limit : Nat}
    {token : String} (hsafe : plant.Safe poison maxReclaims)
    (hcondition : RiskAvoided poison maxReclaims [] (.claimDue queue now limit) plant)
    (h : plant.operate (queue.claim now limit token) = some plant') :
    let batch : List ClaimedRow :=
      (plant.run.stores.dueKeys now limit queue).map (fun key => ⟨key, token⟩)
    let final := { plant' with held := batch ++ plant'.held }
    final.Safe poison maxReclaims ∧ plant.Later final ∧
      AheadOfPoison poison maxReclaims batch final := by
  intro batch final
  obtain ⟨happly, hstarted, hheld, hkeyed, hsound, hlater⟩ := Plant.operate_later hsafe h
  have hmotion : (queue.claim now limit token).motion = some (.claim token) := by
    cases queue <;> rfl
  obtain ⟨hfresh, hdrawn, htouched⟩ := LeasedQueue.claim_apply happly
  have hturn : ∀ key lease, plant'.lease key = some lease →
      Lease.Turn (.claim token) (plant.lease key) (some lease) := by
    intro key lease hlease
    have hone := (queue.claim now limit token).turns hsafe.keyed hsafe.sound happly hmotion key
    rw [show plant'.run.stores.lease key = some lease from hlease] at hone
    exact hone
  have hnew : ∀ key lease, plant'.lease key = some lease → lease.token = some token →
      key ∈ plant.run.stores.dueKeys now limit queue ∧
        (plant'.AtRisk maxReclaims key → plant.AtRisk maxReclaims key) := by
    intro key lease hlease htoken
    rcases (hturn key lease hlease).token htoken with hold | ⟨-, old, hold, hfree, hreclaims⟩
    · exact absurd (hsafe.sound.drawn key lease token hold htoken) hfresh
    · refine ⟨?_, ?_⟩
      · rcases htouched key with hsame | hdue
        · have hboth : some lease = some old := hlease.symm.trans (hsame.trans hold)
          rw [Option.some.inj hboth, hfree] at htoken
          cases htoken
        · exact hdue
      · rintro ⟨hnever, found, hfound, hspent⟩
        obtain rfl := Option.some.inj (hlease.symm.trans hfound)
        rw [← hreclaims] at hspent
        rw [hstarted] at hnever
        exact ⟨hnever, old, hold, hspent⟩
  refine ⟨⟨hkeyed, hsound, ?_, ?_⟩, ⟨hlater.started, hlater.drawn, hlater.held⟩, ?_⟩
  · intro key lease held hlease htoken hne hrisk
    by_cases hwhich : held = token
    · subst hwhich
      exact List.mem_append_left _ (List.mem_map.mpr ⟨key, (hnew key lease hlease htoken).1, rfl⟩)
    · have hold : held ∈ plant.run.drawn := by
        have hmember := hsound.drawn key lease held hlease htoken
        rw [show plant'.run.book.drawn = token :: plant.run.drawn from hdrawn] at hmember
        exact (List.mem_cons.mp hmember).resolve_left hwhich
      apply List.mem_append_right _
      rw [hheld]
      exact hsafe.waiting key lease held (hlater.held key lease held hlease htoken hold) htoken hne
        (hlater.atRisk hlease htoken hold hrisk)
  · intro key lease hlease hdead
    change key = poison ∨ key ∈ plant'.started
    rw [hstarted]
    rcases (hturn key lease hlease).dead hdead with hsame | ⟨_, _, _, _, heq, -⟩
    · exact hsafe.spared key lease hsame hdead
    · cases heq
  · intro ahead row behind hbatch hpoison
    have hrow : row ∈ batch := by simp [hbatch]
    obtain ⟨rowKey, -, rfl⟩ := List.mem_map.mp hrow
    refine ⟨?_, fun key lease hlease htoken hne hrisk => ?_⟩
    · change token ∈ plant'.run.drawn
      rw [hdrawn]
      exact List.mem_cons_self
    · obtain ⟨hdue, hback⟩ := hnew key lease hlease htoken
      have hkeys : plant.run.stores.dueKeys now limit queue =
          ahead.map ClaimedRow.key ++ poison :: behind.map ClaimedRow.key := by
        have hmapped := congrArg (List.map ClaimedRow.key) hbatch
        simp only [batch, List.map_map, List.map_append, List.map_cons] at hmapped
        rw [← hpoison, ← hmapped]
        exact (List.map_id _).symm
      rw [hkeys] at hdue
      rcases List.mem_append.mp hdue with hahead | hrest
      · exact hahead
      · rcases List.mem_cons.mp hrest with hsame | hbehind
        · exact absurd hsame hne
        · exact absurd (hback hrisk) (hcondition _ _ hkeys key hbehind)

/-- Starting a row: a neighbour is no longer held unstarted, and the poison row takes
along only rows that are not at risk. -/
theorem begin_safe {plant : Plant} {row : ClaimedRow} (hsafe : plant.Safe poison maxReclaims)
    (hahead : row.key = poison → ∀ key lease, plant.lease key = some lease →
      lease.token = some row.token → key ≠ poison → ¬plant.AtRisk maxReclaims key) :
    (plant.begin poison row).Safe poison maxReclaims ∧ plant.Later (plant.begin poison row) := by
  have hback : ∀ key, (plant.begin poison row).AtRisk maxReclaims key →
      key ≠ row.key ∧ plant.AtRisk maxReclaims key := by
    rintro key ⟨hnever, lease, hlease, hspent⟩
    obtain ⟨hne, hold⟩ := not_or.mp fun hstarted => hnever (List.mem_cons.mpr hstarted)
    exact ⟨hne, hold, lease, hlease, hspent⟩
  refine ⟨⟨hsafe.keyed, hsafe.sound, ?_, ?_⟩,
    ⟨fun _ hkey => List.mem_cons_of_mem _ hkey, fun _ h => h, fun _ _ _ h _ _ => h⟩⟩
  · intro key lease token hlease htoken hne hrisk
    obtain ⟨hother, hrisk'⟩ := hback key hrisk
    have hwaiting := hsafe.waiting key lease token hlease htoken hne hrisk'
    refine List.mem_filter.mpr ⟨hwaiting, ?_⟩
    by_cases hpoison : row.key = poison
    · simp only [if_pos hpoison]
      refine decide_eq_true fun hsame => ?_
      have hsame' : token = row.token := hsame
      rw [hsame'] at htoken
      exact hahead hpoison key lease hlease htoken hne hrisk'
    · simp only [if_neg hpoison]
      exact decide_eq_true fun hsame => hother (congrArg ClaimedRow.key hsame)
  · intro key lease hlease hdead
    rcases hsafe.spared key lease hlease hdead with hpoison | hstarted
    · exact .inl hpoison
    · exact .inr (List.mem_cons_of_mem _ hstarted)

/-- An acknowledged success makes nothing dead. -/
theorem acknowledge_safe {plant plant' : Plant} {row : ClaimedRow} {now : Int}
    (hsafe : plant.Safe poison maxReclaims) (h : plant.operate (row.succeed now) = some plant') :
    plant'.Safe poison maxReclaims ∧ plant.Later plant' := by
  obtain ⟨happly, hstarted, hheld, hkeyed, hsound, hlater⟩ := Plant.operate_later hsafe h
  have hmotion : (row.succeed now).motion = none := by
    obtain ⟨rowKey, token⟩ := row
    cases rowKey <;> rfl
  have hdrawn := (row.succeed now).apply_drawn happly (by simp [hmotion])
  refine ⟨hsafe.later hlater hkeyed hsound hdrawn hheld ?_, hlater⟩
  intro key lease hlease hdead
  rw [hstarted]
  exact hsafe.spared key lease (ClaimedRow.succeed_apply happly hlease hdead) hdead

/-- The rows of a batch are started one after another, in its order. -/
theorem processRows_keeps {queue : LeasedQueue} {now : Int} {limit : Nat}
    {batch : List ClaimedRow} (rest ahead : List ClaimedRow) (seen : History Chore Chore.Answer)
    (hbatch : batch = ahead ++ rest) (hclaimed : ⟨.claimDue queue now limit, batch⟩ ∈ seen)
    (hahead : ∀ earlier ∈ ahead, ⟨.start earlier, ()⟩ ∈ seen) :
    Keeps (draining maxReclaims) anyEnd (processRows poison rest) seen := by
  induction rest generalizing ahead seen with
  | nil => exact trivial
  | cons row rest ih =>
      have hrow : Keeps (draining maxReclaims)
          (fun later _ => seen <+: later ∧ ⟨.start row, ()⟩ ∈ later) (processRow poison row) seen := by
        refine ⟨⟨queue, now, limit, batch, ahead, rest, hclaimed, hbatch, hahead⟩, ?_⟩
        intro (answer : Unit) _
        have hstarted : (⟨.start row, ()⟩ : (chore : Chore) × chore.Answer) ∈
            seen ++ [⟨.start row, answer⟩] := by simp
        by_cases hpoison : row.key = poison
        · simp only [hpoison, if_true, Process.bind]
          exact ⟨List.prefix_append _ _, hstarted⟩
        · simp only [hpoison, if_false, Process.bind]
          refine ⟨trivial, fun _ _ => ⟨?_, List.mem_append_left _ hstarted⟩⟩
          exact (List.prefix_append _ _).trans (List.prefix_append _ _)
      refine hrow.bind ?_ (fun _ _ _ => trivial)
      rintro later _ ⟨hgrown, hstarted⟩
      apply ih (ahead ++ [row]) later (by simp [hbatch]) (hgrown.subset hclaimed)
      intro earlier hearlier
      rcases List.mem_append.mp hearlier with hold | hnew
      · exact hgrown.subset (hahead earlier hold)
      · rw [List.mem_singleton.mp hnew]
        exact hstarted

theorem drainOnce_keeps (queue : LeasedQueue) (limit : Nat) :
    Keeps (draining maxReclaims) anyEnd (drainOnce poison queue maxReclaims limit) [] := by
  refine ⟨trivial, ?_⟩
  intro (now : Int) _
  refine ⟨rfl, ?_⟩
  intro (_ : Unit) _
  refine ⟨trivial, ?_⟩
  intro (due : List ClaimedRow) _
  have hclaimed : (⟨.claimDue queue now limit, due⟩ : (chore : Chore) × chore.Answer) ∈
      [] ++ [⟨.clock, now⟩] ++ [⟨.reclaimExpired queue now maxReclaims limit, ()⟩] ++
        [⟨.claimDue queue now limit, due⟩] := by simp
  exact processRows_keeps due [] _ rfl hclaimed (by simp)

/-- A started poison row stands behind every row at risk of its batch, and those were
started before it. -/
theorem start_safe {seen : History Chore Chore.Answer} {plant : Plant} {row : ClaimedRow}
    (hsafe : plant.Safe poison maxReclaims)
    (hknown : ∀ entry ∈ seen, (sparing poison maxReclaims).known entry.1 entry.2 plant)
    (howed : InBatchOrder seen row) :
    (plant.begin poison row).Safe poison maxReclaims ∧ plant.Later (plant.begin poison row) := by
  refine begin_safe hsafe fun hpoison key lease hlease htoken hne hrisk => ?_
  obtain ⟨queue, now, limit, batch, ahead, behind, hclaimed, hbatch, hearlier⟩ := howed
  have horder : AheadOfPoison poison maxReclaims batch plant := hknown _ hclaimed
  obtain ⟨-, hahead⟩ := horder ahead row behind hbatch hpoison
  obtain ⟨earlier, hmember, rfl⟩ :=
    List.mem_map.mp (hahead key lease hlease htoken hne hrisk)
  exact hrisk.1 (hknown _ (hearlier earlier hmember))

theorem sparing_upheld :
    Upheld (sparing poison maxReclaims) (poisoned poison) (drains poison maxReclaims)
      (RiskAvoided poison maxReclaims) where
  call := by
    rintro call ⟨queue, limit, rfl⟩
    exact drainOnce_keeps queue limit
  tick := fun hsafe hmoved => happen_safe hsafe hmoved
  act := by
    intro seen chore turn answer plant plant' hsafe hknown howed hallowed hperform
    refine ⟨trivial, ?_⟩
    cases chore with
    | clock =>
        cases turn with
        | proceed =>
            obtain ⟨rfl, rfl⟩ := Prod.mk.inj (Option.some.inj hperform)
            exact ⟨hsafe, Plant.Later.refl plant, trivial⟩
        | _ => cases hperform
    | reclaimExpired queue now allowed limit =>
        cases turn with
        | proceed =>
            obtain rfl : allowed = maxReclaims := howed
            obtain ⟨next, hoperate, heq⟩ := Option.map_eq_some_iff.mp hperform
            obtain ⟨rfl, rfl⟩ := Prod.mk.inj heq
            obtain ⟨hsafe', hlater⟩ := reclaim_safe hsafe hallowed hoperate
            exact ⟨hsafe', hlater, trivial⟩
        | _ => cases hperform
    | claimDue queue now limit =>
        cases turn with
        | drawn token =>
            obtain ⟨next, hoperate, heq⟩ := Option.map_eq_some_iff.mp hperform
            obtain ⟨rfl, rfl⟩ := Prod.mk.inj heq
            exact claim_safe hsafe hallowed hoperate
        | _ => cases hperform
    | start row =>
        cases turn with
        | proceed =>
            obtain ⟨rfl, rfl⟩ := Prod.mk.inj (Option.some.inj hperform)
            obtain ⟨hsafe', hlater⟩ := start_safe hsafe hknown howed
            exact ⟨hsafe', hlater, List.mem_cons_self⟩
        | _ => cases hperform
    | acknowledge row =>
        cases turn with
        | proceed =>
            obtain ⟨next, hoperate, heq⟩ := Option.map_eq_some_iff.mp hperform
            obtain ⟨rfl, rfl⟩ := Prod.mk.inj heq
            obtain ⟨hsafe', hlater⟩ := acknowledge_safe hsafe hoperate
            exact ⟨hsafe', hlater, trivial⟩
        | _ => cases hperform

end Spared

theorem Plant.safe_empty (poison : RowKey) (maxReclaims : Nat) (start : Int) :
    (Plant.empty start).Safe poison maxReclaims := by
  have hnone : ∀ key, (Plant.empty start).lease key = none := by
    intro key
    cases key with
    | event name eventId => cases name <;> rfl
    | delivery deliveryId => rfl
  refine ⟨QueueStores.keyed_empty, QueueRun.sound_start, ?_, ?_⟩
  · intro key lease token hlease
    rw [hnone key] at hlease
    cases hlease
  · intro key lease hlease
    rw [hnone key] at hlease
    cases hlease

/-- No neighbour of the poison row is dead before it was started, in every run that
puts no row at risk behind it. -/
theorem run_spares {poison : RowKey} {maxReclaims : Nat} {start : Int}
    {world : World Plant Chore Chore.Answer Unit Unit}
    (hrun : Run (poisoned poison) (drains poison maxReclaims) (RiskAvoided poison maxReclaims)
      (World.initial (Plant.empty start)) world) :
    NeighboursSpared poison world.store :=
  (sparing_upheld.run (Kept.initial (Plant.safe_empty poison maxReclaims start)) hrun).1.inv.spared

/-! ### Runs on two rows -/

instance (plant : Plant) (maxReclaims : Nat) (key : RowKey) :
    Decidable (plant.AtRisk maxReclaims key) :=
  decidable_of_iff (key ∉ plant.started ∧
    (plant.lease key).any (fun lease => reclaimExhausted lease.reclaims maxReclaims) = true)
    (and_congr_right fun _ => by simp [Option.any_eq_true])

theorem mem_tail_dropWhile {poison key : RowKey} (ahead behind : List RowKey)
    (h : key ∈ behind) :
    key ∈ ((ahead ++ poison :: behind).dropWhile (fun other => other ≠ poison)).tail := by
  induction ahead with
  | nil => simpa using h
  | cons first ahead ih =>
      by_cases hfirst : first = poison
      · simp [hfirst, h]
      · simpa [hfirst] using ih

/-- A test of the condition: nothing behind the poison row of a claim is at risk, and
no live worker holds a row at risk when a recovery comes. -/
def riskAvoided (poison : RowKey) (maxReclaims : Nat) (_ : History Chore Chore.Answer)
    (chore : Chore) (plant : Plant) : Bool :=
  match chore with
  | .claimDue queue now limit =>
      ((plant.run.stores.dueKeys now limit queue).dropWhile (fun key => key ≠ poison)).tail.all
        (fun key => ¬plant.AtRisk maxReclaims key)
  | .reclaimExpired _ _ _ _ => plant.held.all (fun row => ¬plant.AtRisk maxReclaims row.key)
  | _ => true

theorem riskAvoided_sound {poison : RowKey} {maxReclaims : Nat}
    {seen : History Chore Chore.Answer} {chore : Chore} {plant : Plant}
    (h : riskAvoided poison maxReclaims seen chore plant = true) :
    RiskAvoided poison maxReclaims seen chore plant := by
  cases chore with
  | claimDue queue now limit =>
      intro ahead behind hbatch key hkey
      have hall : ((plant.run.stores.dueKeys now limit queue).dropWhile
          (fun key => key ≠ poison)).tail.all (fun key => ¬plant.AtRisk maxReclaims key) = true := h
      rw [hbatch] at hall
      exact of_decide_eq_true (List.all_eq_true.mp hall key (mem_tail_dropWhile ahead behind hkey))
  | reclaimExpired queue now allowed limit =>
      intro row hrow _ hrisk
      exact absurd hrisk (of_decide_eq_true (List.all_eq_true.mp h row hrow))
  | _ => trivial

abbrev PlantSchedule := List (Move Chore Chore.Answer PlantTurn Unit Unit)

def poisonRow : RowKey := .event .outbox "poison"

def neighbourRow : RowKey := .event .outbox "neighbour"

def outboxEvent (eventId : String) : EventEnvelope :=
  { eventId := eventId, eventType := "core.order.created", entityType := "order"
    entityId := "order", payload := [] }

/-- One drain claims two rows, starts the first, and its lease runs out. -/
def oneCrash (index maxReclaims : Nat) (token : String) : PlantSchedule :=
  .start (drainOnce poisonRow (.events .outbox) maxReclaims 2) ::
    acts index [.proceed, .proceed, .drawn token, .proceed] ++ [.tick (.elapsed 40000)]

/-- The neighbour arrived first: it is done before the poison row crashes the worker,
and the next recovery gives up on the poison row alone. -/
def neighbourAhead : PlantSchedule :=
  [.tick (.arrived .outbox (outboxEvent "neighbour")), .tick (.elapsed 1),
    .tick (.arrived .outbox (outboxEvent "poison")), .tick (.elapsed 1),
    .start (drainOnce poisonRow (.events .outbox) 0 2)] ++
  acts 0 [.proceed, .proceed, .drawn "first", .proceed, .proceed, .proceed] ++
  [.tick (.elapsed 40000), .start (drainOnce poisonRow (.events .outbox) 0 2)] ++
  acts 1 [.proceed, .proceed]

/-- The neighbour arrived second, and four workers in a row die of the poison row. -/
def neighbourBehind : PlantSchedule :=
  [.tick (.arrived .outbox (outboxEvent "poison")), .tick (.elapsed 1),
    .tick (.arrived .outbox (outboxEvent "neighbour")), .tick (.elapsed 1)] ++
  oneCrash 0 3 "first" ++ oneCrash 1 3 "second" ++ oneCrash 2 3 "third" ++
  oneCrash 3 3 "fourth" ++ [.start (drainOnce poisonRow (.events .outbox) 3 2)] ++
  acts 4 [.proceed, .proceed]

set_option maxRecDepth 20000 in
theorem run_spares_neighbourAhead :
    ∃ world, play (poisoned poisonRow) (riskAvoided poisonRow 0) neighbourAhead
        (World.initial (Plant.empty 0)) = some world ∧
      (world.store.lease poisonRow).map Lease.phase = some .dead ∧
      (world.store.lease neighbourRow).map Lease.phase = some .finished ∧
      NeighboursSpared poisonRow world.store := by
  have hplays : (play (poisoned poisonRow) (riskAvoided poisonRow 0) neighbourAhead
      (World.initial (Plant.empty 0))).any (fun world =>
        (world.store.lease poisonRow).map Lease.phase = some .dead ∧
        (world.store.lease neighbourRow).map Lease.phase = some .finished) = true := by
    decide +kernel
  obtain ⟨world, hworld, hphases⟩ := (Option.any_eq_true _ _).mp hplays
  obtain ⟨hpoison, hneighbour⟩ := of_decide_eq_true hphases
  have hrun : Run (poisoned poisonRow) (drains poisonRow 0) (RiskAvoided poisonRow 0)
      (World.initial (Plant.empty 0)) world := by
    refine play_run hworld ?_ (fun _ _ _ h => riskAvoided_sound h)
    simp [neighbourAhead, acts, drains_drainOnce]
  exact ⟨world, hworld, hpoison, hneighbour, run_spares hrun⟩

set_option maxRecDepth 20000 in
/-- Four crashes on the poison row spend the budget of the row behind it. -/
theorem run_spares_fails :
    ¬∀ (poison : RowKey) (maxReclaims : Nat) (start : Int)
      (world : World Plant Chore Chore.Answer Unit Unit),
      Run (poisoned poison) (drains poison maxReclaims) anything
        (World.initial (Plant.empty start)) world → NeighboursSpared poison world.store := by
  intro hclaim
  have hplays : (play (poisoned poisonRow) unrestricted neighbourBehind
      (World.initial (Plant.empty 0))).any (fun world =>
        (world.store.lease neighbourRow).map Lease.phase = some .dead ∧
        neighbourRow ∉ world.store.started) = true := by
    decide +kernel
  obtain ⟨world, hworld, hphases⟩ := (Option.any_eq_true _ _).mp hplays
  obtain ⟨hdead, hnever⟩ := of_decide_eq_true hphases
  have hrun : Run (poisoned poisonRow) (drains poisonRow 3) anything
      (World.initial (Plant.empty 0)) world := by
    refine play_run hworld ?_ (fun _ _ _ _ => trivial)
    simp [neighbourBehind, oneCrash, acts, drains_drainOnce]
  obtain ⟨lease, hlease, hphase⟩ := Option.map_eq_some_iff.mp hdead
  rcases hclaim poisonRow 3 0 world hrun neighbourRow lease hlease hphase with hsame | hstarted
  · exact absurd hsame (by decide)
  · exact hnever hstarted

end WaslaCore.Eventing
