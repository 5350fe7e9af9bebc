import WaslaCore.Eventing.Budgets

/-!
The workers of the three queues under their budgets. Each drains as its code does, any
number of them run at once, and any of them may stop for good at any await. What was
counted on a row since it arrived or was last revived is kept beside the queues; an
acknowledgement is decided from the row as it was claimed, and the claim's token is what
makes that count the stored one.
-/

namespace WaslaCore.Eventing

open Data Interleaving

/-! ### The workers of the queues -/

/-- The queues and the clock, and what was counted on every row. -/
structure Yard where
  now : Int
  run : QueueRun
  tallies : RowKey → Tally

namespace Yard

def empty (now : Int) : Yard := ⟨now, .start, fun _ => .zero⟩

def account (yard : Yard) (key : RowKey) : Option Account := yard.run.stores.account key

/-- The yard with one operation of the stores applied and counted. -/
def operate (yard : Yard) (operation : Operation) : Option Yard :=
  (operation.apply yard.run).map (fun run =>
    { yard with
      run := run
      tallies := fun key => (yard.tallies key).add (operation.note yard.run key) })

end Yard

/-- What came back from an endpoint, or that nothing did. -/
structure TransportResponse where
  status : Option Nat
  error : Option String
  deriving DecidableEq, Repr

/-- Only a timeout and a request to slow down ask to be tried again among the 4xx. -/
def isRetryable : Option Nat → Bool
  | none => true
  | some status =>
      if status = 408 || status = 429 then true
      else if 400 ≤ status && status < 500 then false
      else true

def isSuccess : Option Nat → Bool
  | none => false
  | some status => 200 ≤ status && status < 300

/-- What a worker awaits. -/
inductive Duty where
  | clock
  | reclaimExpired (queue : LeasedQueue) (now : Int) (maxReclaims limit : Nat)
  | claimEvents (name : QueueName) (now : Int) (limit : Nat)
  | claimDeliveries (now : Int) (limit : Nat)
  | publish (row : QueueRow)
  | acknowledgeEvent (name : QueueName) (row : QueueRow) (how : Settlement)
  | getSubscription (subscriptionId : String)
  | getEvent (eventId : String)
  | send (row : EventDelivery)
  | markDelivered (row : EventDelivery) (status : Nat)
  | acknowledgeDelivery (row : EventDelivery) (how : DeliveryAcknowledgement)
  deriving DecidableEq

def Duty.Value : Duty → Type
  | .clock => Int
  | .reclaimExpired _ _ _ _ => Unit
  | .claimEvents _ _ _ => List QueueRow
  | .claimDeliveries _ _ => List EventDelivery
  | .publish _ => Unit
  | .acknowledgeEvent _ _ _ => Bool
  | .getSubscription _ => Option EventSubscription
  | .getEvent _ => Option EventEnvelope
  | .send _ => TransportResponse
  | .markDelivered _ _ => Bool
  | .acknowledgeDelivery _ _ => Bool

abbrev Duty.Answer (duty : Duty) : Type := Except String duty.Value

/-- What the stores do not decide, and what happens around the workers. -/
inductive YardTurn where
  | proceed
  | failing (message : String)
  | drawn (token : String)
  | subscription (found : Option EventSubscription)
  | event (found : Option EventEnvelope)
  | response (response : TransportResponse)
  | elapsed (milliseconds : Nat)
  | arrived (name : QueueName) (event : EventEnvelope)
  | queued (deliveryId eventId subscriptionId : String)
  | revivedEvent (eventId : String)
  | revivedDelivery (deliveryId : String)

/-- An acknowledgement presented under the claim the row was handed over with. -/
def Yard.acknowledgeEvent (yard : Yard) (name : QueueName) (row : QueueRow) (how : Settlement) :
    Option (Bool × Yard) :=
  match row.claimToken with
  | none => none
  | some token =>
      (yard.operate (.acknowledgeEvent name row.event.eventId token how)).map (fun yard' =>
        (((yard.run.stores.events name).acknowledge row.event.eventId (some token)
          (how.acknowledgement name)).1, yard'))

def Yard.acknowledgeDelivery (yard : Yard) (row : EventDelivery) (how : DeliveryAcknowledgement) :
    Option (Bool × Yard) :=
  match row.claimToken with
  | none => none
  | some token =>
      (yard.operate (.acknowledgeDelivery row.deliveryId token how)).map (fun yard' =>
        ((DeliveryQueue.acknowledge yard.run.stores.deliveries row.deliveryId (some token) how).1,
          yard'))

/-- A duty that goes through: its value and the yard after it. -/
def Duty.effect : (duty : Duty) → YardTurn → Yard → Option (duty.Value × Yard)
  | .clock, .proceed, yard => some (yard.now, yard)
  | .reclaimExpired queue now maxReclaims limit, .proceed, yard =>
      (yard.operate (queue.reclaim now maxReclaims limit)).map (fun yard' => ((), yard'))
  | .claimEvents name now limit, .drawn token, yard =>
      (yard.operate (.claimEvents name now limit token)).map (fun yard' =>
        (((yard.run.stores.events name).claimFirst now (claimLimit name limit) token).1, yard'))
  | .claimDeliveries now limit, .drawn token, yard =>
      (yard.operate (.claimDeliveries now limit token)).map (fun yard' =>
        ((DeliveryQueue.claimDue yard.run.stores.deliveries now limit token).1, yard'))
  | .publish _, .proceed, yard => some ((), yard)
  | .acknowledgeEvent name row how, .proceed, yard => yard.acknowledgeEvent name row how
  | .getSubscription _, .subscription found, yard => some (found, yard)
  | .getEvent _, .event found, yard => some (found, yard)
  | .send _, .response response, yard => some (response, yard)
  | .markDelivered row status, .proceed, yard =>
      yard.acknowledgeDelivery row (.delivered status yard.now)
  | .acknowledgeDelivery row how, .proceed, yard => yard.acknowledgeDelivery row how
  | _, _, _ => none

/-- Any duty may throw instead, and then nothing happened. -/
def performDuty (duty : Duty) (turn : YardTurn) (yard : Yard) : Option (duty.Answer × Yard) :=
  match turn with
  | .failing message => some (.error message, yard)
  | other => (duty.effect other yard).map (fun result => (.ok result.1, result.2))

def Yard.happen (yard : Yard) : YardTurn → Option Yard
  | .elapsed milliseconds => some { yard with now := yard.now + milliseconds }
  | .arrived name event => yard.operate (.arrive name event yard.now)
  | .queued deliveryId eventId subscriptionId =>
      yard.operate (.queue deliveryId eventId subscriptionId yard.now)
  | .revivedEvent eventId => yard.operate (.reviveEvent eventId yard.now)
  | .revivedDelivery deliveryId => yard.operate (.reviveDelivery deliveryId yard.now)
  | _ => none

/-- The queues as their workers see them. -/
def yards : System Yard Duty Duty.Answer YardTurn where
  perform := performDuty
  tick := fun turn yard => yard.happen turn

abbrev Shift (β : Type) := Process Duty Duty.Answer Failure β

def attend (duty : Duty) : Shift duty.Value :=
  .act duty fun answer =>
    match answer with
    | .ok value => .done value
    | .error message => .fail (.error message)

/-- The end of a claim whose attempt failed. -/
def WorkerSettings.settlement (settings : WorkerSettings) (now : Int) (row : QueueRow)
    (message : String) : Settlement :=
  if settings.maxAttempts ≤ row.attempts + 1 then .dead message
  else .retry message (now + settings.baseBackoffMs * 2 ^ row.attempts)

/-- It is what the workers of the event queues acknowledge. -/
theorem WorkerSettings.settlement_acknowledgement (settings : WorkerSettings) (now : Int)
    (row : QueueRow) (message : String) (name : QueueName) :
    (settings.settlement now row message).acknowledgement name =
      settings.afterFailure now row message := by
  unfold WorkerSettings.settlement WorkerSettings.afterFailure
  split <;> rfl

/-- A row of an event queue: published, or charged with the attempt. A refused mark
charges nothing. -/
def publishRow (name : QueueName) (settings : WorkerSettings) (now : Int) (row : QueueRow) :
    Shift Unit :=
  tryCatch (do
    let _ : Unit ← attend (.publish row)
    let applied : Bool ← attend (.acknowledgeEvent name row .done)
    if applied then pure () else throw (.fenced row.event.eventId)) fun error =>
      match error with
      | .fenced _ => pure ()
      | .error message => do
          let _ : Bool ←
            attend (.acknowledgeEvent name row (settings.settlement now row message))
          pure ()

/-- The reason a delivery cannot be sent at all. -/
def unbuildable (subscription : Option EventSubscription) : String :=
  if subscription.isSome then "event no longer in the outbox"
  else "subscription no longer exists"

/-- The end of a claim whose request the endpoint did not accept. -/
def WorkerSettings.refusal (settings : WorkerSettings) (now : Int) (row : EventDelivery)
    (response : TransportResponse) : DeliveryAcknowledgement :=
  let reason := response.error.getD
    ("endpoint responded " ++ (response.status.map toString).getD "null")
  if !isRetryable response.status then .dead reason response.status
  else if settings.maxAttempts ≤ row.attempts + 1 then .dead reason response.status
  else .failed reason response.status (now + settings.baseBackoffMs * 2 ^ row.attempts)

/-- One delivery: suppressed where its subscription is not active, given up where it
cannot be built, and otherwise sent. -/
def deliverRow (settings : WorkerSettings) (now : Int) (row : EventDelivery) : Shift Unit := do
  let subscription : Option EventSubscription ← attend (.getSubscription row.subscriptionId)
  if subscription.any (fun found => !found.active) then
    let _ : Bool ← attend (.acknowledgeDelivery row
      (.suppressed ("subscription " ++ row.subscriptionId ++
        " is not active; delivery suppressed")))
    pure ()
  else
    let event : Option EventEnvelope ← attend (.getEvent row.eventId)
    if subscription.isNone || event.isNone then
      let _ : Bool ← attend (.acknowledgeDelivery row (.dead (unbuildable subscription) none))
      pure ()
    else
      let response : TransportResponse ← attend (.send row)
      if isSuccess response.status then
        let _ : Bool ← attend (.markDelivered row (response.status.getD 0))
        pure ()
      else
        let _ : Bool ← attend (.acknowledgeDelivery row (settings.refusal now row response))
        pure ()

/-- The claimed rows one after another. -/
def workThrough {α : Type} (each : α → Shift Unit) : List α → Shift Unit
  | [] => pure ()
  | row :: rest => do
      each row
      workThrough each rest

/-- `drainOnce` of the inbound dispatcher and of the outbox relay. -/
def drainEvents (name : QueueName) (settings : WorkerSettings) (limit : Nat) : Shift Unit := do
  let now : Int ← attend .clock
  let _ : Unit ← attend (.reclaimExpired (.events name) now settings.maxReclaims limit)
  let due : List QueueRow ← attend (.claimEvents name now limit)
  workThrough (publishRow name settings now) due

/-- `drainOnce` of the delivery worker. -/
def drainDeliveries (settings : WorkerSettings) (limit : Nat) : Shift Unit := do
  let now : Int ← attend .clock
  let _ : Unit ← attend (.reclaimExpired .deliveries now settings.maxReclaims limit)
  let due : List EventDelivery ← attend (.claimDeliveries now limit)
  workThrough (deliverRow settings now) due

/-- Any number of workers on the three queues, with one budget for each queue. -/
def shifts (budgets : Budgets) (shift : Shift Unit) : Prop :=
  (∃ name limit, shift = drainEvents name (budgets (.events name)) limit) ∨
    ∃ limit, shift = drainDeliveries (budgets .deliveries) limit

/-! ### What the workers owe -/

abbrev YardHistory := History Duty Duty.Answer

/-- The row was handed over by a claim of this call. -/
def ClaimedEvent (seen : YardHistory) (name : QueueName) (row : QueueRow) : Prop :=
  ∃ (now : Int) (limit : Nat) (rows : List QueueRow),
    ⟨.claimEvents name now limit, .ok rows⟩ ∈ seen ∧ row ∈ rows

def ClaimedDelivery (seen : YardHistory) (row : EventDelivery) : Prop :=
  ∃ (now : Int) (limit : Nat) (rows : List EventDelivery),
    ⟨.claimDeliveries now limit, .ok rows⟩ ∈ seen ∧ row ∈ rows

/-- Only claimed rows are acknowledged, and one is to be tried again only where its
attempts leave another one. -/
def working (budgets : Budgets) : Discipline Duty Duty.Answer where
  told _ _ := True
  owed seen duty :=
    match duty with
    | .reclaimExpired queue _ maxReclaims _ => maxReclaims = (budgets queue).maxReclaims
    | .acknowledgeEvent name row how =>
        ClaimedEvent seen name row ∧ ∀ error next, how = .retry error next →
          row.attempts + 1 < (budgets (.events name)).maxAttempts
    | .markDelivered row _ => ClaimedDelivery seen row
    | .acknowledgeDelivery row how =>
        ClaimedDelivery seen row ∧ ∀ error status next, how = .failed error status next →
          row.attempts + 1 < (budgets .deliveries).maxAttempts
    | _ => True

section Working

variable {budgets : Budgets} {seen : YardHistory}

theorem ClaimedEvent.later {name : QueueName} {row : QueueRow} {later : YardHistory}
    (h : ClaimedEvent seen name row) (hlater : seen <+: later) : ClaimedEvent later name row := by
  obtain ⟨now, limit, rows, hclaim, hrow⟩ := h
  exact ⟨now, limit, rows, hlater.subset hclaim, hrow⟩

theorem ClaimedDelivery.later {row : EventDelivery} {later : YardHistory}
    (h : ClaimedDelivery seen row) (hlater : seen <+: later) : ClaimedDelivery later row := by
  obtain ⟨now, limit, rows, hclaim, hrow⟩ := h
  exact ⟨now, limit, rows, hlater.subset hclaim, hrow⟩

theorem attend_keeps {duty : Duty} {post : YardHistory → Except Failure duty.Value → Prop}
    (howed : (working budgets).owed seen duty)
    (hok : ∀ value, post (seen ++ [⟨duty, .ok value⟩]) (.ok value))
    (herror : ∀ message, post (seen ++ [⟨duty, .error message⟩]) (.error (.error message))) :
    Keeps (working budgets) post (attend duty) seen := by
  refine ⟨howed, fun answer _ => ?_⟩
  cases answer with
  | ok value => exact hok value
  | error message => exact herror message

theorem attend_bind {γ : Type} {duty : Duty} {next : duty.Value → Shift γ}
    {post : YardHistory → Except Failure γ → Prop} (howed : (working budgets).owed seen duty)
    (hok : ∀ value, Keeps (working budgets) post (next value) (seen ++ [⟨duty, .ok value⟩]))
    (herror : ∀ message, post (seen ++ [⟨duty, .error message⟩]) (.error (.error message))) :
    Keeps (working budgets) post (attend duty >>= next) seen := by
  rw [keeps_bind]
  exact attend_keeps howed hok herror

/-- A row is worked through with what was claimed in mind. -/
theorem publishRow_keeps (name : QueueName) (now : Int) {row : QueueRow}
    (hclaimed : ClaimedEvent seen name row) :
    Keeps (working budgets) anyEnd (publishRow name (budgets (.events name)) now row) seen := by
  unfold publishRow
  refine Keeps.tryCatch (p := fun later _ => seen <+: later) ?_ (fun _ _ _ => trivial) ?_
  · refine attend_bind trivial (fun _ => ?_) (fun _ => List.prefix_append _ _)
    have hgrown : seen <+: seen ++ [⟨.publish row, .ok ()⟩] := List.prefix_append _ _
    refine attend_bind ⟨hclaimed.later hgrown, ?_⟩ (fun (applied : Bool) => ?_) (fun _ => ?_)
    · rintro error next ⟨⟩
    · have hall := hgrown.trans (List.prefix_append _
        [⟨.acknowledgeEvent name row .done, .ok applied⟩])
      cases applied <;> exact hall
    · exact hgrown.trans (List.prefix_append _ _)
  · rintro later error hgrown
    cases error with
    | fenced recordId => trivial
    | error message =>
        refine attend_bind ⟨hclaimed.later hgrown, ?_⟩ (fun _ => trivial) (fun _ => trivial)
        intro error next hretry
        by_contra hlast
        rw [WorkerSettings.settlement, if_pos (Nat.not_lt.mp hlast)] at hretry
        cases hretry

theorem deliverRow_keeps (now : Int) {row : EventDelivery} (hclaimed : ClaimedDelivery seen row) :
    Keeps (working budgets) anyEnd (deliverRow (budgets .deliveries) now row) seen := by
  unfold deliverRow
  refine attend_bind trivial (fun (subscription : Option EventSubscription) => ?_)
    (fun _ => trivial)
  have hclaimed := hclaimed.later (List.prefix_append seen
    [⟨.getSubscription row.subscriptionId, .ok subscription⟩])
  split
  · refine attend_bind ⟨hclaimed, ?_⟩ (fun _ => trivial) (fun _ => trivial)
    rintro error status next ⟨⟩
  refine attend_bind trivial (fun (event : Option EventEnvelope) => ?_) (fun _ => trivial)
  have hclaimed := hclaimed.later (List.prefix_append _ [⟨.getEvent row.eventId, .ok event⟩])
  split
  · refine attend_bind ⟨hclaimed, ?_⟩ (fun _ => trivial) (fun _ => trivial)
    rintro error status next ⟨⟩
  refine attend_bind trivial (fun (response : TransportResponse) => ?_) (fun _ => trivial)
  have hclaimed := hclaimed.later (List.prefix_append _ [⟨.send row, .ok response⟩])
  split
  · exact attend_bind hclaimed (fun _ => trivial) (fun _ => trivial)
  · refine attend_bind ⟨hclaimed, ?_⟩ (fun _ => trivial) (fun _ => trivial)
    intro error status next hretry
    by_contra hlast
    simp only [WorkerSettings.refusal] at hretry
    split at hretry
    · cases hretry
    · rw [if_pos (Nat.not_lt.mp hlast)] at hretry
      cases hretry

theorem workThrough_keeps {α : Type} {each : α → Shift Unit} {rows : List α}
    (heach : ∀ row ∈ rows, ∀ later, seen <+: later → Keeps (working budgets) anyEnd (each row) later) :
    Keeps (working budgets) anyEnd (workThrough each rows) seen := by
  induction rows generalizing seen with
  | nil => trivial
  | cons row rest ih =>
      have hfirst := heach row (by simp) seen (List.prefix_refl seen)
      refine hfirst.grows.bind ?_ (fun _ _ _ => trivial)
      rintro later _ ⟨hgrown, -⟩
      exact ih fun other hother final hfinal =>
        heach other (List.mem_cons_of_mem row hother) final (hgrown.trans hfinal)

theorem shifts_keep (shift : Shift Unit) (h : shifts budgets shift) :
    Keeps (working budgets) anyEnd shift [] := by
  rcases h with ⟨name, limit, rfl⟩ | ⟨limit, rfl⟩
  · unfold drainEvents
    refine attend_bind trivial (fun (now : Int) => ?_) (fun _ => trivial)
    refine attend_bind rfl (fun _ => ?_) (fun _ => trivial)
    refine attend_bind trivial (fun (due : List QueueRow) => ?_) (fun _ => trivial)
    refine workThrough_keeps fun row hrow later hlater => publishRow_keeps name now ?_
    exact ⟨now, limit, due, hlater.subset (by simp), hrow⟩
  · unfold drainDeliveries
    refine attend_bind trivial (fun (now : Int) => ?_) (fun _ => trivial)
    refine attend_bind rfl (fun _ => ?_) (fun _ => trivial)
    refine attend_bind trivial (fun (due : List EventDelivery) => ?_) (fun _ => trivial)
    refine workThrough_keeps fun row hrow later hlater => deliverRow_keeps now ?_
    exact ⟨now, limit, due, hlater.subset (by simp), hrow⟩

end Working

/-! ### The contract of the workers -/

/-- Rows and tokens in order, and every row within the budgets of its queue. -/
structure Yard.InBudget (budgets : Budgets) (yard : Yard) : Prop where
  keyed : yard.run.stores.Keyed
  sound : yard.run.book.Sound
  kept : ∀ key, Account.Kept (budgets key.queue).maxAttempts (budgets key.queue).maxReclaims
    (yard.tallies key) (yard.account key)

/-- Tokens stay drawn, and a row that still carries one drawn before was not touched. -/
structure Yard.Later (yard yard' : Yard) : Prop where
  drawn : ∀ token ∈ yard.run.drawn, token ∈ yard'.run.drawn
  held : ∀ key account token, yard'.account key = some account → account.token = some token →
    token ∈ yard.run.drawn → yard.account key = some account

theorem Yard.Later.refl (yard : Yard) : yard.Later yard := ⟨fun _ h => h, fun _ _ _ h _ _ => h⟩

theorem Yard.Later.trans {first second third : Yard} (h : first.Later second)
    (h' : second.Later third) : first.Later third where
  drawn token htoken := h'.drawn token (h.drawn token htoken)
  held key account token haccount htoken hdrawn :=
    h.held key account token (h'.held key account token haccount htoken (h.drawn token hdrawn))
      htoken hdrawn

/-- As long as the row carries the claim's token it has the attempts it was handed over
with. -/
def Yard.Recalls (yard : Yard) (key : RowKey) (claimToken : Option String) (attempts : Nat) : Prop :=
  ∃ token ∈ yard.run.drawn, claimToken = some token ∧ ∀ account, yard.account key = some account →
    account.token = some token → account.attempts = attempts

theorem Yard.Recalls.later {yard yard' : Yard} {key : RowKey} {claimToken : Option String}
    {attempts : Nat} (h : yard.Recalls key claimToken attempts) (hlater : yard.Later yard') :
    yard'.Recalls key claimToken attempts := by
  obtain ⟨token, hdrawn, hclaim, hattempts⟩ := h
  refine ⟨token, hlater.drawn token hdrawn, hclaim, fun account haccount htoken => ?_⟩
  exact hattempts account (hlater.held key account token haccount htoken hdrawn) htoken

def Yard.RecallsEvents (yard : Yard) (name : QueueName) (rows : List QueueRow) : Prop :=
  ∀ row ∈ rows, yard.Recalls (.event name row.event.eventId) row.claimToken row.attempts

def Yard.RecallsDeliveries (yard : Yard) (rows : List EventDelivery) : Prop :=
  ∀ row ∈ rows, yard.Recalls (.delivery row.deliveryId) row.claimToken row.attempts

/-- The contract of the workers under their budgets. -/
def inBudget (budgets : Budgets) : Contract Yard Duty Duty.Answer where
  toDiscipline := working budgets
  inv := Yard.InBudget budgets
  guar := Yard.Later
  guar_refl := Yard.Later.refl
  guar_trans := Yard.Later.trans
  known duty answer yard :=
    match duty, answer with
    | .claimEvents name _ _, .ok rows => yard.RecallsEvents name rows
    | .claimDeliveries _ _, .ok rows => yard.RecallsDeliveries rows
    | _, _ => True
  known_stable := by
    intro duty answer yard yard' hlater hknown
    cases duty with
    | claimEvents name now limit =>
        cases answer with
        | error message => trivial
        | ok rows => exact fun row hrow => (hknown row hrow).later hlater
    | claimDeliveries now limit =>
        cases answer with
        | error message => trivial
        | ok rows => exact fun row hrow => (hknown row hrow).later hlater
    | _ => trivial

section Contract

variable {budgets : Budgets} {yard yard' : Yard}

/-- The token of a lease is the token of the account. -/
theorem QueueStores.lease_of_account {stores : QueueStores} {key : RowKey} {account : Account}
    (h : stores.account key = some account) :
    ∃ lease, stores.lease key = some lease ∧ lease.token = account.token := by
  cases key with
  | event name eventId =>
      obtain ⟨row, hrow, rfl⟩ := Option.map_eq_some_iff.mp h
      exact ⟨row.lease, Option.map_eq_some_iff.mpr ⟨row, hrow, rfl⟩, rfl⟩
  | delivery deliveryId =>
      obtain ⟨row, hrow, rfl⟩ := Option.map_eq_some_iff.mp h
      exact ⟨row.lease, Option.map_eq_some_iff.mpr ⟨row, hrow, rfl⟩, rfl⟩

/-- An operation that abides by the budgets leads to a later yard within them. -/
theorem Yard.InBudget.operate {operation : Operation} (h : yard.InBudget budgets)
    (habides : operation.Abides budgets yard.run) (hoperate : yard.operate operation = some yard') :
    yard'.InBudget budgets ∧ yard.Later yard' := by
  obtain ⟨run, happly, rfl⟩ := Option.map_eq_some_iff.mp hoperate
  have hmove := operation.move h.keyed h.sound happly
  have hturns := operation.turns_account h.keyed h.sound habides happly
  obtain ⟨hdrawn, hheld⟩ := hmove.follows
  refine ⟨⟨operation.keyed h.keyed happly, hmove.sound h.sound, fun key => ?_⟩, hdrawn, ?_⟩
  · exact (hturns key).kept (h.kept key)
  · intro key account token haccount htoken hold
    have hturn := hturns key
    have hafter : run.stores.account key = some account := haccount
    rw [hafter] at hturn
    rcases hturn.held (Option.isSome_iff_exists.mpr ⟨token, htoken⟩) with hsame | ⟨old, hbefore, hfree⟩
    · exact hsame
    · -- a claim puts a new token on the row
      obtain ⟨lease, hlease, hown⟩ := QueueStores.lease_of_account hafter
      have hcarried := hheld key lease token hlease (hown.trans htoken) hold
      obtain ⟨lease', hlease', hown'⟩ := QueueStores.lease_of_account hbefore
      have hlease : yard.run.stores.lease key = some lease := hcarried
      rw [hlease] at hlease'
      obtain rfl := Option.some.inj hlease'
      rw [hown, htoken, hfree] at hown'
      cases hown'

/-- The rows a claim hands over stand in the queue as it hands them over. -/
theorem EventQueue.get_claimFirst {queue : EventQueue} (hkeyed : queue.Keyed) {now : Int}
    {limit : Nat} {token : String} {row : QueueRow} (hrow : row ∈ (queue.claimFirst now limit token).1) :
    row.claimToken = some token ∧
      (queue.claimFirst now limit token).2.get row.event.eventId = some row := by
  obtain ⟨old, hold, rfl⟩ := List.mem_map.mp hrow
  refine ⟨rfl, ?_⟩
  have hvalues : ∀ row ∈ (inDueOrder (queue.values.filter (fun row => row.isDue now))).take limit,
      row ∈ queue.values := by
    intro row hrow
    have hchosen := List.mem_of_mem_take hrow
    rw [inDueOrder, Platform.mem_orderedBy, List.mem_filter] at hchosen
    exact hchosen.1
  have hqueue := EventQueue.putAll_eq_putRows queue (queue.claimFirst now limit token).1
  change (queue.putAll (queue.claimFirst now limit token).1).get old.event.eventId = _
  rw [hqueue]
  have hkept : ∀ row : QueueRow, (row.claimed now token).event.eventId = row.event.eventId :=
    fun _ => rfl
  exact Table.get_putRows_written hkeyed _ hkept hvalues hold

theorem DeliveryQueue.get_claimDue {queue : DeliveryQueue} (hkeyed : DeliveryQueue.Keyed queue)
    {now : Int} {limit : Nat} {token : String} {row : EventDelivery}
    (hrow : row ∈ (DeliveryQueue.claimDue queue now limit token).1) :
    row.claimToken = some token ∧
      (DeliveryQueue.claimDue queue now limit token).2.get row.deliveryId = some row := by
  obtain ⟨old, hold, rfl⟩ := List.mem_map.mp hrow
  refine ⟨rfl, ?_⟩
  have hvalues : ∀ row ∈ (deliveriesInDueOrder
      (queue.values.filter (fun row => row.isDue now))).take limit, row ∈ queue.values := by
    intro row hrow
    have hchosen := List.mem_of_mem_take hrow
    rw [deliveriesInDueOrder, Platform.mem_orderedBy, List.mem_filter] at hchosen
    exact hchosen.1
  have hkept : ∀ row : EventDelivery, (row.claimed now token).deliveryId = row.deliveryId :=
    fun _ => rfl
  change (DeliveryQueue.claimDue queue now limit token).2.get old.deliveryId = _
  exact Table.get_putRows_written hkeyed _ hkept hvalues hold

theorem recalls_claimEvents {name : QueueName} {now : Int} {limit : Nat} {token : String}
    (h : yard.InBudget budgets)
    (hoperate : yard.operate (.claimEvents name now limit token) = some yard') :
    yard'.RecallsEvents name
      ((yard.run.stores.events name).claimFirst now (claimLimit name limit) token).1 := by
  obtain ⟨run, happly, rfl⟩ := Option.map_eq_some_iff.mp hoperate
  simp only [Operation.apply] at happly
  split at happly
  · cases happly
  obtain rfl := Option.some.inj happly
  intro row hrow
  obtain ⟨htoken, hget⟩ := EventQueue.get_claimFirst (h.keyed.events name) hrow
  refine ⟨token, List.mem_cons_self, htoken, fun account haccount _ => ?_⟩
  simp only [Yard.account, QueueStores.account, QueueStores.events_withEvents, if_true, hget,
    Option.map_some, Option.some.injEq] at haccount
  rw [← haccount]
  rfl

theorem recalls_claimDeliveries {now : Int} {limit : Nat} {token : String}
    (h : yard.InBudget budgets)
    (hoperate : yard.operate (.claimDeliveries now limit token) = some yard') :
    yard'.RecallsDeliveries
      (DeliveryQueue.claimDue yard.run.stores.deliveries now limit token).1 := by
  obtain ⟨run, happly, rfl⟩ := Option.map_eq_some_iff.mp hoperate
  simp only [Operation.apply] at happly
  split at happly
  · cases happly
  obtain rfl := Option.some.inj happly
  intro row hrow
  obtain ⟨htoken, hget⟩ := DeliveryQueue.get_claimDue h.keyed.deliveries hrow
  refine ⟨token, List.mem_cons_self, htoken, fun account haccount _ => ?_⟩
  simp only [Yard.account, QueueStores.account, hget, Option.map_some, Option.some.injEq]
    at haccount
  rw [← haccount]
  rfl

/-- The row that still carries the claim's token has the attempts it was claimed with. -/
theorem Yard.Recalls.event {name : QueueName} {eventId token : String}
    {claimToken : Option String} {attempts : Nat}
    (h : yard.Recalls (.event name eventId) claimToken attempts) (htoken : claimToken = some token)
    {row : QueueRow} (hrow : (yard.run.stores.events name).get eventId = some row)
    (hheld : row.claimToken = some token) : row.attempts = attempts := by
  obtain ⟨own, -, hown, hattempts⟩ := h
  rw [htoken] at hown
  obtain rfl := Option.some.inj hown
  exact hattempts row.account (by simp [Yard.account, QueueStores.account, hrow]) hheld

theorem Yard.Recalls.delivery {deliveryId token : String} {claimToken : Option String}
    {attempts : Nat} (h : yard.Recalls (.delivery deliveryId) claimToken attempts)
    (htoken : claimToken = some token) {row : EventDelivery}
    (hrow : yard.run.stores.deliveries.get deliveryId = some row)
    (hheld : row.claimToken = some token) : row.attempts = attempts := by
  obtain ⟨own, -, hown, hattempts⟩ := h
  rw [htoken] at hown
  obtain rfl := Option.some.inj hown
  exact hattempts row.account (by simp [Yard.account, QueueStores.account, hrow]) hheld

/-- An acknowledgement of a claimed row is one operation that abides by the budgets. -/
theorem Yard.acknowledgeEvent_ok {name : QueueName} {row : QueueRow} {how : Settlement}
    {answer : Bool} (h : yard.InBudget budgets)
    (hrecalls : yard.Recalls (.event name row.event.eventId) row.claimToken row.attempts)
    (hretry : ∀ error next, how = .retry error next →
      row.attempts + 1 < (budgets (.events name)).maxAttempts)
    (hperform : yard.acknowledgeEvent name row how = some (answer, yard')) :
    yard'.InBudget budgets ∧ yard.Later yard' := by
  unfold Yard.acknowledgeEvent at hperform
  split at hperform
  · cases hperform
  rename_i token htoken
  obtain ⟨after, hoperate, hafter⟩ := Option.map_eq_some_iff.mp hperform
  obtain ⟨-, rfl⟩ := Prod.mk.inj hafter
  refine h.operate ?_ hoperate
  cases how with
  | done => trivial
  | dead error => trivial
  | retry error next =>
      intro stored hstored hheld
      rw [hrecalls.event htoken hstored hheld]
      exact hretry error next rfl

theorem Yard.acknowledgeDelivery_ok {row : EventDelivery} {how : DeliveryAcknowledgement}
    {answer : Bool} (h : yard.InBudget budgets)
    (hrecalls : yard.Recalls (.delivery row.deliveryId) row.claimToken row.attempts)
    (hretry : ∀ error status next, how = .failed error status next →
      row.attempts + 1 < (budgets .deliveries).maxAttempts)
    (hperform : yard.acknowledgeDelivery row how = some (answer, yard')) :
    yard'.InBudget budgets ∧ yard.Later yard' := by
  unfold Yard.acknowledgeDelivery at hperform
  split at hperform
  · cases hperform
  rename_i token htoken
  obtain ⟨after, hoperate, hafter⟩ := Option.map_eq_some_iff.mp hperform
  obtain ⟨-, rfl⟩ := Prod.mk.inj hafter
  refine h.operate ?_ hoperate
  cases how with
  | delivered status deliveredAt => trivial
  | dead error status => trivial
  | suppressed reason => trivial
  | failed error status next =>
      intro stored hstored hheld
      rw [hrecalls.delivery htoken hstored hheld]
      exact hretry error status next rfl

/-- A duty that goes through keeps the budgets. -/
theorem Duty.effect_ok {duty : Duty} {turn : YardTurn} {value : duty.Value} {seen : YardHistory}
    (h : yard.InBudget budgets)
    (hseen : ∀ entry ∈ seen, (inBudget budgets).known entry.1 entry.2 yard)
    (howed : (working budgets).owed seen duty) (heffect : duty.effect turn yard = some (value, yard')) :
    yard'.InBudget budgets ∧ yard.Later yard' ∧ (inBudget budgets).known duty (.ok value) yard' := by
  have hevents : ∀ name row, ClaimedEvent seen name row →
      yard.Recalls (.event name row.event.eventId) row.claimToken row.attempts := by
    rintro name row ⟨now, limit, rows, hclaim, hrow⟩
    exact hseen _ hclaim row hrow
  have hdeliveries : ∀ row, ClaimedDelivery seen row →
      yard.Recalls (.delivery row.deliveryId) row.claimToken row.attempts := by
    rintro row ⟨now, limit, rows, hclaim, hrow⟩
    exact hseen _ hclaim row hrow
  cases duty with
  | clock =>
      cases turn <;> cases heffect
      exact ⟨h, Yard.Later.refl _, trivial⟩
  | reclaimExpired queue now maxReclaims limit =>
      cases turn <;> try cases heffect
      obtain ⟨after, hoperate, hafter⟩ := Option.map_eq_some_iff.mp heffect
      obtain ⟨-, rfl⟩ := Prod.mk.inj hafter
      have hown : maxReclaims = (budgets queue).maxReclaims := howed
      have habides : (queue.reclaim now maxReclaims limit).Abides budgets yard.run := by
        cases queue <;> exact hown
      obtain ⟨hafter, hlater⟩ := h.operate habides hoperate
      exact ⟨hafter, hlater, trivial⟩
  | claimEvents name now limit =>
      cases turn <;> try cases heffect
      rename_i token
      obtain ⟨after, hoperate, hafter⟩ := Option.map_eq_some_iff.mp heffect
      obtain ⟨rfl, rfl⟩ := Prod.mk.inj hafter
      have habides : (Operation.claimEvents name now limit token).Abides budgets yard.run := trivial
      obtain ⟨hafter, hlater⟩ := h.operate habides hoperate
      exact ⟨hafter, hlater, recalls_claimEvents h hoperate⟩
  | claimDeliveries now limit =>
      cases turn <;> try cases heffect
      rename_i token
      obtain ⟨after, hoperate, hafter⟩ := Option.map_eq_some_iff.mp heffect
      obtain ⟨rfl, rfl⟩ := Prod.mk.inj hafter
      have habides : (Operation.claimDeliveries now limit token).Abides budgets yard.run := trivial
      obtain ⟨hafter, hlater⟩ := h.operate habides hoperate
      exact ⟨hafter, hlater, recalls_claimDeliveries h hoperate⟩
  | publish row =>
      cases turn <;> cases heffect
      exact ⟨h, Yard.Later.refl _, trivial⟩
  | acknowledgeEvent name row how =>
      cases turn <;> try cases heffect
      obtain ⟨hclaimed, hretry⟩ := howed
      obtain ⟨hafter, hlater⟩ :=
        Yard.acknowledgeEvent_ok h (hevents name row hclaimed) hretry heffect
      exact ⟨hafter, hlater, trivial⟩
  | getSubscription subscriptionId =>
      cases turn <;> cases heffect
      exact ⟨h, Yard.Later.refl _, trivial⟩
  | getEvent eventId =>
      cases turn <;> cases heffect
      exact ⟨h, Yard.Later.refl _, trivial⟩
  | send row =>
      cases turn <;> cases heffect
      exact ⟨h, Yard.Later.refl _, trivial⟩
  | markDelivered row status =>
      cases turn <;> try cases heffect
      obtain ⟨hafter, hlater⟩ := Yard.acknowledgeDelivery_ok h (hdeliveries row howed)
        (by rintro error status next ⟨⟩) heffect
      exact ⟨hafter, hlater, trivial⟩
  | acknowledgeDelivery row how =>
      cases turn <;> try cases heffect
      obtain ⟨hclaimed, hretry⟩ := howed
      obtain ⟨hafter, hlater⟩ :=
        Yard.acknowledgeDelivery_ok h (hdeliveries row hclaimed) hretry heffect
      exact ⟨hafter, hlater, trivial⟩

theorem inBudget_error (duty : Duty) (message : String) (yard : Yard) :
    (inBudget budgets).known duty (.error message) yard := by
  cases duty <;> trivial

/-- What happens around the workers abides by every budget. -/
theorem Yard.InBudget.happen {turn : YardTurn} (h : yard.InBudget budgets)
    (hhappen : yard.happen turn = some yard') : yard'.InBudget budgets ∧ yard.Later yard' := by
  cases turn with
  | elapsed milliseconds =>
      obtain rfl := Option.some.inj hhappen
      exact ⟨⟨h.keyed, h.sound, h.kept⟩, fun _ hdrawn => hdrawn, fun _ _ _ hkey _ _ => hkey⟩
  | arrived name event =>
      have habides : (Operation.arrive name event yard.now).Abides budgets yard.run := trivial
      exact h.operate habides hhappen
  | queued deliveryId eventId subscriptionId =>
      have habides : (Operation.queue deliveryId eventId subscriptionId yard.now).Abides budgets yard.run := trivial
      exact h.operate habides hhappen
  | revivedEvent eventId =>
      have habides : (Operation.reviveEvent eventId yard.now).Abides budgets yard.run := trivial
      exact h.operate habides hhappen
  | revivedDelivery deliveryId =>
      have habides : (Operation.reviveDelivery deliveryId yard.now).Abides budgets yard.run := trivial
      exact h.operate habides hhappen
  | _ => cases hhappen

theorem inBudget_upheld : Upheld (inBudget budgets) yards (shifts budgets) anything where
  call := shifts_keep
  act := by
    intro seen duty turn answer yard yard' hinv hseen howed _ hperform
    refine ⟨trivial, ?_⟩
    simp only [yards, performDuty] at hperform
    split at hperform
    · obtain ⟨rfl, rfl⟩ := Prod.mk.inj (Option.some.inj hperform)
      exact ⟨hinv, Yard.Later.refl _, inBudget_error duty _ _⟩
    · obtain ⟨⟨value, after⟩, heffect, hafter⟩ := Option.map_eq_some_iff.mp hperform
      obtain ⟨rfl, rfl⟩ := Prod.mk.inj hafter
      exact Duty.effect_ok hinv hseen howed heffect
  tick := fun hinv hhappen => hinv.happen hhappen

end Contract

/-! ### Runs -/

/-- A row within the budgets of its queue, counted since it arrived or was last
revived. -/
structure Budgeted (settings : WorkerSettings) (tally : Tally) (account : Account) : Prop where
  recovered : tally.abandonments ≤ settings.maxReclaims ∨
    tally.abandonments = settings.maxReclaims + 1 ∧ account.phase = .dead
  claimed : tally.claims ≤ max settings.maxAttempts 1 + settings.maxReclaims
  spent : account.phase = .pending → account.reclaims ≤ settings.maxReclaims ∧
    (account.attempts < settings.maxAttempts ∨ tally.failures = 0)
  revived : settings.maxAttempts ≤ tally.start →
    tally.failures = 0 ∨ tally.failures = 1 ∧ account.phase = .dead

theorem budgeted_of_within {settings : WorkerSettings} {tally : Tally} {account : Account}
    (h : Account.Within settings.maxAttempts settings.maxReclaims tally account) :
    Budgeted settings tally account where
  recovered := by
    by_cases hmany : settings.maxReclaims < tally.abandonments
    · have hbound := h.recoveries
      exact .inr ⟨by omega, h.abandoned hmany⟩
    · exact .inl (Nat.not_lt.mp hmany)
  claimed := by
    have hbound := h.claims
    omega
  spent hpending := by
    obtain ⟨hreclaims, hrecoverable, hattempts, hretryable, -⟩ := h.whenOpen hpending
    exact ⟨by omega, hretryable.symm⟩
  revived hstart := by
    have hbound := h.failures
    by_cases hfailed : 0 < tally.failures
    · exact .inr ⟨by omega, h.spent hfailed (by omega)⟩
    · exact .inl (by omega)

/-- In every run of any number of workers every row stays within the budgets of its
queue. -/
theorem run_budgeted {budgets : Budgets} {now : Int}
    {world : World Yard Duty Duty.Answer Failure Unit}
    (hrun : Run yards (shifts budgets) anything (World.initial (Yard.empty now)) world)
    (key : RowKey) (account : Account) (haccount : world.store.account key = some account) :
    Budgeted (budgets key.queue) (world.store.tallies key) account := by
  have hstart : (inBudget budgets).inv (Yard.empty now) := by
    refine ⟨QueueStores.keyed_empty, QueueRun.sound_start, fun key => ?_⟩
    cases key with
    | event name eventId => cases name <;> rfl
    | delivery deliveryId => rfl
  obtain ⟨hkept, -⟩ := inBudget_upheld.run (Kept.initial hstart) hrun
  have hwithin := hkept.inv.kept key
  rw [haccount] at hwithin
  exact budgeted_of_within hwithin

abbrev YardSchedule := List (Move Duty Duty.Answer YardTurn Failure Unit)

/-- One attempt and no recovery for every queue. -/
def singleAttempt : Budgets := fun _ =>
  { maxAttempts := 1, maxReclaims := 0, baseBackoffMs := 1000 }

def outboxShift : Shift Unit := drainEvents .outbox (singleAttempt (.events .outbox)) 1

theorem shifts_outboxShift : shifts singleAttempt outboxShift := .inl ⟨.outbox, 1, rfl⟩

def budgetedEvent : EventEnvelope :=
  { eventId := "e1", eventType := "core.order.created", entityType := "order"
    entityId := "order", payload := [] }

def budgetedRow : RowKey := .event .outbox "e1"

/-- The only attempt fails and the row dies, and an operator revives it. -/
def diedAndRevived : YardSchedule :=
  [.tick (.arrived .outbox budgetedEvent), .start outboxShift] ++
  acts 0 [.proceed, .proceed, .drawn "first", .failing "endpoint down", .proceed] ++
  [.tick (.revivedEvent "e1")]

/-- The attempt after the revival fails as well. -/
def failedAgain : YardSchedule :=
  diedAndRevived ++ [.start outboxShift] ++
  acts 1 [.proceed, .proceed, .drawn "second", .failing "endpoint down", .proceed]

/-- The worker that claims the revived row stops, and the next recovery gives up on it. -/
def abandonedAgain : YardSchedule :=
  diedAndRevived ++ [.start outboxShift] ++ acts 1 [.proceed, .proceed, .drawn "second"] ++
  [.tick (.elapsed 40000), .start outboxShift] ++ acts 2 [.proceed, .proceed]

set_option maxRecDepth 20000 in
theorem run_budgeted_failedAgain :
    ∃ world, Run yards (shifts singleAttempt) anything (World.initial (Yard.empty 0)) world ∧
      (world.store.tallies budgetedRow).start = 1 ∧
      (world.store.tallies budgetedRow).failures = 1 ∧
      ∃ account, world.store.account budgetedRow = some account ∧
        Budgeted (singleAttempt budgetedRow.queue) (world.store.tallies budgetedRow) account := by
  have hplays : (play yards unrestricted failedAgain (World.initial (Yard.empty 0))).any
      (fun world => (world.store.tallies budgetedRow).start = 1 ∧
        (world.store.tallies budgetedRow).failures = 1 ∧
        (world.store.account budgetedRow).isSome = true) = true := by
    decide +kernel
  obtain ⟨world, hworld, hfinal⟩ := (Option.any_eq_true _ _).mp hplays
  obtain ⟨hstart, hfailures, hstored⟩ := of_decide_eq_true hfinal
  obtain ⟨account, haccount⟩ := Option.isSome_iff_exists.mp hstored
  have hrun : Run yards (shifts singleAttempt) anything (World.initial (Yard.empty 0)) world := by
    refine play_run hworld ?_ (fun _ _ _ _ => trivial)
    simp [failedAgain, diedAndRevived, acts, shifts_outboxShift]
  exact ⟨world, hrun, hstart, hfailures, account, haccount,
    run_budgeted hrun budgetedRow account haccount⟩

set_option maxRecDepth 20000 in
/-- A row revived with its attempts spent dies again with no further attempt
acknowledged. -/
theorem run_budgeted_fails :
    ¬∀ (budgets : Budgets) (now : Int) (world : World Yard Duty Duty.Answer Failure Unit),
      Run yards (shifts budgets) anything (World.initial (Yard.empty now)) world →
      ∀ key account, world.store.account key = some account → account.phase = .dead →
        (budgets key.queue).maxAttempts ≤ (world.store.tallies key).start →
        (world.store.tallies key).failures = 1 := by
  intro hclaim
  have hplays : (play yards unrestricted abandonedAgain (World.initial (Yard.empty 0))).any
      (fun world => (world.store.account budgetedRow).map Account.phase = some .dead ∧
        (world.store.tallies budgetedRow).start = 1 ∧
        (world.store.tallies budgetedRow).failures = 0) = true := by
    decide +kernel
  obtain ⟨world, hworld, hfinal⟩ := (Option.any_eq_true _ _).mp hplays
  obtain ⟨hdead, hstart, hfailures⟩ := of_decide_eq_true hfinal
  have hrun : Run yards (shifts singleAttempt) anything (World.initial (Yard.empty 0)) world := by
    refine play_run hworld ?_ (fun _ _ _ _ => trivial)
    simp [abandonedAgain, diedAndRevived, acts, shifts_outboxShift]
  obtain ⟨account, haccount, hphase⟩ := Option.map_eq_some_iff.mp hdead
  have hone := hclaim singleAttempt 0 world hrun budgetedRow account haccount hphase
    (Nat.le_of_eq hstart.symm)
  exact absurd (hfailures.symm.trans hone) (by decide)

end WaslaCore.Eventing
