import WaslaCore.Identity.Registering
import WaslaCore.Money.RacingCapture

/-!
The four keyed operations under racing repeats of one request. Each answers a repeat
where the repeat looks the key up after the first was recorded; a repeat that looked
it up before fails at the unique key.
-/

namespace WaslaCore.Retries

open Platform Interleaving Data

/-- Any number of identical calls of each operation, in any order of their actions:
where no call goes on from a lookup that found nothing once another call has recorded
the operation (for a hold: nor past its expiry), every call that ends returns the same
record, and one record and one event have been committed. -/
theorem racing_retries (registered : Identity.Registering.Directory) (start : Db) :
    (∀ (input : Identity.Registering.RegisterIdentityInput),
      Identity.Registering.RegisterReady registered input →
      ∀ world, Run Identity.Registering.registry
          (fun call => call = Identity.Registering.registerIdentity input)
          (Identity.Registering.LinkStillUnused input) (World.initial registered) world →
        RecordedOnce (fun directory => directory.store.identities.values)
            Identity.Registering.Directory.outbox
            Identity.Registering.RegisterIdentityResult.identity registered world ∧
          RecordedOnce (fun directory => directory.store.principals.values)
            Identity.Registering.Directory.outbox
            Identity.Registering.RegisterIdentityResult.principal registered world) ∧
    (∀ (input : Money.CreditInput) (wallet : Money.Wallet),
      Money.CreditReady start input wallet →
      ∀ world, Run smooth (fun call => call = Money.credit input)
          (Money.TransactionStillUnused input.businessReference) (World.initial start) world →
        RecordedOnce (fun db => db.money.ledger.values) Db.outbox (fun moved => moved) start
          world) ∧
    (∀ (input : Money.AuthorizeInput) (wallet : Money.Wallet),
      Money.AuthorizeReady start input wallet →
      ∀ world, Run smooth (fun call => call = Money.authorize input)
          (Money.AuthorizationStillUnused input) (World.initial start) world →
        RecordedOnce (fun db => db.money.authorizations.values) Db.outbox (fun row => row) start
          world) ∧
    (∀ (input : Money.CaptureInput) (held : Money.PaymentAuthorization)
        (wallet : Money.Wallet) (requested : Int),
      Money.CaptureReady start input held wallet requested →
      ∀ world, Run smooth (fun call => call = Money.capture input)
          (Money.CaptureStillOpen (input.reference held) held) (World.initial start) world →
        RecordedOnce (fun db => db.money.ledger.values) Db.outbox (fun moved => moved) start
          world) :=
  ⟨fun _ ready _ hrun => Identity.Registering.register_recordedOnce ready hrun,
    fun _ _ ready _ hrun => Money.credit_recordedOnce ready hrun,
    fun _ _ ready _ hrun => Money.authorize_recordedOnce ready hrun,
    fun _ _ _ _ ready _ hrun => Money.capture_recordedOnce ready hrun⟩

/-! ### The databases the histories start from -/

/-- The database after a history of requests on an empty one. -/
def reached (schedule : Schedule) : Db :=
  match play core unrestricted schedule (World.initial (Db.empty 0)) with
  | some world => world.store
  | none => Db.empty 0

theorem reached_reachable {schedule : Schedule}
    (hcalls : ∀ call, Move.start call ∈ schedule → requests call) :
    Money.Reachable (reached schedule) := by
  unfold reached
  split
  · rename_i world hworld
    exact ⟨0, world, unrestricted_run hworld hcalls, rfl⟩
  · exact ⟨0, World.initial (Db.empty 0), .refl, rfl⟩

/-- A wallet of 100 with a hold of 60. -/
def held : Db := reached holdPlaced

theorem held_reachable : Money.Reachable held :=
  reached_reachable (by
    simp [holdPlaced, walletOpened, creditPosted, authorizeDecided, authorizeCommitted, acts])

def wallet : Money.Wallet := ⟨idOf '2', .identity, idOf '1', "SAR", .active, 0⟩

def hold : Money.PaymentAuthorization :=
  Money.newAuthorization (idOf '4') wallet ⟨idOf '2', 60, "order", .absent⟩ 0 none

/-- Nobody is registered yet. -/
def unregistered : Identity.Registering.Directory := ⟨.empty, [], [], 0⟩

def registering : Identity.Registering.RegisterIdentityInput :=
  { channelType := .telegram, externalId := "77", correlationId := "request" }

def crediting : Money.CreditInput := ⟨idOf '2', 25, "refill"⟩

def authorizing : Money.AuthorizeInput := ⟨idOf '2', 40, "second order", .absent⟩

def capturing : Money.CaptureInput := ⟨idOf '4', none, none⟩

theorem registering_ready : Identity.Registering.RegisterReady unregistered registering where
  externalId := by decide
  correlationId := by decide
  unlinked := rfl
  legacy := by rintro ⟨⟩
  named := by decide
  service := by rintro ⟨⟩

set_option maxRecDepth 20000 in
theorem held_stored : held.money.getWallet (idOf '2') = some wallet ∧
    held.money.getAuthorization (idOf '4') = some hold ∧
    held.money.findTransactionByReference crediting.businessReference = none ∧
    held.money.findAuthorizationByReference authorizing.businessReference = none ∧
    held.money.findTransactionByReference (capturing.reference hold) = none ∧
    authorizing.amountMinor ≤ Money.available authorizing.walletId held ∧
    Money.captureAmount held.now hold capturing = .ok 60 := by decide +kernel

theorem crediting_ready : Money.CreditReady held crediting wallet where
  id := by decide +kernel
  found := held_stored.1
  amount := by decide +kernel
  unused := held_stored.2.2.1

theorem authorizing_ready : Money.AuthorizeReady held authorizing wallet where
  id := by decide +kernel
  found := held_stored.1
  own := rfl
  active := rfl
  amount := by decide +kernel
  unused := held_stored.2.2.2.1
  funds := held_stored.2.2.2.2.2.1
  expiry := by decide
  reachable := held_reachable

theorem capturing_ready : Money.CaptureReady held capturing hold wallet 60 where
  id := by decide +kernel
  found := held_stored.2.1
  walletId := by decide +kernel
  wallet := held_stored.1
  amount := held_stored.2.2.2.2.2.2
  unused := held_stored.2.2.2.2.1
  reachable := held_reachable

/-! ### A repeat after the first, and two together -/

section Histories

variable {σ A : Type} {R : A → Type} {ω ε β ρ η : Type} {system : System σ A R ω}

/-- The first call runs to its end while the second has not begun. -/
def repeated (call : Process A R ε β) (first second : List ω) : List (Move A R ω ε β) :=
  .start call :: .start call :: acts 0 first ++ acts 1 second

/-- Both calls read, then both go on. -/
def together (call : Process A R ε β) (reads first second : List ω) : List (Move A R ω ε β) :=
  .start call :: .start call :: acts 0 reads ++ acts 1 reads ++ acts 0 first ++ acts 1 second

theorem repeated_calls {call : Process A R ε β} {first second : List ω} :
    ∀ other, Move.start other ∈ repeated call first second → other = call := by
  simp [repeated, acts]

theorem together_calls {call : Process A R ε β} {reads first second : List ω} :
    ∀ other, Move.start other ∈ together call reads first second → other = call := by
  simp [together, acts]

/-- A history that plays through has what every such run has. -/
theorem repeated_plays {call : Process A R ε β} {first second : List ω} {start : σ}
    {permitted : History A R → A → σ → Bool} {allowed : History A R → A → σ → Prop}
    {claim : World σ A R ε β → Prop}
    (hplays : (play system permitted (repeated call first second) (World.initial start)).isSome =
      true)
    (hclaim : ∀ world, Run system (fun other => other = call) allowed (World.initial start) world →
      claim world)
    (hallowed : ∀ seen action store, permitted seen action store = true →
      allowed seen action store) :
    ∃ world, play system permitted (repeated call first second) (World.initial start) =
      some world ∧ claim world := by
  obtain ⟨world, hworld⟩ := Option.isSome_iff_exists.mp hplays
  exact ⟨world, hworld, hclaim world (play_run hworld repeated_calls hallowed)⟩

def failed : Process A R ε β → Bool
  | .fail _ => true
  | _ => false

theorem failed_iff {call : Process A R ε β} (h : failed call = true) : ∃ error, call = .fail error := by
  cases call with
  | fail error => exact ⟨error, rfl⟩
  | done value => cases h
  | act action next => cases h

/-- A history in which a call fails is no history of one record returned by all. -/
theorem together_fails (reads first second : List ω) {call : Process A R ε β} {start : σ}
    {records : σ → List ρ} {outbox : σ → List η} {returned : β → ρ}
    (hplays : (play system unrestricted (together call reads first second)
      (World.initial start)).any (fun world => world.tasks.any fun task => failed task.rest) = true) :
    ¬∀ world, Run system (fun other => other = call) anything (World.initial start) world →
      RecordedOnce records outbox returned start world := by
  intro hclaim
  obtain ⟨world, hworld, hfailed⟩ := (Option.any_eq_true _ _).mp hplays
  obtain ⟨task, htask, hfail⟩ := List.any_eq_true.mp hfailed
  obtain ⟨error, hrest⟩ := failed_iff hfail
  exact (hclaim world (play_run hworld together_calls fun _ _ _ _ => trivial)).returns task htask
    error hrest

end Histories

set_option maxRecDepth 20000 in
/-- Two identical calls that both look the key up before either commits: the second
commit is refused by the unique key, and that refusal is what its caller gets. -/
theorem racing_retries_fails :
    (∃ start input, Identity.Registering.RegisterReady start input ∧
      ¬∀ world, Run Identity.Registering.registry
          (fun call => call = Identity.Registering.registerIdentity input) anything
          (World.initial start) world →
        RecordedOnce (fun directory => directory.store.identities.values)
          Identity.Registering.Directory.outbox
          Identity.Registering.RegisterIdentityResult.identity start world) ∧
    (∃ start input wallet, Money.CreditReady start input wallet ∧
      ¬∀ world, Run smooth (fun call => call = Money.credit input) anything
          (World.initial start) world →
        RecordedOnce (fun db => db.money.ledger.values) Db.outbox (fun moved => moved) start
          world) ∧
    (∃ start input wallet, Money.AuthorizeReady start input wallet ∧
      ¬∀ world, Run smooth (fun call => call = Money.authorize input) anything
          (World.initial start) world →
        RecordedOnce (fun db => db.money.authorizations.values) Db.outbox (fun row => row) start
          world) ∧
    (∃ start input hold wallet requested, Money.CaptureReady start input hold wallet requested ∧
      ¬∀ world, Run smooth (fun call => call = Money.capture input) anything
          (World.initial start) world →
        RecordedOnce (fun db => db.money.ledger.values) Db.outbox (fun moved => moved) start
          world) := by
  refine ⟨⟨unregistered, registering, registering_ready, together_fails [.proceed]
      [.proceed, .drawn (idOf '1'), .drawn (idOf '2'), .drawn (idOf '3'), .proceed]
      [.proceed, .drawn (idOf '4'), .drawn (idOf '5'), .drawn (idOf '6'), .proceed] ?_⟩,
    ⟨held, crediting, wallet, crediting_ready, together_fails [.proceed, .proceed]
      [.drawn (idOf '5'), .proceed, .proceed] [.drawn (idOf '6'), .proceed, .proceed] ?_⟩,
    ⟨held, authorizing, wallet, authorizing_ready,
      together_fails [.proceed, .proceed, .proceed, .proceed, .proceed, .proceed]
      [.drawn (idOf '5'), .proceed, .proceed, .proceed]
      [.drawn (idOf '6'), .proceed, .proceed, .proceed] ?_⟩,
    ⟨held, capturing, hold, wallet, 60, capturing_ready,
      together_fails [.proceed, .proceed, .proceed, .proceed]
      [.drawn (idOf '5'), .proceed, .proceed, .proceed]
      [.drawn (idOf '6'), .proceed, .proceed, .proceed] ?_⟩⟩ <;>
    decide +kernel

/-! ### The condition along a history -/

/-- The call was told that nothing has the reference. -/
def missedTransaction (reference : String) (seen : WaslaCore.Seen) : Bool :=
  seen.any fun entry =>
    match entry with
    | ⟨.read (.findTransactionByReference other), .ok none⟩ => other = reference
    | _ => false

def missedAuthorization (reference : String) (seen : WaslaCore.Seen) : Bool :=
  seen.any fun entry =>
    match entry with
    | ⟨.read (.findAuthorizationByReference other), .ok none⟩ => other = reference
    | _ => false

def missedLink (input : Identity.Registering.RegisterIdentityInput)
    (seen : Identity.Registering.Seen) : Bool :=
  seen.any fun entry =>
    match entry with
    | ⟨.read (.findLink channelType externalId), none⟩ =>
        channelType = input.channelType && externalId = input.externalId
    | _ => false

theorem missedTransaction_of {reference : String} {seen : WaslaCore.Seen}
    (h : Money.MissedTransaction reference seen) : missedTransaction reference seen = true :=
  List.any_eq_true.mpr ⟨_, h, decide_eq_true rfl⟩

theorem missedAuthorization_of {reference : String} {seen : WaslaCore.Seen}
    (h : Money.MissedAuthorization reference seen) : missedAuthorization reference seen = true :=
  List.any_eq_true.mpr ⟨_, h, decide_eq_true rfl⟩

theorem missedLink_of {input : Identity.Registering.RegisterIdentityInput}
    {seen : Identity.Registering.Seen} (h : Identity.Registering.MissedLink input seen) :
    missedLink input seen = true :=
  List.any_eq_true.mpr ⟨_, h, by simp⟩

/-- A test that says nothing to calls that were not told so. -/
def onceMissed (missed : Bool) (holds : Bool) : Bool := !missed || holds

theorem onceMissed_iff {missed holds : Bool} :
    onceMissed missed holds = true ↔ (missed = true → holds = true) := by
  cases missed <;> simp [onceMissed]

set_option maxRecDepth 20000 in
/-- A repeat that begins after the first is recorded. -/
theorem racing_retries_repeated :
    (∃ world, play Identity.Registering.registry (fun seen _ directory =>
          onceMissed (missedLink registering seen)
            (directory.store.findLink registering.channelType registering.externalId).isNone)
          (repeated (Identity.Registering.registerIdentity registering)
            [.proceed, .proceed, .drawn (idOf '1'), .drawn (idOf '2'), .drawn (idOf '3'), .proceed]
            [.proceed, .proceed, .proceed]) (World.initial unregistered) = some world ∧
        RecordedOnce (fun directory => directory.store.identities.values)
          Identity.Registering.Directory.outbox
          Identity.Registering.RegisterIdentityResult.identity unregistered world) ∧
    (∃ world, play smooth (fun seen _ db =>
          onceMissed (missedTransaction crediting.businessReference seen)
            (db.money.findTransactionByReference crediting.businessReference).isNone)
          (repeated (Money.credit crediting)
            [.proceed, .proceed, .drawn (idOf '5'), .proceed, .proceed] [.proceed, .proceed])
          (World.initial held) = some world ∧
        RecordedOnce (fun db => db.money.ledger.values) Db.outbox (fun moved => moved) held
          world) ∧
    (∃ world, play smooth (fun seen _ db =>
          onceMissed (missedAuthorization authorizing.businessReference seen)
            (db.money.findAuthorizationByReference authorizing.businessReference).isNone)
          (repeated (Money.authorize authorizing)
            [.proceed, .proceed, .proceed, .proceed, .proceed, .proceed, .drawn (idOf '5'),
              .proceed, .proceed, .proceed] [.proceed, .proceed])
          (World.initial held) = some world ∧
        RecordedOnce (fun db => db.money.authorizations.values) Db.outbox (fun row => row) held
          world) ∧
    (∃ world, play smooth (fun seen _ db =>
          onceMissed (missedTransaction (capturing.reference hold) seen)
            ((db.money.findTransactionByReference (capturing.reference hold)).isNone &&
              !Money.isExpired db.now hold))
          (repeated (Money.capture capturing)
            [.proceed, .proceed, .proceed, .proceed, .drawn (idOf '5'), .proceed, .proceed,
              .proceed] [.proceed, .proceed, .proceed])
          (World.initial held) = some world ∧
        RecordedOnce (fun db => db.money.ledger.values) Db.outbox (fun moved => moved) held
          world) := by
  refine ⟨repeated_plays (by decide +kernel) (fun world hrun =>
      ((racing_retries unregistered held).1 registering registering_ready world hrun).1) ?_,
    repeated_plays (by decide +kernel) (fun world hrun =>
      (racing_retries unregistered held).2.1 crediting wallet crediting_ready world hrun) ?_,
    repeated_plays (by decide +kernel) (fun world hrun =>
      (racing_retries unregistered held).2.2.1 authorizing wallet authorizing_ready world hrun) ?_,
    repeated_plays (by decide +kernel) (fun world hrun =>
      (racing_retries unregistered held).2.2.2 capturing hold wallet 60 capturing_ready world hrun) ?_⟩
  · intro seen action directory htest hmissed
    simpa using onceMissed_iff.mp htest (missedLink_of hmissed)
  · intro seen action db htest hmissed
    simpa using onceMissed_iff.mp htest (missedTransaction_of hmissed)
  · intro seen action db htest hmissed
    refine ⟨by simpa using onceMissed_iff.mp htest (missedAuthorization_of hmissed), ?_⟩
    rintro instant ⟨⟩
  · intro seen action db htest hmissed
    simpa using onceMissed_iff.mp htest (missedTransaction_of hmissed)

end WaslaCore.Retries
