import WaslaCore.Laws

/-!
Rows and ledger agree after every commit of every run. The schedules below name
the actions a request takes when nothing stands in its way; explicit histories
of this and the later modules are put together from them.
-/

namespace WaslaCore

open Platform Interleaving

@[simp] theorem requests_money (request : Money.Request) : requests request.call :=
  .inl ⟨request, rfl⟩

@[simp] theorem requests_fulfillment (request : Fulfillment.Request) : requests request.call :=
  .inr ⟨request, rfl⟩

/-- The law that asks for nothing beyond what every commit keeps. -/
def Law.plain : Law where
  inv := fun _ => True
  guar := fun _ _ => True
  guar_refl := fun _ => trivial
  guar_trans := fun _ _ => trivial
  known := fun _ _ _ => True
  known_stable := fun _ _ => trivial

theorem Law.plain_holds : Law.plain.Holds anything where
  commit := fun _ _ _ _ => ⟨trivial, trivial⟩
  record := fun _ _ => ⟨trivial, trivial⟩
  tick := fun _ _ _ => ⟨trivial, trivial⟩
  read := fun _ _ _ => trivial

/-- Every run keeps the database stocked. -/
theorem stocked_run {start : Int} {world : World Db Action Action.Answer Thrown Unit}
    (hrun : Run core requests anything (World.initial (Db.empty start)) world) :
    Stocked world.store :=
  (Law.plain_holds.run trivial hrun).inv.1

/-! ### Schedules -/

/-- A schedule of CORE's calls. -/
abbrev Schedule := List (Move Action Action.Answer Choice Thrown Unit)

/-- A schedule of requests that plays through is a run of CORE. -/
theorem unrestricted_run {schedule : Schedule}
    {world world' : World Db Action Action.Answer Thrown Unit}
    (h : play core unrestricted schedule world = some world')
    (hcalls : ∀ call, Move.start call ∈ schedule → requests call) :
    Run core requests anything world world' :=
  play_run h hcalls (fun _ _ _ _ => trivial)

/-- The identifiers drawn by the explicit histories. -/
def idOf (digit : Char) : String :=
  String.ofList [digit] ++ "b9f7a52-3c1d-4e8a-9b7c-5d2e1f0a6b3c"

/-- `createWallet`: look for one, draw an identifier, read the clock, commit. -/
def walletOpened (index : Nat) (walletId : String) : Schedule :=
  acts index [.proceed, .drawn walletId, .proceed, .proceed]

/-- `credit`: read the wallet and the reference, build the transaction, commit. -/
def creditPosted (index : Nat) (transactionId : String) : Schedule :=
  acts index [.proceed, .proceed, .drawn transactionId, .proceed, .proceed]

/-- `authorize` up to the balance it decides on. -/
def authorizeDecided (index : Nat) : Schedule :=
  acts index [.proceed, .proceed, .proceed, .proceed, .proceed, .proceed]

/-- The rest of `authorize`: draw an identifier, read the clock twice, commit. -/
def authorizeCommitted (index : Nat) (authorizationId : String) : Schedule :=
  acts index [.drawn authorizationId, .proceed, .proceed, .proceed]

/-- `capture` up to its commit. -/
def captureDecided (index : Nat) (transactionId : String) : Schedule :=
  acts index [.proceed, .proceed, .proceed, .proceed, .drawn transactionId, .proceed, .proceed]

/-- The last action of a request: its commit. -/
def committed (index : Nat) : Schedule := acts index [.proceed]

/-- One identity with a wallet of 100, and a hold of 60 on it. -/
def holdPlaced : Schedule :=
  .start (Money.Request.createWallet ⟨.identity, idOf '1', "SAR"⟩).call ::
    walletOpened 0 (idOf '2') ++
  .start (Money.Request.credit ⟨idOf '2', 100, "topup"⟩).call :: creditPosted 1 (idOf '3') ++
  .start (Money.Request.authorize ⟨idOf '2', 60, "order", .absent⟩).call ::
    authorizeDecided 2 ++ authorizeCommitted 2 (idOf '4')

namespace Money

/-! ### Agreement over runs -/

/-- After every commit of every run, the amounts on each hold are what the ledger
says moved, they are ordered and fit its status, and every transaction balances. -/
theorem run_agreement {start : Int} {world : World Db Action Action.Answer Thrown Unit}
    (hrun : Run core requests anything (World.initial (Db.empty start)) world) :
    (∀ id row, world.store.money.getAuthorization id = some row →
      row.capturedMinor = world.store.money.ledgerCaptured id ∧
      row.refundedMinor = world.store.money.ledgerRefunded id ∧
      0 ≤ row.refundedMinor ∧ row.refundedMinor ≤ row.capturedMinor ∧
      row.capturedMinor ≤ row.amountMinor ∧ amountsMatchStatus row = true) ∧
    ∀ transaction ∈ world.store.money.ledger.values, transaction.sum = 0 := by
  have hagree := (stocked_run hrun).money
  refine ⟨fun id row hrow => ?_, hagree.balanced⟩
  have hshape := hagree.shaped id row hrow
  exact ⟨hagree.captured id row hrow, hagree.refunded id row hrow, hshape.refunded_nonneg,
    hshape.refunded_le, hshape.captured_le, hshape.matched⟩

/-- A hold of 60, 20 of it captured and 5 of that given back. -/
def partlyRefunded : Schedule :=
  holdPlaced ++
  .start (Request.capture ⟨idOf '4', some 20, some "first"⟩).call ::
    captureDecided 3 (idOf '5') ++ committed 3 ++
  .start (Request.refund ⟨idOf '4', some 5, "back", "damaged"⟩).call ::
    acts 4 [.proceed, .proceed, .proceed, .drawn (idOf '6'), .proceed, .proceed]

set_option maxRecDepth 20000 in
theorem run_agreement_partlyRefunded :
    ∃ world, play core unrestricted partlyRefunded (World.initial (Db.empty 0)) = some world ∧
      world.store.money.authorizations.values.map
        (fun row => (row.amountMinor, row.capturedMinor, row.refundedMinor)) = [(60, 20, 5)] ∧
      ∀ transaction ∈ world.store.money.ledger.values, transaction.sum = 0 := by
  have hplays : (play core unrestricted partlyRefunded (World.initial (Db.empty 0))).any
      (fun world => world.store.money.authorizations.values.map
        (fun row => (row.amountMinor, row.capturedMinor, row.refundedMinor)) = [(60, 20, 5)]) =
      true := by decide +kernel
  obtain ⟨world, hworld, hrows⟩ := (Option.any_eq_true _ _).mp hplays
  refine ⟨world, hworld, of_decide_eq_true hrows, (run_agreement (unrestricted_run hworld ?_)).2⟩
  simp [partlyRefunded, holdPlaced, walletOpened, creditPosted, authorizeDecided,
    authorizeCommitted, captureDecided, committed, acts]

end Money

end WaslaCore
