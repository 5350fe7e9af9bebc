import WaslaCore.Fulfillment.Losers
import WaslaCore.Fulfillment.Rules

/-!
One hold pays for one completed order. A full capture is answered again to whoever
asks for it again, and a completion takes the answer for its own capture. Two
orders may name one hold; of the fulfillments completed on it one alone reports
money captured in every run in which no completion is answered by the capture
another completed fulfillment reports.
-/

namespace WaslaCore.Fulfillment

open WaslaCore.Data WaslaCore.Platform WaslaCore.Interleaving
open WaslaCore.Money (LedgerTransaction Movement fullCaptureReference)

/-- The fulfillment is completed and says that this hold paid for it. -/
def paidBy (hold : String) (row : Fulfillment) : Bool :=
  row.status = .completed &&
    (row.settlementState = .captured || row.settlementState = .partiallyCaptured) &&
    row.paymentAuthorizationId = some hold

/-- What `paidBy` reads of a row. -/
theorem paidBy_same {hold : String} {row closed : Fulfillment} (h : SameClosure row closed) :
    paidBy hold row = paidBy hold closed := by
  simp [paidBy, h.status, h.settlement, h.hold]

/-! ### When a hold pays once -/

/-- A completion whose hold is captured in full already, so that its own capture is
a replay, finds no other completed fulfillment paid by that hold. -/
def paysAlone (db : Db) : WaslaCore.Write → Bool
  | .fulfillment (.transition next _) =>
      next.paymentAuthorizationId.all (fun hold =>
        !paidBy hold next ||
          (db.money.findTransactionByReference (fullCaptureReference hold)).isNone ||
          db.fulfillments.rows.values.all (fun other => !paidBy hold other))
  | _ => true

/-- No commit that goes through reports another fulfillment's capture. -/
abbrev PaysAlone : Seen → Action → Db → Prop := EachWrite paysAlone

/-! ### Payments as a law -/

/-- The full capture of a hold is in the ledger. -/
def CapturedInFull (db : Db) (hold : String) : Prop :=
  ∃ transaction ∈ db.money.ledger.values, transaction.businessReference = fullCaptureReference hold

/-- A hold that pays is captured in full, and pays for one fulfillment. -/
structure PaidOnce (db : Db) : Prop where
  captured : ∀ id row hold, db.fulfillments.get id = some row → paidBy hold row = true →
    CapturedInFull db hold
  once : ∀ id id' row row' hold, db.fulfillments.get id = some row →
    db.fulfillments.get id' = some row' → paidBy hold row = true → paidBy hold row' = true →
    id = id'

def payments : Law where
  inv := PaidOnce
  guar := ClosuresStay
  guar_refl := ClosuresStay.refl
  guar_trans := ClosuresStay.trans
  known := closure.known
  known_stable := closure.known_stable

section Landed

variable {seen : Seen} {operation : Operation} {db db' : Db}

theorem captured_lasting (h : Commit seen operation db db') {hold : String}
    (hcaptured : CapturedInFull db hold) : CapturedInFull db' hold := by
  obtain ⟨transaction, hmember, hreference⟩ := hcaptured
  exact ⟨transaction, h.lasting.transactions hmember, hreference⟩

/-- A row that says a hold paid said so before, or is the one that was closed. -/
theorem paid_before (h : Commit seen operation db db') (htold : ClosuresTold seen db)
    {id hold : String} {row : Fulfillment} (hrow : db'.fulfillments.get id = some row)
    (hpaid : paidBy hold row = true) :
    (∃ stored, db.fulfillments.get id = some stored ∧ paidBy hold stored = true) ∨
      operation.coordination.closes = some id := by
  by_cases hcloses : operation.coordination.closes = some id
  · exact .inr hcloses
  have hsame := closedNow_commit h htold id
  rw [if_neg hcloses] at hsame
  have hclosed : closedNow id db' = true := by
    rw [closedNow, hrow, Option.any_some]
    simp only [paidBy, Bool.and_eq_true, decide_eq_true_eq] at hpaid
    rw [hpaid.1.1]
    rfl
  rw [hclosed] at hsame
  obtain ⟨stored, hstored, hstoredClosed⟩ := (Option.any_eq_true _ _).mp hsame.symm
  obtain ⟨after, hafter, hkept⟩ := closuresStay_commit h htold id stored hstored hstoredClosed
  rw [hrow] at hafter
  obtain rfl := Option.some.inj hafter
  exact .inl ⟨stored, hstored, by rw [← paidBy_same hkept, hpaid]⟩

/-- A hold captured by a commit was not captured in full before it. -/
theorem captured_fresh (h : Commit seen operation db db') {hold : String}
    {row : Money.PaymentAuthorization} {wallet : Money.Wallet} {requested closedAt : Int}
    {moved : LedgerTransaction}
    (hmovement : operation.movement = .capture row wallet requested closedAt moved)
    (hreference : moved.businessReference = fullCaptureReference hold) :
    CapturedInFull db' hold ∧ ¬CapturedInFull db hold := by
  have heffect := h.effect
  obtain ⟨hwrites, -⟩ := commit_money h.committed
  rw [operation.staged_money] at hwrites
  have hmember : Money.Write.insertTransaction moved ∈ operation.movement.writes := by
    rw [hmovement]
    simp [Movement.writes]
  have hfree := Money.reference_free hwrites hmember
  rw [hmovement] at heffect
  constructor
  · cases heffect with
    | unmoved hnone _ _ => cases hnone
    | captured _ _ hledger =>
        refine ⟨moved, Table.mem_values.mpr ⟨moved.transactionId, ?_⟩, hreference⟩
        rw [hledger, Table.get_put_self]
  · rintro ⟨transaction, hmember, hsame⟩
    have hother := List.find?_eq_none.mp hfree transaction hmember
    rw [hsame, hreference] at hother
    simp at hother

/-- A closing that says a hold paid leaves it captured in full; if it was captured
in full before, no other fulfillment said so. -/
theorem paid_closing (h : Commit seen operation db db')
    (hpays : PaysAlone seen (.commit operation.staged) db) {id hold : String} {row : Fulfillment}
    (hcloses : operation.coordination.closes = some id) (hrow : db'.fulfillments.get id = some row)
    (hpaid : paidBy hold row = true) :
    CapturedInFull db' hold ∧ (CapturedInFull db hold →
      ∀ other id, db.fulfillments.get id = some other → paidBy hold other = false) := by
  have hlegal := h.legal.coordination
  have hdrawn := h.legal.drawn
  have heffect := coordination_effect h.committed
  have hpays : ∀ write ∈ operation.coordination.write,
      paysAlone db (.fulfillment write) = true :=
    fun write hwrite => hpays.coordination h.committed hwrite
  generalize operation.coordination = coordination at hcloses hlegal hdrawn heffect hpays
  cases coordination with
  | refused refused capturedMinor extra =>
      obtain rfl := Option.some.inj hcloses
      cases heffect with
      | idle _ hidle => rcases hidle with hnone | ⟨current, jobId, hnone⟩ <;> cases hnone
      | refused _ _ hplaced =>
          rw [hplaced.get_self] at hrow
          obtain rfl := Option.some.inj hrow
          have hfailed : refused.status = .failed := hlegal.1
          simp [paidBy, hfailed] at hpaid
  | closed current closing capturedMinor action =>
      obtain rfl := Option.some.inj hcloses
      cases heffect with
      | idle _ hidle => rcases hidle with hnone | ⟨current, jobId, hnone⟩ <;> cases hnone
      | closed _ _ hplaced =>
          rw [hplaced.get_self] at hrow
          obtain rfl := Option.some.inj hrow
          have hclosing : paidBy hold closing = true := hpaid
          have hfacts := hclosing
          simp only [paidBy, Bool.and_eq_true, decide_eq_true_eq] at hfacts
          have hpayment := hdrawn.2.2.2 hfacts.1.1 hold hfacts.2
          generalize hmovement : operation.movement = movement at hpayment
          cases hpayment with
          | captured hid hreference =>
              obtain ⟨hafter, hbefore⟩ := captured_fresh h hmovement hreference
              exact ⟨hafter, fun hcaptured => absurd hcaptured hbefore⟩
          | @replayed _ transaction hfound =>
              obtain ⟨hmember, hreference⟩ := h.found hfound
              refine ⟨captured_lasting h ⟨transaction, hmember, hreference⟩, ?_⟩
              intro _ other otherId hother
              -- the capture was in the ledger, so the condition looked at every other row
              have hfoundReference :
                  (db.money.findTransactionByReference (fullCaptureReference hold)).isNone =
                    false := by
                rw [Option.isNone_eq_false_iff, Money.Store.findTransactionByReference,
                  List.find?_isSome]
                exact ⟨transaction, hmember, by simp [hreference]⟩
              have halone := hpays _ (List.mem_singleton_self _)
              simp only [paysAlone, hfacts.2, Option.all_some, hclosing, hfoundReference,
                Bool.not_true, Bool.false_or, List.all_eq_true, Bool.not_eq_true'] at halone
              exact halone other (Table.mem_values.mpr ⟨otherId, hother⟩)
  | none => cases hcloses
  | created row requestedService => cases hcloses
  | dispatched current payload => cases hcloses
  | traced current jobId => cases hcloses
  | marked cancelled payload => cases hcloses

theorem paidOnce_commit (h : Commit seen operation db db') (htold : ClosuresTold seen db)
    (hpays : PaysAlone seen (.commit operation.staged) db) (hinv : PaidOnce db) : PaidOnce db' := by
  constructor
  · intro id row hold hrow hpaid
    rcases paid_before h htold hrow hpaid with ⟨stored, hstored, hstoredPaid⟩ | hcloses
    · exact captured_lasting h (hinv.captured id stored hold hstored hstoredPaid)
    · exact (paid_closing h hpays hcloses hrow hpaid).1
  · intro id id' row row' hold hrow hrow' hpaid hpaid'
    -- a row closed now and a row paid before cannot both report this hold
    have hexcluded : ∀ {key other : String} {closed stored : Fulfillment},
        operation.coordination.closes = some key → db'.fulfillments.get key = some closed →
        paidBy hold closed = true → db.fulfillments.get other = some stored →
        paidBy hold stored = true → False := by
      intro key other closed stored hcloses hclosed hclosedPaid hstored hstoredPaid
      have hnone := (paid_closing h hpays hcloses hclosed hclosedPaid).2
        (hinv.captured other stored hold hstored hstoredPaid) stored other hstored
      rw [hstoredPaid] at hnone
      cases hnone
    rcases paid_before h htold hrow hpaid with ⟨stored, hstored, hstoredPaid⟩ | hcloses <;>
      rcases paid_before h htold hrow' hpaid' with ⟨stored', hstored', hstoredPaid'⟩ | hcloses'
    · exact hinv.once id id' stored stored' hold hstored hstored' hstoredPaid hstoredPaid'
    · exact (hexcluded hcloses' hrow' hpaid' hstored hstoredPaid).elim
    · exact (hexcluded hcloses hrow hpaid hstored' hstoredPaid').elim
    · exact Option.some.inj (hcloses.symm.trans hcloses')

end Landed

theorem payments_holds : payments.Holds PaysAlone where
  commit := fun h hinv htold hpays =>
    have hclosures := htold.shown (fun _ _ hknown => hknown)
      (fun _ hother => (shown_nothing hother).2.1)
    ⟨paidOnce_commit h hclosures hpays hinv, closuresStay_commit h hclosures⟩
  record := fun _ hinv => ⟨⟨hinv.captured, hinv.once⟩, ClosuresStay.refl _⟩
  tick := fun _ _ hinv => ⟨⟨hinv.captured, hinv.once⟩, ClosuresStay.refl _⟩
  read := fun _ hstocked _ => closure_read hstocked rfl

/-- In every run in which no completion reports another fulfillment's capture, a
hold is the settling hold of one completed fulfillment with money captured at most. -/
theorem run_one_hold {start : Int} {world : World Db Action Action.Answer Thrown Unit}
    (hrun : Run core requests PaysAlone (World.initial (Db.empty start)) world)
    {id id' hold : String} {row row' : Fulfillment}
    (hrow : world.store.fulfillments.get id = some row)
    (hrow' : world.store.fulfillments.get id' = some row')
    (hpaid : paidBy hold row = true) (hpaid' : paidBy hold row' = true) : id = id' := by
  have hstart : payments.inv (Db.empty start) :=
    ⟨by rintro id row hold ⟨⟩, by rintro id id' row row' hold ⟨⟩⟩
  exact (payments_holds.run hstart hrun).inv.2.once id id' row row' hold hrow hrow' hpaid hpaid'

/-- Two orders taken up on one hold of 60. -/
def sharedHold : Schedule :=
  holdPlaced ++
  .start (Request.marketOrder ⟨"first", idOf '1', "delivery", some (idOf '4')⟩).call ::
    acts 3 [.proceed, .proceed, .proceed, .drawn (idOf '5'), .proceed, .proceed] ++
  .start (Request.marketOrder ⟨"second", idOf '1', "delivery", some (idOf '4')⟩).call ::
    acts 4 [.proceed, .proceed, .proceed, .drawn (idOf '6'), .proceed, .proceed]

/-- The first of them is completed and captures the hold. -/
def firstCompleted : Schedule :=
  sharedHold ++
  .start (Request.moveCompletion ⟨idOf '5', "job", .completed, 2⟩).call ::
    (acts 5 [.proceed] ++ captureDecided 5 (idOf '7') ++ committed 5)

def paidAt (id hold : String) (db : Db) : Bool := (db.fulfillments.get id).any (paidBy hold)

set_option maxRecDepth 20000 in
theorem run_one_hold_completed :
    ∃ world, play core (fun seen action db => PaysAlone seen action db) firstCompleted
        (World.initial (Db.empty 0)) = some world ∧
      paidAt (idOf '5') (idOf '4') world.store = true ∧
      ∀ id row, world.store.fulfillments.get id = some row → paidBy (idOf '4') row = true →
        id = idOf '5' := by
  have hplays : (play core (fun seen action db => PaysAlone seen action db) firstCompleted
      (World.initial (Db.empty 0))).any (fun world => paidAt (idOf '5') (idOf '4') world.store) =
        true := by decide +kernel
  obtain ⟨world, hworld, hpaid⟩ := (Option.any_eq_true _ _).mp hplays
  obtain ⟨row, hrow, hrowPaid⟩ := (Option.any_eq_true _ _).mp hpaid
  refine ⟨world, hworld, hpaid, fun id row' hrow' hpaid' =>
    run_one_hold (play_run hworld ?_ (fun _ _ _ h => of_decide_eq_true h)) hrow' hrow hpaid'
      hrowPaid⟩
  simp [firstCompleted, sharedHold, holdPlaced, walletOpened, creditPosted, authorizeDecided,
    authorizeCommitted, captureDecided, committed, acts]

/-- The second is completed after it, and its capture is answered by the first one's. -/
def bothCompleted : Schedule :=
  firstCompleted ++
  .start (Request.moveCompletion ⟨idOf '6', "other", .completed, 3⟩).call ::
    acts 6 [.proceed, .proceed, .proceed, .proceed]

set_option maxRecDepth 20000 in
/-- Without the condition two completed fulfillments report one capture. -/
theorem one_hold_fails : ¬∀ (start : Int) (world : World Db Action Action.Answer Thrown Unit),
    Run core requests anything (World.initial (Db.empty start)) world →
    ∀ id id' hold row row', world.store.fulfillments.get id = some row →
      world.store.fulfillments.get id' = some row' → paidBy hold row = true →
      paidBy hold row' = true → id = id' := by
  intro htrue
  have hplays : (play core unrestricted bothCompleted (World.initial (Db.empty 0))).any
      (fun world => paidAt (idOf '5') (idOf '4') world.store ∧
        paidAt (idOf '6') (idOf '4') world.store) = true := by decide +kernel
  obtain ⟨world, hworld, hboth⟩ := (Option.any_eq_true _ _).mp hplays
  obtain ⟨hfirst, hsecond⟩ := of_decide_eq_true hboth
  obtain ⟨row, hrow, hpaid⟩ := (Option.any_eq_true _ _).mp hfirst
  obtain ⟨row', hrow', hpaid'⟩ := (Option.any_eq_true _ _).mp hsecond
  have hrun := unrestricted_run hworld (by
    simp [bothCompleted, firstCompleted, sharedHold, holdPlaced, walletOpened, creditPosted,
      authorizeDecided, authorizeCommitted, captureDecided, committed, acts])
  have hsame := htrue 0 world hrun _ _ _ row row' hrow hrow' hpaid hpaid'
  simp [idOf] at hsame

end WaslaCore.Fulfillment
