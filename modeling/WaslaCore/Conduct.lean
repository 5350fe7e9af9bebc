import WaslaCore.Operations

/-!
Every request of the two services keeps the discipline: whatever the database
answers, what it commits is the staged image of a legal operation. The lemmas
follow the services function by function; each says how a function ends and what
the call has read by then.
-/

namespace WaslaCore

open Platform Interleaving

/-! ### Actions -/

/-- `later` continues `seen` and has read no other hold since. -/
structure Quiet (seen later : Seen) : Prop where
  continues : seen <+: later
  reads : ∀ authorizationId, lastRead authorizationId later = lastRead authorizationId seen

theorem Quiet.refl (seen : Seen) : Quiet seen seen := ⟨List.prefix_refl seen, fun _ => rfl⟩

theorem Quiet.trans {first second third : Seen} (h : Quiet first second) (h' : Quiet second third) :
    Quiet first third :=
  ⟨h.continues.trans h'.continues, fun authorizationId => by rw [h'.reads, h.reads]⟩

theorem Quiet.snoc (entry : (action : Action) × action.Answer) (h : rowsShown entry = [])
    (seen : Seen) : Quiet seen (seen ++ [entry]) :=
  ⟨List.prefix_append seen [entry], fun _ => lastRead_skip h _ seen⟩

section Actions

variable {β γ : Type} {seen : Seen}

theorem keeps_pure {post : Seen → Except Thrown β → Prop} {value : β}
    (h : post seen (.ok value)) : Keeps services post (pure value) seen := h

theorem keeps_throw {post : Seen → Except Thrown β → Prop} {error : Thrown}
    (h : post seen (.error error)) : Keeps services post (throw error) seen := h

theorem keeps_settled_bind {result : Except Thrown β} {next : β → Call γ}
    {post : Seen → Except Thrown γ → Prop}
    (hok : ∀ value, result = .ok value → Keeps services post (next value) seen)
    (herror : ∀ error, result = .error error → post seen (.error error)) :
    Keeps services post (settled result >>= next) seen := by
  cases result with
  | ok value => exact hok value rfl
  | error error => exact herror error rfl

theorem keeps_checked_bind {result : Except String β} {next : β → Call γ}
    {post : Seen → Except Thrown γ → Prop}
    (hok : ∀ value, result = .ok value → Keeps services post (next value) seen)
    (herror : ∀ message, post seen (.error (.other message))) :
    Keeps services post (Money.checked result >>= next) seen := by
  cases result with
  | ok value => exact hok value rfl
  | error message => exact herror message

theorem keeps_read_bind {query : Query} {next : query.Answer → Call γ}
    {post : Seen → Except Thrown γ → Prop}
    (hok : ∀ value, foreseen (.read query) (.ok value) →
      Keeps services post (next value) (seen ++ [⟨.read query, .ok value⟩]))
    (herror : ∀ error, post (seen ++ [⟨.read query, .error error⟩]) (.error error)) :
    Keeps services post (read query >>= next) seen := by
  refine ⟨trivial, fun answer htold => ?_⟩
  cases answer with
  | ok value => exact hok value htold
  | error error => exact herror error

theorem keeps_now_bind {next : Int → Call γ} {post : Seen → Except Thrown γ → Prop}
    (h : ∀ instant later, Quiet seen later → ⟨.clock, instant⟩ ∈ later →
      Keeps services post (next instant) later) :
    Keeps services post (clock >>= next) seen :=
  ⟨trivial, fun instant _ => h instant _ (Quiet.snoc _ rfl seen) (by simp)⟩

theorem keeps_clock_bind {next : Int → Call γ} {post : Seen → Except Thrown γ → Prop}
    (h : ∀ instant later, Quiet seen later → Keeps services post (next instant) later) :
    Keeps services post (clock >>= next) seen :=
  keeps_now_bind (fun instant later hquiet _ => h instant later hquiet)

theorem keeps_newId_bind {next : String → Call γ} {post : Seen → Except Thrown γ → Prop}
    (h : ∀ id later, Quiet seen later → Keeps services post (next id) later) :
    Keeps services post (newId >>= next) seen :=
  ⟨trivial, fun id _ => h id _ (Quiet.snoc _ rfl seen)⟩

theorem keeps_recordAudit_bind {entry : AuditEntry} {next : Unit → Call γ}
    {post : Seen → Except Thrown γ → Prop}
    (howed : entry.action = "fulfillment.settlement_inconsistent")
    (hok : ∀ later, Quiet seen later → Keeps services post (next ()) later)
    (herror : ∀ later error, Quiet seen later → post later (.error error)) :
    Keeps services post (recordAudit entry >>= next) seen := by
  refine ⟨howed, fun answer _ => ?_⟩
  cases answer with
  | ok done => exact hok _ (Quiet.snoc _ rfl seen)
  | error error => exact herror _ error (Quiet.snoc _ rfl seen)

/-- A body that ends in a legal operation may commit it. -/
theorem keeps_withTransaction {body : Work → Call (Work × β)}
    {post : Seen → Except Thrown β → Prop}
    (h : Keeps services (fun later result =>
      match result with
      | .ok (uow, value) => (∃ operation : Operation, operation.Legal later ∧
          uow = operation.staged) ∧ ∀ final, Quiet later final → post final (.ok value) ∧
            ∀ error, post final (.error error)
      | .error error => post later (.error error)) (body UnitOfWork.empty) seen) :
    Keeps services post (withTransaction body) seen := by
  unfold withTransaction
  refine h.bind ?_ (fun later error herror => herror)
  rintro later ⟨uow, value⟩ ⟨hlegal, hpost⟩
  refine ⟨hlegal, fun answer _ => ?_⟩
  have hquiet := Quiet.snoc ⟨.commit uow, answer⟩ rfl later
  cases answer with
  | ok done => exact (hpost _ hquiet).1
  | error error => exact (hpost _ hquiet).2 error

end Actions

namespace Money

/-! ### The money service -/

-- a check is one step, whatever text it compares
attribute [local irreducible] trim

variable {seen : Seen}

theorem requireWallet_keeps (walletId : String) :
    Keeps services (fun later result => Quiet seen later ∧
      ∀ wallet, result = .ok wallet → wallet.walletId = walletId) (requireWallet walletId) seen := by
  unfold requireWallet
  refine keeps_settled_bind ?_ (fun _ _ => ⟨Quiet.refl seen, by rintro wallet ⟨⟩⟩)
  intro value _
  refine keeps_read_bind ?_ (fun _ => ⟨Quiet.snoc _ rfl seen, by rintro wallet ⟨⟩⟩)
  intro (found : Option Wallet) htold
  cases found with
  | none => exact ⟨Quiet.snoc _ rfl seen, by rintro wallet ⟨⟩⟩
  | some found =>
      refine ⟨Quiet.snoc _ rfl seen, ?_⟩
      rintro wallet ⟨rfl⟩
      exact htold

theorem transaction_keeps (kind : LedgerKind)
    (reference currency creditAccount debitAccount : String) (amount : Int)
    (authorizationId : Option String) :
    Keeps services (fun later result => Quiet seen later ∧ ∀ moved, result = .ok moved →
      Built moved kind currency creditAccount debitAccount amount authorizationId ∧
        moved.businessReference = reference)
      (transaction kind reference currency creditAccount debitAccount amount authorizationId)
      seen := by
  unfold transaction
  refine keeps_newId_bind (fun transactionId later hquiet => ?_)
  refine keeps_checked_bind ?_ (fun _ => ⟨hquiet, by rintro moved ⟨⟩⟩)
  intro value _
  refine keeps_clock_bind (fun occurredAt final hclock => ?_)
  refine ⟨hquiet.trans hclock, ?_⟩
  rintro moved ⟨rfl⟩
  exact ⟨⟨rfl, rfl, rfl⟩, rfl⟩

/-- What an accepted capture amount is known to be. -/
theorem captureAmount_ok {now requested : Int} {row : PaymentAuthorization} {input : CaptureInput}
    (h : captureAmount now row input = .ok requested) :
    row.status = .authorized ∧ isExpired now row = false ∧ 0 < requested ∧
      requested ≤ remainingHold row ∧
      (input.key = none → requested = remainingHold row) := by
  unfold captureAmount at h
  split at h
  · cases h
  rename_i hstatus
  split at h
  · cases h
  rename_i hexpired
  dsimp only at h
  split at h
  · cases h
  rename_i hamount
  split at h
  · cases h
  rename_i hkey
  split at h
  · cases h
  rename_i hceiling
  simp only [Except.ok.injEq] at h
  subst h
  have hpositive := assertAmount_ok hamount
  refine ⟨by simpa using hstatus, by simpa using hexpired, hpositive, by omega, ?_⟩
  intro hnone
  have hfull : ¬input.amountMinor.getD (remainingHold row) < remainingHold row :=
    fun hless => hkey ⟨hless, hnone⟩
  omega

/-- How a capture ends: a replay of a ledger transaction it found, or a legal
movement from the hold it read. -/
theorem applyCaptureWithin_keeps (uow : Work) (input : CaptureInput) :
    Keeps services (fun later result => seen <+: later ∧
      ∀ uow' captured, result = .ok (uow', captured) →
        captured.authorization.authorizationId = input.authorizationId ∧
        ((uow' = uow ∧
          lastRead input.authorizationId later = some captured.authorization ∧
          Found later (captureLedgerReference input.authorizationId input.key)
            captured.transaction) ∨
        ∃ row wallet requested closedAt,
          (Movement.capture row wallet requested closedAt captured.transaction).Legal later ∧
          captured.transaction.businessReference =
            captureLedgerReference input.authorizationId input.key ∧
          captured.authorization = capturedRow row requested closedAt ∧
          uow' = stageCapture uow row wallet requested closedAt captured.transaction))
      (applyCaptureWithin uow input) seen := by
  unfold applyCaptureWithin
  refine keeps_settled_bind ?_ (fun _ _ => ⟨List.prefix_refl seen, by rintro uow' captured ⟨⟩⟩)
  intro value _
  refine keeps_read_bind ?_ (fun _ => ⟨List.prefix_append seen _, by rintro uow' captured ⟨⟩⟩)
  intro (found : Option PaymentAuthorization) htold
  cases found with
  | none => exact ⟨List.prefix_append seen _, by rintro uow' captured ⟨⟩⟩
  | some row =>
      have hid : row.authorizationId = input.authorizationId := htold.1
      -- from here on the call reads no other hold, so this one stays last read
      obtain ⟨middle, hmiddle⟩ : ∃ middle : Seen, middle =
        seen ++ [⟨.read (.getAuthorization input.authorizationId), .ok (some row)⟩] := ⟨_, rfl⟩
      have hlast : lastRead row.authorizationId middle = some row :=
        hmiddle ▸ lastRead_shown rfl seen
      have hstart : seen <+: middle := hmiddle ▸ List.prefix_append seen _
      rw [← hmiddle]
      refine keeps_read_bind ?_
        (fun _ => ⟨hstart.trans (List.prefix_append middle _), by rintro uow' captured ⟨⟩⟩)
      intro (existing : Option LedgerTransaction) _
      have hquiet := Quiet.snoc
        ⟨.read (.findTransactionByReference
          (captureLedgerReference row.authorizationId input.key)), .ok existing⟩ rfl middle
      cases existing with
      | some transaction =>
          refine ⟨hstart.trans hquiet.continues, ?_⟩
          rintro uow' captured ⟨rfl⟩
          refine ⟨hid, .inl ⟨rfl, ?_, ?_⟩⟩
          · rw [← hid, hquiet.reads]
            exact hlast
          · rw [← hid]
            exact Found.snoc (List.mem_singleton_self _) middle
      | none =>
          refine keeps_now_bind (fun now afterClock hclock hnow => ?_)
          have hclock := hquiet.trans hclock
          refine keeps_settled_bind ?_
            (fun _ _ => ⟨hstart.trans hclock.continues, by rintro uow' captured ⟨⟩⟩)
          intro requested hamount
          obtain ⟨hstatus, hunexpired, hpositive, hceiling, hfull⟩ := captureAmount_ok hamount
          refine (requireWallet_keeps row.walletId).bind ?_ (fun _ _ hwallet =>
            ⟨hstart.trans (hclock.trans hwallet.1).continues, by rintro uow' captured ⟨⟩⟩)
          rintro afterWallet wallet ⟨hwallet, hwalletId⟩
          refine (transaction_keeps _ _ _ _ _ _ _).bind ?_ (fun _ _ hbuilt =>
            ⟨hstart.trans ((hclock.trans hwallet).trans hbuilt.1).continues,
              by rintro uow' captured ⟨⟩⟩)
          rintro afterTransaction moved ⟨hbuiltQuiet, hbuilt⟩
          obtain ⟨hbuilt, hreference⟩ := hbuilt moved rfl
          refine keeps_clock_bind (fun closedAt final hfinal => ?_)
          have hall := ((hclock.trans hwallet).trans hbuiltQuiet).trans hfinal
          refine ⟨hstart.trans hall.continues, ?_⟩
          rintro uow' captured ⟨rfl⟩
          refine ⟨hid, .inr ⟨row, wallet, requested, closedAt, ?_, ?_, rfl, rfl⟩⟩
          · have hsince := ((hwallet.trans hbuiltQuiet).trans hfinal).continues.subset hnow
            refine ⟨?_, hstatus, hwalletId wallet rfl, hpositive, hceiling, hbuilt,
              ⟨now, hsince, hunexpired⟩, input.key, hreference, hfull⟩
            rw [hall.reads]
            exact hlast
          · rw [hreference, hid]

theorem captureHoldWithin_keeps (uow : Work) (input : CaptureInput) :
    Keeps services (fun later result => seen <+: later ∧
      ∀ uow' hold, result = .ok (uow', hold) →
        hold.authorizationId = input.authorizationId ∧
        ((uow' = uow ∧ lastRead input.authorizationId later = some hold ∧
          ∃ transaction, Found later (captureLedgerReference input.authorizationId input.key)
            transaction) ∨
        ∃ row wallet requested closedAt moved,
          (Movement.capture row wallet requested closedAt moved).Legal later ∧
          moved.businessReference =
            captureLedgerReference input.authorizationId input.key ∧
          hold = capturedRow row requested closedAt ∧
          uow' = stageCapture uow row wallet requested closedAt moved))
      (captureHoldWithin uow input) seen := by
  unfold captureHoldWithin
  refine (applyCaptureWithin_keeps uow input).bind ?_ ?_
  · rintro later ⟨uow', captured⟩ ⟨hcontinues, hends⟩
    refine ⟨hcontinues, ?_⟩
    rintro _ hold ⟨rfl⟩
    obtain ⟨hid, ⟨huow, hlast, hfound⟩ | ⟨row, wallet, requested, closedAt, hlegal, hreference,
      hhold, huow⟩⟩ := hends uow' captured rfl
    · exact ⟨hid, .inl ⟨huow, hlast, captured.transaction, hfound⟩⟩
    · exact ⟨hid, .inr ⟨row, wallet, requested, closedAt, captured.transaction, hlegal,
        hreference, hhold, huow⟩⟩
  · rintro later error ⟨hcontinues, -⟩
    exact ⟨hcontinues, by rintro uow' hold ⟨⟩⟩

/-- A unit of work the money service may commit on its own: one legal movement. -/
def Moves (later : Seen) (uow : Work) : Prop :=
  ∃ movement : Movement, movement.Legal later ∧ uow = movement.staged UnitOfWork.empty

theorem Moves.nothing (later : Seen) : Moves later UnitOfWork.empty := ⟨.none, trivial, rfl⟩

theorem Moves.operation {later : Seen} {uow : Work} (h : Moves later uow) :
    ∃ operation : Operation, operation.Legal later ∧ uow = operation.staged := by
  obtain ⟨movement, hlegal, rfl⟩ := h
  exact ⟨⟨movement, .none⟩, ⟨hlegal, trivial, trivial⟩, rfl⟩

/-- A body that ends in one legal movement may commit it. -/
theorem keeps_movement {β : Type} {body : Work → Call (Work × β)}
    (h : Keeps services (fun later result => ∀ uow value, result = .ok (uow, value) →
      Moves later uow) (body UnitOfWork.empty) seen) :
    Keeps services (fun _ _ => True) (withTransaction body) seen := by
  refine keeps_withTransaction (h.mono ?_)
  intro later result hends
  cases result with
  | ok done => exact ⟨(hends done.1 done.2 rfl).operation, fun _ _ => ⟨trivial, fun _ => trivial⟩⟩
  | error error => trivial

theorem capture_keeps (input : CaptureInput) :
    Keeps services (fun _ _ => True) (capture input) seen := by
  apply keeps_movement
  unfold captureWithin
  refine (applyCaptureWithin_keeps UnitOfWork.empty input).bind ?_ ?_
  · rintro later ⟨uow, captured⟩ ⟨-, hends⟩
    rintro _ value ⟨rfl⟩
    obtain ⟨-, ⟨rfl, -⟩ | ⟨row, wallet, requested, closedAt, hlegal, -, -, rfl⟩⟩ :=
      hends uow captured rfl
    · exact Moves.nothing later
    · exact ⟨_, hlegal, rfl⟩
  · rintro later error - uow value ⟨⟩

theorem refundAmount_ok {requested : Int} {row : PaymentAuthorization} {input : RefundInput}
    (h : refundAmount row input = .ok requested) :
    0 < requested ∧ requested ≤ refundableAmount row := by
  unfold refundAmount at h
  dsimp only at h
  split at h
  · cases h
  split at h
  · cases h
  split at h
  · cases h
  rename_i hamount
  split at h
  · cases h
  rename_i hceiling
  simp only [Except.ok.injEq] at h
  subst h
  exact ⟨assertAmount_ok hamount, by omega⟩

theorem refundWithin_keeps (input : RefundInput) :
    Keeps services (fun later result => ∀ uow value, result = .ok (uow, value) → Moves later uow)
      (refundWithin UnitOfWork.empty input) seen := by
  unfold refundWithin
  refine keeps_settled_bind ?_ (by rintro error - uow value ⟨⟩)
  intro value _
  split
  · exact keeps_throw (by rintro uow value ⟨⟩)
  split
  · exact keeps_throw (by rintro uow value ⟨⟩)
  refine keeps_read_bind ?_ (by rintro error uow value ⟨⟩)
  intro (found : Option PaymentAuthorization) htold
  cases found with
  | none => exact keeps_throw (by rintro uow value ⟨⟩)
  | some row =>
      obtain ⟨middle, hmiddle⟩ : ∃ middle : Seen, middle =
        seen ++ [⟨.read (.getAuthorization input.authorizationId), .ok (some row)⟩] := ⟨_, rfl⟩
      have hlast : lastRead row.authorizationId middle = some row :=
        hmiddle ▸ lastRead_shown rfl seen
      rw [← hmiddle]
      refine keeps_read_bind ?_ (by rintro error uow value ⟨⟩)
      intro (existing : Option LedgerTransaction) _
      cases existing with
      | some transaction =>
          apply keeps_pure
          rintro uow value ⟨rfl⟩
          exact Moves.nothing _
      | none =>
          have hquiet := Quiet.snoc ⟨.read (.findTransactionByReference
            (refundLedgerReference row.authorizationId input.refundReference)),
              .ok Option.none⟩ rfl middle
          refine keeps_settled_bind ?_ (by rintro error - uow value ⟨⟩)
          intro requested hamount
          obtain ⟨hpositive, hceiling⟩ := refundAmount_ok hamount
          refine (requireWallet_keeps row.walletId).bind ?_ (by rintro final error - uow value ⟨⟩)
          rintro afterWallet wallet ⟨hwallet, hwalletId⟩
          refine (transaction_keeps _ _ _ _ _ _ _).bind ?_ (by rintro final error - uow value ⟨⟩)
          rintro final moved ⟨hbuiltQuiet, hbuilt⟩
          apply keeps_pure
          rintro uow value ⟨rfl⟩
          refine ⟨.refund row wallet requested input.reason moved,
            ⟨?_, hwalletId wallet rfl, hpositive, hceiling, (hbuilt moved rfl).1⟩, rfl⟩
          rw [((hquiet.trans hwallet).trans hbuiltQuiet).reads]
          exact hlast

theorem refund_keeps (input : RefundInput) :
    Keeps services (fun _ _ => True) (refund input) seen :=
  keeps_movement (refundWithin_keeps input)

theorem applyVoidWithin_keeps (uow : Work) (row : PaymentAuthorization) (reason : String) :
    Keeps services (fun later result => Quiet seen later ∧
      ∃ voidedAt closedAt, result = .ok (stageVoid uow row reason voidedAt closedAt,
        voidedRow row reason voidedAt closedAt)) (applyVoidWithin uow row reason) seen := by
  unfold applyVoidWithin
  refine keeps_clock_bind (fun voidedAt later hquiet => ?_)
  refine keeps_clock_bind (fun closedAt final hclock => ?_)
  exact ⟨hquiet.trans hclock, voidedAt, closedAt, rfl⟩

/-- How a void ends: a hold it read closed already, or a legal movement from an
open one. -/
theorem voidWithin_keeps (uow : Work) (input : VoidInput) :
    Keeps services (fun later result => seen <+: later ∧
      ∀ uow' hold, result = .ok (uow', hold) →
        hold.authorizationId = input.authorizationId ∧
        ((uow' = uow ∧ hold ∈ rowsRead later ∧
          (hold.status = .voided ∨ hold.status = .partiallyCaptured)) ∨
        ∃ row reason voidedAt closedAt,
          (Movement.void row reason voidedAt closedAt).Legal later ∧
          hold = voidedRow row reason voidedAt closedAt ∧
          uow' = stageVoid uow row reason voidedAt closedAt))
      (voidWithin uow input) seen := by
  unfold voidWithin
  refine keeps_settled_bind ?_ (fun _ _ => ⟨List.prefix_refl seen, by rintro uow' hold ⟨⟩⟩)
  intro value _
  refine keeps_read_bind ?_ (fun _ => ⟨List.prefix_append seen _, by rintro uow' hold ⟨⟩⟩)
  intro (found : Option PaymentAuthorization) htold
  cases found with
  | none => exact ⟨List.prefix_append seen _, by rintro uow' hold ⟨⟩⟩
  | some row =>
      have hid : row.authorizationId = input.authorizationId := htold.1
      have hlast : lastRead row.authorizationId
          (seen ++ [⟨.read (.getAuthorization input.authorizationId), .ok (some row)⟩]) =
          some row := lastRead_shown rfl seen
      dsimp only
      split
      · rename_i hclosed
        refine ⟨List.prefix_append seen _, ?_⟩
        rintro uow' hold ⟨rfl⟩
        exact ⟨hid, .inl ⟨rfl, (lastRead_mem hlast).1, hclosed⟩⟩
      split
      · exact ⟨List.prefix_append seen _, by rintro uow' hold ⟨⟩⟩
      split
      · exact ⟨List.prefix_append seen _, by rintro uow' hold ⟨⟩⟩
      rename_i hopen hcaptured _
      have hstatus : row.status = .authorized := by
        cases hrow : row.status <;> simp_all
      apply (applyVoidWithin_keeps uow row (trim input.reason)).mono
      rintro later result ⟨hquiet, voidedAt, closedAt, rfl⟩
      refine ⟨(List.prefix_append seen _).trans hquiet.continues, ?_⟩
      rintro uow' hold ⟨rfl⟩
      refine ⟨hid, .inr ⟨row, trim input.reason, voidedAt, closedAt, ⟨?_, hstatus⟩, rfl, rfl⟩⟩
      rw [hquiet.reads]
      exact hlast

theorem voidAuthorization_keeps (input : VoidInput) :
    Keeps services (fun _ _ => True) (voidAuthorization input) seen := by
  refine keeps_movement ((voidWithin_keeps UnitOfWork.empty input).mono ?_)
  rintro later result ⟨-, hends⟩ uow hold hresult
  obtain ⟨-, ⟨rfl, -⟩ | ⟨row, reason, voidedAt, closedAt, hlegal, -, rfl⟩⟩ :=
    hends uow hold hresult
  · exact Moves.nothing later
  · exact ⟨_, hlegal, rfl⟩

/-- The sweep commits hold by hold; none of its commits reads a hold anew. -/
theorem expireEach_keeps (rows : List PaymentAuthorization)
    (h : ∀ row ∈ rows, lastRead row.authorizationId seen = some row ∧ row.status = .authorized) :
    Keeps services (fun _ _ => True) (expireEach rows) seen := by
  induction rows generalizing seen with
  | nil => exact trivial
  | cons row rest ih =>
      unfold expireEach
      have hfirst := h row (by simp)
      refine Keeps.bind (p := fun later _ => Quiet seen later)
        (keeps_withTransaction ((applyVoidWithin_keeps UnitOfWork.empty row "expired").mono ?_))
        ?_ (fun _ _ _ => trivial)
      · rintro later result ⟨hquiet, voidedAt, closedAt, rfl⟩
        refine ⟨⟨⟨.void row "expired" voidedAt closedAt, .none⟩, ⟨⟨?_, hfirst.2⟩, trivial, trivial⟩,
          rfl⟩,
          fun final hfinal => ⟨hquiet.trans hfinal, fun _ => hquiet.trans hfinal⟩⟩
        rw [hquiet.reads]
        exact hfirst.1
      · intro later expired hquiet
        refine Keeps.bind (ih ?_) (fun _ _ _ => trivial) (fun _ _ _ => trivial)
        intro other hother
        have hread := h other (List.mem_cons_of_mem _ hother)
        exact ⟨by rw [hquiet.reads]; exact hread.1, hread.2⟩

/-- A row of a list without repeated identifiers is the one last read from it. -/
theorem lastRead_of_nodup {seen : Seen} {rows : List PaymentAuthorization}
    (hnodup : (rows.map PaymentAuthorization.authorizationId).Nodup)
    {row : PaymentAuthorization} (hrow : row ∈ rows) :
    lastRead row.authorizationId (seen ++ [⟨.read .allAuthorizations, .ok rows⟩]) = some row := by
  have hfilter : rows.filter (fun other => other.authorizationId = row.authorizationId) = [row] := by
    induction rows with
    | nil => cases hrow
    | cons first rest ih =>
        simp only [List.map_cons, List.nodup_cons, List.mem_map, not_exists, not_and] at hnodup
        rcases List.mem_cons.mp hrow with rfl | hrest
        · have hnone : rest.filter (fun other => other.authorizationId = row.authorizationId) = [] := by
            simpa [List.filter_eq_nil_iff] using hnodup.1
          simp [hnone]
        · have hne : first.authorizationId ≠ row.authorizationId :=
            fun heq => hnodup.1 row hrest heq.symm
          simp [hne, ih hnodup.2 hrest]
  have hshown : rowsShown ⟨.read .allAuthorizations, .ok rows⟩ = rows := rfl
  rw [lastRead_snoc, hshown, hfilter]
  rfl

theorem expireDueAuthorizations_keeps :
    Keeps services (fun _ _ => True) expireDueAuthorizations seen := by
  unfold expireDueAuthorizations
  refine keeps_read_bind ?_ (fun _ => trivial)
  intro (rows : List PaymentAuthorization) hnodup
  refine keeps_clock_bind (fun now later hquiet => ?_)
  apply expireEach_keeps _
  intro row hrow
  obtain ⟨hmember, hdue⟩ := List.mem_filter.mp hrow
  simp only [Bool.and_eq_true, decide_eq_true_eq] at hdue
  refine ⟨?_, hdue.1⟩
  rw [hquiet.reads]
  exact lastRead_of_nodup hnodup hmember

/-- A balance is worked out from what the call read just before. -/
theorem balance_keeps (walletId : String) :
    Keeps services (fun later result => ∀ current, result = .ok current →
      ∃ ledger rows now, ⟨.read .transactions, .ok ledger⟩ ∈ later ∧
        ⟨.read (.listAuthorizations walletId), .ok rows⟩ ∈ later ∧ ⟨.clock, now⟩ ∈ later ∧
        current = balanceOf walletId ledger rows now) (balance walletId) seen := by
  unfold balance
  refine (requireWallet_keeps walletId).bind ?_ (fun _ _ _ => by rintro current ⟨⟩)
  rintro later wallet ⟨-, hwallet⟩
  obtain rfl := hwallet wallet rfl
  refine ⟨trivial, fun answer _ => ?_⟩
  cases answer with
  | error error => rintro current ⟨⟩
  | ok ledger =>
      refine ⟨trivial, fun answer _ => ?_⟩
      cases answer with
      | error error => rintro current ⟨⟩
      | ok rows =>
          refine ⟨trivial, fun now _ => ?_⟩
          rintro current ⟨rfl⟩
          exact ⟨ledger, rows, now, by simp, by simp, by simp, rfl⟩

theorem createWallet_keeps (input : CreateWalletInput) :
    Keeps services (fun _ _ => True) (createWallet input) seen := by
  unfold createWallet
  refine keeps_settled_bind ?_ (fun _ _ => trivial)
  intro value _
  split
  · exact trivial
  refine keeps_read_bind ?_ (fun _ => trivial)
  intro (existing : Option Wallet) _
  cases existing with
  | some wallet => exact trivial
  | none =>
      refine keeps_newId_bind (fun walletId afterId _ => ?_)
      refine keeps_clock_bind (fun createdAt later _ => ?_)
      refine Keeps.bind (keeps_movement ?_) (fun _ _ _ => trivial) (fun _ _ _ => trivial)
      apply keeps_pure
      rintro uow value ⟨rfl⟩
      exact ⟨.createWallet _, trivial, rfl⟩

theorem credit_keeps (input : CreditInput) :
    Keeps services (fun _ _ => True) (credit input) seen := by
  unfold credit
  refine (requireWallet_keeps input.walletId).bind ?_ (fun _ _ _ => trivial)
  rintro start wallet -
  refine keeps_settled_bind ?_ (fun _ _ => trivial)
  intro value hamount
  refine keeps_read_bind ?_ (fun _ => trivial)
  intro (existing : Option LedgerTransaction) _
  cases existing with
  | some transaction => exact trivial
  | none =>
      refine (transaction_keeps _ _ _ _ _ _ _).bind ?_ (fun _ _ _ => trivial)
      rintro final moved ⟨-, hbuilt⟩
      refine Keeps.bind (keeps_movement ?_) (fun _ _ _ => trivial) (fun _ _ _ => trivial)
      apply keeps_pure
      rintro uow value ⟨rfl⟩
      exact ⟨.credit wallet input.amountMinor moved,
        ⟨assertAmount_ok hamount, (hbuilt moved rfl).1⟩, rfl⟩

theorem authorize_keeps (input : AuthorizeInput) :
    Keeps services (fun _ _ => True) (authorize input) seen := by
  unfold authorize
  refine (requireWallet_keeps input.walletId).bind ?_ (fun _ _ _ => trivial)
  rintro start wallet -
  refine keeps_settled_bind ?_ (fun _ _ => trivial)
  intro value hamount
  refine keeps_read_bind ?_ (fun _ => trivial)
  intro (existing : Option PaymentAuthorization) _
  cases existing with
  | some row => exact trivial
  | none =>
      dsimp only
      split
      · exact trivial
      refine (balance_keeps wallet.walletId).bind ?_ (fun _ _ _ => trivial)
      intro afterBalance current hcurrent
      split
      · exact trivial
      rename_i hfits
      refine keeps_newId_bind (fun authorizationId afterId hid => ?_)
      refine keeps_clock_bind (fun createdAt afterCreated hcreated => ?_)
      refine keeps_clock_bind (fun now afterNow hnow => ?_)
      refine keeps_settled_bind ?_ (fun _ _ => trivial)
      intro expiresAt _
      have hgrown := ((hid.trans hcreated).trans hnow).continues.subset
      obtain ⟨ledger, rows, at', hledger, hrows, hclock, rfl⟩ := hcurrent current rfl
      refine Keeps.bind (keeps_movement ?_) (fun _ _ _ => trivial) (fun _ _ _ => trivial)
      apply keeps_pure
      rintro uow value ⟨rfl⟩
      exact ⟨.authorize (newAuthorization authorizationId wallet input createdAt expiresAt),
        ⟨rfl, rfl, rfl, assertAmount_ok hamount, ledger, rows, at', hgrown hledger, hgrown hrows,
          hgrown hclock, not_lt.mp hfits⟩, rfl⟩

/-- The reply to a client ends a call without another action. -/
theorem answered_keeps {β : Type} {call : Call β}
    (h : Keeps services (fun _ _ => True) call seen) : Keeps services anyEnd (answered call) seen :=
  h.bind (fun _ _ _ => trivial) (fun _ _ _ => trivial)

theorem Request.keeps (request : Request) : Keeps services anyEnd request.call [] := by
  cases request with
  | createWallet input => exact answered_keeps (createWallet_keeps input)
  | credit input => exact answered_keeps (credit_keeps input)
  | authorize input => exact answered_keeps (authorize_keeps input)
  | capture input => exact answered_keeps (capture_keeps input)
  | refund input => exact answered_keeps (refund_keeps input)
  | voidAuthorization input => exact answered_keeps (voidAuthorization_keeps input)
  | expireDueAuthorizations => exact answered_keeps expireDueAuthorizations_keeps

end Money

/-! ### The fulfillment service -/

theorem Money.Movement.Legal.quiet {seen later : Seen} (h : Quiet seen later)
    {movement : Money.Movement} (hlegal : movement.Legal seen) : movement.Legal later := by
  cases movement with
  | none => trivial
  | createWallet wallet => trivial
  | credit wallet amount moved => exact hlegal
  | authorize row =>
      obtain ⟨hopen, hcaptured, hrefunded, hpositive, hcovered⟩ := hlegal
      exact ⟨hopen, hcaptured, hrefunded, hpositive, hcovered.later h.continues⟩
  | capture row wallet requested closedAt moved =>
      obtain ⟨hlast, hopen, hwallet, hpositive, hceiling, hbuilt, hunexpired, hkey⟩ := hlegal
      exact ⟨by rw [h.reads]; exact hlast, hopen, hwallet, hpositive, hceiling, hbuilt,
        hunexpired.later h.continues, hkey⟩
  | refund row wallet requested reason moved => exact ⟨by rw [h.reads]; exact hlegal.1, hlegal.2⟩
  | void row reason voidedAt closedAt => exact ⟨by rw [h.reads]; exact hlegal.1, hlegal.2⟩

namespace Fulfillment

-- a check is one step, whatever text it compares
attribute [local irreducible] trim

variable {seen : Seen}

open Money (Movement)

theorem Outcome.quiet {later : Seen} (h : Quiet seen later) {hold : Option String}
    {outcome : SettlementOutcome} {movement : Movement} (houtcome : Outcome seen hold outcome movement) :
    Outcome later hold outcome movement := by
  cases houtcome with
  | unfunded => exact .unfunded
  | unsettled hold => exact .unsettled hold
  | voided hlegal => exact .voided (hlegal.quiet h)
  | captured hlegal hreference => exact .captured (hlegal.quiet h) hreference
  | alreadyClosed hread hclosed => exact .alreadyClosed (rowsRead_later h.continues hread) hclosed
  | alreadyCaptured hread hcaptured =>
      exact .alreadyCaptured (rowsRead_later h.continues hread) hcaptured
  | replayed hlast hfound =>
      exact .replayed (by rw [h.reads]; exact hlast) (hfound.later h.continues)

theorem Outcome.legal {hold : Option String} {outcome : SettlementOutcome} {movement : Movement}
    (h : Outcome seen hold outcome movement) : movement.Legal seen := by
  cases h with
  | voided hlegal => exact hlegal
  | captured hlegal _ => exact hlegal
  | unfunded => trivial
  | unsettled _ => trivial
  | alreadyClosed _ _ => trivial
  | alreadyCaptured _ _ => trivial
  | replayed _ _ => trivial

theorem Paid.quiet {later : Seen} (h : Quiet seen later) {hold : String} {movement : Movement}
    (hpaid : Paid seen hold movement) : Paid later hold movement := by
  cases hpaid with
  | captured hid hreference => exact .captured hid hreference
  | replayed hfound => exact .replayed (hfound.later h.continues)

/-- What a release leaves a fulfillment that is not completed may say. -/
abbrev Released (outcome : SettlementOutcome) : Prop :=
  settlementAligned .failed outcome.settlement = true

/-- How a settlement ends: with an outcome the call's own reads account for, and a
capture behind it if it `paid`. -/
def SettlesAs (fulfillment : Fulfillment) (uow uow' : Work) (later : Seen)
    (outcome : SettlementOutcome) (paid : Bool) : Prop :=
  ∃ movement, Outcome later fulfillment.paymentAuthorizationId outcome movement ∧
    (paid = true → ∀ hold, fulfillment.paymentAuthorizationId = some hold →
      Paid later hold movement) ∧ uow' = movement.staged uow

theorem release_keeps (uow : Work) (fulfillment : Fulfillment) (reason : String) :
    Keeps services (fun later result => seen <+: later ∧
      ∀ uow' outcome, result = .ok (uow', outcome) →
        SettlesAs fulfillment uow uow' later outcome false ∧ Released outcome)
      (release uow fulfillment reason) seen := by
  unfold release
  cases hhold : fulfillment.paymentAuthorizationId with
  | none =>
      refine ⟨List.prefix_refl seen, ?_⟩
      rintro uow' outcome ⟨rfl⟩
      exact ⟨⟨.none, by rw [hhold]; exact .unfunded, by rintro ⟨⟩, rfl⟩, rfl⟩
  | some hold =>
      refine Keeps.tryCatch (p := fun later result => seen <+: later ∧
        ∀ uow' outcome, result = .ok (uow', outcome) →
          SettlesAs fulfillment uow uow' later outcome false ∧ Released outcome) ?_ (fun _ _ h => h) ?_
      · refine (Money.voidWithin_keeps uow ⟨hold, reason⟩).bind ?_
          (fun later error h => ⟨h.1, by rintro uow' outcome ⟨⟩⟩)
        rintro later ⟨uow', voided⟩ ⟨hcontinues, hends⟩
        refine ⟨hcontinues, ?_⟩
        rintro _ outcome ⟨rfl⟩
        refine ⟨?_, by simp only [Released]; split <;> rfl⟩
        unfold SettlesAs
        obtain ⟨hid, ⟨rfl, hread, hclosed⟩ | ⟨row, voidReason, voidedAt, closedAt, hlegal, rfl,
          rfl⟩⟩ := hends uow' voided rfl
        · have hid : voided.authorizationId = hold := hid
          rw [hhold, ← hid]
          exact ⟨.none, .alreadyClosed hread hclosed, by rintro ⟨⟩, rfl⟩
        · have hid : row.authorizationId = hold := hid
          rw [hhold, ← hid]
          exact ⟨_, .voided hlegal, by rintro ⟨⟩, rfl⟩
      · rintro later error ⟨hcontinues, -⟩
        refine keeps_recordAudit_bind rfl (fun final hquiet => ?_)
          (fun final _ hquiet => ⟨hcontinues.trans hquiet.continues, by rintro uow' outcome ⟨⟩⟩)
        refine ⟨hcontinues.trans hquiet.continues, ?_⟩
        rintro uow' outcome ⟨rfl⟩
        exact ⟨⟨.none, by rw [hhold]; exact .unsettled hold, by rintro ⟨⟩, rfl⟩, rfl⟩

/-- The status a completion closes with after a settlement. -/
def closingAs (settled : Settled) : FulfillmentStatus :=
  if settled.refusal.isNone then .completed else .failed

/-- A settlement says what the status it closes with may say. -/
abbrev Paired (settled : Settled) : Prop :=
  settlementAligned (closingAs settled) settled.outcome.settlement = true

theorem settle_keeps (uow : Work) (fulfillment : Fulfillment) :
    Keeps services (fun later result => seen <+: later ∧
      ∀ uow' settled, result = .ok (uow', settled) →
        SettlesAs fulfillment uow uow' later settled.outcome settled.refusal.isNone ∧
          Paired settled)
      (settle uow fulfillment) seen := by
  unfold settle
  cases hhold : fulfillment.paymentAuthorizationId with
  | none =>
      refine ⟨List.prefix_refl seen, ?_⟩
      rintro uow' settled ⟨rfl⟩
      exact ⟨⟨.none, by rw [hhold]; exact .unfunded, by rw [hhold]; rintro - other ⟨⟩, rfl⟩, rfl⟩
  | some hold =>
      refine Keeps.tryCatch (p := fun later result => seen <+: later ∧
        ∀ uow' settled, result = .ok (uow', settled) →
          SettlesAs fulfillment uow uow' later settled.outcome settled.refusal.isNone ∧
          Paired settled)
        ?_ (fun _ _ h => h) ?_
      · refine (Money.captureHoldWithin_keeps uow ⟨hold, none, none⟩).bind ?_
          (fun later error h => ⟨h.1, by rintro uow' settled ⟨⟩⟩)
        rintro later ⟨uow', captured⟩ ⟨hcontinues, hends⟩
        refine ⟨hcontinues, ?_⟩
        rintro _ settled ⟨rfl⟩
        refine ⟨?_, by simp only [Paired]; split <;> rfl⟩
        unfold SettlesAs
        obtain ⟨hid, ⟨rfl, hlast, transaction, hfound⟩ | ⟨row, wallet, requested, closedAt, moved,
          hlegal, hreference, rfl, rfl⟩⟩ := hends uow' captured rfl
        · have hid : captured.authorizationId = hold := hid
          subst hid
          rw [hhold]
          refine ⟨.none, .replayed hlast hfound, ?_, rfl⟩
          rintro - other ⟨rfl⟩
          exact .replayed hfound
        · have hid : row.authorizationId = hold := hid
          subst hid
          rw [hhold]
          refine ⟨_, .captured hlegal hreference, ?_, rfl⟩
          rintro - other ⟨rfl⟩
          exact .captured rfl hreference
      · rintro later error ⟨hcontinues, -⟩
        refine (release_keeps uow fulfillment _).bind ?_ (fun final _ h =>
          ⟨hcontinues.trans h.1, by rintro uow' settled ⟨⟩⟩)
        rintro final ⟨uow', released⟩ ⟨hrelease, hends⟩
        refine ⟨hcontinues.trans hrelease, ?_⟩
        rintro _ settled ⟨rfl⟩
        exact hends uow' released rfl

/-- A unit of work a closure may commit, from a fulfillment it read open. -/
def Commits (later : Seen) (uow : Work) : Prop :=
  ∃ operation : Operation, operation.Legal later ∧ uow = operation.staged

theorem keeps_commit {β : Type} {body : Work → Call (Work × β)}
    (h : Keeps services (fun later result => ∀ uow value, result = .ok (uow, value) →
      Commits later uow) (body UnitOfWork.empty) seen) :
    Keeps services (fun _ _ => True) (withTransaction body) seen := by
  refine keeps_withTransaction (h.mono ?_)
  intro later result hends
  cases result with
  | ok done => exact ⟨hends done.1 done.2 rfl, fun _ _ => ⟨trivial, fun _ => trivial⟩⟩
  | error error => trivial

theorem require_keeps (fulfillmentId : String) :
    Keeps services (fun later result => seen <+: later ∧ ∀ row, result = .ok row →
      row ∈ fulfillmentsRead later) (require fulfillmentId) seen := by
  unfold require
  refine keeps_read_bind ?_ (fun _ => ⟨List.prefix_append seen _, by rintro row ⟨⟩⟩)
  intro (found : Option Fulfillment) _
  cases found with
  | none => exact ⟨List.prefix_append seen _, by rintro row ⟨⟩⟩
  | some found =>
      refine ⟨List.prefix_append seen _, ?_⟩
      rintro row ⟨rfl⟩
      exact fulfillmentsRead_snoc (List.mem_singleton_self _) seen

/-- Closing a fulfillment the call read open, by an outcome it can account for. -/
theorem closed_commits {uow : Work} {later : Seen} {current row : Fulfillment}
    {outcome : SettlementOutcome} {action : String} {paid : Bool}
    (hread : current ∈ fulfillmentsRead later) (hopen : isClosed current.status = false)
    (hid : row.fulfillmentId = current.fulfillmentId)
    (hhold : row.paymentAuthorizationId = current.paymentAuthorizationId)
    (hclosed : isClosed row.status = true)
    (haction : action =
      if row.status = .cancelled then "fulfillment.cancelled" else "fulfillment.closed")
    (hsettlement : row.settlementState = outcome.settlement)
    (hjob : row.moveJobReference = current.moveJobReference ∨
      row.moveJobReference.isSome ∧ row.status ≠ .cancelled)
    (hmarker : marker row = marker current)
    (haligned : settlementAligned row.status row.settlementState = true)
    (hsettles : SettlesAs current UnitOfWork.empty uow later outcome paid)
    (hpaid : row.status = .completed → paid = true) :
    Commits later (stageClosed uow row outcome.capturedMinor action) := by
  obtain ⟨movement, houtcome, hpays, rfl⟩ := hsettles
  refine ⟨⟨movement, .closed current row outcome.capturedMinor action⟩,
    ⟨houtcome.legal, ⟨hread, hopen, hid, hhold, hclosed, haction, ?_⟩, hjob, hmarker, haligned, ?_⟩,
    rfl⟩
  · rw [hhold, hsettlement]
    exact houtcome
  · intro hcompleted hold hheld
    exact hpays (hpaid hcompleted) hold (hhold ▸ hheld)

theorem closeWithin_keeps {uow : Work} {current : Fulfillment} {status : FulfillmentStatus}
    (reason : Option String) {outcome : SettlementOutcome}
    (hread : current ∈ fulfillmentsRead seen) (hopen : isClosed current.status = false)
    (hclosed : isClosed status = true) (hcompleted : status ≠ .completed)
    (haligned : settlementAligned status outcome.settlement = true)
    (hsettles : SettlesAs current UnitOfWork.empty uow seen outcome false) :
    Keeps services (fun later result => ∀ uow' value, result = .ok (uow', value) →
      Commits later uow') (closeWithin uow current status reason outcome) seen := by
  unfold closeWithin
  refine keeps_clock_bind (fun completedAt later hquiet => ?_)
  apply keeps_pure
  rintro uow' value ⟨rfl⟩
  obtain ⟨movement, houtcome, -, hstaged⟩ := hsettles
  have hsettles : SettlesAs current UnitOfWork.empty uow later outcome false :=
    ⟨movement, houtcome.quiet hquiet, by rintro ⟨⟩, hstaged⟩
  exact closed_commits (fulfillmentsRead_later hquiet.continues hread) hopen rfl rfl hclosed rfl rfl
    (.inl rfl) rfl haligned hsettles (fun h => absurd h hcompleted)

theorem settleReport_keeps (uow : Work) (current : Fulfillment)
    (payload : MoveJobCompletedPayload) :
    Keeps services (fun later result => seen <+: later ∧
      ∀ uow' settled, result = .ok (uow', settled) →
        SettlesAs current uow uow' later settled.outcome settled.refusal.isNone ∧ Paired settled)
      (settleReport uow current payload) seen := by
  unfold settleReport
  split
  · exact settle_keeps uow current
  · refine (release_keeps uow current _).bind ?_
      (fun later _ h => ⟨h.1, by rintro uow' settled ⟨⟩⟩)
    rintro later ⟨uow', released⟩ ⟨hcontinues, hends⟩
    refine ⟨hcontinues, ?_⟩
    rintro _ settled ⟨rfl⟩
    exact hends uow' released rfl

theorem completeWithin_keeps {current : Fulfillment} (payload : MoveJobCompletedPayload)
    (hread : current ∈ fulfillmentsRead seen) (hopen : isClosed current.status = false) :
    Keeps services (fun later result => ∀ uow value, result = .ok (uow, value) →
      Commits later uow) (completeWithin UnitOfWork.empty current payload) seen := by
  unfold completeWithin
  refine (settleReport_keeps UnitOfWork.empty current payload).bind ?_ ?_
  swap
  · rintro later error - uow value ⟨⟩
  rintro later ⟨uow, settled⟩ ⟨hcontinues, hends⟩
  apply keeps_pure
  rintro uow' value ⟨rfl⟩
  obtain ⟨hsettles, hpaired⟩ := hends uow settled rfl
  refine closed_commits (fulfillmentsRead_later hcontinues hread) hopen rfl rfl ?_ ?_ rfl
    (.inr ⟨rfl, ?_⟩) rfl hpaired hsettles ?_
  · dsimp only
    split <;> rfl
  · dsimp only
    split <;> rfl
  · dsimp only
    split <;> simp
  · dsimp only
    split
    · exact fun _ => ‹_›
    · rintro ⟨⟩

/-- A transition keeps the discipline if its body does and so does the answer it
gives from a winner it has read. -/
theorem transition_keeps {body : Work → Call (Work × Fulfillment)}
    {whenLost : Fulfillment → Call Fulfillment}
    (hbody : Keeps services (fun later result => ∀ uow value, result = .ok (uow, value) →
      Commits later uow) (body UnitOfWork.empty) seen)
    (hlost : ∀ later winner, winner ∈ fulfillmentsRead later →
      Keeps services (fun _ _ => True) (whenLost winner) later) :
    Keeps services (fun _ _ => True) (transition body whenLost) seen := by
  unfold transition
  refine (keeps_commit hbody).tryCatch (fun _ _ _ => trivial) ?_
  intro later error _
  cases error with
  | transitionLost fulfillmentId =>
      refine (require_keeps fulfillmentId).bind ?_ (fun _ _ _ => trivial)
      intro final winner hread
      exact hlost final winner (hread.2 winner rfl)
  | core error => trivial
  | other message => trivial
  | intakeLost orderReference => trivial

theorem intake_keeps {body : Work → Call (Work × Fulfillment)}
    (hbody : Keeps services (fun later result => ∀ uow value, result = .ok (uow, value) →
      Commits later uow) (body UnitOfWork.empty) seen) :
    Keeps services (fun _ _ => True) (intake body) seen := by
  unfold intake
  refine (keeps_commit hbody).tryCatch (fun _ _ _ => trivial) ?_
  intro later error _
  cases error with
  | intakeLost orderReference =>
      refine keeps_read_bind ?_ (fun _ => trivial)
      intro (found : Option Fulfillment) _
      cases found <;> trivial
  | core error => trivial
  | other message => trivial
  | transitionLost fulfillmentId => trivial

theorem rejectionOn_keeps (closed : Fulfillment) :
    Keeps services (fun _ _ => True) (rejectionOn closed) seen := by
  unfold rejectionOn
  split <;> trivial

theorem cancellationOn_keeps (closed : Fulfillment) :
    Keeps services (fun _ _ => True) (cancellationOn closed) seen := by
  unfold cancellationOn
  split <;> trivial

theorem completionOn_keeps {closed : Fulfillment} (payload : MoveJobCompletedPayload)
    (hread : closed ∈ fulfillmentsRead seen) :
    Keeps services (fun _ _ => True) (completionOn closed payload) seen := by
  unfold completionOn
  split
  · rename_i hcancelled
    unfold recordExecutionAfterCancellation
    split
    · trivial
    split
    · trivial
    refine (keeps_commit ?_).tryCatch (fun _ _ _ => trivial) ?_
    · apply keeps_pure
      rintro uow value ⟨rfl⟩
      exact ⟨⟨.none, .marked closed payload⟩, ⟨trivial, ⟨hread, hcancelled, rfl⟩, trivial⟩, rfl⟩
    · intro later error _
      cases error with
      | transitionLost fulfillmentId => exact (require_keeps _).mono (fun _ _ _ => trivial)
      | core error => trivial
      | other message => trivial
      | intakeLost orderReference => trivial
  split <;> trivial

theorem acceptanceOn_keeps {current : Fulfillment} (jobId : String)
    (hread : current ∈ fulfillmentsRead seen) :
    Keeps services (fun _ _ => True) (acceptanceOn current jobId) seen := by
  unfold acceptanceOn
  split
  · split <;> trivial
  split
  · trivial
  rename_i hcancelled
  split
  · trivial
  refine Keeps.bind (keeps_commit ?_) (fun _ _ _ => trivial) (fun _ _ _ => trivial)
  apply keeps_pure
  rintro uow value ⟨rfl⟩
  exact ⟨⟨.none, .traced current jobId⟩, ⟨trivial, ⟨hread, by simpa using hcancelled, rfl⟩,
    trivial⟩, rfl⟩

/-- How a hold was found at intake. -/
inductive Inspected (later : Seen) : Option String → HoldInspection → Prop where
  | unfunded : Inspected later none ⟨true, true, .none, none, none⟩
  | unknown (declared : String) : Inspected later (some declared) unknownHold
  | read {row} (now : Int) (hread : row ∈ rowsRead later) (hshape : Money.WellShaped row) :
      Inspected later (some row.authorizationId) (inspectRow now row)

/-- A hold the call could read, or none where it could not. -/
theorem findHold_keeps (declared : String) :
    Keeps services (fun later result => ∀ row, result = .ok (some row) →
      row.authorizationId = declared ∧ row ∈ rowsRead later ∧ Money.WellShaped row)
      (tryCatch (Money.getAuthorization declared) (fun _ => pure none)) seen := by
  refine ⟨trivial, fun answer htold => ?_⟩
  cases answer with
  | error error => rintro row ⟨⟩
  | ok found =>
      rintro row ⟨rfl⟩
      exact ⟨htold.1, rowsRead_snoc (List.mem_singleton_self row) seen, htold.2⟩

theorem inspectHold_keeps (declared : Option String) :
    Keeps services (fun later result => ∀ hold, result = .ok hold → Inspected later declared hold)
      (inspectHold declared) seen := by
  cases declared with
  | none =>
      rintro hold ⟨rfl⟩
      exact .unfunded
  | some declared =>
      unfold inspectHold
      refine (findHold_keeps declared).bind ?_ ?_
      · intro later found hfound
        cases found with
        | none =>
            rintro hold ⟨rfl⟩
            exact .unknown declared
        | some row =>
            obtain ⟨rfl, hread, hshape⟩ := hfound row rfl
            refine keeps_clock_bind (fun now final hquiet => ?_)
            rintro hold ⟨rfl⟩
            exact .read now (rowsRead_later hquiet.continues hread) hshape
      · rintro later error - hold ⟨⟩

theorem Inspected.later {later final : Seen} (h : later <+: final) {declared : Option String}
    {hold : HoldInspection} (hinspected : Inspected later declared hold) :
    Inspected final declared hold := by
  cases hinspected with
  | unfunded => exact .unfunded
  | unknown declared => exact .unknown declared
  | read now hread hshape => exact .read now (rowsRead_later h hread) hshape

/-- A refusal that releases nothing settles by what intake inspected. -/
theorem Inspected.outcome {later : Seen} {declared : Option String} {hold : HoldInspection}
    (h : Inspected later declared hold) (hunusable : hold.usable = false)
    (hheld : hold.settlement ≠ .held) :
    Outcome later (if hold.known then declared else none)
      ⟨hold.settlement, hold.capturedMinor⟩ .none := by
  cases h with
  | unfunded => cases hunusable
  | unknown declared => exact .unfunded
  | @read row now hread hshape =>
      unfold inspectRow at hunusable hheld ⊢
      cases hstatus : row.status with
      | captured => exact .alreadyCaptured hread hstatus
      | partiallyCaptured =>
          have hpositive := (hshape.partially_between hstatus).1
          have := Outcome.alreadyClosed hread (.inr hstatus)
          simpa [hpositive] using this
      | voided =>
          have hzero := hshape.voided_zero hstatus
          have := Outcome.alreadyClosed hread (.inl hstatus)
          simpa [hzero] using this
      | authorized =>
          rw [hstatus] at hunusable hheld
          dsimp only at hunusable hheld
          split at hheld
          · exact absurd rfl hheld
          · exact absurd rfl hheld

/-- What intake inspected pairs with the status it takes the order up with. -/
theorem Inspected.aligned {later : Seen} {declared : Option String} {hold : HoldInspection}
    (h : Inspected later declared hold) :
    if hold.usable then settlementAligned .coordinating hold.settlement = true
    else hold.settlement ≠ .held → settlementAligned .failed hold.settlement = true := by
  cases h with
  | unfunded => rfl
  | unknown declared => exact fun _ => rfl
  | @read row now hread hshape =>
      unfold inspectRow
      cases row.status with
      | captured => exact fun _ => rfl
      | partiallyCaptured => exact fun _ => rfl
      | voided => exact fun _ => rfl
      | authorized =>
          dsimp only
          split
          · exact fun hheld => absurd rfl hheld
          · rfl

theorem releaseRefused_keeps (uow : Work) {fulfillmentId : String}
    {payload : MarketOrderCreatedPayload} {hold : HoldInspection} {createdAt : Int}
    (h : Inspected seen payload.paymentAuthorizationId hold) (hunusable : hold.usable = false) :
    Keeps services (fun later result => ∀ uow' outcome, result = .ok (uow', outcome) →
        SettlesAs (coordinatingRow fulfillmentId payload hold createdAt) uow uow' later outcome
          false ∧ Released outcome)
      (releaseRefused uow (coordinatingRow fulfillmentId payload hold createdAt) hold) seen := by
  unfold releaseRefused
  split
  · exact (release_keeps _ _ _).mono (fun _ _ h => h.2)
  · rename_i hheld
    rintro uow' outcome ⟨rfl⟩
    have haligned := h.aligned
    rw [if_neg (by simp [hunusable])] at haligned
    exact ⟨⟨.none, h.outcome hunusable hheld, by rintro ⟨⟩, rfl⟩, haligned hheld⟩

theorem refuseWithin_keeps {fulfillmentId : String} {payload : MarketOrderCreatedPayload}
    {hold : HoldInspection} {createdAt : Int}
    (h : Inspected seen payload.paymentAuthorizationId hold) (hunusable : hold.usable = false) :
    Keeps services (fun later result => ∀ uow value, result = .ok (uow, value) →
      Commits later uow)
      (refuseWithin UnitOfWork.empty (coordinatingRow fulfillmentId payload hold createdAt) hold
        payload.paymentAuthorizationId) seen := by
  unfold refuseWithin
  refine (releaseRefused_keeps UnitOfWork.empty h hunusable).bind ?_ ?_
  swap
  · rintro later error - uow value ⟨⟩
  rintro later ⟨uow, outcome⟩ hends
  refine keeps_clock_bind (fun completedAt final hquiet => ?_)
  apply keeps_pure
  rintro uow' value ⟨rfl⟩
  obtain ⟨⟨movement, houtcome, -, rfl⟩, hreleased⟩ := hends uow outcome rfl
  have houtcome := houtcome.quiet hquiet
  exact ⟨⟨movement, .refused _ outcome.capturedMinor _⟩,
    ⟨houtcome.legal, ⟨rfl, houtcome⟩, rfl, rfl, hreleased⟩, rfl⟩

theorem consumeMarketOrder_keeps (payload : MarketOrderCreatedPayload) :
    Keeps services (fun _ _ => True) (consumeMarketOrder payload) seen := by
  unfold consumeMarketOrder
  refine keeps_read_bind ?_ (fun _ => trivial)
  intro (existing : Option Fulfillment) _
  cases existing with
  | some row => exact trivial
  | none =>
      refine (inspectHold_keeps payload.paymentAuthorizationId).bind ?_ (fun _ _ _ => trivial)
      intro afterHold hold hinspected
      refine keeps_newId_bind (fun fulfillmentId afterId hid => ?_)
      refine keeps_clock_bind (fun createdAt later hclock => ?_)
      dsimp only
      split
      · rename_i hunusable
        refine intake_keeps (refuseWithin_keeps ?_ (by simpa using hunusable))
        exact (hinspected hold rfl).later (hid.trans hclock).continues
      · rename_i husable
        refine intake_keeps (keeps_pure ?_)
        rintro uow value ⟨rfl⟩
        have haligned := (hinspected hold rfl).aligned
        rw [if_pos (by simpa using husable)] at haligned
        exact ⟨⟨.none, .created _ _⟩, ⟨trivial, ⟨rfl, rfl⟩, rfl, rfl, haligned⟩, rfl⟩

theorem consumeJobAccepted_keeps (payload : MoveJobAcceptedPayload) :
    Keeps services (fun _ _ => True) (consumeJobAccepted payload) seen := by
  unfold consumeJobAccepted
  refine (require_keeps payload.fulfillmentId).bind ?_ (fun _ _ _ => trivial)
  rintro later current ⟨-, hread⟩
  have hread := hread current rfl
  split
  · exact acceptanceOn_keeps payload.jobId hread
  · rename_i hmoved
    refine transition_keeps (keeps_pure ?_)
      (fun _ _ hwinner => acceptanceOn_keeps payload.jobId hwinner)
    rintro uow value ⟨rfl⟩
    refine ⟨⟨.none, .dispatched current payload⟩, ⟨trivial, ⟨hread, ?_, rfl⟩, trivial⟩, rfl⟩
    cases hstatus : current.status <;> simp_all [isClosed]

theorem consumeJobRejected_keeps (payload : MoveJobRejectedPayload) :
    Keeps services (fun _ _ => True) (consumeJobRejected payload) seen := by
  unfold consumeJobRejected
  refine (require_keeps payload.fulfillmentId).bind ?_ (fun _ _ _ => trivial)
  rintro later current ⟨-, hread⟩
  have hread := hread current rfl
  split
  · exact rejectionOn_keeps current
  · rename_i hopen
    refine transition_keeps ?_ (fun _ _ _ => rejectionOn_keeps _)
    refine (release_keeps UnitOfWork.empty current _).bind ?_ ?_
    swap
    · rintro final error - uow value ⟨⟩
    rintro final ⟨uow, outcome⟩ ⟨hcontinues, hends⟩
    obtain ⟨hsettles, hreleased⟩ := hends uow outcome rfl
    exact closeWithin_keeps _ (fulfillmentsRead_later hcontinues hread) (by simpa using hopen) rfl
      (by simp) hreleased hsettles

theorem consumeMoveCompletion_keeps (payload : MoveJobCompletedPayload) :
    Keeps services (fun _ _ => True) (consumeMoveCompletion payload) seen := by
  unfold consumeMoveCompletion
  refine (require_keeps payload.fulfillmentId).bind ?_ (fun _ _ _ => trivial)
  rintro later current ⟨-, hread⟩
  have hread := hread current rfl
  split
  · exact completionOn_keeps payload hread
  · rename_i hopen
    exact transition_keeps (completeWithin_keeps payload hread (by simpa using hopen))
      (fun _ _ hwinner => completionOn_keeps payload hwinner)

theorem cancel_keeps (input : CancelInput) :
    Keeps services (fun _ _ => True) (cancel input) seen := by
  unfold cancel
  refine (require_keeps input.fulfillmentId).bind ?_ (fun _ _ _ => trivial)
  rintro later current ⟨-, hread⟩
  have hread := hread current rfl
  split
  · exact trivial
  split
  · exact cancellationOn_keeps current
  · rename_i hopen
    refine transition_keeps ?_ (fun _ _ _ => cancellationOn_keeps _)
    refine (release_keeps UnitOfWork.empty current _).bind ?_ ?_
    swap
    · rintro final error - uow value ⟨⟩
    rintro final ⟨uow, outcome⟩ ⟨hcontinues, hends⟩
    obtain ⟨hsettles, hreleased⟩ := hends uow outcome rfl
    exact closeWithin_keeps _ (fulfillmentsRead_later hcontinues hread) (by simpa using hopen) rfl
      (by simp) hreleased hsettles

theorem Request.keeps (request : Request) : Keeps services anyEnd request.call [] := by
  cases request with
  | marketOrder payload => exact Money.answered_keeps (consumeMarketOrder_keeps payload)
  | jobAccepted payload => exact Money.answered_keeps (consumeJobAccepted_keeps payload)
  | jobRejected payload => exact Money.answered_keeps (consumeJobRejected_keeps payload)
  | moveCompletion payload => exact Money.answered_keeps (consumeMoveCompletion_keeps payload)
  | cancel input => exact Money.answered_keeps (cancel_keeps input)

end Fulfillment

/-- Any request to either service. -/
def requests (call : Call Unit) : Prop :=
  (∃ request : Money.Request, call = request.call) ∨
    ∃ request : Fulfillment.Request, call = request.call

theorem requests_keep (call : Call Unit) (h : requests call) :
    Keeps services anyEnd call [] := by
  rcases h with ⟨request, rfl⟩ | ⟨request, rfl⟩
  · exact request.keeps
  · exact request.keeps

end WaslaCore
