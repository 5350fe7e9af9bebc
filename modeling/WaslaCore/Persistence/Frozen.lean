import WaslaCore.Persistence.Rules

/-!
What the triggers freeze. A plan that has been offered keeps its terms and its grants, and a
reputation signal changes once, when it is retracted. Writes follow each other, and a refused one
changes nothing.
-/

namespace WaslaCore.Persistence

open Platform Platform.InMemory Data

/-! ### Sequences of writes -/

/-- A write of a store. An insert that finds its key taken is refused by the primary key. -/
structure StoreWrite where
  table : RuledTable
  key : String
  row : Row
  inserts : Bool

section Sequences

variable (rowRules : RuledTable → Row → Except String Unit) (parse : String → Option Int)

def StoreWrite.apply (database : Database) (write : StoreWrite) : Except String Database :=
  if write.inserts && (database.rowAt write.table write.key).isSome then
    .error ("duplicate key value violates unique constraint \"" ++ write.table.name ++ "_pkey\"")
  else putRow rowRules parse database write.table write.key write.row

/-- The database after a write, whether or not it was accepted. -/
def written (database : Database) (write : StoreWrite) : Database :=
  match write.apply rowRules parse database with
  | .ok after => after
  | .error _ => database

def writtenAll (database : Database) (writes : List StoreWrite) : Database :=
  writes.foldl (written rowRules parse) database

/-- Every write of a sequence is as asked, where it is made. -/
def AllWritten (asked : Database → StoreWrite → Prop) : Database → List StoreWrite → Prop
  | _, [] => True
  | database, write :: rest =>
      asked database write ∧ AllWritten asked (written rowRules parse database write) rest

variable {rowRules parse}
variable {database : Database} {write : StoreWrite}

/-- A write is refused, or it passed the rules and is the one change. -/
theorem written_cases (rowRules : RuledTable → Row → Except String Unit)
    (parse : String → Option Int) (database : Database) (write : StoreWrite) :
    written rowRules parse database write = database ∨
      (putRules rowRules parse database write.table write.key write.row = .ok () ∧
        (write.inserts = true → database.rowAt write.table write.key = none) ∧
        written rowRules parse database write =
          database.write (.row write.table write.key write.row)) := by
  unfold written
  split
  · rename_i after happly
    unfold StoreWrite.apply at happly
    split at happly
    · cases happly
    · rename_i hfree
      obtain ⟨hrules, rfl⟩ := putRow_ok happly
      refine .inr ⟨hrules, fun hinserts => ?_, rfl⟩
      simpa [hinserts] using hfree
  · exact .inl rfl

/-- What every write keeps of a database holds at the end of the sequence. -/
theorem writtenAll_keeps (asked : Database → StoreWrite → Prop) (I : Database → Prop)
    (hstep : ∀ database write, I database → asked database write →
      I (written rowRules parse database write))
    {writes : List StoreWrite} (hasked : AllWritten rowRules parse asked database writes)
    (h : I database) : I (writtenAll rowRules parse database writes) := by
  induction writes generalizing database with
  | nil => exact h
  | cons write rest ih => exact ih hasked.2 (hstep database write h hasked.1)

theorem allWritten_of_forall {asked : StoreWrite → Prop} {writes : List StoreWrite}
    (h : ∀ write ∈ writes, asked write) :
    AllWritten rowRules parse (fun _ write => asked write) database writes := by
  induction writes generalizing database with
  | nil => trivial
  | cons write rest ih =>
      exact ⟨h write List.mem_cons_self,
        ih fun other hother => h other (List.mem_cons_of_mem _ hother)⟩

/-- A row that every update of its table keeps related stays related to what it was. -/
theorem written_relates (write : StoreWrite) {table : RuledTable} {relation : Row → Row → Prop}
    (hrefl : ∀ row, relation row row)
    (hupdate : ∀ {database key previous row}, database.rowAt table key = some previous →
      putRules rowRules parse database table key row = .ok () → relation previous row)
    {key : String} {row : Row} (h : database.rowAt table key = some row) :
    ∃ row', (written rowRules parse database write).rowAt table key = some row' ∧
      relation row row' := by
  rcases written_cases rowRules parse database write with hsame | ⟨hrules, -, hwritten⟩
  · exact ⟨row, by rw [hsame, h], hrefl row⟩
  · rw [hwritten, rowAt_write]
    by_cases hcell : write.table = table ∧ write.key = key
    · obtain ⟨rfl, rfl⟩ := hcell
      exact ⟨write.row, if_pos ⟨rfl, rfl⟩, hupdate h hrules⟩
    · exact ⟨row, by rw [if_neg hcell, h], hrefl row⟩

end Sequences

/-! ### Plans -/

/-- The plan has been offered, and is now on offer or retired. -/
def Offered (plan : Row) : Prop := plan.text "status" ≠ "draft"

/-- The commercial terms, and that a retired plan stays retired. -/
structure SameTerms (plan plan' : Row) : Prop where
  code : plan'.text "code" = plan.text "code"
  currency : plan'.text "currency" = plan.text "currency"
  amountMinor : plan'.num "amount_minor" = plan.num "amount_minor"
  billingInterval : plan'.text "billing_interval" = plan.text "billing_interval"
  intervalCount : plan'.num "interval_count" = plan.num "interval_count"
  retired : plan.text "status" = "retired" → plan'.text "status" = "retired"

theorem SameTerms.refl (plan : Row) : SameTerms plan plan := ⟨rfl, rfl, rfl, rfl, rfl, id⟩

theorem SameTerms.trans {first second third : Row} (h : SameTerms first second)
    (h' : SameTerms second third) : SameTerms first third where
  code := h'.code.trans h.code
  currency := h'.currency.trans h.currency
  amountMinor := h'.amountMinor.trans h.amountMinor
  billingInterval := h'.billingInterval.trans h.billingInterval
  intervalCount := h'.intervalCount.trans h.intervalCount
  retired := fun hretired => h'.retired (h.retired hretired)

theorem numbersDiffer_false {left right : Option Int} (h : numbersDiffer left right = false) :
    left = right := by
  cases left with
  | none => cases h
  | some first =>
      cases right with
      | none => cases h
      | some second => simpa [numbersDiffer] using h

theorem termsMoved_false {previous next : Row} (h : termsMoved previous next = false) :
    next.text "code" = previous.text "code" ∧ next.text "currency" = previous.text "currency" ∧
      next.num "amount_minor" = previous.num "amount_minor" ∧
      next.text "billing_interval" = previous.text "billing_interval" ∧
      next.num "interval_count" = previous.num "interval_count" := by
  unfold termsMoved at h
  simp only [Bool.or_eq_false_iff, decide_eq_false_iff_not, ne_eq, not_not] at h
  obtain ⟨⟨⟨⟨hcode, hcurrency⟩, hamount⟩, hinterval⟩, hcount⟩ := h
  exact ⟨hcode.symm, hcurrency.symm, (numbersDiffer_false hamount).symm, hinterval.symm,
    (numbersDiffer_false hcount).symm⟩

section Plans

variable {rowRules : RuledTable → Row → Except String Unit} {parse : String → Option Int}
variable {database : Database} {key : String} {previous row plan : Row}

/-- `plan_terms_immutable`, as what an accepted update of a plan kept. -/
theorem plan_update (hprevious : database.rowAt .plan key = some previous)
    (h : putRules rowRules parse database .plan key row = .ok ()) (hoffered : Offered previous) :
    SameTerms previous row ∧ Offered row := by
  have hpermits := transition_permits (putRules_ok h).2 planTermsImmutable
    (by simp [transitionRules]) (by intro read hread; cases hread)
    (by rw [hprevious]; exact List.mem_singleton_self _)
  rw [hprevious] at hpermits
  simp only [planTermsImmutable] at hpermits
  split at hpermits
  · cases hpermits
  rename_i hretired
  split at hpermits
  · cases hpermits
  rename_i hdraft
  split at hpermits
  · rename_i hwas
    exact absurd hwas hoffered
  split at hpermits
  · cases hpermits
  rename_i hmoved
  obtain ⟨hcode, hcurrency, hamount, hinterval, hcount⟩ :=
    termsMoved_false (Bool.not_eq_true _ ▸ hmoved)
  have hback : row.text "status" ≠ "draft" := fun hnow => hdraft ⟨hnow, hoffered⟩
  refine ⟨⟨hcode, hcurrency, hamount, hinterval, hcount, fun hwas => ?_⟩, hback⟩
  by_contra hnow
  exact hretired ⟨hwas, hnow⟩

/-- `plan_grant_immutable`, as what an accepted grant found. -/
theorem grant_written (h : putRules rowRules parse database .planGrant key row = .ok ())
    (hplan : database.rowAt .plan (row.text "plan_id") = some plan) : ¬Offered plan := by
  have hpermits := transition_permits (putRules_ok h).2 planGrantImmutable
    (by simp [transitionRules]) (by simp [planGrantImmutable, RuledTable.attached])
    (by simp only [planGrantImmutable]; split <;> decide)
  simp only [planGrantImmutable, hplan] at hpermits
  split at hpermits
  · rename_i hdraft
    exact not_not_intro hdraft
  · cases hpermits

/-- A plan once offered, with the grants it has. -/
def OfferedAs (planId : String) (plan : Row) (grants : String → Row → Prop) (database : Database) :
    Prop :=
  (∃ plan', database.rowAt .plan planId = some plan' ∧ SameTerms plan plan' ∧ Offered plan') ∧
    ∀ grantKey grant, grant.text "plan_id" = planId →
      (database.rowAt .planGrant grantKey = some grant ↔ grants grantKey grant)

theorem offeredAs_written {planId : String} {grants : String → Row → Prop} {write : StoreWrite}
    (h : OfferedAs planId plan grants database)
    (hinserts : write.table = .planGrant → write.inserts = true) :
    OfferedAs planId plan grants (written rowRules parse database write) := by
  obtain ⟨⟨plan', hplan', hterms, hoffered⟩, hgrants⟩ := h
  rcases written_cases rowRules parse database write with hsame | ⟨hrules, hfree, hwritten⟩
  · rw [hsame]
    exact ⟨⟨plan', hplan', hterms, hoffered⟩, hgrants⟩
  · rw [hwritten]
    constructor
    · by_cases hcell : write.table = .plan ∧ write.key = planId
      · obtain ⟨htable, rfl⟩ := hcell
        rw [htable] at hrules
        obtain ⟨hkept, hstill⟩ := plan_update hplan' hrules hoffered
        exact ⟨write.row, by rw [rowAt_write, if_pos ⟨htable, rfl⟩], hterms.trans hkept, hstill⟩
      · exact ⟨plan', by rw [rowAt_write, if_neg hcell, hplan'], hterms, hoffered⟩
    · intro grantKey grant hgrant
      rw [rowAt_write]
      by_cases hcell : write.table = .planGrant ∧ write.key = grantKey
      · obtain ⟨htable, rfl⟩ := hcell
        -- an insert found no grant there, and the plan it names is still a draft
        have hnone := hfree (hinserts htable)
        rw [htable] at hrules hnone
        rw [if_pos ⟨htable, rfl⟩, ← hgrants write.key grant hgrant, hnone]
        constructor
        · intro hrow
          rw [Option.some.inj hrow] at hrules
          exact absurd hoffered (grant_written hrules (hgrant ▸ hplan'))
        · intro hrow
          cases hrow
      · rw [if_neg hcell]
        exact hgrants grantKey grant hgrant

end Plans

/-- Once a plan is offered its terms and its grants are fixed: whatever is written afterwards to
whatever table, it stays offered on the same terms, a retired one stays retired, and it grants
exactly what it granted. -/
theorem offered_plan_fixed (rowRules : RuledTable → Row → Except String Unit)
    (parse : String → Option Int) (database : Database) (writes : List StoreWrite)
    (hinserts : ∀ write ∈ writes, write.table = .planGrant → write.inserts = true)
    (planId : String) (plan : Row) (hplan : database.rowAt .plan planId = some plan)
    (hoffered : Offered plan) :
    (∃ plan', (writtenAll rowRules parse database writes).rowAt .plan planId = some plan' ∧
        SameTerms plan plan' ∧ Offered plan') ∧
      ∀ grantKey grant, grant.text "plan_id" = planId →
        ((writtenAll rowRules parse database writes).rowAt .planGrant grantKey = some grant ↔
          database.rowAt .planGrant grantKey = some grant) := by
  apply writtenAll_keeps (fun _ write => write.table = .planGrant → write.inserts = true)
    (OfferedAs planId plan fun grantKey grant =>
      database.rowAt .planGrant grantKey = some grant)
  · exact fun _ _ h hasked => offeredAs_written h hasked
  · exact allWritten_of_forall hinserts
  · exact ⟨⟨plan, hplan, .refl plan, hoffered⟩, fun _ _ _ => Iff.rfl⟩

/-- A plan as it is published, offered and retired. -/
def planRow (status : String) (amountMinor : Int) : Row :=
  [("plan_id", .text "p"), ("status", .text status), ("code", .text "basic"),
    ("currency", .text "SAR"), ("amount_minor", .number amountMinor),
    ("billing_interval", .text "month"), ("interval_count", .number 1)]

def grantRow (featureKey : String) : Row :=
  [("plan_id", .text "p"), ("feature_key", .text featureKey), ("limit_value", .null)]

/-- A plan with one grant, on offer. -/
def onOffer : Database :=
  writtenAll (fun _ _ => .ok ()) (fun _ => none) ⟨fun _ => .empty, []⟩
    [⟨.plan, "p", planRow "draft" 100, false⟩, ⟨.planGrant, "p::seats", grantRow "seats", true⟩,
      ⟨.plan, "p", planRow "active" 100, false⟩]

theorem repriced_plan_fixed :
    (∃ plan', (writtenAll (fun _ _ => .ok ()) (fun _ => none) onOffer
        [⟨.plan, "p", planRow "active" 200, false⟩,
          ⟨.planGrant, "p::rides", grantRow "rides", true⟩,
          ⟨.plan, "p", planRow "retired" 100, false⟩]).rowAt .plan "p" = some plan' ∧
        SameTerms (planRow "active" 100) plan' ∧ Offered plan') ∧
      ∀ grantKey grant, grant.text "plan_id" = "p" →
        ((writtenAll (fun _ _ => .ok ()) (fun _ => none) onOffer
          [⟨.plan, "p", planRow "active" 200, false⟩,
            ⟨.planGrant, "p::rides", grantRow "rides", true⟩,
            ⟨.plan, "p", planRow "retired" 100, false⟩]).rowAt .planGrant grantKey = some grant ↔
          onOffer.rowAt .planGrant grantKey = some grant) := by
  apply offered_plan_fixed
  · decide
  · decide +kernel
  · unfold Offered
    decide

/-! ### Reputation signals -/

/-- The fields of the fact never change, and after its retraction nothing does. -/
structure Appended (signal signal' : Row) : Prop where
  frozen : ∀ field ∈ frozenFields, signal'.value field = signal.value field
  once : signal.isNull "retracted_at" = false → signal' = signal

theorem Appended.refl (signal : Row) : Appended signal signal := ⟨fun _ _ => rfl, fun _ => rfl⟩

theorem Appended.trans {first second third : Row} (h : Appended first second)
    (h' : Appended second third) : Appended first third where
  frozen := fun field hfield => (h'.frozen field hfield).trans (h.frozen field hfield)
  once := by
    intro hretracted
    have hsame := h.once hretracted
    subst hsame
    exact h'.once hretracted

section Signals

variable {rowRules : RuledTable → Row → Except String Unit} {parse : String → Option Int}
variable {database : Database} {key : String} {previous row : Row}

/-- `reputation_signal_append_only`, as what an accepted update of a signal kept. -/
theorem signal_update (hprevious : database.rowAt .reputationSignal key = some previous)
    (h : putRules rowRules parse database .reputationSignal key row = .ok ()) :
    Appended previous row := by
  have hpermits := transition_permits (putRules_ok h).2 reputationAppendOnly
    (by simp [transitionRules]) (by intro read hread; cases hread)
    (by rw [hprevious]; exact List.mem_singleton_self _)
  rw [hprevious] at hpermits
  simp only [reputationAppendOnly] at hpermits
  split at hpermits
  · cases hpermits
  rename_i hstanding
  split at hpermits
  · cases hpermits
  rename_i hfrozen
  constructor
  · intro field hfield
    simp only [List.any_eq_true, not_exists, not_and, decide_eq_true_eq, ne_eq, not_not] at hfrozen
    exact (hfrozen field hfield).symm
  · intro hretracted
    simp [hretracted] at hstanding

end Signals

/-- A reputation signal is append-only: whatever is written, a stored signal keeps the fields of
the fact, and from its retraction on it is the row it was. -/
theorem signals_append_only (rowRules : RuledTable → Row → Except String Unit)
    (parse : String → Option Int) (database : Database) (writes : List StoreWrite) (key : String)
    (signal : Row) (h : database.rowAt .reputationSignal key = some signal) :
    ∃ signal', (writtenAll rowRules parse database writes).rowAt .reputationSignal key =
      some signal' ∧ Appended signal signal' := by
  apply writtenAll_keeps (fun _ _ => True) (fun database =>
    ∃ signal', database.rowAt .reputationSignal key = some signal' ∧ Appended signal signal')
  · rintro database write ⟨signal', hsignal', happended⟩ -
    obtain ⟨signal'', hsignal'', hkept⟩ := written_relates write Appended.refl
      signal_update hsignal'
    exact ⟨signal'', hsignal'', happended.trans hkept⟩
  · exact @allWritten_of_forall _ _ _ (fun _ => True) _ fun _ _ => trivial
  · exact ⟨signal, h, .refl signal⟩

def signalRow (retractedAt : Value) : Row :=
  [("reputation_signal_id", .text "r"), ("organization_id", .text "o"),
    ("signal_kind", .text "completion"), ("retracted_at", retractedAt)]

theorem retracted_signal_appended :
    ∃ signal', (writtenAll (fun _ _ => .ok ()) (fun _ => none)
        (writtenAll (fun _ _ => .ok ()) (fun _ => none) ⟨fun _ => .empty, []⟩
          [⟨.organization, "o", [("organization_id", .text "o")], false⟩,
            ⟨.reputationSignal, "r", signalRow .null, false⟩])
        [⟨.reputationSignal, "r", signalRow (.text "2026-01-02T00:00:00.000Z"), false⟩,
          ⟨.reputationSignal, "r", signalRow .null, false⟩]).rowAt .reputationSignal "r" =
      some signal' ∧ Appended (signalRow .null) signal' := by
  apply signals_append_only
  decide +kernel

end WaslaCore.Persistence
