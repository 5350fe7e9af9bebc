import WaslaCore.Billing.Usage

/-!
Usage reported again. Calls to record usage come in any order among renewals, cancellations
and everything else that writes subscriptions and periods. A reference is counted once, and
a repetition is answered with the first record, in every run whose repetitions are looked up
in the period of the first record while that period stands.
-/

namespace WaslaCore.Billing

open Data Platform

/-! ### Runs -/

/-- The stores, the clock, and every call so far with its answer. -/
structure UsageWorld where
  store : Store
  usage : Table UsageRecord
  now : Int
  answers : List (UsageInput × Except Thrown (UsageRecord × Bool))

def UsageWorld.opened (now : Int) (plans : Table Plan) (grants : Table PlanGrant) : UsageWorld :=
  ⟨Store.offering plans grants, Table.empty, now, []⟩

/-- A call, answered. -/
def UsageWorld.record (world : UsageWorld) (usageId : String) (input : UsageInput) : UsageWorld :=
  match recordUsage world.now world.store world.usage usageId input with
  | .ok answer =>
      { world with
        usage := answer.usage
        answers := world.answers ++ [(input, .ok (answer.record, answer.recorded))] }
  | .error error => { world with answers := world.answers ++ [(input, .error error)] }

/-- A call to record usage, a commit of the subscription service, or time that passes.
`allowed` restricts the calls. -/
inductive UsageStep (allowed : UsageWorld → UsageInput → Prop) :
    UsageWorld → UsageWorld → Prop where
  | record (world : UsageWorld) (usageId : String) (input : UsageInput)
      (hallowed : allowed world input) : UsageStep allowed world (world.record usageId input)
  | commit (world : UsageWorld) (writes : List Write) (store' : Store)
      (happly : applyAll world.store writes = .ok store') :
      UsageStep allowed world { world with store := store' }
  | tick (world : UsageWorld) (elapsed : Nat) :
      UsageStep allowed world { world with now := world.now + elapsed }

abbrev UsageRun (allowed : UsageWorld → UsageInput → Prop) :
    UsageWorld → UsageWorld → Prop :=
  Relation.ReflTransGen (UsageStep allowed)

/-- Every call that was recorded is the only one counted for its key, and whoever repeats it
later is answered with its record. -/
def CountedOnce (world : UsageWorld) : Prop :=
  ∀ before input record after, world.answers = before ++ (input, .ok (record, true)) :: after →
    counted world.store world.usage input.key = input.quantity ∧
      ∀ later ∈ after, later.1.key = input.key → later.2 = .ok (record, false)

/-- A call that repeats a key is well formed and looked up in the period of the record of
that key, which is not voided. -/
def Punctual (world : UsageWorld) (input : UsageInput) : Prop :=
  ∀ record ∈ world.usage.values, record.isOf world.store input.key = true →
    input.check = .ok () ∧ ∃ instant period,
      askedInstant world.now input.askedAt = .ok instant ∧
      world.store.findPeriodCovering input.subscriptionId instant = some period ∧
      period.periodId = record.periodId ∧ period.status ≠ .voided

/-! ### The invariant -/

/-- The records of a run: under their own identifiers, in periods of subscriptions that are
there, one for each key, and one for each call that was recorded. -/
structure Metered (world : UsageWorld) : Prop where
  keyed : world.store.Keyed
  own : world.usage.KeyedBy UsageRecord.usageId
  subscribed : ∀ record ∈ world.usage.values, ∃ period subscription,
    world.store.getPeriod record.periodId = some period ∧
      world.store.getSubscription period.subscriptionId = some subscription
  single : ∀ key, ∀ record ∈ world.usage.values, ∀ other ∈ world.usage.values,
    record.isOf world.store key = true → other.isOf world.store key = true → record = other
  kept : ∀ input record, (input, .ok (record, true)) ∈ world.answers →
    record ∈ world.usage.values ∧ record.isOf world.store input.key = true ∧
      record.quantity = input.quantity
  repeated : ∀ before input record after,
    world.answers = before ++ (input, .ok (record, true)) :: after →
      ∀ later ∈ after, later.1.key = input.key → later.2 = .ok (record, false)

section Rows

variable {store store' : Store}

/-- A record stays of its key whatever is written to its period. -/
theorem isOf_lasting (h : Lasting store store') {key : UsageKey} {record : UsageRecord}
    (hstored : (store.getPeriod record.periodId).isSome) :
    record.isOf store' key = record.isOf store key := by
  obtain ⟨period, hperiod⟩ := Option.isSome_iff_exists.mp hstored
  obtain ⟨period', hperiod', hbilled⟩ := h.periods record.periodId period hperiod
  have hsame : period'.subscriptionId = period.subscriptionId := (of_billed hbilled).1
  simp [UsageRecord.isOf, hperiod, hperiod', hsame]

theorem isOf_iff {key : UsageKey} {record : UsageRecord} :
    record.isOf store key = true ↔
      record.featureKey = key.featureKey ∧ record.usageReference = key.usageReference ∧
        ∃ period, store.getPeriod record.periodId = some period ∧
          period.subscriptionId = key.subscriptionId := by
  simp [UsageRecord.isOf, Option.any_eq_true, and_assoc]

end Rows

/-- One record of a key is all that is counted for it. -/
theorem Metered.counted {world : UsageWorld} (h : Metered world) {key : UsageKey}
    {record : UsageRecord} (hrecord : record ∈ world.usage.values)
    (hof : record.isOf world.store key = true) :
    counted world.store world.usage key = record.quantity := by
  have hnodup : world.usage.values.Nodup := h.own.keys_nodup.of_map _
  have hsingle : world.usage.values.filter (fun item => item.isOf world.store key) = [record] := by
    apply List.perm_singleton.mp
    apply (List.perm_ext_iff_of_nodup (hnodup.filter _) (List.nodup_singleton record)).mpr
    intro item
    rw [List.mem_filter, List.mem_singleton]
    constructor
    · rintro ⟨hitem, hsame⟩
      exact h.single key item hitem record hrecord hsame hof
    · rintro rfl
      exact ⟨hrecord, hof⟩
  rw [Billing.counted, hsingle]
  simp

theorem Metered.countedOnce {world : UsageWorld} (h : Metered world) : CountedOnce world := by
  intro before input record after hanswers
  have hmember : (input, .ok (record, true)) ∈ world.answers := by
    rw [hanswers]
    exact List.mem_append_right _ List.mem_cons_self
  obtain ⟨hrecord, hof, hquantity⟩ := h.kept input record hmember
  exact ⟨(h.counted hrecord hof).trans hquantity, h.repeated before input record after hanswers⟩

theorem Metered.opened (now : Int) (plans : Table Plan) (grants : Table PlanGrant) :
    Metered (UsageWorld.opened now plans grants) where
  keyed := Store.keyed_offering plans grants
  own := by
    intro key row hrow
    cases hrow
  subscribed := by
    intro record hrecord
    cases hrecord
  single := by
    intro key record hrecord
    cases hrecord
  kept := by
    intro input record hmember
    cases hmember
  repeated := by
    intro before input record after hanswers
    cases before <;> cases hanswers

/-- What the subscription service commits leaves the records as they are. -/
theorem Metered.commit {world : UsageWorld} (h : Metered world) {writes : List Write}
    {store' : Store} (happly : applyAll world.store writes = .ok store') :
    Metered { world with store := store' } := by
  have hkeyed := applyAll_keyed h.keyed happly
  have hlasting := applyAll_lasting h.keyed happly
  have hsame : ∀ record ∈ world.usage.values, ∀ key,
      record.isOf store' key = record.isOf world.store key := by
    intro record hrecord key
    obtain ⟨period, -, hperiod, -⟩ := h.subscribed record hrecord
    exact isOf_lasting hlasting (Option.isSome_of_eq_some hperiod)
  refine ⟨hkeyed, h.own, ?_, ?_, ?_, h.repeated⟩
  · intro record hrecord
    obtain ⟨period, subscription, hperiod, hsubscription⟩ := h.subscribed record hrecord
    obtain ⟨period', hperiod', hbilled⟩ := hlasting.periods record.periodId period hperiod
    obtain ⟨subscription', hsubscription', -⟩ :=
      hlasting.subscriptions period.subscriptionId subscription hsubscription
    have howner : period'.subscriptionId = period.subscriptionId :=
      (of_billed hbilled).1
    exact ⟨period', subscription', hperiod', howner ▸ hsubscription'⟩
  · intro key record hrecord other hother hof hof'
    rw [hsame record hrecord] at hof
    rw [hsame other hother] at hof'
    exact h.single key record hrecord other hother hof hof'
  · intro input record hmember
    obtain ⟨hrecord, hof, hquantity⟩ := h.kept input record hmember
    exact ⟨hrecord, (hsame record hrecord input.key).trans hof, hquantity⟩

/-- A punctual repetition is answered with the record of its key, and adds nothing. -/
theorem Metered.repetition {world : UsageWorld} (h : Metered world) {usageId : String}
    {input : UsageInput} (hpunctual : Punctual world input) {record : UsageRecord}
    (hrecord : record ∈ world.usage.values)
    (hof : record.isOf world.store input.key = true) :
    recordUsage world.now world.store world.usage usageId input =
      .ok ⟨world.usage, record, false⟩ := by
  obtain ⟨hcheck, instant, period, hinstant, hfound, hperiod, hstands⟩ :=
    hpunctual record hrecord hof
  obtain ⟨hstored, hmine, -⟩ := covering_stored h.keyed hfound
  obtain ⟨hfeature, hreference, -⟩ := isOf_iff.mp hof
  obtain ⟨period', subscription, hperiod', hsubscription⟩ := h.subscribed record hrecord
  rw [← hperiod, hstored, Option.some.injEq] at hperiod'
  rw [← hperiod', hmine] at hsubscription
  have howner : subscription.subscriptionId = input.subscriptionId :=
    h.keyed.subscriptions _ _ hsubscription
  have hexisting : findUsageByReference world.usage period.periodId (trim input.featureKey)
      (trim input.usageReference) = some record := by
    cases hlookup : findUsageByReference world.usage period.periodId (trim input.featureKey)
        (trim input.usageReference) with
    | none => exact absurd hreference (findUsage_none hlookup hrecord hperiod.symm hfeature)
    | some existing =>
        obtain ⟨hexisting, hwithin, hsameFeature, hsameReference⟩ := findUsage_some hlookup
        have hof' : existing.isOf world.store input.key = true :=
          isOf_iff.mpr ⟨hsameFeature, hsameReference, period, hwithin ▸ hstored, hmine⟩
        rw [h.single input.key existing hexisting record hrecord hof' hof]
  simp only [recordUsage, hcheck, hsubscription, hinstant, howner, hfound, if_neg hstands,
    hexisting]

/-- One more answer keeps what was said of the earlier ones. -/
theorem repeated_snoc {answers : List (UsageInput × Except Thrown (UsageRecord × Bool))}
    {last : UsageInput × Except Thrown (UsageRecord × Bool)}
    (h : ∀ before input record after, answers = before ++ (input, .ok (record, true)) :: after →
      ∀ later ∈ after, later.1.key = input.key → later.2 = .ok (record, false))
    (hlast : ∀ input record, (input, .ok (record, true)) ∈ answers → last.1.key = input.key →
      last.2 = .ok (record, false))
    {before after : List (UsageInput × Except Thrown (UsageRecord × Bool))} {input : UsageInput}
    {record : UsageRecord} (hanswers : answers ++ [last] = before ++ (input, .ok (record, true)) :: after) :
    ∀ later ∈ after, later.1.key = input.key → later.2 = .ok (record, false) := by
  rcases List.eq_nil_or_concat after with rfl | ⟨rest, final, rfl⟩
  · intro later hlater
    cases hlater
  · rw [List.concat_eq_append, ← List.cons_append, ← List.append_assoc] at hanswers
    obtain ⟨hbefore, hfinal⟩ := List.append_inj' hanswers rfl
    obtain rfl := List.singleton_inj.mp hfinal
    intro later hlater hkey
    rw [List.concat_eq_append] at hlater
    rcases List.mem_append.mp hlater with hearlier | hnew
    · exact h before input record rest hbefore later hearlier hkey
    · obtain rfl := List.mem_singleton.mp hnew
      refine hlast input record ?_ hkey
      rw [hbefore]
      exact List.mem_append_right _ List.mem_cons_self

/-- A call that is refused changes nothing, where no call of its key was recorded. -/
theorem Metered.refused {world : UsageWorld} (h : Metered world) {input : UsageInput}
    {error : Thrown} (hnone : ∀ record ∈ world.usage.values,
      record.isOf world.store input.key ≠ true) :
    Metered { world with answers := world.answers ++ [(input, .error error)] } where
  keyed := h.keyed
  own := h.own
  subscribed := h.subscribed
  single := h.single
  kept := by
    intro other record hmember
    rcases List.mem_append.mp hmember with hold | hnew
    · exact h.kept other record hold
    · cases List.mem_singleton.mp hnew
  repeated := by
    intro before other record after hanswers
    refine repeated_snoc h.repeated (fun first record hfirst hkey => ?_) hanswers
    obtain ⟨hrecord, hof, -⟩ := h.kept first record hfirst
    exact absurd (hkey ▸ hof) (hnone record hrecord)

/-- A call that repeats a key is answered with its record. -/
theorem Metered.repeats {world : UsageWorld} (h : Metered world) {input : UsageInput}
    {record : UsageRecord} (hrecord : record ∈ world.usage.values)
    (hof : record.isOf world.store input.key = true) :
    Metered { world with answers := world.answers ++ [(input, .ok (record, false))] } where
  keyed := h.keyed
  own := h.own
  subscribed := h.subscribed
  single := h.single
  kept := by
    intro other first hmember
    rcases List.mem_append.mp hmember with hold | hnew
    · exact h.kept other first hold
    · cases List.mem_singleton.mp hnew
  repeated := by
    intro before other first after hanswers
    refine repeated_snoc h.repeated (fun earlier first hfirst hkey => ?_) hanswers
    obtain ⟨hfirst, hof', -⟩ := h.kept earlier first hfirst
    rw [h.single input.key first hfirst record hrecord (hkey ▸ hof') hof]

/-- A call of a new key adds its record. -/
theorem Metered.adds {world : UsageWorld} (h : Metered world) {input : UsageInput}
    {row : UsageRecord} (hnew : world.usage.get row.usageId = none)
    (hnone : ∀ record ∈ world.usage.values, record.isOf world.store input.key ≠ true)
    (hof : row.isOf world.store input.key = true) (hquantity : row.quantity = input.quantity)
    {subscription : Subscription}
    (hsubscription : world.store.getSubscription input.subscriptionId = some subscription) :
    Metered { world with
      usage := world.usage.put row.usageId row
      answers := world.answers ++ [(input, .ok (row, true))] } := by
  have hvalues : ∀ record, record ∈ (world.usage.put row.usageId row).values ↔
      record = row ∨ record ∈ world.usage.values := by
    intro record
    rw [Table.values_put_new row hnew, List.mem_append, List.mem_singleton, or_comm]
  obtain ⟨hfeature, hreference, period, hperiod, howner⟩ := isOf_iff.mp hof
  -- a key the new record is of is the key of the call
  have hkey : ∀ key, row.isOf world.store key = true → key = input.key := by
    intro key hsame
    obtain ⟨hfeature', hreference', period', hperiod', howner'⟩ := isOf_iff.mp hsame
    rw [hperiod, Option.some.injEq] at hperiod'
    obtain rfl := hperiod'
    exact UsageKey.ext (howner'.symm.trans howner) (hfeature'.symm.trans hfeature)
      (hreference'.symm.trans hreference)
  refine ⟨h.keyed, h.own.put row, ?_, ?_, ?_, ?_⟩
  · intro record hrecord
    rcases (hvalues record).mp hrecord with rfl | hold
    · exact ⟨period, subscription, hperiod, howner ▸ hsubscription⟩
    · exact h.subscribed record hold
  · intro key record hrecord other hother hofRecord hofOther
    rcases (hvalues record).mp hrecord with rfl | hold
    · rcases (hvalues other).mp hother with rfl | hold'
      · rfl
      · exact absurd (hkey key hofRecord ▸ hofOther) (hnone other hold')
    · rcases (hvalues other).mp hother with rfl | hold'
      · exact absurd (hkey key hofOther ▸ hofRecord) (hnone record hold)
      · exact h.single key record hold other hold' hofRecord hofOther
  · intro other record hmember
    rcases List.mem_append.mp hmember with hold | hlast
    · obtain ⟨hrecord, hrest⟩ := h.kept other record hold
      exact ⟨(hvalues record).mpr (.inr hrecord), hrest⟩
    · cases List.mem_singleton.mp hlast
      exact ⟨(hvalues row).mpr (.inl rfl), hof, hquantity⟩
  · intro before other record after hanswers
    refine repeated_snoc h.repeated (fun first record hfirst hkey' => ?_) hanswers
    obtain ⟨hrecord, hof', -⟩ := h.kept first record hfirst
    exact absurd (hkey' ▸ hof') (hnone record hrecord)

/-- A punctual call keeps the records in order. -/
theorem Metered.record {world : UsageWorld} (h : Metered world) {usageId : String}
    {input : UsageInput} (hpunctual : Punctual world input) :
    Metered (world.record usageId input) := by
  by_cases hknown : ∃ record ∈ world.usage.values, record.isOf world.store input.key = true
  · obtain ⟨record, hrecord, hof⟩ := hknown
    rw [UsageWorld.record, h.repetition hpunctual hrecord hof]
    exact h.repeats hrecord hof
  · have hnone : ∀ record ∈ world.usage.values, record.isOf world.store input.key ≠ true :=
      fun record hrecord hof => hknown ⟨record, hrecord, hof⟩
    unfold UsageWorld.record
    cases hanswer : recordUsage world.now world.store world.usage usageId input with
    | error error => exact h.refused hnone
    | ok answer =>
        cases recordUsage_recorded h.keyed hanswer with
        | found record hrecord hof => exact absurd hof (hnone record hrecord)
        | added instant period subscription hsubscription hperiod hmine hnew =>
            have hof : UsageRecord.isOf world.store input.key ⟨usageId, period.periodId,
                input.key.featureKey, input.quantity, input.key.usageReference, instant⟩ = true :=
              isOf_iff.mpr ⟨rfl, rfl, period, hperiod, hmine⟩
            exact h.adds hnew hnone hof rfl hsubscription

/-- In every run whose repetitions are looked up in the period of the first record, while it
is not voided, every reference is counted once with the quantity of its first accepted call,
and every repetition is answered with the first record. -/
theorem run_counted_once {now : Int} {plans : Table Plan} {grants : Table PlanGrant}
    {world : UsageWorld}
    (hrun : UsageRun Punctual (UsageWorld.opened now plans grants) world) :
    CountedOnce world := by
  have hmetered : Metered world := by
    induction hrun with
    | refl => exact Metered.opened now plans grants
    | tail _ hstep ih =>
        cases hstep with
        | record usageId input hallowed => exact ih.record hallowed
        | commit writes store' happly => exact ih.commit happly
        | tick elapsed =>
            exact ⟨ih.keyed, ih.own, ih.subscribed, ih.single, ih.kept, ih.repeated⟩
  exact hmetered.countedOnce

/-! ### A report sent twice -/

/-- Two months of a subscription, as they are written. -/
def firstMonth : SubscriptionPeriod :=
  ⟨idOf '5', idOf '4', 1, 0, 100, "SAR", 0, .settled, none, 0, some 0, none⟩

def secondMonth : SubscriptionPeriod :=
  ⟨idOf '6', idOf '4', 2, 100, 200, "SAR", 0, .settled, none, 0, some 0, none⟩

def twoMonths : List Write :=
  [.insertSubscription ⟨idOf '4', .identity, idOf '1', idOf '9', idOf '2', .active, 0, none, none,
    none⟩, .insertPeriod firstMonth, .insertPeriod secondMonth]

def meteredStore : Store :=
  match applyAll (Store.offering Table.empty Table.empty) twoMonths with
  | .ok store => store
  | .error _ => Store.offering Table.empty Table.empty

theorem meteredStore_applied :
    applyAll (Store.offering Table.empty Table.empty) twoMonths = .ok meteredStore := by rfl

/-- Three units under a reference; no instant is sent. -/
def threeUnits : UsageInput := ⟨idOf '4', "messages", 3, "batch-1", .absent⟩

/-- The report, in the first month. -/
def reportedOnce : UsageWorld :=
  UsageWorld.record ⟨meteredStore, Table.empty, 0, []⟩ (idOf 'a') threeUnits

/-- The report again, so much later. -/
def reportedAgain (elapsed : Nat) : UsageWorld :=
  UsageWorld.record { reportedOnce with now := reportedOnce.now + elapsed } (idOf 'b') threeUnits

theorem reportedAgain_run {allowed : UsageWorld → UsageInput → Prop} {elapsed : Nat}
    (hfirst : allowed ⟨meteredStore, Table.empty, 0, []⟩ threeUnits)
    (hagain : allowed { reportedOnce with now := reportedOnce.now + elapsed } threeUnits) :
    UsageRun allowed (UsageWorld.opened 0 Table.empty Table.empty) (reportedAgain elapsed) :=
  .tail (.tail (.tail (.single (.commit _ twoMonths meteredStore meteredStore_applied))
    (.record _ (idOf 'a') threeUnits hfirst)) (.tick _ elapsed))
    (.record _ (idOf 'b') threeUnits hagain)

theorem reportedOnce_usage : reportedOnce.usage.values =
    [⟨idOf 'a', idOf '5', "messages", 3, "batch-1", 0⟩] := by decide +kernel

theorem run_counted_once_sameMonth :
    UsageRun Punctual (UsageWorld.opened 0 Table.empty Table.empty) (reportedAgain 50) ∧
      CountedOnce (reportedAgain 50) := by
  have hrun : UsageRun Punctual (UsageWorld.opened 0 Table.empty Table.empty)
      (reportedAgain 50) := by
    apply reportedAgain_run
    · intro record hrecord
      cases hrecord
    · intro record hrecord hof
      have hvalues : record ∈ reportedOnce.usage.values := hrecord
      rw [reportedOnce_usage] at hvalues
      obtain rfl := List.mem_singleton.mp hvalues
      exact ⟨by decide +kernel, 50, firstMonth, rfl, by decide +kernel, rfl, by decide⟩
  exact ⟨hrun, run_counted_once hrun⟩

/-- Sent again after the first month is over, the report is counted in both. -/
theorem run_counted_once_fails : ¬∀ (now : Int) (plans : Table Plan) (grants : Table PlanGrant)
    (world : UsageWorld), UsageRun (fun _ _ => True) (UsageWorld.opened now plans grants) world →
    CountedOnce world := by
  intro htrue
  have honce := htrue 0 Table.empty Table.empty (reportedAgain 150)
    (reportedAgain_run trivial trivial)
  have hanswers : (reportedAgain 150).answers =
      [(threeUnits, .ok (⟨idOf 'a', idOf '5', "messages", 3, "batch-1", 0⟩, true)),
        (threeUnits, .ok (⟨idOf 'b', idOf '6', "messages", 3, "batch-1", 150⟩, true))] := by rfl
  have hcounted := (honce [] _ _ _ hanswers).1
  exact absurd hcounted (by decide +kernel)

end WaslaCore.Billing
