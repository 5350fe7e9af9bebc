import WaslaCore.Http.Body

/-!
The grammar a body declaration stands for, and that the parse accepts it and nothing else.
A value is admitted where it has every required field, no undeclared one at any depth and
every value within its kind and bounds; what the parse keeps of it is the value restricted
to the declared fields.
-/

namespace WaslaCore.Http

open Platform Data

/-! ### Admitted values -/

mutual

/-- The value is within the declared kind and its bounds. -/
def FieldSpec.Admits : FieldSpec → Json → Prop
  | .text _ _, .text value => isBlank value = false
  | .nullableText _ _, .null => True
  | .nullableText _ _, .text value => isBlank value = false
  | .enum _ values _, .text value => value ∈ values
  | .integer _ _, .number literal => isSafeInteger literal = true
  | .nullableInteger _ _ _, .null => True
  | .nullableInteger _ _ _, .number literal => isSafeInteger literal = true
  | .number _ _, .number literal => isFinite literal = true
  | .enumList _ values _ minItems, .array raws =>
      minItems.getD 0 ≤ raws.length ∧ ∀ raw ∈ raws, ∃ value ∈ values, raw = .text value
  | .list _ items _ minItems, .array raws =>
      minItems.getD 0 ≤ raws.length ∧ ∀ raw ∈ raws, ∃ input, raw = .object input ∧
        (∀ key ∈ input.map Prod.fst, key ∈ items.map FieldSpec.name) ∧ AdmitsFields items input
  | _, _ => False

/-- Every declared field that is there is admitted, and every other is optional. -/
def AdmitsFields : List FieldSpec → List (String × Json) → Prop
  | [], _ => True
  | spec :: rest, input =>
      (match findEntry spec.name input with
        | none => spec.required = false
        | some raw => spec.Admits raw) ∧ AdmitsFields rest input

end

/-- The object is one the fields describe. -/
def AdmitsObject (fields : List FieldSpec) (input : List (String × Json)) : Prop :=
  (∀ key ∈ input.map Prod.fst, key ∈ fields.map FieldSpec.name) ∧ AdmitsFields fields input

/-- The object a body is; an absent body is the empty one. -/
def bodyObject : Option Json → Option (List (String × Json))
  | none | some .null => some []
  | some (.object input) => some input
  | _ => none

mutual

/-- The value restricted to the declared fields. -/
def FieldSpec.restrict : FieldSpec → Json → Json
  | .list _ items _ _, .array raws =>
      .array (raws.map fun raw =>
        match raw with
        | .object input => .object (restrictFields items input)
        | other => other)
  | _, raw => raw

def restrictFields : List FieldSpec → List (String × Json) → List (String × Json)
  | [], _ => []
  | spec :: rest, input =>
      match findEntry spec.name input with
      | none => restrictFields rest input
      | some raw => (spec.name, spec.restrict raw) :: restrictFields rest input

end

mutual

/-- The names of every object it declares are distinct, and none is one that every object
inherits. -/
def FieldSpec.WellNamed : FieldSpec → Prop
  | .list _ items _ _ => (items.map FieldSpec.name).Nodup ∧ AllWellNamed items
  | _ => True

def AllWellNamed : List FieldSpec → Prop
  | [] => True
  | spec :: rest => spec.name ∉ Eventing.inheritedNames ∧ spec.WellNamed ∧ AllWellNamed rest

end

def WellNamedFields (fields : List FieldSpec) : Prop :=
  (fields.map FieldSpec.name).Nodup ∧ AllWellNamed fields

/-! ### Reading -/

/-- A reading that is accepted where the value is admitted, and keeps what it should. -/
structure ReadsAs {α β : Type} (reading : Except Thrown α) (admitted : Prop) (kept : α → β)
    (expected : β) : Prop where
  accepted : (∃ value, reading = .ok value) ↔ admitted
  kept : ∀ value, reading = .ok value → kept value = expected

section Reading

variable {α β : Type}

theorem ReadsAs.ok {value : α} {admitted : Prop} {kept : α → β} {expected : β} (h : admitted)
    (hkept : kept value = expected) : ReadsAs (.ok value) admitted kept expected where
  accepted := ⟨fun _ => h, fun _ => ⟨value, rfl⟩⟩
  kept := by
    intro other hother
    obtain rfl := Except.ok.inj hother
    exact hkept

theorem ReadsAs.error {thrown : Thrown} {admitted : Prop} {kept : α → β} {expected : β}
    (h : ¬admitted) : ReadsAs (.error thrown : Except Thrown α) admitted kept expected where
  accepted := ⟨fun ⟨_, hread⟩ => (nomatch hread), fun hadmitted => absurd hadmitted h⟩
  kept := by
    intro value hvalue
    cases hvalue

/-- One of two readings, by a test that tells the values admitted. -/
theorem ReadsAs.ite {test : Prop} [Decidable test] {value : α} {thrown : Thrown} {admitted : Prop}
    {kept : α → β} {expected : β} (h : admitted ↔ test) (hkept : kept value = expected) :
    ReadsAs (if test then .ok value else .error thrown) admitted kept expected := by
  by_cases htest : test
  · rw [if_pos htest]
    exact .ok (h.mpr htest) hkept
  · rw [if_neg htest]
    exact .error fun hadmitted => htest (h.mp hadmitted)

/-- A list is read as its items are. -/
theorem readEach_readsAs {read : Json → Nat → Except Thrown α} {admitted : Json → Prop}
    {kept : α → β} {expected : Json → β} {raws : List Json}
    (h : ∀ raw ∈ raws, ∀ index, ReadsAs (read raw index) (admitted raw) kept (expected raw))
    (index : Nat) :
    ReadsAs (readEach read raws index) (∀ raw ∈ raws, admitted raw) (List.map kept)
      (raws.map expected) := by
  induction raws generalizing index with
  | nil => exact .ok (fun raw hraw => nomatch hraw) rfl
  | cons raw rest ih =>
      have hfirst := h raw List.mem_cons_self index
      have hrest := ih (fun other hother => h other (List.mem_cons_of_mem raw hother)) (index + 1)
      unfold readEach
      cases hread : read raw index with
      | error thrown =>
          apply ReadsAs.error
          intro hall
          obtain ⟨value, hvalue⟩ := hfirst.accepted.mpr (hall raw List.mem_cons_self)
          rw [hread] at hvalue
          cases hvalue
      | ok first =>
          have hadmitted := hfirst.accepted.mp ⟨first, hread⟩
          have hkept := hfirst.kept first hread
          cases hothers : readEach read rest (index + 1) with
          | error thrown =>
              apply ReadsAs.error
              intro hall
              obtain ⟨values, hvalues⟩ :=
                hrest.accepted.mpr fun other hother => hall other (List.mem_cons_of_mem raw hother)
              rw [hothers] at hvalues
              cases hvalues
          | ok others =>
              apply ReadsAs.ok
              · rintro other (_ | ⟨_, hother⟩)
                · exact hadmitted
                · exact hrest.accepted.mp ⟨others, hothers⟩ other hother
              · rw [List.map_cons, List.map_cons, hkept, hrest.kept others hothers]

end Reading

theorem refuseUndeclared_ok {declared : List String} {input : List (String × Json)} {path : String} :
    refuseUndeclared declared input path = .ok () ↔
      ∀ key ∈ input.map Prod.fst, key ∈ declared := by
  unfold refuseUndeclared
  simp only [List.isEmpty_iff, List.filter_eq_nil_iff]
  split
  · rename_i hnone
    simpa using hnone
  · rename_i hsome
    simpa using hsome

theorem readVocabulary_readsAs (values : List String) (name : String) (raw : Json) (index : Nat) :
    ReadsAs (readVocabulary values name raw index) (∃ value ∈ values, raw = .text value) Json.text
      raw := by
  unfold readVocabulary
  split
  · rename_i value
    split
    · rename_i hvalue
      exact .ok ⟨value, hvalue, rfl⟩ rfl
    · rename_i hvalue
      apply ReadsAs.error
      rintro ⟨other, hother, hsame⟩
      obtain rfl := Json.text.inj hsame
      exact hvalue hother
  · rename_i hother
    apply ReadsAs.error
    rintro ⟨value, -, hsame⟩
    exact hother value hsame

theorem putEntry_fresh {α : Type} {key : String} {entry : α} {entries : List (String × α)}
    (h : key ∉ entries.map Prod.fst) : putEntry key entry entries = entries ++ [(key, entry)] := by
  induction entries with
  | nil => rfl
  | cons first rest ih =>
      obtain ⟨name, value⟩ := first
      simp only [List.map_cons, List.mem_cons, not_or] at h
      rw [putEntry, if_neg fun hsame => h.1 hsame.symm, ih h.2, List.cons_append]

theorem snapshotValues_append (first second : Values) :
    snapshotValues (first ++ second) = snapshotValues first ++ snapshotValues second := by
  induction first with
  | nil => rfl
  | cons entry rest ih =>
      obtain ⟨name, value⟩ := entry
      simp only [List.cons_append, snapshotValues]
      split
      · exact ih
      · rw [ih, List.cons_append]

theorem snapshotItems_eq (items : List Values) :
    snapshotItems items = items.map fun item => Json.object (snapshotValues item) := by
  induction items with
  | nil => rfl
  | cons item rest ih => rw [snapshotItems, ih, List.map_cons]

theorem propertyOf_ordinary {name : String} (h : name ∉ Eventing.inheritedNames)
    (input : List (String × Json)) :
    propertyOf name input =
      match findEntry name input with
      | some raw => .own raw
      | none => .absent := by
  unfold propertyOf
  cases findEntry name input with
  | some raw => rfl
  | none => exact if_neg h

section Values

-- a check is one step, whatever text it compares
attribute [local irreducible] trim

theorem text_readsAs {value wanted : String} :
    ReadsAs (if isBlank value then .error (invalid wanted) else .ok (Value.text value))
      (isBlank value = false) Value.snapshot (some (.text value)) := by
  cases hblank : isBlank value with
  | true => exact .error (by simp)
  | false => exact .ok rfl rfl

/-- A list of some length is read as its items are. -/
theorem ReadsAs.atLeast {α β : Type} {reading : Except Thrown (List α)} {admitted : Prop}
    {kept : List α → β} {expected : β} (h : ReadsAs reading admitted kept expected)
    {count least : Nat} {thrown : Thrown} {wrap : List α → Value} {plain : Json}
    (hwrap : ∀ items, kept items = expected → (wrap items).snapshot = some plain) :
    ReadsAs (if count < least then .error thrown else do
        let items ← reading
        .ok (wrap items)) (least ≤ count ∧ admitted) Value.snapshot (some plain) := by
  by_cases hfew : count < least
  · rw [if_pos hfew]
    exact .error fun hboth => absurd hboth.1 (Nat.not_le_of_gt hfew)
  · rw [if_neg hfew]
    cases hreading : reading with
    | error other =>
        apply ReadsAs.error
        rintro ⟨-, hadmitted⟩
        obtain ⟨value, hvalue⟩ := h.accepted.mpr hadmitted
        rw [hreading] at hvalue
        cases hvalue
    | ok items =>
        exact .ok ⟨Nat.le_of_not_lt hfew, h.accepted.mp ⟨items, hreading⟩⟩
          (hwrap items (h.kept items hreading))

/-- The fields of an object are read where none is undeclared. -/
theorem declared_readsAs {specs : List FieldSpec} {input : List (String × Json)} {path : String}
    (h : ReadsAs (readSpecs specs input path []) (AdmitsFields specs input) snapshotValues
      (restrictFields specs input)) :
    ReadsAs (do
        refuseUndeclared (specs.map FieldSpec.name) input path
        readSpecs specs input path []) (AdmitsObject specs input) snapshotValues
      (restrictFields specs input) := by
  cases hrefuse : refuseUndeclared (specs.map FieldSpec.name) input path with
  | error thrown =>
      apply ReadsAs.error
      rintro ⟨hdeclared, -⟩
      rw [refuseUndeclared_ok.mpr hdeclared] at hrefuse
      cases hrefuse
  | ok _ =>
      have hdeclared := refuseUndeclared_ok.mp hrefuse
      exact ⟨h.accepted.trans (and_iff_right hdeclared).symm, h.kept⟩

/-- An item of a list of objects. -/
theorem readItem_readsAs {items : List FieldSpec}
    (h : ∀ input path, ReadsAs (readSpecs items input path []) (AdmitsFields items input)
      snapshotValues (restrictFields items input)) (entry : Json) (name : String) (index : Nat) :
    ReadsAs (match entry with
        | .object input => do
            let path := name ++ "[" ++ toString index ++ "]."
            refuseUndeclared (items.map FieldSpec.name) input path
            readSpecs items input path []
        | _ => .error (invalid (name ++ "[" ++ toString index ++ "] must be an object")))
      (∃ input, entry = .object input ∧ AdmitsObject items input)
      (fun values => Json.object (snapshotValues values))
      (match entry with
        | .object input => .object (restrictFields items input)
        | other => other) := by
  cases entry with
  | object input =>
      have hread := declared_readsAs (h input (name ++ "[" ++ toString index ++ "]."))
      constructor
      · rw [hread.accepted]
        constructor
        · intro hadmitted
          exact ⟨input, rfl, hadmitted⟩
        · rintro ⟨other, hsame, hadmitted⟩
          obtain rfl := Json.object.inj hsame
          exact hadmitted
      · intro values hvalues
        rw [hread.kept values hvalues]
  | _ => exact .error fun ⟨_, hother, _⟩ => nomatch hother

mutual

/-- A value is read where it is admitted, and kept as far as it is declared. -/
theorem FieldSpec.readsAs : ∀ (spec : FieldSpec), spec.WellNamed → ∀ (raw : Json) (name : String),
    ReadsAs (spec.read raw name) (spec.Admits raw) Value.snapshot (some (spec.restrict raw))
  | .text field required, _, raw, name => by
      cases raw with
      | text value => exact text_readsAs
      | _ => exact .error id
  | .nullableText field required, _, raw, name => by
      cases raw with
      | null => exact .ok trivial rfl
      | text value => exact text_readsAs
      | _ => exact .error id
  | .enum field values required, _, raw, name => by
      cases raw with
      | text value => exact .ite Iff.rfl rfl
      | _ => exact .error id
  | .integer field required, _, raw, name => by
      cases raw with
      | number literal => exact .ite Iff.rfl rfl
      | _ => exact .error id
  | .nullableInteger field required hint, _, raw, name => by
      cases raw with
      | null => exact .ok trivial rfl
      | number literal => exact .ite Iff.rfl rfl
      | _ => exact .error id
  | .number field required, _, raw, name => by
      cases raw with
      | number literal => exact .ite Iff.rfl rfl
      | _ => exact .error id
  | .enumList field values required minItems, _, raw, name => by
      cases raw with
      | array raws =>
          have hitems := readEach_readsAs
            (fun raw (_ : raw ∈ raws) index => readVocabulary_readsAs values name raw index) 0
          apply hitems.atLeast
          intro items hkept
          rw [Value.snapshot, hkept, List.map_id']
          rfl
      | _ => exact .error id
  | .list field items required minItems, hnamed, raw, name => by
      cases raw with
      | array raws =>
          obtain ⟨hdistinct, hall⟩ := hnamed
          have hspecs : ∀ input path, ReadsAs (readSpecs items input path [])
              (AdmitsFields items input) snapshotValues (restrictFields items input) :=
            fun input path => readSpecs_readsAs items hall input path [] (by simpa using hdistinct)
          have hitems := readEach_readsAs
            (fun raw (_ : raw ∈ raws) index => readItem_readsAs hspecs raw name index) 0
          apply hitems.atLeast
          intro values hkept
          rw [Value.snapshot, snapshotItems_eq, hkept]
          rfl
      | _ => exact .error id

/-- The fields are read where they are admitted, after the values found before them. -/
theorem readSpecs_readsAs : ∀ (specs : List FieldSpec), AllWellNamed specs →
    ∀ (input : List (String × Json)) (path : String) (values : Values),
      (values.map Prod.fst ++ specs.map FieldSpec.name).Nodup →
      ReadsAs (readSpecs specs input path values) (AdmitsFields specs input) snapshotValues
        (snapshotValues values ++ restrictFields specs input)
  | [], _, input, path, values, _ => .ok trivial (List.append_nil _).symm
  | spec :: rest, ⟨hordinary, hspec, hrest⟩, input, path, values, hnodup => by
      have hfresh : spec.name ∉ values.map Prod.fst := by
        intro hmem
        exact (List.nodup_append.mp hnodup).2.2 _ hmem _ List.mem_cons_self rfl
      have hnext : ∀ value : Value,
          ((putEntry spec.name value values).map Prod.fst ++ rest.map FieldSpec.name).Nodup := by
        intro value
        rw [putEntry_fresh hfresh, List.map_append, List.append_assoc]
        exact hnodup
      unfold readSpecs AdmitsFields restrictFields
      rw [propertyOf_ordinary hordinary]
      cases hfound : findEntry spec.name input with
      | none =>
          simp only
          by_cases hrequired : spec.required = true
          · rw [if_pos hrequired]
            exact .error fun hboth => Bool.false_ne_true (hboth.1.symm.trans hrequired)
          · rw [if_neg hrequired]
            have hoptional : spec.required = false := Bool.eq_false_iff.mpr hrequired
            have hread := readSpecs_readsAs rest hrest input path _ (hnext .undefined)
            refine ⟨hread.accepted.trans (and_iff_right hoptional).symm, ?_⟩
            intro found hok
            rw [hread.kept found hok, putEntry_fresh hfresh, snapshotValues_append]
            simp only [snapshotValues, Value.snapshot, List.append_nil]
      | some raw =>
          simp only
          have hvalue := FieldSpec.readsAs spec hspec raw (path ++ spec.name)
          cases hread : spec.read raw (path ++ spec.name) with
          | error thrown =>
              apply ReadsAs.error
              rintro ⟨hadmitted, -⟩
              obtain ⟨value, hok⟩ := hvalue.accepted.mpr hadmitted
              rw [hread] at hok
              cases hok
          | ok value =>
              have hadmitted := hvalue.accepted.mp ⟨value, hread⟩
              have hsnapshot := hvalue.kept value hread
              have hothers := readSpecs_readsAs rest hrest input path _ (hnext value)
              refine ⟨hothers.accepted.trans (and_iff_right hadmitted).symm, ?_⟩
              intro found hok
              rw [hothers.kept found hok, putEntry_fresh hfresh, snapshotValues_append]
              simp only [snapshotValues, hsnapshot, List.append_assoc, List.singleton_append]

end

end Values

/-! ### Bodies -/

/-- What a declaration of a body admits. -/
def BodySpec.Admits : BodySpec → Option Json → Prop
  | .none, body => bodyObject body = some []
  | .object fields, body => ∃ input, bodyObject body = some input ∧ AdmitsObject fields input
  | .opaqueBody, body => ∃ input, body = some (.object input)

/-- The body restricted to what is declared of it. -/
def BodySpec.restrict : BodySpec → Option Json → Json
  | .none, _ => .object []
  | .object fields, body => .object (restrictFields fields ((bodyObject body).getD []))
  | .opaqueBody, body => body.getD .null

def BodySpec.WellNamed : BodySpec → Prop
  | .object fields => WellNamedFields fields
  | _ => True

theorem fieldsOf_readsAs {fields : List FieldSpec} (h : WellNamedFields fields)
    (input : List (String × Json)) :
    ReadsAs (do
        let values ← fieldsOf fields input ""
        .ok (Body.mk values none)) (AdmitsObject fields input) Body.snapshot
      (.object (restrictFields fields input)) := by
  have hspecs := readSpecs_readsAs fields h.2 input "" [] (by simpa using h.1)
  have hread : ReadsAs (fieldsOf fields input "") (AdmitsObject fields input) snapshotValues
      (restrictFields fields input) := declared_readsAs hspecs
  cases hfields : fieldsOf fields input "" with
  | error thrown =>
      apply ReadsAs.error
      intro hadmitted
      obtain ⟨values, hvalues⟩ := hread.accepted.mpr hadmitted
      rw [hfields] at hvalues
      cases hvalues
  | ok values =>
      apply ReadsAs.ok (hread.accepted.mp ⟨values, hfields⟩)
      rw [Body.snapshot, hread.kept values hfields]
      rfl

/-- A body that is an object is read as that object is. -/
theorem ReadsAs.ofBody {fields : List FieldSpec} {input : List (String × Json)} {body : Option Json}
    {reading : Except Thrown Body}
    (h : ReadsAs reading (AdmitsObject fields input) Body.snapshot
      (.object (restrictFields fields input)))
    (hbody : bodyObject body = some input) (hparse : parseBody body (.object fields) = reading) :
    ReadsAs (parseBody body (.object fields)) ((BodySpec.object fields).Admits body) Body.snapshot
      ((BodySpec.object fields).restrict body) := by
  rw [hparse]
  constructor
  · rw [h.accepted]
    constructor
    · intro hadmitted
      exact ⟨input, hbody, hadmitted⟩
    · rintro ⟨other, hother, hadmitted⟩
      obtain rfl := Option.some.inj (hbody.symm.trans hother)
      exact hadmitted
  · intro parsed hparsed
    rw [h.kept parsed hparsed, BodySpec.restrict, hbody, Option.getD_some]

theorem parseBody_readsAs {spec : BodySpec} (h : spec.WellNamed) (body : Option Json) :
    ReadsAs (parseBody body spec) (spec.Admits body) Body.snapshot (spec.restrict body) := by
  cases spec with
  | none =>
      cases body with
      | none => exact .ok rfl rfl
      | some value =>
          cases value with
          | null => exact .ok rfl rfl
          | object input =>
              cases input with
              | nil => exact .ok rfl rfl
              | cons entry rest => exact .error fun hempty => nomatch hempty
          | _ => exact .error fun hempty => nomatch hempty
  | opaqueBody =>
      cases body with
      | none => exact .error fun ⟨_, hobject⟩ => nomatch hobject
      | some value =>
          cases value with
          | object input => exact .ok ⟨input, rfl⟩ rfl
          | _ => exact .error fun ⟨_, hobject⟩ => nomatch hobject
  | object fields =>
      cases body with
      | none => exact (fieldsOf_readsAs h []).ofBody rfl rfl
      | some value =>
          cases value with
          | null => exact (fieldsOf_readsAs h []).ofBody rfl rfl
          | object input => exact (fieldsOf_readsAs h input).ofBody rfl rfl
          | _ => exact .error fun ⟨_, hobject, _⟩ => nomatch hobject

/-- A body is parsed exactly where it is admitted: every required field there, no undeclared
one at any depth, every value within its declared kind and bounds; and what is parsed is
then the body sent, restricted to the declared fields. -/
theorem parseBody_grammar (spec : BodySpec) (h : spec.WellNamed) (body : Option Json) :
    ((∃ parsed, parseBody body spec = .ok parsed) ↔ spec.Admits body) ∧
      ∀ parsed, parseBody body spec = .ok parsed → parsed.snapshot = spec.restrict body :=
  ⟨(parseBody_readsAs h body).accepted, (parseBody_readsAs h body).kept⟩

/-! The body of `POST /v1/plans`, cut down to a code and its grants. -/

def planBody : BodySpec :=
  .object [.text "code" true,
    .list "grants" [.text "feature_key" true, .nullableInteger "limit_value" true none] true (some 1)]

def proPlan : Json :=
  .object [("code", .text "pro"),
    ("grants", .array [.object [("limit_value", .number "50"), ("feature_key", .text "orders")]])]

theorem parseBody_grammar_plan :
    planBody.WellNamed ∧ (∃ parsed, parseBody (some proPlan) planBody = .ok parsed) ∧
      ¬∃ parsed, parseBody none planBody = .ok parsed := by
  have hnamed : planBody.WellNamed := by
    refine ⟨by decide, by decide, trivial, by decide, ⟨by decide, ?_⟩, trivial⟩
    exact ⟨by decide, trivial, by decide, trivial, trivial⟩
  refine ⟨hnamed, ?_, ?_⟩
  · apply (parseBody_grammar planBody hnamed (some proPlan)).1.mpr
    have hcode : isBlank "pro" = false := by decide
    refine ⟨_, rfl, by decide, hcode, ⟨by decide, ?_⟩, trivial⟩
    intro raw hraw
    obtain rfl := List.mem_singleton.mp hraw
    have hkey : isBlank "orders" = false := by decide
    have hlimit : isSafeInteger "50" = true := by decide
    exact ⟨_, rfl, by decide, hkey, hlimit, trivial⟩
  · rw [(parseBody_grammar planBody hnamed none).1]
    rintro ⟨input, hinput, -, hcode, -⟩
    obtain rfl := Option.some.inj hinput
    cases hcode

end WaslaCore.Http
