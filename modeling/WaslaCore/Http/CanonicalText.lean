import WaslaCore.Http.JsonValue

/-!
Canonical JSON identifies exactly equal bodies. The text of a value is told from whatever may
follow it, by its first unit and then part by part, so values of one text are equal up to the
order of properties; and equal values sort to the same properties.
-/

namespace WaslaCore.Http

open Data

namespace JsonValue

/-! ### Where a text ends -/

/-- What may follow a value. -/
def ValueEnds (rest : JsString) : Prop := ∀ unit ∈ rest.head?,
  unit = unitOf ',' ∨ unit = unitOf ']' ∨ unit = unitOf '\x7d'

theorem ValueEnds.number {rest : JsString} (h : ValueEnds rest) : NumberEnds rest := by
  intro unit hunit
  rcases h unit hunit with rfl | rfl | rfl <;> decide

theorem ValueEnds.comma (rest : JsString) : ValueEnds (unitOf ',' :: rest) := by
  intro unit hunit
  exact .inl (Option.some.inj hunit).symm

theorem ValueEnds.bracket (rest : JsString) : ValueEnds (unitOf ']' :: rest) := by
  intro unit hunit
  exact .inr (.inl (Option.some.inj hunit).symm)

theorem ValueEnds.brace (rest : JsString) : ValueEnds (unitOf '\x7d' :: rest) := by
  intro unit hunit
  exact .inr (.inr (Option.some.inj hunit).symm)

/-! ### How a text begins -/

/-- The kinds of values that are told apart by their first units. -/
inductive Kind where
  | null
  | flag (value : Bool)
  | number
  | text
  | array
  | object
  deriving DecidableEq

def kind : JsonValue → Kind
  | .null => .null
  | .flag value => .flag value
  | .number _ => .number
  | .text _ => .text
  | .array _ => .array
  | .object _ => .object

def kindOf (unit : CodeUnit) : Kind :=
  if unit = unitOf 'n' then .null
  else if unit = unitOf 't' then .flag true
  else if unit = unitOf 'f' then .flag false
  else if unit = unitOf '"' then .text
  else if unit = unitOf '[' then .array
  else if unit = unitOf '\x7b' then .object
  else .number

theorem kindOf_number {unit : CodeUnit} (h : (isDigitUnit unit || unit = unitOf '-') = true) :
    kindOf unit = .number := by
  have hapart : ∀ {other : CodeUnit}, (isDigitUnit other || other = unitOf '-') = false →
      unit ≠ other := by
    rintro other hother rfl
    rw [hother] at h
    cases h
  unfold kindOf
  rw [if_neg (hapart (by decide)), if_neg (hapart (by decide)), if_neg (hapart (by decide)),
    if_neg (hapart (by decide)), if_neg (hapart (by decide)), if_neg (hapart (by decide))]

theorem canonicalJson_begins (value : JsonValue) :
    ∃ head tail, value.canonicalJson = head :: tail ∧ kindOf head = value.kind := by
  cases value with
  | null => exact ⟨unitOf 'n', units "ull", by decide, by decide⟩
  | flag value =>
      cases value with
      | true => exact ⟨unitOf 't', units "rue", by decide, by decide⟩
      | false => exact ⟨unitOf 'f', units "alse", by decide, by decide⟩
  | number value =>
      obtain ⟨head, tail, htext, hhead⟩ := value.text_begins
      exact ⟨head, tail, htext, kindOf_number hhead⟩
  | text value => exact ⟨unitOf '"', _, rfl, show kindOf (unitOf '"') = .text by decide⟩
  | array items => exact ⟨unitOf '[', _, rfl, show kindOf (unitOf '[') = .array by decide⟩
  | object entries =>
      exact ⟨unitOf '\x7b', _, rfl, show kindOf (unitOf '\x7b') = .object by decide⟩

theorem kind_eq {value other : JsonValue} {rest rest' : JsString}
    (h : value.canonicalJson ++ rest = other.canonicalJson ++ rest') : value.kind = other.kind := by
  obtain ⟨head, tail, htext, hkind⟩ := value.canonicalJson_begins
  obtain ⟨head', tail', htext', hkind'⟩ := other.canonicalJson_begins
  rw [htext, htext'] at h
  rw [← hkind, ← hkind', (List.cons.inj h).1]

theorem value_begins {closing : CodeUnit} (hclosing : kindOf closing = .number)
    (hdigit : (isDigitUnit closing || closing = unitOf '-') = false) (value : JsonValue) :
    ∃ head tail, value.canonicalJson = head :: tail ∧ head ≠ closing := by
  cases hkind : value.kind with
  | number =>
      cases value with
      | number value =>
          obtain ⟨head, tail, htext, hhead⟩ := value.text_begins
          refine ⟨head, tail, htext, ?_⟩
          rintro rfl
          rw [hdigit] at hhead
          cases hhead
      | _ => cases hkind
  | _ =>
      obtain ⟨head, tail, htext, hhead⟩ := value.canonicalJson_begins
      refine ⟨head, tail, htext, ?_⟩
      rintro rfl
      rw [hclosing, hkind] at hhead
      cases hhead

/-! ### Values of one text -/

/-- Two properties of one name with equal values. -/
def SameProperty (entry entry' : JsString × JsonValue) : Prop :=
  entry.1 = entry'.1 ∧ Same entry.2 entry'.2

theorem propertyText_told {entry : JsString × JsonValue}
    (h : Told canonicalJson ValueEnds Same Proper entry.2) :
    Told propertyText ValueEnds SameProperty (fun entry => entry.2.Proper) entry := by
  intro other rest rest' hother hrest hrest' hsame
  simp only [propertyText, entryText, quotedText, List.cons_append, List.append_assoc,
    List.cons.injEq, true_and] at hsame
  obtain ⟨hname, hvalue⟩ := quotedUnits_told hsame
  obtain ⟨hitem, hleft⟩ := h hother hrest hrest' (List.cons.inj hvalue).2
  exact ⟨⟨hname, hitem⟩, hleft⟩

theorem exists_of_forall₂ {β : Type} {same : β → β → Prop} {items items' : List β}
    (h : List.Forall₂ same items items') :
    (∀ item ∈ items, ∃ item' ∈ items', same item item') ∧
      ∀ item' ∈ items', ∃ item ∈ items, same item item' := by
  induction h with
  | nil => exact ⟨by rintro item ⟨⟩, by rintro item ⟨⟩⟩
  | @cons first second rest rest' hsame _ ih =>
      constructor
      · intro item hitem
        rcases List.mem_cons.mp hitem with rfl | hlater
        · exact ⟨second, List.mem_cons_self, hsame⟩
        · obtain ⟨found, hfound, hits⟩ := ih.1 item hlater
          exact ⟨found, List.mem_cons_of_mem _ hfound, hits⟩
      · intro item hitem
        rcases List.mem_cons.mp hitem with rfl | hlater
        · exact ⟨first, List.mem_cons_self, hsame⟩
        · obtain ⟨found, hfound, hits⟩ := ih.2 item hlater
          exact ⟨found, List.mem_cons_of_mem _ hfound, hits⟩

/-- Objects whose sorted properties are equal one by one. -/
theorem same_object {entries entries' : List (JsString × Option JsonValue)}
    (hnames : (entries.map Prod.fst).Nodup) (hnames' : (entries'.map Prod.fst).Nodup)
    (h : List.Forall₂ SameProperty (byName (definedEntries entries))
      (byName (definedEntries entries'))) : Same (.object entries) (.object entries') := by
  obtain ⟨hforth, hback⟩ := exists_of_forall₂ h
  have hthere : ∀ name item, valueOf entries name = some item →
      ∃ item', valueOf entries' name = some item' ∧ Same item item' := by
    intro name item hvalue
    have hmember := mem_definedEntries.mpr ((valueOf_eq_some hnames).mp hvalue)
    obtain ⟨⟨name', item'⟩, hfound, rfl, hsame⟩ := hforth _ (mem_byName.mpr hmember)
    refine ⟨item', (valueOf_eq_some hnames').mpr ?_, hsame⟩
    exact mem_definedEntries.mp (mem_byName.mp hfound)
  have hhere : ∀ name item', valueOf entries' name = some item' →
      ∃ item, valueOf entries name = some item := by
    intro name item' hvalue
    have hmember := mem_definedEntries.mpr ((valueOf_eq_some hnames').mp hvalue)
    obtain ⟨⟨name', item⟩, hfound, hname, -⟩ := hback _ (mem_byName.mpr hmember)
    obtain rfl : name' = name := hname
    exact ⟨item, (valueOf_eq_some hnames).mpr (mem_definedEntries.mp (mem_byName.mp hfound))⟩
  refine .object (fun name => ?_) fun name item item' hvalue hvalue' => ?_
  · apply Bool.eq_iff_iff.mpr
    simp only [Option.isSome_iff_exists]
    constructor
    · rintro ⟨item, hvalue⟩
      obtain ⟨item', hvalue', -⟩ := hthere name item hvalue
      exact ⟨item', hvalue'⟩
    · rintro ⟨item', hvalue'⟩
      exact hhere name item' hvalue'
  · obtain ⟨found, hfound, hsame⟩ := hthere name item hvalue
    rw [hvalue'] at hfound
    rwa [Option.some.inj hfound]

/-- The text of a value is told from what follows it, and only equal values have it. -/
theorem canonicalJson_told (value : JsonValue) (hproper : value.Proper) :
    Told canonicalJson ValueEnds Same Proper value := by
  induction value using induct with
  | null =>
      intro other rest rest' hother hrest hrest' hsame
      have hkind := kind_eq hsame
      cases other with
      | null => exact ⟨.null, List.append_cancel_left hsame⟩
      | _ => cases hkind
  | flag value =>
      intro other rest rest' hother hrest hrest' hsame
      have hkind := kind_eq hsame
      cases other with
      | flag value' =>
          obtain rfl := Kind.flag.inj hkind
          exact ⟨.flag value, List.append_cancel_left hsame⟩
      | _ => cases hkind
  | number value =>
      intro other rest rest' hother hrest hrest' hsame
      have hkind := kind_eq hsame
      cases other with
      | number value' =>
          obtain ⟨hequal, hleft⟩ := value.text_told trivial hrest.number hrest'.number hsame
          exact ⟨.number hequal, hleft⟩
      | _ => cases hkind
  | text value =>
      intro other rest rest' hother hrest hrest' hsame
      have hkind := kind_eq hsame
      cases other with
      | text value' =>
          simp only [canonicalJson, quotedText, List.cons_append, List.append_assoc,
            List.cons.injEq, true_and] at hsame
          obtain ⟨rfl, hleft⟩ := quotedUnits_told hsame
          exact ⟨.text value, hleft⟩
      | _ => cases hkind
  | array items ih =>
      intro other rest rest' hother hrest hrest' hsame
      have hkind := kind_eq hsame
      cases hproper with
      | array hitems =>
          cases hother with
          | array hitems' =>
              rw [canonicalJson_array, canonicalJson_array] at hsame
              obtain ⟨hparts, hleft⟩ := closed_told (by decide) .comma .bracket
                (value_begins (by decide) (by decide)) (fun item hitem => ih item hitem (hitems item hitem))
                hitems' (List.cons.inj hsame).2
              obtain ⟨hlength, hpairs⟩ := List.forall₂_iff_zip.mp hparts
              exact ⟨.array hlength fun item item' hpair => hpairs hpair, hleft⟩
          | _ => cases hkind
  | object entries ih =>
      intro other rest rest' hother hrest hrest' hsame
      have hkind := kind_eq hsame
      cases hproper with
      | object hnames hitems =>
          cases hother with
          | object hnames' hitems' =>
              rw [canonicalJson_object, canonicalJson_object] at hsame
              have hbegins : ∀ entry : JsString × JsonValue, ∃ head tail,
                  propertyText entry = head :: tail ∧ head ≠ unitOf '\x7d' :=
                fun entry => ⟨unitOf '"', _, rfl, by decide⟩
              have htold : ∀ entry ∈ byName (definedEntries entries),
                  Told propertyText ValueEnds SameProperty (fun entry => entry.2.Proper) entry := by
                intro entry hentry
                have hmember := mem_definedEntries.mp (mem_byName.mp hentry)
                exact propertyText_told (ih _ hmember entry.2 rfl (hitems _ hmember entry.2 rfl))
              have hvalid : ∀ entry ∈ byName (definedEntries _), entry.2.Proper :=
                fun entry hentry =>
                  hitems' _ (mem_definedEntries.mp (mem_byName.mp hentry)) entry.2 rfl
              obtain ⟨hparts, hleft⟩ := closed_told (by decide) .comma .brace hbegins htold hvalid
                (List.cons.inj hsame).2
              exact ⟨same_object hnames hnames' hparts, hleft⟩
          | _ => cases hkind

/-! ### Equal values -/

/-- A property's text is there if the object has a value under the name. -/
theorem mem_canonicalEntries {entries : List (JsString × Option JsonValue)}
    (hnames : (entries.map Prod.fst).Nodup) {name text : JsString} :
    (name, text) ∈ canonicalEntries entries ↔
      ∃ item, valueOf entries name = some item ∧ item.canonicalJson = text := by
  rw [canonicalEntries_eq, List.mem_map]
  constructor
  · rintro ⟨⟨name', item⟩, hmember, hsame⟩
    obtain ⟨rfl, htext⟩ := Prod.mk.inj hsame
    exact ⟨item, (valueOf_eq_some hnames).mpr (mem_definedEntries.mp hmember), htext⟩
  · rintro ⟨item, hvalue, rfl⟩
    exact ⟨(name, item), mem_definedEntries.mpr ((valueOf_eq_some hnames).mp hvalue), rfl⟩

theorem canonicalEntries_nodup {entries : List (JsString × Option JsonValue)}
    (hnames : (entries.map Prod.fst).Nodup) :
    ((canonicalEntries entries).map Prod.fst).Nodup := by
  rw [canonicalEntries_eq, List.map_map]
  exact definedEntries_nodup hnames

/-- Properties under names of their own are sorted in one way. -/
theorem byName_perm {first second : List (JsString × JsString)}
    (hnames : (first.map Prod.fst).Nodup) (h : first.Perm second) : byName first = byName second := by
  have hsecond := byName_ordered second
  exact (byName_ordered first).unique hnames ⟨hsecond.1.trans h.symm, hsecond.2⟩

/-- Equal values have one text. -/
theorem canonicalJson_congr {value other : JsonValue} (h : Same value other)
    (hproper : value.Proper) (hother : other.Proper) :
    value.canonicalJson = other.canonicalJson := by
  induction h with
  | null => rfl
  | flag value => rfl
  | number hequal => exact JsNumber.text_congr hequal
  | text value => rfl
  | @array items items' hlength hitems ih =>
      cases hproper with
      | array hvalid =>
          cases hother with
          | array hvalid' =>
              have htexts : List.Forall₂ Eq (items.map canonicalJson)
                  (items'.map canonicalJson) := by
                apply List.forall₂_map_left_iff.mpr
                apply List.forall₂_map_right_iff.mpr
                refine List.forall₂_iff_zip.mpr ⟨hlength, fun {item item'} hpair => ?_⟩
                exact ih item item' hpair (hvalid item (List.of_mem_zip hpair).1)
                  (hvalid' item' (List.of_mem_zip hpair).2)
              rw [List.forall₂_eq_eq_eq] at htexts
              rw [canonicalJson, canonicalJson, canonicalItems_eq, canonicalItems_eq, htexts]
  | @object entries entries' hsome hvalues ih =>
      cases hproper with
      | object hnames hvalid =>
          cases hother with
          | object hnames' hvalid' =>
              have hmembers : ∀ entry, entry ∈ canonicalEntries entries ↔
                  entry ∈ canonicalEntries entries' := by
                rintro ⟨name, text⟩
                rw [mem_canonicalEntries hnames, mem_canonicalEntries hnames']
                have hboth := hsome name
                cases hvalue : valueOf entries name with
                | none =>
                    cases hvalue' : valueOf entries' name with
                    | none => rfl
                    | some item' =>
                        rw [hvalue, hvalue'] at hboth
                        cases hboth
                | some item =>
                    cases hvalue' : valueOf entries' name with
                    | none =>
                        rw [hvalue, hvalue'] at hboth
                        cases hboth
                    | some item' =>
                        have hmember := (valueOf_eq_some hnames).mp hvalue
                        have hmember' := (valueOf_eq_some hnames').mp hvalue'
                        have htext := ih name item item' hvalue hvalue'
                          (hvalid _ hmember item rfl) (hvalid' _ hmember' item' rfl)
                        simp [htext]
              have hperm := (List.perm_ext_iff_of_nodup (canonicalEntries_nodup hnames).of_map
                (canonicalEntries_nodup hnames').of_map).mpr hmembers
              rw [canonicalJson, canonicalJson, byName_perm (canonicalEntries_nodup hnames) hperm]

end JsonValue

/-- A JSON value: no object in it has two properties of one name. -/
structure JsonBody where
  value : JsonValue
  proper : value.Proper

/-- Two JSON values have one canonical text exactly where they are equal up to the order of
properties and properties whose value is `undefined`, at every depth. -/
theorem canonicalText_eq_iff (body other : JsonBody) :
    body.value.canonicalJson = other.value.canonicalJson ↔ body.value.Same other.value := by
  constructor
  · intro h
    have htexts : body.value.canonicalJson ++ [] = other.value.canonicalJson ++ [] := by rw [h]
    exact (body.value.canonicalJson_told body.proper other.proper (by rintro unit ⟨⟩)
      (by rintro unit ⟨⟩) htexts).1
  · intro h
    exact JsonValue.canonicalJson_congr h body.proper other.proper

end WaslaCore.Http
