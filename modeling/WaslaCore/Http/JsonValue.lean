import WaslaCore.Data.Selection
import WaslaCore.Data.Stringify

/-!
JSON values as JavaScript holds them, to the last code unit, and the canonical text a body is
fingerprinted by. A property may be there with no value, and the order of properties is
whatever it is; neither tells two values apart.
-/

namespace WaslaCore.Http

open Data

/-- A value that a body can hold. A property without a value is `undefined`. -/
inductive JsonValue where
  | null
  | flag (value : Bool)
  | number (value : JsNumber)
  | text (value : JsString)
  | array (items : List JsonValue)
  | object (entries : List (JsString × Option JsonValue))

namespace JsonValue

/-- What stands for one property: its name, a colon and its value's text. -/
def entryText (entry : JsString × JsString) : JsString :=
  quotedText entry.1 ++ unitOf ':' :: entry.2

/-- Names compare by their code units. -/
def byName {β : Type} (entries : List (JsString × β)) : List (JsString × β) :=
  entries.insertionSort fun left right => left.1 ≤ right.1

mutual

/-- JSON with the object keys in a stable order. -/
def canonicalJson : JsonValue → JsString
  | .null => units "null"
  | .flag value => if value then units "true" else units "false"
  | .number value => value.text
  | .text value => quotedText value
  | .array items => unitOf '[' :: (join [unitOf ','] (canonicalItems items) ++ [unitOf ']'])
  | .object entries =>
      unitOf '\x7b' :: (join [unitOf ','] ((byName (canonicalEntries entries)).map entryText) ++
        [unitOf '\x7d'])

def canonicalItems : List JsonValue → List JsString
  | [] => []
  | item :: rest => item.canonicalJson :: canonicalItems rest

/-- The texts of the properties that are not `undefined`. -/
def canonicalEntries : List (JsString × Option JsonValue) → List (JsString × JsString)
  | [] => []
  | (_, none) :: rest => canonicalEntries rest
  | (name, some item) :: rest => (name, item.canonicalJson) :: canonicalEntries rest

end

/-! ### Values -/

/-- The value an object has under a name. -/
def valueOf (entries : List (JsString × Option JsonValue)) (name : JsString) : Option JsonValue :=
  (entries.find? fun entry => entry.1 = name).bind Prod.snd

/-- No object in the value has two properties of one name. -/
inductive Proper : JsonValue → Prop where
  | null : Proper .null
  | flag (value : Bool) : Proper (.flag value)
  | number (value : JsNumber) : Proper (.number value)
  | text (value : JsString) : Proper (.text value)
  | array {items : List JsonValue} (hitems : ∀ item ∈ items, Proper item) : Proper (.array items)
  | object {entries : List (JsString × Option JsonValue)}
      (hnames : (entries.map Prod.fst).Nodup)
      (hitems : ∀ entry ∈ entries, ∀ item, entry.2 = some item → Proper item) :
      Proper (.object entries)

/-- Equal up to the order of properties and properties whose value is `undefined`, at every
depth. -/
inductive Same : JsonValue → JsonValue → Prop where
  | null : Same .null .null
  | flag (value : Bool) : Same (.flag value) (.flag value)
  | number {value value' : JsNumber} (hequal : value.equals value') :
      Same (.number value) (.number value')
  | text (value : JsString) : Same (.text value) (.text value)
  | array {items items' : List JsonValue} (hlength : items.length = items'.length)
      (hitems : ∀ item item', (item, item') ∈ items.zip items' → Same item item') :
      Same (.array items) (.array items')
  | object {entries entries' : List (JsString × Option JsonValue)}
      (hnames : ∀ name, (valueOf entries name).isSome = (valueOf entries' name).isSome)
      (hvalues : ∀ name item item', valueOf entries name = some item →
        valueOf entries' name = some item' → Same item item') :
      Same (.object entries) (.object entries')

/-- A case for each kind of value, with the parts of an array or an object known already. -/
theorem induct {motive : JsonValue → Prop} (null : motive .null)
    (flag : ∀ value, motive (.flag value)) (number : ∀ value, motive (.number value))
    (text : ∀ value, motive (.text value))
    (array : ∀ items, (∀ item ∈ items, motive item) → motive (.array items))
    (object : ∀ entries, (∀ entry ∈ entries, ∀ item, entry.2 = some item → motive item) →
      motive (.object entries)) : ∀ value, motive value
  | .null => null
  | .flag value => flag value
  | .number value => number value
  | .text value => text value
  | .array items => array items fun item _ => induct null flag number text array object item
  | .object entries =>
      object entries fun entry _ item _ => induct null flag number text array object item
termination_by value => sizeOf value
decreasing_by
  · rename_i hitem
    have hsize := List.sizeOf_lt_of_mem hitem
    simp only [JsonValue.array.sizeOf_spec]
    omega
  · rename_i hentry hitem
    have hsize := List.sizeOf_lt_of_mem hentry
    obtain ⟨name, value⟩ := entry
    subst hitem
    simp only [JsonValue.object.sizeOf_spec, Prod.mk.sizeOf_spec, Option.some.sizeOf_spec] at hsize ⊢
    omega

/-! ### The text, as its items and properties have it -/

/-- The properties that are not `undefined`. -/
def definedEntries (entries : List (JsString × Option JsonValue)) : List (JsString × JsonValue) :=
  entries.filterMap fun entry => entry.2.map fun item => (entry.1, item)

theorem canonicalItems_eq (items : List JsonValue) :
    canonicalItems items = items.map canonicalJson := by
  induction items with
  | nil => rfl
  | cons item rest ih => simp [canonicalItems, ih]

theorem canonicalEntries_eq (entries : List (JsString × Option JsonValue)) :
    canonicalEntries entries =
      (definedEntries entries).map fun entry => (entry.1, entry.2.canonicalJson) := by
  induction entries with
  | nil => rfl
  | cons entry rest ih =>
      obtain ⟨name, value⟩ := entry
      cases value with
      | none => simpa [canonicalEntries, definedEntries] using ih
      | some item => simpa [canonicalEntries, definedEntries] using ih

theorem canonicalJson_array (items : List JsonValue) :
    (JsonValue.array items).canonicalJson =
      unitOf '[' :: closed (unitOf ',') (unitOf ']') canonicalJson items := by
  rw [canonicalJson, canonicalItems_eq]
  rfl

/-- The text of one property. -/
def propertyText (entry : JsString × JsonValue) : JsString :=
  entryText (entry.1, entry.2.canonicalJson)

/-- The source sorts the properties and then takes their texts. -/
theorem canonicalJson_object (entries : List (JsString × Option JsonValue)) :
    (JsonValue.object entries).canonicalJson = unitOf '\x7b' ::
      closed (unitOf ',') (unitOf '\x7d') propertyText (byName (definedEntries entries)) := by
  have hsorted : byName (canonicalEntries entries) =
      (byName (definedEntries entries)).map fun entry => (entry.1, entry.2.canonicalJson) := by
    rw [canonicalEntries_eq]
    apply Eq.symm
    apply List.map_insertionSort
    intro first _ second _
    exact Iff.rfl
  rw [canonicalJson, hsorted, List.map_map]
  rfl

/-! ### Properties -/

section Properties

variable {entries : List (JsString × Option JsonValue)}

theorem byName_ordered {β : Type} (entries : List (JsString × β)) :
    Ordered Prod.fst entries (byName entries) := by
  refine ⟨List.perm_insertionSort _ entries, ?_⟩
  have htotal : Std.Total (fun left right : JsString × β => left.1 ≤ right.1) :=
    ⟨fun left right => le_total _ _⟩
  have htrans : IsTrans (JsString × β) (fun left right => left.1 ≤ right.1) :=
    ⟨fun first second third hfirst hsecond => hfirst.trans hsecond⟩
  exact List.pairwise_insertionSort _ entries

theorem mem_byName {β : Type} {entries : List (JsString × β)} {entry : JsString × β} :
    entry ∈ byName entries ↔ entry ∈ entries := (byName_ordered entries).1.mem_iff

theorem mem_definedEntries {name : JsString} {item : JsonValue} :
    (name, item) ∈ definedEntries entries ↔ (name, some item) ∈ entries := by
  simp [definedEntries, Option.map_eq_some_iff]

theorem definedEntries_nodup (hnames : (entries.map Prod.fst).Nodup) :
    ((definedEntries entries).map Prod.fst).Nodup := by
  have hsub : ((definedEntries entries).map Prod.fst).Sublist (entries.map Prod.fst) := by
    induction entries with
    | nil => exact .refl _
    | cons entry rest ih =>
        have hrest := ih (List.nodup_cons.mp hnames).2
        obtain ⟨name, value⟩ := entry
        cases value with
        | none => exact hrest.cons _
        | some item => exact hrest.cons_cons _
  exact hnames.sublist hsub

/-- An object has a value under a name if that property is there with it. -/
theorem valueOf_eq_some (hnames : (entries.map Prod.fst).Nodup) {name : JsString}
    {item : JsonValue} : valueOf entries name = some item ↔ (name, some item) ∈ entries := by
  unfold valueOf
  constructor
  · intro h
    obtain ⟨entry, hfound, hvalue⟩ := Option.bind_eq_some_iff.mp h
    have hname : entry.1 = name := by simpa using List.find?_some hfound
    have hmember := List.mem_of_find?_eq_some hfound
    rwa [← hname, ← hvalue]
  · intro hmember
    cases hfound : entries.find? fun entry => entry.1 = name with
    | none =>
        have hnot := List.find?_eq_none.mp hfound _ hmember
        exact absurd (decide_eq_true rfl) hnot
    | some entry =>
        have hname : entry.1 = name := by simpa using List.find?_some hfound
        have hthere := List.mem_of_find?_eq_some hfound
        have hsame := List.inj_on_of_nodup_map hnames hthere hmember hname
        rw [hsame]
        rfl

end Properties

end JsonValue

end WaslaCore.Http
