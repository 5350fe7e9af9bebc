import WaslaCore.Eventing.Normalize
import WaslaCore.Http.Canonical

/-!
How a route reads a request body. A route declares the fields it accepts, to any depth, and
the parse refuses the rest: undeclared properties first, then each declared field in the
order of its declaration.
-/

namespace WaslaCore.Http

open Platform Data

/-! ### Declarations -/

/-- One property of a request body. -/
inductive FieldSpec where
  | text (name : String) (required : Bool)
  | nullableText (name : String) (required : Bool)
  | enum (name : String) (values : List String) (required : Bool)
  | integer (name : String) (required : Bool)
  | nullableInteger (name : String) (required : Bool) (hint : Option String)
  | number (name : String) (required : Bool)
  | enumList (name : String) (values : List String) (required : Bool) (minItems : Option Nat)
  | list (name : String) (items : List FieldSpec) (required : Bool) (minItems : Option Nat)

namespace FieldSpec

def name : FieldSpec → String
  | .text name _ | .nullableText name _ | .enum name _ _ | .integer name _
  | .nullableInteger name _ _ | .number name _ | .enumList name _ _ _ | .list name _ _ _ => name

def required : FieldSpec → Bool
  | .text _ required | .nullableText _ required | .enum _ _ required | .integer _ required
  | .nullableInteger _ required _ | .number _ required | .enumList _ _ required _
  | .list _ _ required _ => required

def nullable : FieldSpec → Bool
  | .nullableText _ _ | .nullableInteger _ _ _ => true
  | _ => false

/-- What is added where a required field is missing. -/
def missingHint : FieldSpec → String
  | .nullableInteger _ _ (some hint) => if hint.isEmpty then "" else "; " ++ hint
  | _ => ""

/-- What is said of a value of another kind. -/
def wanted : FieldSpec → String
  | .text _ _ | .nullableText _ _ => " must be a non-empty string"
  | .enum _ values _ => " must be one of " ++ ", ".intercalate values
  | .integer _ _ | .nullableInteger _ _ _ => " must be an integer"
  | .number _ _ => " must be a number"
  | .enumList _ _ _ _ | .list _ _ _ _ => " must be an array"

end FieldSpec

/-- What a route accepts as a body. -/
inductive BodySpec where
  | none
  | object (fields : List FieldSpec)
  | opaqueBody

/-! ### Parsed bodies -/

/-- A declared value; a number is kept as its text. -/
inductive Value where
  | undefined
  | null
  | text (value : String)
  | number (literal : String)
  | strings (values : List String)
  | bodies (items : List (List (String × Value)))

abbrev Values := List (String × Value)

/-- The values of the declared names, or the body as sent where the route is entitled to it. -/
structure Body where
  values : Values
  raw : Option Json

mutual

def Value.snapshot : Value → Option Json
  | .undefined => .none
  | .null => some .null
  | .text value => some (.text value)
  | .number literal => some (.number literal)
  | .strings values => some (.array (values.map Json.text))
  | .bodies items => some (.array (snapshotItems items))

def snapshotItems : List (List (String × Value)) → List Json
  | [] => []
  | item :: rest => .object (snapshotValues item) :: snapshotItems rest

/-- A property that was not sent is left out. -/
def snapshotValues : List (String × Value) → List (String × Json)
  | [] => []
  | (name, value) :: rest =>
      match value.snapshot with
      | .none => snapshotValues rest
      | some plain => (name, plain) :: snapshotValues rest

end

/-- The parsed body as plain data. -/
def Body.snapshot (body : Body) : Json := body.raw.getD (.object (snapshotValues body.values))

/-! ### Numbers -/

def digitsValue : List Char → Option Int
  | [] => none
  | digits =>
      if digits.all Char.isDigit then
        some (digits.foldl (fun value digit => value * 10 + (digit.toNat - 48)) 0)
      else none

/-- The integer a number's text is the text of. -/
def integerValue (literal : String) : Option Int :=
  match literal.toList with
  | '-' :: digits => (digitsValue digits).map (- ·)
  | digits => digitsValue digits

/-- `Number.isSafeInteger`. -/
def isSafeInteger (literal : String) : Bool :=
  (integerValue literal).any fun value => -(2 ^ 53 - 1) ≤ value && value ≤ 2 ^ 53 - 1

/-- `Number.isFinite`. -/
def isFinite (literal : String) : Bool := (Json.number literal).finite

/-! ### Parsing -/

/-- `.sort()`, each name under its path. -/
def listed (path : String) (names : List String) : String :=
  ", ".intercalate ((orderedBy (fun name => [SortKey.text name]) names).map (path ++ ·))

def unknownProperties (path : String) (unknown : List String) : String :=
  "unknown body propert" ++ (if 1 < unknown.length then "ies" else "y") ++ ": " ++
    listed path unknown

/-- The first thing `fieldsOf` does. -/
def refuseUndeclared (declared : List String) (input : List (String × Json)) (path : String) :
    Except Thrown Unit :=
  let unknown := (input.map Prod.fst).filter (fun key => key ∉ declared)
  if unknown.isEmpty then .ok ()
  else .error (invalid (unknownProperties path unknown ++
    if declared.isEmpty then " (this route accepts none)"
    else " (this route accepts " ++ listed path declared.eraseDups ++ ")"))

/-- What the name finds in the input. A name every object inherits is there without being
sent. -/
inductive Property where
  | absent
  | own (value : Json)
  | inherited

def propertyOf (name : String) (input : List (String × Json)) : Property :=
  match findEntry name input with
  | some value => .own value
  | none => if name ∈ Eventing.inheritedNames then .inherited else .absent

/-- Each item in turn, with its index, until one is refused. -/
def readEach {α : Type} (read : Json → Nat → Except Thrown α) :
    List Json → Nat → Except Thrown (List α)
  | [], _ => .ok []
  | raw :: rest, index => do
      let first ← read raw index
      let others ← readEach read rest (index + 1)
      .ok (first :: others)

def tooFew (name : String) (least : Nat) : Thrown :=
  invalid (name ++ " must contain at least " ++ toString least ++ " item" ++
    if least = 1 then "" else "s")

def readVocabulary (values : List String) (name : String) (raw : Json) (index : Nat) :
    Except Thrown String :=
  match raw with
  | .text value =>
      if value ∈ values then .ok value
      else .error (invalid (name ++ "[" ++ toString index ++ "] must be one of " ++
        ", ".intercalate values))
  | _ => .error (invalid (name ++ "[" ++ toString index ++ "] must be one of " ++
      ", ".intercalate values))

mutual

/-- A value that was sent, against its declaration. -/
def FieldSpec.read (spec : FieldSpec) (raw : Json) (name : String) : Except Thrown Value :=
  match spec, raw with
  | .nullableText _ _, .null => .ok .null
  | .nullableInteger _ _ _, .null => .ok .null
  | _, .null => .error (invalid (name ++ " must not be null"))
  | .text _ _, .text value =>
      if isBlank value then .error (invalid (name ++ spec.wanted)) else .ok (.text value)
  | .nullableText _ _, .text value =>
      if isBlank value then .error (invalid (name ++ spec.wanted)) else .ok (.text value)
  | .enum _ values _, .text value =>
      if value ∈ values then .ok (.text value) else .error (invalid (name ++ spec.wanted))
  | .integer _ _, .number literal =>
      if isSafeInteger literal then .ok (.number literal)
      else .error (invalid (name ++ spec.wanted))
  | .nullableInteger _ _ _, .number literal =>
      if isSafeInteger literal then .ok (.number literal)
      else .error (invalid (name ++ spec.wanted))
  | .number _ _, .number literal =>
      if isFinite literal then .ok (.number literal) else .error (invalid (name ++ spec.wanted))
  | .enumList _ values _ minItems, .array raws =>
      if raws.length < minItems.getD 0 then .error (tooFew name (minItems.getD 0))
      else do
        let items ← readEach (readVocabulary values name) raws 0
        .ok (.strings items)
  | .list _ items _ minItems, .array raws =>
      if raws.length < minItems.getD 0 then .error (tooFew name (minItems.getD 0))
      else do
        let bodies ← readEach (fun entry index =>
          match entry with
          | .object input => do
              let path := name ++ "[" ++ toString index ++ "]."
              refuseUndeclared (items.map FieldSpec.name) input path
              readSpecs items input path []
          | _ => .error (invalid (name ++ "[" ++ toString index ++ "] must be an object"))) raws 0
        .ok (.bodies bodies)
  | _, _ => .error (invalid (name ++ spec.wanted))

/-- The loop of `fieldsOf`, over the values found so far. -/
def readSpecs (specs : List FieldSpec) (input : List (String × Json)) (path : String)
    (values : Values) : Except Thrown Values :=
  match specs with
  | [] => .ok values
  | spec :: rest =>
      match propertyOf spec.name input with
      | .absent =>
          if spec.required then
            .error (invalid (path ++ spec.name ++ " is required" ++ spec.missingHint))
          else readSpecs rest input path (putEntry spec.name .undefined values)
      | .inherited => .error (invalid (path ++ spec.name ++ spec.wanted))
      | .own raw => do
          let value ← spec.read raw (path ++ spec.name)
          readSpecs rest input path (putEntry spec.name value values)

end

def fieldsOf (specs : List FieldSpec) (input : List (String × Json)) (path : String) :
    Except Thrown Values := do
  refuseUndeclared (specs.map FieldSpec.name) input path
  readSpecs specs input path []

/-- `parseBody`, of a body that may be absent. -/
def parseBody (body : Option Json) (spec : BodySpec) : Except Thrown Body :=
  match spec with
  | .opaqueBody =>
      match body with
      | some (.object input) => .ok ⟨[], some (.object input)⟩
      | _ => .error (invalid "a JSON object body is required")
  | .none =>
      match body with
      | .none | some .null | some (.object []) => .ok ⟨[], .none⟩
      | some (.object input) =>
          .error (invalid (unknownProperties "" (input.map Prod.fst) ++ " (this route reads no body)"))
      | _ => .error (invalid "a JSON object body is required")
  | .object fields =>
      match body with
      | .none | some .null => do
          let values ← fieldsOf fields [] ""
          .ok ⟨values, .none⟩
      | some (.object input) => do
          let values ← fieldsOf fields input ""
          .ok ⟨values, .none⟩
      | _ => .error (invalid "a JSON object body is required")

end WaslaCore.Http
