import WaslaCore.Http.Body
import WaslaCore.Http.Router

/-!
The query string of a read. A route declares its parameters, the router reads them before
the handler runs, and a parameter the route did not declare is refused. Of the kinds of
parameter, the decimal one belongs to the geography routes and is left out.
-/

namespace WaslaCore.Http

open Data Platform Identity

/-- `URLSearchParams`: the pairs in the order they were sent. -/
abbrev QueryString := List (String × String)

def invalidRequest (message : String) : Refusal := refused .invalidRequest message []

/-! ### One parameter -/

def getAll (query : QueryString) (key : String) : List String :=
  (query.filter (fun pair => pair.1 = key)).map Prod.snd

/-- The one value the parameter has, none where it was not sent. -/
def optionalParam (query : QueryString) (key : String) : Except Refusal (Option String) :=
  match getAll query key with
  | [] => .ok none
  | [value] =>
      if isBlank value then .error (invalidRequest (key ++ " must not be empty"))
      else if value ≠ trim value then
        .error (invalidRequest (key ++ " must not be surrounded by whitespace"))
      else .ok (some value)
  | values =>
      .error (invalidRequest (key ++ " must be given at most once (received " ++
        toString values.length ++ " values)"))

def requiredParam (query : QueryString) (key : String) : Except Refusal String := do
  match ← optionalParam query key with
  | none => throw (invalidRequest (key ++ " is required"))
  | some value => pure value

def enumParam (query : QueryString) (key : String) (allowed : List String) :
    Except Refusal (Option String) := do
  match ← optionalParam query key with
  | none => pure none
  | some value =>
      if value ∈ allowed then pure (some value)
      else throw (invalidRequest (key ++ " must be one of " ++ ", ".intercalate allowed))

/-- A page size's bounds, and the size of a page nobody asked a size of. -/
structure LimitBounds where
  default : Nat
  min : Nat
  max : Nat
  deriving DecidableEq, Repr

/-- The number a text of decimal digits without leading zeros writes. -/
def decimalInteger (raw : String) : Option Nat :=
  match raw.toList with
  | [] => none
  | first :: rest =>
      if (first :: rest).all Char.isDigit && (first ≠ '0' || rest.isEmpty) then
        some ((first :: rest).foldl (fun value digit => 10 * value + (digit.toNat - 48)) 0)
      else none

def limitParam (query : QueryString) (key : String) (bounds : LimitBounds) :
    Except Refusal Nat := do
  let refusal := invalidRequest (key ++ " must be a decimal integer between " ++
    toString bounds.min ++ " and " ++ toString bounds.max)
  match ← optionalParam query key with
  | none => pure bounds.default
  | some raw =>
      match decimalInteger raw with
      | none => throw refusal
      | some value =>
          if 2 ^ 53 - 1 < value ∨ value < bounds.min ∨ bounds.max < value then throw refusal
          else pure value

/-! ### What a route accepts -/

inductive ParamSpec where
  | text (name : String) (required : Bool)
  | enum (name : String) (values : List String)
  | limit (name : String) (bounds : LimitBounds)
  deriving DecidableEq, Repr

def ParamSpec.name : ParamSpec → String
  | .text name _ => name
  | .enum name _ => name
  | .limit name _ => name

inductive ParamValue where
  | text (value : String)
  | number (value : Nat)
  deriving DecidableEq, Repr

/-- The declared parameters, each with the value it was read as. -/
structure Selected where
  values : List (String × Option ParamValue)
  deriving DecidableEq, Repr

namespace Selected

/-- A handler reads what its route declared, and nothing else. -/
def read (selection : Selected) (name : String) : Except Refusal (Option ParamValue) :=
  match findEntry name selection.values with
  | none => .error unexpectedError
  | some value => .ok value

def text (selection : Selected) (name : String) : Except Refusal (Option String) := do
  match ← selection.read name with
  | none => pure none
  | some (.text value) => pure (some value)
  | some (.number value) => pure (some (toString value))

def requiredText (selection : Selected) (name : String) : Except Refusal String := do
  match ← selection.text name with
  | none => throw (invalidRequest (name ++ " is required"))
  | some value => pure value

def number (selection : Selected) (name : String) : Except Refusal Nat := do
  match ← selection.read name with
  | some (.number value) => pure value
  | _ => throw (invalidRequest (name ++ " is required"))

end Selected

def ParamSpec.read (query : QueryString) : ParamSpec → Except Refusal (Option ParamValue)
  | .text name required =>
      if required then (requiredParam query name).map (fun value => some (.text value))
      else (optionalParam query name).map (fun value => value.map .text)
  | .enum name values => (enumParam query name values).map (fun value => value.map .text)
  | .limit name bounds => (limitParam query name bounds).map (fun value => some (.number value))

def readParams (query : QueryString) : List ParamSpec → Except Refusal (List (String × Option ParamValue))
  | [] => .ok []
  | spec :: rest => do
      let value ← spec.read query
      let values ← readParams query rest
      pure ((spec.name, value) :: values)

/-- What was not declared is refused first and named. -/
def parseSelection (query : QueryString) (specs : List ParamSpec) : Except Refusal Selected := do
  let declared := (specs.map ParamSpec.name).eraseDups
  let unknown := (query.map Prod.fst).eraseDups.filter (fun key => key ∉ declared)
  if unknown.isEmpty then
    let values ← readParams query specs
    pure ⟨values⟩
  else
    throw (invalidRequest ("unknown query parameter" ++ (if 1 < unknown.length then "s" else "") ++
      ": " ++ listed "" unknown ++
      if declared.isEmpty then " (this route accepts none)"
      else " (this route accepts " ++ listed "" declared ++ ")"))

/-- A repeated parameter is refused, whichever of its values was meant. -/
example : parseSelection [("organization_id", "a"), ("organization_id", "b")]
    [.text "organization_id" true] =
      .error (invalidRequest "organization_id must be given at most once (received 2 values)") := by
  decide +kernel

/-! ### What a parsed text says -/

/-- The value a text parameter is read as is never blank. -/
theorem optionalParam_present {query : QueryString} {key value : String}
    (h : optionalParam query key = .ok (some value)) : isBlank value = false := by
  unfold optionalParam at h
  split at h
  · cases h
  · rename_i sent _
    split at h
    · cases h
    rename_i hblank
    split at h
    · cases h
    · obtain rfl := Option.some.inj (Except.ok.inj h)
      simpa using hblank
  · cases h

theorem requiredParam_present {query : QueryString} {key value : String}
    (h : requiredParam query key = .ok value) : isBlank value = false := by
  unfold requiredParam at h
  obtain ⟨sent, hsent, h⟩ := bind_ok.mp h
  cases sent with
  | none => cases h
  | some found =>
      obtain rfl := Except.ok.inj h
      exact optionalParam_present hsent

end WaslaCore.Http
