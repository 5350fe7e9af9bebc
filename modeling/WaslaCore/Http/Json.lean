import WaslaCore.Platform.ListOrder

/-!
Bodies as JSON carries them, and the one text every spelling of a body has.
-/

namespace WaslaCore.Http

open Platform

/-- A JSON value. A number is kept as the text `JSON.stringify` gives it. -/
inductive Json where
  | null
  | flag (value : Bool)
  | number (literal : String)
  | text (value : String)
  | array (items : List Json)
  | object (entries : List (String × Json))

/-- The escape of one character, where `JSON.stringify` escapes it. -/
def escaped (char : Char) : String :=
  if char.toNat = 34 then "\\\""
  else if char.toNat = 92 then "\\\\"
  else if char.toNat = 8 then "\\b"
  else if char.toNat = 12 then "\\f"
  else if char.toNat = 10 then "\\n"
  else if char.toNat = 13 then "\\r"
  else if char.toNat = 9 then "\\t"
  else if char.toNat < 32 then
    "\\u00" ++ (if char.toNat < 16 then "0" else "") ++ String.ofList (Nat.toDigits 16 char.toNat)
  else char.toString

def quoted (value : String) : String :=
  "\"" ++ String.join (value.toList.map escaped) ++ "\""

/-- The object text of rendered entries, in the order of their names. -/
def objectText (entries : List (String × String)) : String :=
  "\x7b" ++ ",".intercalate ((orderedBy (fun entry => [SortKey.text entry.1]) entries).map
    (fun entry => quoted entry.1 ++ ":" ++ entry.2)) ++ "\x7d"

mutual

/-- JSON with the object keys in a stable order. -/
def canonicalJson : Json → String
  | .null => "null"
  | .flag value => if value then "true" else "false"
  | .number literal => literal
  | .text value => quoted value
  | .array items => "[" ++ ",".intercalate (canonicalItems items) ++ "]"
  | .object entries => objectText (canonicalEntries entries)

def canonicalItems : List Json → List String
  | [] => []
  | item :: rest => canonicalJson item :: canonicalItems rest

def canonicalEntries : List (String × Json) → List (String × String)
  | [] => []
  | (name, item) :: rest => (name, canonicalJson item) :: canonicalEntries rest

end

end WaslaCore.Http
