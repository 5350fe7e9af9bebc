/-!
The error model and the shape rules of intake: the codes a refusal carries, the
identifiers CORE issues, and the text functions the services apply to what a
caller sends.
-/

namespace WaslaCore.Platform

/-- The vocabulary of refusals. -/
inductive ErrorCode where
  | invalidRequest
  | unauthenticated
  | forbidden
  | notFound
  | conflict
  | rateLimited
  | internal
  | unavailable
  deriving DecidableEq, Repr

/-- A refusal CORE states, with the seconds after which it says to come back. -/
structure CoreError where
  code : ErrorCode
  message : String
  retryAfterSeconds : Option Nat := none
  deriving DecidableEq, Repr

/-- Whatever a call can throw. `other` is any error that is not a refusal: a
constraint of the store, a lost connection. The last two are the control signals
of the fulfillment service, caught by the service that throws them. -/
inductive Thrown where
  | core (error : CoreError)
  | other (message : String)
  | transitionLost (fulfillmentId : String)
  | intakeLost (orderReference : String)
  deriving DecidableEq, Repr

def invalid (message : String) : Thrown := .core ⟨.invalidRequest, message, none⟩

def notFound (message : String) : Thrown := .core ⟨.notFound, message, none⟩

def conflict (message : String) : Thrown := .core ⟨.conflict, message, none⟩

/-- `err.message`. -/
def Thrown.message : Thrown → String
  | .core error => error.message
  | .other message => message
  | .transitionLost fulfillmentId =>
      "fulfillment " ++ fulfillmentId ++ " was transitioned concurrently"
  | .intakeLost orderReference => "order " ++ orderReference ++ " was taken up concurrently"

/-- `[0-9a-f]` under the case-insensitive flag. -/
def isHexDigit (char : Char) : Bool :=
  char.isDigit || ('a' ≤ char && char ≤ 'f') || ('A' ≤ char && char ≤ 'F')

/-- A sequence of two steps goes through where both do. -/
theorem bind_ok {ε α β : Type} {first : Except ε α} {next : α → Except ε β} {result : β} :
    (first >>= next) = .ok result ↔ ∃ value, first = .ok value ∧ next value = .ok result := by
  cases first with
  | error thrown => simp [bind, Except.bind]
  | ok value => simp [bind, Except.bind]

/-- A shape of hexadecimal digits, written `h`, and literal characters. -/
def matchesShape : List Char → List Char → Bool
  | [], [] => true
  | 'h' :: shape, char :: rest => isHexDigit char && matchesShape shape rest
  | literal :: shape, char :: rest => literal == char && matchesShape shape rest
  | _, _ => false

/-- The shape of every identifier CORE issues. -/
def isId (value : String) : Bool :=
  matchesShape "hhhhhhhh-hhhh-hhhh-hhhh-hhhhhhhhhhhh".toList value.toList

def assertId (field value : String) : Except Thrown Unit :=
  if isId value then .ok () else .error (invalid (field ++ " must be a UUID"))

/-- The white space and line ends `String.prototype.trim` strips. -/
def isTrimmed (char : Char) : Bool :=
  [0x09, 0x0a, 0x0b, 0x0c, 0x0d, 0x20, 0xa0, 0x1680, 0x2028, 0x2029, 0x202f, 0x205f, 0x3000,
    0xfeff].contains char.toNat || (0x2000 ≤ char.toNat && char.toNat ≤ 0x200a)

def trim (text : String) : String :=
  String.ofList ((text.toList.dropWhile isTrimmed).reverse.dropWhile isTrimmed).reverse

/-- `text.trim()` as a condition: a text of white space alone is falsy. -/
def isBlank (text : String) : Bool := (trim text).isEmpty

/-- The upper case of the characters whose upper case is in `A` to `Z`; any other
character stays outside that range either way. -/
def upperLetters (char : Char) : List Char :=
  if 'a' ≤ char && char ≤ 'z' then [Char.ofNat (char.toNat - 32)]
  else
    match char.toNat with
    | 0xdf => ['S', 'S']
    | 0x131 => ['I']
    | 0x17f => ['S']
    | 0xfb00 => ['F', 'F']
    | 0xfb01 => ['F', 'I']
    | 0xfb02 => ['F', 'L']
    | 0xfb03 => ['F', 'F', 'I']
    | 0xfb04 => ['F', 'F', 'L']
    | 0xfb05 => ['S', 'T']
    | 0xfb06 => ['S', 'T']
    | _ => [char]

def toUpperCase (text : String) : String := String.ofList (text.toList.flatMap upperLetters)

example : isId "0b9f7a52-3c1d-4e8a-9b7c-5d2e1f0a6b3c" = true := by decide

end WaslaCore.Platform
