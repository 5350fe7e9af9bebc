import WaslaCore.Data.Table
import WaslaCore.Http.Json
import WaslaCore.Identity.Service

/-!
The header grammars of the edge: what a caller may send, and what every answer is
sealed against. The two describe the correlation identifier independently, so an
identifier is accepted on the way in and refused on the way out exactly where it starts
with a separator.
-/

namespace WaslaCore.Http

open Data Platform Identity

/-! ### Characters -/

def isAsciiDigit (char : Char) : Bool := '0' ≤ char && char ≤ '9'

def isAsciiLower (char : Char) : Bool := 'a' ≤ char && char ≤ 'z'

def isAsciiUpper (char : Char) : Bool := 'A' ≤ char && char ≤ 'Z'

def isAsciiAlnum (char : Char) : Bool :=
  isAsciiDigit char || isAsciiLower char || isAsciiUpper char

/-- `[A-Za-z0-9._:-]`. -/
def isIdentifierChar (char : Char) : Bool := isAsciiAlnum char || "._:-".toList.contains char

/-- One or more characters of a class. -/
def someOf (accepts : Char → Bool) (chars : List Char) : Bool :=
  !chars.isEmpty && chars.all accepts

/-- The length a JavaScript string has: its UTF-16 code units. -/
def lengthOf (text : String) : Nat :=
  (text.toList.map (fun char => if char.toNat < 0x10000 then 1 else 2)).sum

/-- `toLowerCase`, as far as the result is ASCII: the Kelvin sign is the only other
character that becomes an ASCII letter alone. -/
def lowerLetter (char : Char) : Char :=
  if isAsciiUpper char then Char.ofNat (char.toNat + 32)
  else if char.toNat = 0x212a then 'k'
  else char

def toLowerCase (text : String) : String := String.ofList (text.toList.map lowerLetter)

/-! ### Request headers -/

inductive HeaderUse where
  | recorded
  | credential
  | forwarded
  | idempotency
  deriving DecidableEq, Repr

structure HeaderSpec where
  name : String
  use : HeaderUse
  maxLength : Nat
  deriving DecidableEq, Repr

def declaredHeaders : List HeaderSpec :=
  [⟨"x-correlation-id", .recorded, 128⟩, ⟨"authorization", .credential, 4096⟩,
    ⟨"x-forwarded-for", .forwarded, 512⟩, ⟨"x-real-ip", .forwarded, 128⟩,
    ⟨"x-client-ip", .forwarded, 128⟩, ⟨"idempotency-key", .idempotency, 128⟩]

/-- `CORRELATION_ID`, which `IDEMPOTENCY_KEY` is another name for. -/
def matchesIdentifier (value : String) : Bool := someOf isIdentifierChar value.toList

def isSchemeChar (char : Char) : Bool :=
  isAsciiAlnum char || "!#$%&'*+.^_`|~-".toList.contains char

/-- Printable ASCII without the space and the comma. -/
def isTokenChar (char : Char) : Bool :=
  (0x21 ≤ char.toNat && char.toNat ≤ 0x2b) || (0x2d ≤ char.toNat && char.toNat ≤ 0x7e)

/-- `CREDENTIAL`: a scheme, one space, a token. -/
def matchesCredential (value : String) : Bool :=
  someOf isSchemeChar (value.toList.takeWhile (fun char => char ≠ ' ')) &&
    match value.toList.dropWhile (fun char => char ≠ ' ') with
    | [] => false
    | _ :: token => someOf isTokenChar token

def isAddressChar (char : Char) : Bool :=
  isAsciiAlnum char || ".:[]%_-".toList.contains char

/-- An entry of a chain after the first may follow one space. -/
def dropOneSpace : List Char → List Char
  | ' ' :: rest => rest
  | chars => chars

/-- `FORWARDED`: addresses and ports, and the commas of a chain. -/
def matchesForwarded (value : String) : Bool :=
  match value.toList.splitOn ',' with
  | [] => false
  | first :: rest =>
      someOf isAddressChar first && rest.all (fun entry => someOf isAddressChar (dropOneSpace entry))

/-- A header as it may arrive: once, or more than once. -/
inductive SentHeader where
  | single (value : String)
  | repeated (values : List String)
  deriving DecidableEq, Repr

abbrev RawHeaders := String → Option SentHeader

/-- The declared headers of one request, already checked. -/
abbrev RequestHeaders := List (String × String)

def RequestHeaders.value (headers : RequestHeaders) (name : String) : Option String :=
  findEntry name headers

/-- The first entry of a forwarded chain. -/
def RequestHeaders.firstForwarded (headers : RequestHeaders) (name : String) : Option String :=
  match headers.value name with
  | none => none
  | some value =>
      match value.toList.splitOn ',' with
      | [] => none
      | first :: _ =>
          let entry := trim (String.ofList first)
          if entry.isEmpty then none else some entry

def invalidHeader (message : String) : Refusal := refused .invalidRequest message []

/-- The shape a header is accepted in, and what a refusal says of it. -/
def HeaderSpec.checkShape (spec : HeaderSpec) (value : String) : Except Refusal Unit :=
  match spec.use with
  | .recorded =>
      if matchesIdentifier value then .ok ()
      else .error (invalidHeader (spec.name ++ " must be an identifier: letters, digits, and " ++
        ". _ : - only (it is echoed, logged and stored as CORE's record of this request)"))
  | .credential =>
      if matchesCredential value then .ok ()
      else .error (invalidHeader
        (spec.name ++ " must be a single credential of the form \"scheme token\""))
  | .forwarded =>
      if matchesForwarded value then .ok ()
      else .error (invalidHeader
        (spec.name ++ " must be an address, or a comma-separated chain of them"))
  | .idempotency =>
      if matchesIdentifier value then .ok ()
      else .error (invalidHeader (spec.name ++ " must be an identifier: letters, digits, and " ++
        ". _ : - only (it is the key CORE records this request's answer under, so it must be " ++
        "a single stable token)"))

/-- The value of one declared header; a value of length zero is an absent one. -/
def HeaderSpec.parse (spec : HeaderSpec) : Option SentHeader → Except Refusal (Option String)
  | none => .ok none
  | some (.repeated _) =>
      .error (invalidHeader (spec.name ++ " was sent more than once; send exactly one value"))
  | some (.single value) =>
      if value.isEmpty then .ok none
      else if lengthOf value > spec.maxLength then
        .error (invalidHeader (spec.name ++ " must be at most " ++ toString spec.maxLength ++
          " characters, and was " ++ toString (lengthOf value)))
      else
        match spec.checkShape value with
        | .error refusal => .error refusal
        | .ok () => .ok (some value)

def parseEach (raw : RawHeaders) : List HeaderSpec → RequestHeaders → Except Refusal RequestHeaders
  | [], values => .ok values
  | spec :: rest, values =>
      match spec.parse (raw spec.name) with
      | .error refusal => .error refusal
      | .ok none => parseEach raw rest values
      | .ok (some value) => parseEach raw rest (putEntry spec.name value values)

def parseHeaders (raw : RawHeaders) : Except Refusal RequestHeaders :=
  parseEach raw declaredHeaders []

/-! ### Response headers -/

/-- The shape of the correlation identifier an answer carries. -/
def isSealable (value : String) : Bool :=
  match value.toList with
  | [] => false
  | first :: rest => isAsciiAlnum first && rest.all isIdentifierChar && rest.length ≤ 127

/-- `WHOLE`: no sign and no leading zero. -/
def isWhole (value : String) : Bool :=
  match value.toList with
  | [] => false
  | ['0'] => true
  | first :: rest => isAsciiDigit first && first ≠ '0' && rest.all isAsciiDigit

def isPositiveWhole (value : String) : Bool := isWhole value && value ≠ "0"

/-- One parameter of a media type: `; name=value`. -/
def isMediaParameter (chars : List Char) : Bool :=
  let chars := chars.dropWhile (fun char => char = ' ')
  let isName := fun char => isAsciiLower char || isAsciiDigit char || char = '-'
  someOf isName (chars.takeWhile isName) &&
    match chars.dropWhile isName with
    | '=' :: value => !value.isEmpty
    | _ => false

def isMediaType (value : String) : Bool :=
  match value.toList.splitOn ';' with
  | [] => false
  | first :: parameters =>
      someOf isAsciiLower (first.takeWhile (fun char => char ≠ '/')) &&
        (match first.dropWhile (fun char => char ≠ '/') with
        | [] => false
        | _ :: subtype =>
            someOf (fun char => isAsciiLower char || isAsciiDigit char ||
              ".+-".toList.contains char) subtype) &&
        parameters.all isMediaParameter

/-- Every header an answer may carry, with the whole value it may be sent with. -/
def responseHeaders : List (String × (String → Bool)) :=
  [("x-correlation-id", isSealable), ("x-ratelimit-limit", isWhole),
    ("x-ratelimit-remaining", isWhole), ("x-ratelimit-reset", isWhole),
    ("retry-after", isPositiveWhole), ("content-type", isMediaType),
    ("idempotent-replay", fun value => value = "true"),
    ("access-control-allow-origin", fun value => value = "*"),
    ("access-control-allow-methods", fun value => value = "GET")]

abbrev Headers := List (String × String)

/-- `sealHeaders` on the entries of its parts in turn. -/
def sealEntries : Headers → Headers → Except String Headers
  | [], out => .ok out
  | (rawName, value) :: rest, out =>
      match findEntry (toLowerCase rawName) responseHeaders with
      | none => .error ("response header " ++ rawName ++ " is not declared in RESPONSE_HEADERS")
      | some shape =>
          if shape value then sealEntries rest (putEntry (toLowerCase rawName) value out)
          else
            .error ("response header " ++ rawName ++ " carries " ++ quoted value ++
              ", which is not the shape it is declared to be sent in")

def sealHeaders (parts : List Headers) : Except String Headers := sealEntries parts.flatten []

/-! ### The two grammars of the identifier -/

/-- The identifier starts with a letter or a digit. -/
def startsPlain (value : String) : Bool :=
  match value.toList with
  | [] => false
  | first :: _ => isAsciiAlnum first

theorem isIdentifierChar_ascii {char : Char} (h : isIdentifierChar char = true) :
    char.toNat < 0x10000 := by
  have hle : ∀ last : Char, char ≤ last → char.toNat ≤ last.toNat := fun last hlast => hlast
  simp only [isIdentifierChar, isAsciiAlnum, isAsciiDigit, isAsciiLower, isAsciiUpper,
    Bool.or_eq_true, Bool.and_eq_true, decide_eq_true_eq, List.contains_eq_mem] at h
  rcases h with ((⟨-, h⟩ | ⟨-, h⟩) | ⟨-, h⟩) | h
  · exact lt_of_le_of_lt (hle '9' h) (by decide)
  · exact lt_of_le_of_lt (hle 'z' h) (by decide)
  · exact lt_of_le_of_lt (hle 'Z' h) (by decide)
  · have hcases : char = '.' ∨ char = '_' ∨ char = ':' ∨ char = '-' := by simpa using h
    rcases hcases with rfl | rfl | rfl | rfl <;> decide

/-- An identifier is as long as it has characters. -/
theorem lengthOf_identifier {value : String} (h : matchesIdentifier value = true) :
    lengthOf value = value.toList.length := by
  have hall : ∀ char ∈ value.toList, isIdentifierChar char = true := by
    simp only [matchesIdentifier, someOf, Bool.and_eq_true] at h
    exact List.all_eq_true.mp h.2
  have hones : ∀ chars : List Char, (∀ char ∈ chars, isIdentifierChar char = true) →
      (chars.map (fun char => if char.toNat < 0x10000 then 1 else 2)).sum = chars.length := by
    intro chars hchars
    induction chars with
    | nil => rfl
    | cons char rest ih =>
        obtain ⟨hfirst, hrest⟩ := List.forall_mem_cons.mp hchars
        rw [List.map_cons, List.sum_cons, ih hrest, if_pos (isIdentifierChar_ascii hfirst),
          List.length_cons]
        omega
  exact hones value.toList hall

/-- An accepted identifier can be sealed exactly where it starts with a letter or a
digit. -/
theorem isSealable_iff {value : String} (h : matchesIdentifier value = true)
    (hshort : lengthOf value ≤ 128) : isSealable value = startsPlain value := by
  rw [lengthOf_identifier h] at hshort
  simp only [matchesIdentifier, someOf, Bool.and_eq_true] at h
  unfold isSealable startsPlain
  cases hchars : value.toList with
  | nil => rfl
  | cons first rest =>
      rw [hchars] at h hshort
      have hrest : rest.all isIdentifierChar = true := by
        have hall := h.2
        rw [List.all_cons, Bool.and_eq_true] at hall
        exact hall.2
      have hlength : rest.length ≤ 127 := by
        rw [List.length_cons] at hshort
        omega
      simp [hrest, hlength]

/-- Every refusal of a header is the refusal of an invalid one. -/
theorem HeaderSpec.checkShape_error {spec : HeaderSpec} {value : String} {refusal : Refusal}
    (h : spec.checkShape value = .error refusal) : ∃ message, refusal = invalidHeader message := by
  unfold HeaderSpec.checkShape at h
  split at h <;> split at h <;> first
    | exact ⟨_, (Except.error.inj h).symm⟩
    | cases h

theorem HeaderSpec.parse_error {spec : HeaderSpec} {sent : Option SentHeader} {refusal : Refusal}
    (h : spec.parse sent = .error refusal) : ∃ message, refusal = invalidHeader message := by
  unfold HeaderSpec.parse at h
  split at h
  · cases h
  · exact ⟨_, (Except.error.inj h).symm⟩
  split at h
  · cases h
  split at h
  · exact ⟨_, (Except.error.inj h).symm⟩
  split at h
  · rename_i hshape
    obtain rfl := Except.error.inj h
    exact HeaderSpec.checkShape_error hshape
  · cases h

theorem parseHeaders_error {raw : RawHeaders} {refusal : Refusal}
    (h : parseHeaders raw = .error refusal) : ∃ message, refusal = invalidHeader message := by
  have heach : ∀ specs values, parseEach raw specs values = .error refusal →
      ∃ message, refusal = invalidHeader message := by
    intro specs
    induction specs with
    | nil =>
        intro values hrefused
        cases hrefused
    | cons spec rest ih =>
        intro values hrefused
        simp only [parseEach] at hrefused
        split at hrefused
        · rename_i hspec
          obtain rfl := Except.error.inj hrefused
          exact HeaderSpec.parse_error hspec
        · exact ih _ hrefused
        · exact ih _ hrefused
  exact heach declaredHeaders [] h

/-- What a header is parsed to has its shape and is not too long. -/
theorem HeaderSpec.parse_ok {spec : HeaderSpec} {sent : Option SentHeader} {value : String}
    (h : spec.parse sent = .ok (some value)) :
    lengthOf value ≤ spec.maxLength ∧ spec.checkShape value = .ok () := by
  unfold HeaderSpec.parse at h
  split at h
  · cases h
  · cases h
  split at h
  · cases h
  split at h
  · cases h
  rename_i hshort
  split at h
  · cases h
  rename_i hshape
  obtain rfl := Option.some.inj (Except.ok.inj h)
  exact ⟨Nat.not_lt.mp hshort, hshape⟩

theorem parseEach_value {raw : RawHeaders} {specs : List HeaderSpec} {values headers : RequestHeaders}
    (h : parseEach raw specs values = .ok headers) {name value : String}
    (hvalue : headers.value name = some value) :
    values.value name = some value ∨
      ∃ spec ∈ specs, spec.name = name ∧ spec.parse (raw name) = .ok (some value) := by
  induction specs generalizing values with
  | nil =>
      obtain rfl := Except.ok.inj h
      exact .inl hvalue
  | cons spec rest ih =>
      simp only [parseEach] at h
      split at h
      · cases h
      · rcases ih h with hbefore | ⟨other, hother, hname, hparse⟩
        · exact .inl hbefore
        · exact .inr ⟨other, List.mem_cons_of_mem spec hother, hname, hparse⟩
      · rename_i own hown
        rcases ih h with hbefore | ⟨other, hother, hname, hparse⟩
        · rw [RequestHeaders.value, findEntry_putEntry] at hbefore
          split at hbefore
          · rename_i hname
            obtain rfl := Option.some.inj hbefore
            subst hname
            exact .inr ⟨spec, List.mem_cons_self, rfl, hown⟩
          · exact .inl hbefore
        · exact .inr ⟨other, List.mem_cons_of_mem spec hother, hname, hparse⟩

/-- The correlation identifier of an accepted request. -/
theorem parseHeaders_correlation {raw : RawHeaders} {headers : RequestHeaders} {value : String}
    (h : parseHeaders raw = .ok headers) (hvalue : headers.value "x-correlation-id" = some value) :
    matchesIdentifier value = true ∧ lengthOf value ≤ 128 := by
  rcases parseEach_value h hvalue with hnone | ⟨spec, hspec, hname, hparse⟩
  · cases hnone
  obtain ⟨hshort, hshape⟩ := HeaderSpec.parse_ok hparse
  simp only [declaredHeaders, List.mem_cons, List.not_mem_nil, or_false] at hspec
  rcases hspec with rfl | rfl | rfl | rfl | rfl | rfl <;> try exact absurd hname (by decide)
  refine ⟨?_, hshort⟩
  by_contra hother
  simp [HeaderSpec.checkShape, hother] at hshape

theorem isAsciiAlnum_of_hex {char : Char} (h : isHexDigit char = true) :
    isAsciiAlnum char = true := by
  have hletter : ∀ first last : Char, first ≤ char → char ≤ last → last ≤ 'z' → 'a' ≤ first →
      isAsciiLower char = true := by
    intro first last hfirst hlast hz ha
    simp [isAsciiLower, Char.le_trans ha hfirst, Char.le_trans hlast hz]
  simp only [isHexDigit, Bool.or_eq_true, Bool.and_eq_true, decide_eq_true_eq] at h
  rcases h with (hdigit | ⟨hfirst, hlast⟩) | ⟨hfirst, hlast⟩
  · have hrange : '0' ≤ char ∧ char ≤ '9' := by
      simpa [Char.isDigit, Char.le_def] using hdigit
    simp [isAsciiAlnum, isAsciiDigit, hrange.1, hrange.2]
  · simp [isAsciiAlnum, hletter 'a' 'f' hfirst hlast (by decide) (by decide)]
  · have hrange : isAsciiUpper char = true := by
      simp [isAsciiUpper, hfirst, Char.le_trans hlast (by decide : 'F' ≤ 'Z')]
    simp [isAsciiAlnum, hrange]

/-- What matches a shape of hexadecimal digits and dashes is as long as the shape, and made of
identifier characters. -/
theorem matchesShape_identifier {shape chars : List Char} (h : matchesShape shape chars = true)
    (hshape : ∀ char ∈ shape, char = 'h' ∨ char = '-') :
    chars.all isIdentifierChar = true ∧ chars.length = shape.length := by
  induction shape generalizing chars with
  | nil =>
      cases chars with
      | nil => exact ⟨rfl, rfl⟩
      | cons char rest => cases h
  | cons expected shape ih =>
      obtain ⟨hfirst, hlater⟩ := List.forall_mem_cons.mp hshape
      cases chars with
      | nil => rcases hfirst with rfl | rfl <;> cases h
      | cons char rest =>
          have hparts : isIdentifierChar char = true ∧ matchesShape shape rest = true := by
            rcases hfirst with rfl | rfl
            · have hboth : (isHexDigit char && matchesShape shape rest) = true := h
              obtain ⟨hhex, hrest⟩ := Bool.and_eq_true_iff.mp hboth
              exact ⟨by simp [isIdentifierChar, isAsciiAlnum_of_hex hhex], hrest⟩
            · have hboth : ('-' == char && matchesShape shape rest) = true := h
              obtain ⟨hdash, hrest⟩ := Bool.and_eq_true_iff.mp hboth
              rw [← eq_of_beq hdash]
              exact ⟨by decide, hrest⟩
          obtain ⟨hrest, hlength⟩ := ih hparts.2 hlater
          simp [hparts.1, hrest, hlength]

/-- An identifier CORE issues can be sealed. -/
theorem isSealable_of_isId {value : String} (h : isId value = true) : isSealable value = true := by
  have hshape := matchesShape_identifier h (by simp)
  unfold isSealable
  cases hchars : value.toList with
  | nil =>
      rw [isId, hchars] at h
      cases h
  | cons first rest =>
      rw [hchars] at hshape
      simp only [List.all_cons, Bool.and_eq_true, List.length_cons] at hshape
      have hfirst : isAsciiAlnum first = true := by
        rw [isId, hchars] at h
        have hhex : (isHexDigit first && matchesShape "hhhhhhh-hhhh-hhhh-hhhh-hhhhhhhhhhhh".toList
          rest) = true := h
        exact isAsciiAlnum_of_hex (Bool.and_eq_true_iff.mp hhex).1
      have hlength : rest.length = 35 := by
        have hboth := hshape.2
        have hsize : "hhhhhhhh-hhhh-hhhh-hhhh-hhhhhhhhhhhh".toList.length = 36 := by decide
        omega
      simp [hfirst, hshape.1.2, hlength]

/-! ### Sealing -/

/-- Every entry is declared and has its shape. -/
def Declared (entries : Headers) : Prop :=
  ∀ entry ∈ entries, ∃ shape, findEntry (toLowerCase entry.1) responseHeaders = some shape ∧
    shape entry.2 = true

theorem sealEntries_declared {entries out : Headers} (h : Declared entries) :
    ∃ sealed, sealEntries entries out = .ok sealed := by
  induction entries generalizing out with
  | nil => exact ⟨out, rfl⟩
  | cons entry rest ih =>
      obtain ⟨⟨shape, hshape, hvalue⟩, hrest⟩ := List.forall_mem_cons.mp h
      obtain ⟨sealed, hsealed⟩ := ih hrest
      exact ⟨sealed, by simpa [sealEntries, hshape, hvalue] using hsealed⟩

theorem declared_of_sealEntries {entries out sealed : Headers}
    (h : sealEntries entries out = .ok sealed) : Declared entries := by
  induction entries generalizing out with
  | nil => simp [Declared]
  | cons entry rest ih =>
      simp only [sealEntries] at h
      split at h
      · cases h
      rename_i shape hshape
      split at h
      · rename_i hvalue
        exact List.forall_mem_cons.mpr ⟨⟨shape, hshape, hvalue⟩, ih h⟩
      · cases h

theorem sealEntries_append (entries rest out : Headers) :
    sealEntries (entries ++ rest) out = sealEntries entries out >>= sealEntries rest := by
  induction entries generalizing out with
  | nil => rfl
  | cons entry entries ih =>
      simp only [List.cons_append, sealEntries]
      split
      · rfl
      · split
        · exact ih _
        · rfl

/-- An answer that is sealed carries the identifier that was put last. -/
theorem sealed_correlation {parts : List Headers} {correlationId : String} {sealed : Headers}
    (h : sealHeaders (parts ++ [[("x-correlation-id", correlationId)]]) = .ok sealed) :
    findEntry "x-correlation-id" sealed = some correlationId := by
  simp only [sealHeaders, List.flatten_append, List.flatten_cons, List.flatten_nil, List.append_nil,
    sealEntries_append] at h
  cases hparts : sealEntries parts.flatten [] with
  | error message =>
      rw [hparts] at h
      cases h
  | ok out =>
      rw [hparts] at h
      change sealEntries [("x-correlation-id", correlationId)] out = .ok sealed at h
      have hname : toLowerCase "x-correlation-id" = "x-correlation-id" := by decide
      simp only [sealEntries, hname] at h
      split at h
      · cases h
      split at h
      · obtain rfl := Except.ok.inj h
        rw [findEntry_putEntry, if_pos rfl]
      · cases h

end WaslaCore.Http
