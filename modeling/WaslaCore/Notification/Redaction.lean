import WaslaCore.Data.JsString

/-!
What a channel error is allowed to leave behind. Anything shaped like a credential is
redacted, the recipient's address gives way to a marker, and a long error is cut. Whatever
the error was, the address is not in what is left of it.
-/

namespace WaslaCore.Notification

open Data

def isDelimiter (unit : CodeUnit) : Bool := unit = unitOf '=' || unit = unitOf ':'

/-- `/bearer\s+\S+/gi`. -/
def bearer : Pattern :=
  (Pattern.word (units "bearer")).andThen
    ((Pattern.run 1 isSpace).andThen (Pattern.run 1 (fun unit => !isSpace unit)))

/-- `/(?:authorization|token|secret|password|api[_-]?key)\s*[=:]\s*\S+/gi`. -/
def secretish : Pattern :=
  (Pattern.oneOf
      (["authorization", "token", "secret", "password", "api_key", "api-key", "apikey"].map
        fun word => Pattern.word (units word))).andThen
    ((Pattern.run 0 isSpace).andThen
      ((Pattern.unit isDelimiter).andThen
        ((Pattern.run 0 isSpace).andThen (Pattern.run 1 (fun unit => !isSpace unit)))))

/-- What stands before the delimiter stays. -/
def withoutSecret (found : JsString) : JsString :=
  found.takeWhile (fun unit => !isDelimiter unit) ++ units "=[redacted]"

def maxErrorLength : Nat := 500

def redactCredentials (reason : JsString) : JsString :=
  replaceAll secretish withoutSecret (replaceAll bearer (fun _ => units "Bearer [redacted]") reason)

def hideAddress (address : Option JsString) (text : JsString) : JsString :=
  match address with
  | some address => if address = [] then text else join (units "[address]") (split address text)
  | none => text

def truncate (text : JsString) : JsString :=
  if maxErrorLength < text.length then text.take maxErrorLength ++ [unitOf '…'] else text

/-- What a channel error is allowed to leave behind. -/
def sanitiseChannelError (reason : JsString) (address : Option JsString) : JsString :=
  truncate (hideAddress address (redactCredentials reason))

section Hidden

variable {address : JsString}

theorem units_marker :
    units "[address]" = unitOf '[' :: (units "address" ++ [unitOf ']']) := by decide

/-- Between the pieces there are only markers, and the address is in none of them. -/
theorem join_free (hopen : unitOf '[' ∉ address) (hclose : unitOf ']' ∉ address)
    (hword : ¬address <:+: units "address") {pieces : List JsString}
    (hpieces : ∀ piece ∈ pieces, ¬address <:+: piece) (hsome : address ≠ []) :
    ¬address <:+: join (units "[address]") pieces := by
  induction pieces with
  | nil => exact fun h => hsome (List.infix_nil.mp h)
  | cons piece rest ih =>
      have hfirst := hpieces piece List.mem_cons_self
      cases rest with
      | nil =>
          rw [join, List.intercalate_singleton]
          exact hfirst
      | cons next rest =>
          have hrest := ih (fun other hother => hpieces other (List.mem_cons_of_mem _ hother))
          intro h
          rw [join, List.intercalate_cons_cons, units_marker, List.append_assoc,
            List.cons_append, List.append_assoc] at h
          rcases infix_beside_mark hopen h with hbefore | hbehind
          · exact hfirst hbefore
          · rcases infix_beside_mark hclose hbehind with hmarker | hlater
            · exact hword hmarker
            · exact hrest hlater

/-- No occurrence survives the marker, and none is made by it. -/
theorem hideAddress_free (hsome : address ≠ []) (hopen : unitOf '[' ∉ address)
    (hclose : unitOf ']' ∉ address) (hword : ¬address <:+: units "address") (text : JsString) :
    ¬address <:+: hideAddress (some address) text := by
  rw [hideAddress, if_neg hsome]
  exact join_free hopen hclose hword (splitAfter_free hsome text 0) hsome

/-- A cut makes no occurrence, nor does the mark it leaves. -/
theorem truncate_free (hcut : unitOf '…' ∉ address) {text : JsString} (h : ¬address <:+: text) :
    ¬address <:+: truncate text := by
  unfold truncate
  split
  · intro hfound
    rcases infix_beside_mark hcut hfound with hkept | hnone
    · exact h (hkept.trans (List.take_prefix _ _).isInfix)
    · exact h (hnone.trans (List.nil_infix))
  · exact h

/-- The address is not in what is left of an error, whatever the error said. -/
theorem sanitiseChannelError_hides (reason address : JsString) (hsome : address ≠ [])
    (hopen : unitOf '[' ∉ address) (hclose : unitOf ']' ∉ address) (hcut : unitOf '…' ∉ address)
    (hword : ¬address <:+: units "address") :
    ¬address <:+: sanitiseChannelError reason (some address) := by
  apply truncate_free hcut
  exact hideAddress_free hsome hopen hclose hword (redactCredentials reason)

/-- An error that quotes the address twice, once against itself, and a credential. -/
theorem sanitiseChannelError_hides_quoted :
    ¬units "+20+20" <:+: sanitiseChannelError
      (units "refused +20+20+20 for Bearer abc to +20+20, token: +20+20") (some (units "+20+20")) :=
  sanitiseChannelError_hides _ _ (by decide) (by decide) (by decide) (by decide) (by decide)

end Hidden

end WaslaCore.Notification
