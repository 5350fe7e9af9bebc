import WaslaCore.Http.Retry
import WaslaCore.Interleaving.Process

/-!
Claims and recorded answers in the database, one statement at a time. A claim is an insert that
takes the row over where it may and, where it may not, a read that says why; other requests'
statements come between the two, and between either and the instant that the call read first.
-/

namespace WaslaCore.Http.PgRetryRecordStore

open Data Platform Interleaving

/-- Text without the character that a column cannot hold. -/
def isText (value : String) : Bool := value.toList.all (fun character => character ≠ '\x00')

def isColumns (lookup : RetryLookup) : Bool :=
  isText lookup.method && isText lookup.scope && isText lookup.key

/-- The body a row gives back: a body that is `null` is stored as no body, and any other as the
column's JSON, which `jsonb` reads back. -/
def bodyParameter (jsonb : Json → Json) : Json → Json
  | .null => .null
  | body => jsonb body

def recorded (jsonb : Json → Json) (answer : Answer) : Answer :=
  { answer with body := bodyParameter jsonb answer.body }

/-- What the database did on somebody's behalf: an insert that was granted or refused, a row read,
an update and a delete with whether they found their row. -/
inductive Entry where
  | claimed (lookup : RetryLookup) (fingerprint token : String) (now : Int)
  | refused (lookup : RetryLookup) (fingerprint : String) (now : Int)
  | found (lookup : RetryLookup) (now : Int) (row : Option RetryRecordRow)
  | completed (lookup : RetryLookup) (token : String) (answer : Answer) (now : Int) (applied : Bool)
  | released (lookup : RetryLookup) (token : String) (now : Int) (applied : Bool)

def Entry.lookup : Entry → RetryLookup
  | .claimed lookup _ _ _ => lookup
  | .refused lookup _ _ => lookup
  | .found lookup _ _ => lookup
  | .completed lookup _ _ _ _ => lookup
  | .released lookup _ _ _ => lookup

/-- The table under its primary key, the tokens generated so far, and what was done, the newest
first. -/
structure Database where
  now : Int
  rows : RetryLookup → Option RetryRecordRow
  drawn : List String
  log : List Entry

def Database.empty (now : Int) : Database := ⟨now, fun _ => none, [], []⟩

def Database.put (db : Database) (lookup : RetryLookup) (row : Option RetryRecordRow) : Database :=
  { db with rows := fun other => if other = lookup then row else db.rows other }

def Database.record (db : Database) (entry : Entry) : Database := { db with log := entry :: db.log }

/-- `expires_at <= $5 or (state = 'claimed' and claimed_at <= $7)`. -/
def takeable (row : RetryRecordRow) (now : Int) : Bool :=
  row.expiresAt ≤ now ||
    match row.state with
    | .claimed => row.claimedAt ≤ now - claimHorizonMs
    | .completed _ _ => false

/-- `claim_token = $7 and state = 'claimed'`. -/
def held (row : RetryRecordRow) (token : String) : Bool :=
  match row.state with
  | .claimed => row.claimToken = token
  | .completed _ _ => false

inductive Statement where
  | clock
  | insert (lookup : RetryLookup) (fingerprint : String) (now : Int)
  | select (lookup : RetryLookup) (now : Int)
  | update (lookup : RetryLookup) (token : String) (answer : Answer) (now : Int)
  | delete (lookup : RetryLookup) (token : String)

/-- A statement answers or fails. The insert returns its token, where it wrote. -/
def Statement.Answer : Statement → Type
  | .clock => Int
  | .insert _ _ _ => Except Unit (Option String)
  | .select _ _ => Except Unit (Option RetryRecordRow)
  | .update _ _ _ _ => Except Unit Bool
  | .delete _ _ => Except Unit Bool

inductive Choice where
  | proceed
  | drawn (token : String)
  | failed
  | elapsed (milliseconds : Nat)

section Statements

variable (jsonb : Json → Json) (db : Database)

def insertRow (lookup : RetryLookup) (fingerprint token : String) (now : Int) :
    Except Unit (Option String) × Database :=
  let row : RetryRecordRow :=
    { lookup := lookup
      requestFingerprint := fingerprint
      state := .claimed
      claimToken := token
      claimedAt := now
      createdAt := now
      expiresAt := now + retentionMs }
  let granted :=
    (.ok (some token), (db.put lookup (some row)).record (.claimed lookup fingerprint token now))
  match db.rows lookup with
  | none => granted
  | some existing =>
      if takeable existing now then granted
      else (.ok none, db.record (.refused lookup fingerprint now))

def selectRow (lookup : RetryLookup) (now : Int) : Except Unit (Option RetryRecordRow) × Database :=
  let row := (db.rows lookup).filter fun row => now < row.expiresAt
  (.ok row, db.record (.found lookup now row))

/-- A status that is no success breaks the column's rule, on a row that is there to be updated. -/
def updateRow (lookup : RetryLookup) (token : String) (answer : Answer) (now : Int) :
    Option (Except Unit Bool × Database) :=
  match (db.rows lookup).filter fun row => held row token && decide (now < row.expiresAt) with
  | none => some (.ok false, db.record (.completed lookup token answer now false))
  | some row =>
      if answer.succeeded then
        let row' := { row with state := .completed now (recorded jsonb answer) }
        some (.ok true,
          (db.put lookup (some row')).record (.completed lookup token answer now true))
      else none

def deleteRow (lookup : RetryLookup) (token : String) : Except Unit Bool × Database :=
  match (db.rows lookup).filter fun row => held row token with
  | none => (.ok false, db.record (.released lookup token db.now false))
  | some _ => (.ok true, (db.put lookup none).record (.released lookup token db.now true))

end Statements

/-- A failed statement writes nothing. -/
def perform (jsonb : Json → Json) :
    (statement : Statement) → Choice → Database → Option (statement.Answer × Database)
  | .clock, .proceed, db => some (db.now, db)
  | .insert lookup fingerprint now, .drawn token, db =>
      if isColumns lookup && decide (token ∉ db.drawn) then
        some (insertRow { db with drawn := token :: db.drawn } lookup fingerprint token now)
      else none
  | .insert _ _ _, .failed, db => some (.error (), db)
  | .select lookup now, .proceed, db =>
      if isColumns lookup then some (selectRow db lookup now) else none
  | .select _ _, .failed, db => some (.error (), db)
  | .update lookup token answer now, .proceed, db =>
      if isColumns lookup then updateRow jsonb db lookup token answer now else none
  | .update _ _ _ _, .failed, db => some (.error (), db)
  | .delete lookup token, .proceed, db =>
      if isColumns lookup then some (deleteRow db lookup token) else none
  | .delete _ _, .failed, db => some (.error (), db)
  | _, _, _ => none

def tick : Choice → Database → Option Database
  | .elapsed milliseconds, db => some { db with now := db.now + milliseconds }
  | _, _ => none

def database (jsonb : Json → Json) : System Database Statement Statement.Answer Choice :=
  ⟨perform jsonb, tick⟩

/-! ### The store's operations -/

abbrev Call (β : Type) := Process Statement Statement.Answer Unit β

def settled {β : Type} : Except Unit β → Call β
  | .ok value => .done value
  | .error failure => .fail failure

def clock : Call Int := .act .clock .done

def find (lookup : RetryLookup) : Call (Option RetryRecordRow) :=
  clock >>= fun now => .act (.select lookup now) settled

/-- Why a claim was not granted, as the row says it later; a row that is gone by then counts as
one still at work. -/
def whyRefused (now : Int) (fingerprint : String) : Option RetryRecordRow → RetryClaimOutcome
  | none => .inFlight now
  | some existing => RetryRecords.occupied existing fingerprint

def claim (lookup : RetryLookup) (fingerprint : String) : Call RetryClaimOutcome :=
  clock >>= fun now =>
    Process.act (.insert lookup fingerprint now) settled >>= fun token =>
    match token with
    | some token => .done (.claimed token now)
    | none => find lookup >>= fun existing => .done (whyRefused now fingerprint existing)

def complete (lookup : RetryLookup) (token : String) (answer : Answer) : Call Bool :=
  clock >>= fun now => .act (.update lookup token answer now) settled

def release (lookup : RetryLookup) (token : String) : Call Bool :=
  .act (.delete lookup token) settled

inductive Request where
  | find (lookup : RetryLookup)
  | claim (lookup : RetryLookup) (fingerprint : String)
  | complete (lookup : RetryLookup) (token : String) (answer : Answer)
  | release (lookup : RetryLookup) (token : String)

inductive Reply where
  | found (row : Option RetryRecordRow)
  | outcome (outcome : RetryClaimOutcome)
  | applied (applied : Bool)

def serve : Request → Call Reply
  | .find lookup => find lookup >>= fun row => .done (.found row)
  | .claim lookup fingerprint =>
      claim lookup fingerprint >>= fun outcome => .done (.outcome outcome)
  | .complete lookup token answer =>
      complete lookup token answer >>= fun applied => .done (.applied applied)
  | .release lookup token => release lookup token >>= fun applied => .done (.applied applied)

def requests (call : Call Reply) : Prop := ∃ request, call = serve request

/-! ### What one statement does -/

section Performs

variable {jsonb : Json → Json} {db after : Database} {choice : Choice}

theorem perform_clock {now : Int} (h : perform jsonb .clock choice db = some (now, after)) :
    now = db.now ∧ after = db := by
  cases choice with
  | proceed =>
      obtain ⟨rfl, rfl⟩ := Prod.mk.inj (Option.some.inj h)
      exact ⟨rfl, rfl⟩
  | _ => cases h

theorem perform_insert {lookup : RetryLookup} {fingerprint : String} {now : Int}
    {answer : Except Unit (Option String)}
    (h : perform jsonb (.insert lookup fingerprint now) choice db = some (answer, after)) :
    (answer = .error () ∧ after = db) ∨ ∃ token, isColumns lookup = true ∧ token ∉ db.drawn ∧
      (answer, after) =
        insertRow { db with drawn := token :: db.drawn } lookup fingerprint token now := by
  cases choice with
  | failed =>
      obtain ⟨rfl, rfl⟩ := Prod.mk.inj (Option.some.inj h)
      exact .inl ⟨rfl, rfl⟩
  | drawn token =>
      simp only [perform] at h
      split at h
      · rename_i hfree
        obtain ⟨hcolumns, hfresh⟩ := Bool.and_eq_true_iff.mp hfree
        exact .inr ⟨token, hcolumns, of_decide_eq_true hfresh, (Option.some.inj h).symm⟩
      · cases h
  | _ => cases h

theorem perform_select {lookup : RetryLookup} {now : Int}
    {answer : Except Unit (Option RetryRecordRow)}
    (h : perform jsonb (.select lookup now) choice db = some (answer, after)) :
    (answer = .error () ∧ after = db) ∨
      isColumns lookup = true ∧ (answer, after) = selectRow db lookup now := by
  cases choice with
  | failed =>
      obtain ⟨rfl, rfl⟩ := Prod.mk.inj (Option.some.inj h)
      exact .inl ⟨rfl, rfl⟩
  | proceed =>
      simp only [perform] at h
      split at h
      · rename_i hcolumns
        exact .inr ⟨hcolumns, (Option.some.inj h).symm⟩
      · cases h
  | _ => cases h

theorem perform_update {lookup : RetryLookup} {token : String} {recorded : Answer} {now : Int}
    {answer : Except Unit Bool}
    (h : perform jsonb (.update lookup token recorded now) choice db = some (answer, after)) :
    (answer = .error () ∧ after = db) ∨
      isColumns lookup = true ∧
        updateRow jsonb db lookup token recorded now = some (answer, after) := by
  cases choice with
  | failed =>
      obtain ⟨rfl, rfl⟩ := Prod.mk.inj (Option.some.inj h)
      exact .inl ⟨rfl, rfl⟩
  | proceed =>
      change (if isColumns lookup then updateRow jsonb db lookup token recorded now else none :
        Option (Except Unit Bool × Database)) = some (answer, after) at h
      by_cases hcolumns : isColumns lookup = true
      · rw [if_pos hcolumns] at h
        exact .inr ⟨hcolumns, h⟩
      · rw [if_neg hcolumns] at h
        cases h
  | _ => cases h

theorem perform_delete {lookup : RetryLookup} {token : String} {answer : Except Unit Bool}
    (h : perform jsonb (.delete lookup token) choice db = some (answer, after)) :
    (answer = .error () ∧ after = db) ∨
      isColumns lookup = true ∧ (answer, after) = deleteRow db lookup token := by
  cases choice with
  | failed =>
      obtain ⟨rfl, rfl⟩ := Prod.mk.inj (Option.some.inj h)
      exact .inl ⟨rfl, rfl⟩
  | proceed =>
      simp only [perform] at h
      split at h
      · rename_i hcolumns
        exact .inr ⟨hcolumns, (Option.some.inj h).symm⟩
      · cases h
  | _ => cases h

theorem tick_ok (h : tick choice db = some after) :
    ∃ milliseconds : Nat, after = { db with now := db.now + milliseconds } := by
  cases choice with
  | elapsed milliseconds => exact ⟨milliseconds, (Option.some.inj h).symm⟩
  | _ => cases h

end Performs

end WaslaCore.Http.PgRetryRecordStore
