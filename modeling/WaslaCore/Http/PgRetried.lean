import WaslaCore.Http.PgRetry
import WaslaCore.Interleaving.Founded

/-!
What the database decided, whatever order the statements came in. Under each key stands the claim
that was granted last, unless it was released, with the answer that was recorded for it, and every
statement was answered as that claim demands. The reference store, given the same requests one
after the other, decides the same.
-/

namespace WaslaCore.Http.PgRetryRecordStore

open Data Platform Interleaving

/-! ### The claim that stands -/

/-- A granted claim, and the answer that was recorded for it. -/
structure Standing where
  fingerprint : String
  token : String
  claimedAt : Int
  answer : Option (Int × Answer)

namespace Standing

def expired (standing : Standing) (now : Int) : Bool := standing.claimedAt + retentionMs ≤ now

/-- Whether the next request may take the key. -/
def freeAt (standing : Standing) (now : Int) : Bool :=
  standing.expired now ||
    standing.answer.isNone && decide (standing.claimedAt + claimHorizonMs ≤ now)

/-- Whether the token is the claim's, and nothing is recorded for it. -/
def heldBy (standing : Standing) (token : String) : Bool :=
  standing.token = token && standing.answer.isNone

/-- The row of a claim, where answers are stored by `store`. -/
def row (standing : Standing) (lookup : RetryLookup) (store : Answer → Answer) :
    RetryRecordRow where
  lookup := lookup
  requestFingerprint := standing.fingerprint
  state :=
    match standing.answer with
    | none => .claimed
    | some (completedAt, answer) => .completed completedAt (store answer)
  claimToken := standing.token
  claimedAt := standing.claimedAt
  createdAt := standing.claimedAt
  expiresAt := standing.claimedAt + retentionMs

end Standing

/-- What an entry makes of the claim under its key. -/
def Entry.leaves (entry : Entry) (standing : Option Standing) : Option Standing :=
  match entry with
  | .claimed _ fingerprint token now => some ⟨fingerprint, token, now, none⟩
  | .completed _ _ answer now true => standing.map ({ · with answer := some (now, answer) })
  | .released _ _ _ true => none
  | _ => standing

/-- The claim that stands under a key after the entries of a log. -/
def standing (lookup : RetryLookup) : List Entry → Option Standing
  | [] => none
  | entry :: earlier =>
      if entry.lookup = lookup then entry.leaves (standing lookup earlier)
      else standing lookup earlier

/-- What the claim under its key demands of an entry. -/
def Entry.Lawful (jsonb : Json → Json) (entry : Entry) (standing : Option Standing) : Prop :=
  match entry with
  | .claimed _ _ _ now => standing.all (·.freeAt now) = true
  | .refused _ _ now => standing.any (!·.freeAt now) = true
  | .found lookup now row =>
      row = (standing.filter (!·.expired now)).map (·.row lookup (recorded jsonb))
  | .completed _ token answer now applied =>
      applied = standing.any (fun claim => claim.heldBy token && !claim.expired now) ∧
        (applied = true → answer.succeeded = true)
  | .released _ token _ applied => applied = standing.any (·.heldBy token)

def Entry.granted : Entry → Option String
  | .claimed _ _ token _ => some token
  | _ => none

/-- Every entry is as the ones before it demand. -/
def AllLawful (jsonb : Json → Json) : List Entry → Prop
  | [] => True
  | entry :: earlier =>
      isColumns entry.lookup = true ∧ entry.Lawful jsonb (standing entry.lookup earlier) ∧
        AllLawful jsonb earlier

/-! ### The table is its log -/

structure Coherent (jsonb : Json → Json) (db : Database) : Prop where
  lawful : AllLawful jsonb db.log
  rows : ∀ lookup, db.rows lookup =
    (standing lookup db.log).map (·.row lookup (recorded jsonb))
  drawn : ∀ token ∈ db.log.filterMap Entry.granted, token ∈ db.drawn
  once : (db.log.filterMap Entry.granted).Nodup

section Statements

variable {jsonb : Json → Json} {db after : Database} {lookup : RetryLookup}

@[simp] theorem row_takeable (claim : Standing) (store : Answer → Answer) (now : Int) :
    takeable (claim.row lookup store) now = claim.freeAt now := by
  obtain ⟨fingerprint, token, claimedAt, answer⟩ := claim
  have hhorizon : decide (claimedAt ≤ now - claimHorizonMs) =
      decide (claimedAt + claimHorizonMs ≤ now) := decide_eq_decide.mpr (by omega)
  cases answer with
  | none => exact congrArg _ hhorizon
  | some answer => rfl

@[simp] theorem row_held (claim : Standing) (store : Answer → Answer) (token : String) :
    held (claim.row lookup store) token = claim.heldBy token := by
  obtain ⟨fingerprint, token', claimedAt, answer⟩ := claim
  cases answer with
  | none => exact (Bool.and_true _).symm
  | some answer => exact (Bool.and_false _).symm

@[simp] theorem row_live (claim : Standing) (store : Answer → Answer) (now : Int) :
    decide (now < (claim.row lookup store).expiresAt) = !claim.expired now := by
  change decide (now < claim.claimedAt + retentionMs) =
    !decide (claim.claimedAt + retentionMs ≤ now)
  rw [← decide_not]
  exact decide_eq_decide.mpr not_le.symm

/-- An entry and the row it leaves, on a coherent database. -/
theorem Coherent.step (h : Coherent jsonb db) (entry : Entry)
    (hcolumns : isColumns entry.lookup = true)
    (hlawful : entry.Lawful jsonb (standing entry.lookup db.log))
    {rows : RetryLookup → Option RetryRecordRow}
    (hrow : rows entry.lookup =
      (entry.leaves (standing entry.lookup db.log)).map (·.row entry.lookup (recorded jsonb)))
    (hothers : ∀ other, other ≠ entry.lookup → rows other = db.rows other)
    (hgranted : ∀ token, entry.granted = some token →
      token ∈ db.drawn ∧ token ∉ db.log.filterMap Entry.granted) :
    Coherent jsonb ⟨db.now, rows, db.drawn, entry :: db.log⟩ where
  lawful := ⟨hcolumns, hlawful, h.lawful⟩
  drawn := by
    intro token htoken
    obtain ⟨other, hother, hsome⟩ := List.mem_filterMap.mp htoken
    rcases List.mem_cons.mp hother with rfl | hold
    · exact (hgranted token hsome).1
    · exact h.drawn token (List.mem_filterMap.mpr ⟨other, hold, hsome⟩)
  once := by
    rw [List.filterMap_cons]
    cases hsome : entry.granted with
    | none => exact h.once
    | some token => exact List.nodup_cons.mpr ⟨(hgranted token hsome).2, h.once⟩
  rows := by
    intro other
    dsimp only
    rw [standing]
    by_cases hsame : entry.lookup = other
    · subst hsame
      rw [if_pos rfl, hrow]
    · rw [if_neg hsame, hothers other (Ne.symm hsame), h.rows]

/-- A statement that changes no row. -/
theorem Coherent.reads (h : Coherent jsonb db) (entry : Entry)
    (hcolumns : isColumns entry.lookup = true)
    (hlawful : entry.Lawful jsonb (standing entry.lookup db.log))
    (hleaves : entry.leaves (standing entry.lookup db.log) = standing entry.lookup db.log)
    (hnone : entry.granted = none) : Coherent jsonb (db.record entry) :=
  h.step entry hcolumns hlawful (by rw [hleaves, h.rows]) (fun _ _ => rfl)
    fun token htoken => by rw [hnone] at htoken; cases htoken

theorem Coherent.insert (h : Coherent jsonb db) (hcolumns : isColumns lookup = true)
    {fingerprint token : String} {now : Int} (hfresh : token ∉ db.drawn)
    {answer : Except Unit (Option String)}
    (hinsert : (answer, after) =
      insertRow { db with drawn := token :: db.drawn } lookup fingerprint token now) :
    Coherent jsonb after ∧ (∃ entry, after.log = entry :: db.log) ∧ after.now = db.now ∧
      (answer = .ok (some token) ∧ .claimed lookup fingerprint token now ∈ after.log ∨
        answer = .ok none ∧ .refused lookup fingerprint now ∈ after.log) := by
  have hdrawn : Coherent jsonb { db with drawn := token :: db.drawn } :=
    { h with drawn := fun other hother => List.mem_cons_of_mem _ (h.drawn other hother) }
  have hgranted : (standing lookup db.log).all (·.freeAt now) = true →
      Coherent jsonb (({ db with drawn := token :: db.drawn }.put lookup (some
        (Standing.row ⟨fingerprint, token, now, none⟩ lookup (recorded jsonb)))).record
          (.claimed lookup fingerprint token now)) := by
    intro hfree
    apply hdrawn.step (.claimed lookup fingerprint token now) hcolumns hfree
    · exact if_pos rfl
    · exact fun other hother => if_neg hother
    · rintro other ⟨⟩
      exact ⟨List.mem_cons_self, fun hold => hfresh (h.drawn token hold)⟩
  simp only [insertRow, h.rows] at hinsert
  cases hstanding : standing lookup db.log with
  | none =>
      rw [hstanding] at hinsert hgranted
      obtain ⟨rfl, rfl⟩ := Prod.mk.inj hinsert
      exact ⟨hgranted rfl, ⟨_, rfl⟩, rfl, .inl ⟨rfl, List.mem_cons_self⟩⟩
  | some claim =>
      simp only [hstanding, Option.map_some, row_takeable] at hinsert hgranted
      cases hfree : claim.freeAt now with
      | true =>
          rw [hfree, if_pos rfl] at hinsert
          obtain ⟨rfl, rfl⟩ := Prod.mk.inj hinsert
          exact ⟨hgranted (by simp [hfree]), ⟨_, rfl⟩, rfl, .inl ⟨rfl, List.mem_cons_self⟩⟩
      | false =>
          rw [hfree, if_neg Bool.false_ne_true] at hinsert
          obtain ⟨rfl, rfl⟩ := Prod.mk.inj hinsert
          refine ⟨hdrawn.reads (.refused lookup fingerprint now) hcolumns ?_ rfl rfl, ⟨_, rfl⟩, rfl,
            .inr ⟨rfl, List.mem_cons_self⟩⟩
          simp [Entry.Lawful, Entry.lookup, hstanding, hfree]

theorem Coherent.select (h : Coherent jsonb db) (hcolumns : isColumns lookup = true) {now : Int}
    {answer : Except Unit (Option RetryRecordRow)}
    (hselect : (answer, after) = selectRow db lookup now) :
    Coherent jsonb after ∧ (∃ entry, after.log = entry :: db.log) ∧ after.now = db.now ∧
      ∃ row, answer = .ok row ∧ .found lookup now row ∈ after.log := by
  obtain ⟨rfl, rfl⟩ := Prod.mk.inj hselect
  refine ⟨h.reads (.found lookup now _) hcolumns ?_ rfl rfl, ⟨_, rfl⟩, rfl, _, rfl,
    List.mem_cons_self⟩
  simp only [Entry.Lawful, Entry.lookup, h.rows]
  cases standing lookup db.log with
  | none => rfl
  | some claim => cases hexpired : claim.expired now <;> simp [Option.filter, hexpired]

theorem Coherent.update (h : Coherent jsonb db) (hcolumns : isColumns lookup = true)
    {token : String} {completed : Answer} {now : Int} {answer : Except Unit Bool}
    (hupdate : updateRow jsonb db lookup token completed now = some (answer, after)) :
    Coherent jsonb after ∧ (∃ entry, after.log = entry :: db.log) ∧ after.now = db.now ∧
      ∃ applied, answer = .ok applied ∧
        .completed lookup token completed now applied ∈ after.log := by
  have hmissed : (standing lookup db.log).any
        (fun claim => claim.heldBy token && !claim.expired now) = false →
      Coherent jsonb (db.record (.completed lookup token completed now false)) := by
    intro hnone
    exact h.reads (.completed lookup token completed now false) hcolumns
      ⟨hnone.symm, fun happlied => by cases happlied⟩ rfl rfl
  simp only [updateRow, h.rows] at hupdate
  cases hstanding : standing lookup db.log with
  | none =>
      rw [hstanding] at hupdate hmissed
      obtain ⟨rfl, rfl⟩ := Prod.mk.inj (Option.some.inj hupdate)
      exact ⟨hmissed rfl, ⟨_, rfl⟩, rfl, false, rfl, List.mem_cons_self⟩
  | some claim =>
      simp only [hstanding, Option.map_some, Option.filter, row_held, row_live] at hupdate hmissed
      cases hheld : claim.heldBy token && !claim.expired now with
      | false =>
          rw [hheld] at hupdate
          obtain ⟨rfl, rfl⟩ := Prod.mk.inj (Option.some.inj hupdate)
          exact ⟨hmissed (by simp [hheld]), ⟨_, rfl⟩, rfl, false, rfl, List.mem_cons_self⟩
      | true =>
          rw [hheld] at hupdate
          cases hsucceeded : completed.succeeded with
          | false => simp [hsucceeded] at hupdate
          | true =>
              simp only [hsucceeded, if_true] at hupdate
              obtain ⟨rfl, rfl⟩ := Prod.mk.inj (Option.some.inj hupdate)
              refine ⟨?_, ⟨_, rfl⟩, rfl, true, rfl, List.mem_cons_self⟩
              apply h.step (.completed lookup token completed now true) hcolumns
              · simp [Entry.Lawful, Entry.lookup, hstanding, hheld, hsucceeded]
              · simp [Database.put, Entry.lookup, Entry.leaves, hstanding, Standing.row]
              · exact fun other hother => if_neg hother
              · exact fun other hgranted => by cases hgranted

theorem Coherent.delete (h : Coherent jsonb db) (hcolumns : isColumns lookup = true)
    {token : String} {answer : Except Unit Bool}
    (hdelete : (answer, after) = deleteRow db lookup token) :
    Coherent jsonb after ∧ (∃ entry, after.log = entry :: db.log) ∧ after.now = db.now ∧
      ∃ applied, answer = .ok applied ∧ .released lookup token db.now applied ∈ after.log := by
  have hmissed : (standing lookup db.log).any (·.heldBy token) = false →
      Coherent jsonb (db.record (.released lookup token db.now false)) :=
    fun hnone => h.reads (.released lookup token db.now false) hcolumns hnone.symm rfl rfl
  simp only [deleteRow, h.rows] at hdelete
  cases hstanding : standing lookup db.log with
  | none =>
      rw [hstanding] at hdelete hmissed
      obtain ⟨rfl, rfl⟩ := Prod.mk.inj hdelete
      exact ⟨hmissed rfl, ⟨_, rfl⟩, rfl, false, rfl, List.mem_cons_self⟩
  | some claim =>
      simp only [hstanding, Option.map_some, Option.filter, row_held] at hdelete hmissed
      cases hheld : claim.heldBy token with
      | false =>
          rw [hheld] at hdelete
          obtain ⟨rfl, rfl⟩ := Prod.mk.inj hdelete
          exact ⟨hmissed (by simp [hheld]), ⟨_, rfl⟩, rfl, false, rfl, List.mem_cons_self⟩
      | true =>
          rw [hheld] at hdelete
          obtain ⟨rfl, rfl⟩ := Prod.mk.inj hdelete
          refine ⟨?_, ⟨_, rfl⟩, rfl, true, rfl, List.mem_cons_self⟩
          apply h.step (.released lookup token db.now true) hcolumns
          · simp [Entry.Lawful, Entry.lookup, hstanding, hheld]
          · exact if_pos rfl
          · exact fun other hother => if_neg hother
          · exact fun other hgranted => by cases hgranted

end Statements

/-! ### The reference store -/

/-- A row as the database gives it back. -/
def kept (jsonb : Json → Json) (row : RetryRecordRow) : RetryRecordRow :=
  match row.state with
  | .claimed => row
  | .completed completedAt answer =>
      { row with state := .completed completedAt (recorded jsonb answer) }

/-- What the reference store makes of an entry. A release that came upon an expired claim deleted
its row, where the reference would have left the row and answered that there was none. -/
def Agrees (jsonb : Json → Json) (records : RetryRecords) (after : RetryRecords) : Entry → Prop
  | .claimed lookup fingerprint token now =>
      records.claim now lookup fingerprint token = (.claimed token now, after)
  | .refused lookup fingerprint now =>
      after = records ∧ ∀ token, ∃ row, records.claim now lookup fingerprint token =
        (RetryRecords.occupied row fingerprint, records)
  | .found lookup now row =>
      after = records ∧ row = (records.live now lookup).map (kept jsonb)
  | .completed lookup token answer now applied =>
      records.complete now lookup token answer = (applied, after)
  | .released lookup token now applied =>
      records.release now lookup token = (applied, after) ∨
        applied = true ∧ after = records.erase lookup.id ∧ ∃ row, records.get lookup.id = some row ∧
          row.state = .claimed ∧ row.claimToken = token ∧ row.expiresAt ≤ now

/-- The reference store's records after the entries of a log, one after the other. -/
inductive Replayed (jsonb : Json → Json) : List Entry → RetryRecords → Prop where
  | nil : Replayed jsonb [] .empty
  | cons {log records entry after} (h : Replayed jsonb log records)
      (hagrees : Agrees jsonb records after entry) : Replayed jsonb (entry :: log) after

/-- The records and the claims that stand, under the keys that columns can hold. -/
def Records (records : RetryRecords) (log : List Entry) : Prop :=
  ∀ lookup, isColumns lookup = true →
    records.get lookup.id = (standing lookup log).map (·.row lookup id)

section Reference

variable {jsonb : Json → Json} {records : RetryRecords} {log : List Entry}
variable {lookup other : RetryLookup}

theorem separated_inj {first second rest rest' : List Char} (hfirst : '\x00' ∉ first)
    (hsecond : '\x00' ∉ second) (h : first ++ '\x00' :: rest = second ++ '\x00' :: rest') :
    first = second ∧ rest = rest' := by
  have htaken : ∀ taken rest : List Char, '\x00' ∉ taken →
      (taken ++ '\x00' :: rest).takeWhile (fun character => decide (character ≠ '\x00')) =
        taken := by
    intro taken rest htaken
    rw [List.takeWhile_append_of_pos, List.takeWhile_cons_of_neg (by simp), List.append_nil]
    intro character hcharacter
    exact decide_eq_true fun hsame => htaken (hsame ▸ hcharacter)
  have hsame : first = second := by
    rw [← htaken first rest hfirst, h, htaken second rest' hsecond]
  subst hsame
  exact ⟨rfl, (List.cons.inj (List.append_cancel_left h)).2⟩

/-- The map key of the reference store tells the columns apart. -/
theorem id_inj (hlookup : isColumns lookup = true) (hother : isColumns other = true)
    (h : lookup.id = other.id) : lookup = other := by
  obtain ⟨key, method, scope⟩ := lookup
  obtain ⟨key', method', scope'⟩ := other
  simp only [isColumns, isText, Bool.and_eq_true, List.all_eq_true, decide_eq_true_eq]
    at hlookup hother
  have hid := congrArg String.toList h
  simp only [RetryLookup.id, String.toList_append, List.append_assoc] at hid
  obtain ⟨hmethod, hrest⟩ := separated_inj (fun hmember => hlookup.1.1 _ hmember rfl)
    (fun hmember => hother.1.1 _ hmember rfl) hid
  obtain ⟨hscope, hkey⟩ := separated_inj (fun hmember => hlookup.1.2 _ hmember rfl)
    (fun hmember => hother.1.2 _ hmember rfl) hrest
  rw [String.toList_inj.mp hmethod, String.toList_inj.mp hscope, String.toList_inj.mp hkey]

theorem Records.live (h : Records records log) (hlookup : isColumns lookup = true) (now : Int) :
    records.live now lookup =
      ((standing lookup log).filter (!·.expired now)).map (·.row lookup id) := by
  unfold RetryRecords.live
  rw [h lookup hlookup]
  cases standing lookup log with
  | none => rfl
  | some claim =>
      have hexpired : (claim.row lookup id).expiresAt ≤ now ↔ claim.expired now = true :=
        decide_eq_true_iff.symm
      cases hcase : claim.expired now <;> simp [Option.filter, hexpired, hcase]

theorem row_abandoned (claim : Standing) (now : Int) :
    RetryRecords.isAbandoned (claim.row lookup id) now =
      (claim.answer.isNone && decide (claim.claimedAt + claimHorizonMs ≤ now)) := by
  obtain ⟨fingerprint, token, claimedAt, answer⟩ := claim
  cases answer with
  | none => rfl
  | some answer => rfl

theorem rows_kept (claim : Option Standing) :
    (claim.map (·.row lookup id)).map (kept jsonb) = claim.map (·.row lookup (recorded jsonb)) := by
  cases claim with
  | none => rfl
  | some claim =>
      obtain ⟨fingerprint, token, claimedAt, answer⟩ := claim
      cases answer with
      | none => rfl
      | some answer => rfl

theorem Records.holding (h : Records records log) (hlookup : isColumns lookup = true) (now : Int)
    (token : String) : records.holding now lookup token =
      ((standing lookup log).filter fun claim => claim.heldBy token && !claim.expired now).map
        (·.row lookup id) := by
  unfold RetryRecords.holding
  rw [h.live hlookup]
  cases standing lookup log with
  | none => rfl
  | some claim =>
      obtain ⟨fingerprint, token', claimedAt, answer⟩ := claim
      cases hexpired : Standing.expired ⟨fingerprint, token', claimedAt, answer⟩ now with
      | true => simp [Option.filter, hexpired]
      | false =>
          cases answer with
          | some answer => simp [Option.filter, hexpired, Standing.heldBy, Standing.row]
          | none =>
              by_cases htoken : token' = token
              · subst htoken
                simp [Option.filter, hexpired, Standing.heldBy, Standing.row]
              · simp [Option.filter, hexpired, Standing.heldBy, Standing.row, htoken]

/-- An entry that leaves its key as it is. -/
theorem Records.stay (h : Records records log) {entry : Entry}
    (hleaves : entry.leaves (standing entry.lookup log) = standing entry.lookup log) :
    Records records (entry :: log) := by
  intro lookup hlookup
  rw [h lookup hlookup, standing]
  split
  · rename_i hsame
    rw [← hsame, hleaves]
  · rfl

/-- An entry that writes its key. -/
theorem Records.write (h : Records records log) {entry : Entry} {after : RetryRecords}
    (hcolumns : isColumns entry.lookup = true)
    (hafter : ∀ key, after.get key = if entry.lookup.id = key then
      (entry.leaves (standing entry.lookup log)).map (·.row entry.lookup id) else records.get key) :
    Records after (entry :: log) := by
  intro lookup hlookup
  rw [hafter, standing]
  by_cases hsame : entry.lookup = lookup
  · subst hsame
    rw [if_pos rfl, if_pos rfl]
  · rw [if_neg (fun hkey => hsame (id_inj hcolumns hlookup hkey)), if_neg hsame, h lookup hlookup]

/-- The reference store agrees with a lawful entry. -/
theorem Records.agrees (h : Records records log) {entry : Entry}
    (hcolumns : isColumns entry.lookup = true)
    (hlawful : entry.Lawful jsonb (standing entry.lookup log)) :
    ∃ after, Agrees jsonb records after entry ∧ Records after (entry :: log) := by
  cases entry with
  | claimed lookup fingerprint token now =>
      have hlive := h.live hcolumns now
      refine ⟨records.put lookup.id (RetryRecords.claimRow now lookup fingerprint token), ?_,
        h.write hcolumns fun key => Table.get_put ..⟩
      simp only [Agrees, RetryRecords.claim, Entry.lookup] at hlive ⊢
      rw [hlive]
      simp only [Entry.Lawful, Entry.lookup] at hlawful
      cases hstanding : standing lookup log with
      | none => rfl
      | some claim =>
          cases hexpired : claim.expired now with
          | true => simp [Option.filter, hexpired]
          | false =>
              have habandoned : RetryRecords.isAbandoned (claim.row lookup id) now = true := by
                rw [row_abandoned]
                simpa [hstanding, Standing.freeAt, hexpired] using hlawful
              simp [Option.filter, hexpired, habandoned]
  | refused lookup fingerprint now =>
      refine ⟨records, ⟨rfl, fun token => ?_⟩, h.stay rfl⟩
      have hlive := h.live hcolumns now
      simp only [Entry.Lawful, Entry.lookup] at hlawful hlive
      cases hstanding : standing lookup log with
      | none => simp [hstanding] at hlawful
      | some claim =>
          have hfree : claim.freeAt now = false := by simpa [hstanding] using hlawful
          obtain ⟨hexpired, hheld⟩ := Bool.or_eq_false_iff.mp hfree
          refine ⟨claim.row lookup id, ?_⟩
          rw [RetryRecords.claim, hlive, hstanding]
          simp [Option.filter, hexpired, row_abandoned, hheld]
  | found lookup now row =>
      refine ⟨records, ⟨rfl, ?_⟩, h.stay rfl⟩
      have hlive := h.live hcolumns now
      simp only [Entry.Lawful, Entry.lookup] at hlawful hlive
      rw [hlawful, hlive, rows_kept]
  | completed lookup token answer now applied =>
      have hholding := h.holding hcolumns now token
      simp only [Entry.Lawful, Entry.lookup] at hlawful hholding
      obtain ⟨happlied, -⟩ := hlawful
      cases hstanding : standing lookup log with
      | none =>
          simp only [hstanding, Option.any_none] at happlied
          subst happlied
          exact ⟨records, by simp [Agrees, RetryRecords.complete, hholding, hstanding], h.stay rfl⟩
      | some claim =>
          simp only [hstanding, Option.any_some] at happlied
          simp only [hstanding, Option.filter, ← happlied] at hholding
          cases applied with
          | false =>
              exact ⟨records, by simp [Agrees, RetryRecords.complete, hholding], h.stay rfl⟩
          | true =>
              refine ⟨_, by simp [Agrees, RetryRecords.complete, hholding]; rfl, ?_⟩
              apply h.write hcolumns
              intro key
              simp [Table.get_put, Entry.lookup, Entry.leaves, hstanding, Standing.row]
  | released lookup token now applied =>
      have hholding := h.holding hcolumns now token
      simp only [Entry.Lawful, Entry.lookup] at hlawful hholding
      cases hstanding : standing lookup log with
      | none =>
          simp only [hstanding, Option.any_none] at hlawful
          subst hlawful
          exact ⟨records, .inl (by simp [RetryRecords.release, hholding, hstanding]), h.stay rfl⟩
      | some claim =>
          simp only [hstanding, Option.any_some] at hlawful
          simp only [hstanding, Option.filter, ← hlawful] at hholding
          cases applied with
          | false =>
              exact ⟨records, .inl (by simp [RetryRecords.release, hholding]), h.stay rfl⟩
          | true =>
              refine ⟨records.erase lookup.id, ?_, h.write hcolumns fun key => Table.get_erase ..⟩
              cases hexpired : claim.expired now with
              | false => exact .inl (by simp [RetryRecords.release, hholding, hexpired])
              | true =>
                  obtain ⟨fingerprint, token', claimedAt, answer⟩ := claim
                  obtain ⟨htoken, hopen⟩ := Bool.and_eq_true_iff.mp hlawful.symm
                  cases answer with
                  | some answer => cases hopen
                  | none =>
                      have hrow := h lookup hcolumns
                      rw [hstanding] at hrow
                      exact .inr ⟨rfl, rfl, _, hrow, rfl, of_decide_eq_true htoken,
                        of_decide_eq_true (p := claimedAt + retentionMs ≤ now) hexpired⟩

/-- Whatever log is lawful, the reference store would have decided the same. -/
theorem AllLawful.replayed (h : AllLawful jsonb log) :
    ∃ records, Replayed jsonb log records ∧ Records records log := by
  induction log with
  | nil => exact ⟨.empty, .nil, fun _ _ => rfl⟩
  | cons entry earlier ih =>
      obtain ⟨hcolumns, hlawful, hearlier⟩ := h
      obtain ⟨records, hreplayed, hrecords⟩ := ih hearlier
      obtain ⟨after, hagrees, hafter⟩ := hrecords.agrees hcolumns hlawful
      exact ⟨after, hreplayed.cons hagrees, hafter⟩

end Reference

/-! ### What a call is told -/

/-- What a statement's answer goes on telling of the database. -/
def Known : (statement : Statement) → statement.Answer → Database → Prop
  | .clock, (now : Int), db => now ≤ db.now
  | .insert lookup fingerprint now, .ok (some token), db =>
      .claimed lookup fingerprint token now ∈ db.log
  | .insert lookup fingerprint now, .ok none, db => .refused lookup fingerprint now ∈ db.log
  | .select lookup now, .ok row, db => .found lookup now row ∈ db.log
  | .update lookup token answer now, .ok applied, db =>
      .completed lookup token answer now applied ∈ db.log
  | .delete lookup token, .ok applied, db => ∃ now, .released lookup token now applied ∈ db.log
  | _, _, _ => True

/-- An instant that a call read is none from before it started. -/
def Told (base : Database) : (statement : Statement) → statement.Answer → Prop
  | .clock, (now : Int) => base.now ≤ now
  | _, _ => True

/-- The statements that a reply rests on. -/
def Rests (seen : History Statement Statement.Answer) : Request → Reply → Prop
  | .find lookup, .found row =>
      ∃ now : Int, ⟨.clock, now⟩ ∈ seen ∧ ⟨.select lookup now, .ok row⟩ ∈ seen
  | .claim lookup fingerprint, .outcome outcome =>
      ∃ now : Int, ⟨.clock, now⟩ ∈ seen ∧
        ((∃ token, ⟨.insert lookup fingerprint now, .ok (some token)⟩ ∈ seen ∧
            outcome = .claimed token now) ∨
          ∃ (later : Int) (row : Option RetryRecordRow),
            ⟨.insert lookup fingerprint now, .ok none⟩ ∈ seen ∧ ⟨.clock, later⟩ ∈ seen ∧
              ⟨.select lookup later, .ok row⟩ ∈ seen ∧ outcome = whyRefused now fingerprint row)
  | .complete lookup token answer, .applied applied =>
      ∃ now : Int, ⟨.clock, now⟩ ∈ seen ∧ ⟨.update lookup token answer now, .ok applied⟩ ∈ seen
  | .release lookup token, .applied applied => ⟨.delete lookup token, .ok applied⟩ ∈ seen
  | _, _ => False

def conduct : Discipline Statement Statement.Answer where
  told := fun _ _ => True
  owed := fun _ _ => True

theorem keeps_serve (request : Request) :
    Keeps conduct (fun seen result => ∀ reply, result = .ok reply → Rests seen request reply)
      (serve request) [] := by
  have hfailed : ∀ {seen : History Statement Statement.Answer} {failure : Unit} (reply : Reply),
      (.error failure : Except Unit Reply) = .ok reply → Rests seen request reply := by
    intro seen failure reply h
    cases h
  cases request with
  | find lookup =>
      refine ⟨trivial, fun (now : Int) _ => ⟨trivial, fun answer _ => ?_⟩⟩
      cases answer with
      | error failure => exact hfailed
      | ok row =>
          rintro reply ⟨⟩
          exact ⟨now, by simp, by simp⟩
  | claim lookup fingerprint =>
      refine ⟨trivial, fun (now : Int) _ => ⟨trivial, fun answer _ => ?_⟩⟩
      cases answer with
      | error failure => exact hfailed
      | ok token =>
          cases token with
          | some token =>
              rintro reply ⟨⟩
              exact ⟨now, by simp, .inl ⟨token, by simp, rfl⟩⟩
          | none =>
              refine ⟨trivial, fun (later : Int) _ => ⟨trivial, fun answer _ => ?_⟩⟩
              cases answer with
              | error failure => exact hfailed
              | ok row =>
                  rintro reply ⟨⟩
                  exact ⟨now, by simp, .inr ⟨later, row, by simp, by simp, by simp, rfl⟩⟩
  | complete lookup token answer =>
      refine ⟨trivial, fun (now : Int) _ => ⟨trivial, fun answer _ => ?_⟩⟩
      cases answer with
      | error failure => exact hfailed
      | ok applied =>
          rintro reply ⟨⟩
          exact ⟨now, by simp, by simp⟩
  | release lookup token =>
      refine ⟨trivial, fun answer _ => ?_⟩
      cases answer with
      | error failure => exact hfailed
      | ok applied =>
          rintro reply ⟨⟩
          exact List.mem_singleton_self _

/-- The log only grows, and time only passes. -/
structure Grows (db after : Database) : Prop where
  log : ∀ entry ∈ db.log, entry ∈ after.log
  now : db.now ≤ after.now

theorem Grows.refl (db : Database) : Grows db db := ⟨fun _ hentry => hentry, le_refl _⟩

theorem Grows.trans {db middle after : Database} (h : Grows db middle) (h' : Grows middle after) :
    Grows db after :=
  ⟨fun entry hentry => h'.log entry (h.log entry hentry), h.now.trans h'.now⟩

theorem Known.stable {statement : Statement} {answer : statement.Answer} {db after : Database}
    (hgrows : Grows db after) (h : Known statement answer db) : Known statement answer after := by
  cases statement with
  | clock => exact Int.le_trans h hgrows.now
  | insert lookup fingerprint now =>
      cases answer with
      | error failure => trivial
      | ok token =>
          cases token with
          | some token => exact hgrows.log _ h
          | none => exact hgrows.log _ h
  | select lookup now =>
      cases answer with
      | error failure => trivial
      | ok row => exact hgrows.log _ h
  | update lookup token completed now =>
      cases answer with
      | error failure => trivial
      | ok applied => exact hgrows.log _ h
  | delete lookup token =>
      cases answer with
      | error failure => trivial
      | ok applied =>
          obtain ⟨now, hentry⟩ := h
          exact ⟨now, hgrows.log _ hentry⟩

def decided (jsonb : Json → Json) (base : Database) :
    Contract Database Statement Statement.Answer where
  told := Told base
  owed := conduct.owed
  inv := fun db => Coherent jsonb db ∧ Grows base db
  guar := Grows
  guar_refl := Grows.refl
  guar_trans := fun h h' => h.trans h'
  known := Known
  known_stable := fun hgrows h => h.stable hgrows

/-- The calls draw no tokens of their own. -/
def unspent : Tokens Statement Statement.Answer Unit := ⟨fun _ _ => [], fun _ => none⟩

theorem grows_of_entry {db after : Database} (hlog : ∃ entry, after.log = entry :: db.log)
    (hnow : after.now = db.now) : Grows db after := by
  obtain ⟨entry, hlog⟩ := hlog
  exact ⟨fun other hother => hlog ▸ List.mem_cons_of_mem _ hother, hnow.ge⟩

theorem decided_act {jsonb : Json → Json} {base db after : Database} {statement : Statement}
    {choice : Choice} {answer : statement.Answer} (h : Coherent jsonb db) (hbase : Grows base db)
    (hperform : perform jsonb statement choice db = some (answer, after)) :
    Told base statement answer ∧ Coherent jsonb after ∧ Grows db after ∧
      Known statement answer after := by
  cases statement with
  | clock =>
      obtain ⟨rfl, rfl⟩ := perform_clock hperform
      exact ⟨hbase.now, h, .refl _, Int.le_refl _⟩
  | insert lookup fingerprint now =>
      rcases perform_insert hperform with ⟨rfl, rfl⟩ | ⟨token, hcolumns, hfresh, hinsert⟩
      · exact ⟨trivial, h, .refl _, trivial⟩
      · obtain ⟨hafter, hlog, hnow, ⟨rfl, hentry⟩ | ⟨rfl, hentry⟩⟩ :=
          h.insert hcolumns hfresh hinsert
        · exact ⟨trivial, hafter, grows_of_entry hlog hnow, hentry⟩
        · exact ⟨trivial, hafter, grows_of_entry hlog hnow, hentry⟩
  | select lookup now =>
      rcases perform_select hperform with ⟨rfl, rfl⟩ | ⟨hcolumns, hselect⟩
      · exact ⟨trivial, h, .refl _, trivial⟩
      · obtain ⟨hafter, hlog, hnow, row, rfl, hentry⟩ := h.select hcolumns hselect
        exact ⟨trivial, hafter, grows_of_entry hlog hnow, hentry⟩
  | update lookup token completed now =>
      rcases perform_update hperform with ⟨rfl, rfl⟩ | ⟨hcolumns, hupdate⟩
      · exact ⟨trivial, h, .refl _, trivial⟩
      · obtain ⟨hafter, hlog, hnow, applied, rfl, hentry⟩ := h.update hcolumns hupdate
        exact ⟨trivial, hafter, grows_of_entry hlog hnow, hentry⟩
  | delete lookup token =>
      rcases perform_delete hperform with ⟨rfl, rfl⟩ | ⟨hcolumns, hdelete⟩
      · exact ⟨trivial, h, .refl _, trivial⟩
      · obtain ⟨hafter, hlog, hnow, applied, rfl, hentry⟩ := h.delete hcolumns hdelete
        exact ⟨trivial, hafter, grows_of_entry hlog hnow, _, hentry⟩

theorem decided_founded (jsonb : Json → Json) : Founded (database jsonb) requests unspent
    (fun _ _ => True) (fun _ _ => True) (fun _ _ => False) conduct (decided jsonb) where
  minted := ⟨fun _ => ⟨List.nodup_nil, fun _ h => by cases h⟩, fun _ _ h => h,
    fun _ _ _ h => .inl h, fun _ _ => ⟨fun h => h, fun h => h⟩⟩
  keeps := by
    rintro call ⟨request, rfl⟩
    exact (keeps_serve request).mono fun _ _ _ => trivial
  free := fun _ _ => trivial
  spends := fun _ _ _ _ h => by cases h
  owed := fun _ _ _ => Iff.rfl
  known := fun h _ => h
  rebase := by
    intro base db hinv
    refine ⟨⟨hinv.1, .refl _⟩, ?_⟩
    intro statement answer htold
    cases statement with
    | clock => exact Int.le_trans hinv.2.now htold
    | _ => trivial
  lawful := fun _ _ _ => trivial
  act := by
    intro base seen statement choice answer db after hinv _ _ _ hperform
    obtain ⟨htold, hafter, hgrows, hknown⟩ := decided_act hinv.1 hinv.2 hperform
    exact ⟨htold, ⟨hafter, hinv.2.trans hgrows⟩, hgrows, hknown⟩
  tick := by
    intro base choice db after hinv htick
    obtain ⟨milliseconds, rfl⟩ := tick_ok htick
    have hgrows : Grows db { db with now := db.now + milliseconds } :=
      ⟨fun _ hentry => hentry, by simp⟩
    exact ⟨⟨{ hinv.1 with }, hinv.2.trans hgrows⟩, hgrows⟩

/-! ### Results -/

abbrev RetryWorld := World Database Statement Statement.Answer Unit Reply

def twinKey : RetryLookup := ⟨"key", "POST", "/v1/organizations"⟩

def twin : Request := .claim twinKey "print"

/-- One of two identical requests is granted the key. -/
def first : List (Move Statement Statement.Answer Choice Unit Reply) :=
  .start (serve twin) :: acts 0 [.proceed, .drawn "first"]

/-- The other one is refused it, and is told why after the first one's answer was recorded. -/
def second : List (Move Statement Statement.Answer Choice Unit Reply) :=
  acts 1 [.proceed, .drawn "second"] ++
    .start (serve (.complete twinKey "first" ⟨201, .null⟩)) :: acts 2 [.proceed, .proceed] ++
    acts 1 [.proceed, .proceed]

def Reply.record? : Reply → Option (RetryRecordRow × Answer)
  | .outcome (.completed record answer) => some (record, answer)
  | _ => none

theorem Reply.record?_some {reply : Reply} {record : RetryRecordRow} {answer : Answer}
    (h : reply.record? = some (record, answer)) : reply = .outcome (.completed record answer) := by
  unfold Reply.record? at h
  split at h
  · obtain ⟨rfl, rfl⟩ := Prod.mk.inj (Option.some.inj h)
    rfl
  · cases h

theorem twins_race : ∃ (world world' : RetryWorld)
    (task : Task Statement Statement.Answer Unit Reply) (record : RetryRecordRow) (answer : Answer),
    Run (database id) requests anything (World.initial (.empty 0)) world ∧
    Run (database id) requests anything ⟨world.store, world.tasks ++ [⟨[], serve twin⟩]⟩ world' ∧
    world'.tasks[world.tasks.length]? = some task ∧
    task.rest = .done (.outcome (.completed record answer)) := by
  have hplays : (play (database id) unrestricted first (World.initial (.empty 0))).any (fun world =>
      (play (database id) unrestricted second
        ⟨world.store, world.tasks ++ [⟨[], serve twin⟩]⟩).any fun world' =>
          (world'.returned world.tasks.length).any fun reply => reply.record?.isSome) = true := by
    decide +kernel
  obtain ⟨world, hworld, hplays⟩ := (Option.any_eq_true _ _).mp hplays
  obtain ⟨world', hworld', hplays⟩ := (Option.any_eq_true _ _).mp hplays
  obtain ⟨reply, hreply, hplays⟩ := (Option.any_eq_true _ _).mp hplays
  obtain ⟨⟨record, answer⟩, hrecord⟩ := Option.isSome_iff_exists.mp hplays
  obtain ⟨task, htask, hdone⟩ := World.returned_some hreply
  refine ⟨world, world', task, record, answer, ?_, ?_, htask, ?_⟩
  · apply play_run hworld ?_ fun _ _ _ _ => trivial
    simp [first, acts, requests]
  · apply play_run hworld' ?_ fun _ _ _ _ => trivial
    simp [second, acts, requests]
  · rw [hdone, Reply.record?_some hrecord]

section Results

variable {jsonb : Json → Json} {start : Int} {world world' : RetryWorld}

theorem reached
    (hrun : Run (database jsonb) requests anything (World.initial (.empty start)) world) :
    Founded.Reached unspent (fun _ _ => True) (fun _ _ => False) (decided jsonb)
      (Database.empty start) world := by
  have hempty : Coherent jsonb (.empty start) :=
    ⟨trivial, fun _ => rfl, by simp [Database.empty], List.nodup_nil⟩
  exact ((decided_founded jsonb).run
    (Founded.initial ⟨hempty, .refl _⟩ fun _ h => by cases h) hrun).2

theorem call_rests
    (hreach : Run (database jsonb) requests anything (World.initial (.empty start)) world)
    {request : Request}
    (hrun : Run (database jsonb) requests anything
      ⟨world.store, world.tasks ++ [⟨[], serve request⟩]⟩ world')
    {task : Task Statement Statement.Answer Unit Reply} {reply : Reply}
    (htask : world'.tasks[world.tasks.length]? = some task) (hdone : task.rest = .done reply) :
    Coherent jsonb world'.store ∧ Rests task.seen request reply ∧ ∀ entry ∈ task.seen,
      Told world.store entry.1 entry.2 ∧ Known entry.1 entry.2 world'.store := by
  obtain ⟨hend, hknown, hinv⟩ := (decided_founded jsonb).follows (reached hreach) ⟨request, rfl⟩
    (keeps_serve request) hrun htask
  rw [hdone] at hend
  exact ⟨hinv.1, hend.1 reply rfl, fun entry hentry => ⟨hend.2 entry hentry, hknown entry hentry⟩⟩

/-- However the statements of its calls interleave, the database decides as the reference store
does: given the logged requests one after the other, the reference grants, refuses, completes and
releases the same, and ends with the same rows. Every reply rests on logged statements, at instants
that the call itself read. -/
theorem pg_refines_reference
    (hreach : Run (database jsonb) requests anything (World.initial (.empty start)) world)
    {request : Request}
    (hrun : Run (database jsonb) requests anything
      ⟨world.store, world.tasks ++ [⟨[], serve request⟩]⟩ world')
    {task : Task Statement Statement.Answer Unit Reply} {reply : Reply}
    (htask : world'.tasks[world.tasks.length]? = some task) (hdone : task.rest = .done reply) :
    (∃ records, Replayed jsonb world'.store.log records ∧
      ∀ lookup, isColumns lookup = true →
        world'.store.rows lookup = (records.get lookup.id).map (kept jsonb)) ∧
    Rests task.seen request reply ∧ ∀ entry ∈ task.seen,
      Told world.store entry.1 entry.2 ∧ Known entry.1 entry.2 world'.store := by
  obtain ⟨hcoherent, hrests⟩ := call_rests hreach hrun htask hdone
  obtain ⟨records, hreplayed, hrecords⟩ := hcoherent.lawful.replayed
  refine ⟨⟨records, hreplayed, fun lookup hlookup => ?_⟩, hrests⟩
  rw [hcoherent.rows, hrecords lookup hlookup, rows_kept]

/-- Two requests race for a key. -/
theorem twins_refine_reference : ∃ (world' : RetryWorld) (records : RetryRecords),
    Replayed id world'.store.log records ∧ ∀ lookup, isColumns lookup = true →
      world'.store.rows lookup = (records.get lookup.id).map (kept id) := by
  obtain ⟨world, world', task, record, answer, hreach, hrun, htask, hdone⟩ := twins_race
  exact ⟨world', (pg_refines_reference hreach hrun htask hdone).1⟩

theorem AllLawful.older {newer older : List Entry} (h : AllLawful jsonb (newer ++ older)) :
    AllLawful jsonb older := by
  induction newer with
  | nil => exact h
  | cons entry rest ih => exact ih h.2.2

/-- From one grant on, up to the next: the claim stands, unless it was released. -/
theorem AllLawful.stands {between older : List Entry} {lookup : RetryLookup}
    {fingerprint token : String} {now : Int}
    (h : AllLawful jsonb (between ++ .claimed lookup fingerprint token now :: older))
    (hbetween : ∀ entry ∈ between, entry.lookup = lookup → entry.granted = none) :
    (∃ later, .released lookup token later true ∈ between) ∨ ∃ answer,
      standing lookup (between ++ .claimed lookup fingerprint token now :: older) =
        some ⟨fingerprint, token, now, answer⟩ ∧
      (answer = none →
        ∀ completed later, .completed lookup token completed later true ∉ between) := by
  induction between with
  | nil => exact .inr ⟨none, by simp [standing, Entry.lookup, Entry.leaves], by simp⟩
  | cons entry rest ih =>
      rcases ih h.2.2 fun other hother => hbetween other (List.mem_cons_of_mem _ hother) with
        ⟨later, hreleased⟩ | ⟨answer, hstanding, hnone⟩
      · exact .inl ⟨later, List.mem_cons_of_mem _ hreleased⟩
      · rw [List.cons_append, standing]
        by_cases hsame : entry.lookup = lookup
        · rw [if_pos hsame, hstanding]
          have hlawful : entry.Lawful jsonb
              (standing entry.lookup (rest ++ .claimed lookup fingerprint token now :: older)) :=
            h.2.1
          rw [hsame, hstanding] at hlawful
          have hother : ∀ entry' completed later,
              entry' ≠ Entry.completed lookup token completed later true → answer = none →
                Entry.completed lookup token completed later true ∉ entry' :: rest :=
            fun entry' completed later hne hopen hmember =>
              (List.mem_cons.mp hmember).elim (fun heq => hne heq.symm)
                (hnone hopen completed later)
          cases entry with
          | claimed lookup' fingerprint' token' now' =>
              have hgranted := hbetween _ List.mem_cons_self hsame
              cases hgranted
          | completed lookup' token' completed later applied =>
              cases applied with
              | true => exact .inr ⟨some (later, completed), rfl, fun hopen => by cases hopen⟩
              | false => exact .inr ⟨answer, rfl, fun hopen completed' later' =>
                  hother _ completed' later' (by simp) hopen⟩
          | released lookup' token' later applied =>
              cases applied with
              | true =>
                  obtain ⟨htoken, -⟩ := Bool.and_eq_true_iff.mp hlawful.symm
                  have htoken : token = token' := of_decide_eq_true htoken
                  subst htoken
                  subst hsame
                  exact .inl ⟨later, List.mem_cons_self⟩
              | false => exact .inr ⟨answer, rfl, fun hopen completed' later' =>
                  hother _ completed' later' (by simp) hopen⟩
          | _ => exact .inr ⟨answer, rfl, fun hopen completed' later' =>
              hother _ completed' later' (by simp) hopen⟩
        · rw [if_neg hsame, hstanding]
          refine .inr ⟨answer, rfl, fun hopen completed later hmember => ?_⟩
          rcases List.mem_cons.mp hmember with rfl | hold
          · exact hsame rfl
          · exact hnone hopen completed later hold

/-- Between one grant of a key and the next, the first claim was released under its own token, or
its record expired, or it was held past the horizon with no answer recorded for it. -/
theorem pg_claims_exclusive
    (hrun : Run (database jsonb) requests anything (World.initial (.empty start)) world)
    {newer between older : List Entry} {lookup : RetryLookup}
    {fingerprint token fingerprint' token' : String} {now now' : Int}
    (hlog : world.store.log = newer ++ .claimed lookup fingerprint' token' now' ::
      (between ++ .claimed lookup fingerprint token now :: older))
    (hbetween : ∀ entry ∈ between, entry.lookup = lookup → entry.granted = none) :
    token' ≠ token ∧ ((∃ later, .released lookup token later true ∈ between) ∨
      now + retentionMs ≤ now' ∨ now + claimHorizonMs ≤ now' ∧
        ∀ completed later, .completed lookup token completed later true ∉ between) := by
  have hcoherent := (reached hrun).kept.inv.1
  have hlawful := hcoherent.lawful
  rw [hlog] at hlawful
  obtain ⟨-, hgrant, hearlier⟩ := hlawful.older
  constructor
  · rintro rfl
    have honce := hcoherent.once
    rw [hlog] at honce
    simp [Entry.granted, List.nodup_append] at honce
  · rcases hearlier.stands hbetween with hreleased | ⟨answer, hstanding, hopen⟩
    · exact .inl hreleased
    · rw [Entry.Lawful, Entry.lookup, hstanding] at hgrant
      rcases Bool.or_eq_true_iff.mp hgrant with hexpired | habandoned
      · exact .inr (.inl (of_decide_eq_true hexpired))
      · obtain ⟨hnone, hhorizon⟩ := Bool.and_eq_true_iff.mp habandoned
        exact .inr (.inr ⟨of_decide_eq_true hhorizon, hopen (Option.isNone_iff_eq_none.mp hnone)⟩)

def grantedTwice : List Entry → Bool
  | [.claimed lookup' _ _ _, .claimed lookup _ _ _] => lookup' = twinKey && lookup = twinKey
  | _ => false

/-- The second request comes a minute later, and takes the key over. -/
theorem takeover_exclusive : ∃ (token token' : String) (now now' : Int), token' ≠ token ∧
    ((∃ later, .released twinKey token later true ∈ ([] : List Entry)) ∨
      now + retentionMs ≤ now' ∨ now + claimHorizonMs ≤ now' ∧
        ∀ completed later, .completed twinKey token completed later true ∉ ([] : List Entry)) := by
  have hplays : (play (database id) unrestricted (first ++ .tick (.elapsed 60000) ::
      .start (serve twin) :: acts 1 [.proceed, .drawn "second"]) (World.initial (.empty 0))).any
        (fun world => grantedTwice world.store.log) = true := by
    decide +kernel
  obtain ⟨world, hworld, htwice⟩ := (Option.any_eq_true _ _).mp hplays
  have hrun : Run (database id) requests anything (World.initial (.empty 0)) world := by
    apply play_run hworld ?_ fun _ _ _ _ => trivial
    simp [first, acts, requests]
  unfold grantedTwice at htwice
  split at htwice
  · rename_i lookup' fingerprint' token' now' lookup fingerprint token now hlog
    obtain ⟨hlookup', hlookup⟩ := Bool.and_eq_true_iff.mp htwice
    obtain rfl := of_decide_eq_true hlookup'
    obtain rfl := of_decide_eq_true hlookup
    have hentries : world.store.log = [] ++ .claimed twinKey fingerprint' token' now' ::
        ([] ++ .claimed twinKey fingerprint token now :: []) := hlog
    exact ⟨token, token', now, now', pg_claims_exclusive hrun hentries (by simp)⟩
  · cases htwice

/-- The claim that stands was granted, and the answer it shows was recorded for it. -/
theorem AllLawful.granted {log : List Entry} {lookup : RetryLookup} {claim : Standing}
    (h : AllLawful jsonb log) (hstanding : standing lookup log = some claim) :
    .claimed lookup claim.fingerprint claim.token claim.claimedAt ∈ log ∧
      ∀ completedAt answer, claim.answer = some (completedAt, answer) →
        .completed lookup claim.token answer completedAt true ∈ log ∧ answer.succeeded = true := by
  induction log generalizing claim with
  | nil => cases hstanding
  | cons entry earlier ih =>
      have hbefore : standing lookup earlier = some claim → _ := fun hsome =>
        (ih h.2.2 hsome).imp (List.mem_cons_of_mem entry)
          fun hanswer completedAt answer hrecorded =>
            (hanswer completedAt answer hrecorded).imp (List.mem_cons_of_mem entry) id
      have hlawful := h.2.1
      rw [standing] at hstanding
      split at hstanding
      · rename_i hsame
        rw [hsame] at hlawful
        cases entry with
        | claimed lookup' fingerprint token now =>
            obtain rfl := Option.some.inj hstanding
            subst hsame
            exact ⟨List.mem_cons_self, fun _ _ hrecorded => by cases hrecorded⟩
        | completed lookup' token completed now applied =>
            cases applied with
            | false => exact hbefore hstanding
            | true =>
                obtain ⟨before, hsome, rfl⟩ := Option.map_eq_some_iff.mp hstanding
                obtain ⟨happlied, hsucceeded⟩ := hlawful
                rw [hsome] at happlied
                obtain ⟨hheld, -⟩ := Bool.and_eq_true_iff.mp happlied.symm
                obtain ⟨htoken, -⟩ := Bool.and_eq_true_iff.mp hheld
                have htoken : before.token = token := of_decide_eq_true htoken
                subst hsame
                refine ⟨List.mem_cons_of_mem _ (ih h.2.2 hsome).1, ?_⟩
                rintro completedAt answer ⟨⟩
                exact ⟨htoken ▸ List.mem_cons_self, hsucceeded rfl⟩
        | released lookup' token now applied =>
            cases applied with
            | false => exact hbefore hstanding
            | true => cases hstanding
        | _ => exact hbefore hstanding
      · exact hbefore hstanding

/-- A request is given a recorded answer only if a claim was granted for the same request under the
same key, that answer was recorded for it under its own token as a success, and the record had not
expired when the call looked. -/
theorem pg_replays_recorded
    (hreach : Run (database jsonb) requests anything (World.initial (.empty start)) world)
    {lookup : RetryLookup} {fingerprint : String}
    (hrun : Run (database jsonb) requests anything
      ⟨world.store, world.tasks ++ [⟨[], serve (.claim lookup fingerprint)⟩]⟩ world')
    {task : Task Statement Statement.Answer Unit Reply} {record : RetryRecordRow} {answer : Answer}
    (htask : world'.tasks[world.tasks.length]? = some task)
    (hdone : task.rest = .done (.outcome (.completed record answer))) :
    ∃ token claimedAt original completedAt later,
      .claimed lookup fingerprint token claimedAt ∈ world'.store.log ∧
      .completed lookup token original completedAt true ∈ world'.store.log ∧
      original.succeeded = true ∧ answer = recorded jsonb original ∧
      world.store.now ≤ later ∧ later ≤ world'.store.now ∧ later < claimedAt + retentionMs := by
  obtain ⟨hcoherent, ⟨now, -, hclaim⟩, htold⟩ := call_rests hreach hrun htask hdone
  rcases hclaim with ⟨token, -, houtcome⟩ | ⟨later, row, -, hclock, hselect, houtcome⟩
  · cases houtcome
  · cases row with
    | none => cases houtcome
    | some row =>
        obtain ⟨rfl, rfl, completedAt, hstate⟩ := RetryRecords.occupied_completed houtcome.symm
        obtain ⟨newer, older, hlog⟩ := List.append_of_mem (htold _ hselect).2
        have hlawful := hcoherent.lawful
        rw [hlog] at hlawful
        obtain ⟨-, hfound, hearlier⟩ := hlawful.older
        obtain ⟨claim, hclaim, hrow⟩ := Option.map_eq_some_iff.mp hfound.symm
        obtain ⟨hstanding, hlive⟩ := Option.filter_eq_some_iff.mp hclaim
        obtain ⟨hclaimed, hanswer⟩ := hearlier.granted hstanding
        obtain ⟨fingerprint, token, claimedAt, shown⟩ := claim
        have hlater : ¬claimedAt + retentionMs ≤ later := by
          simpa [Standing.expired] using hlive
        have hkept : ∀ entry ∈ older, entry ∈ world'.store.log := fun entry hentry =>
          hlog ▸ List.mem_append_right _ (List.mem_cons_of_mem _ hentry)
        subst hrow
        cases shown with
        | none => cases hstate
        | some shown =>
            obtain ⟨hat, hrecorded⟩ := RetryState.completed.inj hstate
            obtain ⟨hcompleted, hsucceeded⟩ := hanswer shown.1 shown.2 rfl
            exact ⟨token, claimedAt, shown.2, shown.1, later, hkept _ hclaimed, hkept _ hcompleted,
              hsucceeded, hrecorded.symm, (htold _ hclock).1, (htold _ hclock).2, by omega⟩

/-- The second of two requests is given the first one's answer. -/
theorem twin_given_record : ∃ (token : String) (original : Answer) (world' : RetryWorld)
    (completedAt : Int), .completed twinKey token original completedAt true ∈ world'.store.log := by
  obtain ⟨world, world', task, record, answer, hreach, hrun, htask, hdone⟩ := twins_race
  obtain ⟨token, claimedAt, original, completedAt, later, -, hcompleted, -⟩ :=
    pg_replays_recorded hreach hrun htask hdone
  exact ⟨token, original, world', completedAt, hcompleted⟩

end Results

end WaslaCore.Http.PgRetryRecordStore
