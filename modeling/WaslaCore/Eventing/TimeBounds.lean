import WaslaCore.Data.Instants
import WaslaCore.Eventing.Positions

/-!
The time bounds of an inbound selection, on each backend. The reference store compares the
texts of an event's time and of the bounds; the database casts both to timestamps. The two
admit the same rows where the texts are written in one style, and in no other case.
-/

namespace WaslaCore.Eventing

open Platform Data

/-! ### The two stores -/

/-- `::timestamptz`: the nearest whole microsecond. -/
structure Timestamptz where
  cast : Spelling → Int
  nearest : ∀ spelling, spelling.Valid →
    |(10 : ℚ) ^ 6 * spelling.instant - cast spelling| ≤ 1 / 2

/-- An inbound row: its event carries the text its time was spelled as. -/
structure HeldRow where
  event : Envelope
  status : InboundStatus
  receivedAt : Spelling
  occurredAt : Spelling
  spelled : event.occurredAt = occurredAt.text

/-- The row as the reference store holds it. -/
def HeldRow.inMemory (row : HeldRow) : InboundRow := ⟨row.event, row.status, row.receivedAt.text⟩

/-- A selection whose instants are spelled. -/
structure TimedSelection where
  eventIds : Option (List String)
  eventTypes : Option (List String)
  producer : Option String
  statuses : Option (List InboundStatus)
  receivedFrom : Option Spelling
  receivedTo : Option Spelling
  occurredFrom : Option Spelling
  occurredTo : Option Spelling
  after : Option (Spelling × String)
  limit : Nat

/-- The selection as it is passed to either store. -/
def TimedSelection.texts (selection : TimedSelection) : InboundSelection where
  eventIds := selection.eventIds
  eventTypes := selection.eventTypes
  producer := selection.producer
  statuses := selection.statuses
  receivedFrom := selection.receivedFrom.map Spelling.text
  receivedTo := selection.receivedTo.map Spelling.text
  occurredFrom := selection.occurredFrom.map Spelling.text
  occurredTo := selection.occurredTo.map Spelling.text
  after := selection.after.map fun after => ⟨after.1.text, after.2⟩
  limit := selection.limit

/-- The digits of an identifier, as `::uuid` compares them. -/
def uuid (id : String) : String := String.ofList (id.toList.map Char.toLower)

/-- The `where` clause, the bounds on the time of the event apart. -/
def PgInboundEventStore.narrows (db : Timestamptz) (row : HeldRow) (selection : TimedSelection) :
    Bool :=
  selection.eventIds.all (fun ids => uuid row.event.eventId ∈ ids.map uuid) &&
  selection.eventTypes.all (fun types => row.event.eventType ∈ types) &&
  selection.producer.all (fun producer => row.event.producer = producer) &&
  selection.statuses.all (fun statuses => row.status ∈ statuses) &&
  selection.receivedFrom.all (fun bound => db.cast bound ≤ db.cast row.receivedAt) &&
  selection.receivedTo.all (fun bound => db.cast row.receivedAt ≤ db.cast bound) &&
  selection.after.all (fun after => db.cast after.1 < db.cast row.receivedAt ||
    (db.cast after.1 = db.cast row.receivedAt &&
      textLess (uuid after.2) (uuid row.event.eventId)))

/-- The `where` clause of `select`. -/
def PgInboundEventStore.admits (db : Timestamptz) (row : HeldRow) (selection : TimedSelection) :
    Bool :=
  PgInboundEventStore.narrows db row selection &&
  selection.occurredFrom.all (fun bound => db.cast bound ≤ db.cast row.occurredAt) &&
  selection.occurredTo.all (fun bound => db.cast row.occurredAt ≤ db.cast bound)

/-- What the reference store asks of a row besides the time of its event. -/
def InMemoryInboundEventStore.narrows (row : HeldRow) (selection : TimedSelection) : Bool :=
  narrowsSelection row.inMemory selection.texts &&
  selection.texts.after.all (fun after => comparePositions row.inMemory.position after = .gt)

def InMemoryInboundEventStore.admitted (store : List HeldRow) (selection : TimedSelection) :
    List HeldRow :=
  store.filter fun row => matchesSelection row.inMemory selection.texts

def PgInboundEventStore.admitted (db : Timestamptz) (store : List HeldRow)
    (selection : TimedSelection) : List HeldRow :=
  store.filter fun row => PgInboundEventStore.admits db row selection

/-! ### Agreement -/

/-- The instant lies within the bounds. -/
def TimedSelection.Spans (selection : TimedSelection) (instant : ℚ) : Prop :=
  (∀ bound ∈ selection.occurredFrom, bound.instant ≤ instant) ∧
    ∀ bound ∈ selection.occurredTo, instant ≤ bound.instant

/-- The time of every event is a valid spelling in one of the styles. -/
def WrittenIn (styles : Set Style) (store : List HeldRow) : Prop :=
  ∀ row ∈ store, row.occurredAt.Valid ∧ row.occurredAt.style ∈ styles

/-- So is every bound. -/
def AskedIn (styles : Set Style) (selection : TimedSelection) : Prop :=
  ∀ bound, bound ∈ selection.occurredFrom ∨ bound ∈ selection.occurredTo →
    bound.Valid ∧ bound.style ∈ styles

/-- The two stores judge the rest of the selection alike. -/
def SameElse (db : Timestamptz) (store : List HeldRow) (selection : TimedSelection) : Prop :=
  ∀ row ∈ store, InMemoryInboundEventStore.narrows row selection =
    PgInboundEventStore.narrows db row selection

/-- The two stores admit the same rows, those whose instant lies within the bounds. -/
def Agree (db : Timestamptz) (store : List HeldRow) (selection : TimedSelection) : Prop :=
  InMemoryInboundEventStore.admitted store selection =
      PgInboundEventStore.admitted db store selection ∧
    ∀ row ∈ store, PgInboundEventStore.admits db row selection = true ↔
      PgInboundEventStore.narrows db row selection = true ∧
        selection.Spans row.occurredAt.instant

section Agreement

variable {db : Timestamptz} {store : List HeldRow} {selection : TimedSelection}

/-- Up to six digits the cast is exact. -/
theorem Timestamptz.cast_exact {spelling : Spelling} (hvalid : spelling.Valid)
    (h : spelling.digits ≤ 6) : (db.cast spelling : ℚ) = 10 ^ 6 * spelling.instant := by
  have hnearest := db.nearest spelling hvalid
  rw [Spelling.instant_whole h] at hnearest ⊢
  exact_mod_cast nearest_whole hnearest

theorem Timestamptz.cast_le_iff {first second : Spelling} (hfirst : first.Valid)
    (hsecond : second.Valid) (h : first.digits ≤ 6) (h' : second.digits ≤ 6) :
    db.cast first ≤ db.cast second ↔ first.instant ≤ second.instant := by
  have hcast : db.cast first ≤ db.cast second ↔ (db.cast first : ℚ) ≤ db.cast second :=
    Int.cast_le.symm
  rw [hcast, cast_exact hfirst h, cast_exact hsecond h']
  exact mul_le_mul_iff_of_pos_left (by norm_num)

/-- Alike spelled, a text is no less than another where its instant is no earlier. -/
theorem not_textLess_iff {first second : Spelling} (hstyle : first.style = second.style)
    (hfirst : first.Valid) (hsecond : second.Valid) :
    (!textLess first.text second.text) = true ↔ second.instant ≤ first.instant := by
  rw [Bool.not_eq_true', ← Bool.not_eq_true, Spelling.text_lt_iff hstyle hfirst hsecond, not_lt]

theorem all_iff {α : Type} {given : Option α} {test : α → Bool} :
    given.all test = true ↔ ∀ value ∈ given, test value = true := by
  cases given <;> simp

theorem matchesSelection_iff (row : HeldRow) (selection : TimedSelection) :
    matchesSelection row.inMemory selection.texts = true ↔
      InMemoryInboundEventStore.narrows row selection = true ∧
        (∀ bound ∈ selection.occurredFrom, (!textLess row.occurredAt.text bound.text) = true) ∧
        ∀ bound ∈ selection.occurredTo, (!textLess bound.text row.occurredAt.text) = true := by
  have htime : row.inMemory.event.occurredAt = row.occurredAt.text := row.spelled
  unfold matchesSelection InMemoryInboundEventStore.narrows
  rw [htime]
  simp only [Bool.and_eq_true, TimedSelection.texts, Option.all_map, all_iff]
  tauto

theorem admits_iff (db : Timestamptz) (row : HeldRow) (selection : TimedSelection) :
    PgInboundEventStore.admits db row selection = true ↔
      PgInboundEventStore.narrows db row selection = true ∧
        (∀ bound ∈ selection.occurredFrom, db.cast bound ≤ db.cast row.occurredAt) ∧
        ∀ bound ∈ selection.occurredTo, db.cast row.occurredAt ≤ db.cast bound := by
  unfold PgInboundEventStore.admits
  rw [Bool.and_eq_true, Bool.and_eq_true, all_iff, all_iff, and_assoc]
  simp only [decide_eq_true_eq]

/-- Where all texts are in one style, of six digits at most, the stores agree. -/
theorem agree_of_alike {written asked : Set Style}
    (halike : ∀ style ∈ written, ∀ style' ∈ asked, style = style' ∧ style.digits ≤ 6)
    (hwritten : WrittenIn written store) (hasked : AskedIn asked selection)
    (helse : SameElse db store selection) : Agree db store selection := by
  have hbound : ∀ row ∈ store, ∀ bound,
      bound ∈ selection.occurredFrom ∨ bound ∈ selection.occurredTo →
        bound.Valid ∧ row.occurredAt.Valid ∧ row.occurredAt.style = bound.style ∧
          row.occurredAt.digits ≤ 6 ∧ bound.digits ≤ 6 := by
    intro row hrow bound hasks
    obtain ⟨hvalid, hstyle⟩ := hwritten row hrow
    obtain ⟨hvalid', hstyle'⟩ := hasked bound hasks
    obtain ⟨hsame, hdigits⟩ := halike _ hstyle _ hstyle'
    exact ⟨hvalid', hvalid, hsame, hdigits, (congrArg Style.digits hsame).ge.trans hdigits⟩
  have hspans : ∀ row ∈ store, PgInboundEventStore.admits db row selection = true ↔
      PgInboundEventStore.narrows db row selection = true ∧
        selection.Spans row.occurredAt.instant := by
    intro row hrow
    rw [admits_iff]
    refine and_congr_right fun _ => and_congr ?_ ?_
    · refine forall_congr' fun bound => forall_congr' fun hfrom => ?_
      obtain ⟨hvalid', hvalid, -, hdigits, hdigits'⟩ := hbound row hrow bound (.inl hfrom)
      exact Timestamptz.cast_le_iff hvalid' hvalid hdigits' hdigits
    · refine forall_congr' fun bound => forall_congr' fun hto => ?_
      obtain ⟨hvalid', hvalid, -, hdigits, hdigits'⟩ := hbound row hrow bound (.inr hto)
      exact Timestamptz.cast_le_iff hvalid hvalid' hdigits hdigits'
  refine ⟨List.filter_congr ?_, hspans⟩
  intro row hrow
  rw [Bool.eq_iff_iff, hspans row hrow, matchesSelection_iff, helse row hrow]
  refine and_congr_right fun _ => and_congr ?_ ?_
  · refine forall_congr' fun bound => forall_congr' fun hfrom => ?_
    obtain ⟨hvalid', hvalid, hstyle, -, -⟩ := hbound row hrow bound (.inl hfrom)
    exact not_textLess_iff hstyle hvalid hvalid'
  · refine forall_congr' fun bound => forall_congr' fun hto => ?_
    obtain ⟨hvalid', hvalid, hstyle, -, -⟩ := hbound row hrow bound (.inr hto)
    exact not_textLess_iff hstyle.symm hvalid' hvalid

/-! ### Disagreement -/

/-- A row that only its time tells from others. -/
def heldAt (spelling : Spelling) : HeldRow where
  event := { tiedEvent "a" with occurredAt := spelling.text }
  status := .dead
  receivedAt := Style.newYear ⟨3, .utc⟩ 0
  occurredAt := spelling
  spelled := rfl

/-- A selection by time alone. -/
def spanning (occurredFrom occurredTo : Option Spelling) : TimedSelection :=
  ⟨none, none, none, none, none, none, occurredFrom, occurredTo, none, 1⟩

theorem narrows_spanning (db : Timestamptz) (spelling : Spelling)
    (occurredFrom occurredTo : Option Spelling) :
    InMemoryInboundEventStore.narrows (heldAt spelling) (spanning occurredFrom occurredTo) = true ∧
      PgInboundEventStore.narrows db (heldAt spelling) (spanning occurredFrom occurredTo) = true :=
  ⟨rfl, rfl⟩

theorem sameElse_spanning (db : Timestamptz) (spelling : Spelling)
    (occurredFrom occurredTo : Option Spelling) :
    SameElse db [heldAt spelling] (spanning occurredFrom occurredTo) := by
  intro row hrow
  rw [List.mem_singleton.mp hrow]
  rfl

/-- One timestamp in two texts: as a bound, from below and from above, the one lets the other
pass only where the texts are the same. -/
theorem text_eq_of_agree {first second : Spelling} (hcast : db.cast first = db.cast second)
    (hfrom : Agree db [heldAt first] (spanning (some second) none))
    (hto : Agree db [heldAt first] (spanning none (some second))) : first.text = second.text := by
  have hadmitted : ∀ occurredFrom occurredTo,
      Agree db [heldAt first] (spanning occurredFrom occurredTo) →
      PgInboundEventStore.admits db (heldAt first) (spanning occurredFrom occurredTo) = true →
      matchesSelection (heldAt first).inMemory (spanning occurredFrom occurredTo).texts = true := by
    intro occurredFrom occurredTo hagree hadmits
    have hmem : heldAt first ∈ PgInboundEventStore.admitted db [heldAt first]
        (spanning occurredFrom occurredTo) :=
      List.mem_filter.mpr ⟨List.mem_singleton_self _, hadmits⟩
    rw [← hagree.1] at hmem
    exact (List.mem_filter.mp hmem).2
  have hbelow := hadmitted (some second) none hfrom ((admits_iff db _ _).mpr
    ⟨(narrows_spanning db first _ _).2, fun bound hbound => by
      obtain rfl := Option.some.inj hbound
      exact hcast.ge, fun bound hbound => nomatch hbound⟩)
  have habove := hadmitted none (some second) hto ((admits_iff db _ _).mpr
    ⟨(narrows_spanning db first _ _).2, fun bound hbound => (nomatch hbound), fun bound hbound => by
      obtain rfl := Option.some.inj hbound
      exact hcast.le⟩)
  have hnot : (!textLess first.text second.text) = true :=
    ((matchesSelection_iff _ _).mp hbelow).2.1 second rfl
  have hnot' : (!textLess second.text first.text) = true :=
    ((matchesSelection_iff _ _).mp habove).2.2 second rfl
  rcases compareTexts_cases first.text second.text with ⟨-, hless⟩ | ⟨-, hsame⟩ | ⟨-, hmore⟩
  · rw [textLess_iff.mpr hless] at hnot
    cases hnot
  · exact hsame
  · rw [textLess_iff.mpr hmore] at hnot'
    cases hnot'

/-- A fraction of less than half a microsecond is cast away. -/
theorem Timestamptz.cast_newYear {style : Style} {fraction : Nat} (hzone : style.zone.Valid)
    (h : 2 * 10 ^ 6 * fraction < 10 ^ style.digits) :
    db.cast (style.newYear fraction) = 946771200000000 := by
  have hvalid : (style.newYear fraction).Valid := Style.newYear_valid hzone (by omega)
  have hnearest := db.nearest _ hvalid
  rw [Style.newYear_instant hzone] at hnearest
  have hscale : (0 : ℚ) < 10 ^ style.digits := by positivity
  have hsmall : (10 : ℚ) ^ 6 * (fraction / 10 ^ style.digits) < 1 / 2 := by
    rw [← mul_div_assoc, div_lt_iff₀ hscale]
    have hcast : (2 * 10 ^ 6 * fraction : ℚ) < 10 ^ style.digits := by exact_mod_cast h
    linarith
  have hnonneg : (0 : ℚ) ≤ 10 ^ 6 * (fraction / 10 ^ style.digits) := by positivity
  obtain ⟨hlow, hhigh⟩ := abs_le.mp hnearest
  have hbelow : (db.cast (style.newYear fraction) : ℚ) < 946771200000001 := by linarith
  have habove : (946771199999999 : ℚ) < db.cast (style.newYear fraction) := by linarith
  have hbelow : db.cast (style.newYear fraction) < 946771200000001 := by exact_mod_cast hbelow
  have habove : 946771199999999 < db.cast (style.newYear fraction) := by exact_mod_cast habove
  omega

theorem writtenIn_heldAt {styles : Set Style} {spelling : Spelling} (hvalid : spelling.Valid)
    (hstyle : spelling.style ∈ styles) : WrittenIn styles [heldAt spelling] := by
  intro row hrow
  rw [List.mem_singleton.mp hrow]
  exact ⟨hvalid, hstyle⟩

theorem askedIn_spanning {styles : Set Style} {spelling : Spelling} (hvalid : spelling.Valid)
    (hstyle : spelling.style ∈ styles) :
    AskedIn styles (spanning (some spelling) none) ∧
      AskedIn styles (spanning none (some spelling)) := by
  constructor
  · rintro bound (hbound | hbound)
    · obtain rfl := Option.some.inj hbound
      exact ⟨hvalid, hstyle⟩
    · cases hbound
  · rintro bound (hbound | hbound)
    · cases hbound
    · obtain rfl := Option.some.inj hbound
      exact ⟨hvalid, hstyle⟩

/-- The stores agree on every history and selection written in some styles exactly where
times and bounds all have the one style, of no more than six digits. -/
theorem select_agrees_iff (db : Timestamptz) {written asked : Set Style}
    (hwritten : ∀ style ∈ written, style.zone.Valid) (hasked : ∀ style ∈ asked, style.zone.Valid) :
    (∀ store selection, WrittenIn written store → AskedIn asked selection →
        SameElse db store selection → Agree db store selection) ↔
      ∀ style ∈ written, ∀ style' ∈ asked, style = style' ∧ style.digits ≤ 6 := by
  constructor
  · intro h style hstyle style' hstyle'
    have htexts : ∀ fraction fraction', 2 * 10 ^ 6 * fraction < 10 ^ style.digits →
        2 * 10 ^ 6 * fraction' < 10 ^ style'.digits →
        (style.newYear fraction).text = (style'.newYear fraction').text := by
      intro fraction fraction' hsmall hsmall'
      have hvalid : (style.newYear fraction).Valid :=
        Style.newYear_valid (hwritten style hstyle) (by omega)
      have hvalid' : (style'.newYear fraction').Valid :=
        Style.newYear_valid (hasked style' hstyle') (by omega)
      have hcast : db.cast (style.newYear fraction) = db.cast (style'.newYear fraction') := by
        rw [Timestamptz.cast_newYear (hwritten style hstyle) hsmall,
          Timestamptz.cast_newYear (hasked style' hstyle') hsmall']
      have hwrittenIn : WrittenIn written [heldAt (style.newYear fraction)] :=
        writtenIn_heldAt hvalid (by rwa [Style.newYear_style])
      have hasked' : (style'.newYear fraction').style ∈ asked := by
        rwa [Style.newYear_style]
      obtain ⟨hfrom, hto⟩ := askedIn_spanning hvalid' hasked'
      exact text_eq_of_agree hcast (h _ _ hwrittenIn hfrom (sameElse_spanning db _ _ _))
        (h _ _ hwrittenIn hto (sameElse_spanning db _ _ _))
    have hsame : style = style' := by
      have htext := htexts 0 0 (by positivity) (by positivity)
      have hvalid : (style.newYear 0).Valid :=
        Style.newYear_valid (hwritten style hstyle) (by positivity)
      have hvalid' : (style'.newYear 0).Valid :=
        Style.newYear_valid (hasked style' hstyle') (by positivity)
      have hstyles := Spelling.style_of_text hvalid.zone hvalid'.zone htext
      rwa [Style.newYear_style, Style.newYear_style] at hstyles
    refine ⟨hsame, ?_⟩
    -- with a seventh digit two instants share a microsecond
    by_contra hmany
    have hscale : 10 ^ 7 ≤ 10 ^ style.digits := Nat.pow_le_pow_right (by decide) (by omega)
    have htext := htexts 1 2 (by omega) (by rw [← hsame]; omega)
    rw [← hsame] at htext
    have hvalid : (style.newYear 1).Valid := Style.newYear_valid (hwritten style hstyle) (by omega)
    have hvalid' : (style.newYear 2).Valid := Style.newYear_valid (hwritten style hstyle) (by omega)
    have hless : (style.newYear 1).instant < (style.newYear 2).instant := by
      rw [Style.newYear_instant (hwritten style hstyle), Style.newYear_instant (hwritten style hstyle)]
      have hpositive : (0 : ℚ) < 10 ^ style.digits := by positivity
      have hfractions := div_lt_div_of_pos_right (by norm_num : ((1 : Nat) : ℚ) < (2 : Nat)) hpositive
      linarith
    have hstyles : (style.newYear 1).style = (style.newYear 2).style := by
      rw [Style.newYear_style, Style.newYear_style]
    rw [← Spelling.text_lt_iff hstyles hvalid hvalid', htext, textLess_iff] at hless
    exact lt_irrefl _ hless
  · intro halike store selection hwrittenIn haskedIn helse
    exact agree_of_alike halike hwrittenIn haskedIn helse

end Agreement

/-! ### One instant in two spellings -/

/-- A database that rounds to the nearest microsecond. -/
def roundingDatabase : Timestamptz where
  cast spelling := round ((10 : ℚ) ^ 6 * spelling.instant)
  nearest _ _ := abs_sub_round _

def milliseconds : Style := ⟨3, .utc⟩

/-- An event of a whole second, and the same second with its milliseconds as a bound. -/
theorem select_agrees_fails :
    ¬∀ (db : Timestamptz) (store : List HeldRow) (selection : TimedSelection),
      WrittenIn {style | style.zone.Valid} store → AskedIn {style | style.zone.Valid} selection →
      SameElse db store selection → Agree db store selection := by
  intro h
  have hvalid : (Style.newYear ⟨0, .utc⟩ 0).Valid := Style.newYear_valid trivial (by decide)
  have hvalid' : (milliseconds.newYear 0).Valid := Style.newYear_valid trivial (by decide)
  have hseconds : roundingDatabase.cast (Style.newYear ⟨0, .utc⟩ 0) = 946771200000000 :=
    Timestamptz.cast_newYear trivial (by decide)
  have hmilliseconds : roundingDatabase.cast (milliseconds.newYear 0) = 946771200000000 :=
    Timestamptz.cast_newYear trivial (by decide)
  have hwritten : WrittenIn {style | style.zone.Valid} [heldAt (Style.newYear ⟨0, .utc⟩ 0)] :=
    writtenIn_heldAt hvalid hvalid.zone
  have hasked : (milliseconds.newYear 0).style ∈ {style | style.zone.Valid} := hvalid'.zone
  obtain ⟨hfrom, hto⟩ := askedIn_spanning hvalid' hasked
  have htext := text_eq_of_agree (hseconds.trans hmilliseconds.symm)
    (h _ _ _ hwritten hfrom (sameElse_spanning roundingDatabase _ _ _))
    (h _ _ _ hwritten hto (sameElse_spanning roundingDatabase _ _ _))
  exact absurd htext (by decide)

theorem select_agrees_milliseconds :
    Agree roundingDatabase [heldAt (milliseconds.newYear 70)]
      (spanning (some (milliseconds.newYear 70)) none) := by
  have hvalid : (milliseconds.newYear 70).Valid := Style.newYear_valid trivial (by decide)
  have hzone : ∀ style ∈ ({milliseconds} : Set Style), style.zone.Valid := by
    rintro style rfl
    trivial
  have hstyle : (milliseconds.newYear 70).style ∈ ({milliseconds} : Set Style) := rfl
  apply (select_agrees_iff roundingDatabase hzone hzone).mpr
  · rintro style rfl style' rfl
    exact ⟨rfl, by decide⟩
  · exact writtenIn_heldAt hvalid hstyle
  · exact (askedIn_spanning hvalid hstyle).1
  · exact sameElse_spanning roundingDatabase _ _ _

end WaslaCore.Eventing
