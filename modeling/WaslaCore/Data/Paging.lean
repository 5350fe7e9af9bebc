import WaslaCore.Data.Selection

/-!
Paging by a cursor. A page is cut from the rows that follow the cursor in the order of their
positions, and the next one is asked for after its last row. Where no two rows have one
position the pages tile the ordered rows, whatever the limit.
-/

namespace WaslaCore.Data

section Paging

variable {α γ κ : Type} [LinearOrder κ]

/-- Select, and again after the last row of each full page, until a page comes back short. -/
inductive Enumerates (select : Option γ → List α) (position : α → γ) (limit : Nat) :
    Option γ → List α → Prop where
  | short {after : Option γ} (hshort : (select after).length < limit) :
      Enumerates select position limit after (select after)
  | full {after : Option γ} {last : α} {rest : List α} (hfull : limit ≤ (select after).length)
      (hlast : (select after).getLast? = some last)
      (hrest : Enumerates select position limit (some (position last)) rest) :
      Enumerates select position limit after (select after ++ rest)

/-- The row stands strictly after the cursor. -/
def follows (rank : γ → κ) (position : α → γ) (after : Option γ) (row : α) : Bool :=
  after.all fun cursor => rank cursor < rank (position row)

/-- The rows in the strict order of their positions. -/
def Ascending (rank : γ → κ) (position : α → γ) (rows : List α) : Prop :=
  rows.Pairwise fun first second => rank (position first) < rank (position second)

/-- Paging ends, in one way, with the matching rows once each and in order. -/
def EnumeratesExactly (select : Option γ → List α) (position : α → γ) (rank : γ → κ) (limit : Nat)
    (matching : List α) : Prop :=
  ∃ rows, (∀ found, Enumerates select position limit none found ↔ found = rows) ∧
    rows.Perm matching ∧ Ascending rank position rows

variable {rank : γ → κ} {position : α → γ} {rows : List α}

theorem follows_none (row : α) : follows rank position none row = true := rfl

theorem follows_some {cursor : γ} {row : α} :
    follows rank position (some cursor) row = true ↔ rank cursor < rank (position row) :=
  decide_eq_true_iff

/-- What follows a row of a strict order is what stands behind it. -/
theorem Ascending.filter_follows {front back : List α} {last : α}
    (h : Ascending rank position (front ++ last :: back)) :
    (front ++ last :: back).filter (follows rank position (some (position last))) = back := by
  obtain ⟨-, hback, hfront⟩ := List.pairwise_append.mp h
  have hbefore : front.filter (follows rank position (some (position last))) = [] := by
    apply List.filter_eq_nil_iff.mpr
    intro row hrow hfollows
    exact lt_asymm (follows_some.mp hfollows) (hfront row hrow last List.mem_cons_self)
  have hself : ¬follows rank position (some (position last)) last = true :=
    fun hfollows => lt_irrefl _ (follows_some.mp hfollows)
  have hafter : back.filter (follows rank position (some (position last))) = back := by
    apply List.filter_eq_self.mpr
    intro row hrow
    exact follows_some.mpr ((List.pairwise_cons.mp hback).1 row hrow)
  rw [List.filter_append, hbefore, List.filter_cons_of_neg hself, hafter, List.nil_append]

/-- A cursor at a row past another cursor leaves no more than that one did. -/
theorem filter_follows_past {after : Option γ} {last : α}
    (hlast : follows rank position after last = true) :
    (rows.filter (follows rank position after)).filter
        (follows rank position (some (position last))) =
      rows.filter (follows rank position (some (position last))) := by
  rw [List.filter_filter]
  apply List.filter_congr
  intro row _
  cases hrow : follows rank position (some (position last)) row with
  | false => simp
  | true =>
      have hpast := follows_some.mp hrow
      cases after with
      | none => simp [follows_none]
      | some cursor =>
          have hboth : follows rank position (some cursor) row = true :=
            follows_some.mpr ((follows_some.mp hlast).trans hpast)
          simp [hboth]

/-- After a full page the cursor stands where the page was cut. -/
theorem Ascending.filter_cut (h : Ascending rank position rows) {after : Option γ} {limit : Nat}
    {last : α} (hlast : ((rows.filter (follows rank position after)).take limit).getLast? =
      some last) :
    rows.filter (follows rank position (some (position last))) =
      (rows.filter (follows rank position after)).drop limit := by
  obtain ⟨front, hfront⟩ := List.getLast?_eq_some_iff.mp hlast
  have hsplit : rows.filter (follows rank position after) =
      front ++ last :: (rows.filter (follows rank position after)).drop limit := by
    calc rows.filter (follows rank position after)
        = (rows.filter (follows rank position after)).take limit ++
            (rows.filter (follows rank position after)).drop limit :=
          (List.take_append_drop limit _).symm
      _ = (front ++ [last]) ++ (rows.filter (follows rank position after)).drop limit := by
          rw [hfront]
      _ = front ++ last :: (rows.filter (follows rank position after)).drop limit := by
          rw [List.append_assoc, List.singleton_append]
  have hmem : last ∈ rows.filter (follows rank position after) := by
    rw [hsplit]
    exact List.mem_append_right _ List.mem_cons_self
  have hascending : Ascending rank position
      (front ++ last :: (rows.filter (follows rank position after)).drop limit) := by
    rw [← hsplit]
    exact h.filter _
  rw [← filter_follows_past (List.mem_filter.mp hmem).2]
  conv_lhs => rw [hsplit]
  exact hascending.filter_follows

/-- Pages cut from ascending rows enumerate the rest of them, from every cursor. -/
theorem Ascending.enumerates_iff (h : Ascending rank position rows) {limit : Nat}
    (hlimit : 1 ≤ limit) {select : Option γ → List α}
    (hselect : ∀ after, select after = (rows.filter (follows rank position after)).take limit)
    (after : Option γ) (found : List α) :
    Enumerates select position limit after found ↔
      found = rows.filter (follows rank position after) := by
  induction hsize : (rows.filter (follows rank position after)).length using Nat.strong_induction_on
    generalizing after found with
  | _ size ih =>
      have hlength : (select after).length =
          min limit (rows.filter (follows rank position after)).length := by
        rw [hselect, List.length_take]
      by_cases hfull : limit ≤ (rows.filter (follows rank position after)).length
      · have hnonempty : select after ≠ [] := by
          apply List.ne_nil_of_length_pos
          omega
        obtain ⟨last, hlast⟩ : ∃ last, (select after).getLast? = some last :=
          ⟨_, List.getLast?_eq_some_getLast hnonempty⟩
        have hcut := h.filter_cut (hselect after ▸ hlast)
        have hrest : ∀ tail, Enumerates select position limit (some (position last)) tail ↔
            tail = (rows.filter (follows rank position after)).drop limit := by
          intro tail
          rw [← hcut]
          refine ih _ ?_ _ _ rfl
          rw [hcut, List.length_drop]
          omega
        constructor
        · intro hfound
          cases hfound with
          | short hshort => omega
          | full _ hother hafter =>
              obtain rfl := Option.some.inj (hlast.symm.trans hother)
              rw [(hrest _).mp hafter, hselect, List.take_append_drop]
        · rintro rfl
          have hpages := Enumerates.full (by omega) hlast ((hrest _).mpr rfl)
          rwa [hselect, List.take_append_drop] at hpages
      · have hall : select after = rows.filter (follows rank position after) := by
          rw [hselect]
          exact List.take_of_length_le (by omega)
        constructor
        · intro hfound
          cases hfound with
          | short _ => exact hall
          | full hother _ _ => omega
        · rintro rfl
          have hpage : Enumerates select position limit after (select after) := .short (by omega)
          rwa [hall] at hpage

/-- Rows of positions of their own are ordered strictly. -/
theorem Ordered.ascending {sorted : List α} (hkeys : (rows.map fun row => rank (position row)).Nodup)
    (h : Ordered (fun row => rank (position row)) rows sorted) : Ascending rank position sorted := by
  have hdistinct : (sorted.map fun row => rank (position row)).Nodup :=
    (h.1.map _).nodup_iff.mpr hkeys
  have happart := List.pairwise_map.mp hdistinct
  exact (h.2.and happart).imp fun hboth => lt_of_le_of_ne hboth.1 hboth.2

/-- Filter, sort and cut pages exactly, where rows with one position are one row. -/
theorem enumeratesExactly (hkeys : (rows.map fun row => rank (position row)).Nodup) {limit : Nat}
    (hlimit : 1 ≤ limit) {sort : List α → List α}
    (hsort : ∀ rows, Ordered (fun row => rank (position row)) rows (sort rows))
    {matching : α → Bool} {select : Option γ → List α}
    (hselect : ∀ after, select after =
      (sort (rows.filter fun row => matching row && follows rank position after row)).take limit) :
    EnumeratesExactly select position rank limit (rows.filter matching) := by
  have hchosen : ((rows.filter matching).map fun row => rank (position row)).Nodup :=
    hkeys.sublist (List.filter_sublist.map _)
  have hordered := hsort (rows.filter matching)
  have hascending : Ascending rank position (sort (rows.filter matching)) :=
    hordered.ascending hchosen
  have hpages : ∀ after, select after =
      ((sort (rows.filter matching)).filter (follows rank position after)).take limit := by
    intro after
    have hsplit : rows.filter (fun row => matching row && follows rank position after row) =
        (rows.filter matching).filter (follows rank position after) := by
      rw [List.filter_filter]
      exact List.filter_congr fun row _ => Bool.and_comm _ _
    have hsame := Ordered.unique (hchosen.sublist (List.filter_sublist.map _))
      (hsort ((rows.filter matching).filter (follows rank position after)))
      (hordered.filter (follows rank position after))
    rw [hselect, hsplit, hsame]
  refine ⟨sort (rows.filter matching), ?_, hordered.1, hascending⟩
  intro found
  rw [hascending.enumerates_iff hlimit hpages none found]
  have hall : (sort (rows.filter matching)).filter (follows rank position none) =
      sort (rows.filter matching) :=
    List.filter_eq_self.mpr fun row _ => follows_none row
  rw [hall]

/-- A row of an ascending list is on the page cut from it, or behind all of the page. -/
theorem Ascending.mem_take (h : Ascending rank position rows) {row : α} (hrow : row ∈ rows)
    (limit : Nat) :
    row ∈ rows.take limit ∨
      ∀ other ∈ rows.take limit, rank (position other) < rank (position row) := by
  rw [← List.take_append_drop limit rows] at h hrow
  rcases List.mem_append.mp hrow with hpage | hbehind
  · exact .inl hpage
  · exact .inr fun other hother => (List.pairwise_append.mp h).2.2 other hother row hbehind

/-! ### A cursor that some rows move -/

/-- The cursor moves to every row that is decided, and stays at the others. -/
def cursorPast (position : α → γ) (decided : α → Bool) : List α → Option γ → Option γ
  | [], after => after
  | row :: rest, after =>
      cursorPast position decided rest (if decided row then some (position row) else after)

variable {decided : α → Bool} {after : Option γ}

/-- The cursor moves only forward. -/
theorem Ascending.follows_of_cursorPast (h : Ascending rank position rows)
    (hrows : ∀ row ∈ rows, follows rank position after row = true) {other : α}
    (hother : follows rank position (cursorPast position decided rows after) other = true) :
    follows rank position after other = true := by
  induction rows generalizing after with
  | nil => exact hother
  | cons row rest ih =>
      obtain ⟨hhead, hrest⟩ := List.pairwise_cons.mp h
      unfold cursorPast at hother
      split at hother
      · have hpast := ih hrest (fun later hlater => follows_some.mpr (hhead later hlater)) hother
        have hrow := hrows row List.mem_cons_self
        cases after with
        | none => rfl
        | some cursor =>
            exact follows_some.mpr ((follows_some.mp hrow).trans (follows_some.mp hpast))
      · exact ih hrest (fun later hlater => hrows later (List.mem_cons_of_mem _ hlater)) hother

/-- It is past every row it moved to. -/
theorem Ascending.cursorPast_decided (h : Ascending rank position rows)
    (hrows : ∀ row ∈ rows, follows rank position after row = true) {row : α} (hrow : row ∈ rows)
    (hdecided : decided row = true) :
    follows rank position (cursorPast position decided rows after) row = false := by
  induction rows generalizing after with
  | nil => cases hrow
  | cons first rest ih =>
      obtain ⟨hhead, hrest⟩ := List.pairwise_cons.mp h
      have hbehind : ∀ later ∈ rest,
          follows rank position (if decided first then some (position first) else after) later =
            true := by
        intro later hlater
        split
        · exact follows_some.mpr (hhead later hlater)
        · exact hrows later (List.mem_cons_of_mem _ hlater)
      unfold cursorPast
      rcases List.mem_cons.mp hrow with rfl | hlater
      · rw [hdecided, if_pos rfl] at hbehind ⊢
        refine Bool.eq_false_iff.mpr fun hfollows => ?_
        exact lt_irrefl _ (follows_some.mp (Ascending.follows_of_cursorPast hrest hbehind hfollows))
      · exact ih hrest hbehind hlater

theorem cursorPast_undecided (h : ∀ row ∈ rows, decided row = false) :
    cursorPast position decided rows after = after := by
  induction rows with
  | nil => rfl
  | cons row rest ih =>
      unfold cursorPast
      rw [h row List.mem_cons_self]
      exact ih fun later hlater => h later (List.mem_cons_of_mem _ hlater)

/-- It stays before a row that stands behind everything it may move to. -/
theorem follows_cursorPast {row : α}
    (hbehind : ∀ other ∈ rows, rank (position other) < rank (position row))
    (hrow : follows rank position after row = true) :
    follows rank position (cursorPast position decided rows after) row = true := by
  induction rows generalizing after with
  | nil => exact hrow
  | cons first rest ih =>
      unfold cursorPast
      apply ih fun other hother => hbehind other (List.mem_cons_of_mem _ hother)
      split
      · exact follows_some.mpr (hbehind first List.mem_cons_self)
      · exact hrow

/-- It stays before every row that is not decided, where none of those is overtaken. -/
theorem Ascending.before_undecided (h : Ascending rank position rows)
    (hrows : ∀ row ∈ rows, follows rank position after row = true)
    (hkept : rows.Pairwise fun earlier later => decided earlier = false → decided later = false)
    {row : α} (hrow : row ∈ rows) (hundecided : decided row = false) :
    follows rank position (cursorPast position decided rows after) row = true := by
  induction rows generalizing after with
  | nil => cases hrow
  | cons first rest ih =>
      obtain ⟨hhead, hrest⟩ := List.pairwise_cons.mp h
      obtain ⟨hfirst, hlast⟩ := List.pairwise_cons.mp hkept
      cases hdecided : decided first with
      | true =>
          unfold cursorPast
          rw [hdecided, if_pos rfl]
          rcases List.mem_cons.mp hrow with rfl | hlater
          · rw [hdecided] at hundecided
            cases hundecided
          · exact ih hrest (fun later hbehind => follows_some.mpr (hhead later hbehind)) hlast hlater
      | false =>
          have hall : ∀ later ∈ first :: rest, decided later = false := by
            intro later hlater
            rcases List.mem_cons.mp hlater with rfl | hbehind
            · exact hdecided
            · exact hfirst later hbehind hdecided
          rw [cursorPast_undecided hall]
          exact hrows row hrow

variable (decided after) in
theorem Ascending.before_undecided_iff (h : Ascending rank position rows)
    (hrows : ∀ row ∈ rows, follows rank position after row = true) :
    (∀ row ∈ rows, decided row = false →
        follows rank position (cursorPast position decided rows after) row = true) ↔
      rows.Pairwise fun earlier later => decided earlier = false → decided later = false := by
  refine ⟨fun hbefore => ?_, fun hkept row hrow => h.before_undecided hrows hkept hrow⟩
  have hpairs : rows.Pairwise fun earlier later => earlier ∈ rows ∧ later ∈ rows ∧
      rank (position earlier) < rank (position later) :=
    List.Pairwise.and_mem.mp h
  refine hpairs.imp fun {earlier later} ⟨hearlier, hlater, hless⟩ hundecided => ?_
  by_contra hdecided
  have hpast := h.cursorPast_decided hrows hlater (Bool.not_eq_false _ ▸ hdecided)
  have hahead := hbefore earlier hearlier hundecided
  cases hcursor : cursorPast position decided rows after with
  | none =>
      rw [hcursor] at hpast
      cases hpast
  | some cursor =>
      rw [hcursor] at hpast hahead
      have hfollows : follows rank position (some cursor) later = true :=
        follows_some.mpr ((follows_some.mp hahead).trans hless)
      rw [hfollows] at hpast
      cases hpast

end Paging

end WaslaCore.Data
