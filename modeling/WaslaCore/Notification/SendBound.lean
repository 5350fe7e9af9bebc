import WaslaCore.Interleaving.Tally
import WaslaCore.Notification.InFlight

/-!
How often one message is sent. The attempts of a row count its claims, each claim is sent
under at most once, and a row whose attempts are spent is not claimed again: so however
the dispatchers interleave, crash or lose their leases, no message is sent more often than
the attempts they share. What an abandoned last attempt is not promised is to be found by
the next sweep, which recovers its limit of rows and no more.
-/

namespace WaslaCore.Notification

open Data Interleaving

/-! ### Claims and sends of one message -/

def ClaimedNotification.pair (claimed : ClaimedNotification) : String × Nat :=
  (claimed.notification.notificationId, claimed.token)

def rowsClaimed : (effect : Effect) → effect.Answer → List ClaimedNotification
  | .claimDue _ _ _, rows => rows
  | _, _ => []

def claimedIn (seen : History Effect Effect.Answer) : List ClaimedNotification :=
  seen.flatMap (fun entry => rowsClaimed entry.1 entry.2)

/-- A claim hands out its rows under its tokens, and a send uses one of them. -/
def messages : Tokens Effect Effect.Answer (String × Nat) where
  issued effect answer := (rowsClaimed effect answer).map ClaimedNotification.pair
  used
    | .send message token => some (message.notificationId, token)
    | _ => none

def claimsOf (notificationId : String) (effect : Effect) (answer : effect.Answer) : Nat :=
  (messages.issued effect answer).countP (fun pair => pair.1 = notificationId)

def sendsOf (notificationId : String) (effect : Effect) (_ : effect.Answer) : Nat :=
  (messages.used effect).toList.countP (fun pair => pair.1 = notificationId)

theorem gainedIn_claims (notificationId : String) (seen : History Effect Effect.Answer) :
    gainedIn (claimsOf notificationId) seen =
      (messages.issuedIn seen).countP (fun pair => pair.1 = notificationId) := by
  induction seen with
  | nil => rfl
  | cons entry rest ih =>
      unfold gainedIn at ih ⊢
      rw [List.map_cons, List.sum_cons, ih, Tokens.issuedIn_cons, List.countP_append]
      rfl

theorem gainedIn_sends (notificationId : String) (seen : History Effect Effect.Answer) :
    gainedIn (sendsOf notificationId) seen =
      (messages.usedIn seen).countP (fun pair => pair.1 = notificationId) := by
  induction seen with
  | nil => rfl
  | cons entry rest ih =>
      unfold gainedIn at ih ⊢
      rw [List.map_cons, List.sum_cons, ih]
      unfold Tokens.usedIn sendsOf
      rw [List.filterMap_cons]
      cases messages.used entry.1 with
      | none => simp
      | some pair =>
          simp only [Option.toList_some, List.countP_cons, List.countP_nil, Nat.zero_add]
          omega

/-! ### What a dispatcher owes -/

/-- A send is made once under each claim, the recovery counts up to the attempts that are
shared, and a row whose attempts are spent is not put back. -/
def budgeted (maxAttempts : Nat) : Discipline Effect Effect.Answer where
  told effect answer := (messages.issued effect answer).Nodup
  owed seen
    | .reclaimExpired _ allowed _ => allowed = maxAttempts
    | .send message token =>
        (message.notificationId, token) ∈ messages.issuedIn seen ∧
          (message.notificationId, token) ∉ messages.usedIn seen
    | .mark notificationId token (.retrying _ _ _) =>
        ∃ claimed ∈ claimedIn seen, claimed.pair = (notificationId, token) ∧
          claimed.notification.attempts < maxAttempts
    | _ => True

/-- Dispatchers that share their attempts, each with its own channels, lease and limits. -/
def sharing (maxAttempts : Nat) (call : Dispatch DispatchResult) : Prop :=
  ∃ (dispatcher : NotificationDispatcher) (limit : Nat),
    dispatcher.maxAttempts = maxAttempts ∧ call = dispatcher.drainOnce limit

section Calls

variable {dispatcher : NotificationDispatcher} {seen : History Effect Effect.Answer}

theorem issuedIn_claimed (seen : History Effect Effect.Answer) :
    messages.issuedIn seen = (claimedIn seen).map ClaimedNotification.pair := by
  unfold Tokens.issuedIn claimedIn
  rw [List.map_flatMap]
  rfl

/-- The claims of a call are as they were, and it sent under the one claim at most. -/
def SentUnder (pair : String × Nat) (seen later : History Effect Effect.Answer) : Prop :=
  claimedIn later = claimedIn seen ∧
    ∀ other, other ∈ messages.usedIn later → other ∈ messages.usedIn seen ∨ other = pair

theorem mark_budgeted {maxAttempts : Nat} {notificationId : String} {token : Nat} {how : Mark}
    (next : Bool → DispatchResult) (pair : String × Nat)
    (howed : (budgeted maxAttempts).owed seen (.mark notificationId token how)) :
    Keeps (budgeted maxAttempts) (fun later _ => SentUnder pair seen later) (do
      let applied : Bool ← perform (.mark notificationId token how)
      pure (next applied)) seen := by
  refine ⟨howed, ?_⟩
  intro (applied : Bool) _
  refine ⟨by simp [claimedIn, rowsClaimed], fun other hother => ?_⟩
  rcases messages.mem_usedIn_snoc.mp hother with hold | hnew
  · exact .inl hold
  · cases hnew

theorem retry_budgeted {row : ClaimedNotification} (reason : String) (retryAfterMs : Option Int)
    (now : Int) (result : DispatchResult) (providerId : Option String) (pair : String × Nat)
    (hmine : row ∈ claimedIn seen) :
    Keeps (budgeted dispatcher.maxAttempts) (fun later _ => SentUnder pair seen later)
      (dispatcher.retry row reason retryAfterMs now result providerId) seen := by
  unfold NotificationDispatcher.retry
  split
  · exact mark_budgeted _ pair trivial
  · rename_i hunder
    exact mark_budgeted _ pair ⟨row, hmine, rfl, Nat.lt_of_not_le hunder⟩

theorem recordOutcome_budgeted {row : ClaimedNotification} (now : Int) (result : DispatchResult)
    (outcome : Except String ChannelResult) (pair : String × Nat) (hmine : row ∈ claimedIn seen) :
    Keeps (budgeted dispatcher.maxAttempts) (fun later _ => SentUnder pair seen later)
      (dispatcher.recordOutcome row now result outcome) seen := by
  cases outcome with
  | error message => exact retry_budgeted _ _ now result _ pair hmine
  | ok answer =>
      cases answer with
      | accepted providerId => exact mark_budgeted _ pair trivial
      | delivered providerId => exact mark_budgeted _ pair trivial
      | retryable reason retryAfterMs providerId =>
          exact retry_budgeted _ _ now result _ pair hmine
      | permanent reason providerId => exact mark_budgeted _ pair trivial

/-- One claimed row is sent at most once, under its own claim. -/
theorem processClaimed_budgeted {row : ClaimedNotification} (now : Int) (result : DispatchResult)
    (hmine : row ∈ claimedIn seen) (hunsent : row.pair ∉ messages.usedIn seen) :
    Keeps (budgeted dispatcher.maxAttempts) (fun later _ => SentUnder row.pair seen later)
      (dispatcher.processClaimed row now result) seen := by
  unfold NotificationDispatcher.processClaimed
  split
  · exact retry_budgeted _ _ now result _ row.pair hmine
  · cases row.notification.address with
    | none => exact mark_budgeted _ row.pair trivial
    | some address =>
        have hissued : row.pair ∈ messages.issuedIn seen := by
          rw [issuedIn_claimed]
          exact List.mem_map_of_mem hmine
        refine ⟨⟨hissued, hunsent⟩, ?_⟩
        intro (_ : Unit) _
        refine ⟨trivial, ?_⟩
        intro (outcome : Except String ChannelResult) _
        have hclaimed : claimedIn (seen ++ [⟨.send
            (NotificationDispatcher.messageOf row.notification address) row.token, ()⟩] ++
              [⟨.answered row.token, outcome⟩]) = claimedIn seen := by
          simp [claimedIn, rowsClaimed]
        apply (recordOutcome_budgeted now result outcome row.pair (hclaimed ▸ hmine)).mono
        rintro later _ ⟨hsame, hused⟩
        refine ⟨hsame.trans hclaimed, fun other hother => ?_⟩
        rcases hused other hother with hearlier | hown
        · rcases messages.mem_usedIn_snoc.mp hearlier with hsent | hanswered
          · rcases messages.mem_usedIn_snoc.mp hsent with hold | hnew
            · exact .inl hold
            · exact .inr (Option.some.inj hnew).symm
          · cases hanswered
        · exact .inr hown

theorem processAll_budgeted (now : Int) (rows : List ClaimedNotification) (result : DispatchResult)
    (seen : History Effect Effect.Answer) (hmine : ∀ row ∈ rows, row ∈ claimedIn seen)
    (hunsent : ∀ row ∈ rows, row.pair ∉ messages.usedIn seen)
    (hnodup : (rows.map ClaimedNotification.pair).Nodup) :
    Keeps (budgeted dispatcher.maxAttempts) anyEnd (dispatcher.processAll now rows result) seen := by
  induction rows generalizing seen result with
  | nil => exact trivial
  | cons row rest ih =>
      obtain ⟨hother, hrest⟩ := List.nodup_cons.mp hnodup
      refine (processClaimed_budgeted now result (hmine row (by simp))
        (hunsent row (by simp))).bind ?_ (fun _ _ _ => trivial)
      rintro later result' ⟨hclaimed, hused⟩
      refine ih result' later ?_ ?_ hrest
      · intro other hmember
        rw [hclaimed]
        exact hmine other (List.mem_cons_of_mem row hmember)
      · intro other hmember hsent
        rcases hused other.pair hsent with hold | hown
        · exact hunsent other (List.mem_cons_of_mem row hmember) hold
        · exact hother (hown ▸ List.mem_map_of_mem hmember)

theorem sharing_keeps {maxAttempts : Nat} (call : Dispatch DispatchResult)
    (hcall : sharing maxAttempts call) : Keeps (budgeted maxAttempts) anyEnd call [] := by
  obtain ⟨dispatcher, limit, rfl, rfl⟩ := hcall
  refine ⟨trivial, ?_⟩
  intro (now : Int) _
  refine ⟨rfl, ?_⟩
  intro (reclaimed : Nat) _
  refine ⟨trivial, ?_⟩
  intro (rows : List ClaimedNotification) hnodup
  refine processAll_budgeted now rows _ _ ?_ ?_ hnodup
  · intro row hrow
    simpa [claimedIn, rowsClaimed] using hrow
  · intro row _
    simp [Tokens.usedIn, messages]

end Calls

/-! ### What happens to one row -/

section Rows

variable {store : NotificationStore}

theorem claimRows_count (now leaseMs : Int) (rows : List Notification) (tokens : Nat)
    (notificationId : String) :
    ((NotificationStore.claimRows now leaseMs rows tokens).map ClaimedNotification.pair).countP
        (fun pair => pair.1 = notificationId) =
      (rows.map Notification.notificationId).count notificationId := by
  induction rows generalizing tokens with
  | nil => rfl
  | cons row rest ih =>
      have hfirst : (⟨row.claimed now leaseMs (tokens + 1), tokens + 1⟩ :
          ClaimedNotification).pair.1 = row.notificationId := rfl
      unfold NotificationStore.claimRows
      rw [List.map_cons, List.countP_cons, ih, List.map_cons, List.count_cons, hfirst]
      simp only [decide_eq_true_eq, beq_iff_eq]

/-- A claim counts one attempt for each row it hands out, and for no other. -/
theorem NotificationStore.claimDue_row (hkeyed : store.Keyed) (now : Int) (limit : Nat)
    (leaseMs : Int) (key : String) :
    (((store.claimDue now limit leaseMs).1.map ClaimedNotification.pair).countP
          (fun pair => pair.1 = key) = 0 ∧
        (store.claimDue now limit leaseMs).2.notifications.get key = store.notifications.get key) ∨
      ((store.claimDue now limit leaseMs).1.map ClaimedNotification.pair).countP
          (fun pair => pair.1 = key) = 1 ∧
        ∃ row claimed, store.notifications.get key = some row ∧ row.isDue now = true ∧
          claimed ∈ (store.claimDue now limit leaseMs).1 ∧
          claimed.notification = row.claimed now leaseMs claimed.token ∧
          (store.claimDue now limit leaseMs).2.notifications.get key = some claimed.notification := by
  have hcount : ((store.claimDue now limit leaseMs).1.map ClaimedNotification.pair).countP
      (fun pair => pair.1 = key) = (((notificationsInDueOrder (store.notifications.values.filter
        (fun row => row.isDue now))).take limit).map Notification.notificationId).count key :=
    claimRows_count now leaseMs _ store.tokens key
  have hnodup : (((notificationsInDueOrder (store.notifications.values.filter
      (fun row => row.isDue now))).take limit).map Notification.notificationId).Nodup := by
    have hperm := Platform.orderedBy_perm (fun row : Notification =>
      [.number row.nextAttemptAt, .number row.createdAt, .text row.notificationId])
      (store.notifications.values.filter (fun row => row.isDue now))
    have hfiltered := hkeyed.keys_nodup.sublist
      ((List.filter_sublist (p := fun row : Notification => row.isDue now)).map
        Notification.notificationId)
    exact ((hperm.map Notification.notificationId).nodup_iff.mpr hfiltered).sublist
      ((List.take_sublist _ _).map _)
  by_cases htaken : key ∈ ((notificationsInDueOrder (store.notifications.values.filter
      (fun row => row.isDue now))).take limit).map Notification.notificationId
  · refine .inr ⟨hcount.trans (List.count_eq_one_of_mem hnodup htaken), ?_⟩
    have hwritten : key ∈ ((store.claimDue now limit leaseMs).1.map
        ClaimedNotification.notification).map Notification.notificationId := by
      have hone : 0 < ((store.claimDue now limit leaseMs).1.map ClaimedNotification.pair).countP
          (fun pair => pair.1 = key) := by
        rw [hcount.trans (List.count_eq_one_of_mem hnodup htaken)]
        exact Nat.one_pos
      obtain ⟨pair, hpair, hown⟩ := List.countP_pos_iff.mp hone
      obtain ⟨claimed, hclaimed, rfl⟩ := List.mem_map.mp hpair
      rw [List.map_map]
      exact List.mem_map.mpr ⟨claimed, hclaimed, of_decide_eq_true hown⟩
    obtain ⟨written, hmember, hown, hget⟩ := store.notifications.get_putRows_mem hwritten
    obtain ⟨claimed, hclaimed, rfl⟩ := List.mem_map.mp hmember
    obtain ⟨row, hrow, hsame, -, -⟩ := mem_claimRows hclaimed
    obtain ⟨hvalue, hdue⟩ := mem_of_due hrow
    obtain ⟨other, hother⟩ := Table.mem_values.mp hvalue
    have hkey : other = key := by
      rw [← hkeyed other row hother, ← hown, hsame]
      rfl
    subst hkey
    exact ⟨row, claimed, hother, hdue, hclaimed, hsame, hget⟩
  · refine .inl ⟨hcount.trans (List.count_eq_zero_of_not_mem htaken), ?_⟩
    rcases store.notifications.get_putRows Notification.notificationId
      ((store.claimDue now limit leaseMs).1.map ClaimedNotification.notification) key
      with hsame | ⟨written, hwritten, hown, -⟩
    · exact hsame
    · obtain ⟨claimed, hclaimed, rfl⟩ := List.mem_map.mp hwritten
      obtain ⟨row, hrow, hsame, -, -⟩ := mem_claimRows hclaimed
      rw [hsame] at hown
      exact absurd (List.mem_map.mpr ⟨row, hrow, hown⟩) htaken

/-- What one operation makes of one row. -/
inductive RowTurn (maxAttempts drawn drawn' : Nat) :
    Option Notification → Option Notification → Prop where
  | same (row : Option Notification) : RowTurn maxAttempts drawn drawn' row row
  | arrived (row : Notification) (hattempts : row.attempts = 0) (hfree : row.claimToken = none) :
      RowTurn maxAttempts drawn drawn' none (some row)
  | claimed (row : Notification) (now leaseMs : Int) (token : Nat) (hpending : row.status = .pending)
      (hlow : drawn < token) (hhigh : token ≤ drawn') :
      RowTurn maxAttempts drawn drawn' (some row) (some (row.claimed now leaseMs token))
  | ended (row row' : Notification) (hprocessing : row.status = .processing)
      (hattempts : row'.attempts = row.attempts) (hfree : row'.claimToken = none)
      (hunder : row'.status = .pending → row'.attempts < maxAttempts) :
      RowTurn maxAttempts drawn drawn' (some row) (some row')

theorem NotificationStore.claimDue_turn (hkeyed : store.Keyed) (maxAttempts : Nat) (now : Int)
    (limit : Nat) (leaseMs : Int) (key : String) :
    RowTurn maxAttempts store.tokens (store.claimDue now limit leaseMs).2.tokens
      (store.notifications.get key)
      ((store.claimDue now limit leaseMs).2.notifications.get key) := by
  rcases store.claimDue_row hkeyed now limit leaseMs key with
    ⟨-, hsame⟩ | ⟨-, row, claimed, hrow, hdue, hclaimed, hown, hget⟩
  · rw [hsame]
    exact .same _
  · obtain ⟨_, _, _, hlow, hhigh⟩ := mem_claimRows hclaimed
    rw [hrow, hget, hown]
    simp only [Notification.isDue, Bool.and_eq_true, decide_eq_true_eq] at hdue
    exact .claimed row now leaseMs claimed.token hdue.1 hlow hhigh

theorem NotificationStore.reclaimExpired_turn (hkeyed : store.Keyed) (now : Int)
    (maxAttempts limit drawn drawn' : Nat) (key : String) :
    RowTurn maxAttempts drawn drawn' (store.notifications.get key)
      ((store.reclaimExpired now maxAttempts limit).2.notifications.get key) := by
  rcases store.reclaimExpired_get hkeyed now maxAttempts limit key with
    hsame | ⟨row, hrow, habandoned, hget⟩
  · rw [hsame]
    exact .same _
  · rw [hrow, hget]
    simp only [Notification.isAbandoned, Bool.and_eq_true, decide_eq_true_eq] at habandoned
    refine .ended row (row.reclaimed now maxAttempts) habandoned.1 rfl rfl fun hpending => ?_
    by_cases hspent : maxAttempts ≤ row.attempts
    · simp [Notification.reclaimed, hspent] at hpending
    · exact Nat.lt_of_not_le hspent

theorem NotificationStore.mark_turn {maxAttempts : Nat} {notificationId : String} {token : Nat}
    {how : Mark}
    (hunder : ∀ row, store.notifications.get notificationId = some row →
      row.claimToken = some token → (row.marked how).status = .pending →
        row.attempts < maxAttempts) (drawn drawn' : Nat) (key : String) :
    RowTurn maxAttempts drawn drawn' (store.notifications.get key)
      ((store.mark notificationId token how).2.notifications.get key) := by
  rcases store.mark_cases notificationId token how with
    hsame | ⟨row, hrow, hprocessing, htoken, hwritten⟩
  · rw [hsame]
    exact .same _
  · rw [hwritten, Table.get_put]
    by_cases hkey : notificationId = key
    · subst hkey
      rw [if_pos rfl, hrow]
      have hattempts : (row.marked how).attempts = row.attempts := by
        cases how <;> rfl
      refine .ended row (row.marked how) hprocessing hattempts ?_ fun hpending => ?_
      · cases how <;> rfl
      · rw [hattempts]
        exact hunder row hrow htoken hpending
    · rw [if_neg hkey]
      exact .same _

theorem MailRoom.queue_keyed {room : MailRoom} (hkeyed : room.store.Keyed)
    (message : QueuedMessage) : (room.queue message).store.Keyed := by
  unfold MailRoom.queue
  split
  · rename_i inserted notifications hqueued
    exact (queueNotification_spares hqueued).1 hkeyed
  · exact hkeyed

theorem MailRoom.queue_turn (room : MailRoom) (message : QueuedMessage)
    (maxAttempts drawn drawn' : Nat) (key : String) :
    RowTurn maxAttempts drawn drawn' (room.store.notifications.get key)
      ((room.queue message).store.notifications.get key) := by
  unfold MailRoom.queue
  split
  · rename_i inserted notifications hqueued
    unfold Eventing.queueNotification at hqueued
    split at hqueued
    · obtain ⟨-, rfl⟩ := Prod.mk.inj (Except.ok.inj hqueued)
      exact .same _
    split at hqueued
    · cases hqueued
    split at hqueued
    · cases hqueued
    · rename_i hfree
      obtain ⟨-, rfl⟩ := Prod.mk.inj (Except.ok.inj hqueued)
      dsimp only
      rw [Table.get_put]
      split
      · rename_i hkey
        have hnone : room.store.notifications.get key = none := by
          rw [← hkey]
          simpa using hfree
        rw [hnone]
        exact .arrived _ rfl rfl
      · exact .same _
  · exact .same _

end Rows

/-! ### Runs -/

section Runs

variable {maxAttempts : Nat}

/-- Attempts within the budget that is shared, and one left for a row that may be claimed. -/
structure MailRoom.Spendable (maxAttempts : Nat) (room : MailRoom) : Prop where
  keyed : room.store.Keyed
  drawn : ∀ key row token, room.store.notifications.get key = some row →
    row.claimToken = some token → token ≤ room.store.tokens
  attempts : ∀ key row, room.store.notifications.get key = some row → row.attempts ≤ maxAttempts
  pending : ∀ key row, room.store.notifications.get key = some row → row.status = .pending →
    row.attempts < maxAttempts

/-- A claim that stands was there already where its token was, and a settled row stays as
it is. -/
structure MailRoom.Later (room room' : MailRoom) : Prop where
  tokens : room.store.tokens ≤ room'.store.tokens
  claims : ∀ key row' token, room'.store.notifications.get key = some row' →
    row'.claimToken = some token → token ≤ room.store.tokens →
      ∃ row, room.store.notifications.get key = some row ∧ row.claimToken = some token ∧
        row.attempts = row'.attempts
  settled : ∀ key row, room.store.notifications.get key = some row → row.status.isSettled = true →
    room'.store.notifications.get key = some row

theorem MailRoom.Later.refl (room : MailRoom) : room.Later room :=
  ⟨le_refl _, fun _ row' _ hrow' htoken _ => ⟨row', hrow', htoken, rfl⟩, fun _ _ hrow _ => hrow⟩

theorem MailRoom.Later.trans {first second third : MailRoom} (h : first.Later second)
    (h' : second.Later third) : first.Later third := by
  refine ⟨h.tokens.trans h'.tokens, ?_, fun key row hrow hsettled =>
    h'.settled key row (h.settled key row hrow hsettled) hsettled⟩
  intro key row'' token hrow'' htoken hdrawn
  obtain ⟨row', hrow', htoken', hattempts'⟩ :=
    h'.claims key row'' token hrow'' htoken (hdrawn.trans h.tokens)
  obtain ⟨row, hrow, htoken'', hattempts⟩ := h.claims key row' token hrow' htoken' hdrawn
  exact ⟨row, hrow, htoken'', hattempts.trans hattempts'⟩

/-- What the turns of all rows keep. -/
theorem MailRoom.Spendable.turns {room room' : MailRoom} (h : room.Spendable maxAttempts)
    (hpos : 1 ≤ maxAttempts) (hkeyed : room'.store.Keyed)
    (htokens : room.store.tokens ≤ room'.store.tokens)
    (hturns : ∀ key, RowTurn maxAttempts room.store.tokens room'.store.tokens
      (room.store.notifications.get key) (room'.store.notifications.get key)) :
    room'.Spendable maxAttempts ∧ room.Later room' := by
  refine ⟨⟨hkeyed, ?_, ?_, ?_⟩, htokens, ?_, ?_⟩
  · intro key row' token hrow' htoken
    have hturn := hturns key
    rw [hrow'] at hturn
    generalize hbefore : room.store.notifications.get key = before at hturn
    cases hturn with
    | same => exact (h.drawn key row' token hbefore htoken).trans htokens
    | arrived _ _ hfree => rw [hfree] at htoken; cases htoken
    | claimed row now leaseMs claim _ _ hhigh =>
        obtain rfl : claim = token := Option.some.inj htoken
        exact hhigh
    | ended row _ _ _ hfree _ => rw [hfree] at htoken; cases htoken
  · intro key row' hrow'
    have hturn := hturns key
    rw [hrow'] at hturn
    generalize hbefore : room.store.notifications.get key = before at hturn
    cases hturn with
    | same => exact h.attempts key row' hbefore
    | arrived _ hattempts _ => rw [hattempts]; exact Nat.zero_le _
    | claimed row now leaseMs claim hpending _ _ => exact h.pending key row hbefore hpending
    | ended row _ _ hattempts _ _ => rw [hattempts]; exact h.attempts key row hbefore
  · intro key row' hrow' hpending
    have hturn := hturns key
    rw [hrow'] at hturn
    generalize hbefore : room.store.notifications.get key = before at hturn
    cases hturn with
    | same => exact h.pending key row' hbefore hpending
    | arrived _ hattempts _ => rw [hattempts]; exact hpos
    | claimed row now leaseMs claim _ _ _ => cases hpending
    | ended row _ _ _ _ hunder => exact hunder hpending
  · intro key row' token hrow' htoken hdrawn
    have hturn := hturns key
    rw [hrow'] at hturn
    generalize hbefore : room.store.notifications.get key = before at hturn
    cases hturn with
    | same => exact ⟨row', rfl, htoken, rfl⟩
    | arrived _ _ hfree => rw [hfree] at htoken; cases htoken
    | claimed row now leaseMs claim _ hlow _ =>
        obtain rfl : claim = token := Option.some.inj htoken
        omega
    | ended row _ _ _ hfree _ => rw [hfree] at htoken; cases htoken
  · intro key row hrow hsettled
    have hturn := hturns key
    rw [hrow] at hturn
    generalize hafter : room'.store.notifications.get key = after at hturn
    cases hturn with
    | same => rfl
    | claimed _ now leaseMs claim hpending _ _ =>
        rw [hpending] at hsettled
        cases hsettled
    | ended _ row' hprocessing _ _ _ =>
        rw [hprocessing] at hsettled
        cases hsettled

theorem MailRoom.Spendable.rewritten {room : MailRoom} (h : room.Spendable maxAttempts)
    (hpos : 1 ≤ maxAttempts) (store : NotificationStore) (hkeyed : store.Keyed)
    (htokens : room.store.tokens ≤ store.tokens)
    (hturns : ∀ key, RowTurn maxAttempts room.store.tokens store.tokens
      (room.store.notifications.get key) (store.notifications.get key)) :
    { room with store := store }.Spendable maxAttempts ∧ room.Later { room with store := store } :=
  h.turns hpos hkeyed htokens hturns

/-- What touches no row. -/
theorem MailRoom.Spendable.spared {room room' : MailRoom} (h : room.Spendable maxAttempts)
    (hsame : room'.store = room.store) :
    room'.Spendable maxAttempts ∧ room.Later room' := by
  obtain ⟨now, store, inFlight, started⟩ := room'
  subst hsame
  have hlater := MailRoom.Later.refl room
  exact ⟨⟨h.keyed, h.drawn, h.attempts, h.pending⟩,
    ⟨hlater.tokens, hlater.claims, hlater.settled⟩⟩

/-- Claims are told apart by their tokens; what a claim handed out says of the attempts
stays true of the row for as long as it carries that token. -/
def spending (maxAttempts : Nat) : Contract MailRoom Effect Effect.Answer where
  toDiscipline := budgeted maxAttempts
  inv := MailRoom.Spendable maxAttempts
  guar := MailRoom.Later
  guar_refl := MailRoom.Later.refl
  guar_trans := MailRoom.Later.trans
  known effect answer room := ∀ claimed ∈ rowsClaimed effect answer,
    claimed.token ≤ room.store.tokens ∧
      ∀ row, room.store.notifications.get claimed.notification.notificationId = some row →
        row.claimToken = some claimed.token → row.attempts = claimed.notification.attempts
  known_stable := by
    intro effect answer room room' hlater hknown claimed hclaimed
    obtain ⟨hdrawn, hattempts⟩ := hknown claimed hclaimed
    refine ⟨hdrawn.trans hlater.tokens, fun row' hrow' htoken => ?_⟩
    obtain ⟨row, hrow, htoken', hsame⟩ := hlater.claims _ row' _ hrow' htoken hdrawn
    rw [← hsame]
    exact hattempts row hrow htoken'

theorem spending_upheld {leaseMs : Int} (hpos : 1 ≤ maxAttempts) :
    Upheld (spending maxAttempts) (dispatching leaseMs) (sharing maxAttempts) anything where
  call := sharing_keeps
  tick := by
    intro turn room room' hspendable htick
    cases turn with
    | proceed => cases htick
    | reading now => cases htick
    | answer result => cases htick
    | elapsed milliseconds =>
        change (if _ then _ else none) = some room' at htick
        split at htick
        · obtain rfl := Option.some.inj htick
          exact hspendable.spared rfl
        · cases htick
    | ended token =>
        obtain rfl := Option.some.inj htick
        exact hspendable.spared rfl
    | queued message =>
        obtain rfl := Option.some.inj htick
        refine hspendable.turns hpos (MailRoom.queue_keyed hspendable.keyed message) ?_
          (room.queue_turn message maxAttempts _ _)
        unfold MailRoom.queue
        split <;> exact le_rfl
  act := by
    intro seen effect turn answer room room' hspendable hknown howed _ hperform
    have hkeyed := hspendable.keyed
    cases effect with
    | clock =>
        cases turn with
        | reading now =>
            obtain ⟨rfl, rfl⟩ := Prod.mk.inj (Option.some.inj hperform)
            refine ⟨List.nodup_nil, hspendable, MailRoom.Later.refl room, ?_⟩
            intro claimed hclaimed
            cases hclaimed
        | _ => cases hperform
    | reclaimExpired now allowed limit =>
        cases turn with
        | proceed =>
            obtain ⟨rfl, rfl⟩ := Prod.mk.inj (Option.some.inj hperform)
            obtain rfl : allowed = maxAttempts := howed
            obtain ⟨hspendable', hlater⟩ := hspendable.rewritten hpos
              (room.store.reclaimExpired now allowed limit).2 (hkeyed.putRows _) le_rfl
              (fun key => room.store.reclaimExpired_turn hkeyed now allowed limit _ _ key)
            refine ⟨List.nodup_nil, hspendable', hlater, ?_⟩
            intro claimed hclaimed
            cases hclaimed
        | _ => cases hperform
    | claimDue now limit lease =>
        cases turn with
        | proceed =>
            obtain ⟨rfl, rfl⟩ := Prod.mk.inj (Option.some.inj hperform)
            obtain ⟨hspendable', hlater⟩ := hspendable.rewritten hpos
              (room.store.claimDue now limit lease).2 (hkeyed.putRows _) (Nat.le_add_right _ _)
              (fun key => room.store.claimDue_turn hkeyed maxAttempts now limit lease key)
            have hnodup : ((room.store.claimDue now limit lease).1.map
                ClaimedNotification.token).Nodup :=
              NotificationStore.claimRows_nodup now lease _ room.store.tokens
            refine ⟨?_, hspendable', hlater, ?_⟩
            · refine List.Nodup.of_map Prod.snd ?_
              change (((room.store.claimDue now limit lease).1.map
                ClaimedNotification.pair).map Prod.snd).Nodup
              rw [List.map_map]
              exact hnodup
            · intro claimed hclaimed
              obtain ⟨_, _, hown, hlow, hhigh⟩ := NotificationStore.mem_claimRows hclaimed
              refine ⟨hhigh, fun row' hrow' htoken => ?_⟩
              rcases room.store.claimDue_row hkeyed now limit lease
                claimed.notification.notificationId with
                ⟨-, hsame⟩ | ⟨-, row, other, hrow, -, hother, hclaims, hget⟩
              · have hdrawn := hspendable.drawn _ row' _ (hsame ▸ hrow') htoken
                omega
              · obtain rfl := Option.some.inj (hget.symm.trans hrow')
                rw [hclaims] at htoken
                have hsame : other = claimed :=
                  List.inj_on_of_nodup_map hnodup hother hclaimed (Option.some.inj htoken)
                rw [hsame]
        | _ => cases hperform
    | send message token =>
        cases turn with
        | proceed =>
            obtain ⟨rfl, rfl⟩ := Prod.mk.inj (Option.some.inj hperform)
            refine ⟨List.nodup_nil, and_assoc.mp ⟨hspendable.spared rfl, ?_⟩⟩
            intro claimed hclaimed
            cases hclaimed
        | _ => cases hperform
    | answered token =>
        cases turn with
        | answer result =>
            obtain ⟨rfl, rfl⟩ := Prod.mk.inj (Option.some.inj hperform)
            refine ⟨List.nodup_nil, and_assoc.mp ⟨hspendable.spared rfl, ?_⟩⟩
            intro claimed hclaimed
            cases hclaimed
        | _ => cases hperform
    | mark notificationId token how =>
        cases turn with
        | proceed =>
            obtain ⟨rfl, rfl⟩ := Prod.mk.inj (Option.some.inj hperform)
            have hunder : ∀ row, room.store.notifications.get notificationId = some row →
                row.claimToken = some token → (row.marked how).status = .pending →
                  row.attempts < maxAttempts := by
              intro row hrow htoken hpending
              cases how with
              | retrying reason nextAttemptAt providerId =>
                  obtain ⟨claimed, hclaimed, hpair, hleft⟩ := howed
                  obtain ⟨entry, hentry, hrows⟩ := List.mem_flatMap.mp hclaimed
                  obtain ⟨rfl, rfl⟩ := Prod.mk.inj hpair
                  obtain ⟨-, hattempts⟩ := hknown entry hentry claimed hrows
                  rw [hattempts row hrow htoken]
                  exact hleft
              | accepted providerId at' => cases hpending
              | delivered providerId at' => cases hpending
              | failed reason at' providerId => cases hpending
            have htokens : room.store.tokens ≤
                (room.store.mark notificationId token how).2.tokens := by
              rcases room.store.mark_cases notificationId token how with hsame | ⟨_, _, _, _, hsame⟩
              · rw [hsame]
              · rw [hsame]
            obtain ⟨hspendable', hlater⟩ := hspendable.rewritten hpos
              (room.store.mark notificationId token how).2 (NotificationStore.Keyed.mark hkeyed notificationId token how)
              htokens (fun key => NotificationStore.mark_turn hunder _ _ key)
            refine ⟨List.nodup_nil, hspendable', hlater, ?_⟩
            intro claimed hclaimed
            cases hclaimed
        | _ => cases hperform

/-- Every send the channels ever saw is one that a dispatcher started. -/
theorem run_sends {leaseMs : Int} {calls : Dispatch DispatchResult → Prop} {world : DispatchWorld}
    {start : Int} (notificationId : String)
    (hrun : Run (dispatching leaseMs) calls anything (World.initial (MailRoom.empty start)) world) :
    world.store.started.count notificationId = world.total (sendsOf notificationId) := by
  have hlevel := Run.tallies (sendsOf notificationId) (fun _ => True)
    (fun room : MailRoom => room.started.count notificationId) ?_ ?_ trivial hrun
  · simpa [World.initial, MailRoom.empty, World.total] using hlevel.2
  · intro effect turn answer room room' _ hperform
    refine ⟨trivial, ?_⟩
    cases effect with
    | clock =>
        cases turn with
        | reading now =>
            obtain ⟨rfl, rfl⟩ := Prod.mk.inj (Option.some.inj hperform)
            rfl
        | _ => cases hperform
    | answered token =>
        cases turn with
        | answer result =>
            obtain ⟨rfl, rfl⟩ := Prod.mk.inj (Option.some.inj hperform)
            rfl
        | _ => cases hperform
    | send message token =>
        cases turn with
        | proceed =>
            obtain ⟨rfl, rfl⟩ := Prod.mk.inj (Option.some.inj hperform)
            simp only [List.count_cons, sendsOf, messages, Option.toList_some, List.countP_cons,
              List.countP_nil, Nat.zero_add, beq_iff_eq, decide_eq_true_eq]
        | _ => cases hperform
    | _ =>
        cases turn with
        | proceed =>
            obtain ⟨rfl, rfl⟩ := Prod.mk.inj (Option.some.inj hperform)
            rfl
        | _ => cases hperform
  · intro turn room room' _ htick
    refine ⟨trivial, ?_⟩
    cases turn with
    | elapsed milliseconds =>
        change (if _ then _ else none) = some room' at htick
        split at htick
        · obtain rfl := Option.some.inj htick
          rfl
        · cases htick
    | ended token =>
        obtain rfl := Option.some.inj htick
        rfl
    | queued message =>
        obtain rfl := Option.some.inj htick
        unfold MailRoom.queue
        split <;> rfl
    | _ => cases htick

def MailRoom.attemptsOf (room : MailRoom) (notificationId : String) : Nat :=
  (room.store.notifications.get notificationId).elim 0 Notification.attempts

/-- Where no row is claimed, the attempts stay. -/
theorem RowTurn.unclaimed {drawn : Nat} {before after : Option Notification}
    (h : RowTurn maxAttempts drawn drawn before after) :
    after.elim 0 Notification.attempts = before.elim 0 Notification.attempts := by
  cases h with
  | same => rfl
  | arrived _ hattempts _ => exact hattempts
  | claimed _ _ _ _ _ hlow hhigh => omega
  | ended _ _ _ hattempts _ _ => exact hattempts

/-- The attempts of a row count its claims. -/
theorem run_claims {leaseMs : Int} {calls : Dispatch DispatchResult → Prop}
    {world world' : DispatchWorld} (notificationId : String) (hkeyed : world.store.store.Keyed)
    (hrun : Run (dispatching leaseMs) calls anything world world') :
    world'.store.attemptsOf notificationId + world.total (claimsOf notificationId) =
      world.store.attemptsOf notificationId + world'.total (claimsOf notificationId) := by
  refine (Run.tallies (claimsOf notificationId) (fun room : MailRoom => room.store.Keyed)
    (fun room : MailRoom => room.attemptsOf notificationId) ?_ ?_ hkeyed hrun).2
  · intro effect turn answer room room' hkeyed' hperform
    cases effect with
    | clock =>
        cases turn with
        | reading now =>
            obtain ⟨rfl, rfl⟩ := Prod.mk.inj (Option.some.inj hperform)
            exact ⟨hkeyed', rfl⟩
        | _ => cases hperform
    | answered token =>
        cases turn with
        | answer result =>
            obtain ⟨rfl, rfl⟩ := Prod.mk.inj (Option.some.inj hperform)
            exact ⟨hkeyed', rfl⟩
        | _ => cases hperform
    | send message token =>
        cases turn with
        | proceed =>
            obtain ⟨rfl, rfl⟩ := Prod.mk.inj (Option.some.inj hperform)
            exact ⟨hkeyed', rfl⟩
        | _ => cases hperform
    | reclaimExpired now allowed limit =>
        cases turn with
        | proceed =>
            obtain ⟨rfl, rfl⟩ := Prod.mk.inj (Option.some.inj hperform)
            exact ⟨hkeyed'.putRows _, RowTurn.unclaimed
              (room.store.reclaimExpired_turn hkeyed' now allowed limit 0 0 notificationId)⟩
        | _ => cases hperform
    | claimDue now limit lease =>
        cases turn with
        | proceed =>
            obtain ⟨rfl, rfl⟩ := Prod.mk.inj (Option.some.inj hperform)
            refine ⟨hkeyed'.putRows _, ?_⟩
            change ((room.store.claimDue now limit lease).2.notifications.get notificationId).elim 0
              Notification.attempts = room.attemptsOf notificationId +
                ((room.store.claimDue now limit lease).1.map ClaimedNotification.pair).countP
                  (fun pair => pair.1 = notificationId)
            unfold MailRoom.attemptsOf
            rcases room.store.claimDue_row hkeyed' now limit lease notificationId with
              ⟨hnone, hsame⟩ | ⟨hone, row, claimed, hrow, -, -, hown, hget⟩
            · rw [hnone, hsame, Nat.add_zero]
            · rw [hone, hget, hrow, hown]
              rfl
        | _ => cases hperform
    | mark key token how =>
        cases turn with
        | proceed =>
            obtain ⟨rfl, rfl⟩ := Prod.mk.inj (Option.some.inj hperform)
            have hunder : ∀ row, room.store.notifications.get key = some row →
                row.claimToken = some token → (row.marked how).status = .pending →
                  row.attempts < room.attemptsOf key + 1 := by
              intro row hrow _ _
              simp [MailRoom.attemptsOf, hrow]
            exact ⟨NotificationStore.Keyed.mark hkeyed' key token how,
              RowTurn.unclaimed (NotificationStore.mark_turn hunder 0 0 notificationId)⟩
        | _ => cases hperform
  · intro turn room room' hkeyed' htick
    cases turn with
    | elapsed milliseconds =>
        change (if _ then _ else none) = some room' at htick
        split at htick
        · obtain rfl := Option.some.inj htick
          exact ⟨hkeyed', rfl⟩
        · cases htick
    | ended token =>
        obtain rfl := Option.some.inj htick
        exact ⟨hkeyed', rfl⟩
    | queued message =>
        obtain rfl := Option.some.inj htick
        exact ⟨MailRoom.queue_keyed hkeyed' message,
          RowTurn.unclaimed (room.queue_turn message 0 0 0 notificationId)⟩
    | _ => cases htick

theorem messages_snoc {seen : History Effect Effect.Answer} {effect : Effect}
    {answer : effect.Answer}
    (h : (messages.usedIn seen).Nodup ∧
      ∀ pair ∈ messages.usedIn seen, pair ∈ messages.issuedIn seen)
    (howed : (spending maxAttempts).owed seen effect) :
    (messages.usedIn (seen ++ [⟨effect, answer⟩])).Nodup ∧
      ∀ pair ∈ messages.usedIn (seen ++ [⟨effect, answer⟩]),
        pair ∈ messages.issuedIn (seen ++ [⟨effect, answer⟩]) := by
  obtain ⟨hnodup, hown⟩ := h
  have hnew : ∀ pair ∈ (messages.used effect).toList,
      pair ∈ messages.issuedIn seen ∧ pair ∉ messages.usedIn seen := by
    intro pair hpair
    cases effect with
    | send message token =>
        rw [List.mem_singleton.mp hpair]
        exact howed
    | _ => cases hpair
  rw [Tokens.usedIn_snoc, Tokens.issuedIn_snoc]
  refine ⟨List.nodup_append'.mpr ⟨hnodup, ?_, ?_⟩, fun pair hpair => List.mem_append_left _ ?_⟩
  · cases messages.used effect with
    | none => exact List.nodup_nil
    | some pair => exact List.nodup_singleton pair
  · exact fun pair hold hpair => (hnew pair hpair).2 hold
  · rcases List.mem_append.mp hpair with hold | hlast
    · exact hown pair hold
    · exact (hnew pair hlast).1

/-- A call sends under its own claims only, and under each of them once. -/
theorem sends_le_claims {seen : History Effect Effect.Answer} (notificationId : String)
    (hnodup : (messages.usedIn seen).Nodup)
    (hown : ∀ pair ∈ messages.usedIn seen, pair ∈ messages.issuedIn seen) :
    gainedIn (sendsOf notificationId) seen ≤ gainedIn (claimsOf notificationId) seen := by
  rw [gainedIn_sends, gainedIn_claims]
  exact (List.subperm_of_subset hnodup hown).countP_le _

/-- The abandoned rows in the order a sweep recovers them. -/
def NotificationStore.expired (store : NotificationStore) (now : Int) : List Notification :=
  notificationsInDueOrder (store.notifications.values.filter (fun row => row.isAbandoned now))

/-- The row is among those that a sweep of this limit recovers. -/
def WithinLimit (store : NotificationStore) (now : Int) (limit : Nat) (row : Notification) : Prop :=
  row ∈ (store.expired now).take limit

/-- From the one world to the other: sends and attempts within the budget, no settled row
claimed again, and an abandoned row with its budget spent failed by any next sweep that is
to find it. -/
structure SendBound (maxAttempts : Nat)
    (found : NotificationStore → Int → Nat → Notification → Prop) (world world' : DispatchWorld) :
    Prop where
  sends : ∀ notificationId, world'.store.started.count notificationId ≤ maxAttempts
  attempts : ∀ notificationId row,
    world'.store.store.notifications.get notificationId = some row → row.attempts ≤ maxAttempts
  settled : ∀ notificationId, world.store.Settled notificationId →
    world'.store.Settled notificationId ∧
      world'.total (claimsOf notificationId) = world.total (claimsOf notificationId)
  recovered : ∀ now limit notificationId row,
    world'.store.store.notifications.get notificationId = some row → row.isAbandoned now = true →
      maxAttempts ≤ row.attempts → found world'.store.store now limit row →
        ∃ row', (world'.store.store.reclaimExpired now maxAttempts limit).2.notifications.get
          notificationId = some row' ∧ row'.status = .failed

theorem spendable_empty (start : Int) : (MailRoom.empty start).Spendable maxAttempts := by
  refine ⟨?_, ?_, ?_, ?_⟩
  · intro key row hrow
    cases hrow
  · intro key row token hrow
    cases hrow
  · intro key row hrow
    cases hrow
  · intro key row hrow
    cases hrow

/-- Any number of dispatchers that share their attempts, in any order of their steps, with
crashes, channels that fail, leases that run out and clocks that read anything. How long a
send may last is a parameter of its own here, so it restricts no run. -/
theorem run_sendBound {leaseMs start : Int} {world world' : DispatchWorld}
    (hpos : 1 ≤ maxAttempts)
    (hreached : Run (dispatching leaseMs) (sharing maxAttempts) anything
      (World.initial (MailRoom.empty start)) world)
    (hrun : Run (dispatching leaseMs) (sharing maxAttempts) anything world world') :
    SendBound maxAttempts WithinLimit world world' := by
  have hupheld : Upheld (spending maxAttempts) (dispatching leaseMs) (sharing maxAttempts) anything :=
    spending_upheld hpos
  have hempty : (MailRoom.empty start).Spendable maxAttempts := spendable_empty start
  have hall := hreached.trans hrun
  obtain ⟨hkept, -⟩ := hupheld.run (Kept.initial hempty) hreached
  obtain ⟨-, hlater⟩ := hupheld.run hkept hrun
  obtain ⟨hkept', hown⟩ := hupheld.remembers (P := fun seen => (messages.usedIn seen).Nodup ∧
      ∀ pair ∈ messages.usedIn seen, pair ∈ messages.issuedIn seen)
    (Kept.initial hempty) (by simp [World.initial]) (by simp [Tokens.usedIn])
    (fun h howed _ => messages_snoc h howed) hall
  have hspendable : world'.store.Spendable maxAttempts := hkept'.inv
  refine ⟨fun notificationId => ?_, hspendable.attempts, ?_, ?_⟩
  · have hclaims := run_claims notificationId hempty.keyed hall
    have hattempts : world'.store.attemptsOf notificationId ≤ maxAttempts := by
      unfold MailRoom.attemptsOf
      cases hrow : world'.store.store.notifications.get notificationId with
      | none => exact Nat.zero_le _
      | some row => exact hspendable.attempts notificationId row hrow
    calc world'.store.started.count notificationId
      _ = world'.total (sendsOf notificationId) := run_sends notificationId hall
      _ ≤ world'.total (claimsOf notificationId) :=
          World.total_le fun task htask =>
            sends_le_claims notificationId (hown task htask).1 (hown task htask).2
      _ = world'.store.attemptsOf notificationId := by
          rw [World.total_initial, Nat.add_zero] at hclaims
          rw [hclaims]
          exact (Nat.zero_add _).symm
      _ ≤ maxAttempts := hattempts
  · rintro notificationId ⟨row, hrow, hsettled⟩
    have hrow' := hlater.settled notificationId row hrow hsettled
    refine ⟨⟨row, hrow', hsettled⟩, ?_⟩
    have hclaims := run_claims notificationId (show world.store.store.Keyed from hkept.inv.keyed) hrun
    have hsame : world'.store.attemptsOf notificationId = world.store.attemptsOf notificationId := by
      unfold MailRoom.attemptsOf
      rw [hrow, hrow']
    omega
  · intro now limit notificationId row hrow _ hspent hfound
    refine ⟨row.reclaimed now maxAttempts, ?_, ?_⟩
    · have hkept : ∀ row : Notification,
          (row.reclaimed now maxAttempts).notificationId = row.notificationId := fun _ => rfl
      have hwritten := Table.get_putRows_written hspendable.keyed _ hkept
        (fun other hother => (NotificationStore.mem_of_due hother).1) hfound
      rw [hspendable.keyed notificationId row hrow] at hwritten
      exact hwritten
    · simp [Notification.reclaimed, hspent]

end Runs

/-! ### Sweeps over spent messages -/

def dispatcherOf (maxAttempts : Nat) : NotificationDispatcher :=
  { channels := [.email], maxAttempts := maxAttempts }

theorem sharing_dispatcherOf (maxAttempts limit : Nat) :
    sharing maxAttempts ((dispatcherOf maxAttempts).drainOnce limit) := ⟨_, limit, rfl, rfl⟩

/-- The channel throws, and the worker of the second send is gone before its answer. -/
def sentTwice : DispatchSchedule :=
  [.tick (.queued (messageTo "first")), .start ((dispatcherOf 2).drainOnce 1)] ++
  acts 0 [.reading 0, .proceed, .proceed, .proceed, .answer (.error "reset"), .proceed] ++
  [.start ((dispatcherOf 2).drainOnce 1)] ++ acts 1 [.reading 1000, .proceed, .proceed, .proceed] ++
  [.start ((dispatcherOf 2).drainOnce 1)] ++ acts 2 [.reading 31000, .proceed]

def sweptAgain : DispatchSchedule := acts 2 [.proceed]

/-- Two claims are abandoned with their only attempt spent. -/
def bothAbandoned : DispatchSchedule :=
  [.tick (.queued (messageTo "first")), .tick (.queued (messageTo "second")),
    .start ((dispatcherOf 1).drainOnce 2)] ++ acts 0 [.reading 0, .proceed, .proceed]

set_option maxRecDepth 20000 in
theorem run_sendBound_sentTwice :
    ∃ world world', world.store.started = ["first", "first"] ∧ world.store.Settled "first" ∧
      SendBound 2 WithinLimit world world' := by
  have hplays : ((play (dispatching 30000) unrestricted sentTwice
      (World.initial (MailRoom.empty 0))).any (fun world =>
        (play (dispatching 30000) unrestricted sweptAgain world).any (fun _ =>
          world.store.started = ["first", "first"] ∧
            (world.store.store.notifications.get "first").any (fun row =>
              row.status.isSettled)))) = true := by
    decide +kernel
  obtain ⟨world, hworld, hnext⟩ := (Option.any_eq_true _ _).mp hplays
  obtain ⟨world', hworld', hends⟩ := (Option.any_eq_true _ _).mp hnext
  obtain ⟨hstarted, hsettled⟩ := of_decide_eq_true hends
  have hreached : Run (dispatching 30000) (sharing 2) anything
      (World.initial (MailRoom.empty 0)) world := by
    refine play_run hworld ?_ (fun _ _ _ _ => trivial)
    simp [sentTwice, acts, sharing_dispatcherOf]
  have hrun : Run (dispatching 30000) (sharing 2) anything world world' := by
    refine play_run hworld' ?_ (fun _ _ _ _ => trivial)
    simp [sweptAgain, acts]
  obtain ⟨row, hrow, hstatus⟩ := (Option.any_eq_true _ _).mp hsettled
  exact ⟨world, world', hstarted, ⟨row, hrow, hstatus⟩,
    run_sendBound (by decide) hreached hrun⟩

set_option maxRecDepth 20000 in
/-- A sweep of one row leaves the second abandoned message processing. -/
theorem run_sendBound_fails :
    ¬∀ (maxAttempts : Nat) (leaseMs start : Int) (world world' : DispatchWorld), 1 ≤ maxAttempts →
      Run (dispatching leaseMs) (sharing maxAttempts) anything
        (World.initial (MailRoom.empty start)) world →
      Run (dispatching leaseMs) (sharing maxAttempts) anything world world' →
      SendBound maxAttempts (fun _ _ _ _ => True) world world' := by
  intro hclaim
  have hplays : (play (dispatching 30000) unrestricted bothAbandoned
      (World.initial (MailRoom.empty 0))).any (fun world =>
        (world.store.store.notifications.get "second").any (fun row =>
          row.isAbandoned 30000 = true ∧ 1 ≤ row.attempts ∧
            ((world.store.store.reclaimExpired 30000 1 1).2.notifications.get "second").all
              (fun row' => row'.status ≠ .failed))) = true := by
    decide +kernel
  obtain ⟨world, hworld, hsecond⟩ := (Option.any_eq_true _ _).mp hplays
  obtain ⟨row, hrow, hends⟩ := (Option.any_eq_true _ _).mp hsecond
  obtain ⟨habandoned, hspent, hleft⟩ := of_decide_eq_true hends
  have hrun : Run (dispatching 30000) (sharing 1) anything
      (World.initial (MailRoom.empty 0)) world := by
    refine play_run hworld ?_ (fun _ _ _ _ => trivial)
    simp [bothAbandoned, acts, sharing_dispatcherOf]
  obtain ⟨row', hrow', hfailed⟩ := (hclaim 1 30000 0 world world le_rfl hrun .refl).recovered
    30000 1 "second" row hrow habandoned hspent trivial
  rw [hrow'] at hleft
  simp [hfailed] at hleft

end WaslaCore.Notification
