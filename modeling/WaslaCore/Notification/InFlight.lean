import WaslaCore.Interleaving.Tokens
import WaslaCore.Notification.Dispatcher

/-!
At most one send in flight, and none after a row is settled. The lease is taken for a
whole batch, so a send late in the batch may start when its claim is already gone, and
a claim may be taken while its send is still in flight. The results are about runs in
which neither happens.
-/

namespace WaslaCore.Notification

open Data Interleaving

/-- No two sends of one notification overlap. -/
def OneSendInFlight (room : MailRoom) : Prop :=
  (room.inFlight.map Send.notificationId).Nodup

/-- The row is committed as accepted, delivered or failed. -/
def MailRoom.Settled (room : MailRoom) (notificationId : String) : Prop :=
  ∃ row, room.store.notifications.get notificationId = some row ∧ row.status.isSettled = true

/-- From the one room to the other no send of a settled notification was started. -/
def NoneAfterSettled (room room' : MailRoom) : Prop :=
  ∀ notificationId, room.Settled notificationId →
    room'.started.count notificationId = room.started.count notificationId

/-- A send starts while its row still carries the claim it is made under, and no
recovery comes upon a row whose send is in flight. -/
def ClaimsHeld (_ : History Effect Effect.Answer) (effect : Effect) (room : MailRoom) : Prop :=
  match effect with
  | .send message token =>
      (room.store.fenced message.notificationId token).isSome = true
  | .reclaimExpired now _ _ =>
      ∀ send ∈ room.inFlight, ∀ row, room.store.fenced send.notificationId send.token = some row →
        now < row.nextAttemptAt
  | _ => True

/-! ### What a dispatcher owes -/

def tokensClaimed : (effect : Effect) → effect.Answer → List Nat
  | .claimDue _ _ _, rows =>
      (show List ClaimedNotification from rows).map ClaimedNotification.token
  | _, _ => []

def tokenUsed : Effect → Option Nat
  | .send _ token => some token
  | _ => none

/-- A claim hands out the tokens of its rows, a send uses its own. -/
def claims : Tokens Effect Effect.Answer Nat := ⟨tokensClaimed, tokenUsed⟩

@[simp] theorem claims_issued : claims.issued = tokensClaimed := rfl

@[simp] theorem claims_used : claims.used = tokenUsed := rfl

def answeredIn (seen : History Effect Effect.Answer) : List Nat :=
  seen.filterMap (fun entry => match entry.1 with
    | .answered token => some token
    | _ => none)

/-- Nothing was sent under the token yet. -/
def Unsent (seen : History Effect Effect.Answer) (token : Nat) : Prop :=
  token ∉ claims.usedIn seen ∧ token ∉ answeredIn seen

/-- A send is made once under each of the dispatcher's own tokens, and a result is
recorded before it or after its channel answered. -/
def dispatchRule : Discipline Effect Effect.Answer where
  told effect answer := (claims.issued effect answer).Nodup
  owed seen
    | .send _ token => token ∈ claims.issuedIn seen ∧ Unsent seen token
    | .mark _ token _ => token ∈ claims.issuedIn seen ∧
        (token ∈ claims.usedIn seen → token ∈ answeredIn seen)
    | _ => True

section Calls

variable (dispatcher : NotificationDispatcher)

/-- Which tokens a call holds, and those it has sent under, are as they were. -/
def SameTokens (seen later : History Effect Effect.Answer) : Prop :=
  claims.issuedIn later = claims.issuedIn seen ∧ claims.usedIn later = claims.usedIn seen ∧
    answeredIn later = answeredIn seen

/-- Of the tokens a call holds, only the one was sent under since. -/
def OnlySent (token : Nat) (seen later : History Effect Effect.Answer) : Prop :=
  claims.issuedIn later = claims.issuedIn seen ∧
    ∀ other, Unsent seen other → other ≠ token → Unsent later other

theorem SameTokens.onlySent {seen later : History Effect Effect.Answer}
    (h : SameTokens seen later) (token : Nat) : OnlySent token seen later := by
  obtain ⟨hissued, hused, hanswered⟩ := h
  refine ⟨hissued, fun other hunsent _ => ?_⟩
  rw [Unsent, hused, hanswered]
  exact hunsent

theorem mark_keeps {seen : History Effect Effect.Answer} {notificationId : String} {token : Nat}
    (how : Mark) (next : Bool → DispatchResult)
    (hmine : token ∈ claims.issuedIn seen)
    (hanswered : token ∈ claims.usedIn seen → token ∈ answeredIn seen) :
    Keeps dispatchRule (fun later _ => SameTokens seen later) (do
      let applied : Bool ← perform (.mark notificationId token how)
      pure (next applied)) seen := by
  refine ⟨⟨hmine, hanswered⟩, ?_⟩
  intro (applied : Bool) _
  exact ⟨by simp [tokensClaimed], by simp [Tokens.usedIn, tokenUsed], by simp [answeredIn]⟩

theorem retry_keeps {seen : History Effect Effect.Answer} {row : ClaimedNotification}
    (reason : String) (retryAfterMs : Option Int) (now : Int) (result : DispatchResult)
    (providerId : Option String) (hmine : row.token ∈ claims.issuedIn seen)
    (hanswered : row.token ∈ claims.usedIn seen → row.token ∈ answeredIn seen) :
    Keeps dispatchRule (fun later _ => SameTokens seen later)
      (dispatcher.retry row reason retryAfterMs now result providerId) seen := by
  unfold NotificationDispatcher.retry
  split
  · exact mark_keeps _ _ hmine hanswered
  · exact mark_keeps _ _ hmine hanswered

theorem recordOutcome_keeps {seen : History Effect Effect.Answer} (row : ClaimedNotification)
    (now : Int) (result : DispatchResult) (outcome : Except String ChannelResult)
    (hmine : row.token ∈ claims.issuedIn seen)
    (hanswered : row.token ∈ claims.usedIn seen → row.token ∈ answeredIn seen) :
    Keeps dispatchRule (fun later _ => SameTokens seen later)
      (dispatcher.recordOutcome row now result outcome) seen := by
  cases outcome with
  | error message => exact retry_keeps dispatcher _ _ now result _ hmine hanswered
  | ok answer =>
      cases answer with
      | accepted providerId => exact mark_keeps _ _ hmine hanswered
      | delivered providerId => exact mark_keeps _ _ hmine hanswered
      | retryable reason retryAfterMs providerId =>
          exact retry_keeps dispatcher _ _ now result _ hmine hanswered
      | permanent reason providerId => exact mark_keeps _ _ hmine hanswered

/-- One row uses at most its own token. -/
theorem processClaimed_keeps {seen : History Effect Effect.Answer} {row : ClaimedNotification}
    (now : Int) (result : DispatchResult) (hmine : row.token ∈ claims.issuedIn seen)
    (hunsent : Unsent seen row.token) :
    Keeps dispatchRule (fun later _ => OnlySent row.token seen later)
      (dispatcher.processClaimed row now result) seen := by
  have hnever : row.token ∈ claims.usedIn seen → row.token ∈ answeredIn seen :=
    fun hused => absurd hused hunsent.1
  unfold NotificationDispatcher.processClaimed
  split
  · exact (retry_keeps dispatcher _ _ now result _ hmine hnever).mono
      fun _ _ hsame => hsame.onlySent row.token
  · cases row.notification.address with
    | none => exact (mark_keeps _ _ hmine hnever).mono fun _ _ hsame => hsame.onlySent row.token
    | some address =>
        refine ⟨⟨hmine, hunsent⟩, ?_⟩
        intro (_ : Unit) _
        refine ⟨trivial, ?_⟩
        intro (outcome : Except String ChannelResult) _
        have hlater : row.token ∈ claims.issuedIn (seen ++ [⟨.send
            (NotificationDispatcher.messageOf row.notification address) row.token, ()⟩] ++
              [⟨.answered row.token, outcome⟩]) := by
          simpa [tokensClaimed] using hmine
        have hsent := recordOutcome_keeps dispatcher row now result outcome hlater
          (fun _ => by simp [answeredIn])
        apply hsent.mono
        rintro later _ ⟨hissued, hused, hanswered⟩
        refine ⟨by simpa [tokensClaimed] using hissued, fun other hother hne => ?_⟩
        rw [Unsent, hused, hanswered]
        simp only [Unsent, Tokens.usedIn, answeredIn] at hother ⊢
        simpa [tokenUsed, hne, Ne.symm hne] using hother

theorem processAll_keeps (now : Int) (rows : List ClaimedNotification) (result : DispatchResult)
    (seen : History Effect Effect.Answer)
    (hmine : ∀ row ∈ rows, row.token ∈ claims.issuedIn seen)
    (hunsent : ∀ row ∈ rows, Unsent seen row.token)
    (hnodup : (rows.map ClaimedNotification.token).Nodup) :
    Keeps dispatchRule anyEnd (dispatcher.processAll now rows result) seen := by
  induction rows generalizing seen result with
  | nil => exact trivial
  | cons row rest ih =>
      obtain ⟨hother, hrest⟩ := List.nodup_cons.mp hnodup
      refine (processClaimed_keeps dispatcher now result (hmine row (by simp))
        (hunsent row (by simp))).bind ?_ (fun _ _ _ => trivial)
      rintro later result' ⟨hissued, honly⟩
      refine ih result' later ?_ ?_ hrest
      · intro other hmember
        rw [hissued]
        exact hmine other (List.mem_cons_of_mem row hmember)
      · intro other hmember
        refine honly other.token (hunsent other (List.mem_cons_of_mem row hmember)) fun hsame => ?_
        exact hother (hsame ▸ List.mem_map_of_mem hmember)

theorem dispatchers_keep {leaseMs : Int} (call : Dispatch DispatchResult)
    (hcall : dispatchers leaseMs call) : Keeps dispatchRule anyEnd call [] := by
  obtain ⟨dispatcher, limit, -, rfl⟩ := hcall
  refine ⟨trivial, ?_⟩
  intro (now : Int) _
  refine ⟨trivial, ?_⟩
  intro (reclaimed : Nat) _
  refine ⟨trivial, ?_⟩
  intro (rows : List ClaimedNotification) hnodup
  refine processAll_keeps dispatcher now rows _ _ ?_ ?_ hnodup
  · intro row hrow
    simpa [tokensClaimed] using ⟨row, hrow, rfl⟩
  · intro row _
    simp [Unsent, answeredIn, Tokens.usedIn, tokenUsed]

end Calls

/-! ### What the store keeps -/

section Rows

variable {store store' : NotificationStore} {key : String} {row : Notification}

theorem NotificationStore.fenced_eq_some {token : Nat} :
    store.fenced key token = some row ↔ store.notifications.get key = some row ∧
      row.status = .processing ∧ row.claimToken = some token := by
  unfold NotificationStore.fenced
  cases store.notifications.get key with
  | none => simp
  | some found =>
      by_cases hfence : found.status = .processing ∧ found.claimToken = some token
      · simp only [if_pos hfence, Option.some.injEq]
        exact ⟨fun h => ⟨h, h ▸ hfence⟩, fun h => h.1⟩
      · simp only [if_neg hfence, Option.some.injEq]
        exact ⟨fun h => (by cases h), fun h => absurd (h.1 ▸ h.2) hfence⟩

/-- A claim touches pending rows only. -/
theorem NotificationStore.claimDue_spares (hkeyed : store.Keyed) (now : Int) (limit : Nat)
    (leaseMs : Int) (hrow : store.notifications.get key = some row) (hbusy : row.status ≠ .pending) :
    (store.claimDue now limit leaseMs).2.notifications.get key = some row := by
  rcases store.claimDue_get hkeyed now limit leaseMs key with hsame | ⟨found, _, hfound, hdue, -⟩
  · exact hsame.trans hrow
  · obtain rfl := Option.some.inj (hrow.symm.trans hfound)
    simp [Notification.isDue, hbusy] at hdue

/-- A recovery touches rows whose lease ran out only. -/
theorem NotificationStore.reclaimExpired_spares (hkeyed : store.Keyed) (now : Int)
    (maxAttempts limit : Nat) (hrow : store.notifications.get key = some row)
    (hleased : row.status = .processing → now < row.nextAttemptAt) :
    (store.reclaimExpired now maxAttempts limit).2.notifications.get key = some row := by
  rcases store.reclaimExpired_get hkeyed now maxAttempts limit key
    with hsame | ⟨found, hfound, habandoned, -⟩
  · exact hsame.trans hrow
  · obtain rfl := Option.some.inj (hrow.symm.trans hfound)
    simp only [Notification.isAbandoned, Bool.and_eq_true, decide_eq_true_eq] at habandoned
    exact absurd habandoned.2 (not_le.mpr (hleased habandoned.1))

/-- A result is written on the row that carries its token only. -/
theorem NotificationStore.mark_spares (notificationId : String) (token : Nat) (how : Mark)
    (hrow : store.notifications.get key = some row)
    (hother : key = notificationId → row.status = .processing → row.claimToken ≠ some token) :
    (store.mark notificationId token how).2.notifications.get key = some row := by
  rcases store.mark_cases notificationId token how
    with hsame | ⟨found, hfound, hprocessing, htoken, hwritten⟩
  · rw [hsame]
    exact hrow
  · rw [hwritten, Table.get_put]
    by_cases hkey : notificationId = key
    · subst hkey
      obtain rfl := Option.some.inj (hrow.symm.trans hfound)
      exact absurd htoken (hother rfl hprocessing)
    · rw [if_neg hkey]
      exact hrow

theorem NotificationStore.Keyed.mark (hkeyed : store.Keyed) (notificationId : String)
    (token : Nat) (how : Mark) : (store.mark notificationId token how).2.Keyed := by
  rcases store.mark_cases notificationId token how with hsame | ⟨row, hrow, -, -, hwritten⟩
  · rw [hsame]
    exact hkeyed
  · have hkept : (row.marked how).notificationId = notificationId := by
      rw [← hkeyed notificationId row hrow]
      cases how <;> rfl
    rw [hwritten]
    exact hkept ▸ Table.KeyedBy.put hkeyed (row.marked how)

/-- The fan-out's insert touches no row that is there. -/
theorem queueNotification_spares {notifications notifications' : Table Notification}
    {queued : Notification} {inserted : Bool} (h : Eventing.queueNotification notifications queued =
      .ok (inserted, notifications')) :
    (notifications.KeyedBy Notification.notificationId →
      notifications'.KeyedBy Notification.notificationId) ∧
    ∀ key row, notifications.get key = some row → notifications'.get key = some row := by
  unfold Eventing.queueNotification at h
  split at h
  · obtain ⟨-, rfl⟩ := Prod.mk.inj (Except.ok.inj h)
    exact ⟨fun hkeyed => hkeyed, fun _ _ hrow => hrow⟩
  split at h
  · cases h
  split at h
  · cases h
  · rename_i hfree
    obtain ⟨-, rfl⟩ := Prod.mk.inj (Except.ok.inj h)
    refine ⟨fun hkeyed => hkeyed.put queued, fun key row hrow => ?_⟩
    rw [Table.get_put]
    split
    · rename_i hkey
      rw [hkey, hrow] at hfree
      exact absurd rfl hfree
    · exact hrow

end Rows

/-! ### Runs -/

section Runs

/-- The store knows its rows, and every send in flight holds its row's claim. -/
structure MailRoom.Sound (room : MailRoom) : Prop where
  keyed : room.store.Keyed
  held : ∀ send ∈ room.inFlight, (room.store.fenced send.notificationId send.token).isSome = true
  one : OneSendInFlight room

/-- What was settled is settled, and no send of it was started since. -/
def Since (room room' : MailRoom) : Prop :=
  ∀ notificationId, room.Settled notificationId → room'.Settled notificationId ∧
    room'.started.count notificationId = room.started.count notificationId

/-- Every send in flight was started by a call that still awaits its answer. -/
def Awaited (inFlight : List Send) (tasks : List (Task Effect Effect.Answer Unit DispatchResult)) :
    Prop :=
  ∀ send ∈ inFlight, ∃ task ∈ tasks,
    send.token ∈ claims.usedIn task.seen ∧ send.token ∉ answeredIn task.seen

abbrev Drawn (room : MailRoom) (token : Nat) : Prop := token ≤ room.store.tokens

abbrev DispatchWorld := World MailRoom Effect Effect.Answer Unit DispatchResult

structure Dispatched (origin : MailRoom) (world : DispatchWorld) : Prop where
  sound : world.store.Sound
  separate : claims.Separate Drawn world
  awaited : Awaited world.store.inFlight world.tasks
  since : Since origin world.store

theorem Since.refl (room : MailRoom) : Since room room := fun _ h => ⟨h, rfl⟩

theorem Since.trans {first second third : MailRoom} (h : Since first second)
    (h' : Since second third) : Since first third := by
  intro notificationId hsettled
  obtain ⟨hthen, hcount⟩ := h notificationId hsettled
  obtain ⟨hnow, hcount'⟩ := h' notificationId hthen
  exact ⟨hnow, hcount'.trans hcount⟩

/-- An operation of the store that spares the claims of the sends in flight and every
settled row. -/
theorem MailRoom.Sound.rewritten {room : MailRoom} (hsound : room.Sound)
    (store' : NotificationStore) (hkeyed : store'.Keyed)
    (hheld : ∀ send ∈ room.inFlight, ∀ row,
      room.store.notifications.get send.notificationId = some row → row.status = .processing →
        row.claimToken = some send.token →
          store'.notifications.get send.notificationId = some row)
    (hsettled : ∀ key row, room.store.notifications.get key = some row →
      row.status.isSettled = true → store'.notifications.get key = some row) :
    ({ room with store := store' } : MailRoom).Sound ∧ Since room { room with store := store' } := by
  refine ⟨⟨hkeyed, fun send hsend => ?_, hsound.one⟩, ?_⟩
  · obtain ⟨row, hrow⟩ := Option.isSome_iff_exists.mp (hsound.held send hsend)
    obtain ⟨hfound, hprocessing, htoken⟩ := NotificationStore.fenced_eq_some.mp hrow
    exact Option.isSome_iff_exists.mpr ⟨row, NotificationStore.fenced_eq_some.mpr
      ⟨hheld send hsend row hfound hprocessing htoken, hprocessing, htoken⟩⟩
  · rintro notificationId ⟨row, hrow, hstatus⟩
    exact ⟨⟨row, hsettled notificationId row hrow hstatus, hstatus⟩, rfl⟩

theorem MailRoom.Sound.sendEnded {room : MailRoom} (hsound : room.Sound) (token : Nat) :
    (room.sendEnded token).Sound :=
  ⟨hsound.keyed, fun send hsend => hsound.held send (List.mem_of_mem_filter hsend),
    hsound.one.sublist (List.filter_sublist.map _)⟩

theorem Awaited.performs {inFlight : List Send} (effect : Effect) {answer : effect.Answer}
    {before after : List (Task Effect Effect.Answer Unit DispatchResult)}
    {seen : History Effect Effect.Answer} {rest rest' : Dispatch DispatchResult}
    (h : Awaited inFlight (before ++ ⟨seen, rest⟩ :: after))
    (hanswered : ∀ send ∈ inFlight, effect ≠ .answered send.token) :
    Awaited inFlight (before ++ ⟨seen ++ [⟨effect, answer⟩], rest'⟩ :: after) := by
  intro send hsend
  obtain ⟨task, htask, hused, hopen⟩ := h send hsend
  rcases List.mem_append.mp htask with hbefore | htail
  · exact ⟨task, List.mem_append_left _ hbefore, hused, hopen⟩
  rcases List.mem_cons.mp htail with rfl | hafter
  · refine ⟨⟨seen ++ [⟨effect, answer⟩], rest'⟩, by simp, claims.mem_usedIn_snoc.mpr (.inl hused), ?_⟩
    have hother := hanswered send hsend
    simp only [answeredIn, List.filterMap_append, List.mem_append] at hopen ⊢
    refine not_or.mpr ⟨hopen, ?_⟩
    cases effect with
    | answered token =>
        intro hmember
        have hsame : send.token = token := by simpa using hmember
        exact hother (by rw [hsame])
    | _ => simp
  · exact ⟨task, List.mem_append_right _ (List.mem_cons_of_mem _ hafter), hused, hopen⟩

variable {origin room room' : MailRoom} {effect : Effect} {answer : effect.Answer}
variable {before after : List (Task Effect Effect.Answer Unit DispatchResult)}
variable {seen : History Effect Effect.Answer} {next : effect.Answer → Dispatch DispatchResult}

/-- A token of the acting call that is in flight was sent under by that call itself,
and its answer is still out. -/
theorem Dispatched.mine {send : Send} {rest : Dispatch DispatchResult}
    (h : Dispatched origin ⟨room, before ++ ⟨seen, rest⟩ :: after⟩) (hsend : send ∈ room.inFlight)
    (hmine : send.token ∈ claims.issuedIn seen) :
    send.token ∈ claims.usedIn seen ∧ send.token ∉ answeredIn seen := by
  obtain ⟨task, htask, hused, hopen⟩ := h.awaited send hsend
  have hsame := h.separate.alone hmine htask (h.separate.own task htask _ hused)
  rw [hsame] at hused hopen
  exact ⟨hused, hopen⟩

/-- One action of a dispatcher under the condition. -/
theorem Dispatched.act {turn : DispatchTurn}
    (h : Dispatched origin ⟨room, before ++ ⟨seen, .act effect next⟩ :: after⟩)
    (howed : dispatchRule.owed seen effect) (hallowed : ClaimsHeld seen effect room)
    (hperform : room.answer effect turn = some (answer, room')) :
    dispatchRule.told effect answer ∧
      Dispatched origin ⟨room', before ++ ⟨seen ++ [⟨effect, answer⟩], next answer⟩ :: after⟩ := by
  cases effect with
  | clock =>
      cases turn with
      | reading now =>
          obtain ⟨rfl, rfl⟩ := Prod.mk.inj (Option.some.inj hperform)
          refine ⟨List.nodup_nil, h.sound, ?_, h.awaited.performs _ (by simp), h.since⟩
          exact h.separate.act (fun _ hdrawn => hdrawn) List.nodup_nil (by simp [tokensClaimed])
            (by simp [tokenUsed])
      | _ => cases hperform
  | reclaimExpired now maxAttempts limit =>
      cases turn with
      | proceed =>
          obtain ⟨rfl, rfl⟩ := Prod.mk.inj (Option.some.inj hperform)
          have hkeyed := h.sound.keyed
          obtain ⟨hsound, hsince⟩ := h.sound.rewritten
            (room.store.reclaimExpired now maxAttempts limit).2 (hkeyed.putRows _)
            (fun send hsend row hrow hprocessing htoken =>
              NotificationStore.reclaimExpired_spares hkeyed now maxAttempts limit hrow fun _ =>
                hallowed send hsend row
                  (NotificationStore.fenced_eq_some.mpr ⟨hrow, hprocessing, htoken⟩))
            (fun key row hrow hsettled =>
              NotificationStore.reclaimExpired_spares hkeyed now maxAttempts limit hrow
                fun hprocessing => by simp [hprocessing, NotificationStatus.isSettled] at hsettled)
          refine ⟨List.nodup_nil, hsound, ?_, h.awaited.performs _ (by simp), h.since.trans hsince⟩
          exact h.separate.act (fun _ hdrawn => hdrawn) List.nodup_nil (by simp [tokensClaimed])
            (by simp [tokenUsed])
      | _ => cases hperform
  | claimDue now limit leaseMs =>
      cases turn with
      | proceed =>
          obtain ⟨rfl, rfl⟩ := Prod.mk.inj (Option.some.inj hperform)
          have hkeyed := h.sound.keyed
          obtain ⟨hsound, hsince⟩ := h.sound.rewritten
            (room.store.claimDue now limit leaseMs).2 (hkeyed.putRows _)
            (fun send hsend row hrow hprocessing htoken =>
              NotificationStore.claimDue_spares hkeyed now limit leaseMs hrow (by simp [hprocessing]))
            (fun key row hrow hsettled =>
              NotificationStore.claimDue_spares hkeyed now limit leaseMs hrow
                fun hpending => by simp [hpending, NotificationStatus.isSettled] at hsettled)
          have hnodup := NotificationStore.claimRows_nodup now leaseMs
            ((notificationsInDueOrder (room.store.notifications.values.filter
              (fun row => row.isDue now))).take limit) room.store.tokens
          refine ⟨hnodup, hsound, ?_, h.awaited.performs _ (by simp), h.since.trans hsince⟩
          refine h.separate.act ?_ hnodup ?_ (by simp [tokenUsed])
          · intro token hdrawn
            exact le_trans hdrawn (Nat.le_add_right _ _)
          · intro token htoken
            obtain ⟨claimed, hclaimed, rfl⟩ := List.mem_map.mp htoken
            obtain ⟨_, _, _, hlow, hhigh⟩ := NotificationStore.mem_claimRows hclaimed
            exact ⟨not_le.mpr hlow, hhigh⟩
      | _ => cases hperform
  | send message token =>
      cases turn with
      | proceed =>
          obtain ⟨rfl, rfl⟩ := Prod.mk.inj (Option.some.inj hperform)
          obtain ⟨hmine, hunused, hunanswered⟩ := howed
          obtain ⟨row, hrow⟩ := Option.isSome_iff_exists.mp hallowed
          obtain ⟨hfound, hprocessing, htoken⟩ := NotificationStore.fenced_eq_some.mp hrow
          refine ⟨List.nodup_nil, ⟨h.sound.keyed, ?_, ?_⟩, ?_, ?_, h.since.trans ?_⟩
          · intro send hsend
            rcases List.mem_cons.mp hsend with rfl | hold
            · exact hallowed
            · exact h.sound.held send hold
          · refine List.nodup_cons.mpr ⟨fun hmember => ?_, h.sound.one⟩
            obtain ⟨other, hother, hsame⟩ := List.mem_map.mp hmember
            obtain ⟨row', hrow'⟩ := Option.isSome_iff_exists.mp (h.sound.held other hother)
            obtain ⟨hfound', -, htoken'⟩ := NotificationStore.fenced_eq_some.mp hrow'
            change other.notificationId = message.notificationId at hsame
            rw [hsame] at hfound'
            obtain rfl := Option.some.inj (hfound.symm.trans hfound')
            have hshared : token = other.token := Option.some.inj (htoken.symm.trans htoken')
            exact hunused (hshared ▸ (h.mine hother (hshared ▸ hmine)).1)
          · refine h.separate.act (fun _ hdrawn => hdrawn) List.nodup_nil (by simp [tokensClaimed]) ?_
            intro used hused
            rw [← Option.some.inj hused]
            exact hmine
          · intro send hsend
            rcases List.mem_cons.mp hsend with rfl | hold
            · refine ⟨⟨seen ++ [⟨.send message token, ()⟩], next ()⟩, by simp,
                claims.mem_usedIn_snoc.mpr (.inr rfl), ?_⟩
              simpa [answeredIn] using hunanswered
            · exact h.awaited.performs (.send message token) (by simp) send hold
          · rintro notificationId ⟨settled, hsettled, hstatus⟩
            refine ⟨⟨settled, hsettled, hstatus⟩, List.count_cons_of_ne fun hsame => ?_⟩
            rw [← hsame, hfound] at hsettled
            rw [← Option.some.inj hsettled, hprocessing] at hstatus
            cases hstatus
      | _ => cases hperform
  | answered token =>
      cases turn with
      | answer result =>
          obtain ⟨rfl, rfl⟩ := Prod.mk.inj (Option.some.inj hperform)
          refine ⟨List.nodup_nil, h.sound.sendEnded token, ?_, ?_, h.since⟩
          · exact h.separate.act (fun _ hdrawn => hdrawn) List.nodup_nil (by simp [tokensClaimed])
              (by simp [tokenUsed])
          · refine Awaited.performs _
              (fun send hsend => h.awaited send (List.mem_of_mem_filter hsend)) ?_
            intro send hsend heq
            obtain ⟨-, hother⟩ := List.mem_filter.mp hsend
            exact of_decide_eq_true hother (Effect.answered.inj heq).symm
      | _ => cases hperform
  | mark notificationId token how =>
      cases turn with
      | proceed =>
          obtain ⟨rfl, rfl⟩ := Prod.mk.inj (Option.some.inj hperform)
          obtain ⟨hmine, hanswered⟩ := howed
          have hspared : ∀ send ∈ room.inFlight, ∀ row : Notification,
              row.claimToken = some send.token → row.claimToken ≠ some token := by
            intro send hsend row htoken hsame
            have hshared : token = send.token := Option.some.inj (hsame.symm.trans htoken)
            obtain ⟨hused, hopen⟩ := h.mine hsend (hshared ▸ hmine)
            exact hopen (hshared ▸ hanswered (hshared ▸ hused))
          obtain ⟨hsound, hsince⟩ := h.sound.rewritten
            (room.store.mark notificationId token how).2
            (NotificationStore.Keyed.mark h.sound.keyed notificationId token how)
            (fun send hsend row hrow _ htoken =>
              NotificationStore.mark_spares notificationId token how hrow
                fun _ _ => hspared send hsend row htoken)
            (fun key row hrow hsettled =>
              NotificationStore.mark_spares notificationId token how hrow
                fun _ hprocessing => by simp [hprocessing, NotificationStatus.isSettled] at hsettled)
          refine ⟨List.nodup_nil, hsound, ?_, h.awaited.performs _ (by simp), h.since.trans hsince⟩
          refine h.separate.act (fun drawn hdrawn => ?_) List.nodup_nil (by simp [tokensClaimed])
            (by simp [tokenUsed])
          rcases room.store.mark_cases notificationId token how with hsame | ⟨_, _, _, _, hwritten⟩
          · simpa [Drawn, hsame] using hdrawn
          · simpa [Drawn, hwritten] using hdrawn
      | _ => cases hperform

/-- Every run under the condition keeps each send in flight on its own claim. -/
theorem run_dispatched {leaseMs : Int} {world world' : DispatchWorld}
    (horderly : Orderly dispatchRule world) (h : Dispatched origin world)
    (hrun : Run (dispatching leaseMs) (dispatchers leaseMs) ClaimsHeld world world') :
    Orderly dispatchRule world' ∧ Dispatched origin world' := by
  refine Run.maintains dispatchers_keep ?_ ?_ ?_ horderly h hrun
  · intro room tasks call _ hall
    refine ⟨hall.sound, hall.separate.start, fun send hsend => ?_, hall.since⟩
    obtain ⟨task, htask, hused⟩ := hall.awaited send hsend
    exact ⟨task, List.mem_append_left _ htask, hused⟩
  · intro world world' seen effect answer hall howed hallowed hperforms
    cases hperforms with
    | @intro room room' before after seen effect next answer turn hperform =>
        exact hall.act howed hallowed hperform
  · intro room room' tasks turn hall htick
    cases turn with
    | proceed => cases htick
    | reading now => cases htick
    | answer result => cases htick
    | elapsed milliseconds =>
        change (if _ then _ else none) = some room' at htick
        split at htick
        · obtain rfl := Option.some.inj htick
          exact ⟨⟨hall.sound.keyed, hall.sound.held, hall.sound.one⟩,
            hall.separate.tick fun _ hdrawn => hdrawn, hall.awaited, hall.since⟩
        · cases htick
    | ended token =>
        obtain rfl := Option.some.inj htick
        exact ⟨hall.sound.sendEnded token, hall.separate.tick fun _ hdrawn => hdrawn,
          fun send hsend => hall.awaited send (List.mem_of_mem_filter hsend), hall.since⟩
    | queued message =>
        obtain rfl := Option.some.inj htick
        unfold MailRoom.queue
        split
        · rename_i inserted notifications hqueued
          obtain ⟨hkeyed, hspared⟩ := queueNotification_spares hqueued
          obtain ⟨hsound, hsince⟩ := hall.sound.rewritten
            { room.store with notifications := notifications } (hkeyed hall.sound.keyed)
            (fun _ _ _ hrow _ _ => hspared _ _ hrow) (fun _ _ hrow _ => hspared _ _ hrow)
          exact ⟨hsound, hall.separate.tick fun _ hdrawn => hdrawn, hall.awaited,
            hall.since.trans hsince⟩
        · exact hall

/-- No two sends of one notification overlap and none starts after its row is settled,
in every run whose sends start under claims they hold and whose recoveries take none
that is being sent. -/
theorem run_oneInFlight {leaseMs start : Int} {world world' : DispatchWorld}
    (hrun : Run (dispatching leaseMs) (dispatchers leaseMs) ClaimsHeld
      (World.initial (MailRoom.empty start)) world)
    (hlater : Run (dispatching leaseMs) (dispatchers leaseMs) ClaimsHeld world world') :
    OneSendInFlight world'.store ∧ NoneAfterSettled world.store world'.store := by
  have hempty : Dispatched (MailRoom.empty start) (World.initial (MailRoom.empty start)) := by
    refine ⟨⟨?_, ?_, List.nodup_nil⟩, Tokens.separate_initial _, ?_, Since.refl _⟩
    · intro key row hrow
      cases hrow
    · intro send hsend
      cases hsend
    · intro send hsend
      cases hsend
  obtain ⟨horderly, hreached⟩ := run_dispatched (orderly_initial _) hempty hrun
  have hrestart : Dispatched world.store world :=
    ⟨hreached.sound, hreached.separate, hreached.awaited, Since.refl _⟩
  obtain ⟨-, hfinal⟩ := run_dispatched horderly hrestart hlater
  exact ⟨hfinal.sound.one, fun notificationId hsettled => (hfinal.since notificationId hsettled).2⟩

end Runs

/-! ### Runs on two messages -/

instance (seen : History Effect Effect.Answer) (effect : Effect) (room : MailRoom) :
    Decidable (ClaimsHeld seen effect room) :=
  match effect with
  | .send message token =>
      inferInstanceAs (Decidable ((room.store.fenced message.notificationId token).isSome = true))
  | .reclaimExpired now _ _ =>
      inferInstanceAs (Decidable (∀ send ∈ room.inFlight,
        ∀ row ∈ room.store.fenced send.notificationId send.token, now < row.nextAttemptAt))
  | .clock => inferInstanceAs (Decidable True)
  | .claimDue _ _ _ => inferInstanceAs (Decidable True)
  | .answered _ => inferInstanceAs (Decidable True)
  | .mark _ _ _ => inferInstanceAs (Decidable True)

abbrev DispatchSchedule := List (Move Effect Effect.Answer DispatchTurn Unit DispatchResult)

def mailer : NotificationDispatcher := { channels := [.email] }

theorem dispatchers_mailer (limit : Nat) : dispatchers 30000 (mailer.drainOnce limit) :=
  ⟨mailer, limit, rfl, rfl⟩

def messageTo (recipientId : String) : QueuedMessage :=
  { notificationId := recipientId
    eventId := "dispatched"
    organizationId := none
    recipient := ⟨recipientId, none, "core.fulfillment.dispatched", recipientId, .email, true, 0⟩
    address := some "address"
    rendered := ⟨.fulfillmentDispatched, "subject", "body", []⟩ }

/-- One drain claims both messages and spends most of the lease on the first. -/
def slowFirst : DispatchSchedule :=
  [.tick (.queued (messageTo "first")), .tick (.queued (messageTo "second")),
    .start (mailer.drainOnce 2)] ++
  acts 0 [.reading 0, .proceed, .proceed, .proceed] ++ [.tick (.elapsed 20000)] ++
  acts 0 [.answer (.ok (.accepted none)), .proceed, .proceed]

/-- The second message is answered within the lease of the batch. -/
def answeredInTime : DispatchSchedule :=
  acts 0 [.answer (.ok (.delivered none)), .proceed] ++
  [.tick (.elapsed 10000), .start (mailer.drainOnce 2)] ++ acts 1 [.reading 30000, .proceed, .proceed]

/-- The lease of the batch runs out ten seconds into the second send, and another
dispatcher sends the message again. -/
def sentAgain : DispatchSchedule :=
  [.tick (.elapsed 10000), .start (mailer.drainOnce 2)] ++
    acts 1 [.reading 30000, .proceed, .proceed, .proceed]

set_option maxRecDepth 20000 in
theorem run_oneInFlight_answeredInTime :
    ∃ world world', play (dispatching 30000)
        (fun seen effect room => decide (ClaimsHeld seen effect room)) slowFirst
        (World.initial (MailRoom.empty 0)) = some world ∧
      play (dispatching 30000) (fun seen effect room => decide (ClaimsHeld seen effect room))
        answeredInTime world = some world' ∧
      world'.store.started = ["second", "first"] ∧
      OneSendInFlight world'.store ∧ NoneAfterSettled world.store world'.store := by
  have hplays : ((play (dispatching 30000)
      (fun seen effect room => decide (ClaimsHeld seen effect room)) slowFirst
      (World.initial (MailRoom.empty 0))).any (fun world =>
        (play (dispatching 30000) (fun seen effect room => decide (ClaimsHeld seen effect room))
          answeredInTime world).any (fun world' =>
            world'.store.started = ["second", "first"]))) = true := by
    decide +kernel
  obtain ⟨world, hworld, hnext⟩ := (Option.any_eq_true _ _).mp hplays
  obtain ⟨world', hworld', hstarted⟩ := (Option.any_eq_true _ _).mp hnext
  have hrun : Run (dispatching 30000) (dispatchers 30000) ClaimsHeld
      (World.initial (MailRoom.empty 0)) world := by
    refine play_run hworld ?_ (fun _ _ _ h => of_decide_eq_true h)
    simp [slowFirst, acts, dispatchers_mailer]
  have hlater : Run (dispatching 30000) (dispatchers 30000) ClaimsHeld world world' := by
    refine play_run hworld' ?_ (fun _ _ _ h => of_decide_eq_true h)
    simp [answeredInTime, acts, dispatchers_mailer]
  exact ⟨world, world', hworld, hworld', of_decide_eq_true hstarted, run_oneInFlight hrun hlater⟩

set_option maxRecDepth 20000 in
/-- Each send ends within the lease of its own start, and two of them overlap. -/
theorem run_oneInFlight_fails :
    ¬∀ (leaseMs start : Int) (world world' : DispatchWorld),
      Run (dispatching leaseMs) (dispatchers leaseMs) anything
        (World.initial (MailRoom.empty start)) world →
      Run (dispatching leaseMs) (dispatchers leaseMs) anything world world' →
      OneSendInFlight world'.store ∧ NoneAfterSettled world.store world'.store := by
  intro hclaim
  have hplays : (play (dispatching 30000) unrestricted (slowFirst ++ sentAgain)
      (World.initial (MailRoom.empty 0))).any (fun world =>
        world.store.inFlight.map Send.notificationId = ["second", "second"]) = true := by
    decide +kernel
  obtain ⟨world, hworld, htwo⟩ := (Option.any_eq_true _ _).mp hplays
  have hrun : Run (dispatching 30000) (dispatchers 30000) anything
      (World.initial (MailRoom.empty 0)) world := by
    refine play_run hworld ?_ (fun _ _ _ _ => trivial)
    simp [slowFirst, sentAgain, acts, dispatchers_mailer]
  have hone := (hclaim 30000 0 world world hrun .refl).1
  rw [OneSendInFlight, of_decide_eq_true htwo] at hone
  exact absurd hone (by decide)

end WaslaCore.Notification
