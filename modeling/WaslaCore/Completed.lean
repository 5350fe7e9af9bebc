import WaslaCore.Interleaving.Completion
import WaslaCore.Money.Service

/-!
A call of the services that runs with nothing else going on and answers. What it
read is what the database held, so the call is followed one port operation at a
time, each stated as the call that is left once it has been answered.
-/

namespace WaslaCore

open Platform Interleaving

section Completed

variable {β γ : Type} {db db' : Db} {value : γ}

/-- A read answers from the database and leaves it alone. -/
theorem completes_read {query : Query} {next : query.Answer → Call γ} :
    Completes core (read query >>= next) db (.ok value) db' ↔
      Completes core (next (query.eval db)) db (.ok value) db' := by
  change Completes core (.act (.read query) fun answer => settled answer >>= next) db _ db' ↔ _
  rw [completes_act]
  constructor
  · rintro ⟨choice, answer, middle, hperform, hrest⟩
    cases choice with
    | proceed =>
        obtain ⟨rfl, rfl⟩ := Prod.mk.inj (Option.some.inj hperform)
        exact hrest
    | failing message =>
        obtain ⟨rfl, rfl⟩ := Prod.mk.inj (Option.some.inj hperform)
        cases hrest
    | drawn id => cases hperform
    | elapsed milliseconds => cases hperform
  · intro h
    exact ⟨.proceed, _, db, rfl, h⟩

theorem completes_clock {next : Int → Call γ} :
    Completes core (clock >>= next) db (.ok value) db' ↔
      Completes core (next db.now) db (.ok value) db' := by
  change Completes core (.act .clock fun now => next now) db _ db' ↔ _
  rw [completes_act]
  constructor
  · rintro ⟨choice, answer, middle, hperform, hrest⟩
    cases choice with
    | proceed =>
        obtain ⟨rfl, rfl⟩ := Prod.mk.inj (Option.some.inj hperform)
        exact hrest
    | failing message => cases hperform
    | drawn id => cases hperform
    | elapsed milliseconds => cases hperform
  · intro h
    exact ⟨.proceed, _, db, rfl, h⟩

theorem completes_newId {next : String → Call γ} :
    Completes core (newId >>= next) db (.ok value) db' ↔
      ∃ id, isId id = true ∧ Completes core (next id) db (.ok value) db' := by
  change Completes core (.act .newId fun id => next id) db _ db' ↔ _
  rw [completes_act]
  constructor
  · rintro ⟨choice, answer, middle, hperform, hrest⟩
    cases choice with
    | drawn id =>
        change (if isId id then some (id, db) else none) = some (answer, middle) at hperform
        split at hperform
        · rename_i hid
          obtain ⟨rfl, rfl⟩ := Prod.mk.inj (Option.some.inj hperform)
          exact ⟨id, hid, hrest⟩
        · cases hperform
    | proceed => cases hperform
    | failing message => cases hperform
    | elapsed milliseconds => cases hperform
  · rintro ⟨id, hid, hrest⟩
    exact ⟨.drawn id, id, db, if_pos hid, hrest⟩

theorem completes_settled {outcome : Except Thrown β} {next : β → Call γ} :
    Completes core (settled outcome >>= next) db (.ok value) db' ↔
      ∃ given, outcome = .ok given ∧ Completes core (next given) db (.ok value) db' := by
  cases outcome with
  | ok given =>
      constructor
      · intro h
        exact ⟨given, rfl, h⟩
      · rintro ⟨_, ⟨⟩, h⟩
        exact h
  | error error =>
      constructor
      · intro h
        cases h
      · rintro ⟨_, ⟨⟩, _⟩

theorem completes_checked {outcome : Except String β} {next : β → Call γ} :
    Completes core (Money.checked outcome >>= next) db (.ok value) db' ↔
      ∃ given, outcome = .ok given ∧ Completes core (next given) db (.ok value) db' := by
  cases outcome with
  | ok given =>
      constructor
      · intro h
        exact ⟨given, rfl, h⟩
      · rintro ⟨_, ⟨⟩, h⟩
        exact h
  | error error =>
      constructor
      · intro h
        cases h
      · rintro ⟨_, ⟨⟩, _⟩

@[simp] theorem completes_throw {error : Thrown} :
    Completes core (throw error : Call γ) db (.ok value) db' ↔ False := by
  constructor
  · intro h
    cases h
  · exact False.elim

@[simp] theorem completes_pure {given : γ} :
    Completes core (pure given : Call γ) db (.ok value) db' ↔ given = value ∧ db' = db := by
  change Completes core (.done given) db _ db' ↔ _
  rw [completes_done, Except.ok.injEq, eq_comm]

/-- A transaction that answers committed what its body staged. -/
theorem completes_transaction {body : Work → Call (Work × γ)} :
    Completes core (withTransaction body) db (.ok value) db' ↔
      ∃ uow middle, Completes core (body UnitOfWork.empty) db (.ok (uow, value)) middle ∧
        middle.commit uow = .ok db' := by
  have hcommit : ∀ (uow : Work) (result : γ) (middle : Db),
      Completes core (Process.act (.commit uow) settled >>= fun _ => pure result) middle
        (.ok value) db' ↔ result = value ∧ middle.commit uow = .ok db' := by
    intro uow result middle
    change Completes core (.act (.commit uow) fun outcome =>
      (settled outcome : Call Unit) >>= fun _ => pure result) middle _ db' ↔ _
    rw [completes_act]
    constructor
    · rintro ⟨choice, outcome, after, hperform, hrest⟩
      obtain ⟨given, rfl, hrest⟩ := completes_settled.mp hrest
      obtain ⟨rfl, rfl⟩ := completes_pure.mp hrest
      exact ⟨rfl, perform_committed hperform⟩
    · rintro ⟨rfl, hcommit⟩
      have hperform : perform (.commit uow) .proceed middle = some (.ok (), db') := by
        simp only [perform, hcommit]
      have hanswer : Completes core (pure result : Call γ) db' (.ok result) db' :=
        completes_pure.mpr ⟨rfl, rfl⟩
      exact ⟨.proceed, .ok (), db', hperform, completes_settled.mpr ⟨(), rfl, hanswer⟩⟩
  unfold withTransaction
  rw [completes_bind]
  constructor
  · rintro (⟨staged, middle, hbody, hrest⟩ | ⟨error, -, ⟨⟩⟩)
    obtain ⟨rfl, hlanded⟩ := (hcommit _ _ _).mp hrest
    exact ⟨staged.1, middle, hbody, hlanded⟩
  · rintro ⟨uow, middle, hbody, hlanded⟩
    exact .inl ⟨(uow, value), middle, hbody, (hcommit _ _ _).mpr ⟨rfl, hlanded⟩⟩

/-- A call answers with what its last part answers. -/
theorem completes_then {call : Call β} {next : β → Call γ} :
    Completes core (call >>= next) db (.ok value) db' ↔
      ∃ given middle, Completes core call db (.ok given) middle ∧
        Completes core (next given) middle (.ok value) db' := by
  rw [completes_bind]
  constructor
  · rintro (h | ⟨error, -, ⟨⟩⟩)
    exact h
  · exact .inl

end Completed

namespace Money

variable {γ : Type} {db db' : Db} {value : γ}

/-- `requireWallet` goes on with the stored wallet. -/
theorem completes_requireWallet {walletId : String} {next : Wallet → Call γ} :
    Completes core (requireWallet walletId >>= next) db (.ok value) db' ↔
      isId walletId = true ∧ ∃ wallet, db.money.getWallet walletId = some wallet ∧
        Completes core (next wallet) db (.ok value) db' := by
  have hcall : ∀ (wallet : Wallet) (last : Db),
      Completes core (requireWallet walletId) db (.ok wallet) last ↔
        isId walletId = true ∧ db.money.getWallet walletId = some wallet ∧ last = db := by
    intro wallet last
    unfold requireWallet assertId
    rw [completes_settled]
    constructor
    · rintro ⟨_, hid, hrest⟩
      have hread := completes_read.mp hrest
      dsimp only [Query.eval] at hread
      split at hid
      · rename_i hshape
        cases hfound : db.money.getWallet walletId with
        | none =>
            rw [hfound] at hread
            cases hread
        | some found =>
            rw [hfound] at hread
            obtain ⟨rfl, rfl⟩ := completes_pure.mp hread
            exact ⟨hshape, rfl, rfl⟩
      · cases hid
    · rintro ⟨hshape, hfound, rfl⟩
      refine ⟨(), if_pos hshape, completes_read.mpr ?_⟩
      dsimp only [Query.eval]
      rw [hfound]
      exact completes_pure.mpr ⟨rfl, rfl⟩
  rw [completes_then]
  constructor
  · rintro ⟨wallet, middle, hwallet, hnext⟩
    obtain ⟨hid, hfound, rfl⟩ := (hcall _ _).mp hwallet
    exact ⟨hid, wallet, hfound, hnext⟩
  · rintro ⟨hid, wallet, hfound, hnext⟩
    exact ⟨wallet, db, (hcall _ _).mpr ⟨hid, hfound, rfl⟩, hnext⟩

end Money

end WaslaCore
