import WaslaCore.Billing.Solo
import WaslaCore.Money.Calm

/-!
A collection with both stores to itself and no outage. Whether it settles its period is
decided by the hold it finds under the period's reference: none, so that it takes its own;
one that a full capture has drawn; or one that is still open for the whole amount.
-/

namespace WaslaCore.Billing

open Data Platform Interleaving

/-! ### Stores that fail nobody -/

/-- No outage, and every identifier drawn is a new one. -/
def performCalmly : (action : Action) → Choice → Books → Option (action.Answer × Books)
  | .core action, choice, books =>
      (WaslaCore.performCalmly action choice books.core).map
        (fun done => (done.1, { books with core := done.2 }))
  | .read query, .proceed, books => perform (.read query) .proceed books
  | .commit uow writes, .proceed, books => perform (.commit uow writes) .proceed books
  | _, _, _ => none

/-- Time stands still for a call that has the stores to itself. -/
def calm : System Books Action Action.Answer Choice := ⟨performCalmly, fun _ _ => none⟩

section Rules

variable {β : Type} {post : Except Thrown β → Books → Prop} {books : Books}

theorem calm_read {query : Query} {next : query.Answer → Call β}
    (h : Ends calm post (next (query.eval books.store)) books) :
    Ends calm post (read query >>= next) books := by
  refine ⟨⟨.proceed, _, _, rfl⟩, fun choice answer after hperform => ?_⟩
  cases choice with
  | proceed =>
      obtain ⟨rfl, rfl⟩ := Prod.mk.inj (Option.some.inj hperform)
      exact h
  | failing message => cases hperform
  | drawn id => cases hperform
  | elapsed milliseconds => cases hperform

theorem calm_settled {γ : Type} {result : Except Thrown γ} {value : γ} {next : γ → Call β}
    (hok : result = .ok value) (h : Ends calm post (next value) books) :
    Ends calm post (settled result >>= next) books := by
  subst hok
  exact h

/-- A commit either goes through or is refused and leaves the stores alone. -/
theorem calm_commit {uow : Work} {writes : List Write} {next : Unit → Call β}
    (hok : ∀ after, books.commit uow writes = .ok after → Ends calm post (next ()) after)
    (herror : ∀ error, books.commit uow writes = .error error → post (.error error) books) :
    Ends calm post (commit uow writes >>= next) books := by
  cases hcommit : books.commit uow writes with
  | ok after =>
      have hgoes : performCalmly (.commit uow writes) .proceed books = some (.ok (), after) := by
        simp [performCalmly, perform, hcommit]
      refine ⟨⟨.proceed, _, _, hgoes⟩, fun choice answer final hperform => ?_⟩
      cases choice with
      | proceed =>
          rw [show calm.perform (.commit uow writes) .proceed books = some (.ok (), after)
            from hgoes] at hperform
          obtain ⟨rfl, rfl⟩ := Prod.mk.inj (Option.some.inj hperform)
          exact hok _ hcommit
      | failing message => cases hperform
      | drawn id => cases hperform
      | elapsed milliseconds => cases hperform
  | error error =>
      have hgoes : performCalmly (.commit uow writes) .proceed books =
          some (.error error, books) := by
        simp [performCalmly, perform, hcommit]
      refine ⟨⟨.proceed, _, _, hgoes⟩, fun choice answer final hperform => ?_⟩
      cases choice with
      | proceed =>
          rw [show calm.perform (.commit uow writes) .proceed books = some (.error error, books)
            from hgoes] at hperform
          obtain ⟨rfl, rfl⟩ := Prod.mk.inj (Option.some.inj hperform)
          exact herror error hcommit
      | failing message => cases hperform
      | drawn id => cases hperform
      | elapsed milliseconds => cases hperform

/-- A call of the services below ends here as it ends there, with this store as it was. -/
theorem calm_lift {call : WaslaCore.Call β}
    (h : Ends WaslaCore.calm (fun result core => post result { books with core := core }) call
      books.core) : Ends calm post (lift call) books :=
  ends_embed Books.core (fun books core => { books with core := core }) (fun _ _ _ => rfl)
    (fun _ _ => rfl) (fun _ _ _ => rfl) (fun _ => rfl) h

theorem calm_clock {next : Int → Call β} (h : Ends calm post (next books.core.now) books) :
    Ends calm post (clock >>= next) books := by
  refine ends_bind (p := fun result later => result = .ok books.core.now ∧ later = books) ?_ ?_ ?_
  · have hclock : Ends WaslaCore.calm (fun result core => result = .ok books.core.now ∧
        { books with core := core } = books) (WaslaCore.clock >>= .done) books.core :=
      WaslaCore.calm_clock ⟨rfl, rfl⟩
    exact calm_lift hclock
  · rintro value later ⟨hvalue, rfl⟩
    obtain rfl := Except.ok.inj hvalue
    exact h
  · rintro error later ⟨herror, -⟩
    cases herror

end Rules

end WaslaCore.Billing
