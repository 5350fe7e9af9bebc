import WaslaCore.Laws

/-!
What the commit of one legal operation did to the fulfillment store. Each step of
coordination stages one write of one row; the guard of that write was true of the
row it found.
-/

namespace WaslaCore.Fulfillment

open WaslaCore.Data WaslaCore.Platform

section Commits

variable {db db' : Db}

theorem applyAll_money {writes : List Money.Write}
    (h : db.applyAll (writes.map WaslaCore.Write.money) = .ok db') :
    db'.fulfillments = db.fulfillments := by
  apply applyAll_keeps (P := fun later => later.fulfillments = db.fulfillments) _ h rfl
  intro write hwrite before after happly hbefore
  obtain ⟨movement, -, rfl⟩ := List.mem_map.mp hwrite
  rcases apply_ok happly with ⟨money, write', -, -, rfl⟩ | ⟨rows, write', hother, -, -, -⟩
  · exact hbefore
  · cases hother

/-- The coordination half of a commit: its one write, after the money writes. -/
theorem commit_coordination {operation : Operation}
    (h : db.commit operation.staged = .ok db') :
    (operation.coordination.write = [] ∧ db'.fulfillments = db.fulfillments) ∨
      ∃ write, operation.coordination.write = [write] ∧
        write.apply db.fulfillments = .ok db'.fulfillments ∧
        ∀ hold, referencedHold write = some hold → (db'.money.getAuthorization hold).isSome := by
  obtain ⟨written, hwritten, -, rfl⟩ := commit_ok h
  rw [operation.staged_writes] at hwritten
  obtain ⟨middle, hmoney, hrest⟩ := applyAll_append hwritten
  have hmiddle := applyAll_money hmoney
  have hsingle : ∀ write, operation.coordination.write = [write] →
      write.apply db.fulfillments = .ok written.fulfillments ∧
        ∀ hold, referencedHold write = some hold →
          (written.money.getAuthorization hold).isSome := by
    intro write hwrite
    rw [hwrite] at hrest
    simp only [List.map_cons, List.map_nil, Db.applyAll] at hrest
    split at hrest
    · rename_i next hnext
      obtain rfl := Except.ok.inj hrest
      rcases apply_ok hnext with ⟨money, write', hother, -, -⟩ |
        ⟨rows, write', hsame, hknown, happly, rfl⟩
      · cases hother
      · obtain rfl := WaslaCore.Write.fulfillment.inj hsame
        rw [hmiddle] at happly
        exact ⟨happly, hknown⟩
    · cases hrest
  rcases hwrites : operation.coordination.write with _ | ⟨write, others⟩
  · rw [hwrites] at hrest
    obtain rfl := Except.ok.inj hrest
    exact .inl ⟨rfl, hmiddle⟩
  · have hothers : others = [] := by
      cases hcase : operation.coordination <;> rw [hcase] at hwrites <;> cases hwrites <;> rfl
    subst hothers
    obtain ⟨happly, hknown⟩ := hsingle write hwrites
    exact .inr ⟨write, rfl, happly, hknown⟩

end Commits

/-- What a step of coordination did to the rows. -/
inductive Effect (store store' : Store) : Coordination → Prop where
  | idle {coordination} (hrows : store' = store)
      (hidle : coordination = .none ∨ ∃ current jobId, coordination = .traced current jobId) :
      Effect store store' coordination
  | created {row requestedService} (hfresh : store.get row.fulfillmentId = none)
      (horder : store.findByOrderReference row.marketOrderReference = none)
      (hplaced : Placed store store' row.fulfillmentId row) :
      Effect store store' (.created row requestedService)
  | refused {row capturedMinor extra} (hfresh : store.get row.fulfillmentId = none)
      (horder : store.findByOrderReference row.marketOrderReference = none)
      (hplaced : Placed store store' row.fulfillmentId row) :
      Effect store store' (.refused row capturedMinor extra)
  | dispatched {current payload stored next}
      (hnext : next = { current with
        moveJobReference := some payload.jobId, status := .dispatched })
      (hstored : store.get current.fulfillmentId = some stored)
      (hopen : stored.status = .coordinating)
      (hplaced : Placed store store' current.fulfillmentId (reviseRow stored next)) :
      Effect store store' (.dispatched current payload)
  | closed {current row capturedMinor action stored}
      (hstored : store.get row.fulfillmentId = some stored)
      (hopen : isClosed stored.status = false)
      (hplaced : Placed store store' row.fulfillmentId (reviseRow stored row)) :
      Effect store store' (.closed current row capturedMinor action)
  | traced {current jobId stored}
      (hstored : store.get current.fulfillmentId = some stored)
      (hplaced : Placed store store' current.fulfillmentId
        (reviseRow stored { current with moveJobReference := some jobId })) :
      Effect store store' (.traced current jobId)
  | marked {cancelled payload stored}
      (hstored : store.get cancelled.fulfillmentId = some stored)
      (hcancelled : stored.status = .cancelled)
      (hunmarked : stored.executedAfterCancellationAt = Option.none)
      (hplaced : Placed store store' cancelled.fulfillmentId
        (markRow stored payload.completedAt payload.jobId)) :
      Effect store store' (.marked cancelled payload)

/-- Every step of coordination that lands has one of these effects. -/
theorem coordination_effect {db db' : Db} {operation : Operation}
    (h : db.commit operation.staged = .ok db') :
    Effect db.fulfillments db'.fulfillments operation.coordination := by
  have hlanded := commit_coordination h
  have hwrite : ∀ write, operation.coordination.write = [write] →
      write.apply db.fulfillments = .ok db'.fulfillments := by
    intro write hwrites
    rcases hlanded with ⟨hnone, -⟩ | ⟨other, hother, happly, -⟩
    · rw [hwrites] at hnone
      cases hnone
    · rw [hwrites] at hother
      obtain rfl := List.cons.inj hother |>.1
      exact happly
  cases hcase : operation.coordination with
  | none =>
      rw [hcase] at hlanded
      rcases hlanded with ⟨-, hrows⟩ | ⟨write, hnone, -⟩
      · exact .idle hrows (.inl rfl)
      · cases hnone
  | created row requestedService =>
      obtain ⟨hfresh, horder, hplaced⟩ := intake_ok (hwrite _ (by rw [hcase]; rfl))
      exact .created hfresh horder hplaced
  | refused row capturedMinor extra =>
      obtain ⟨hfresh, horder, hplaced⟩ := intake_ok (hwrite _ (by rw [hcase]; rfl))
      exact .refused hfresh horder hplaced
  | dispatched current payload =>
      obtain ⟨stored, hstored, hopen, hplaced⟩ := transition_ok (hwrite _ (by rw [hcase]; rfl))
      exact .dispatched rfl hstored (List.mem_singleton.mp hopen) hplaced
  | closed current row capturedMinor action =>
      obtain ⟨stored, hstored, hopen, hplaced⟩ := transition_ok (hwrite _ (by rw [hcase]; rfl))
      exact .closed hstored (mem_openStatuses.mp hopen) hplaced
  | traced current jobId =>
      rcases update_ok (hwrite _ (by rw [hcase]; rfl)) with ⟨-, hstore⟩ |
        ⟨stored, hstored, hplaced⟩
      · exact .idle hstore (.inr ⟨current, jobId, rfl⟩)
      · exact .traced hstored hplaced
  | marked cancelled payload =>
      obtain ⟨stored, hstored, hcancelled, hunmarked, hplaced⟩ :=
        mark_ok (hwrite _ (by rw [hcase]; rfl))
      exact .marked hstored hcancelled hunmarked hplaced

end WaslaCore.Fulfillment
