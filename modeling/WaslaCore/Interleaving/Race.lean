import WaslaCore.Interleaving.Logic

/-!
One call, started any number of times against one store. What a copy is told it
is told under a view of the store: the view is picked by the copy's first answer
and stays good for it. A call that keeps its promise under every view keeps it in
every copy, whatever the order of the actions.
-/

namespace WaslaCore.Interleaving

section Races

variable {σ A : Type} {R : A → Type} {ω ε β ι ρ : Type}

/-- What the copies make of the store: the views they may have of it, when a view is
good, which answers tell of a record, and when a record is there. -/
structure Race (σ A : Type) (R : A → Type) (ι ρ : Type) where
  view : ι → Discipline A R
  valid : ι → σ → Prop
  inv : σ → Prop
  tells : (action : A) → R action → ρ → Prop
  recorded : ρ → σ → Prop

/-- Views stay good and records stay. -/
structure Race.Later (race : Race σ A R ι ρ) (store store' : σ) : Prop where
  valid : ∀ i, race.valid i store → race.valid i store'
  recorded : ∀ record, race.recorded record store → race.recorded record store'

theorem Race.Later.refl (race : Race σ A R ι ρ) (store : σ) : race.Later store store :=
  ⟨fun _ h => h, fun _ h => h⟩

variable {system : System σ A R ω} {allowed : History A R → A → σ → Prop}
variable {race : Race σ A R ι ρ} {call : Process A R ε β}

/-- Some view is always good, and one action or tick stays inside the race. Only a
copy's first answer may pick another view than the one it had. -/
structure Race.Sound (race : Race σ A R ι ρ) (system : System σ A R ω)
    (allowed : History A R → A → σ → Prop) : Prop where
  viewed : ∀ {store}, race.inv store → ∃ i, race.valid i store
  act : ∀ {i seen action choice answer store store'}, race.inv store → race.valid i store →
    (race.view i).owed seen action → allowed seen action store →
    system.perform action choice store = some (answer, store') →
    race.inv store' ∧ race.Later store store' ∧
      (∀ record, race.tells action answer record → race.recorded record store') ∧
      ∃ j, race.valid j store' ∧ (race.view j).told action answer ∧ (seen ≠ [] → j = i)
  tick : ∀ {choice store store'}, race.inv store → system.tick choice store = some store' →
    race.inv store' ∧ race.Later store store'

/-- A copy goes on under a good view; one that has not begun may have any. -/
structure Race.Follows (race : Race σ A R ι ρ) (post : ι → History A R → Except ε β → Prop)
    (store : σ) (task : Task A R ε β) : Prop where
  view : ∃ i, race.valid i store ∧ Keeps (race.view i) (post i) task.rest task.seen
  fresh : task.seen = [] → ∀ i, Keeps (race.view i) (post i) task.rest task.seen
  told : ∀ entry ∈ task.seen, ∀ record, race.tells entry.1 entry.2 record →
    race.recorded record store

theorem Race.Follows.later {post : ι → History A R → Except ε β → Prop} {store store' : σ}
    {task : Task A R ε β} (h : race.Follows post store task) (hlater : race.Later store store') :
    race.Follows post store' task := by
  obtain ⟨i, hvalid, hkeeps⟩ := h.view
  exact ⟨⟨i, hlater.valid i hvalid, hkeeps⟩, h.fresh,
    fun entry hentry record htells => hlater.recorded record (h.told entry hentry record htells)⟩

/-- One step of a race keeps every copy following. -/
theorem Race.Sound.step (sound : race.Sound system allowed)
    {post : ι → History A R → Except ε β → Prop}
    (hcall : ∀ i, Keeps (race.view i) (post i) call [])
    {world world' : World σ A R ε β} (hinv : race.inv world.store)
    (hfollows : ∀ task ∈ world.tasks, race.Follows post world.store task)
    (hstep : Step system (fun other => other = call) allowed world world') :
    race.inv world'.store ∧ ∀ task ∈ world'.tasks, race.Follows post world'.store task := by
  cases hstep with
  | @start store tasks other hother =>
      subst hother
      refine ⟨hinv, fun task htask => ?_⟩
      rcases List.mem_append.mp htask with hold | hnew
      · exact hfollows task hold
      · obtain ⟨i, hvalid⟩ := sound.viewed hinv
        rw [List.mem_singleton.mp hnew]
        exact ⟨⟨i, hvalid, hcall i⟩, fun _ => hcall, by rintro entry ⟨⟩⟩
  | @act _ _ seen action answer hallowed hperforms =>
      cases hperforms with
      | @intro store store' before after seen action next answer choice hperform =>
          have hmine := hfollows ⟨seen, .act action next⟩ (by simp)
          obtain ⟨i, hvalid, howed, hnext⟩ := hmine.view
          obtain ⟨hinv', hlater, hnew, j, hvalid', htold, hsame⟩ :=
            sound.act hinv hvalid howed hallowed hperform
          refine ⟨hinv', fun task htask => ?_⟩
          rcases List.mem_append.mp htask with hbefore | hrest
          · exact (hfollows task (List.mem_append_left _ hbefore)).later hlater
          · rcases List.mem_cons.mp hrest with rfl | hafter
            · refine ⟨⟨j, hvalid', ?_⟩, by simp, ?_⟩
              · by_cases hbegun : seen = []
                · exact (hmine.fresh hbegun j).2 answer htold
                · obtain rfl := hsame hbegun
                  exact hnext answer htold
              · intro entry hentry record htells
                rcases List.mem_append.mp hentry with hold | hlast
                · exact hlater.recorded record (hmine.told entry hold record htells)
                · rw [List.mem_singleton.mp hlast] at htells
                  exact hnew record htells
            · exact (hfollows task
                (List.mem_append_right _ (List.mem_cons_of_mem _ hafter))).later hlater
  | @tick store store' tasks choice htick =>
      obtain ⟨hinv', hlater⟩ := sound.tick hinv htick
      exact ⟨hinv', fun task htask => (hfollows task htask).later hlater⟩

/-- Every copy of the call follows the race, in every run of copies of it. -/
theorem Race.Sound.run (sound : race.Sound system allowed)
    {post : ι → History A R → Except ε β → Prop}
    (hcall : ∀ i, Keeps (race.view i) (post i) call [])
    {store : σ} {world : World σ A R ε β} (hinv : race.inv store)
    (hrun : Run system (fun other => other = call) allowed (World.initial store) world) :
    race.inv world.store ∧ ∀ task ∈ world.tasks, race.Follows post world.store task := by
  induction hrun with
  | refl => exact ⟨hinv, by simp [World.initial]⟩
  | tail _ hstep ih => exact sound.step hcall ih.1 ih.2 hstep

/-- What has been added to the records of a store, and to its outbox, once one of
the copies has returned: one record, the one every copy returns, and one event. -/
structure RecordedOnce {η : Type} (records : σ → List ρ) (outbox : σ → List η) (returned : β → ρ)
    (start : σ) (world : World σ A R ε β) : Prop where
  returns : ∀ task ∈ world.tasks, ∀ error, task.rest ≠ .fail error
  once : ∀ task ∈ world.tasks, ∀ value, task.rest = .done value →
    records world.store = records start ++ [returned value] ∧
      ∃ event, outbox world.store = outbox start ++ [event]

/-- The copy was told of a record. -/
def Race.Shown (race : Race σ A R ι ρ) (seen : History A R) (record : ρ) : Prop :=
  ∃ entry ∈ seen, race.tells entry.1 entry.2 record

theorem Race.Shown.later {seen later : History A R} {record : ρ} (h : race.Shown seen record)
    (hlater : seen <+: later) : race.Shown later record := by
  obtain ⟨entry, hentry, htells⟩ := h
  exact ⟨entry, hlater.subset hentry, htells⟩

/-- The last answer told the copy of the record. -/
theorem Race.Shown.last (seen : History A R) {action : A} {answer : R action} {record : ρ}
    (h : race.tells action answer record) : race.Shown (seen ++ [⟨action, answer⟩]) record :=
  ⟨⟨action, answer⟩, List.mem_append_right _ (List.mem_singleton_self _), h⟩

/-- The copy was told of the record, or could not have its view without it. -/
def Race.Ends (race : Race σ A R ι ρ) (i : ι) (seen : History A R) (record : ρ) : Prop :=
  race.Shown seen record ∨ ∀ store, race.valid i store → race.recorded record store

/-- Copies that end with one part of a record, in a race for one record. -/
theorem Race.Sound.partRecordedOnce {κ η : Type} {records : σ → List κ} {outbox : σ → List η}
    {returned : β → κ} (part : ρ → κ) (sound : race.Sound system allowed)
    (hcall : ∀ i, Keeps (race.view i) (fun seen result => ∃ value record, result = .ok value ∧
      race.Ends i seen record ∧ returned value = part record) call [])
    {start : σ} (hinv : race.inv start)
    (hrecorded : ∀ {store record}, race.recorded record store →
      records store = records start ++ [part record] ∧
        ∃ event, outbox store = outbox start ++ [event])
    {world : World σ A R ε β}
    (hrun : Run system (fun other => other = call) allowed (World.initial start) world) :
    RecordedOnce records outbox returned start world := by
  obtain ⟨-, hfollows⟩ := sound.run hcall hinv hrun
  refine ⟨?_, ?_⟩
  · intro task htask error hrest
    obtain ⟨i, -, hkeeps⟩ := (hfollows task htask).view
    rw [hrest] at hkeeps
    obtain ⟨value, record, hvalue, -⟩ := hkeeps
    cases hvalue
  · intro task htask value hrest
    obtain ⟨i, hvalid, hkeeps⟩ := (hfollows task htask).view
    rw [hrest] at hkeeps
    obtain ⟨value', record, hvalue, hends, hpart⟩ := hkeeps
    obtain rfl := Except.ok.inj hvalue
    rw [hpart]
    rcases hends with ⟨entry, hentry, htells⟩ | hview
    · exact hrecorded ((hfollows task htask).told entry hentry record htells)
    · exact hrecorded (hview _ hvalid)

/-- Copies that end with a record they were told of, in a race for one record. -/
theorem Race.Sound.recordedOnce {η : Type} {records : σ → List ρ} {outbox : σ → List η}
    {returned : β → ρ} (sound : race.Sound system allowed)
    (hcall : ∀ i, Keeps (race.view i)
      (fun seen result => ∃ value, result = .ok value ∧ race.Shown seen (returned value)) call [])
    {start : σ} (hinv : race.inv start)
    (hrecorded : ∀ {store record}, race.recorded record store →
      records store = records start ++ [record] ∧ ∃ event, outbox store = outbox start ++ [event])
    {world : World σ A R ε β}
    (hrun : Run system (fun other => other = call) allowed (World.initial start) world) :
    RecordedOnce records outbox returned start world := by
  refine sound.partRecordedOnce (fun record => record) (fun i => (hcall i).mono ?_) hinv hrecorded
    hrun
  rintro seen result ⟨value, hvalue, hshown⟩
  exact ⟨value, returned value, hvalue, .inl hshown, rfl⟩

end Races

end WaslaCore.Interleaving
