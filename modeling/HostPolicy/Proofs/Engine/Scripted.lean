import HostPolicy.Proofs.Engine.Conducted

/-!
# The sources see what the journal tells

The journal is kept beside the sources. A scripted source counts its loads and knows whether it was
closed, and both are as the journal tells: what is shown of journals is shown of the calls that
sources get.
-/

namespace HostPolicy

/-- Whether an event is the beginning of a load of the source with this index. -/
def Event.begins (source : Nat) : Event → Bool
  | loadBegan i => i == source
  | _ => false

namespace World

/-- The script that a source follows, if it does. -/
def script? (w : World) (i : Nat) : Option Script :=
  match w.sources[i]? with
  | some (.scripted script) => some script
  | _ => none

variable {w : World} {i : Nat} {script : Script}

theorem script?_eq_some_iff :
    w.script? i = some script ↔ w.sources[i]? = some (.scripted script) := by
  unfold script?
  constructor
  · intro h
    split at h
    · next former hsource =>
        cases h
        exact hsource
    · contradiction
  · intro h
    rw [h]

/-- Writing another source leaves a script as it is. -/
theorem script?_setSource_of_ne {j : Nat} {source : Source} (hne : j ≠ i) :
    (w.setSource j source).script? i = w.script? i := by
  simp [script?, setSource, List.getElem?_set_ne hne]

theorem script?_setSource_self {former : Script} (h : w.script? i = some former) :
    (w.setSource i (.scripted script)).script? i = some script := by
  have hlt := (List.getElem?_eq_some_iff.mp (script?_eq_some_iff.mp h)).1
  simp [script?, setSource, hlt]

theorem script?_beginLoad_self (h : w.script? i = some script) :
    (w.beginLoad i).script? i = some { script with loads := script.loads + 1 } := by
  rw [script?_eq_some_iff] at h ⊢
  simp [beginLoad, h, Source.begun]

theorem script?_beginLoad_of_ne {j : Nat} (hne : j ≠ i) :
    (w.beginLoad j).script? i = w.script? i := by
  simp [script?, beginLoad, hne]

theorem script?_close_self (h : w.script? i = some script) :
    (w.close i).1.script? i = some { script with closed := true } := by
  have hsource := script?_eq_some_iff.mp h
  unfold World.close
  simp only [hsource]
  exact script?_setSource_self h

theorem script?_close_of_ne {j : Nat} (hne : j ≠ i) : (w.close j).1.script? i = w.script? i := by
  unfold World.close
  split
  · exact script?_setSource_of_ne hne
  · rfl
  · exact script?_setSource_of_ne hne
  · rfl

/-- From outside a script may be replaced, but not what has happened to it. -/
theorem script?_change (h : w.script? i = some script) (change : Change) :
    ∃ now, (w.change change).script? i = some now ∧ now.loads = script.loads ∧
      now.closed = script.closed := by
  have hsource := script?_eq_some_iff.mp h
  have same : ∀ {later : World}, later.script? i = w.script? i →
      ∃ now, later.script? i = some now ∧ now.loads = script.loads ∧ now.closed = script.closed :=
    fun hlater => ⟨script, hlater.trans h, rfl, rfl⟩
  cases change with
  | setText j octets =>
      simp only [World.change]
      split
      · next former failing closed hother =>
          refine same (script?_setSource_of_ne ?_)
          rintro rfl
          simp [hsource] at hother
      · exact same rfl
  | setFailing j failing =>
      simp only [World.change]
      split
      · next octets former closed hother =>
          refine same (script?_setSource_of_ne ?_)
          rintro rfl
          simp [hsource] at hother
      · exact same rfl
  | setScript j next =>
      simp only [World.change]
      split
      · next former hother =>
          by_cases heq : j = i
          · subst heq
            rw [hsource] at hother
            cases hother
            exact ⟨_, script?_setSource_self h, rfl, rfl⟩
          · exact same (script?_setSource_of_ne heq)
      · exact same rfl
  | updateStore name update => exact same rfl
  | writeFile path octets => exact same rfl
  | removeFile path => exact same rfl

end World

namespace Engine

variable {e later : Engine}

/-- Entries that are not about a call of a source. -/
def Aside (told : List Entry) : Prop :=
  ∀ entry ∈ told, ∀ i, entry.event.begins i = false ∧ entry.event.closes i = false

theorem aside_nil : Aside [] := by simp [Aside]

theorem Aside.cons {told : List Entry} {entry : Entry} (h : Aside told)
    (hevent : ∀ i, entry.event.begins i = false ∧ entry.event.closes i = false) :
    Aside (entry :: told) := by
  intro other hmem
  rcases List.mem_cons.mp hmem with rfl | hrest
  · exact hevent
  · exact h other hrest

theorem Aside.leave {told earlier : List Entry} (h : Aside told)
    (hjournal : e.journal = told ++ earlier) :
    ∃ told, e.leave.journal = told ++ earlier ∧ Aside told := by
  refine ⟨e.farewell ++ told, by rw [leave_journal, hjournal, List.append_assoc], ?_⟩
  intro entry hmem
  rcases List.mem_append.mp hmem with hfarewell | hrest
  · obtain ⟨_, ⟨rules, hevent⟩ | ⟨call, _, hevent⟩⟩ := farewell_event hfarewell <;> rw [hevent] <;>
      exact fun i => ⟨rfl, rfl⟩
  · exact h entry hrest

theorem Aside.withdraw (e : Engine) (who : Claimant) :
    ∃ told, (e.withdraw who).journal = told ++ e.journal ∧ Aside told := by
  rcases e.withdraw_eq who with ⟨_, _, heq⟩ | ⟨_, heq⟩
  · exact ⟨[⟨e.now, .cycleCancelled⟩], by rw [heq]; rfl, aside_nil.cons fun _ => ⟨rfl, rfl⟩⟩
  · exact ⟨[], by rw [heq]; rfl, aside_nil⟩

/-- What a step does to the world, and what it tells of it. -/
theorem Move.world (hmove : Move e later) :
    (later.world = e.world ∧ ∃ told, later.journal = told ++ e.journal ∧ Aside told) ∨
    (∃ change, later.world = e.world.change change ∧ later.journal = e.journal) ∨
    (∃ i, later.world = e.world.beginLoad i ∧
      later.journal = ⟨e.now, .loadBegan i⟩ :: e.journal) ∨
    ∃ i, later.world = (e.world.close i).1 ∧
      later.journal = ⟨e.now, .sourceClosed i (e.world.close i).2⟩ :: e.journal := by
  have one : ∀ event : Event, (∀ i, event.begins i = false ∧ event.closes i = false) →
      later.journal = ⟨e.now, event⟩ :: e.journal →
      ∃ told, later.journal = told ++ e.journal ∧ Aside told :=
    fun event hevent hjournal => ⟨[⟨e.now, event⟩], hjournal, aside_nil.cons hevent⟩
  cases hmove with
  | stay | shared | waited => exact Or.inl ⟨rfl, [], rfl, aside_nil⟩
  | changed change => exact Or.inr (Or.inl ⟨change, rfl, rfl⟩)
  | loadBegan who turn c => exact Or.inr (Or.inr (Or.inl ⟨c.next, rfl, rfl⟩))
  | sourceClosed head next => exact Or.inr (Or.inr (Or.inr ⟨next, rfl, rfl⟩))
  | reloadCalled => exact Or.inl ⟨rfl, one (.reloadCalled e.calls) (fun _ => ⟨rfl, rfl⟩) rfl⟩
  | closeCalled => exact Or.inl ⟨rfl, one .closeCalled (fun _ => ⟨rfl, rfl⟩) rfl⟩
  | closeAbandoned => exact Or.inl ⟨rfl, one .closeAbandoned (fun _ => ⟨rfl, rfl⟩) rfl⟩
  | dropped => exact Or.inl ⟨rfl, one .dropped (fun _ => ⟨rfl, rfl⟩) rfl⟩
  | cycleBegan who => exact Or.inl ⟨rfl, one (.cycleBegan who) (fun _ => ⟨rfl, rfl⟩) rfl⟩
  | loadEnded who turn c _ source =>
      exact Or.inl ⟨rfl, one (.loadEnded c.next (e.answer source)) (fun _ => ⟨rfl, rfl⟩) rfl⟩
  | ticked => exact Or.inl ⟨rfl, one .ticked (fun _ => ⟨rfl, rfl⟩) rfl⟩
  | tickerStopped => exact Or.inl ⟨rfl, one .tickerStopped (fun _ => ⟨rfl, rfl⟩) rfl⟩
  | closeRepeated =>
      refine Or.inl ⟨rfl, [⟨e.now, .closeReturned none⟩, ⟨e.now, .closeCalled⟩], rfl, ?_⟩
      exact (aside_nil.cons fun _ => ⟨rfl, rfl⟩).cons fun _ => ⟨rfl, rfl⟩
  | engineClosed head next error =>
      refine Or.inl ⟨rfl, [⟨e.now, .closeReturned error⟩, ⟨e.now, .engineClosed e.version⟩], rfl,
        ?_⟩
      exact (aside_nil.cons fun _ => ⟨rfl, rfl⟩).cons fun _ => ⟨rfl, rfl⟩
  | closerQueued stopping ended told noticed =>
      refine Or.inl ⟨rfl, told, rfl, ?_⟩
      rcases noticed with rfl | rfl
      · exact aside_nil
      · exact aside_nil.cons fun _ => ⟨rfl, rfl⟩
  | turnedAway => exact Or.inl ⟨leave_world e, aside_nil.leave rfl⟩
  | installed who turn c running complete rules =>
      have haside : Aside [⟨e.now, .installed (e.version + 1) rules⟩] :=
        aside_nil.cons fun _ => ⟨rfl, rfl⟩
      exact Or.inl ⟨leave_world _, haside.leave rfl⟩
  | notCompiled who turn c running complete error =>
      have haside : Aside [⟨e.now, .notCompiled error⟩] := aside_nil.cons fun _ => ⟨rfl, rfl⟩
      exact Or.inl ⟨leave_world _, haside.leave rfl⟩
  | reloadAbandoned call =>
      obtain ⟨told, hjournal, haside⟩ := Aside.withdraw e (.manual call)
      refine Or.inl ⟨withdraw_world _ _, ⟨e.now, .reloadAbandoned call⟩ :: told, ?_,
        haside.cons fun _ => ⟨rfl, rfl⟩⟩
      simp [record, hjournal]
  | cycleGivenUp =>
      obtain ⟨told, hjournal, haside⟩ := Aside.withdraw e .periodic
      refine Or.inl ⟨withdraw_world _ _, ⟨e.now, .tickerStopped⟩ :: told, ?_,
        haside.cons fun _ => ⟨rfl, rfl⟩⟩
      simp [stopTicker, record, hjournal]

/-- A scripted source has gone through what the journal tells of it. -/
def Seen (i : Nat) (script : Script) (e : Engine) : Prop :=
  ∃ now, e.world.script? i = some now ∧
    now.loads = script.loads + e.journal.countP (·.event.begins i) ∧
    now.closed = (script.closed || 0 < e.journal.countP (·.event.closes i))

theorem Seen.move {i : Nat} {script : Script} (h : Seen i script e) (hmove : Move e later) :
    Seen i script later := by
  obtain ⟨now, hnow, hloads, hclosed⟩ := h
  rcases hmove.world with ⟨hworld, told, hjournal, haside⟩ | ⟨change, hworld, hjournal⟩ |
    ⟨j, hworld, hjournal⟩ | ⟨j, hworld, hjournal⟩
  · have hbegins : told.countP (·.event.begins i) = 0 := by
      rw [List.countP_eq_zero]
      intro entry hmem
      simp [(haside entry hmem i).1]
    have hcloses : told.countP (·.event.closes i) = 0 := by
      rw [List.countP_eq_zero]
      intro entry hmem
      simp [(haside entry hmem i).2]
    refine ⟨now, hworld ▸ hnow, ?_, ?_⟩
    · rw [hjournal, List.countP_append, hbegins, Nat.zero_add, hloads]
    · rw [hjournal, List.countP_append, hcloses, Nat.zero_add, hclosed]
  · obtain ⟨next, hnext, hsameLoads, hsameClosed⟩ := World.script?_change hnow change
    refine ⟨next, hworld ▸ hnext, ?_, ?_⟩
    · rw [hjournal, hsameLoads, hloads]
    · rw [hjournal, hsameClosed, hclosed]
  · by_cases heq : j = i
    · subst heq
      refine ⟨_, hworld ▸ World.script?_beginLoad_self hnow, ?_, ?_⟩
      · rw [hjournal, List.countP_cons_of_pos (by simp [Event.begins]), hloads]
        rfl
      · rw [hjournal, List.countP_cons_of_neg (by simp [Event.closes]), hclosed]
    · refine ⟨now, hworld ▸ (World.script?_beginLoad_of_ne heq).trans hnow, ?_, ?_⟩
      · rw [hjournal, List.countP_cons_of_neg (by simp [Event.begins, heq]), hloads]
      · rw [hjournal, List.countP_cons_of_neg (by simp [Event.closes]), hclosed]
  · by_cases heq : j = i
    · subst heq
      refine ⟨_, hworld ▸ World.script?_close_self hnow, ?_, ?_⟩
      · rw [hjournal, List.countP_cons_of_neg (by simp [Event.begins]), hloads]
      · rw [hjournal, List.countP_cons_of_pos (by simp [Event.closes])]
        simp
    · refine ⟨now, hworld ▸ (World.script?_close_of_ne heq).trans hnow, ?_, ?_⟩
      · rw [hjournal, List.countP_cons_of_neg (by simp [Event.begins]), hloads]
      · rw [hjournal, List.countP_cons_of_neg (by simp [Event.closes, heq]), hclosed]

/-- What is shown of the journal holds of the sources: a scripted one has been asked as often as
loads of it are told of, and was closed if it was before or that is told. -/
theorem seen_run (settings : Settings) (world : World) {i : Nat} {script : Script}
    (h : world.script? i = some script) (actions : List Action) :
    Seen i script ((new settings world).steps actions) := by
  refine steps_induction (fun _ _ hseen hmove => hseen.move hmove) ?_ actions
  exact ⟨script, h, rfl, by simp [new]⟩

end Engine

end HostPolicy
