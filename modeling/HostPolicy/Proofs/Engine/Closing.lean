import HostPolicy.Proofs.Engine.Progress

/-!
# Close is final

From the call to close on no cycle begins: the one that is running may still come to its rule set if
it is that of a reload, and is given up if it is the ticker's. Once the call has returned, the rules
stay what they are and no source is called again, while reloads and further calls to close return.
-/

namespace HostPolicy

/-- Whether an event is a call of a source or the end of one. -/
def Event.callsSource : Event → Bool
  | loadBegan _ => true
  | loadEnded _ _ => true
  | sourceClosed _ _ => true
  | _ => false

namespace Engine

variable {e later : Engine}

/-! ### After the return -/

/-- The call that closes has returned, and no cycle is running. -/
structure Done (e : Engine) : Prop where
  idle : e.cycle = none
  returned : ∃ error, e.closing = .done error

namespace Done

theorem closed (h : Done e) : e.closing ≠ .notCalled := by
  obtain ⟨error, hdone⟩ := h.returned
  simp [hdone]

theorem move (h : Done e) (hmove : Move e later) :
    later.cycle = none ∧ later.closing = e.closing ∧ SameRules e later := by
  obtain ⟨hidle, error, hdone⟩ := h
  cases hmove with
  | closeCalled _ opened | cycleBegan _ _ _ opened => simp [opened] at hdone
  | turnedAway => exact ⟨leave_cycle e, leave_closing e, leave_rules e, leave_version e⟩
  | loadBegan _ _ _ running | loadEnded _ _ _ running | installed _ _ _ running
  | notCompiled _ _ _ running => simp [hidle] at running
  | sourceClosed _ _ _ releasing | engineClosed _ _ _ releasing => simp [hdone] at releasing
  | closerQueued stopping => simp [hdone] at stopping
  | closeAbandoned _ pending => simp [hdone, Closing.released?] at pending
  | reloadAbandoned | cycleGivenUp =>
      exact ⟨withdraw_cycle_of_idle _ hidle, withdraw_closing _ _, withdraw_rules _ _,
        withdraw_version _ _⟩
  | _ => exact ⟨hidle, rfl, rfl, rfl⟩

theorem next (h : Done e) (hmove : Move e later) : Done later := by
  obtain ⟨hidle, hclosing, _⟩ := h.move hmove
  obtain ⟨error, hdone⟩ := h.returned
  exact ⟨hidle, error, hclosing.trans hdone⟩

theorem not_callsSource (h : Done e) {event : Event} (hoccasion : e.Occasion event) :
    event.callsSource = false := by
  obtain ⟨error, hdone⟩ := h.returned
  cases event with
  | loadBegan i =>
      obtain ⟨who, c, _, running, _⟩ := hoccasion
      simp [h.idle] at running
  | loadEnded i answer =>
      obtain ⟨who, c, source, began, _, running, _⟩ := hoccasion
      simp [h.idle] at running
  | sourceClosed i error =>
      obtain ⟨_, other, releasing⟩ := hoccasion
      simp [hdone] at releasing
  | _ => rfl

theorem steps (h : Done e) (more : List Action) :
    (e.steps more).closing = e.closing ∧ SameRules e (e.steps more) := by
  induction more generalizing e with
  | nil => exact ⟨rfl, rfl, rfl⟩
  | cons action more ih =>
      have hmove := e.move_step action
      obtain ⟨_, hclosing, hrules, hversion⟩ := h.move hmove
      obtain ⟨hrest, hrules', hversion'⟩ := ih (h.next hmove)
      exact ⟨hrest.trans hclosing, hrules'.trans hrules, hversion'.trans hversion⟩

theorem steps_told (h : Done e) (more : List Action) :
    ∃ told, (e.steps more).journal = told ++ e.journal ∧
      ∀ entry ∈ told, entry.event.callsSource = false := by
  refine Engine.steps_told (P := Done) ?_ h more
  intro e later h hmove
  obtain ⟨told, hjournal, htold⟩ := hmove.told
  exact ⟨h.next hmove, told, hjournal, fun entry hmem => h.not_callsSource (htold entry hmem).2⟩

end Done

theorem done_of_closing (construction : Construction) (actions : List Action)
    {error : Option SourceError}
    (hdone : (construction.start.steps actions).closing = .done error) :
    Done (construction.start.steps actions) := by
  have hidle : ∀ error, (construction.start.steps actions).closing = .done error →
      (construction.start.steps actions).cycle = none := by
    refine steps_induction (P := fun e => ∀ error, e.closing = .done error → e.cycle = none) ?_ ?_
      actions
    · intro e later h hmove error hdone
      cases hmove with
      | turnedAway | installed | notCompiled => exact leave_cycle _
      | cycleBegan _ _ _ opened => simp [opened] at hdone
      | loadBegan _ _ _ running | loadEnded _ _ _ running => simp [h error hdone] at running
      | closeCalled | sourceClosed | closerQueued | closeAbandoned => contradiction
      | engineClosed => rfl
      | reloadAbandoned | cycleGivenUp =>
          exact withdraw_cycle_of_idle _ (h error ((withdraw_closing _ _).symm.trans hdone))
      | _ => exact h error hdone
    · exact fun error _ => (fresh_start construction).idle
  exact ⟨hidle error hdone, error, hdone⟩

/-! ### Reloads after the return -/

/-- A reload that has been called waits behind no more than `ahead` others. -/
def Waits (call ahead : Nat) (e : Engine) : Prop :=
  ∃ front back, e.queue = front ++ .manual call :: back ∧ front.length ≤ ahead

/-- No other step lets the queue move on, but claims are added or given up. -/
theorem Done.step_queue (h : Done e) (horder : Orderly e) {action : Action}
    (hother : action ≠ .holder) :
    (∃ added, (e.step action).queue = e.queue ++ added) ∨
    ∃ call, action = .abandon call ∧
      (e.step action).queue = e.queue.filter (· != .manual call) := by
  obtain ⟨error, hdone⟩ := h.returned
  have ended : e.ticker.hasEnded = true := horder.stopped (by simp [isPastTicker, hdone])
  have same : ∀ {later : Engine}, later.queue = e.queue → ∃ added, later.queue = e.queue ++ added :=
    fun heq => ⟨[], by rw [heq, List.append_nil]⟩
  cases action with
  | reload =>
      left
      change ∃ added, e.reload.queue = e.queue ++ added
      unfold reload
      split
      · exact same rfl
      · exact ⟨[.manual e.calls], rfl⟩
  | abandon call =>
      change (∃ added, (e.abandon call).queue = e.queue ++ added) ∨ _
      unfold abandon
      split
      · refine Or.inr ⟨call, rfl, ?_⟩
        simp [step, abandon, *, record]
      · exact Or.inl (same rfl)
  | close =>
      left
      change ∃ added, e.close.queue = e.queue ++ added
      unfold close
      split
      · exact same rfl
      · split <;> exact same rfl
  | abandonClose =>
      left
      change ∃ added, e.abandonClose.queue = e.queue ++ added
      simp [abandonClose, hdone, Closing.released?]
  | share =>
      left
      change ∃ added, e.share.queue = e.queue ++ added
      unfold share
      split <;> exact same rfl
  | drop =>
      left
      change ∃ added, e.drop.queue = e.queue ++ added
      unfold drop
      split <;> exact same rfl
  | change change => exact Or.inl (same rfl)
  | wait time => exact Or.inl (same rfl)
  | holder => contradiction
  | ticker =>
      have hnone : e.ticker? = none := by
        unfold ticker?
        cases hticker : e.ticker <;> simp_all [Ticker.hasEnded]
      exact Or.inl (same (by simp [step, hnone]))
  | closer =>
      have hnone : e.closer? = none := by simp [closer?, hdone]
      exact Or.inl (same (by simp [step, hnone]))

namespace Waits

variable {call ahead : Nat}

theorem step (hwaits : Waits call ahead e) (h : Done e) (horder : Orderly e) {action : Action}
    (hother : action ≠ .holder) (hkept : action ≠ .abandon call) :
    Waits call ahead (e.step action) := by
  obtain ⟨front, back, hqueue, hle⟩ := hwaits
  rcases h.step_queue horder hother with ⟨added, hadded⟩ | ⟨given, rfl, hfiltered⟩
  · exact ⟨front, back ++ added, by rw [hadded, hqueue]; simp, hle⟩
  · have hne : call ≠ given := fun heq => hkept (by rw [heq])
    refine ⟨front.filter (· != .manual given), back.filter (· != .manual given), ?_, ?_⟩
    · rw [hfiltered, hqueue]
      simp [hne]
    · exact Nat.le_trans (List.length_filter_le _ _) hle

end Waits

/-- A cycle is running, of this claimant. -/
def InFlight (who : Claimant) (e : Engine) : Prop :=
  e.cycle.isSome ∧ e.queue.head? = some who

theorem step_close (opened : e.closing = .notCalled) (held : e.owners ≠ 0) :
    e.step .close =
      { e with closing := .stopping, journal := ⟨e.now, .closeCalled⟩ :: e.journal } := by
  change e.close = _
  simp [close, held, e.isClosed_eq_false_iff.mpr opened, record]

/-! ### Close as a whole -/

end Engine

end HostPolicy
