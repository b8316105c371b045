import HostPolicy.Proofs.Engine.Closing
import HostPolicy.Proofs.Engine.Load

/-!
# How long close waits

The call that closes waits for the cycle of a reload that is running, and for nothing else: the
cycle of the ticker is given up at once, and the reloads queued before the call are turned away. But
the timeout is one of each load and not of the cycle, so that the wait is bounded by as many
timeouts as that cycle has sources yet to hear from.
-/

namespace HostPolicy

/-- An engine with two sources that never answer, each of which is waited for ten milliseconds. -/
def Construction.stalled : Construction :=
  .build (.ofRequest ⟨.bypass, false⟩ [] (some 10) none)
    ⟨.empty, [], [.scripted ⟨"a", true, 0, [], none, none, 0, false⟩,
      .scripted ⟨"b", true, 0, [], none, none, 0, false⟩]⟩

namespace Engine

variable {e later : Engine} {c : Cycle}

/-! ### Time -/

theorem now_runCycle? {who : Claimant} (hrun : e.runCycle? who = some later) :
    later.now = e.now := by
  unfold runCycle? at hrun
  split at hrun
  · split at hrun <;> cases hrun
    · exact e.leave_now
    · rfl
  · split at hrun
    · cases hrun
      rw [leave_now]
      unfold install
      split <;> rfl
    · cases hrun
      rfl
    · split at hrun
      · cases hrun
        rfl
      · contradiction

theorem now_release? (hrelease : e.release? = some later) : later.now = e.now := by
  unfold release? at hrelease
  split at hrelease
  · split at hrelease <;> cases hrelease
    · rfl
    · exact e.leave_now
  · contradiction

theorem now_holder? (hholder : e.holder? = some later) : later.now = e.now := by
  unfold holder? at hholder
  split at hholder
  · contradiction
  · exact now_release? hholder
  · split at hholder
    · contradiction
    · exact now_runCycle? hholder
  · exact now_runCycle? hholder

theorem now_ticker? (hticker : e.ticker? = some later) : later.now = e.now := by
  unfold ticker? at hticker
  split at hticker
  · split at hticker
    · cases hticker
      rfl
    · split at hticker
      · cases hticker
        rfl
      · contradiction
  · split at hticker
    · cases hticker
      exact withdraw_now _ _
    · contradiction
  · contradiction

theorem now_closer? (hcloser : e.closer? = some later) : later.now = e.now := by
  unfold closer? at hcloser
  split at hcloser
  · cases hcloser
    dsimp only [enqueue]
    split <;> rfl
  · contradiction

/-- Only waiting takes time. -/
theorem now_step {action : Action} (hother : ∀ time, action ≠ .wait time) :
    (e.step action).now = e.now := by
  have hready : ∀ result : Option Engine, (∀ later, result = some later → later.now = e.now) →
      (result.getD e).now = e.now := by
    intro result hsame
    cases result with
    | none => rfl
    | some later => exact hsame later rfl
  cases action with
  | reload => dsimp only [step, reload]; split <;> rfl
  | abandon call =>
      dsimp only [step, abandon]
      split
      · exact withdraw_now _ _
      · rfl
  | close => dsimp only [step, close]; split <;> (try split) <;> rfl
  | abandonClose => dsimp only [step, abandonClose]; split <;> rfl
  | share => dsimp only [step, share]; split <;> rfl
  | drop => dsimp only [step, drop]; split <;> rfl
  | change change => rfl
  | wait time => exact absurd rfl (hother time)
  | holder => exact hready _ fun _ => now_holder?
  | ticker => exact hready _ fun _ => now_ticker?
  | closer => exact hready _ fun _ => now_closer?

/-! ### Runs that lose no time -/

/-- Whether a step is taken in time: where one is ready no time passes, and no more than until one
is due. -/
def isTimely (e : Engine) : Action → Bool
  | .wait time => time == 0 || e.progress?.isNone && e.due?.all (e.now + time ≤ ·)
  | _ => true

def isPrompt (e : Engine) : List Action → Bool
  | [] => true
  | action :: more => e.isTimely action && (e.step action).isPrompt more

theorem timely_of_next? {horizon : Option Nat} (hnext : e.next? horizon = some later) :
    ∃ action, e.isTimely action = true ∧ e.step action = later := by
  unfold next? at hnext
  split at hnext
  · next hprogress =>
      cases hnext
      rcases progress?_cases hprogress with hticker | ⟨_, hcloser⟩ | hholder
      · exact ⟨.ticker, rfl, by simp [step, hticker]⟩
      · exact ⟨.closer, rfl, by simp [step, hcloser]⟩
      · exact ⟨.holder, rfl, by simp [step, hholder]⟩
  · next hprogress =>
      split at hnext
      · next due hdue =>
          split at hnext
          · cases hnext
            refine ⟨.wait (due - e.now), ?_, rfl⟩
            simp only [isTimely, hprogress, hdue, Option.isNone_none, Option.all_some,
              Bool.true_and, Bool.or_eq_true, beq_iff_eq, decide_eq_true_eq]
            omega
          · contradiction
      · contradiction

/-- An engine left to itself loses no time. -/
theorem exists_prompt_run (horizon : Option Nat) (stop : Engine → Bool) (fuel : Nat) (e : Engine) :
    ∃ actions, e.isPrompt actions = true ∧ e.steps actions = run horizon stop fuel e := by
  induction fuel generalizing e with
  | zero => exact ⟨[], rfl, rfl⟩
  | succ fuel ih =>
      unfold run
      split
      · exact ⟨[], rfl, rfl⟩
      · split
        · next later hnext =>
            obtain ⟨action, timely, rfl⟩ := timely_of_next? hnext
            obtain ⟨actions, prompt, hrun⟩ := ih (e.step action)
            exact ⟨action :: actions, by simp [isPrompt, timely, prompt], hrun⟩
        · exact ⟨[], rfl, rfl⟩

/-! ### The time that a reload may take yet -/

/-- How much longer the next load of a cycle may take. -/
def loadTimeLeft (e : Engine) (c : Cycle) : Nat :=
  match c.began with
  | none => e.settings.loadTimeout
  | some began => began + e.settings.loadTimeout - e.now

def cycleTimeLeft (e : Engine) (c : Cycle) : Nat :=
  match e.world.sources.length - c.next with
  | 0 => 0
  | others + 1 => e.loadTimeLeft c + others * e.settings.loadTimeout

/-- The cycle of a reload that is running. -/
def reloading? (e : Engine) : Option Cycle :=
  match e.queue.head? with
  | some (.manual _) => e.cycle
  | _ => none

/-- How much longer the cycle of a reload may be running. -/
def reloadTimeLeft (e : Engine) : Nat :=
  e.reloading?.elim 0 e.cycleTimeLeft

/-- How many sources the cycle of a reload has yet to hear from. -/
def unanswered (e : Engine) : Nat :=
  e.reloading?.elim 0 fun c => e.world.sources.length - c.next

theorem reloading?_eq_some_iff :
    e.reloading? = some c ↔ (∃ call, e.queue.head? = some (.manual call)) ∧ e.cycle = some c := by
  unfold reloading?
  split
  · next call hhead => simp [hhead]
  · next hother =>
      refine iff_of_false (by simp) ?_
      rintro ⟨⟨call, hhead⟩, _⟩
      exact hother call hhead

theorem reloadTimeLeft_of_reloading (h : e.reloading? = some c) :
    e.reloadTimeLeft = e.cycleTimeLeft c := by
  rw [reloadTimeLeft, h, Option.elim_some]

theorem reloadTimeLeft_of_not_reloading (h : e.reloading? = none) : e.reloadTimeLeft = 0 := by
  rw [reloadTimeLeft, h, Option.elim_none]

theorem cycleTimeLeft_congr (hsettings : later.settings = e.settings)
    (hsources : later.world.sources.length = e.world.sources.length) (hnow : later.now = e.now) :
    later.cycleTimeLeft c = e.cycleTimeLeft c := by
  simp only [cycleTimeLeft, loadTimeLeft, hsettings, hsources, hnow]

/-- Loads that have not begun may each take the whole timeout. -/
theorem cycleTimeLeft_of_between (between : c.began = none) :
    e.cycleTimeLeft c = (e.world.sources.length - c.next) * e.settings.loadTimeout := by
  unfold cycleTimeLeft loadTimeLeft
  rw [between]
  split
  · next hnone => rw [hnone, Nat.zero_mul]
  · next others hleft => rw [hleft, Nat.succ_mul, Nat.add_comm]

theorem cycleTimeLeft_of_loading {began : Nat} (loading : c.began = some began)
    (asked : c.next < e.world.sources.length) :
    e.cycleTimeLeft c = (began + e.settings.loadTimeout - e.now) +
      (e.world.sources.length - (c.next + 1)) * e.settings.loadTimeout := by
  obtain ⟨others, hleft⟩ : ∃ others, e.world.sources.length - c.next = others + 1 :=
    ⟨e.world.sources.length - c.next - 1, by omega⟩
  have hothers : e.world.sources.length - (c.next + 1) = others := by omega
  rw [cycleTimeLeft, hleft, hothers, loadTimeLeft, loading]

/-! ### While the call is pending -/

/-- Steps other than the beginning of a load leave it as it is, or there is none after them. -/
theorem Move.between (hmove : Move e later) (running : e.cycle = some c)
    (hcycle : later.cycle = some { c with began := some e.now }) :
    c.began = none ∨ later.cycle = e.cycle := by
  cases hmove with
  | loadBegan who turn other hother asked between =>
      rw [running] at hother
      cases hother
      exact Or.inl between
  | cycleBegan who turn idle => simp [running] at idle
  | loadEnded => simp at hcycle
  | turnedAway | installed | notCompiled => simp at hcycle
  | engineClosed => contradiction
  | reloadAbandoned call =>
      rcases e.withdraw_eq (.manual call) with ⟨_, _, heq⟩ | ⟨_, heq⟩
      · simp [record, heq] at hcycle
      · exact Or.inr (by rw [heq]; rfl)
  | cycleGivenUp =>
      rcases e.withdraw_eq .periodic with ⟨_, _, heq⟩ | ⟨_, heq⟩
      · simp [stopTicker, record, heq] at hcycle
      · exact Or.inr (by rw [heq]; rfl)
  | _ => exact Or.inr rfl

/-- Once the engine is closed, a step that takes no time gives no cycle more of it. -/
theorem Move.reloadTimeLeft_le (hmove : Move e later) (horder : Orderly e)
    (closed : e.closing ≠ .notCalled) (hnow : later.now = e.now) :
    later.reloadTimeLeft ≤ e.reloadTimeLeft := by
  have hsettings := hmove.settings
  have hsources := hmove.length_sources
  cases hreloading : later.reloading? with
  | none =>
      rw [reloadTimeLeft_of_not_reloading hreloading]
      exact Nat.zero_le _
  | some c =>
      obtain ⟨⟨call, hhead⟩, hcycle⟩ := reloading?_eq_some_iff.mp hreloading
      rw [reloadTimeLeft_of_reloading hreloading, cycleTimeLeft_congr hsettings hsources hnow]
      cases hmove.progress horder with
      | aside _ _ hsame =>
          obtain ⟨running, hheads⟩ := hsame c hcycle
          have hbefore : e.reloading? = some c :=
            reloading?_eq_some_iff.mpr ⟨⟨call, hheads ▸ hhead⟩, running⟩
          rw [reloadTimeLeft_of_reloading hbefore]
      | began _ _ opened => exact absurd opened closed
      | loadBegan d running _ hqueue _ hbegan =>
          have hbefore : e.reloading? = some d :=
            reloading?_eq_some_iff.mpr ⟨⟨call, hqueue ▸ hhead⟩, running⟩
          rw [reloadTimeLeft_of_reloading hbefore]
          cases Option.some.inj (hcycle.symm.trans hbegan)
          rcases hmove.between running hbegan with between | hsame
          · simp only [cycleTimeLeft, loadTimeLeft, between, Nat.add_sub_cancel_left, Nat.le_refl]
          · rw [← Option.some.inj (hcycle.symm.trans (hsame.trans running))]
      | loadEnded d source running asked began loading _ hqueue _ hended =>
          have hbefore : e.reloading? = some d :=
            reloading?_eq_some_iff.mpr ⟨⟨call, hqueue ▸ hhead⟩, running⟩
          rw [reloadTimeLeft_of_reloading hbefore]
          cases Option.some.inj (hcycle.symm.trans hended)
          have hlt := (List.getElem?_eq_some_iff.mp asked).1
          rw [cycleTimeLeft_of_loading loading hlt, cycleTimeLeft_of_between rfl]
          exact Nat.le_add_left _ _
      | installed _ _ _ _ _ _ hidle | notCompiled _ _ _ _ _ _ hidle | cancelled _ _ _ hidle =>
          rw [hidle] at hcycle
          contradiction

/-- A call that closes and is not pending does not become so. -/
theorem Move.pending (hmove : Move e later) (closed : e.closing ≠ .notCalled)
    (pending : later.closing.released?.isSome) : e.closing.released?.isSome := by
  cases hmove with
  | closeCalled _ opened => exact absurd opened closed
  | closeAbandoned | engineClosed => contradiction
  | sourceClosed _ _ _ releasing => simp [releasing, Closing.released?]
  | closerQueued stopping => simp [stopping, Closing.released?]
  | reloadAbandoned | cycleGivenUp => simpa [record, stopTicker] using pending
  | turnedAway | installed | notCompiled => simpa using pending
  | _ => exact pending

/-- While the call is pending and no step is ready, the cycle of a reload is in a load. -/
theorem exists_turn_of_stuck (horder : Orderly e) (pending : e.closing.released?.isSome)
    (stuck : e.progress? = none) :
    ∃ call c, e.HasTurn (.manual call) ∧ e.cycle = some c := by
  have closed : e.closing ≠ .notCalled := by
    intro opened
    simp [opened, Closing.released?] at pending
  have shutDown : e.isShutDown = true := by
    rw [isShutDown, e.isClosed_iff.mpr closed, Bool.true_or]
  simp only [progress?, Option.orElse_eq_orElse, Option.orElse_eq_or,
    Option.or_eq_none_iff] at stuck
  obtain ⟨hticker, hcloser, hholder⟩ := stuck
  have ended : e.ticker.hasEnded = true := by
    unfold ticker? at hticker
    cases hstate : e.ticker <;> simp_all [Ticker.hasEnded]
  obtain ⟨next, error, releasing⟩ : ∃ next error, e.closing = .releasing next error := by
    cases hclosing : e.closing with
    | stopping => simp [closer?, hclosing, ended] at hcloser
    | releasing next error => exact ⟨next, error, rfl⟩
    | _ => simp [hclosing, Closing.released?] at pending
  have hqueued : .closer ∈ e.queue := horder.closer.mpr ⟨next, error, releasing⟩
  obtain ⟨who, rest, hqueue⟩ := List.exists_cons_of_ne_nil (List.ne_nil_of_mem hqueued)
  have hmem : who ∈ e.queue := hqueue ▸ List.mem_cons_self
  cases who with
  | build => exact absurd hmem (horder.build_not_mem_of_closed closed)
  | periodic => exact absurd hmem (horder.periodic_not_mem ended)
  | closer =>
      simp only [holder?, hqueue, release?, releasing] at hholder
      split at hholder <;> contradiction
  | manual call =>
      have turn : e.HasTurn (.manual call) := ⟨by rw [hqueue]; rfl, by simp, by simp⟩
      cases hcycle : e.cycle with
      | some c => exact ⟨call, c, turn, rfl⟩
      | none =>
          rw [turn.holder?] at hholder
          simp [runCycle?, hcycle, e.isClosed_iff.mpr closed] at hholder

theorem patience_le (e : Engine) (source : Source) :
    e.patience source ≤ e.settings.loadTimeout := by
  unfold patience
  split
  · exact Nat.min_le_right _ _
  · exact Nat.le_refl _

/-- While the call is pending time passes only in a load of a reload, which is bounded. -/
theorem reloadTimeLeft_wait (horder : Orderly e) (pending : e.closing.released?.isSome) {time : Nat}
    (timely : e.isTimely (.wait time) = true) :
    e.now + time + (e.step (.wait time)).reloadTimeLeft ≤ e.now + e.reloadTimeLeft := by
  simp only [isTimely, Bool.or_eq_true, beq_iff_eq, Bool.and_eq_true, Option.isNone_iff_eq_none,
    Option.all_eq_true, decide_eq_true_eq] at timely
  rcases timely with rfl | ⟨stuck, hbound⟩
  · exact Nat.le_refl _
  · obtain ⟨call, c, turn, running⟩ := exists_turn_of_stuck horder pending stuck
    obtain ⟨⟨loadDue, hload, _⟩, _⟩ := waits_of_progress?_none turn running stuck
    obtain ⟨began, source, loading, asked, rfl⟩ := (loadDue?_eq_some_iff running).mp hload
    obtain ⟨due, hdue, hle, _⟩ := due?_of_loadDue? hload
    have hlt := (List.getElem?_eq_some_iff.mp asked).1
    have hwithin : e.now + time ≤ began + e.settings.loadTimeout := by
      have hpatience := e.patience_le source
      have hdueBound := hbound due hdue
      omega
    have hbefore : e.reloading? = some c :=
      reloading?_eq_some_iff.mpr ⟨⟨call, turn.head⟩, running⟩
    have hafter : (e.step (.wait time)).reloading? = some c := hbefore
    have hlater := cycleTimeLeft_of_loading (e := e.step (.wait time)) loading hlt
    rw [reloadTimeLeft_of_reloading hbefore, reloadTimeLeft_of_reloading hafter, hlater,
      cycleTimeLeft_of_loading loading hlt]
    simp only [step]
    omega

/-- The engine is closed, and while the call that closes is pending no reload may take until later
than `limit`. -/
structure ClosesBy (limit : Nat) (e : Engine) : Prop where
  closed : e.closing ≠ .notCalled
  inTime : e.closing.released?.isSome → e.now + e.reloadTimeLeft ≤ limit

theorem ClosesBy.step {limit : Nat} (h : ClosesBy limit e) (horder : Orderly e) {action : Action}
    (timely : e.isTimely action = true) : ClosesBy limit (e.step action) := by
  have hmove := e.move_step action
  refine ⟨hmove.closed h.closed, ?_⟩
  intro pending
  have hlimit := h.inTime (hmove.pending h.closed pending)
  by_cases hwait : ∃ time, action = .wait time
  · obtain ⟨time, rfl⟩ := hwait
    exact Nat.le_trans (reloadTimeLeft_wait horder (hmove.pending h.closed pending) timely) hlimit
  · have hnow : (e.step action).now = e.now :=
      now_step fun time heq => hwait ⟨time, heq⟩
    have hless := hmove.reloadTimeLeft_le horder h.closed hnow
    omega

theorem ClosesBy.steps {limit : Nat} (h : ClosesBy limit e) (horder : Orderly e)
    {more : List Action} (prompt : e.isPrompt more = true) : ClosesBy limit (e.steps more) := by
  induction more generalizing e with
  | nil => exact h
  | cons action more ih =>
      obtain ⟨timely, hrest⟩ := Bool.and_eq_true_iff.mp prompt
      exact ih (h.step horder timely) (horder.move (e.move_step action)) hrest

/-! ### Every run -/

theorem began_le_run (construction : Construction) (actions : List Action) :
    let e := construction.start.steps actions
    ∀ c began, e.cycle = some c → c.began = some began → began ≤ e.now := by
  refine run_induction
    (P := fun e => ∀ c began, e.cycle = some c → c.began = some began → began ≤ e.now) ?_ ?_ actions
  · intro c began running
    rw [(fresh_start construction).idle] at running
    contradiction
  · intro e later horder _ h hmove c began running loading
    cases hmove.progress horder with
    | aside _ _ hcycle =>
        exact Nat.le_trans (h c began (hcycle c running).1 loading) hmove.now_le
    | began _ _ _ _ _ _ hcycle | loadEnded _ _ _ _ _ _ _ _ _ hcycle =>
        cases Option.some.inj (running.symm.trans hcycle)
        contradiction
    | loadBegan _ _ _ _ _ hcycle =>
        cases Option.some.inj (running.symm.trans hcycle)
        cases loading
        exact hmove.now_le
    | installed _ _ _ _ _ _ hidle | notCompiled _ _ _ _ _ _ hidle | cancelled _ _ _ hidle =>
        rw [hidle] at running
        contradiction

theorem reloadTimeLeft_le_unanswered
    (hbegan : ∀ c began, e.cycle = some c → c.began = some began → began ≤ e.now) :
    e.reloadTimeLeft ≤ e.unanswered * e.settings.loadTimeout := by
  unfold reloadTimeLeft unanswered
  cases hreloading : e.reloading? with
  | none => simp
  | some c =>
      obtain ⟨_, running⟩ := reloading?_eq_some_iff.mp hreloading
      simp only [Option.elim_some, cycleTimeLeft, loadTimeLeft]
      split
      · exact Nat.zero_le _
      · next others hleft =>
          rw [hleft, Nat.succ_mul]
          cases hloading : c.began with
          | none =>
              dsimp only
              omega
          | some began =>
              have hle := hbegan c began running hloading
              dsimp only
              omega

/-- The call that closes is pending for no longer than the loads may take that the cycle of a reload
has left when it is made, whatever order steps are taken in, if no time is lost. The reloads queued
behind that cycle and the cycle of the ticker add nothing. Hence the load timeout is long enough if
there is no more than one source left to hear from; each of the others may take another. -/
theorem close_waits_for_reload (construction : Construction) (actions more : List Action) :
    let e := construction.start.steps actions
    let later := (e.step .close).steps more
    e.closing = .notCalled → e.owners ≠ 0 → (e.step .close).isPrompt more = true →
      later.closing.released?.isSome →
      later.now ≤ e.now + e.reloadTimeLeft ∧
      e.reloadTimeLeft ≤ e.unanswered * e.settings.loadTimeout ∧
      (e.unanswered ≤ 1 → later.now ≤ e.now + e.settings.loadTimeout) := by
  intro e later opened held prompt pending
  have horder : Orderly e := orderly_run construction actions
  have hclose := step_close opened held
  have hstart : ClosesBy (e.now + e.reloadTimeLeft) (e.step .close) := by
    rw [hclose]
    exact ⟨by simp, fun _ => Nat.le_refl _⟩
  have h : ClosesBy (e.now + e.reloadTimeLeft) later :=
    hstart.steps (horder.move (e.move_step .close)) prompt
  have hnow : later.now ≤ e.now + e.reloadTimeLeft :=
    Nat.le_trans (Nat.le_add_right _ _) (h.inTime pending)
  have hleft : e.reloadTimeLeft ≤ e.unanswered * e.settings.loadTimeout :=
    reloadTimeLeft_le_unanswered (began_le_run construction actions)
  refine ⟨hnow, hleft, ?_⟩
  intro hone
  calc later.now ≤ e.now + e.reloadTimeLeft := hnow
    _ ≤ e.now + e.unanswered * e.settings.loadTimeout := Nat.add_le_add_left hleft _
    _ ≤ e.now + 1 * e.settings.loadTimeout := Nat.add_le_add_left (Nat.mul_le_mul_right _ hone) _
    _ = e.now + e.settings.loadTimeout := by rw [Nat.one_mul]

theorem close_waits_for_reload_stalled :
    let e := Construction.stalled.start.steps [.holder, .holder, .wait 10, .holder, .holder,
      .wait 10, .holder, .holder, .reload, .holder, .holder, .wait 4, .reload]
    let later := (e.step .close).steps [.closer, .wait 6, .holder, .holder, .wait 10]
    later.closing.released?.isSome ∧ later.now ≤ e.now + e.reloadTimeLeft ∧
      e.now + e.reloadTimeLeft = 40 := by
  intro e later
  have hpending : later.closing.released?.isSome := rfl
  have hwait := close_waits_for_reload Construction.stalled _ _ rfl (by decide) (by decide) hpending
  exact ⟨hpending, hwait.1, by decide⟩

theorem not_close_within_timeout :
    ¬∀ (construction : Construction) (actions more : List Action),
      let e := construction.start.steps actions
      let later := (e.step .close).steps more
      e.closing = .notCalled → e.owners ≠ 0 → (e.step .close).isPrompt more = true →
        later.closing.released?.isSome → later.now ≤ e.now + e.settings.loadTimeout := by
  intro hbound
  have hlate := hbound Construction.stalled [.holder, .holder, .wait 10, .holder, .holder,
      .wait 10, .holder, .holder, .reload, .holder, .holder]
    [.closer, .wait 10, .holder, .holder, .wait 1] rfl (by decide) (by decide) rfl
  exact absurd hlate (by decide)

end Engine

end HostPolicy
