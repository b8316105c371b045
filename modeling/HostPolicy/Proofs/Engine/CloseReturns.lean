import HostPolicy.Proofs.Engine.ClosingTime

/-!
# The call that closes returns

An engine left to itself comes to the end of a call to close it: the ticker stops, the cycle of a
reload that is running ends, the reloads queued before the call are turned away, and then the
sources are closed one by one. Each of these steps leaves fewer to be taken, and between two of them
time passes at most once.
-/

namespace HostPolicy.Engine

variable {e later : Engine}

/-! ### What is left to do -/

/-- How many steps the call that closes takes yet, and one for its place in the queue. -/
def closingLeft (e : Engine) : Nat :=
  match e.closing with
  | .stopping => e.world.sources.length + 3
  | .releasing next _ => e.world.sources.length - next + 1
  | _ => 0

def releaseWork (e : Engine) : Nat :=
  e.loadsLeft + e.queue.length + e.ticker.pending + e.closingLeft

/-- An engine that has to wait is ready for a step thereafter. -/
def releaseRank (e : Engine) : Nat :=
  2 * e.releaseWork + if e.progress?.isSome then 0 else 1

theorem loadsLeft_of_idle (idle : e.cycle = none) : e.loadsLeft = 0 := by
  simp [loadsLeft, idle]

theorem closingLeft_le (e : Engine) : e.closingLeft ≤ e.world.sources.length + 3 := by
  unfold closingLeft
  split <;> omega

theorem releaseRank_lt_enough (e : Engine) : e.releaseRank < e.enough 0 := by
  have hloads := e.loadsLeft_le
  have hclosing := e.closingLeft_le
  have hticker := e.ticker.pending_le
  have hqueue : e.queue.length * 8 ≤ e.queue.length * (3 * e.world.sources.length + 8) :=
    Nat.mul_le_mul_left _ (Nat.le_add_left 8 _)
  calc e.releaseRank
      < e.queue.length * 8 + 4 * (3 * e.world.sources.length + 8) := by
        unfold releaseRank releaseWork
        split <;> omega
    _ ≤ e.queue.length * (3 * e.world.sources.length + 8) +
          4 * (3 * e.world.sources.length + 8) := Nat.add_le_add_right hqueue _
    _ = e.enough 0 := by simp [enough, Nat.add_mul]

/-! ### Steps of the engine itself -/

/-- Whether the call that closes has returned. -/
def hasReturned (e : Engine) : Bool :=
  e.closing matches .done _

theorem hasReturned_iff : e.hasReturned = true ↔ ∃ error, e.closing = .done error := by
  unfold hasReturned
  cases e.closing <;> simp

/-- The call that closes is under way or has returned: its caller still waits for it. -/
def IsAwaited (e : Engine) : Prop :=
  e.closing.released?.isSome ∨ e.hasReturned = true

theorem IsAwaited.congr (h : e.IsAwaited) (hclosing : later.closing = e.closing) :
    later.IsAwaited := by
  rwa [IsAwaited, hasReturned, hclosing]

theorem isAwaited_of_releasing {next : Nat} {error : Option SourceError}
    (releasing : e.closing = .releasing next error) : e.IsAwaited :=
  Or.inl (by rw [releasing]; rfl)

theorem IsAwaited.closed (h : e.IsAwaited) : e.closing ≠ .notCalled := by
  intro opened
  simp [IsAwaited, hasReturned, opened, Closing.released?] at h

/-- A step towards the return. -/
structure Nearer (e later : Engine) : Prop where
  awaited : later.IsAwaited
  less : later.releaseWork < e.releaseWork

theorem Nearer.of_same (h : e.IsAwaited) (hclosing : later.closing = e.closing)
    (hsources : later.world.sources.length = e.world.sources.length)
    (hless : later.loadsLeft + later.queue.length + later.ticker.pending <
      e.loadsLeft + e.queue.length + e.ticker.pending) : Nearer e later := by
  have hleft : later.closingLeft = e.closingLeft := by
    simp only [closingLeft, hclosing, hsources]
  refine ⟨h.congr hclosing, ?_⟩
  unfold releaseWork
  omega

theorem nearer_ticker? (h : e.IsAwaited) (hticker : e.ticker? = some later) : Nearer e later := by
  have shutDown : e.isShutDown = true := by
    rw [isShutDown, e.isClosed_iff.mpr h.closed, Bool.true_or]
  unfold ticker? at hticker
  split at hticker
  · next deadline waiting =>
      rw [if_pos shutDown] at hticker
      cases hticker
      refine .of_same h rfl rfl ?_
      change e.loadsLeft + e.queue.length + 0 < _
      simp [waiting, Ticker.pending]
  · next deadline cycling =>
      rw [if_pos shutDown] at hticker
      cases hticker
      have hqueue : (e.queue.filter (· != .periodic)).length ≤ e.queue.length :=
        List.length_filter_le _ _
      rcases e.withdraw_eq .periodic with ⟨_, _, heq⟩ | ⟨_, heq⟩
      · rw [heq]
        refine .of_same h rfl rfl ?_
        change 0 + (e.queue.filter (· != .periodic)).length + 0 < _
        rw [cycling, Ticker.pending]
        omega
      · rw [heq]
        refine .of_same h rfl rfl ?_
        change e.loadsLeft + (e.queue.filter (· != .periodic)).length + 0 < _
        rw [cycling, Ticker.pending]
        omega
  · contradiction

theorem nearer_closer? (hcloser : e.closer? = some later) : Nearer e later := by
  unfold closer? at hcloser
  split at hcloser
  · next ready =>
      have hbefore : e.closingLeft = e.world.sources.length + 3 := by simp [closingLeft, ready.1]
      cases hcloser
      refine ⟨isAwaited_of_releasing rfl, ?_⟩
      have hafter : e.loadsLeft + (e.queue.length + 1) + e.ticker.pending +
          (e.world.sources.length - 0 + 1) < e.releaseWork := by
        unfold releaseWork
        omega
      split <;> simpa [releaseWork, closingLeft, enqueue, record, loadsLeft] using hafter
  · contradiction

theorem nearer_release? (head : e.queue.head? = some .closer) (hrelease : e.release? = some later) :
    Nearer e later := by
  unfold release? at hrelease
  split at hrelease
  · next next error releasing =>
      split at hrelease
      · next left =>
          obtain ⟨hclosing, hcycle, hqueue, hticker, hsources⟩ :
              later.closing = .releasing (next + 1) (error.or (e.world.close next).2) ∧
              later.cycle = e.cycle ∧ later.queue = e.queue ∧ later.ticker = e.ticker ∧
              later.world.sources.length = e.world.sources.length := by
            cases hrelease
            exact ⟨rfl, rfl, rfl, rfl, World.length_sources_close _ _⟩
          refine ⟨isAwaited_of_releasing hclosing, ?_⟩
          simp only [releaseWork, closingLeft, loadsLeft, hclosing, hcycle, hqueue, hticker,
            hsources, releasing]
          omega
      · cases hrelease
        have hleave : e.leave = { e with queue := e.queue.tail, cycle := none } := by
          simp [leave, head]
        refine ⟨Or.inr rfl, ?_⟩
        simp only [hleave, releaseWork, closingLeft, loadsLeft, record, releasing,
          List.length_tail]
        omega
  · contradiction

theorem releaseWork_leave {call : Nat} (head : e.queue.head? = some (.manual call)) :
    e.leave.releaseWork < e.releaseWork := by
  have hleft : e.leave.closingLeft = e.closingLeft := by simp [closingLeft]
  have hidle : e.leave.loadsLeft = 0 := loadsLeft_of_idle e.leave_cycle
  have hqueue : e.leave.queue.length < e.queue.length := by
    obtain ⟨rest, hqueue⟩ := List.head?_eq_some_iff.mp head
    simp [hqueue]
  rw [releaseWork, hleft, hidle, e.leave_ticker_of_manual head, releaseWork]
  omega

theorem nearer_runCycle? (h : e.IsAwaited) {call : Nat} (head : e.queue.head? = some (.manual call))
    (hrun : e.runCycle? (.manual call) = some later) : Nearer e later := by
  unfold runCycle? at hrun
  split at hrun
  · rw [if_pos (e.isClosed_iff.mpr h.closed)] at hrun
    cases hrun
    exact ⟨h.congr e.leave_closing, releaseWork_leave head⟩
  · next c running =>
      split at hrun
      · cases hrun
        have hsame : (e.install c).queue = e.queue ∧ (e.install c).closing = e.closing ∧
            (e.install c).releaseWork = e.releaseWork := by
          unfold install
          split <;> exact ⟨rfl, rfl, rfl⟩
        obtain ⟨hqueue, hclosing, hwork⟩ := hsame
        refine ⟨h.congr ((e.install c).leave_closing.trans hclosing), ?_⟩
        rw [← hwork]
        exact releaseWork_leave (hqueue ▸ head)
      · next source asked between =>
          cases hrun
          have hlt := (List.getElem?_eq_some_iff.mp asked).1
          have hloads : (e.beginLoad c).loadsLeft < e.loadsLeft := by
            simp [loadsLeft, beginLoad, record, running, between]
            omega
          refine .of_same h rfl (World.length_sources_beginLoad _ _) ?_
          change (e.beginLoad c).loadsLeft + e.queue.length + e.ticker.pending < _
          omega
      · next source began asked loading =>
          have hlt := (List.getElem?_eq_some_iff.mp asked).1
          split at hrun
          · cases hrun
            have hloads : (e.endLoad c source).loadsLeft < e.loadsLeft := by
              simp [loadsLeft, endLoad, record, running, loading]
              omega
            refine .of_same h rfl rfl ?_
            change (e.endLoad c source).loadsLeft + e.queue.length + e.ticker.pending < _
            omega
          · contradiction

theorem nearer_holder? (h : e.IsAwaited) (horder : Orderly e) (hholder : e.holder? = some later) :
    Nearer e later := by
  unfold holder? at hholder
  split at hholder
  · contradiction
  · next rest hqueue => exact nearer_release? (by rw [hqueue]; rfl) hholder
  · rw [isShutDown, e.isClosed_iff.mpr h.closed, Bool.true_or, if_pos rfl] at hholder
    contradiction
  · next who rest hcloser hperiodic hqueue =>
      cases who with
      | build =>
          have hmem : .build ∈ e.queue := hqueue ▸ List.mem_cons_self
          exact absurd hmem (horder.build_not_mem_of_closed h.closed)
      | manual call => exact nearer_runCycle? h (by rw [hqueue]; rfl) hholder
      | periodic => exact absurd rfl hperiodic
      | closer => exact absurd rfl hcloser

/-! ### An engine left to itself -/

theorem nearer_progress? (h : e.IsAwaited) (horder : Orderly e) (ready : e.progress? = some later) :
    ∃ action, (∀ change, action ≠ .change change) ∧ e.step action = later ∧ Nearer e later := by
  rcases progress?_cases ready with hticker | ⟨_, hcloser⟩ | hholder
  · exact ⟨.ticker, by simp, by simp [step, hticker], nearer_ticker? h hticker⟩
  · exact ⟨.closer, by simp, by simp [step, hcloser], nearer_closer? hcloser⟩
  · exact ⟨.holder, by simp, by simp [step, hholder], nearer_holder? h horder hholder⟩

/-- Where nothing is ready, the cycle of a reload is in a load, and time passes to its end. -/
theorem waits_for_load (h : e.IsAwaited) (going : ¬e.hasReturned) (horder : Orderly e)
    (stuck : e.progress? = none) :
    ∃ time, e.next? none = some (e.step (.wait time)) ∧
      (e.step (.wait time)).releaseRank < e.releaseRank := by
  have pending : e.closing.released?.isSome := h.resolve_right going
  obtain ⟨call, c, turn, running⟩ := exists_turn_of_stuck horder pending stuck
  obtain ⟨time, hnext, onward⟩ := onward_wait turn running stuck
  refine ⟨time, hnext, ?_⟩
  -- The work is the same before and after, so that it is the readiness that has changed.
  have hready := onward.less
  have hload : (e.step (.wait time)).workLeft = e.workLeft := rfl
  have hrelease : (e.step (.wait time)).releaseWork = e.releaseWork := rfl
  unfold rank at hready
  unfold releaseRank
  omega

theorem goesOn_closing (h : e.IsAwaited) (going : ¬e.hasReturned) (horder : Orderly e) :
    ∃ action, (∀ change, action ≠ .change change) ∧ e.next? none = some (e.step action) ∧
      (e.step action).IsAwaited ∧ (e.step action).releaseRank < e.releaseRank := by
  cases hprogress : e.progress? with
  | some later =>
      obtain ⟨action, hother, rfl, nearer⟩ := nearer_progress? h horder hprogress
      refine ⟨action, hother, by simp [next?, hprogress], nearer.awaited, ?_⟩
      have hless := nearer.less
      unfold releaseRank
      rw [hprogress]
      split <;> simp <;> omega
  | none =>
      obtain ⟨time, hnext, hless⟩ := waits_for_load h going horder hprogress
      exact ⟨.wait time, by simp, hnext, h.congr rfl, hless⟩

/-- An engine left to itself returns from the call that closes it, and its sources are not changed
from outside meanwhile. -/
theorem close_returns {fuel : Nat} (h : e.IsAwaited) (horder : Orderly e)
    (hfuel : e.releaseRank < fuel) :
    ∃ actions, (∀ change, .change change ∉ actions) ∧
      e.steps actions = run none hasReturned fuel e ∧
        (run none hasReturned fuel e).hasReturned := by
  -- Every step lowers the rank, so that the rest of the fuel exceeds it again.
  induction fuel generalizing e with
  | zero => contradiction
  | succ fuel ih =>
      unfold run
      by_cases returned : e.hasReturned
      · rw [if_pos returned]
        exact ⟨[], by simp, rfl, returned⟩
      · obtain ⟨action, hother, hnext, awaited, hless⟩ := goesOn_closing h returned horder
        rw [if_neg returned, hnext]
        obtain ⟨actions, hothers, hsteps, hend⟩ := ih awaited (horder.move (e.move_step action))
          (Nat.lt_of_lt_of_le hless (Nat.le_of_lt_succ hfuel))
        refine ⟨action :: actions, ?_, hsteps, hend⟩
        intro change hmem
        rcases List.mem_cons.mp hmem with heq | hrest
        · exact hother change heq.symm
        · exact hothers change hrest

theorem closeNow_returns (horder : Orderly e) (opened : e.closing = .notCalled)
    (held : e.owners ≠ 0) :
    ∃ actions, (∀ change, .change change ∉ actions) ∧
      (e.step .close).steps actions = e.closeNow.1 ∧ e.closeNow.1.closing = .done e.closeNow.2 := by
  have hclose := step_close opened held
  have awaited : (e.step .close).IsAwaited := by
    rw [hclose]
    exact Or.inl rfl
  obtain ⟨actions, hothers, hsteps, returned⟩ := close_returns awaited
    (horder.move (e.move_step .close)) (e.step .close).releaseRank_lt_enough
  obtain ⟨error, hdone⟩ := hasReturned_iff.mp returned
  have hnow : e.closeNow = (run none hasReturned ((e.step .close).enough 0) (e.step .close),
      error) := by
    unfold closeNow
    rw [if_neg (by simp [isClosed, opened])]
    change (match (run none hasReturned ((e.step .close).enough 0) (e.step .close)).closing with
      | .done error => _
      | _ => _) = _
    rw [hdone]
    rfl
  rw [hnow]
  exact ⟨actions, hothers, hsteps, hdone⟩

end HostPolicy.Engine
