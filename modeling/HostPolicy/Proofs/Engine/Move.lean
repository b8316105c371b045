import HostPolicy.Engine.Step
import Mathlib.Data.List.Basic

/-!
# What a step of an engine can do

A step runs one of a dozen functions, each of which is ready or not and branches further. `Move`
says once what can come of it: one constructor for each way to change the engine, with what has to
hold before. Facts about runs are proved by cases on it, and no longer look at the functions.
-/

namespace HostPolicy.Engine

/-- A claimant at the head of the queue that may go on with a cycle. -/
structure HasTurn (e : Engine) (who : Claimant) : Prop where
  head : e.queue.head? = some who
  ne_closer : who ≠ .closer
  not_shutDown : who = .periodic → e.isShutDown = false

/-- From an engine to the engine after one step. -/
inductive Move (e : Engine) : Engine → Prop
  | stay : Move e e
  | reloadCalled (held : e.owners ≠ 0) :
      Move e { e with
        queue := e.queue ++ [.manual e.calls]
        calls := e.calls + 1
        journal := ⟨e.now, .reloadCalled e.calls⟩ :: e.journal }
  | reloadAbandoned (call : Nat) (queued : .manual call ∈ e.queue) :
      Move e ((e.withdraw (.manual call)).record (.reloadAbandoned call))
  | closeCalled (held : e.owners ≠ 0) (opened : e.closing = .notCalled) :
      Move e { e with closing := .stopping, journal := ⟨e.now, .closeCalled⟩ :: e.journal }
  | closeRepeated (held : e.owners ≠ 0) (closed : e.closing ≠ .notCalled) :
      Move e { e with
        journal := ⟨e.now, .closeReturned none⟩ :: ⟨e.now, .closeCalled⟩ :: e.journal }
  | closeAbandoned (next : Nat) (pending : e.closing.released? = some next) :
      Move e { e with
        queue := e.queue.filter (· != Claimant.closer)
        closing := .abandoned next
        journal := ⟨e.now, .closeAbandoned⟩ :: e.journal }
  | shared (held : e.owners ≠ 0) : Move e { e with owners := e.owners + 1 }
  | dropped (held : e.owners ≠ 0) :
      Move e { e with owners := e.owners - 1, journal := ⟨e.now, .dropped⟩ :: e.journal }
  | changed (change : World.Change) : Move e { e with world := e.world.change change }
  | waited (time : Nat) : Move e { e with now := e.now + time }
  | cycleBegan (who : Claimant) (turn : e.HasTurn who) (idle : e.cycle = none)
      (opened : e.closing = .notCalled) :
      Move e { e with
        cycle := some ⟨0, none, []⟩, journal := ⟨e.now, .cycleBegan who⟩ :: e.journal }
  | turnedAway (who : Claimant) (turn : e.HasTurn who) (idle : e.cycle = none)
      (closed : e.closing ≠ .notCalled) : Move e e.leave
  | loadBegan (who : Claimant) (turn : e.HasTurn who) (c : Cycle) (running : e.cycle = some c)
      (asked : c.next < e.world.sources.length) (between : c.began = none) :
      Move e { e with
        world := e.world.beginLoad c.next
        cycle := some { c with began := some e.now }
        journal := ⟨e.now, .loadBegan c.next⟩ :: e.journal }
  | loadEnded (who : Claimant) (turn : e.HasTurn who) (c : Cycle) (running : e.cycle = some c)
      (source : Source) (asked : e.world.sources[c.next]? = some source) (began : Nat)
      (loading : c.began = some began) (due : began + e.patience source ≤ e.now) :
      Move e { e with
        cycle := some ⟨c.next + 1, none, c.gathered ++ rulesOf (e.answer source)⟩
        journal := ⟨e.now, .loadEnded c.next (e.answer source)⟩ :: e.journal }
  | installed (who : Claimant) (turn : e.HasTurn who) (c : Cycle) (running : e.cycle = some c)
      (complete : e.world.sources.length ≤ c.next) (rules : RuleSet)
      (compiles : RuleSet.compile (e.settings.patterns ++ c.gathered) = .ok rules) :
      Move e { e with
        rules := rules
        version := e.version + 1
        journal := ⟨e.now, .installed (e.version + 1) rules⟩ :: e.journal }.leave
  | notCompiled (who : Claimant) (turn : e.HasTurn who) (c : Cycle) (running : e.cycle = some c)
      (complete : e.world.sources.length ≤ c.next) (error : RuleError)
      (fails : RuleSet.compile (e.settings.patterns ++ c.gathered) = .error error) :
      Move e { e with journal := ⟨e.now, .notCompiled error⟩ :: e.journal }.leave
  | sourceClosed (head : e.queue.head? = some .closer) (next : Nat) (error : Option SourceError)
      (releasing : e.closing = .releasing next error) (left : next < e.world.sources.length) :
      Move e { e with
        world := (e.world.close next).1
        closing := .releasing (next + 1) (error.or (e.world.close next).2)
        journal := ⟨e.now, .sourceClosed next (e.world.close next).2⟩ :: e.journal }
  | engineClosed (head : e.queue.head? = some .closer) (next : Nat) (error : Option SourceError)
      (releasing : e.closing = .releasing next error) (released : e.world.sources.length ≤ next) :
      Move e { e with
        queue := e.queue.tail
        cycle := none
        closing := .done error
        journal := ⟨e.now, .closeReturned error⟩ :: ⟨e.now, .engineClosed e.version⟩ ::
          e.journal }
  | ticked (deadline : Nat) (waiting : e.ticker = .waiting deadline)
      (running : e.isShutDown = false) (due : deadline ≤ e.now) :
      Move e { e with
        queue := e.queue ++ [.periodic]
        ticker := .cycling (Ticker.following (e.settings.period.getD 0) deadline e.now)
        journal := ⟨e.now, .ticked⟩ :: e.journal }
  | tickerStopped (deadline : Nat) (waiting : e.ticker = .waiting deadline)
      (shutDown : e.isShutDown = true) :
      Move e { e with ticker := .stopped, journal := ⟨e.now, .tickerStopped⟩ :: e.journal }
  | cycleGivenUp (deadline : Nat) (cycling : e.ticker = .cycling deadline)
      (shutDown : e.isShutDown = true) : Move e (e.withdraw .periodic).stopTicker
  | closerQueued (stopping : e.closing = .stopping) (ended : e.ticker.hasEnded = true)
      (told : List Entry) (noticed : told = [] ∨ told = [⟨e.now, .tickerLost⟩]) :
      Move e { e with
        queue := e.queue ++ [.closer], closing := .releasing 0 none, journal := told ++ e.journal }

/-! ### The end of a turn -/

section Leave

variable (e : Engine)

@[simp]
theorem leave_settings : e.leave.settings = e.settings := by
  unfold leave; split <;> (try split) <;> rfl

@[simp]
theorem leave_world : e.leave.world = e.world := by
  unfold leave; split <;> (try split) <;> rfl

@[simp]
theorem leave_rules : e.leave.rules = e.rules := by
  unfold leave; split <;> (try split) <;> rfl

@[simp]
theorem leave_version : e.leave.version = e.version := by
  unfold leave; split <;> (try split) <;> rfl

@[simp]
theorem leave_queue : e.leave.queue = e.queue.tail := by
  unfold leave; split <;> (try split) <;> rfl

@[simp]
theorem leave_cycle : e.leave.cycle = none := by
  unfold leave; split <;> (try split) <;> rfl

@[simp]
theorem leave_closing : e.leave.closing = e.closing := by
  unfold leave; split <;> (try split) <;> rfl

@[simp]
theorem leave_calls : e.leave.calls = e.calls := by
  unfold leave; split <;> (try split) <;> rfl

@[simp]
theorem leave_now : e.leave.now = e.now := by
  unfold leave; split <;> (try split) <;> rfl

/-- What the end of a turn is told by. -/
def farewell : List Entry :=
  match e.queue.head? with
  | some .build => [⟨e.now, .started e.rules.counts.total⟩]
  | some (.manual call) => [⟨e.now, .reloadReturned call⟩]
  | _ => []

@[simp]
theorem leave_journal : e.leave.journal = e.farewell ++ e.journal := by
  unfold leave farewell
  split
  · simp [record, *]
  · simp [record, *]
  · split <;> simp [*]
  · split <;> simp_all

theorem leave_ticker_of_manual {call : Nat} (hhead : e.queue.head? = some (.manual call)) :
    e.leave.ticker = e.ticker := by
  simp [leave, hhead, record]

theorem leave_ticker_of_periodic {deadline : Nat} (hhead : e.queue.head? = some .periodic)
    (hcycling : e.ticker = .cycling deadline) : e.leave.ticker = .waiting deadline := by
  simp [leave, hhead, hcycling]

theorem leave_ticker_of_build (hhead : e.queue.head? = some .build) :
    e.leave.ticker = .start e.settings.period e.now := by
  simp [leave, hhead, record]

end Leave

theorem farewell_event {e : Engine} {entry : Entry} (hmem : entry ∈ e.farewell) :
    entry.time = e.now ∧ ((∃ rules, entry.event = .started rules) ∨
      ∃ call, e.queue.head? = some (.manual call) ∧ entry.event = .reloadReturned call) := by
  unfold farewell at hmem
  split at hmem
  · rw [List.mem_singleton.mp hmem]
    exact ⟨rfl, Or.inl ⟨_, rfl⟩⟩
  · next call head =>
      rw [List.mem_singleton.mp hmem]
      exact ⟨rfl, Or.inr ⟨call, head, rfl⟩⟩
  · contradiction

/-! ### The end of a claim -/

/-- Giving up a claim ends the cycle of that claimant if it is running, and nothing else. -/
theorem withdraw_eq (e : Engine) (who : Claimant) :
    (e.queue.head? = some who ∧ e.cycle.isSome ∧
      e.withdraw who = { e with
        queue := e.queue.filter (· != who)
        cycle := none
        journal := ⟨e.now, .cycleCancelled⟩ :: e.journal }) ∨
    ((e.queue.head? = some who → e.cycle = none) ∧
      e.withdraw who = { e with queue := e.queue.filter (· != who) }) := by
  by_cases hrunning : e.queue.head? = some who ∧ e.cycle.isSome
  · refine Or.inl ⟨hrunning.1, hrunning.2, ?_⟩
    simp [withdraw, hrunning, record]
  · refine Or.inr ⟨?_, by simp [withdraw, hrunning]⟩
    intro hhead
    simpa [hhead] using hrunning

section Withdraw

variable (e : Engine) (who : Claimant)

@[simp]
theorem withdraw_settings : (e.withdraw who).settings = e.settings := by
  rcases e.withdraw_eq who with ⟨_, _, heq⟩ | ⟨_, heq⟩ <;> rw [heq]

@[simp]
theorem withdraw_world : (e.withdraw who).world = e.world := by
  rcases e.withdraw_eq who with ⟨_, _, heq⟩ | ⟨_, heq⟩ <;> rw [heq]

@[simp]
theorem withdraw_rules : (e.withdraw who).rules = e.rules := by
  rcases e.withdraw_eq who with ⟨_, _, heq⟩ | ⟨_, heq⟩ <;> rw [heq]

@[simp]
theorem withdraw_version : (e.withdraw who).version = e.version := by
  rcases e.withdraw_eq who with ⟨_, _, heq⟩ | ⟨_, heq⟩ <;> rw [heq]

@[simp]
theorem withdraw_closing : (e.withdraw who).closing = e.closing := by
  rcases e.withdraw_eq who with ⟨_, _, heq⟩ | ⟨_, heq⟩ <;> rw [heq]

@[simp]
theorem withdraw_owners : (e.withdraw who).owners = e.owners := by
  rcases e.withdraw_eq who with ⟨_, _, heq⟩ | ⟨_, heq⟩ <;> rw [heq]

@[simp]
theorem withdraw_calls : (e.withdraw who).calls = e.calls := by
  rcases e.withdraw_eq who with ⟨_, _, heq⟩ | ⟨_, heq⟩ <;> rw [heq]

@[simp]
theorem withdraw_now : (e.withdraw who).now = e.now := by
  rcases e.withdraw_eq who with ⟨_, _, heq⟩ | ⟨_, heq⟩ <;> rw [heq]

@[simp]
theorem withdraw_queue : (e.withdraw who).queue = e.queue.filter (· != who) := by
  rcases e.withdraw_eq who with ⟨_, _, heq⟩ | ⟨_, heq⟩ <;> rw [heq]

variable {e} in
theorem withdraw_cycle_of_idle (idle : e.cycle = none) : (e.withdraw who).cycle = none := by
  rcases e.withdraw_eq who with ⟨_, _, heq⟩ | ⟨_, heq⟩ <;> rw [heq]
  exact idle

end Withdraw

theorem isClosed_eq_false_iff (e : Engine) : e.isClosed = false ↔ e.closing = .notCalled := by
  simp [isClosed]

theorem isClosed_iff (e : Engine) : e.isClosed = true ↔ e.closing ≠ .notCalled := by
  simp [isClosed]

/-! ### Every step is a move -/

variable {e later : Engine}

theorem move_reload (e : Engine) : Move e e.reload := by
  unfold reload
  split
  · exact .stay
  · next held => exact .reloadCalled held

theorem move_abandon (e : Engine) (call : Nat) : Move e (e.abandon call) := by
  unfold abandon
  split
  · next queued => exact .reloadAbandoned call queued
  · exact .stay

theorem move_close (e : Engine) : Move e e.close := by
  unfold close
  split
  · exact .stay
  · next held =>
      split
      · next closed => exact .closeRepeated held (e.isClosed_iff.mp closed)
      · next opened =>
          exact .closeCalled held (e.isClosed_eq_false_iff.mp (Bool.eq_false_iff.mpr opened))

theorem move_abandonClose (e : Engine) : Move e e.abandonClose := by
  unfold abandonClose
  split
  · next next pending => exact .closeAbandoned next pending
  · exact .stay

theorem move_runCycle? {who : Claimant} (turn : e.HasTurn who)
    (hrun : e.runCycle? who = some later) : Move e later := by
  unfold runCycle? at hrun
  split at hrun
  · next idle =>
      split at hrun
      · next closed =>
          cases hrun
          exact .turnedAway who turn idle (e.isClosed_iff.mp closed)
      · next opened =>
          cases hrun
          exact .cycleBegan who turn idle
            (e.isClosed_eq_false_iff.mp (Bool.eq_false_iff.mpr opened))
  · next c running =>
      split at hrun
      · next missing =>
          cases hrun
          have complete := List.getElem?_eq_none_iff.mp missing
          unfold install
          split
          · next rules compiles => exact .installed who turn c running complete rules compiles
          · next error fails => exact .notCompiled who turn c running complete error fails
      · next source asked between =>
          cases hrun
          have hnext := (List.getElem?_eq_some_iff.mp asked).1
          exact .loadBegan who turn c running hnext between
      · next source began asked loading =>
          split at hrun
          · next due =>
              cases hrun
              exact .loadEnded who turn c running source asked began loading due
          · contradiction

theorem move_release? (head : e.queue.head? = some .closer)
    (hrelease : e.release? = some later) : Move e later := by
  unfold release? at hrelease
  split at hrelease
  · next next error releasing =>
      split at hrelease
      · next left =>
          cases hrelease
          exact .sourceClosed head next error releasing left
      · next released =>
          cases hrelease
          have hmove := Move.engineClosed head next error releasing (Nat.le_of_not_lt released)
          simpa [leave, head, record] using hmove
  · contradiction

theorem move_holder? (hholder : e.holder? = some later) : Move e later := by
  unfold holder? at hholder
  split at hholder
  · contradiction
  · next rest head => exact move_release? (by rw [head]; rfl) hholder
  · next rest head =>
      split at hholder
      · contradiction
      · next running =>
          refine move_runCycle? ⟨by rw [head]; rfl, by simp, ?_⟩ hholder
          intro _
          exact Bool.eq_false_iff.mpr running
  · next who rest hcloser hperiodic head =>
      have turn : e.HasTurn who :=
        ⟨by rw [head]; rfl, hcloser, fun h => absurd h hperiodic⟩
      exact move_runCycle? turn hholder

theorem move_ticker? (hticker : e.ticker? = some later) : Move e later := by
  unfold ticker? at hticker
  split at hticker
  · next deadline waiting =>
      split at hticker
      · next shutDown =>
          cases hticker
          exact .tickerStopped deadline waiting shutDown
      · next running =>
          split at hticker
          · next due =>
              cases hticker
              exact .ticked deadline waiting (Bool.eq_false_iff.mpr running) due
          · contradiction
  · next deadline cycling =>
      split at hticker
      · next shutDown =>
          cases hticker
          exact .cycleGivenUp deadline cycling shutDown
      · contradiction
  · contradiction

theorem move_closer? (hcloser : e.closer? = some later) : Move e later := by
  unfold closer? at hcloser
  split at hcloser
  · next ready =>
      cases hcloser
      by_cases hlost : e.ticker = .lost
      · have hmove := Move.closerQueued ready.1 ready.2 [⟨e.now, .tickerLost⟩] (Or.inr rfl)
        simpa [hlost, record, enqueue] using hmove
      · have hmove := Move.closerQueued ready.1 ready.2 [] (Or.inl rfl)
        simpa [hlost, enqueue] using hmove
  · contradiction

theorem move_getD {result : Option Engine} (hmove : ∀ later, result = some later → Move e later) :
    Move e (result.getD e) := by
  cases result with
  | none => exact .stay
  | some later => exact hmove later rfl

theorem move_step (e : Engine) (action : Action) : Move e (e.step action) := by
  cases action with
  | reload => exact e.move_reload
  | abandon call => exact e.move_abandon call
  | close => exact e.move_close
  | abandonClose => exact e.move_abandonClose
  | share =>
      show Move e e.share
      unfold share
      split
      · exact .stay
      · next held => exact .shared held
  | drop =>
      show Move e e.drop
      unfold drop
      split
      · exact .stay
      · next held => exact .dropped held
  | change change => exact .changed change
  | wait time => exact .waited time
  | holder => exact move_getD fun _ => move_holder?
  | ticker => exact move_getD fun _ => move_ticker?
  | closer => exact move_getD fun _ => move_closer?

/-! ### What is told, and when -/

/-- The state in which an engine tells an event. -/
def Occasion (e : Engine) : Event → Prop
  | .reloadCalled call => e.owners ≠ 0 ∧ call = e.calls
  | .reloadReturned call => e.queue.head? = some (.manual call)
  | .reloadAbandoned call => .manual call ∈ e.queue
  | .ticked => e.isShutDown = false
  | .cycleBegan who => e.HasTurn who ∧ e.cycle = none ∧ e.closing = .notCalled
  | .cycleCancelled => e.cycle.isSome
  | .loadBegan i => ∃ who c, e.HasTurn who ∧ e.cycle = some c ∧ c.began = none ∧ i = c.next
  | .loadEnded i answer => ∃ who c source began, e.HasTurn who ∧ e.cycle = some c ∧ i = c.next ∧
      e.world.sources[i]? = some source ∧ c.began = some began ∧
      began + e.patience source ≤ e.now ∧ answer = e.answer source
  | .installed version rules => ∃ who c, e.HasTurn who ∧ e.cycle = some c ∧
      version = e.version + 1 ∧
      RuleSet.compile (e.settings.patterns ++ c.gathered) = .ok rules
  | .notCompiled error => ∃ who c, e.HasTurn who ∧ e.cycle = some c ∧
      RuleSet.compile (e.settings.patterns ++ c.gathered) = .error error
  | .tickerStopped => e.isShutDown = true
  | .tickerLost => e.closing = .stopping
  | .closeCalled => e.owners ≠ 0
  | .closeAbandoned => e.closing.released?.isSome
  | .sourceClosed i _ => e.queue.head? = some .closer ∧ ∃ error, e.closing = .releasing i error
  | .engineClosed version => version = e.version ∧ ∃ next error, e.closing = .releasing next error
  | .closeReturned _ => e.closing ≠ .notCalled
  | .dropped => e.owners ≠ 0
  | _ => True

/-- Entries that an engine adds to its journal. -/
def Tells (e : Engine) (told : List Entry) : Prop :=
  ∀ entry ∈ told, entry.time = e.now ∧ e.Occasion entry.event

theorem tells_nil (e : Engine) : e.Tells [] := by simp [Tells]

theorem tells_cons {told : List Entry} (event : Event) (hevent : e.Occasion event)
    (htold : e.Tells told) : e.Tells (⟨e.now, event⟩ :: told) := by
  intro entry hmem
  rcases List.mem_cons.mp hmem with rfl | hrest
  · exact ⟨rfl, hevent⟩
  · exact htold entry hrest

theorem tells_farewell (hqueue : later.queue = e.queue) (hnow : later.now = e.now) :
    e.Tells later.farewell := by
  intro entry hmem
  obtain ⟨htime, ⟨rules, hevent⟩ | ⟨call, head, hevent⟩⟩ := farewell_event hmem
  · exact ⟨htime.trans hnow, by rw [hevent]; trivial⟩
  · exact ⟨htime.trans hnow, by rw [hevent, Occasion, ← hqueue]; exact head⟩

theorem tells_withdraw (e : Engine) (who : Claimant) :
    ∃ told, (e.withdraw who).journal = told ++ e.journal ∧ e.Tells told := by
  rcases e.withdraw_eq who with ⟨_, running, heq⟩ | ⟨_, heq⟩
  · exact ⟨[⟨e.now, .cycleCancelled⟩], by rw [heq]; rfl,
      tells_cons .cycleCancelled running e.tells_nil⟩
  · exact ⟨[], by rw [heq]; rfl, e.tells_nil⟩

theorem tells_append {first second : List Entry} (hfirst : e.Tells first)
    (hsecond : e.Tells second) : e.Tells (first ++ second) := by
  intro entry hmem
  rcases List.mem_append.mp hmem with hmem | hmem
  · exact hfirst entry hmem
  · exact hsecond entry hmem

/-- Nothing that was told is lost, and what is added is told on its occasion. -/
theorem Move.told (hmove : Move e later) :
    ∃ told, later.journal = told ++ e.journal ∧ e.Tells told := by
  cases hmove with
  | stay => exact ⟨[], rfl, e.tells_nil⟩
  | reloadCalled held =>
      exact ⟨[_], rfl, tells_cons (.reloadCalled e.calls) ⟨held, rfl⟩ e.tells_nil⟩
  | reloadAbandoned call queued =>
      obtain ⟨told, hjournal, htold⟩ := e.tells_withdraw (.manual call)
      exact ⟨⟨e.now, .reloadAbandoned call⟩ :: told, by simp [record, hjournal],
        tells_cons (.reloadAbandoned call) queued htold⟩
  | closeCalled held opened => exact ⟨[_], rfl, tells_cons .closeCalled held e.tells_nil⟩
  | closeRepeated held closed =>
      exact ⟨[_, _], rfl, tells_cons (.closeReturned none) closed
        (tells_cons .closeCalled held e.tells_nil)⟩
  | closeAbandoned next pending =>
      exact ⟨[_], rfl, tells_cons .closeAbandoned (Option.isSome_of_eq_some pending) e.tells_nil⟩
  | shared held => exact ⟨[], rfl, e.tells_nil⟩
  | dropped held => exact ⟨[_], rfl, tells_cons .dropped held e.tells_nil⟩
  | changed change => exact ⟨[], rfl, e.tells_nil⟩
  | waited time => exact ⟨[], rfl, e.tells_nil⟩
  | cycleBegan who turn idle opened =>
      exact ⟨[_], rfl, tells_cons (.cycleBegan who) ⟨turn, idle, opened⟩ e.tells_nil⟩
  | turnedAway who turn idle closed => exact ⟨e.farewell, e.leave_journal, tells_farewell rfl rfl⟩
  | loadBegan who turn c running asked between =>
      exact ⟨[_], rfl, tells_cons (.loadBegan c.next) ⟨who, c, turn, running, between, rfl⟩
        e.tells_nil⟩
  | loadEnded who turn c running source asked began loading due =>
      exact ⟨[_], rfl, tells_cons (.loadEnded c.next (e.answer source))
        ⟨who, c, source, began, turn, running, rfl, asked, loading, due, rfl⟩ e.tells_nil⟩
  | installed who turn c running complete rules compiles =>
      rw [leave_journal]
      refine ⟨_, List.append_cons _ _ _, tells_append (tells_farewell rfl rfl) ?_⟩
      exact tells_cons (.installed (e.version + 1) rules) ⟨who, c, turn, running, rfl, compiles⟩
        e.tells_nil
  | notCompiled who turn c running complete error fails =>
      rw [leave_journal]
      refine ⟨_, List.append_cons _ _ _, tells_append (tells_farewell rfl rfl) ?_⟩
      exact tells_cons (.notCompiled error) ⟨who, c, turn, running, fails⟩ e.tells_nil
  | sourceClosed head next error releasing left =>
      exact ⟨[_], rfl, tells_cons (.sourceClosed next _) ⟨head, error, releasing⟩ e.tells_nil⟩
  | engineClosed head next error releasing released =>
      have closed : e.closing ≠ .notCalled := by simp [releasing]
      exact ⟨[_, _], rfl, tells_cons (.closeReturned error) closed
        (tells_cons (.engineClosed e.version) ⟨rfl, next, error, releasing⟩ e.tells_nil)⟩
  | ticked deadline waiting running due =>
      exact ⟨[_], rfl, tells_cons .ticked running e.tells_nil⟩
  | tickerStopped deadline waiting shutDown =>
      exact ⟨[_], rfl, tells_cons .tickerStopped shutDown e.tells_nil⟩
  | cycleGivenUp deadline cycling shutDown =>
      obtain ⟨told, hjournal, htold⟩ := e.tells_withdraw .periodic
      exact ⟨⟨e.now, .tickerStopped⟩ :: told, by simp [stopTicker, record, hjournal],
        tells_cons .tickerStopped shutDown htold⟩
  | closerQueued stopping ended told noticed =>
      refine ⟨told, rfl, ?_⟩
      rcases noticed with rfl | rfl
      · exact e.tells_nil
      · exact tells_cons .tickerLost stopping e.tells_nil

theorem Move.settings (hmove : Move e later) : later.settings = e.settings := by
  cases hmove with
  | reloadAbandoned | cycleGivenUp => exact withdraw_settings _ _
  | turnedAway | installed | notCompiled => exact leave_settings _
  | _ => rfl

theorem Move.calls_le (hmove : Move e later) : e.calls ≤ later.calls := by
  cases hmove with
  | reloadCalled held => exact Nat.le_succ e.calls
  | reloadAbandoned | cycleGivenUp => exact Nat.le_of_eq (withdraw_calls _ _).symm
  | turnedAway | installed | notCompiled => simp only [leave_calls, Nat.le_refl]
  | _ => exact Nat.le_refl e.calls

theorem Move.now_le (hmove : Move e later) : e.now ≤ later.now := by
  cases hmove with
  | waited time => exact Nat.le_add_right e.now time
  | reloadAbandoned | cycleGivenUp => exact Nat.le_of_eq (withdraw_now _ _).symm
  | turnedAway | installed | notCompiled => simp only [leave_now, Nat.le_refl]
  | _ => exact Nat.le_refl e.now

theorem Move.closed (hmove : Move e later) (closed : e.closing ≠ .notCalled) :
    later.closing ≠ .notCalled := by
  cases hmove with
  | reloadAbandoned | cycleGivenUp => simpa [record, stopTicker] using closed
  | turnedAway | installed | notCompiled => simpa using closed
  | sourceClosed | engineClosed | closerQueued | closeCalled | closeAbandoned => simp
  | _ => exact closed

theorem Move.closeCalled_told (hmove : Move e later) (opened : e.closing = .notCalled)
    (closed : later.closing ≠ .notCalled) : ⟨e.now, .closeCalled⟩ ∈ later.journal := by
  cases hmove with
  | closeCalled held _ => exact List.mem_cons_self
  | reloadAbandoned | cycleGivenUp => simp [record, stopTicker, opened] at closed
  | sourceClosed _ _ _ releasing | engineClosed _ _ _ releasing => simp [opened] at releasing
  | closerQueued stopping => simp [opened] at stopping
  | closeAbandoned _ pending => simp [opened, Closing.released?] at pending
  | turnedAway | installed | notCompiled => simp [opened] at closed
  | _ => exact absurd opened closed

theorem Move.closeAbandoned_told (hmove : Move e later) {next : Nat}
    (abandoned : later.closing = .abandoned next) :
    e.closing = .abandoned next ∨ ⟨e.now, .closeAbandoned⟩ ∈ later.journal := by
  cases hmove with
  | closeAbandoned => exact Or.inr List.mem_cons_self
  | closeCalled | sourceClosed | engineClosed | closerQueued => contradiction
  | reloadAbandoned | cycleGivenUp =>
      exact Or.inl ((withdraw_closing _ _).symm.trans abandoned)
  | turnedAway | installed | notCompiled =>
      left
      simpa only [leave_closing] using abandoned
  | _ => exact Or.inl abandoned

/-! ### Runs -/

/-- The head of the queue has its turn `n` times. -/
def turns (n : Nat) : List Action :=
  List.replicate n .holder

@[simp]
theorem steps_nil (e : Engine) : e.steps [] = e := rfl

@[simp]
theorem steps_cons (e : Engine) (action : Action) (actions : List Action) :
    e.steps (action :: actions) = (e.step action).steps actions := rfl

theorem steps_append (e : Engine) (first second : List Action) :
    e.steps (first ++ second) = (e.steps first).steps second :=
  List.foldl_append

/-- What every move keeps, a run keeps. -/
theorem steps_induction {P : Engine → Prop} (hmove : ∀ e later, P e → Move e later → P later)
    (hstart : P e) (actions : List Action) : P (e.steps actions) := by
  induction actions generalizing e with
  | nil => exact hstart
  | cons action actions ih => exact ih (hmove _ _ hstart (e.move_step action))

theorem steps_settings (e : Engine) (actions : List Action) :
    (e.steps actions).settings = e.settings := by
  refine steps_induction (P := fun later => later.settings = e.settings) ?_ rfl actions
  exact fun _ _ hsame hmove => hmove.settings.trans hsame

/-- What holds of all that every move tells holds of all that a run tells. -/
theorem steps_told {P : Engine → Prop} {Q : Entry → Prop}
    (hmove : ∀ e later, P e → Move e later →
      P later ∧ ∃ told, later.journal = told ++ e.journal ∧ ∀ entry ∈ told, Q entry)
    (hstart : P e) (actions : List Action) :
    ∃ told, (e.steps actions).journal = told ++ e.journal ∧ ∀ entry ∈ told, Q entry := by
  induction actions generalizing e with
  | nil => exact ⟨[], rfl, by simp⟩
  | cons action actions ih =>
      obtain ⟨hnext, first, hfirst, hholds⟩ := hmove _ _ hstart (e.move_step action)
      obtain ⟨second, hsecond, hrest⟩ := ih hnext
      refine ⟨second ++ first, ?_, ?_⟩
      · rw [steps_cons, hsecond, hfirst, List.append_assoc]
      · intro entry hmem
        rcases List.mem_append.mp hmem with hlate | hearly
        · exact hrest entry hlate
        · exact hholds entry hearly

theorem steps_journal (e : Engine) (actions : List Action) :
    ∃ told, (e.steps actions).journal = told ++ e.journal := by
  have hstep : ∀ e later : Engine, True → Move e later →
      True ∧ ∃ told, later.journal = told ++ e.journal ∧ ∀ entry ∈ told, True := by
    intro e later _ hmove
    obtain ⟨told, hjournal, _⟩ := hmove.told
    exact ⟨trivial, told, hjournal, by simp⟩
  obtain ⟨told, hjournal, _⟩ := steps_told hstep trivial actions
  exact ⟨told, hjournal⟩

/-- Whether an event is told on the way from one engine to another. -/
def ToldBetween (e later : Engine) (event : Event) : Prop :=
  ∃ told time, later.journal = told ++ e.journal ∧ ⟨time, event⟩ ∈ told

theorem ToldBetween.append {middle : Engine} {event : Event} {rest : List Entry}
    (h : ToldBetween e middle event) (hrest : later.journal = rest ++ middle.journal) :
    ToldBetween e later event := by
  obtain ⟨told, time, hjournal, hmem⟩ := h
  refine ⟨rest ++ told, time, ?_, List.mem_append_right rest hmem⟩
  rw [hrest, hjournal, List.append_assoc]

end HostPolicy.Engine
