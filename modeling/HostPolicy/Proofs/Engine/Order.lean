import HostPolicy.Proofs.Engine.Move
import Mathlib.Data.List.Nodup

/-!
# What holds of an engine at all times

`Orderly` is the invariant of the engine's own state: who can be in the queue together, how the
ticker and the call that closes are told by the queue, and that a cycle belongs to its head. Every
run from either kind of start keeps it (`orderly_run`).
-/

namespace HostPolicy

namespace World

@[simp]
theorem length_sources_setSource (w : World) (i : Nat) (source : Source) :
    (w.setSource i source).sources.length = w.sources.length := by
  simp [setSource]

@[simp]
theorem length_sources_setStore (w : World) (name : String) (store : Store) :
    (w.setStore name store).sources.length = w.sources.length := rfl

@[simp]
theorem length_sources_change (w : World) (change : Change) :
    (w.change change).sources.length = w.sources.length := by
  cases change <;> simp only [World.change] <;> (try split) <;> simp

@[simp]
theorem length_sources_beginLoad (w : World) (i : Nat) :
    (w.beginLoad i).sources.length = w.sources.length := by
  simp [beginLoad]

@[simp]
theorem length_sources_close (w : World) (i : Nat) :
    (w.close i).1.sources.length = w.sources.length := by
  unfold World.close
  split <;> simp

end World

/-- How an engine is made. -/
inductive Construction where
  /-- From settings and sources, with a first cycle. -/
  | build (settings : Settings) (world : World)
  /-- Of fixed rules. -/
  | ofPatterns (policy : Policy) (patterns : List String)

def Construction.start : Construction → Engine
  | build settings world => Engine.new settings world
  | ofPatterns policy patterns => Engine.ofPatterns policy patterns

structure Engine.Fresh (e : Engine) : Prop where
  idle : e.cycle = none
  opened : e.closing = .notCalled
  told : ∀ entry ∈ e.journal, ∃ error, entry.event = .startedEmpty error

theorem fresh_start (construction : Construction) : construction.start.Fresh := by
  cases construction with
  | build settings world =>
      refine ⟨rfl, rfl, ?_⟩
      simp [Construction.start, Engine.new]
  | ofPatterns policy patterns =>
      change (Engine.ofPatterns policy patterns).Fresh
      unfold Engine.ofPatterns
      split
      · refine ⟨rfl, rfl, ?_⟩
        simp [Engine.new]
      · refine ⟨rfl, rfl, ?_⟩
        simp [Engine.new, Engine.record]

/-- An engine with one source that has no rules, which four turns build. -/
def Construction.lone : Construction :=
  .build ⟨⟨.admission, false⟩, [], 10, none⟩ ⟨.empty, [], [.memory [] false false]⟩

namespace Engine

theorem Move.length_sources {e later : Engine} (hmove : Move e later) :
    later.world.sources.length = e.world.sources.length := by
  cases hmove with
  | reloadAbandoned | cycleGivenUp => simp [record, stopTicker]
  | changed change => exact World.length_sources_change _ _
  | loadBegan who turn c => exact World.length_sources_beginLoad _ _
  | sourceClosed head next => exact World.length_sources_close _ _
  | turnedAway | installed | notCompiled => rw [leave_world]
  | _ => rfl

/-- How many sources were closed. -/
def released (e : Engine) : Nat :=
  match e.closing with
  | .releasing next _ => next
  | .abandoned next => next
  | .done _ => e.world.sources.length
  | _ => 0

theorem released_of_pending {e : Engine} {next : Nat}
    (pending : e.closing.released? = some next) : e.released = next := by
  unfold released
  cases hclosing : e.closing <;> simp_all [Closing.released?]

/-- Whether the call that closes has seen the ticker end. -/
def isPastTicker (e : Engine) : Bool :=
  match e.closing with
  | .releasing _ _ => true
  | .done _ => true
  | _ => false

structure Orderly (e : Engine) : Prop where
  building : .build ∈ e.queue →
    e.queue = [.build] ∧ e.ticker = .off ∧ e.closing = .notCalled ∧ e.owners = 0
  called : ∀ call, .manual call ∈ e.queue → call < e.calls
  nodup : e.queue.Nodup
  periodic : .periodic ∈ e.queue ↔ ∃ deadline, e.ticker = .cycling deadline
  closer : .closer ∈ e.queue ↔ ∃ next error, e.closing = .releasing next error
  running : e.cycle.isSome → ∃ who, e.queue.head? = some who ∧ who ≠ .closer
  unreleased : e.cycle.isSome → e.released = 0
  released_le : e.released ≤ e.world.sources.length
  stopped : e.isPastTicker = true → e.ticker.hasEnded = true

namespace Orderly

variable {e later : Engine}

/-- What is not named here has no part in the order. -/
theorem congr (h : Orderly e) (hqueue : later.queue = e.queue) (hticker : later.ticker = e.ticker)
    (hclosing : later.closing = e.closing) (howners : e.owners = 0 → later.owners = 0)
    (hcalls : later.calls = e.calls) (hcycle : later.cycle.isSome → e.cycle.isSome)
    (hsources : later.world.sources.length = e.world.sources.length) : Orderly later := by
  have hreleased : later.released = e.released := by
    simp only [released, hclosing, hsources]
  have hpast : later.isPastTicker = e.isPastTicker := by
    simp only [isPastTicker, hclosing]
  refine ⟨?_, ?_, ?_, ?_, ?_, ?_, ?_, ?_, ?_⟩
  · intro hbuild
    rw [hqueue] at hbuild ⊢
    obtain ⟨halone, hoff, hopened, hnone⟩ := h.building hbuild
    exact ⟨halone, hticker.trans hoff, hclosing.trans hopened, howners hnone⟩
  · rw [hqueue, hcalls]
    exact h.called
  · rw [hqueue]
    exact h.nodup
  · rw [hqueue, hticker]
    exact h.periodic
  · rw [hqueue, hclosing]
    exact h.closer
  · rw [hqueue]
    exact fun hsome => h.running (hcycle hsome)
  · rw [hreleased]
    exact fun hsome => h.unreleased (hcycle hsome)
  · rw [hreleased, hsources]
    exact h.released_le
  · rw [hpast, hticker]
    exact h.stopped

theorem build_not_mem (h : Orderly e) (held : e.owners ≠ 0) : .build ∉ e.queue :=
  fun hbuild => held (h.building hbuild).2.2.2

theorem build_not_mem_of_closed (h : Orderly e) (closed : e.closing ≠ .notCalled) :
    .build ∉ e.queue :=
  fun hbuild => closed (h.building hbuild).2.2.1

theorem periodic_not_mem (h : Orderly e) (ended : e.ticker.hasEnded = true) :
    .periodic ∉ e.queue := by
  intro hmem
  obtain ⟨deadline, hcycling⟩ := h.periodic.mp hmem
  rw [hcycling] at ended
  contradiction

/-- A claim that is given up: who holds the head of the queue otherwise stays there. -/
theorem head?_filter {queue : List Claimant} {holder who : Claimant}
    (hhead : queue.head? = some holder) (hother : holder ≠ who) :
    (queue.filter (· != who)).head? = some holder := by
  obtain ⟨rest, rfl⟩ := List.head?_eq_some_iff.mp hhead
  simp [hother]

/-- Another claim at the end of the queue: who holds its head stays there. -/
theorem head?_append (h : Orderly e) (who : Claimant) (hsome : e.cycle.isSome) :
    ∃ holder, (e.queue ++ [who]).head? = some holder ∧ holder ≠ .closer := by
  obtain ⟨holder, hhead, hne⟩ := h.running hsome
  exact ⟨holder, by rw [List.head?_append, hhead]; rfl, hne⟩

theorem reloadCalled (h : Orderly e) (held : e.owners ≠ 0) (journal : List Entry) :
    Orderly { e with
      queue := e.queue ++ [.manual e.calls], calls := e.calls + 1, journal := journal } := by
  refine ⟨?_, ?_, ?_, ?_, ?_, ?_, h.unreleased, h.released_le, h.stopped⟩
  · intro hbuild
    exact absurd (by simpa using hbuild) (h.build_not_mem held)
  · intro call hmem
    rcases List.mem_append.mp hmem with hqueued | hnew
    · exact Nat.lt_succ_of_lt (h.called call hqueued)
    · cases List.mem_singleton.mp hnew
      exact Nat.lt_succ_self _
  · refine List.nodup_append.mpr ⟨h.nodup, List.nodup_singleton _, ?_⟩
    intro claimant hqueued other hnew heq
    rw [List.mem_singleton.mp hnew] at heq
    exact Nat.lt_irrefl _ (h.called e.calls (heq ▸ hqueued))
  · simpa using h.periodic
  · simpa using h.closer
  · exact h.head?_append _

theorem ticked (h : Orderly e) {deadline following : Nat} (waiting : e.ticker = .waiting deadline)
    (running : e.isShutDown = false) (journal : List Entry) :
    Orderly { e with
      queue := e.queue ++ [.periodic], ticker := .cycling following, journal := journal } := by
  have hopened : e.closing = .notCalled := by
    rw [isShutDown, Bool.or_eq_false_iff] at running
    exact e.isClosed_eq_false_iff.mp running.1
  have habsent : .periodic ∉ e.queue := by
    intro hmem
    obtain ⟨other, hcycling⟩ := h.periodic.mp hmem
    rw [waiting] at hcycling
    contradiction
  refine ⟨?_, ?_, ?_, ?_, ?_, ?_, h.unreleased, h.released_le, ?_⟩
  · intro hbuild
    obtain ⟨_, hoff, _⟩ := h.building (by simpa using hbuild)
    rw [waiting] at hoff
    contradiction
  · intro call hmem
    exact h.called call (by simpa using hmem)
  · refine List.nodup_append.mpr ⟨h.nodup, List.nodup_singleton _, ?_⟩
    intro claimant hqueued other hnew heq
    rw [List.mem_singleton.mp hnew] at heq
    exact habsent (heq ▸ hqueued)
  · simp
  · simpa using h.closer
  · exact h.head?_append _
  · intro past
    simp [isPastTicker, hopened] at past

theorem closerQueued (h : Orderly e) (stopping : e.closing = .stopping)
    (ended : e.ticker.hasEnded = true) (journal : List Entry) :
    Orderly { e with
      queue := e.queue ++ [.closer], closing := .releasing 0 none, journal := journal } := by
  have habsent : .closer ∉ e.queue := by
    intro hmem
    obtain ⟨next, error, hreleasing⟩ := h.closer.mp hmem
    rw [stopping] at hreleasing
    contradiction
  refine ⟨?_, ?_, ?_, ?_, ?_, ?_, fun _ => rfl, Nat.zero_le _, fun _ => ended⟩
  · intro hbuild
    refine absurd (by simpa using hbuild) (h.build_not_mem_of_closed ?_)
    rw [stopping]
    exact Closing.noConfusion
  · intro call hmem
    exact h.called call (by simpa using hmem)
  · refine List.nodup_append.mpr ⟨h.nodup, List.nodup_singleton _, ?_⟩
    intro claimant hqueued other hnew heq
    rw [List.mem_singleton.mp hnew] at heq
    exact habsent (heq ▸ hqueued)
  · simpa using h.periodic
  · simp
  · exact h.head?_append _

theorem leave (h : Orderly e) {who : Claimant} (turn : e.HasTurn who) : Orderly e.leave := by
  obtain ⟨rest, hqueue⟩ := List.head?_eq_some_iff.mp turn.head
  have hnodup : who ∉ rest ∧ rest.Nodup := List.nodup_cons.mp (hqueue ▸ h.nodup)
  have hmem : ∀ claimant, claimant ∈ rest → claimant ∈ e.queue := by
    intro claimant hrest
    rw [hqueue]
    exact List.mem_cons_of_mem who hrest
  have hbuild : .build ∉ rest := by
    intro hrest
    have halone := (h.building (hmem _ hrest)).1
    rw [hqueue, List.cons.injEq] at halone
    rw [halone.2] at hrest
    contradiction
  have hreleased : e.leave.released = e.released := by simp [released]
  have hpast : e.leave.isPastTicker = e.isPastTicker := by simp [isPastTicker]
  refine ⟨?_, ?_, ?_, ?_, ?_, ?_, ?_, ?_, ?_⟩
  · simp [hqueue, hbuild]
  · simpa [hqueue] using fun call hrest => h.called call (hmem _ hrest)
  · simpa [hqueue] using hnodup.2
  · rw [leave_queue, hqueue, List.tail_cons]
    cases who with
    | build =>
        have halone := (h.building (by rw [hqueue]; exact List.mem_cons_self)).1
        rw [hqueue, List.cons.injEq] at halone
        rw [halone.2, e.leave_ticker_of_build turn.head]
        unfold Ticker.start
        split
        · simp
        · split <;> simp
    | manual call =>
        rw [e.leave_ticker_of_manual turn.head, ← h.periodic, hqueue]
        simp
    | periodic =>
        obtain ⟨deadline, hcycling⟩ := h.periodic.mp (by rw [hqueue]; exact List.mem_cons_self)
        rw [e.leave_ticker_of_periodic turn.head hcycling]
        simp [hnodup.1]
    | closer => exact absurd rfl turn.ne_closer
  · rw [leave_queue, hqueue, List.tail_cons, leave_closing, ← h.closer, hqueue, List.mem_cons]
    simp [turn.ne_closer.symm]
  · simp
  · simp
  · simpa [hreleased] using h.released_le
  · rw [hpast]
    intro past
    have ended := h.stopped past
    cases who with
    | build =>
        have closed : e.closing ≠ .notCalled := by
          intro opened
          simp [isPastTicker, opened] at past
        exact absurd (by rw [hqueue]; exact List.mem_cons_self) (h.build_not_mem_of_closed closed)
    | manual call => rwa [e.leave_ticker_of_manual turn.head]
    | periodic =>
        exact absurd (by rw [hqueue]; exact List.mem_cons_self) (h.periodic_not_mem ended)
    | closer => exact absurd rfl turn.ne_closer

/-- A claim is given up: that of a reload, or that of the ticker, which stops. -/
theorem withdrawn (h : Orderly e) {who : Claimant} {ticker : Ticker} {cycle : Option Cycle}
    (hwho : (∃ call, who = .manual call) ∧ ticker = e.ticker ∨
      who = .periodic ∧ ticker = .stopped)
    (hmem : who ∈ e.queue) (hcycle : cycle.isSome → e.cycle.isSome ∧ e.queue.head? ≠ some who)
    (journal : List Entry) :
    Orderly { e with
      queue := e.queue.filter (· != who)
      cycle := cycle
      ticker := ticker
      journal := journal } := by
  have hbuild : .build ∉ e.queue := by
    intro hbuild
    rw [(h.building hbuild).1, List.mem_singleton] at hmem
    rcases hwho with ⟨⟨call, rfl⟩, _⟩ | ⟨rfl, _⟩ <;> contradiction
  have hcloser : who ≠ .closer := by
    rcases hwho with ⟨⟨call, rfl⟩, _⟩ | ⟨rfl, _⟩ <;> simp
  refine ⟨?_, ?_, h.nodup.filter _, ?_, ?_, ?_, ?_, h.released_le, ?_⟩
  · intro hfiltered
    exact absurd (List.mem_filter.mp hfiltered).1 hbuild
  · intro call hfiltered
    exact h.called call (List.mem_filter.mp hfiltered).1
  · rcases hwho with ⟨⟨call, rfl⟩, rfl⟩ | ⟨rfl, rfl⟩
    · simpa using h.periodic
    · simp
  · simpa [hcloser.symm] using h.closer
  · intro hsome
    obtain ⟨hrunning, hother⟩ := hcycle hsome
    obtain ⟨holder, hhead, hne⟩ := h.running hrunning
    exact ⟨holder, head?_filter hhead fun heq => hother (heq ▸ hhead), hne⟩
  · exact fun hsome => h.unreleased (hcycle hsome).1
  · rcases hwho with ⟨_, rfl⟩ | ⟨_, rfl⟩
    · exact h.stopped
    · exact fun _ => rfl

theorem reloadAbandoned (h : Orderly e) {call : Nat} (queued : .manual call ∈ e.queue) :
    Orderly ((e.withdraw (.manual call)).record (.reloadAbandoned call)) := by
  rcases e.withdraw_eq (.manual call) with ⟨_, _, heq⟩ | ⟨hidle, heq⟩
  · rw [heq]
    exact h.withdrawn (Or.inl ⟨⟨call, rfl⟩, rfl⟩) queued (by simp) _
  · rw [heq]
    refine h.withdrawn (Or.inl ⟨⟨call, rfl⟩, rfl⟩) queued ?_ _
    intro hsome
    exact ⟨hsome, fun hhead => by rw [hidle hhead] at hsome; contradiction⟩

theorem cycleGivenUp (h : Orderly e) {deadline : Nat} (cycling : e.ticker = .cycling deadline) :
    Orderly (e.withdraw .periodic).stopTicker := by
  have queued := h.periodic.mpr ⟨deadline, cycling⟩
  rcases e.withdraw_eq .periodic with ⟨_, _, heq⟩ | ⟨hidle, heq⟩
  · rw [heq]
    exact h.withdrawn (Or.inr ⟨rfl, rfl⟩) queued (by simp) _
  · rw [heq]
    refine h.withdrawn (Or.inr ⟨rfl, rfl⟩) queued ?_ _
    intro hsome
    exact ⟨hsome, fun hhead => by rw [hidle hhead] at hsome; contradiction⟩

theorem tickerStopped (h : Orderly e) {deadline : Nat} (waiting : e.ticker = .waiting deadline)
    (journal : List Entry) : Orderly { e with ticker := .stopped, journal := journal } := by
  have habsent : .periodic ∉ e.queue := by
    intro hmem
    obtain ⟨other, hcycling⟩ := h.periodic.mp hmem
    rw [waiting] at hcycling
    contradiction
  refine ⟨?_, h.called, h.nodup, ?_, h.closer, h.running, h.unreleased, h.released_le,
    fun _ => rfl⟩
  · intro hbuild
    obtain ⟨_, hoff, _⟩ := h.building hbuild
    rw [waiting] at hoff
    contradiction
  · simpa using habsent

theorem closeCalled (h : Orderly e) (held : e.owners ≠ 0) (opened : e.closing = .notCalled)
    (journal : List Entry) : Orderly { e with closing := .stopping, journal := journal } := by
  refine ⟨fun hbuild => absurd hbuild (h.build_not_mem held), h.called, h.nodup, h.periodic, ?_,
    h.running, fun _ => rfl, Nat.zero_le _, fun past => absurd past Bool.false_ne_true⟩
  have hcloser := h.closer
  rw [opened] at hcloser
  simpa using hcloser

/-- The call that closes goes no further; the sources that it closed stay closed. -/
theorem closeAbandoned (h : Orderly e) {next : Nat} (pending : e.closing.released? = some next)
    (journal : List Entry) :
    Orderly { e with
      queue := e.queue.filter (· != Claimant.closer)
      closing := .abandoned next
      journal := journal } := by
  have hreleased : e.released = next := released_of_pending pending
  have closed : e.closing ≠ .notCalled := by
    intro opened
    simp [opened, Closing.released?] at pending
  have hmem : ∀ who, who ∈ e.queue.filter (· != Claimant.closer) → who ∈ e.queue :=
    fun who hfiltered => (List.mem_filter.mp hfiltered).1
  refine ⟨fun hbuild => absurd (hmem _ hbuild) (h.build_not_mem_of_closed closed),
    fun call hcall => h.called call (hmem _ hcall), h.nodup.filter _, ?_, ?_, ?_, ?_, ?_,
    fun past => absurd past Bool.false_ne_true⟩
  · simpa using h.periodic
  · simp
  · intro hsome
    obtain ⟨holder, hhead, hne⟩ := h.running hsome
    exact ⟨holder, head?_filter hhead hne, hne⟩
  · exact fun hsome => hreleased.symm.trans (h.unreleased hsome)
  · exact hreleased ▸ h.released_le

theorem sourceClosed (h : Orderly e) {next : Nat} {error failed : Option SourceError}
    (head : e.queue.head? = some .closer) (releasing : e.closing = .releasing next error)
    (left : next < e.world.sources.length) (world : World)
    (hworld : world.sources.length = e.world.sources.length) (journal : List Entry) :
    Orderly { e with
      world := world, closing := .releasing (next + 1) failed, journal := journal } := by
  have hidle : ¬ e.cycle.isSome := by
    intro hsome
    obtain ⟨who, hhead, hne⟩ := h.running hsome
    rw [head] at hhead
    exact hne (Option.some.inj hhead).symm
  have closed : e.closing ≠ .notCalled := by simp [releasing]
  have ended : e.ticker.hasEnded = true := h.stopped (by simp [isPastTicker, releasing])
  refine ⟨fun hbuild => absurd hbuild (h.build_not_mem_of_closed closed), h.called, h.nodup,
    h.periodic, ?_, h.running, fun hsome => absurd hsome hidle, ?_, fun _ => ended⟩
  · have hcloser := h.closer
    rw [releasing] at hcloser
    simpa using hcloser
  · simpa [released, hworld, Nat.succ_le_iff] using left

theorem engineClosed (h : Orderly e) {next : Nat} {error : Option SourceError}
    (head : e.queue.head? = some .closer) (releasing : e.closing = .releasing next error)
    (journal : List Entry) :
    Orderly { e with
      queue := e.queue.tail, cycle := none, closing := .done error, journal := journal } := by
  obtain ⟨rest, hqueue⟩ := List.head?_eq_some_iff.mp head
  have hnodup : .closer ∉ rest ∧ rest.Nodup := List.nodup_cons.mp (hqueue ▸ h.nodup)
  have closed : e.closing ≠ .notCalled := by simp [releasing]
  have ended : e.ticker.hasEnded = true := h.stopped (by simp [isPastTicker, releasing])
  have hmem : ∀ claimant, claimant ∈ e.queue.tail → claimant ∈ e.queue :=
    fun claimant => List.mem_of_mem_tail
  refine ⟨fun hbuild => absurd (hmem _ hbuild) (h.build_not_mem_of_closed closed),
    fun call hrest => h.called call (hmem _ hrest), ?_, ?_, ?_, by simp, by simp, Nat.le_refl _,
    fun _ => ended⟩
  · simpa [hqueue] using hnodup.2
  · rw [← h.periodic, hqueue]
    simp
  · simpa [hqueue] using hnodup.1

theorem cycleBegan (h : Orderly e) {who : Claimant} (turn : e.HasTurn who)
    (opened : e.closing = .notCalled) (cycle : Cycle) (journal : List Entry) :
    Orderly { e with cycle := some cycle, journal := journal } := by
  have hreleased : e.released = 0 := by simp [released, opened]
  exact ⟨h.building, h.called, h.nodup, h.periodic, h.closer,
    fun _ => ⟨who, turn.head, turn.ne_closer⟩, fun _ => hreleased, h.released_le, h.stopped⟩

theorem move (h : Orderly e) (hmove : Move e later) : Orderly later := by
  cases hmove with
  | stay => exact h
  | reloadCalled held => exact h.reloadCalled held _
  | reloadAbandoned call queued => exact h.reloadAbandoned queued
  | closeCalled held opened => exact h.closeCalled held opened _
  | closeRepeated held closed => exact h.congr rfl rfl rfl id rfl id rfl
  | closeAbandoned next pending => exact h.closeAbandoned pending _
  | shared held => exact h.congr rfl rfl rfl (fun hnone => absurd hnone held) rfl id rfl
  | dropped held => exact h.congr rfl rfl rfl (fun hnone => absurd hnone held) rfl id rfl
  | changed change => exact h.congr rfl rfl rfl id rfl id (by simp)
  | waited time => exact h.congr rfl rfl rfl id rfl id rfl
  | cycleBegan who turn idle opened => exact h.cycleBegan turn opened _ _
  | turnedAway who turn idle closed => exact h.leave turn
  | loadBegan who turn c running asked between =>
      exact h.congr rfl rfl rfl id rfl (fun _ => by simp [running]) (by simp)
  | loadEnded who turn c running source asked began loading due =>
      exact h.congr rfl rfl rfl id rfl (fun _ => by simp [running]) rfl
  | installed who turn c running complete rules compiles =>
      refine Orderly.leave (h.congr rfl rfl rfl id rfl id rfl) ⟨turn.head, turn.ne_closer, ?_⟩
      exact turn.not_shutDown
  | notCompiled who turn c running complete error fails =>
      refine Orderly.leave (h.congr rfl rfl rfl id rfl id rfl) ⟨turn.head, turn.ne_closer, ?_⟩
      exact turn.not_shutDown
  | sourceClosed head next error releasing left =>
      exact h.sourceClosed head releasing left _ (by simp) _
  | engineClosed head next error releasing released => exact h.engineClosed head releasing _
  | ticked deadline waiting running due => exact h.ticked waiting running _
  | tickerStopped deadline waiting shutDown => exact h.tickerStopped waiting _
  | cycleGivenUp deadline cycling shutDown => exact h.cycleGivenUp cycling
  | closerQueued stopping ended told noticed => exact h.closerQueued stopping ended _

end Orderly

theorem orderly_new (settings : Settings) (world : World) : Orderly (new settings world) := by
  refine ⟨?_, ?_, ?_, ?_, ?_, ?_, ?_, ?_, ?_⟩ <;> simp [new, released, isPastTicker]

theorem orderly_ofPatterns (policy : Policy) (patterns : List String) :
    Orderly (ofPatterns policy patterns) := by
  unfold ofPatterns
  split
  · refine ⟨?_, ?_, ?_, ?_, ?_, ?_, ?_, ?_, ?_⟩ <;> simp [new, released, isPastTicker]
  · refine ⟨?_, ?_, ?_, ?_, ?_, ?_, ?_, ?_, ?_⟩ <;> simp [new, record, released, isPastTicker]

theorem orderly_run (construction : Construction) (actions : List Action) :
    Orderly (construction.start.steps actions) := by
  refine steps_induction (fun _ _ h hmove => h.move hmove) ?_ actions
  cases construction with
  | build settings world => exact orderly_new settings world
  | ofPatterns policy patterns => exact orderly_ofPatterns policy patterns

end Engine

end HostPolicy
