import HostPolicy.Proofs.Engine.Order
import HostPolicy.Proofs.Journal.Conduct

/-!
# Every run keeps to the grammar of journals

The stage that the journal leads to can be read off the state of the engine, and each move takes
both from one to the next. Hence whatever the grammar grants holds of every run (`conducted_run`).
-/

namespace HostPolicy.Engine

open Journal

def stage (e : Engine) : Stage :=
  match e.cycle with
  | none => .resting e.released
  | some c => if c.began.isSome then .loading c.next else .asking c.next

/-- The journal leads to where the engine is. -/
def Conducted (e : Engine) : Prop :=
  Conduct e.world.sources.length e.journal e.stage

variable {e later : Engine}

theorem stage_of_idle (idle : e.cycle = none) : e.stage = .resting e.released := by
  simp [stage, idle]

theorem stage_of_asking {c : Cycle} (running : e.cycle = some c) (between : c.began = none) :
    e.stage = .asking c.next := by
  simp [stage, running, between]

theorem stage_of_loading {c : Cycle} {began : Nat} (running : e.cycle = some c)
    (loading : c.began = some began) : e.stage = .loading c.next := by
  simp [stage, running, loading]

theorem farewell_quiet (e : Engine) : ∀ entry ∈ e.farewell, entry.event.isQuiet = true := by
  intro entry hmem
  obtain ⟨_, ⟨rules, hevent⟩ | ⟨call, _, hevent⟩⟩ := farewell_event hmem <;> rw [hevent] <;> rfl

namespace Conducted

theorem congr (h : Conducted e) (told : List Entry) (hstage : later.stage = e.stage)
    (hsources : later.world.sources.length = e.world.sources.length)
    (hjournal : later.journal = told ++ e.journal)
    (hquiet : ∀ entry ∈ told, entry.event.isQuiet = true) : Conducted later := by
  unfold Conducted
  rw [hstage, hsources, hjournal]
  exact h.append_quiet hquiet

theorem record_quiet (h : Conducted e) (event : Event) (hquiet : event.isQuiet = true) :
    Conducted (e.record event) :=
  h.congr [⟨e.now, event⟩] rfl rfl rfl fun entry hmem => by
    rw [List.mem_singleton.mp hmem]
    exact hquiet

theorem idle_of_head (horder : Orderly e) (head : e.queue.head? = some .closer) :
    e.cycle = none := by
  cases hcycle : e.cycle with
  | none => rfl
  | some c =>
      obtain ⟨who, hhead, hne⟩ := horder.running (by rw [hcycle]; rfl)
      rw [head] at hhead
      exact absurd (Option.some.inj hhead).symm hne

theorem idle (h : Conducted e) (idle : e.cycle = none) :
    Conduct e.world.sources.length e.journal (.resting e.released) :=
  stage_of_idle idle ▸ h

theorem asking (h : Conducted e) {c : Cycle} (running : e.cycle = some c)
    (between : c.began = none) : Conduct e.world.sources.length e.journal (.asking c.next) :=
  stage_of_asking running between ▸ h

theorem loading (h : Conducted e) {c : Cycle} {began : Nat} (running : e.cycle = some c)
    (loading : c.began = some began) :
    Conduct e.world.sources.length e.journal (.loading c.next) :=
  stage_of_loading running loading ▸ h

/-- A cycle that has come to its end has asked every source. -/
theorem asked_all (h : Conducted e) {c : Cycle} (running : e.cycle = some c)
    (complete : e.world.sources.length ≤ c.next) :
    Conduct e.world.sources.length e.journal (.asking e.world.sources.length) := by
  cases hbegan : c.began with
  | none =>
      have hconduct := h.asking running hbegan
      have hle : c.next ≤ e.world.sources.length := hconduct.stage_within
      rwa [Nat.le_antisymm hle complete] at hconduct
  | some began =>
      have hconduct := h.loading running hbegan
      have hlt : c.next < e.world.sources.length := hconduct.stage_within
      exact absurd hlt (Nat.not_lt.mpr complete)

theorem leave (h : Conduct e.world.sources.length e.journal (.resting e.released)) :
    Conducted e.leave := by
  have hreleased : e.leave.released = e.released := by simp [released]
  unfold Conducted
  rw [stage_of_idle e.leave_cycle, hreleased, leave_world, leave_journal]
  exact h.append_quiet e.farewell_quiet

theorem withdraw (h : Conducted e) (horder : Orderly e) (who : Claimant) :
    Conducted (e.withdraw who) := by
  rcases e.withdraw_eq who with ⟨_, hrunning, heq⟩ | ⟨_, heq⟩
  · have hnone : e.released = 0 := horder.unreleased hrunning
    obtain ⟨c, hcycle⟩ := Option.isSome_iff_exists.mp hrunning
    rw [heq]
    change Conduct e.world.sources.length (⟨e.now, .cycleCancelled⟩ :: e.journal)
      (.resting e.released)
    rw [hnone]
    cases hbegan : c.began with
    | none => exact .cancelledAsking e.now (h.asking hcycle hbegan)
    | some began => exact .cancelledLoading e.now (h.loading hcycle hbegan)
  · rw [heq]
    exact h

theorem cycleBegan (h : Conducted e) {who : Claimant} (idle : e.cycle = none)
    (opened : e.closing = .notCalled) :
    Conducted { e with
      cycle := some ⟨0, none, []⟩, journal := ⟨e.now, .cycleBegan who⟩ :: e.journal } := by
  have hreleased : e.released = 0 := by simp [released, opened]
  have hconduct := h.idle idle
  rw [hreleased] at hconduct
  exact Conduct.cycleBegan e.now who hconduct

theorem sourceClosed (h : Conducted e) (horder : Orderly e)
    (head : e.queue.head? = some .closer) {next : Nat} {error failed : Option SourceError}
    (releasing : e.closing = .releasing next error) (left : next < e.world.sources.length) :
    Conducted { e with
      world := (e.world.close next).1
      closing := .releasing (next + 1) failed
      journal := ⟨e.now, .sourceClosed next (e.world.close next).2⟩ :: e.journal } := by
  have idle := idle_of_head horder head
  have hreleased : e.released = next := by simp [released, releasing]
  have hconduct := h.idle idle
  rw [hreleased] at hconduct
  unfold Conducted
  rw [stage_of_idle (by exact idle), World.length_sources_close]
  exact Conduct.sourceClosed e.now _ left hconduct

theorem engineClosed (h : Conducted e) (horder : Orderly e)
    (head : e.queue.head? = some .closer) {next : Nat} {error : Option SourceError}
    (releasing : e.closing = .releasing next error)
    (complete : e.world.sources.length ≤ next) :
    Conducted { e with
      queue := e.queue.tail
      cycle := none
      closing := .done error
      journal := ⟨e.now, .closeReturned error⟩ :: ⟨e.now, .engineClosed e.version⟩ ::
        e.journal } := by
  have hreleased : e.released = next := by simp [released, releasing]
  have hall : e.released = e.world.sources.length :=
    Nat.le_antisymm horder.released_le (hreleased ▸ complete)
  have hconduct := h.idle (idle_of_head horder head)
  rw [hall] at hconduct
  exact .quiet _ rfl (.quiet _ rfl hconduct)

theorem move (h : Conducted e) (horder : Orderly e) (hmove : Move e later) :
    Conducted later := by
  cases hmove with
  | stay => exact h
  | reloadCalled held => exact h.record_quiet (.reloadCalled e.calls) rfl
  | reloadAbandoned call queued => exact (h.withdraw horder _).record_quiet _ rfl
  | closeCalled held opened =>
      refine h.congr [⟨e.now, .closeCalled⟩] ?_ rfl rfl (by simp [Event.isQuiet])
      simp [stage, released, opened]
  | closeRepeated held closed =>
      exact (h.record_quiet .closeCalled rfl).record_quiet
        (.closeReturned none) rfl
  | closeAbandoned next pending =>
      refine h.congr [⟨e.now, .closeAbandoned⟩] ?_ rfl rfl (by simp [Event.isQuiet])
      have hreleased : e.released = next := released_of_pending pending
      simp [stage, released, ← hreleased]
  | shared held => exact h
  | dropped held => exact h.record_quiet .dropped rfl
  | changed change =>
      refine h.congr [] ?_ (by simp) rfl (by simp)
      simp [stage, released]
  | waited time => exact h
  | cycleBegan who turn idle opened => exact h.cycleBegan idle opened
  | turnedAway who turn idle closed => exact leave (h.idle idle)
  | loadBegan who turn c running asked between =>
      unfold Conducted
      rw [World.length_sources_beginLoad]
      exact Conduct.loadBegan e.now asked (h.asking running between)
  | loadEnded who turn c running source asked began loading due =>
      exact Conduct.loadEnded e.now _ (h.loading running loading)
  | installed who turn c running complete rules compiles =>
      have hnone : e.released = 0 := horder.unreleased (by rw [running]; rfl)
      refine leave ?_
      change Conduct e.world.sources.length _ (.resting e.released)
      rw [hnone]
      exact Conduct.installed e.now _ _ (h.asked_all running complete)
  | notCompiled who turn c running complete error fails =>
      have hnone : e.released = 0 := horder.unreleased (by rw [running]; rfl)
      refine leave ?_
      change Conduct e.world.sources.length _ (.resting e.released)
      rw [hnone]
      exact Conduct.notCompiled e.now _ (h.asked_all running complete)
  | sourceClosed head next error releasing left => exact h.sourceClosed horder head releasing left
  | engineClosed head next error releasing released =>
      exact h.engineClosed horder head releasing released
  | ticked deadline waiting running due => exact h.record_quiet .ticked rfl
  | tickerStopped deadline waiting shutDown =>
      exact h.record_quiet .tickerStopped rfl
  | cycleGivenUp deadline cycling shutDown =>
      exact (h.withdraw horder .periodic).record_quiet .tickerStopped rfl
  | closerQueued stopping ended told noticed =>
      refine h.congr told ?_ rfl rfl ?_
      · simp [stage, released, stopping]
      · rcases noticed with rfl | rfl <;> simp [Event.isQuiet]

end Conducted

theorem Fresh.quiet (h : e.Fresh) : ∀ entry ∈ e.journal, entry.event.isQuiet = true := by
  intro entry hmem
  obtain ⟨error, hevent⟩ := h.told entry hmem
  rw [hevent]
  rfl

theorem Fresh.conducted (h : e.Fresh) : Conducted e := by
  have hreleased : e.released = 0 := by simp [released, h.opened]
  have hconduct : Conduct e.world.sources.length (e.journal ++ []) (.resting 0) :=
    Conduct.start.append_quiet h.quiet
  unfold Conducted
  rw [stage_of_idle h.idle, hreleased, ← List.append_nil e.journal]
  exact hconduct

theorem conducted_run (construction : Construction) (actions : List Action) :
    Conducted (construction.start.steps actions) := by
  have hboth : Orderly (construction.start.steps actions) ∧
      Conducted (construction.start.steps actions) := by
    refine steps_induction (P := fun e => Orderly e ∧ Conducted e) ?_ ?_ actions
    · exact fun e later h hmove => ⟨h.1.move hmove, h.2.move h.1 hmove⟩
    · exact ⟨orderly_run construction [], (fresh_start construction).conducted⟩
  exact hboth.2

/-- What every move of an engine in order keeps, a run keeps. -/
theorem run_induction {P : Engine → Prop} {construction : Construction}
    (hstart : P construction.start)
    (hmove : ∀ e later, Orderly e → Conducted e → P e → Move e later → P later)
    (actions : List Action) : P (construction.start.steps actions) := by
  have hall : Orderly (construction.start.steps actions) ∧
      Conducted (construction.start.steps actions) ∧ P (construction.start.steps actions) := by
    refine steps_induction (P := fun e => Orderly e ∧ Conducted e ∧ P e) ?_ ?_ actions
    · intro e later ⟨horder, hconduct, h⟩ hstep
      exact ⟨horder.move hstep, hconduct.move horder hstep, hmove e later horder hconduct h hstep⟩
    · exact ⟨orderly_run construction [], conducted_run construction [], hstart⟩
  exact hall.2.2

end HostPolicy.Engine
