import HostPolicy.Proofs.Engine.Conducted
import HostPolicy.Proofs.Journal.Rounds

/-!
# What a step does to the cycles

Of all that a step can do, `Progress` keeps what concerns the cycles told of in the journal, the
rule set and its version.
-/

namespace HostPolicy.Engine

open Journal

/-- The rule set in use and its version are as they were. -/
def SameRules (e later : Engine) : Prop :=
  later.rules = e.rules ∧ later.version = e.version

/-- The latest cycle told of is changed in some way, with the moment at which it is. -/
def Latest (e later : Engine) (change : Nat → Round → Round) : Prop :=
  rounds later.journal = (rounds e.journal).modifyHead (change e.journal.length)

/-- From an engine to the engine after one step, as far as cycles are concerned. -/
inductive Progress (e later : Engine) : Prop
  | aside (same : SameRules e later) (hrounds : rounds later.journal = rounds e.journal)
      (hcycle : ∀ c, later.cycle = some c →
        e.cycle = some c ∧ later.queue.head? = e.queue.head?)
  | began (who : Claimant) (turn : e.HasTurn who) (opened : e.closing = .notCalled)
      (same : SameRules e later) (hqueue : later.queue = e.queue)
      (hrounds : rounds later.journal = ⟨who, e.journal.length, [], none⟩ :: rounds e.journal)
      (hcycle : later.cycle = some ⟨0, none, []⟩)
  | loadBegan (c : Cycle) (running : e.cycle = some c) (same : SameRules e later)
      (hqueue : later.queue = e.queue)
      (hrounds : Latest e later fun moment => (·.beginLoad moment c.next))
      (hcycle : later.cycle = some { c with began := some e.now })
  | loadEnded (c : Cycle) (source : Source) (running : e.cycle = some c)
      (asked : e.world.sources[c.next]? = some source) (began : Nat)
      (loading : c.began = some began) (same : SameRules e later) (hqueue : later.queue = e.queue)
      (hrounds : Latest e later fun moment => (·.endLoad moment c.next (e.answer source)))
      (hcycle : later.cycle = some ⟨c.next + 1, none, c.gathered ++ rulesOf (e.answer source)⟩)
  | installed (c : Cycle) (running : e.cycle = some c)
      (complete : e.world.sources.length ≤ c.next)
      (compiles : RuleSet.compile (e.settings.patterns ++ c.gathered) = .ok later.rules)
      (hversion : later.version = e.version + 1)
      (hrounds : Latest e later fun moment => (·.finish moment .finished))
      (hcycle : later.cycle = none)
  | notCompiled (c : Cycle) (running : e.cycle = some c) (error : RuleError)
      (fails : RuleSet.compile (e.settings.patterns ++ c.gathered) = .error error)
      (same : SameRules e later)
      (hrounds : Latest e later fun moment => (·.finish moment .finished))
      (hcycle : later.cycle = none)
  | cancelled (running : e.cycle.isSome) (same : SameRules e later)
      (hrounds : Latest e later fun moment => (·.finish moment .cancelled))
      (hcycle : later.cycle = none)

variable {e later : Engine}

/-! ### Every move is one -/

/-- A move that no cycle has a part in: it tells only what is quiet, and who is at the head of the
queue with a cycle running stays there. -/
theorem Progress.of_quiet (told : List Entry) (same : SameRules e later)
    (hjournal : later.journal = told ++ e.journal)
    (hquiet : ∀ entry ∈ told, entry.event.isQuiet = true)
    (hcycle : ∀ c, later.cycle = some c → e.cycle = some c ∧ later.queue.head? = e.queue.head?) :
    Progress e later :=
  .aside same (by rw [hjournal, rounds_append_quiet hquiet]) hcycle

theorem Progress.of_record (event : Event) (same : SameRules e later)
    (hjournal : later.journal = ⟨e.now, event⟩ :: e.journal) (hquiet : event.isQuiet = true)
    (hcycle : later.cycle = e.cycle) (hqueue : later.queue = e.queue) : Progress e later := by
  refine .of_quiet [⟨e.now, event⟩] same hjournal ?_ ?_
  · intro entry hmem
    rw [List.mem_singleton.mp hmem]
    exact hquiet
  · intro c running
    exact ⟨hcycle ▸ running, by rw [hqueue]⟩

/-- With a cycle running somebody holds the head of the queue, and more claims do not change that.
-/
theorem head?_append_of_running (horder : Orderly e) {c : Cycle} (running : e.cycle = some c)
    (who : Claimant) : (e.queue ++ [who]).head? = e.queue.head? := by
  obtain ⟨holder, hhead, _⟩ := horder.running (by rw [running]; rfl)
  rw [List.head?_append, hhead]
  rfl

/-- A claim given up: if its cycle was running it is cancelled, else no cycle has a part in it. -/
theorem Progress.of_withdraw (who : Claimant) (event : Event) (hquiet : event.isQuiet = true)
    (same : SameRules e later)
    (hjournal : later.journal = ⟨e.now, event⟩ :: (e.withdraw who).journal)
    (hcycle : later.cycle = (e.withdraw who).cycle)
    (hqueue : later.queue = (e.withdraw who).queue) (horder : Orderly e) : Progress e later := by
  rcases e.withdraw_eq who with ⟨_, running, heq⟩ | ⟨hidle, heq⟩
  · rw [heq] at hjournal hcycle
    refine .cancelled running same ?_ hcycle
    rw [Latest, hjournal, rounds_quiet hquiet]
    rfl
  · rw [heq] at hjournal hcycle hqueue
    refine .aside same (by rw [hjournal, rounds_quiet hquiet]) ?_
    intro c hrunning
    have running : e.cycle = some c := hcycle ▸ hrunning
    refine ⟨running, ?_⟩
    obtain ⟨holder, hhead, _⟩ := horder.running (by rw [running]; rfl)
    have hother : holder ≠ who := by
      rintro rfl
      rw [hidle hhead] at running
      contradiction
    rw [hqueue, hhead]
    exact Orderly.head?_filter hhead hother

theorem rounds_leave (e : Engine) : rounds e.leave.journal = rounds e.journal := by
  rw [leave_journal, rounds_append_quiet e.farewell_quiet]

theorem Move.progress (hmove : Move e later) (horder : Orderly e) : Progress e later := by
  cases hmove with
  | stay | shared | changed | waited =>
      exact .aside ⟨rfl, rfl⟩ rfl (fun c running => ⟨running, rfl⟩)
  | reloadCalled held =>
      refine .of_quiet [⟨e.now, .reloadCalled e.calls⟩] ⟨rfl, rfl⟩ rfl
        (by simp [Event.isQuiet]) ?_
      exact fun c running => ⟨running, head?_append_of_running horder running _⟩
  | reloadAbandoned call queued =>
      have same : SameRules e ((e.withdraw (.manual call)).record (.reloadAbandoned call)) :=
        ⟨withdraw_rules _ _, withdraw_version _ _⟩
      exact .of_withdraw (.manual call) (.reloadAbandoned call) rfl same (by simp [record]) rfl rfl
        horder
  | closeCalled held opened => exact .of_record .closeCalled ⟨rfl, rfl⟩ rfl rfl rfl rfl
  | closeRepeated held closed =>
      refine .of_quiet [⟨e.now, .closeReturned none⟩, ⟨e.now, .closeCalled⟩] ⟨rfl, rfl⟩ rfl
        (by simp [Event.isQuiet]) ?_
      exact fun c running => ⟨running, rfl⟩
  | closeAbandoned next pending =>
      refine .of_quiet [⟨e.now, .closeAbandoned⟩] ⟨rfl, rfl⟩ rfl (by simp [Event.isQuiet]) ?_
      intro c running
      obtain ⟨holder, hhead, hne⟩ := horder.running (Option.isSome_of_eq_some running)
      exact ⟨running, (Orderly.head?_filter hhead hne).trans hhead.symm⟩
  | dropped held => exact .of_record .dropped ⟨rfl, rfl⟩ rfl rfl rfl rfl
  | cycleBegan who turn idle opened => exact .began who turn opened ⟨rfl, rfl⟩ rfl rfl rfl
  | turnedAway who turn idle closed =>
      exact .aside ⟨e.leave_rules, e.leave_version⟩ e.rounds_leave (by simp)
  | loadBegan who turn c running asked between => exact .loadBegan c running ⟨rfl, rfl⟩ rfl rfl rfl
  | loadEnded who turn c running source asked began loading due =>
      exact .loadEnded c source running asked began loading ⟨rfl, rfl⟩ rfl rfl rfl
  | installed who turn c running complete rules compiles =>
      exact .installed c running complete (by simpa using compiles) (by simp)
        (rounds_leave _) (leave_cycle _)
  | notCompiled who turn c running complete error fails =>
      exact .notCompiled c running error fails ⟨leave_rules _, leave_version _⟩
        (rounds_leave _) (leave_cycle _)
  | sourceClosed head next error releasing left =>
      exact .aside ⟨rfl, rfl⟩ rfl (fun c running => ⟨running, rfl⟩)
  | engineClosed head next error releasing released =>
      refine .of_quiet [⟨e.now, .closeReturned error⟩, ⟨e.now, .engineClosed e.version⟩]
        ⟨rfl, rfl⟩ rfl (by simp [Event.isQuiet]) (by simp)
  | ticked deadline waiting running due =>
      refine .of_quiet [⟨e.now, .ticked⟩] ⟨rfl, rfl⟩ rfl (by simp [Event.isQuiet]) ?_
      exact fun c running => ⟨running, head?_append_of_running horder running _⟩
  | tickerStopped deadline waiting shutDown =>
      exact .of_record .tickerStopped ⟨rfl, rfl⟩ rfl rfl rfl rfl
  | cycleGivenUp deadline cycling shutDown =>
      have same : SameRules e (e.withdraw .periodic).stopTicker :=
        ⟨withdraw_rules _ _, withdraw_version _ _⟩
      exact .of_withdraw .periodic .tickerStopped rfl same (by simp [stopTicker, record]) rfl rfl
        horder
  | closerQueued stopping ended told noticed =>
      refine .of_quiet told ⟨rfl, rfl⟩ rfl ?_ ?_
      · rcases noticed with rfl | rfl <;> simp [Event.isQuiet]
      · exact fun c running => ⟨running, head?_append_of_running horder running _⟩

end HostPolicy.Engine
