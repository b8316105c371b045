import HostPolicy.Proofs.Engine.Progress
import Mathlib.Data.List.Induction

/-!
# Where the rules of an engine come from

The rule set in use is the one that the latest cycle came to of all that compiled, its version
counts them, and no other step touches either. What a cycle compiles are the patterns of the
settings and what the sources answered it, each at the moment its load ended.
-/

namespace HostPolicy.Engine

open Journal

/-- The rules of an engine, in a run from `start`, by the cycles that its journal tells of. -/
structure Provenance (start e : Engine) : Prop where
  settings : e.settings = start.settings
  length_sources : e.world.sources.length = start.world.sources.length
  version : e.version = start.version +
    .ofNat (ruleSets start.settings.patterns (rounds e.journal)).length
  rules : e.rules = (ruleSets start.settings.patterns (rounds e.journal)).headD start.rules
  current : ∀ c, e.cycle = some c → ∃ r rest, rounds e.journal = r :: rest ∧ r.ended = none ∧
    r.rules = c.gathered ∧ e.queue.head? = some r.who

variable {start e later : Engine}

namespace Provenance

/-- As long as no cycle comes to a rule set, all is as it was. -/
theorem congr (h : Provenance start e) (hmove : Move e later) (same : SameRules e later)
    (hsets : ruleSets start.settings.patterns (rounds later.journal) =
      ruleSets start.settings.patterns (rounds e.journal))
    (hcurrent : ∀ c, later.cycle = some c → ∃ r rest, rounds later.journal = r :: rest ∧
      r.ended = none ∧ r.rules = c.gathered ∧ later.queue.head? = some r.who) :
    Provenance start later := by
  refine ⟨hmove.settings.trans h.settings, hmove.length_sources.trans h.length_sources, ?_, ?_,
    hcurrent⟩
  · rw [hsets, same.2]
    exact h.version
  · rw [hsets, same.1]
    exact h.rules

/-- The latest cycle goes on. -/
theorem goOn (h : Provenance start e) (hmove : Move e later) (same : SameRules e later)
    {r after : Round} {rest : List Round} {next : Cycle} (hrounds : rounds e.journal = r :: rest)
    (running : r.ended = none) (hhead : e.queue.head? = some r.who)
    (hafter : rounds later.journal = after :: rest) (still : after.ended = none)
    (hwho : after.who = r.who) (hqueue : later.queue = e.queue) (hcycle : later.cycle = some next)
    (hrules : after.rules = next.gathered) : Provenance start later := by
  refine h.congr hmove same ?_ ?_
  · rw [hrounds, hafter, ruleSets_running running, ruleSets_running still]
  · intro other hsome
    rw [hcycle] at hsome
    cases hsome
    exact ⟨after, rest, hafter, still, hrules, by rw [hqueue, hwho, hhead]⟩

theorem move (h : Provenance start e) (hconduct : Conducted e) (horder : Orderly e)
    (hmove : Move e later) : Provenance start later := by
  cases hmove.progress horder with
  | aside same hrounds hcycle =>
      refine h.congr hmove same (by rw [hrounds]) ?_
      intro c hsome
      obtain ⟨running, hhead⟩ := hcycle c hsome
      rw [hrounds, hhead]
      exact h.current c running
  | began who turn opened same hqueue hrounds hcycle =>
      refine h.congr hmove same ?_ ?_
      · rw [hrounds]
        exact ruleSets_running rfl
      · intro c hsome
        rw [hcycle] at hsome
        cases hsome
        exact ⟨_, _, hrounds, rfl, rfl, hqueue ▸ turn.head⟩
  | loadBegan c running same hqueue hrounds hcycle =>
      obtain ⟨r, rest, hold, hopen, hrules, hhead⟩ := h.current c running
      rw [Latest, hold, List.modifyHead_cons] at hrounds
      refine h.goOn hmove same hold hopen hhead hrounds hopen rfl hqueue hcycle ?_
      rw [Round.rules_beginLoad, hrules]
  | loadEnded c source running asked began loading same hqueue hrounds hcycle =>
      obtain ⟨r, rest, hold, hopen, hrules, hhead⟩ := h.current c running
      have hshows := (Conduct.chronicle hconduct).current
      rw [stage_of_loading running loading] at hshows
      obtain ⟨_, _, loads, first, hsame, _, hloads, _, answered⟩ := hshows
      rw [hold, List.cons.injEq] at hsame
      rw [← hsame.1] at hloads
      rw [Latest, hold, List.modifyHead_cons] at hrounds
      refine h.goOn hmove same hold hopen hhead hrounds hopen rfl hqueue hcycle ?_
      rw [Round.rules_endLoad _ hloads answered, hrules]
  | installed c running complete compiles hversion hrounds hcycle =>
      -- The one step in which another cycle has come to a rule set.
      obtain ⟨r, rest, hold, hopen, hrules, _⟩ := h.current c running
      have hcompiles : RuleSet.compile (start.settings.patterns ++ r.rules) = .ok later.rules := by
        rw [← h.settings, hrules]
        exact compiles
      have hsets : ruleSets start.settings.patterns (rounds later.journal) =
          later.rules :: ruleSets start.settings.patterns (rounds e.journal) := by
        rw [hrounds, hold, List.modifyHead_cons, ruleSets_finished _ hcompiles,
          ruleSets_running hopen]
      refine ⟨hmove.settings.trans h.settings, hmove.length_sources.trans h.length_sources, ?_, ?_,
        by simp [hcycle]⟩
      · rw [hsets, hversion, h.version, List.length_cons, UInt64.ofNat_add, UInt64.add_assoc]
        rfl
      · rw [hsets]
        rfl
  | notCompiled c running error fails same hrounds hcycle =>
      obtain ⟨r, rest, hold, hopen, hrules, _⟩ := h.current c running
      have hfails : RuleSet.compile (start.settings.patterns ++ r.rules) = .error error := by
        rw [← h.settings, hrules]
        exact fails
      refine h.congr hmove same ?_ (by simp [hcycle])
      rw [hrounds, hold, List.modifyHead_cons, ruleSets_notCompiled _ hfails,
        ruleSets_running hopen]
  | cancelled running same hrounds hcycle =>
      obtain ⟨c, hsome⟩ := Option.isSome_iff_exists.mp running
      obtain ⟨r, rest, hold, hopen, _, _⟩ := h.current c hsome
      refine h.congr hmove same ?_ (by simp [hcycle])
      rw [hrounds, hold, List.modifyHead_cons, ruleSets_cancelled, ruleSets_running hopen]

end Provenance

theorem rounds_start (construction : Construction) : rounds construction.start.journal = [] := by
  have hrounds := rounds_append_quiet (fresh_start construction).quiet []
  rwa [List.append_nil] at hrounds

theorem provenance_start (construction : Construction) :
    Provenance construction.start construction.start := by
  refine ⟨rfl, rfl, ?_, ?_, ?_⟩
  · rw [rounds_start]
    exact (UInt64.add_zero _).symm
  · rw [rounds_start]
    rfl
  · simp [(fresh_start construction).idle]

theorem provenance_run (construction : Construction) (actions : List Action) :
    Provenance construction.start (construction.start.steps actions) :=
  run_induction (provenance_start construction)
    (fun _ _ horder hconduct h hmove => h.move hconduct horder hmove) actions

/-! ### What the sources answered -/

/-- What is told of the end of a load, in a run from `start`, is what its source answered then. -/
def Heard (start : Engine) (actions : List Action) (l : Load) : Prop :=
  ∀ moment answer, l.ended = some (moment, answer) → ∃ first rest source, actions = first ++ rest ∧
    (start.steps first).journal.length = moment ∧
    (start.steps first).world.sources[l.source]? = some source ∧
    answer = (start.steps first).answer source

theorem Heard.append {actions : List Action} {l : Load} (h : Heard start actions l)
    (more : List Action) : Heard start (actions ++ more) l := by
  intro moment answer hended
  obtain ⟨first, rest, source, rfl, hheard⟩ := h moment answer hended
  exact ⟨first, rest ++ more, source, List.append_assoc first rest more, hheard⟩

end HostPolicy.Engine
