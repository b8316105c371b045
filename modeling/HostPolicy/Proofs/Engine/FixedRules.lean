import HostPolicy.Engine.Run
import HostPolicy.Proofs.Engine.StaticRules

/-!
# Engines of fixed rules

Without sources every cycle compiles the same patterns. An engine that is built so and one that is
made of the patterns at once have the same rules at all times. They differ where the patterns do not
compile: the one that is made at once counts a rule set all the same.
-/

namespace HostPolicy.Engine

/-- The rule set of the patterns, which is empty if they do not compile. -/
def fixedRules (patterns : List String) : RuleSet :=
  match RuleSet.compile patterns with
  | .ok rules => rules
  | .error _ => .empty

structure Fixed (patterns : List String) (e : Engine) : Prop where
  patterns_eq : e.settings.patterns = patterns
  no_sources : e.world.sources = []
  rules_eq : e.rules = fixedRules patterns
  gathered_eq : ∀ c, e.cycle = some c → c.gathered = []

namespace Fixed

variable {patterns : List String} {e later : Engine}

theorem congr (h : Fixed patterns e) (hmove : Move e later) (hrules : later.rules = e.rules)
    (hgathered : ∀ c, later.cycle = some c → c.gathered = []) : Fixed patterns later := by
  refine ⟨?_, ?_, hrules.trans h.rules_eq, hgathered⟩
  · rw [hmove.settings, h.patterns_eq]
  · rw [← List.length_eq_zero_iff, hmove.length_sources, h.no_sources, List.length_nil]

theorem withdraw (h : Fixed patterns e) (who : Claimant) (c : Cycle)
    (running : (e.withdraw who).cycle = some c) : c.gathered = [] := by
  rcases e.withdraw_eq who with ⟨_, _, heq⟩ | ⟨_, heq⟩
  · rw [heq] at running
    contradiction
  · rw [heq] at running
    exact h.gathered_eq c running

theorem move (h : Fixed patterns e) (hmove : Move e later) : Fixed patterns later := by
  have hmoves : Move e later := hmove
  cases hmove with
  | reloadAbandoned call => exact h.congr hmoves (withdraw_rules _ _) (h.withdraw (.manual call))
  | cycleGivenUp => exact h.congr hmoves (withdraw_rules _ _) (h.withdraw .periodic)
  | cycleBegan =>
      refine h.congr hmoves rfl ?_
      intro c running
      cases running
      rfl
  | turnedAway | notCompiled => exact h.congr hmoves (leave_rules _) (by simp)
  | loadBegan who turn c running asked => simp [h.no_sources] at asked
  | loadEnded who turn c running source asked => simp [h.no_sources] at asked
  | installed who turn c running complete rules compiles =>
      -- A cycle without sources comes to what is there already.
      rw [h.patterns_eq, h.gathered_eq c running, List.append_nil] at compiles
      refine h.congr hmoves ?_ (by simp)
      rw [leave_rules, h.rules_eq, fixedRules, compiles]
  | engineClosed => exact h.congr hmoves rfl (by simp)
  | _ => exact h.congr hmoves rfl h.gathered_eq

theorem steps (h : Fixed patterns e) (actions : List Action) :
    Fixed patterns (e.steps actions) :=
  steps_induction (fun _ _ h hmove => h.move hmove) h actions

end Fixed

section Run

variable {horizon : Option Nat} {stop : Engine → Bool} {e later : Engine}

theorem run_of_stop (done : stop e = true) (fuel : Nat) : run horizon stop fuel e = e := by
  cases fuel with
  | zero => rfl
  | succ fuel => rw [run, if_pos done]

theorem run_of_next? (going : stop e = false) (hnext : e.next? horizon = some later) (fuel : Nat) :
    run horizon stop (fuel + 1) e = run horizon stop fuel later := by
  rw [run, if_neg (by simp [going]), hnext]

end Run

section Made

variable (policy : Policy) (patterns : List String)

theorem fixed_ofPatterns : Fixed patterns (ofPatterns policy patterns) := by
  unfold ofPatterns
  cases hcompile : RuleSet.compile patterns with
  | ok rules =>
      refine ⟨rfl, rfl, ?_, by simp [new]⟩
      rw [fixedRules, hcompile]
  | error error =>
      refine ⟨rfl, rfl, ?_, by simp [new, record]⟩
      rw [fixedRules, hcompile]
      rfl

theorem version_ofPatterns : (ofPatterns policy patterns).version = 1 := by
  unfold ofPatterns
  cases RuleSet.compile patterns <;> rfl

/-- The engine that is built of the same patterns and asks no source. -/
def builtOf : Engine :=
  build (.ofRequest policy patterns none none) ⟨.empty, [], []⟩

/-- Its first cycle goes straight to its end. -/
theorem builtOf_eq : builtOf policy patterns =
    (((new (.ofRequest policy patterns none none) ⟨.empty, [], []⟩).beginCycle .build).install
      ⟨0, none, []⟩).leave := by
  let start := new (.ofRequest policy patterns none none) ⟨.empty, [], []⟩
  let first := start.beginCycle .build
  let second := (first.install ⟨0, none, []⟩).leave
  let built : Engine → Bool := fun e => !e.queue.contains .build
  have hqueue : second.queue = [] := by
    rw [leave_queue, install]
    cases RuleSet.compile (first.settings.patterns ++ []) <;> rfl
  have hbuilt : built second = true := by simp [built, hqueue]
  calc builtOf policy patterns
      = run none built (38 + 2) start := rfl
    _ = run none built (38 + 1) first := run_of_next? rfl rfl (38 + 1)
    _ = run none built 38 second := run_of_next? rfl rfl 38
    _ = second := run_of_stop hbuilt 38

/-- What a cycle installs that gathered nothing. -/
theorem install_eq {e : Engine} (hpatterns : e.settings.patterns = patterns) :
    (e.install ⟨0, none, []⟩).rules =
        (match RuleSet.compile patterns with | .ok rules => rules | .error _ => e.rules) ∧
      (e.install ⟨0, none, []⟩).version =
        if (RuleSet.compile patterns).isOk then e.version + 1 else e.version := by
  unfold install
  rw [hpatterns, List.append_nil]
  cases RuleSet.compile patterns <;> exact ⟨rfl, rfl⟩

theorem version_builtOf : (builtOf policy patterns).version =
    if (RuleSet.compile patterns).isOk then 1 else 0 := by
  rw [builtOf_eq, leave_version, (install_eq patterns rfl).2]
  rfl

theorem settings_ofPatterns :
    (ofPatterns policy patterns).settings = .ofRequest policy patterns none none := by
  unfold ofPatterns
  cases RuleSet.compile patterns <;> rfl

theorem settings_builtOf :
    (builtOf policy patterns).settings = .ofRequest policy patterns none none := by
  rw [builtOf_eq, leave_settings, install]
  cases RuleSet.compile _ <;> rfl

theorem fixed_builtOf : Fixed patterns (builtOf policy patterns) := by
  refine ⟨?_, ?_, ?_, ?_⟩
  · rw [settings_builtOf]
    rfl
  · rw [builtOf_eq, leave_world, install]
    cases RuleSet.compile _ <;> rfl
  · rw [builtOf_eq, leave_rules, (install_eq patterns rfl).1]
    rfl
  · simp [builtOf_eq]

/-- In all later states of both, and whatever is done to either, an engine of fixed rules and one
that is built of the same patterns decide alike. Their versions agree at first if the patterns
compile. If they do not, only the one that is built counts no rule set. -/
theorem constructions_agree (actions others : List Action) :
    let e := ofPatterns policy patterns
    let f := build (.ofRequest policy patterns none none) ⟨.empty, [], []⟩
    (e.steps actions).rules = (f.steps others).rules ∧
    (∀ address, (e.steps actions).decide address = (f.steps others).decide address) ∧
    e.version = 1 ∧
    f.version = (if (RuleSet.compile patterns).isOk then 1 else 0) ∧
    (e.version = f.version ↔ ∃ rules, RuleSet.compile patterns = .ok rules) := by
  intro e f
  have hfixed : Fixed patterns (e.steps actions) := (fixed_ofPatterns policy patterns).steps actions
  have hbuilt : Fixed patterns (f.steps others) := (fixed_builtOf policy patterns).steps others
  have hrules : (e.steps actions).rules = (f.steps others).rules :=
    hfixed.rules_eq.trans hbuilt.rules_eq.symm
  have hsettings : (e.steps actions).settings = (f.steps others).settings := by
    calc (e.steps actions).settings
        = e.settings := steps_settings e actions
      _ = f.settings := (settings_ofPatterns policy patterns).trans
            (settings_builtOf policy patterns).symm
      _ = (f.steps others).settings := (steps_settings f others).symm
  have hversion : e.version = 1 := version_ofPatterns policy patterns
  have hcounted : f.version = if (RuleSet.compile patterns).isOk then 1 else 0 :=
    version_builtOf policy patterns
  refine ⟨hrules, ?_, hversion, hcounted, ?_⟩
  · intro address
    rw [decide, decide, hrules, hsettings]
  · rw [hversion, hcounted]
    cases RuleSet.compile patterns <;> simp [Except.isOk, Except.toBool]

/-- A glob that is too large: of two engines without rules, the one made of it at once claims to
have compiled a rule set. -/
theorem version_of_failed :
    (∃ error, RuleSet.compile [longGlob 4500] = .error error) ∧
      (ofPatterns ⟨.bypass, false⟩ [longGlob 4500]).version = 1 ∧
      (build (.ofRequest ⟨.bypass, false⟩ [longGlob 4500] none none) ⟨.empty, [], []⟩).version =
        0 := by
  have hlarge : GlobSet.sizeLimit < 80 * (longGlob 4500).length := by
    rw [length_longGlob]
    decide
  obtain ⟨error, fails⟩ := RuleSet.exists_error_of_glob (ofLine?_longGlob (by decide)) hlarge
  refine ⟨⟨error, fails⟩, version_ofPatterns _ _, ?_⟩
  change (builtOf ⟨.bypass, false⟩ [longGlob 4500]).version = 0
  rw [version_builtOf, fails]
  rfl

end Made

end HostPolicy.Engine
