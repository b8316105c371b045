import HostPolicy.Proofs.Engine.Serial
import HostPolicy.Proofs.Pattern
import HostPolicy.Proofs.RuleSet
import HostPolicy.Proofs.RuleText

/-!
# Static rules

The patterns of the settings are compiled in every cycle together with what the sources answer.
Hence once a cycle has compiled, all rule sets in use include them. Until then an engine has no
rules at all, and a source can keep it there with a glob that is too large to compile.
-/

namespace HostPolicy

namespace Engine

open Journal

variable {start e later : Engine}

/-- Whether some cycle has come to a rule set so far. -/
def HasCompiled (e : Engine) : Prop :=
  ∃ r ∈ rounds e.journal, (r.ruleSet? e.settings.patterns).isSome

/-- A cycle that asked all sources comes to a rule set unless the globs are too large together. -/
theorem isSome_ruleSet?_iff {patterns : List String} {r : Round} :
    (r.ruleSet? patterns).isSome ↔ (∃ moment, r.ended = some (moment, .finished)) ∧
      RuleSet.globSize (patterns ++ r.rules) ≤ GlobSet.sizeLimit := by
  rw [← RuleSet.exists_compile_iff]
  unfold Round.ruleSet?
  split
  · next moment hended =>
      cases RuleSet.compile (patterns ++ r.rules) <;> simp [hended, Except.toOption]
  · next hnot =>
      constructor
      · intro hset
        contradiction
      · rintro ⟨⟨moment, hended⟩, _⟩
        exact absurd hended (hnot moment)

theorem includes_of_ruleSet? {patterns : List String} {r : Round} {s : RuleSet}
    (hset : r.ruleSet? patterns = some s) : s.Includes patterns := by
  unfold Round.ruleSet? at hset
  split at hset
  · cases hcompile : RuleSet.compile (patterns ++ r.rules) with
    | ok rules =>
        rw [hcompile] at hset
        cases hset
        exact RuleSet.includes_of_compile hcompile
    | error error =>
        rw [hcompile] at hset
        contradiction
  · contradiction

theorem Provenance.includes (h : Provenance start e) (compiled : e.HasCompiled) :
    e.rules.Includes e.settings.patterns := by
  obtain ⟨r, hmem, hset⟩ := compiled
  obtain ⟨own, hown⟩ := Option.isSome_iff_exists.mp hset
  have hrules := h.rules
  rw [← h.settings] at hrules
  cases hsets : ruleSets e.settings.patterns (rounds e.journal) with
  | nil =>
      have hnone := List.filterMap_eq_nil_iff.mp hsets r hmem
      rw [hown] at hnone
      contradiction
  | cons s rest =>
      have hlatest : s ∈ ruleSets e.settings.patterns (rounds e.journal) := by
        rw [hsets]
        exact List.mem_cons_self
      obtain ⟨latest, _, hlatest⟩ := List.mem_filterMap.mp hlatest
      rw [hrules, hsets]
      exact includes_of_ruleSet? hlatest

theorem Provenance.rules_of_not_compiled (h : Provenance start e) (failed : ¬e.HasCompiled) :
    e.rules = start.rules := by
  have hsets : ruleSets e.settings.patterns (rounds e.journal) = [] := by
    apply List.filterMap_eq_nil_iff.mpr
    intro r hmem
    rw [← Option.not_isSome_iff_eq_none]
    exact fun hset => failed ⟨r, hmem, hset⟩
  rw [h.rules, ← h.settings, hsets]
  rfl

theorem HasCompiled.mono (compiled : e.HasCompiled) (hconduct : Conducted later)
    (hsettings : later.settings = e.settings) {told : List Entry}
    (hjournal : later.journal = told ++ e.journal) : later.HasCompiled := by
  obtain ⟨r, hmem, hset⟩ := compiled
  -- The cycle has ended, so nothing that is told later changes it.
  unfold Conducted at hconduct
  rw [hjournal] at hconduct
  have hkept := (grows hconduct).kept r hmem (Round.ended_of_ruleSet? hset)
  refine ⟨r, ?_, ?_⟩
  · rw [hjournal]
    exact hkept
  · rw [hsettings]
    exact hset

/-- The static rules are in use from the first cycle on whose globs are not too large together,
whatever becomes of the sources thereafter. Before it no rule is. -/
theorem static_rules_included (settings : Settings) (world : World) (actions : List Action) :
    let e := (new settings world).steps actions
    (e.HasCompiled ↔ ∃ r ∈ rounds e.journal, (∃ moment, r.ended = some (moment, .finished)) ∧
      RuleSet.globSize (settings.patterns ++ r.rules) ≤ GlobSet.sizeLimit) ∧
    (e.HasCompiled → ∀ more, (e.steps more).rules.Includes settings.patterns) ∧
    (¬e.HasCompiled → e.rules = .empty) ∧
    (e.rules.Includes settings.patterns ↔
      e.HasCompiled ∨ RuleSet.empty.Includes settings.patterns) := by
  intro e
  have hprovenance : Provenance (new settings world) e :=
    provenance_run (.build settings world) actions
  have hsettings : e.settings = settings := hprovenance.settings
  have hempty : ¬e.HasCompiled → e.rules = .empty := hprovenance.rules_of_not_compiled
  have hincludes : e.HasCompiled → e.rules.Includes settings.patterns := by
    rw [← hsettings]
    exact hprovenance.includes
  refine ⟨?_, ?_, hempty, ?_, ?_⟩
  · unfold HasCompiled
    simp only [hsettings, isSome_ruleSet?_iff]
  · intro compiled more
    have hrun : e.steps more = (new settings world).steps (actions ++ more) :=
      (steps_append _ _ _).symm
    have hlater : Provenance (new settings world) (e.steps more) := by
      rw [hrun]
      exact provenance_run (.build settings world) (actions ++ more)
    have hconduct : Conducted (e.steps more) := by
      rw [hrun]
      exact conducted_run (.build settings world) (actions ++ more)
    have hsame : (e.steps more).settings = e.settings := e.steps_settings more
    obtain ⟨told, hjournal⟩ := e.steps_journal more
    rw [← hsettings, ← hsame]
    exact hlater.includes (compiled.mono hconduct hsame hjournal)
  · intro hpresent
    by_cases compiled : e.HasCompiled
    · exact Or.inl compiled
    · rw [hempty compiled] at hpresent
      exact Or.inr hpresent
  · intro hpresent
    by_cases compiled : e.HasCompiled
    · exact hincludes compiled
    · rw [hempty compiled]
      exact hpresent.resolve_left compiled

theorem static_rules_included_reload :
    let settings : Settings := ⟨⟨.admission, false⟩, ["s.com"], 10, none⟩
    let e := (new settings ⟨.empty, [], [.memory [] false false]⟩).steps (turns 4)
    let reload := .change (.setText 0 (RuleText.ofRules ["m.com"])) :: .reload :: turns 4
    e.HasCompiled ∧ (e.steps reload).rules.accepts "s.com" = true := by
  intro settings e reload
  let first : Round := ⟨.build, 0, [⟨0, 1, some (2, .ok [])⟩], some (3, .finished)⟩
  have hmem : first ∈ rounds e.journal := by exact List.mem_cons_self
  have hset : (first.ruleSet? ["s.com"]).isSome := rfl
  have hsettings : e.settings = settings := steps_settings _ _
  have compiled : e.HasCompiled := ⟨first, hmem, by rw [hsettings]; exact hset⟩
  obtain ⟨own, halone, haccepts⟩ :
      ∃ own, RuleSet.compile ["s.com"] = .ok own ∧ own.accepts "s.com" = true :=
    ⟨_, rfl, by decide⟩
  obtain ⟨_, hlater, _⟩ :=
    static_rules_included settings ⟨.empty, [], [.memory [] false false]⟩ (turns 4)
  refine ⟨compiled, ?_⟩
  exact hlater compiled reload "s.com" List.mem_cons_self own halone "s.com" haccepts

end Engine

/-! ### A glob that is too large -/

def longGlob (n : Nat) : String :=
  String.ofList (List.replicate n ('日' :: (List.replicate 199 '日' ++ ['?']))).flatten

theorem mem_longGlob {n : Nat} {c : Char} (hmem : c ∈ (longGlob n).toList) : c = '日' ∨ c = '?' := by
  rw [longGlob, String.toList_ofList] at hmem
  obtain ⟨cs, hcs, hc⟩ := List.mem_flatten.mp hmem
  rw [List.eq_of_mem_replicate hcs] at hc
  rcases List.mem_cons.mp hc with rfl | hrest
  · exact Or.inl rfl
  · rcases List.mem_append.mp hrest with hletter | hwild
    · exact Or.inl (List.eq_of_mem_replicate hletter)
    · exact Or.inr (List.mem_singleton.mp hwild)

theorem plain_longGlob (n : Nat) : RuleText.Plain (longGlob n) := by
  constructor <;> intro hmem <;> rcases mem_longGlob hmem with heq | heq <;> simp at heq

theorem length_longGlob (n : Nat) : (longGlob n).length = 201 * n := by
  simp only [longGlob, String.length_ofList, List.length_flatten, List.map_replicate,
    List.sum_replicate_nat, List.length_cons, List.length_append, List.length_replicate,
    List.length_nil]
  omega

theorem longGlob_eq_cons {n : Nat} (hpos : 0 < n) :
    ∃ cs, longGlob n = String.ofList ('日' :: cs) ∧ '?' ∈ cs := by
  obtain ⟨k, rfl⟩ := Nat.exists_eq_add_of_lt hpos
  refine ⟨List.replicate 199 '日' ++ ['?'] ++
    (List.replicate (0 + k) ('日' :: (List.replicate 199 '日' ++ ['?']))).flatten, ?_, ?_⟩
  · rw [longGlob, List.replicate_succ, List.flatten_cons, List.cons_append]
  · apply List.mem_append_left
    exact List.mem_append_right _ (List.mem_singleton.mpr rfl)

theorem ofLine?_longGlob {n : Nat} (hpos : 0 < n) :
    Pattern.ofLine? (longGlob n) = some (.glob (longGlob n)) := by
  obtain ⟨cs, hglob, hwild⟩ := longGlob_eq_cons hpos
  have htrim : Text.trim (longGlob n) = longGlob n := by
    rw [Text.trim, Text.trimChars_of_not_blank, String.ofList_toList]
    intro c hmem
    rcases mem_longGlob hmem with rfl | rfl <;> rfl
  have hparse : Pattern.parse (longGlob n) = .glob (longGlob n) := by
    have hstart : StartsNoAddress '日' := ⟨by decide, by decide⟩
    have hany : ('日' :: cs).any Pattern.isWild = true := by
      apply List.any_eq_true.mpr
      exact ⟨'?', List.mem_cons_of_mem _ hwild, rfl⟩
    rw [hglob, hstart.parse_eq, if_pos hany]
  have hne : longGlob n ≠ "" := by
    rw [hglob]
    simp
  simp only [Pattern.ofLine?, htrim, if_neg hne, hparse]

namespace Engine

/-- An engine with a static rule, and with a set of one member as its source. -/
def ofMember (member : String) : Engine :=
  new ⟨⟨.admission, false⟩, ["s.com"], Settings.defaultLoadTimeout, none⟩
    ⟨.empty, [("k", ⟨[(defaultKey, [member])], [], none, none, 0⟩)],
      [.collection .set "k" defaultKey]⟩

theorem built_of_member {member : String} {error : RuleError}
    (fails : RuleSet.compile (["s.com"] ++ RuleText.rules (RuleText.ofRules [member])) =
      .error error) :
    ((ofMember member).steps (turns 4)).queue = [] ∧
      ((ofMember member).steps (turns 4)).rules = .empty := by
  have hlast : ((ofMember member).steps (turns 3)).holder? =
      some (((ofMember member).steps (turns 3)).install
        ⟨1, none, RuleText.rules (RuleText.ofRules [member])⟩).leave := rfl
  have hinstall : ((ofMember member).steps (turns 3)).install
      ⟨1, none, RuleText.rules (RuleText.ofRules [member])⟩ =
      ((ofMember member).steps (turns 3)).record (.notCompiled error) := by
    unfold install
    have hfails : RuleSet.compile (((ofMember member).steps (turns 3)).settings.patterns ++
        RuleText.rules (RuleText.ofRules [member])) = .error error := fails
    rw [hfails]
  have hend : (ofMember member).steps (turns 4) =
      (((ofMember member).steps (turns 3)).record (.notCompiled error)).leave := by
    have hturns : turns 4 = turns 3 ++ [.holder] := rfl
    rw [hturns, steps_append, steps_cons, steps_nil, step, hlast, hinstall, Option.getD_some]
  rw [hend, leave_queue, leave_rules]
  exact ⟨rfl, rfl⟩

theorem built_of_longGlob {n : Nat} (hpos : 0 < n) (hlarge : GlobSet.sizeLimit < 80 * (201 * n)) :
    ((ofMember (longGlob n)).steps (turns 4)).queue = [] ∧
      ((ofMember (longGlob n)).steps (turns 4)).rules = .empty := by
  rw [← length_longGlob] at hlarge
  obtain ⟨error, hglob⟩ := RuleSet.exists_error_of_glob (ofLine?_longGlob hpos) hlarge
  have hloaded : RuleSet.compile (RuleText.rules (RuleText.ofRules [longGlob n])) =
      .error error := by
    rw [RuleText.compile_rules_ofRules (by simp [plain_longGlob]), hglob]
  obtain ⟨_, fails⟩ :=
    RuleSet.exists_error_of_sublist (List.sublist_append_right ["s.com"] _) hloaded
  exact built_of_member fails

/-- A source may keep a static rule from ever being in use: with a glob that is too large, an engine
is built without it. -/
theorem static_rule_missing :
    .build ∉ ((ofMember (longGlob 4500)).steps (turns 4)).queue ∧
      (ofMember (longGlob 4500)).settings.patterns = ["s.com"] ∧
      (∃ own, RuleSet.compile ["s.com"] = .ok own ∧ own.accepts "s.com" = true) ∧
      ((ofMember (longGlob 4500)).steps (turns 4)).rules.accepts "s.com" = false := by
  obtain ⟨hqueue, hrules⟩ := built_of_longGlob (n := 4500) (by decide) (by decide)
  rw [hqueue, hrules]
  exact ⟨List.not_mem_nil, rfl, ⟨_, rfl, by decide⟩, RuleSet.accepts_empty "s.com"⟩

end Engine

end HostPolicy
