import HostPolicy.Proofs.OwnText
import Mathlib.Data.Set.Card

/-!
# How many rules a set holds

Addresses are counted once for each canonical form, and domains once for each text in small letters,
so that a name and the same name with a dot in front are two rules. Blocks and globs are counted as
often as they are written. Blank lines are no rules.
-/

namespace HostPolicy

/-! ### What is kept once -/

section Once

variable {α : Type} [BEq α] [LawfulBEq α]

theorem nodup_eraseDups (l : List α) : l.eraseDups.Nodup := by
  induction h : l.length using Nat.strongRecOn generalizing l with
  | ind n ih =>
      cases l with
      | nil => exact List.nodup_nil
      | cons a rest =>
          rw [List.eraseDups_cons, List.nodup_cons]
          constructor
          · simp
          · have hshorter : (rest.filter fun b => !b == a).length < n := by
              rw [← h, List.length_cons]
              exact Nat.lt_succ_of_le (List.length_filter_le _ _)
            exact ih _ hshorter _ rfl

theorem length_eq_ncard {α : Type} {l : List α} (hnodup : l.Nodup) :
    l.length = {a | a ∈ l}.ncard := by
  classical
  rw [← List.toFinset_card_of_nodup hnodup, ← Set.ncard_coe_finset, List.coe_toFinset]

theorem ncard_le_countP {α β : Type} {pick : α → Option β} {p : α → Bool}
    (hpick : ∀ a b, pick a = some b → p a = true) (l : List α) :
    {b | ∃ a ∈ l, pick a = some b}.ncard ≤ l.countP p := by
  classical
  have hset : {b | ∃ a ∈ l, pick a = some b} = ((l.filterMap pick).toFinset : Set β) := by
    ext b
    simp
  rw [hset, Set.ncard_coe_finset]
  calc (l.filterMap pick).toFinset.card
      ≤ (l.filterMap pick).length := List.toFinset_card_le _
    _ = l.countP fun a => (pick a).isSome := List.length_filterMap_eq_countP
    _ ≤ l.countP p := by
        apply List.countP_mono_left
        intro a _ hsome
        obtain ⟨b, hb⟩ := Option.isSome_iff_exists.mp hsome
        exact hpick a b hb

end Once

/-! ### Each collection -/

theorem AddressSet.size_ofList (addresses : List Address) :
    (ofList addresses).size = {x | ∃ a ∈ addresses, a.canonical = x}.ncard := by
  rw [size, ofList, length_eq_ncard (nodup_eraseDups _)]
  congr 1
  ext x
  simp

namespace DomainSet

variable (texts : List String)

/-- Rules that name one domain each. -/
def exactNames : Set (List Char) :=
  {name | ∃ text ∈ texts, text ≠ "" ∧ text.toList.head? ≠ some '.' ∧ lowerCase text = name}

/-- Rules that name a domain and all below it, with the dot in front. -/
def dottedNames : Set (List Char) :=
  {name | ∃ text ∈ texts, text ≠ "." ∧ text.toList.head? = some '.' ∧ lowerCase text = name}

theorem length_exact_ofTexts : (ofTexts texts).exact.length = (exactNames texts).ncard := by
  have hnodup : (ofTexts texts).exact.Nodup := nodup_eraseDups _
  rw [length_eq_ncard hnodup]
  congr 1
  ext name
  rw [Set.mem_ofPred_eq, mem_exact_ofTexts]
  simp only [DomainRule.ofText?_eq_exact_iff, exactNames, Set.mem_ofPred_eq]
  constructor
  · rintro ⟨text, htext, hlower, hne, hhead⟩
    exact ⟨text, htext, hne, hhead, hlower⟩
  · rintro ⟨text, htext, hne, hhead, hlower⟩
    exact ⟨text, htext, hlower, hne, hhead⟩

theorem mem_dottedNames_iff (name : List Char) :
    name ∈ dottedNames texts ↔
      ∃ text ∈ texts, ∃ own, DomainRule.ofText? text = some (.within own) ∧ '.' :: own = name := by
  simp only [dottedNames, Set.mem_ofPred_eq, DomainRule.ofText?_eq_within_iff]
  constructor
  · rintro ⟨text, htext, hne, hhead, rfl⟩
    obtain ⟨own, hown⟩ := List.head?_eq_some_iff.mp ((head?_lowerCase_eq_dot_iff text).mpr hhead)
    refine ⟨text, htext, own, ⟨?_, hown⟩, hown.symm⟩
    rintro rfl
    exact hne (lowerCase_eq_dot_iff.mp hown)
  · rintro ⟨text, htext, own, ⟨hne, hown⟩, rfl⟩
    refine ⟨text, htext, ?_, (head?_lowerCase_eq_dot_iff text).mp (by rw [hown]; rfl), hown⟩
    intro hdot
    rw [lowerCase_eq_dot_iff.mpr hdot] at hown
    exact hne (List.cons.inj hown).2.symm

/-- A key is the name backwards, the dot apart, and so keys are as many as names. -/
theorem length_keys_ofTexts : (ofTexts texts).keys.length = (dottedNames texts).ncard := by
  have hkeys : {k | k ∈ (ofTexts texts).keys} =
      (fun name => key name.tail) '' dottedNames texts := by
    ext k
    simp only [Set.mem_ofPred_eq, mem_keys_ofTexts, Set.mem_image, mem_dottedNames_iff]
    constructor
    · rintro ⟨text, htext, own, hrule, rfl⟩
      exact ⟨'.' :: own, ⟨text, htext, own, hrule, rfl⟩, rfl⟩
    · rintro ⟨_, ⟨text, htext, own, hrule, rfl⟩, rfl⟩
      exact ⟨text, htext, own, hrule, rfl⟩
  have hinj : Set.InjOn (fun name => key name.tail) (dottedNames texts) := by
    intro first hfirst second hsecond hsame
    obtain ⟨_, _, own, _, rfl⟩ := (mem_dottedNames_iff texts first).mp hfirst
    obtain ⟨_, _, other, _, rfl⟩ := (mem_dottedNames_iff texts second).mp hsecond
    simpa [key] using hsame
  have hnodup : (ofTexts texts).keys.Nodup := nodup_eraseDups _
  rw [length_eq_ncard hnodup, hkeys, hinj.ncard_image]

/-- A name with a dot in front is none without. -/
theorem not_mem_dottedNames {name : List Char} (hmem : name ∈ exactNames texts) :
    name ∉ dottedNames texts := by
  obtain ⟨text, _, _, hhead, rfl⟩ := hmem
  rintro ⟨other, _, _, hdot, hsame⟩
  apply hhead
  rw [← head?_lowerCase_eq_dot_iff, ← hsame]
  exact (head?_lowerCase_eq_dot_iff other).mpr hdot

theorem finite_names {names : Set (List Char)}
    (hnames : ∀ name ∈ names, ∃ text ∈ texts, lowerCase text = name) : names.Finite := by
  apply (texts.map lowerCase).toFinset.finite_toSet.subset
  intro name hmem
  simpa using hnames name hmem

theorem size_ofTexts :
    (ofTexts texts).size =
      {name | ∃ text ∈ texts, text ≠ "" ∧ text ≠ "." ∧ lowerCase text = name}.ncard := by
  have hunion : {name | ∃ text ∈ texts, text ≠ "" ∧ text ≠ "." ∧ lowerCase text = name} =
      exactNames texts ∪ dottedNames texts := by
    ext name
    simp only [exactNames, dottedNames, Set.mem_union, Set.mem_ofPred_eq]
    constructor
    · rintro ⟨text, htext, hne, hdot, hlower⟩
      by_cases hhead : text.toList.head? = some '.'
      · exact Or.inr ⟨text, htext, hdot, hhead, hlower⟩
      · exact Or.inl ⟨text, htext, hne, hhead, hlower⟩
    · rintro (⟨text, htext, hne, hhead, hlower⟩ | ⟨text, htext, hdot, hhead, hlower⟩)
      · refine ⟨text, htext, hne, ?_, hlower⟩
        rintro rfl
        exact hhead rfl
      · refine ⟨text, htext, ?_, hdot, hlower⟩
        rintro rfl
        contradiction
  have hexact : (exactNames texts).Finite := by
    apply finite_names texts
    rintro name ⟨text, htext, _, _, hlower⟩
    exact ⟨text, htext, hlower⟩
  have hdotted : (dottedNames texts).Finite := by
    apply finite_names texts
    rintro name ⟨text, htext, _, _, hlower⟩
    exact ⟨text, htext, hlower⟩
  have hdisjoint : Disjoint (exactNames texts) (dottedNames texts) := by
    apply Set.disjoint_left.mpr
    intro name
    exact not_mem_dottedNames texts
  rw [hunion, Set.ncard_union_eq hdisjoint hexact hdotted, size, length_exact_ofTexts,
    length_keys_ofTexts]

end DomainSet

/-! ### All together -/

/-- The texts of the lines that are not blank. -/
def ruleTexts (lines : List String) : List String :=
  (lines.map Text.trim).filter (· ≠ "")

theorem ne_of_mem_ruleTexts {lines : List String} {text : String} (hmem : text ∈ ruleTexts lines) :
    text ≠ "" := by
  simpa using (List.mem_filter.mp hmem).2

theorem ruleTexts_filter (lines : List String) :
    ruleTexts (lines.filter fun line => Text.trim line ≠ "") = ruleTexts lines := by
  simp [ruleTexts, List.filter_map, Function.comp_def]

theorem filterMap_ofLine? (lines : List String) :
    lines.filterMap Pattern.ofLine? = (ruleTexts lines).map Pattern.parse := by
  induction lines with
  | nil => rfl
  | cons line lines ih =>
      by_cases hblank : Text.trim line = ""
      · have hnone : Pattern.ofLine? line = none := by simp [Pattern.ofLine?, hblank]
        rw [List.filterMap_cons_none hnone, ih]
        simp [ruleTexts, hblank]
      · have hsome : Pattern.ofLine? line = some (Pattern.parse (Text.trim line)) := by
          simp [Pattern.ofLine?, hblank]
        rw [List.filterMap_cons_some hsome, ih]
        simp [ruleTexts, hblank]

namespace Pattern

theorem parse_eq_domain_iff {text name : String} :
    parse text = domain name ↔ (parse text).family = .domain ∧ name = text := by
  rcases parse_cases text with ⟨a, -, hparse⟩ | ⟨b, hparse⟩ | ⟨-, hparse | hparse⟩ <;>
    simp [hparse, family, eq_comm]

/-- A collection that takes the patterns of one family takes each as often as it is there. -/
theorem length_filterMap {α : Type} {pick : Pattern → Option α} {family : Family}
    (hpick : ∀ p, (pick p).isSome = decide (p.family = family)) (patterns : List Pattern) :
    (patterns.filterMap pick).length = patterns.countP (·.family = family) := by
  rw [List.length_filterMap_eq_countP]
  congr 1
  funext p
  exact hpick p

/-- Every pattern is of one family. -/
theorem sum_countP_family (patterns : List Pattern) :
    patterns.countP (·.family = .ip) + patterns.countP (·.family = .cidr) +
      patterns.countP (·.family = .domain) + patterns.countP (·.family = .wildcard) =
        patterns.length := by
  induction patterns with
  | nil => rfl
  | cons p patterns ih =>
      rw [List.length_cons, ← ih]
      cases p <;> simp [family] <;> omega

end Pattern

namespace RuleSet

/-- What the counts of a rule set come to, by the texts of its rules. -/
structure CountsOf (texts : List String) (n : RuleCounts) : Prop where
  /-- Distinct addresses in canonical form. -/
  ip : n.ip = {x | ∃ text ∈ texts, ∃ a, Pattern.parse text = .address a ∧ a.canonical = x}.ncard
  cidr : n.cidr = texts.countP fun text => (Pattern.parse text).family = .cidr
  /-- Distinct texts in small letters; one with a dot in front is another one. -/
  domain : n.domain = {name | ∃ text ∈ texts,
    (Pattern.parse text).family = .domain ∧ text ≠ "." ∧ lowerCase text = name}.ncard
  wildcard : n.wildcard = texts.countP fun text => (Pattern.parse text).family = .wildcard

theorem CountsOf.eq_of_perm {texts others : List String} {n m : RuleCounts}
    (h : CountsOf texts n) (hother : CountsOf others m) (hperm : others.Perm texts) : m = n := by
  have hip : m.ip = n.ip := by simp only [h.ip, hother.ip, hperm.mem_iff]
  have hcidr : m.cidr = n.cidr := by rw [h.cidr, hother.cidr, hperm.countP_eq]
  have hdomain : m.domain = n.domain := by simp only [h.domain, hother.domain, hperm.mem_iff]
  have hwildcard : m.wildcard = n.wildcard := by rw [h.wildcard, hother.wildcard, hperm.countP_eq]
  cases n
  cases m
  simp_all

variable {lines : List String} {s : RuleSet}

theorem compile_eq_ok_iff :
    compile lines = .ok s ↔ ofPatterns ((ruleTexts lines).map Pattern.parse) = .ok s := by
  rw [compile, filterMap_ofLine?]

theorem countsOf_compile (compiles : compile lines = .ok s) :
    CountsOf (ruleTexts lines) s.counts := by
  obtain ⟨-, rfl⟩ := (ofPatterns_eq_ok_iff _ s).mp (compile_eq_ok_iff.mp compiles)
  constructor
  · change (AddressSet.ofList _).size = _
    rw [AddressSet.size_ofList]
    congr 1
    ext x
    simp only [Set.mem_ofPred_eq, List.mem_filterMap, List.mem_map, Pattern.address?_eq_some_iff]
    constructor
    · rintro ⟨a, ⟨_, ⟨text, htext, rfl⟩, haddress⟩, hcanonical⟩
      exact ⟨text, htext, a, haddress, hcanonical⟩
    · rintro ⟨text, htext, a, haddress, hcanonical⟩
      exact ⟨a, ⟨_, ⟨text, htext, rfl⟩, haddress⟩, hcanonical⟩
  · have hblocks : ∀ p : Pattern, p.block?.isSome = decide (p.family = .cidr) := by
      intro p
      cases p <;> rfl
    rw [counts, BlockSet.size, BlockSet.ofList, List.length_map, Pattern.length_filterMap hblocks,
      List.countP_map]
    rfl
  · change (DomainSet.ofTexts _).size = _
    rw [DomainSet.size_ofTexts]
    congr 1
    ext name
    simp only [Set.mem_ofPred_eq, List.mem_filterMap, List.mem_map, Pattern.domain?_eq_some_iff]
    constructor
    · rintro ⟨text, ⟨_, ⟨other, htext, rfl⟩, hdomain⟩, _, hdot, hlower⟩
      obtain ⟨hfamily, rfl⟩ := Pattern.parse_eq_domain_iff.mp hdomain
      exact ⟨text, htext, hfamily, hdot, hlower⟩
    · rintro ⟨text, htext, hfamily, hdot, hlower⟩
      exact ⟨text, ⟨_, ⟨text, htext, rfl⟩, Pattern.parse_eq_domain_iff.mpr ⟨hfamily, rfl⟩⟩,
        ne_of_mem_ruleTexts htext, hdot, hlower⟩
  · have hglobs : ∀ p : Pattern, p.glob?.isSome = decide (p.family = .wildcard) := by
      intro p
      cases p <;> rfl
    rw [counts, GlobSet.size, List.length_map, Pattern.length_filterMap hglobs, List.countP_map]
    rfl

theorem CountsOf.total_le {texts : List String} {n : RuleCounts} (h : CountsOf texts n) :
    n.total ≤ texts.length := by
  have hip : n.ip ≤ texts.countP fun text => (Pattern.parse text).family = .ip := by
    rw [h.ip]
    have hset : {x | ∃ text ∈ texts, ∃ a, Pattern.parse text = .address a ∧ a.canonical = x} =
        {x | ∃ text ∈ texts, (Pattern.parse text).address?.map Address.canonical = some x} := by
      simp
    rw [hset]
    apply ncard_le_countP
    intro text x hpick
    obtain ⟨a, haddress, -⟩ := Option.map_eq_some_iff.mp hpick
    rw [Pattern.address?_eq_some_iff.mp haddress]
    rfl
  have hdomain : n.domain ≤ texts.countP fun text => (Pattern.parse text).family = .domain := by
    rw [h.domain]
    have hset : {name | ∃ text ∈ texts, (Pattern.parse text).family = .domain ∧ text ≠ "." ∧
          lowerCase text = name} =
        {name | ∃ text ∈ texts, (if (Pattern.parse text).family = .domain ∧ text ≠ "." then
          some (lowerCase text) else none) = some name} := by
      simp [and_assoc]
    rw [hset]
    apply ncard_le_countP
    intro text name hpick
    split at hpick
    · next hfamily => simpa using hfamily.1
    · contradiction
  have hsum := Pattern.sum_countP_family (texts.map Pattern.parse)
  simp only [List.countP_map, List.length_map, Function.comp_def] at hsum
  rw [RuleCounts.total, h.cidr, h.wildcard]
  omega

theorem isEmpty_iff_total (s : RuleSet) : s.isEmpty = true ↔ s.counts.total = 0 := by
  simp [isEmpty, counts, RuleCounts.total, AddressSet.isEmpty, AddressSet.size, BlockSet.isEmpty,
    BlockSet.size, DomainSet.isEmpty, DomainSet.size, GlobSet.isEmpty, GlobSet.size, and_assoc]

/-- The counts of a rule set are those of its rules, by family: distinct addresses in canonical
form, blocks and globs as they are written, and distinct domains in small letters. Blank lines count
nowhere, the order of the lines does not matter, no more are counted than there are rules, and
nothing is counted only if the set is empty. -/
theorem counts_exact (compiles : compile lines = .ok s) :
    CountsOf (ruleTexts lines) s.counts ∧
    compile (lines.filter fun line => Text.trim line ≠ "") = .ok s ∧
    (∀ others, others.Perm lines → ∃ t, compile others = .ok t ∧ t.counts = s.counts) ∧
    s.counts.total ≤ (ruleTexts lines).length ∧
    (s.isEmpty = true ↔ s.counts.total = 0) := by
  have hcounts := countsOf_compile compiles
  refine ⟨hcounts, ?_, ?_, hcounts.total_le, s.isEmpty_iff_total⟩
  · rwa [compile_eq_ok_iff, ruleTexts_filter, ← compile_eq_ok_iff]
  · intro others hperm
    obtain ⟨t, hcompiles⟩ := exists_compile_of_perm hperm compiles
    refine ⟨t, hcompiles, hcounts.eq_of_perm (countsOf_compile hcompiles) ?_⟩
    exact (hperm.map Text.trim).filter _

/-- A name counts once with and once without a dot in front, whatever the case of its letters, and
an address once in both of its families. -/
theorem counts_exact_repeated :
    let lines := ["a.com", ".A.com", " A.COM ", ".a.com", ".", "", "10.0.0.1", "::ffff:a00:1",
      "10.0.0.0/8", "10.0.0.0/8", "*.x", "*.x"]
    ∃ s, compile lines = .ok s ∧ s.counts = ⟨1, 2, 2, 2⟩ ∧
      {name | ∃ text ∈ ruleTexts lines, (Pattern.parse text).family = .domain ∧ text ≠ "." ∧
        lowerCase text = name}.ncard = 2 ∧
      ∃ t, compile lines.reverse = .ok t ∧ t.counts = ⟨1, 2, 2, 2⟩ := by
  intro lines
  obtain ⟨s, compiles, hcounts⟩ : ∃ s, compile lines = .ok s ∧ s.counts = ⟨1, 2, 2, 2⟩ :=
    ⟨_, rfl, by decide⟩
  obtain ⟨hexact, _, hperm, _⟩ := counts_exact compiles
  rw [hcounts] at hexact hperm
  exact ⟨s, compiles, hcounts, hexact.domain.symm, hperm _ lines.reverse_perm⟩

end RuleSet

end HostPolicy
