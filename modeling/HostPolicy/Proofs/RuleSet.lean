import HostPolicy.RuleSet
import Mathlib.Data.List.Basic

/-!
# A rule set is the union of its rules

Each pattern by itself says which candidates it accepts, and a compiled rule set accepts what one
of its patterns does. Compiling sorts the patterns into four collections and keeps some of them
once only, but none takes the place of another there.
-/

namespace HostPolicy

/-! ### One rule -/

def DomainRule.accepts (rule : DomainRule) (candidate : String) : Bool :=
  let name := DomainSet.nameOf candidate
  !name.isEmpty &&
    match rule with
    | exact own => own == name
    | within own => DomainSet.startsWithKey (DomainSet.key name) (DomainSet.key own)

/-- What a pattern accepts by itself: addresses if it is an address or a block, and any other text
if it is a domain or a glob. -/
def Pattern.accepts (p : Pattern) (candidate : String) : Bool :=
  match Address.parse? candidate, p with
  | some x, address a => a.canonical == x.canonical
  | some x, block b => b.network.contains x.canonical
  | none, domain name => (DomainRule.ofText? name).any (·.accepts candidate)
  | none, glob g => (Glob.ofText g).accepts candidate
  | _, _ => false

theorem Pattern.family_of_accepts {p : Pattern} {candidate : String}
    (haccepts : p.accepts candidate = true) :
    p.family ∈ if (Address.parse? candidate).isSome then [Family.ip, .cidr]
      else [.domain, .wildcard] := by
  unfold Pattern.accepts at haccepts
  cases hparse : Address.parse? candidate <;> cases p <;> simp_all [Pattern.family]

@[simp]
theorem Pattern.address?_eq_some_iff {p : Pattern} {a : Address} :
    p.address? = some a ↔ p = address a := by
  cases p <;> simp [address?]

@[simp]
theorem Pattern.block?_eq_some_iff {p : Pattern} {b : Block} :
    p.block? = some b ↔ p = block b := by
  cases p <;> simp [block?]

@[simp]
theorem Pattern.domain?_eq_some_iff {p : Pattern} {name : String} :
    p.domain? = some name ↔ p = domain name := by
  cases p <;> simp [domain?]

@[simp]
theorem Pattern.glob?_eq_some_iff {p : Pattern} {g : String} :
    p.glob? = some g ↔ p = glob g := by
  cases p <;> simp [glob?]

/-! ### Each collection -/

theorem AddressSet.contains_ofList (addresses : List Address) (x : Address) :
    (ofList addresses).contains x = true ↔ ∃ a ∈ addresses, a.canonical = x.canonical := by
  simp [contains, ofList]

theorem BlockSet.contains_ofList (blocks : List Block) (x : Address) :
    (ofList blocks).contains x = true ↔
      ∃ b ∈ blocks, b.network.contains x.canonical = true := by
  simp [contains, ofList]

section Domains

variable (texts : List String)

theorem DomainSet.mem_exact_ofTexts (name : List Char) :
    name ∈ (ofTexts texts).exact ↔
      ∃ text ∈ texts, DomainRule.ofText? text = some (.exact name) := by
  simp only [ofTexts, rules, List.mem_eraseDups, List.mem_filterMap]
  constructor
  · rintro ⟨rule, ⟨text, hmem, hrule⟩, hexact⟩
    cases rule with
    | exact own =>
        cases hexact
        exact ⟨text, hmem, hrule⟩
    | within own => contradiction
  · rintro ⟨text, hmem, hrule⟩
    exact ⟨.exact name, ⟨text, hmem, hrule⟩, rfl⟩

theorem DomainSet.mem_keys_ofTexts (k : List Char) :
    k ∈ (ofTexts texts).keys ↔
      ∃ text ∈ texts, ∃ own, DomainRule.ofText? text = some (.within own) ∧ key own = k := by
  simp only [ofTexts, rules, List.mem_eraseDups, List.mem_filterMap]
  constructor
  · rintro ⟨rule, ⟨text, hmem, hrule⟩, hkey⟩
    cases rule with
    | exact own => contradiction
    | within own => exact ⟨text, hmem, own, hrule, Option.some.inj hkey⟩
  · rintro ⟨text, hmem, own, hrule, rfl⟩
    exact ⟨.within own, ⟨text, hmem, hrule⟩, rfl⟩

/-- A name that is kept once stands for all rules that give it, and no key hides another, as all
are tried. -/
theorem DomainSet.contains_ofTexts (candidate : String) :
    (ofTexts texts).contains candidate = true ↔
      ∃ text ∈ texts, (DomainRule.ofText? text).any (·.accepts candidate) = true := by
  simp only [contains, Bool.and_eq_true, Bool.or_eq_true, List.contains_iff_mem, List.any_eq_true,
    mem_exact_ofTexts, mem_keys_ofTexts, Option.any_eq_true]
  constructor
  · rintro ⟨hname, ⟨text, hmem, hrule⟩ | ⟨_, ⟨text, hmem, own, hrule, rfl⟩, hkey⟩⟩
    · exact ⟨text, hmem, _, hrule, by simp [DomainRule.accepts, hname]⟩
    · exact ⟨text, hmem, _, hrule, by simp [DomainRule.accepts, hname, hkey]⟩
  · rintro ⟨text, hmem, rule, hrule, haccepts⟩
    simp only [DomainRule.accepts, Bool.and_eq_true] at haccepts
    refine ⟨haccepts.1, ?_⟩
    cases rule with
    | exact own =>
        have hsame : own = nameOf candidate := by simpa using haccepts.2
        exact Or.inl ⟨text, hmem, hsame ▸ hrule⟩
    | within own => exact Or.inr ⟨key own, ⟨text, hmem, own, hrule, rfl⟩, haccepts.2⟩

end Domains

theorem GlobSet.compile_eq_ok_iff (globs : List String) (s : GlobSet) :
    compile globs = .ok s ↔
      compiledSize globs ≤ sizeLimit ∧ s = ⟨globs.map Glob.ofText⟩ := by
  unfold compile
  split
  · next hlarge => simp [Nat.not_le.mpr hlarge]
  · next hfits => simp [Nat.le_of_not_lt hfits, eq_comm]

theorem GlobSet.compiledSize_cons (g : String) (globs : List String) :
    compiledSize (g :: globs) = 80 * g.length + compiledSize globs := rfl

theorem GlobSet.compiledSize_le_of_sublist {few all : List String} (h : few.Sublist all) :
    compiledSize few ≤ compiledSize all := by
  induction h with
  | slnil => exact Nat.le_refl _
  | cons g _ ih =>
      rw [compiledSize_cons]
      omega
  | cons_cons g _ ih =>
      rw [compiledSize_cons, compiledSize_cons]
      omega

theorem GlobSet.compiledSize_eq_of_perm {globs others : List String} (h : globs.Perm others) :
    compiledSize globs = compiledSize others := by
  induction h with
  | nil => rfl
  | cons g _ ih => rw [compiledSize_cons, compiledSize_cons, ih]
  | swap g h _ =>
      simp only [compiledSize_cons]
      omega
  | trans _ _ first second => exact first.trans second

theorem GlobSet.accepts_ofGlobs (globs : List String) (candidate : String) :
    (GlobSet.mk (globs.map Glob.ofText)).accepts candidate = true ↔
      ∃ g ∈ globs, (Glob.ofText g).accepts candidate = true := by
  cases globs with
  | nil => simp [accepts]
  | cons g rest => simp [accepts, Glob.accepts]

/-! ### All together -/

namespace RuleSet

theorem ofPatterns_eq_ok_iff (patterns : List Pattern) (s : RuleSet) :
    ofPatterns patterns = .ok s ↔
      GlobSet.compiledSize (patterns.filterMap Pattern.glob?) ≤ GlobSet.sizeLimit ∧
        s = { addresses := .ofList (patterns.filterMap Pattern.address?)
              blocks := .ofList (patterns.filterMap Pattern.block?)
              domains := .ofTexts (patterns.filterMap Pattern.domain?)
              globs := ⟨(patterns.filterMap Pattern.glob?).map Glob.ofText⟩ } := by
  unfold ofPatterns
  cases hglobs : GlobSet.compile (patterns.filterMap Pattern.glob?) with
  | ok globs =>
      obtain ⟨hfits, rfl⟩ := (GlobSet.compile_eq_ok_iff _ _).mp hglobs
      simp [Except.map, hfits, eq_comm]
  | error error =>
      have hlarge : ¬GlobSet.compiledSize (patterns.filterMap Pattern.glob?) ≤ GlobSet.sizeLimit :=
        fun hfits => by
          rw [(GlobSet.compile_eq_ok_iff _ _).mpr ⟨hfits, rfl⟩] at hglobs
          contradiction
      simp [Except.map, hlarge]

theorem accepts_ofPatterns {patterns : List Pattern} {s : RuleSet}
    (compiles : ofPatterns patterns = .ok s) (candidate : String) :
    s.accepts candidate = true ↔ ∃ p ∈ patterns, p.accepts candidate = true := by
  obtain ⟨_, rfl⟩ := (ofPatterns_eq_ok_iff patterns s).mp compiles
  unfold accepts Pattern.accepts
  cases hparse : Address.parse? candidate with
  | some x =>
      simp only [Bool.or_eq_true, AddressSet.contains_ofList, BlockSet.contains_ofList,
        List.mem_filterMap, Pattern.address?_eq_some_iff, Pattern.block?_eq_some_iff,
        exists_eq_right]
      constructor
      · rintro (⟨a, hmem, hsame⟩ | ⟨b, hmem, hcontains⟩)
        · exact ⟨.address a, hmem, by simpa using hsame⟩
        · exact ⟨.block b, hmem, hcontains⟩
      · rintro ⟨p, hmem, haccepts⟩
        cases p with
        | address a => exact Or.inl ⟨a, hmem, by simpa using haccepts⟩
        | block b => exact Or.inr ⟨b, hmem, haccepts⟩
        | domain name => contradiction
        | glob g => contradiction
  | none =>
      simp only [Bool.or_eq_true, DomainSet.contains_ofTexts, GlobSet.accepts_ofGlobs,
        List.mem_filterMap, Pattern.domain?_eq_some_iff, Pattern.glob?_eq_some_iff,
        exists_eq_right]
      constructor
      · rintro (⟨name, hmem, haccepts⟩ | ⟨g, hmem, haccepts⟩)
        · exact ⟨.domain name, hmem, haccepts⟩
        · exact ⟨.glob g, hmem, haccepts⟩
      · rintro ⟨p, hmem, haccepts⟩
        cases p with
        | address a => contradiction
        | block b => contradiction
        | domain name => exact Or.inl ⟨name, hmem, haccepts⟩
        | glob g => exact Or.inr ⟨g, hmem, haccepts⟩

/-! ### Lists of lines -/

def globSize (lines : List String) : Nat :=
  GlobSet.compiledSize ((lines.filterMap Pattern.ofLine?).filterMap Pattern.glob?)

theorem exists_compile_iff {lines : List String} :
    (∃ s, compile lines = .ok s) ↔ globSize lines ≤ GlobSet.sizeLimit := by
  constructor
  · rintro ⟨s, compiles⟩
    exact ((ofPatterns_eq_ok_iff _ s).mp compiles).1
  · intro hfits
    exact ⟨_, (ofPatterns_eq_ok_iff _ _).mpr ⟨hfits, rfl⟩⟩

theorem exists_compile_of_sublist {few lines : List String} {s : RuleSet}
    (h : few.Sublist lines) (compiles : compile lines = .ok s) : ∃ t, compile few = .ok t := by
  have hfits := exists_compile_iff.mp ⟨s, compiles⟩
  have hsize : globSize few ≤ globSize lines :=
    GlobSet.compiledSize_le_of_sublist ((h.filterMap Pattern.ofLine?).filterMap Pattern.glob?)
  exact exists_compile_iff.mpr (Nat.le_trans hsize hfits)

theorem exists_error_of_sublist {few lines : List String} {error : RuleError}
    (h : few.Sublist lines) (fails : compile few = .error error) :
    ∃ error, compile lines = .error error := by
  cases hcompile : compile lines with
  | ok s =>
      obtain ⟨t, compiles⟩ := exists_compile_of_sublist h hcompile
      rw [fails] at compiles
      contradiction
  | error error => exact ⟨error, rfl⟩

/-- A glob can be too large by itself. -/
theorem exists_error_of_glob {line glob : String} (hglob : Pattern.ofLine? line = some (.glob glob))
    (hlarge : GlobSet.sizeLimit < 80 * glob.length) : ∃ error, compile [line] = .error error := by
  cases hcompile : compile [line] with
  | ok s =>
      have hfits : globSize [line] ≤ GlobSet.sizeLimit := exists_compile_iff.mp ⟨s, hcompile⟩
      rw [globSize, List.filterMap_cons_some hglob,
        List.filterMap_cons_some (Pattern.glob?_eq_some_iff.mpr rfl),
        GlobSet.compiledSize_cons] at hfits
      exact absurd hlarge (Nat.not_lt.mpr (Nat.le_trans (Nat.le_add_right _ _) hfits))
  | error error => exact ⟨error, rfl⟩

theorem exists_compile_of_perm {others lines : List String} {s : RuleSet}
    (h : others.Perm lines) (compiles : compile lines = .ok s) : ∃ t, compile others = .ok t := by
  have hfits := exists_compile_iff.mp ⟨s, compiles⟩
  have hsize : globSize others = globSize lines :=
    GlobSet.compiledSize_eq_of_perm ((h.filterMap Pattern.ofLine?).filterMap Pattern.glob?)
  exact exists_compile_iff.mpr (hsize ▸ hfits)

theorem accepts_compile {lines : List String} {s : RuleSet} (compiles : compile lines = .ok s)
    (candidate : String) :
    s.accepts candidate = true ↔
      ∃ line ∈ lines, ∃ p, Pattern.ofLine? line = some p ∧ p.accepts candidate = true := by
  rw [accepts_ofPatterns compiles]
  simp only [List.mem_filterMap]
  constructor
  · rintro ⟨p, ⟨line, hmem, hline⟩, haccepts⟩
    exact ⟨line, hmem, p, hline, haccepts⟩
  · rintro ⟨line, hmem, p, hline, haccepts⟩
    exact ⟨p, ⟨line, hmem, hline⟩, haccepts⟩

theorem accepts_compile_singleton {line : String} {own : RuleSet}
    (compiles : compile [line] = .ok own) (candidate : String) :
    own.accepts candidate = true ↔
      ∃ p, Pattern.ofLine? line = some p ∧ p.accepts candidate = true := by
  rw [accepts_compile compiles]
  simp

/-- A rule set accepts what one of its rules accepts that is compiled alone. -/
theorem accepts_iff_alone {lines : List String} {s : RuleSet} (compiles : compile lines = .ok s)
    (candidate : String) :
    s.accepts candidate = true ↔
      ∃ line ∈ lines, ∃ own, compile [line] = .ok own ∧ own.accepts candidate = true := by
  rw [accepts_compile compiles]
  constructor
  · rintro ⟨line, hmem, hrule⟩
    obtain ⟨own, halone⟩ := exists_compile_of_sublist (List.singleton_sublist.mpr hmem) compiles
    exact ⟨line, hmem, own, halone, (accepts_compile_singleton halone candidate).mpr hrule⟩
  · rintro ⟨line, hmem, own, halone, haccepts⟩
    exact ⟨line, hmem, (accepts_compile_singleton halone candidate).mp haccepts⟩

/-- Whatever one of these rules accepts that is compiled alone, the rule set accepts too. -/
def Includes (s : RuleSet) (lines : List String) : Prop :=
  ∀ line ∈ lines, ∀ own, compile [line] = .ok own →
    ∀ candidate, own.accepts candidate = true → s.accepts candidate = true

theorem includes_of_compile {lines more : List String} {s : RuleSet}
    (compiles : compile (lines ++ more) = .ok s) : s.Includes lines := by
  intro line hmem own halone candidate haccepts
  apply (accepts_iff_alone compiles candidate).mpr
  exact ⟨line, List.mem_append_left more hmem, own, halone, haccepts⟩

theorem accepts_empty (candidate : String) : empty.accepts candidate = false := by
  unfold accepts
  cases Address.parse? candidate with
  | some x => rfl
  | none => simp [empty, DomainSet.empty, DomainSet.contains, GlobSet.empty, GlobSet.accepts]

theorem trim_ne_of_accepts {line candidate : String} {own : RuleSet}
    (compiles : compile [line] = .ok own) (haccepts : own.accepts candidate = true) :
    Text.trim line ≠ "" ∧ (Pattern.parse (Text.trim line)).accepts candidate = true := by
  obtain ⟨p, hline, hp⟩ := (accepts_compile_singleton compiles candidate).mp haccepts
  unfold Pattern.ofLine? at hline
  dsimp only at hline
  split at hline
  · simp at hline
  · next hne =>
      rw [← Option.some.inj hline] at hp
      exact ⟨hne, hp⟩

/-- A rule set accepts a candidate exactly when one of its rules does that is no blank and is
compiled alone. Hence the order of the rules and how often each is written do not matter, two lists
together accept what one of them does, and only addresses and blocks accept an address, and only
domains and globs any other text. -/
theorem compile_union {lines : List String} {s : RuleSet} (compiles : compile lines = .ok s)
    (candidate : String) :
    (s.accepts candidate = true ↔ ∃ line ∈ lines, Text.trim line ≠ "" ∧
      ∃ own, compile [line] = .ok own ∧ own.accepts candidate = true) ∧
    (∀ line ∈ lines, ∃ own, compile [line] = .ok own) ∧
    (∀ others, others.Perm lines → ∃ t, compile others = .ok t) ∧
    (∀ others t, (∀ line, line ∈ others ↔ line ∈ lines) → compile others = .ok t →
      t.accepts candidate = s.accepts candidate) ∧
    (∀ first second, lines = first ++ second → ∃ a b, compile first = .ok a ∧
      compile second = .ok b ∧ s.accepts candidate = (a.accepts candidate || b.accepts candidate)) ∧
    ∀ line own, compile [line] = .ok own → own.accepts candidate = true →
      (Pattern.parse (Text.trim line)).family ∈
        if (Address.parse? candidate).isSome then [Family.ip, .cidr] else [.domain, .wildcard] := by
  refine ⟨?_, ?_, ?_, ?_, ?_, ?_⟩
  · rw [accepts_iff_alone compiles]
    constructor
    · rintro ⟨line, hmem, own, halone, haccepts⟩
      exact ⟨line, hmem, (trim_ne_of_accepts halone haccepts).1, own, halone, haccepts⟩
    · rintro ⟨line, hmem, _, own, halone, haccepts⟩
      exact ⟨line, hmem, own, halone, haccepts⟩
  · intro line hmem
    exact exists_compile_of_sublist (List.singleton_sublist.mpr hmem) compiles
  · intro others hperm
    exact exists_compile_of_perm hperm compiles
  · intro others t hsame hcompiles
    rw [Bool.eq_iff_iff, accepts_compile hcompiles, accepts_compile compiles]
    simp only [hsame]
  · rintro first second rfl
    obtain ⟨a, ha⟩ := exists_compile_of_sublist (List.sublist_append_left first second) compiles
    obtain ⟨b, hb⟩ := exists_compile_of_sublist (List.sublist_append_right first second) compiles
    refine ⟨a, b, ha, hb, ?_⟩
    rw [Bool.eq_iff_iff, Bool.or_eq_true, accepts_compile compiles, accepts_compile ha,
      accepts_compile hb]
    simp only [List.mem_append, or_and_right, exists_or]
  · intro line own halone haccepts
    exact Pattern.family_of_accepts (trim_ne_of_accepts halone haccepts).2

theorem compile_union_mixed :
    let lines := [" *.example.com", "", ".Example.com ", "10.0.0.0/8", "::ffff:10.0.0.1"]
    ∃ s, compile lines = .ok s ∧ s.accepts "10.0.0.1" = true ∧
      (∃ line ∈ lines, Text.trim line ≠ "" ∧
        ∃ own, compile [line] = .ok own ∧ own.accepts "10.0.0.1" = true) ∧
      ∃ a b, compile (lines.take 3) = .ok a ∧ compile (lines.drop 3) = .ok b ∧
        s.accepts "10.0.0.1" = (a.accepts "10.0.0.1" || b.accepts "10.0.0.1") := by
  intro lines
  obtain ⟨s, compiles, haccepts⟩ : ∃ s, compile lines = .ok s ∧ s.accepts "10.0.0.1" = true :=
    ⟨_, rfl, by decide⟩
  obtain ⟨hunion, _, _, _, happend, _⟩ := compile_union compiles "10.0.0.1"
  exact ⟨s, compiles, haccepts, hunion.mp haccepts,
    happend _ _ (List.take_append_drop 3 lines).symm⟩

end RuleSet

end HostPolicy
