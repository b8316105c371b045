import HostPolicy.Proofs.DomainSet
import HostPolicy.Proofs.Glob
import HostPolicy.Proofs.Pattern

/-!
# Rules and their own texts

Rule and candidate are put into different forms before they are compared: an address into canonical
form, a name into small letters and backwards, a glob into tokens. A candidate that is the rule's
own text meets the rule again, with one exception. A dot at the end of a name is dropped from the
candidate and not from the rule.
-/

namespace HostPolicy

/-! ### Domains -/

/-- A dot at the front can be moved to the end of dots only. -/
theorem append_dot_eq_cons_iff {name : List Char} :
    name ++ ['.'] = '.' :: name ↔ ∀ c ∈ name, c = '.' := by
  induction name with
  | nil => simp
  | cons c rest ih =>
      rw [List.cons_append, List.cons.injEq, List.forall_mem_cons]
      refine and_congr_right ?_
      rintro rfl
      exact ih

namespace DomainSet

variable {text : String}

theorem nameOf_eq_lowerCase (hlast : text.toList.getLast? ≠ some '.') :
    nameOf text = lowerCase text := by
  rw [nameOf_eq, withoutFinalDot, if_neg hlast, lowerCase]

theorem lowerCase_eq_nameOf_append (hlast : text.toList.getLast? = some '.') :
    lowerCase text = nameOf text ++ ['.'] := by
  obtain ⟨front, hfront⟩ := List.getLast?_eq_some_iff.mp hlast
  rw [nameOf_eq, withoutFinalDot, if_pos hlast, lowerCase, hfront, List.dropLast_concat,
    List.map_append]
  rfl

theorem forall_mem_lowerCase_iff :
    (∀ c ∈ lowerCase text, c = '.') ↔ ∀ c ∈ text.toList, c = '.' := by
  simp [lowerCase, Text.toLower_eq_iff (d := '.') rfl]

theorem lowerCase_eq_dot_iff : lowerCase text = ['.'] ↔ text = "." := by
  rw [lowerCase, List.map_eq_singleton_iff]
  constructor
  · rintro ⟨c, hchars, hdot⟩
    rw [(Text.toLower_eq_iff rfl).mp hdot] at hchars
    exact String.toList_injective hchars
  · rintro rfl
    exact ⟨'.', rfl, rfl⟩

theorem contains_own_of_not_dot (hne : text ≠ "") (hlast : text.toList.getLast? ≠ some '.') :
    (ofTexts [text]).contains text = true := by
  have hlower : lowerCase text ≠ [] := (lowerCase_eq_nil_iff text).not.mpr hne
  rw [contains_iff_rule, nameOf_eq_lowerCase hlast]
  refine ⟨hlower, ?_⟩
  by_cases hhead : text.toList.head? = some '.'
  · obtain ⟨own, hown⟩ := List.head?_eq_some_iff.mp ((head?_lowerCase_eq_dot_iff text).mpr hhead)
    refine Or.inr ⟨text, by simp, own, ?_, hown, Or.inr (hown ▸ List.suffix_refl _)⟩
    rintro rfl
    rw [lowerCase_eq_dot_iff.mp hown] at hlast
    exact hlast rfl
  · exact Or.inl ⟨text, by simp, hne, hhead, rfl⟩

/-- The rule keeps the dot that the candidate loses. They still meet if all characters are dots:
what follows the first one is what stands before the last one. -/
theorem contains_own_of_dot (hne : text ≠ ".") (hlast : text.toList.getLast? = some '.') :
    (ofTexts [text]).contains text = true ↔ ∀ c ∈ text.toList, c = '.' := by
  have hlower := lowerCase_eq_nameOf_append hlast
  have hdots : (∀ c ∈ text.toList, c = '.') ↔ ∀ c ∈ nameOf text, c = '.' := by
    rw [← forall_mem_lowerCase_iff, hlower, List.forall_mem_append]
    exact and_iff_left (by simp)
  rw [contains_iff_rule, hdots]
  constructor
  · rintro ⟨-, ⟨rule, hmem, -, -, hexact⟩ | ⟨rule, hmem, own, -, hown, hbelow⟩⟩
    · obtain rfl := List.mem_singleton.mp hmem
      rw [hlower] at hexact
      simp at hexact
    · obtain rfl := List.mem_singleton.mp hmem
      rw [hlower] at hown
      rcases hbelow with hsame | hsuffix
      · rw [← hsame] at hown
        exact append_dot_eq_cons_iff.mp hown
      · have hlength := hsuffix.length_le
        rw [← hown, List.length_append] at hlength
        exact absurd hlength (Nat.not_succ_le_self _)
  · intro hall
    have hnil : nameOf text ≠ [] := by
      intro hnil
      rw [hnil] at hlower
      exact hne (lowerCase_eq_dot_iff.mp hlower)
    have hcons := append_dot_eq_cons_iff.mpr hall
    exact ⟨hnil, Or.inr ⟨text, by simp, nameOf text, hnil, hlower.trans hcons, Or.inl rfl⟩⟩

/-- A name that ends in a dot is left of a candidate only if that ends in two. -/
theorem dots_suffix_of_nameOf {candidate : String}
    (hlast : (nameOf candidate).getLast? = some '.') : ['.', '.'] <:+ candidate.toList := by
  rw [nameOf_eq, getLast?_map_toLower_eq_dot_iff, withoutFinalDot] at hlast
  split at hlast
  · next hdot =>
      obtain ⟨front, hfront⟩ := List.getLast?_eq_some_iff.mp hdot
      rw [hfront, List.dropLast_concat] at hlast
      obtain ⟨before, hbefore⟩ := List.getLast?_eq_some_iff.mp hlast
      exact ⟨before, by simp [hfront, hbefore]⟩
  · next hdot => exact absurd hlast hdot

theorem getLast?_of_suffix {own name : List Char} (hsuffix : own <:+ name) (hne : own ≠ []) :
    own.getLast? = name.getLast? := by
  obtain ⟨front, rfl⟩ := hsuffix
  rw [List.getLast?_append_of_ne_nil front hne]

theorem dots_suffix_of_contains {candidate : String} (hlast : text.toList.getLast? = some '.')
    (hcontains : (ofTexts [text]).contains candidate = true) : ['.', '.'] <:+ candidate.toList := by
  have hlower : (lowerCase text).getLast? = some '.' :=
    (getLast?_map_toLower_eq_dot_iff text.toList).mpr hlast
  apply dots_suffix_of_nameOf
  obtain ⟨-, ⟨rule, hmem, -, -, hexact⟩ | ⟨rule, hmem, own, hown, hwithin, hbelow⟩⟩ :=
    (contains_iff_rule _ _).mp hcontains
  · obtain rfl := List.mem_singleton.mp hmem
    rwa [← hexact]
  · obtain rfl := List.mem_singleton.mp hmem
    have hname : own <:+ nameOf candidate := by
      rcases hbelow with hsame | hsuffix
      · exact hsame ▸ List.suffix_refl _
      · exact (List.suffix_cons '.' own).trans hsuffix
    have hrule : own <:+ lowerCase rule := hwithin ▸ List.suffix_cons '.' own
    rw [← getLast?_of_suffix hname hown, getLast?_of_suffix hrule hown, hlower]

end DomainSet

/-! ### All families -/

namespace Pattern

theorem accepts_domain_iff {name candidate : String} :
    (domain name).accepts candidate = true ↔
      Address.parse? candidate = none ∧ (DomainSet.ofTexts [name]).contains candidate = true := by
  rw [DomainSet.contains_ofTexts]
  unfold accepts
  cases Address.parse? candidate <;> simp

theorem accepts_address_iff {a : Address} {candidate : String} :
    (address a).accepts candidate = true ↔
      ∃ x, Address.parse? candidate = some x ∧ a.canonical = x.canonical := by
  unfold accepts
  cases Address.parse? candidate <;> simp

theorem accepts_glob_iff {g candidate : String} :
    (glob g).accepts candidate = true ↔
      Address.parse? candidate = none ∧ Glob.Cuts g.toList candidate.toList := by
  rw [← Glob.accepts_ofText_iff]
  unfold accepts
  cases Address.parse? candidate <;> simp

theorem accepts_own_iff {text : String} (hne : text ≠ "") (hdot : text ≠ ".")
    (hblock : (parse text).family ≠ .cidr) :
    (parse text).accepts text = true ↔
      ((parse text).family = .domain → text.toList.getLast? = some '.' →
        ∀ c ∈ text.toList, c = '.') := by
  rcases parse_cases text with ⟨a, haddress, hparse⟩ | ⟨b, hparse⟩ | ⟨haddress, hparse | hparse⟩
  · rw [hparse, accepts_address_iff]
    exact iff_of_true ⟨a, haddress, rfl⟩ fun hdomain => by contradiction
  · exact absurd (hparse ▸ rfl) hblock
  · rw [hparse, accepts_glob_iff]
    exact iff_of_true ⟨haddress, Glob.cuts_self text.toList⟩ fun hdomain => by contradiction
  · rw [hparse, accepts_domain_iff, and_iff_right haddress]
    by_cases hlast : text.toList.getLast? = some '.'
    · rw [DomainSet.contains_own_of_dot hdot hlast]
      exact ⟨fun hall _ _ => hall, fun himp => himp rfl hlast⟩
    · exact iff_of_true (DomainSet.contains_own_of_not_dot hne hlast) fun _ hdot' =>
        absurd hdot' hlast

theorem dots_suffix_of_accepts {text candidate : String} (hdomain : (parse text).family = .domain)
    (hlast : text.toList.getLast? = some '.') (haccepts : (parse text).accepts candidate = true) :
    ['.', '.'] <:+ candidate.toList := by
  rcases parse_cases text with ⟨a, -, hparse⟩ | ⟨b, hparse⟩ | ⟨-, hparse | hparse⟩
  · simp [hparse, family] at hdomain
  · simp [hparse, family] at hdomain
  · simp [hparse, family] at hdomain
  · rw [hparse, accepts_domain_iff] at haccepts
    exact DomainSet.dots_suffix_of_contains hlast haccepts.2

theorem glob?_eq_none {p : Pattern} (hwild : p.family ≠ .wildcard) : p.glob? = none := by
  cases p with
  | glob g => exact absurd rfl hwild
  | address a => rfl
  | block b => rfl
  | domain name => rfl

end Pattern

namespace RuleSet

/-- A rule that is no block accepts its own text, unless it is a domain that ends in a dot and has
other characters too. A domain that ends in a dot accepts only what ends in two. All but globs
compile. -/
theorem accepts_own_text (text : String) (htrim : Text.trim text = text) (hne : text ≠ "")
    (hdot : text ≠ ".") (hblock : (Pattern.parse text).family ≠ .cidr) :
    (∀ s, compile [text] = .ok s →
      (s.accepts text = true ↔ ((Pattern.parse text).family = .domain →
        text.toList.getLast? = some '.' → ∀ c ∈ text.toList, c = '.')) ∧
      ((Pattern.parse text).family = .domain → text.toList.getLast? = some '.' →
        ∀ candidate, s.accepts candidate = true → ['.', '.'] <:+ candidate.toList)) ∧
    ((Pattern.parse text).family ≠ .wildcard → ∃ s, compile [text] = .ok s) := by
  have hline : Pattern.ofLine? text = some (Pattern.parse text) := by
    simp [Pattern.ofLine?, htrim, hne]
  refine ⟨fun s compiles => ?_, fun hwild => ?_⟩
  · have haccepts (candidate : String) :
        s.accepts candidate = true ↔ (Pattern.parse text).accepts candidate = true := by
      rw [accepts_compile_singleton compiles, hline]
      simp
    refine ⟨(haccepts text).trans (Pattern.accepts_own_iff hne hdot hblock), ?_⟩
    intro hdomain hlast candidate hcandidate
    exact Pattern.dots_suffix_of_accepts hdomain hlast ((haccepts candidate).mp hcandidate)
  · have hsize : globSize [text] = 0 := by
      rw [globSize, List.filterMap_cons_some hline, List.filterMap_nil,
        List.filterMap_cons_none (Pattern.glob?_eq_none hwild)]
      rfl
    exact exists_compile_iff.mpr (hsize ▸ Nat.zero_le _)

theorem accepts_own_text_domains :
    (∃ s, compile [".Example.com"] = .ok s ∧ s.accepts ".Example.com" = true) ∧
      ∃ s, compile ["example.com."] = .ok s ∧ s.accepts "example.com" = false := by
  constructor
  · obtain ⟨haccepts, hcompiles⟩ := accepts_own_text ".Example.com" (by decide) (by decide)
      (by decide) (by decide)
    obtain ⟨s, compiles⟩ := hcompiles (by decide)
    exact ⟨s, compiles, (haccepts s compiles).1.mpr fun _ hlast => absurd hlast (by decide)⟩
  · obtain ⟨haccepts, hcompiles⟩ := accepts_own_text "example.com." (by decide) (by decide)
      (by decide) (by decide)
    obtain ⟨s, compiles⟩ := hcompiles (by decide)
    refine ⟨s, compiles, Bool.eq_false_iff.mpr fun hcandidate => ?_⟩
    have hdots := (haccepts s compiles).2 (by decide) (by decide) "example.com" hcandidate
    revert hdots
    decide

/-- The rule compiles and is counted, and its own text is not accepted. -/
theorem refuses_own_text : Text.trim "example.com." = "example.com." ∧
    (Pattern.parse "example.com.").family = .domain ∧
      ∃ s, compile ["example.com."] = .ok s ∧ s.counts = ⟨0, 0, 1, 0⟩ ∧
        s.accepts "example.com." = false :=
  ⟨by decide, by decide, _, rfl, by decide, by decide⟩

end RuleSet

end HostPolicy
