import HostPolicy.Proofs.Address.LetterCase
import HostPolicy.Proofs.Endpoint
import HostPolicy.Proofs.RuleSet

/-!
# Letter case does not matter

Two texts that differ in the case of their letters only have hosts that do, and so do the patterns
that they are, which are of one family. Compiling leaves no difference between such patterns, and a
rule set accepts both candidates or neither.
-/

namespace HostPolicy

open Text

/-! ### Hosts -/

namespace Endpoint

section Chars

variable (cs : List Char)

theorem cutLastColon_map_toLower : cutLastColon (cs.map Char.toLower) =
    (cutLastColon cs).map (Prod.map (List.map Char.toLower) (List.map Char.toLower)) := by
  have hcolon : ∀ c : Char, (c.toLower != ':') = (c != ':') := fun c => by
    rw [bne, bne, toLower_beq rfl]
  unfold cutLastColon
  rw [← List.map_reverse, dropWhile_map_toLower hcolon, takeWhile_map_toLower hcolon]
  cases cs.reverse.dropWhile (· != ':') with
  | nil => rfl
  | cons _ before =>
      rw [List.map_cons, ← List.map_reverse]
      simp

theorem hostBefore_of_ne {c : Char} (hc : c ≠ '[') :
    hostBefore (c :: cs) = if ':' ∈ c :: cs then none else some (c :: cs) := by
  unfold hostBefore
  split
  · next heq => exact absurd (List.head_eq_of_cons_eq heq) hc
  · rfl

theorem hostBefore_map_toLower :
    hostBefore (cs.map Char.toLower) = (hostBefore cs).map (List.map Char.toLower) := by
  cases cs with
  | nil => rfl
  | cons c rest =>
      by_cases hc : c = '['
      · subst hc
        have hlast : (rest.map Char.toLower).getLast? = some ']' ↔ rest.getLast? = some ']' := by
          rw [List.getLast?_map, Option.map_eq_some_iff]
          simp [toLower_eq_iff (show ']'.isAlpha = false from rfl)]
        change (if (rest.map Char.toLower).getLast? = some ']' then
            some (rest.map Char.toLower).dropLast else none) =
          Option.map (List.map Char.toLower)
            (if rest.getLast? = some ']' then some rest.dropLast else none)
        rw [apply_ite (Option.map (List.map Char.toLower)), ← List.map_dropLast]
        exact if_congr hlast rfl rfl
      · have hsmall : c.toLower ≠ '[' := fun heq => hc ((toLower_eq_iff rfl).mp heq)
        rw [List.map_cons, hostBefore_of_ne _ hsmall, hostBefore_of_ne _ hc, ← List.map_cons,
          apply_ite (Option.map (List.map Char.toLower))]
        exact if_congr (mem_map_toLower rfl) rfl rfl

theorem any_isBracket_map_toLower : (cs.map Char.toLower).any isBracket = cs.any isBracket :=
  any_map_toLower (fun c => by rw [isBracket, isBracket, toLower_beq rfl, toLower_beq rfl]) cs

theorem splitChars_map_toLower : splitChars (cs.map Char.toLower) =
    (splitChars cs).map (Prod.map (List.map Char.toLower) (List.map Char.toLower)) := by
  unfold splitChars
  simp only [cutLastColon_map_toLower, hostBefore_map_toLower, any_isBracket_map_toLower,
    Option.bind_eq_bind, Option.bind_map, Option.map_bind, Function.comp_def, Prod.map,
    apply_ite (Option.map (Prod.map (List.map Char.toLower) (List.map Char.toLower)))]
  rfl

/-- A port is written without letters. -/
theorem isPort_map_toLower : isPort (cs.map Char.toLower) = isPort cs := by
  have hsame (hchars : ∀ c ∈ cs, c.isDigit = true ∨ c = '+') : cs.map Char.toLower = cs := by
    calc cs.map Char.toLower
        = cs.map id := by
          refine List.map_congr_left fun c hmem => ?_
          rcases hchars c hmem with hdigit | rfl
          · exact toLower_of_isDigit hdigit
          · rfl
      _ = cs := List.map_id cs
  rw [Bool.eq_iff_iff]
  constructor
  · intro hport
    rw [hsame] at hport
    · exact hport
    · intro c hmem
      have hchar := (isPort_iff.mp hport).digit_or_plus _ (List.mem_map_of_mem hmem)
      rwa [isDigit_toLower, toLower_eq_iff rfl] at hchar
  · intro hport
    rwa [hsame (isPort_iff.mp hport).digit_or_plus]

theorem hostChars_map_toLower :
    hostChars (cs.map Char.toLower) = (hostChars cs).map Char.toLower := by
  unfold hostChars
  rw [splitChars_map_toLower]
  cases splitChars cs with
  | none => rfl
  | some split =>
      obtain ⟨name, port⟩ := split
      simp only [Option.map_some, Prod.map, List.isEmpty_map, isPort_map_toLower]
      exact (apply_ite (List.map Char.toLower) _ _ _).symm

end Chars

theorem host_congr {s t : String} (same : lowerCase s = lowerCase t) :
    lowerCase (host s) = lowerCase (host t) := by
  have hsmall : ∀ text : String, lowerCase (host text) = hostChars (lowerCase text) := by
    intro text
    rw [lowerCase, host, String.toList_ofList, ← hostChars_map_toLower]
    rfl
  rw [hsmall s, hsmall t, same]

end Endpoint

/-! ### Patterns -/

def smallText (text : String) : String :=
  String.ofList (lowerCase text)

theorem lowerCase_smallText (text : String) : lowerCase (smallText text) = lowerCase text := by
  have htwice : ∀ c : Char, c.toLower.toLower = c.toLower := apply_toLower (by decide)
  rw [smallText, lowerCase, String.toList_ofList, lowerCase, List.map_map]
  exact List.map_congr_left fun c _ => htwice c

theorem length_smallText (text : String) : (smallText text).length = text.length := by
  rw [smallText, String.length_ofList, lowerCase, List.length_map, String.length_toList]

theorem eq_empty_iff_of_lowerCase_eq {s t : String} (same : lowerCase s = lowerCase t) :
    s = "" ↔ t = "" := by
  have hempty : ∀ text : String, text = "" ↔ lowerCase text = [] := by
    intro text
    simp [lowerCase]
  rw [hempty s, hempty t, same]

namespace Pattern

/-- The pattern with its text, if it keeps one, in small letters. -/
def small : Pattern → Pattern
  | address a => address a
  | block b => block b
  | domain name => domain (smallText name)
  | glob g => glob (smallText g)

/-- Recasing a text does not make it a pattern of another family. -/
theorem small_parse_congr {s t : String} (same : lowerCase s = lowerCase t) :
    (parse s).small = (parse t).small := by
  have hwild : ∀ text : String, text.toList.any isWild = (lowerCase text).any isWild := by
    intro text
    refine (any_map_toLower (fun c => ?_) text.toList).symm
    rw [isWild, isWild, toLower_beq rfl, toLower_beq rfl]
  have hsmall : smallText s = smallText t := congrArg String.ofList same
  unfold parse
  rw [Address.parse?_congr same, Block.parse?_congr same, hwild s, hwild t, same]
  cases Address.parse? t with
  | some a => rfl
  | none =>
      cases Block.parse? t with
      | some b => rfl
      | none =>
          cases (lowerCase t).any isWild with
          | true => exact congrArg glob hsmall
          | false => exact congrArg domain hsmall

theorem small_ofLine?_congr {s t : String} (same : lowerCase s = lowerCase t) :
    (ofLine? s).map small = (ofLine? t).map small := by
  have htrim : lowerCase (trim s) = lowerCase (trim t) := by
    have hsmall : ∀ line : String, lowerCase (trim line) = trimChars (lowerCase line) := by
      intro line
      rw [lowerCase, trim, String.toList_ofList, ← trimChars_map_toLower]
      rfl
    rw [hsmall s, hsmall t, same]
  unfold ofLine?
  dsimp only
  rw [apply_ite (Option.map small), apply_ite (Option.map small)]
  exact if_congr (eq_empty_iff_of_lowerCase_eq htrim) rfl
    (congrArg some (small_parse_congr htrim))

end Pattern

/-! ### Collections -/

theorem DomainSet.ofTexts_map_smallText (texts : List String) :
    ofTexts (texts.map smallText) = ofTexts texts := by
  have hrule : ∀ text : String, DomainRule.ofText? (smallText text) = DomainRule.ofText? text := by
    intro text
    rw [DomainRule.ofText?, lowerCase_smallText]
    rfl
  have hrules : rules (texts.map smallText) = rules texts := by
    rw [rules, rules, List.filterMap_map]
    exact List.filterMap_congr fun text _ => hrule text
  rw [ofTexts, ofTexts, hrules]

theorem Glob.token_toLower (c : Char) : token c.toLower = token c := by
  unfold token
  rw [fold_toLower, if_congr (toLower_eq_iff (show '*'.isAlpha = false from rfl)) rfl rfl,
    if_congr (toLower_eq_iff (show '?'.isAlpha = false from rfl)) rfl rfl]

theorem Glob.ofText_smallText (text : String) : ofText (smallText text) = ofText text := by
  rw [ofText, ofText, smallText, String.toList_ofList, lowerCase, List.map_map]
  exact congrArg Glob.mk (List.map_congr_left fun c _ => token_toLower c)

theorem GlobSet.compiledSize_map_smallText (globs : List String) :
    compiledSize (globs.map smallText) = compiledSize globs := by
  induction globs with
  | nil => rfl
  | cons g globs ih =>
      rw [List.map_cons, compiledSize_cons, compiledSize_cons, length_smallText, ih]

theorem GlobSet.compile_map_smallText (globs : List String) :
    compile (globs.map smallText) = compile globs := by
  have htexts : (globs.map smallText).map Glob.ofText = globs.map Glob.ofText := by
    rw [List.map_map]
    exact List.map_congr_left fun g _ => Glob.ofText_smallText g
  rw [compile, compile, compiledSize_map_smallText, htexts]

namespace RuleSet

theorem ofPatterns_map_small (patterns : List Pattern) :
    ofPatterns (patterns.map Pattern.small) = ofPatterns patterns := by
  have haddress : ∀ p : Pattern, p.small.address? = p.address? := by
    intro p
    cases p <;> rfl
  have hblock : ∀ p : Pattern, p.small.block? = p.block? := by
    intro p
    cases p <;> rfl
  have hdomain : ∀ p : Pattern, p.small.domain? = p.domain?.map smallText := by
    intro p
    cases p <;> rfl
  have hglob : ∀ p : Pattern, p.small.glob? = p.glob?.map smallText := by
    intro p
    cases p <;> rfl
  unfold ofPatterns
  simp only [List.filterMap_map, Function.comp_def, haddress, hblock, hdomain, hglob,
    ← List.map_filterMap, GlobSet.compile_map_smallText, DomainSet.ofTexts_map_smallText]

/-- Lines that differ in the case of their letters only compile to the same, or fail to for the same
reason. -/
theorem compile_congr {lines others : List String}
    (same : List.Forall₂ (fun s t => lowerCase s = lowerCase t) lines others) :
    compile lines = compile others := by
  have hpatterns : (lines.filterMap Pattern.ofLine?).map Pattern.small =
      (others.filterMap Pattern.ofLine?).map Pattern.small := by
    rw [List.map_filterMap, List.map_filterMap]
    induction same with
    | nil => rfl
    | cons hline _ ih =>
        rw [List.filterMap_cons, List.filterMap_cons, Pattern.small_ofLine?_congr hline, ih]
  rw [compile, compile, ← ofPatterns_map_small, hpatterns, ofPatterns_map_small]

theorem accepts_congr (rules : RuleSet) {s t : String} (same : lowerCase s = lowerCase t) :
    rules.accepts s = rules.accepts t := by
  have hname : DomainSet.nameOf s = DomainSet.nameOf t := by
    rw [DomainSet.nameOf, DomainSet.nameOf, same]
  have hfold : s.toList.map fold = t.toList.map fold := by
    have hsmall : ∀ text : String, text.toList.map fold = (lowerCase text).map fold := by
      intro text
      rw [lowerCase, List.map_map]
      exact List.map_congr_left fun c _ => (fold_toLower c).symm
    rw [hsmall s, hsmall t, same]
  simp only [accepts, Address.parse?_congr same, DomainSet.contains, hname, GlobSet.accepts, hfold]

end RuleSet

end HostPolicy
