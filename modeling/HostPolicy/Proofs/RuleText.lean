import HostPolicy.Proofs.Text.Utf8
import HostPolicy.Source.Basic
import HostPolicy.RuleSet
import Mathlib.Data.List.DropRight
import Mathlib.Data.List.TakeWhile

/-!
# Rules from a source mean what they mean in a list

Rules that are written one a line, as a source keeps them, come back trimmed and without the blank
ones among them. Compiling trims and leaves out blanks itself, so the rules are the same as if they
had been listed.
-/

namespace HostPolicy

namespace Text

variable (cs : List Char)

theorem trimChars_eq_rdropWhile : trimChars cs = (cs.dropWhile isBlank).rdropWhile isBlank := rfl

theorem dropWhile_trimChars : (trimChars cs).dropWhile isBlank = trimChars cs := by
  obtain ⟨rest, hrest⟩ := List.rdropWhile_prefix isBlank (cs.dropWhile isBlank)
  rw [← trimChars_eq_rdropWhile] at hrest
  cases htrim : trimChars cs with
  | nil => rfl
  | cons c trimmed =>
      rw [htrim, List.cons_append] at hrest
      have hne : cs.dropWhile isBlank ≠ [] := by simp [← hrest]
      have hhead : isBlank ((cs.dropWhile isBlank).head hne) = false :=
        List.head_dropWhile_not isBlank hne
      have hc : (cs.dropWhile isBlank).head hne = c := by simp [← hrest]
      rw [hc] at hhead
      rw [List.dropWhile_cons_of_neg (by simp [hhead])]

theorem trimChars_trimChars : trimChars (trimChars cs) = trimChars cs := by
  rw [trimChars_eq_rdropWhile (trimChars cs), dropWhile_trimChars, trimChars_eq_rdropWhile]
  exact List.rdropWhile_idempotent isBlank _

theorem trim_ofList_trimChars :
    trim (String.ofList (trimChars cs)) = String.ofList (trimChars cs) := by
  rw [trim, String.toList_ofList, trimChars_trimChars]

variable {cs}

theorem mem_of_mem_trimChars {c : Char} (h : c ∈ trimChars cs) : c ∈ cs :=
  (List.dropWhile_sublist isBlank).subset ((List.rdropWhile_prefix isBlank _).subset h)

theorem trimChars_of_not_blank (h : ∀ c ∈ cs, isBlank c = false) : trimChars cs = cs := by
  have hdrop : cs.dropWhile isBlank = cs := by
    rw [List.dropWhile_eq_self_iff]
    intro hpos
    simp [h _ (List.getElem_mem hpos)]
  rw [trimChars_eq_rdropWhile, hdrop, List.rdropWhile_eq_self_iff]
  intro hne
  simp [h _ (List.getLast_mem hne)]

end Text

namespace RuleText

open Text

/-- A text of one line that has no comment. -/
def Plain (line : String) : Prop :=
  '#' ∉ line.toList ∧ '\n' ∉ line.toList

instance : DecidablePred Plain :=
  fun line => inferInstanceAs (Decidable ('#' ∉ line.toList ∧ '\n' ∉ line.toList))

theorem Plain.takeWhile_eq {line : String} (h : Plain line) :
    line.toList.takeWhile (· != '#') = line.toList := by
  apply List.takeWhile_eq_self_iff.mpr
  intro c hmem
  have hne : c ≠ '#' := fun heq => h.1 (heq ▸ hmem)
  simpa using hne

theorem rule?_of_plain {line : String} (h : Plain line) :
    (rule? line.toList).bind Pattern.ofLine? = Pattern.ofLine? line := by
  rw [rule?, h.takeWhile_eq]
  cases htrim : trimChars line.toList with
  | nil => simp [Pattern.ofLine?, trim, htrim]
  | cons c rest =>
      have hsame : trim (String.ofList (c :: rest)) = trim line := by
        rw [← htrim, trim_ofList_trimChars, trim]
      simp only [Option.bind_some, Pattern.ofLine?, hsame]

theorem rule?_nil : rule? [] = none := rfl

theorem compile_rules {octets : List UInt8} {lines : List String}
    (hlines : ((Utf8.decodeLossy octets).splitOn '\n').filterMap rule? =
      (lines.map String.toList).filterMap rule?)
    (hplain : ∀ line ∈ lines, Plain line) :
    RuleSet.compile (rules octets) = RuleSet.compile lines := by
  have hpatterns : (rules octets).filterMap Pattern.ofLine? = lines.filterMap Pattern.ofLine? := by
    rw [rules, hlines, List.filterMap_map, List.filterMap_filterMap]
    exact List.filterMap_congr fun line hmem => rule?_of_plain (hplain line hmem)
  rw [RuleSet.compile, RuleSet.compile, hpatterns]

theorem rules_ofRules {lines : List String} (hbreak : ∀ line ∈ lines, '\n' ∉ line.toList) :
    rules (ofRules lines) = (lines.map String.toList).filterMap rule? := by
  rw [rules, ofRules, Utf8.decodeLossy_encode, String.toList_intercalate]
  by_cases hnil : lines = []
  · subst hnil
    rfl
  · have hlines : ∀ cs ∈ lines.map String.toList, '\n' ∉ cs := List.forall_mem_map.mpr hbreak
    have hne : lines.map String.toList ≠ [] := by simpa using hnil
    exact congrArg _ (List.splitOn_intercalate '\n' hlines hne)

theorem compile_rules_ofRules {lines : List String} (hplain : ∀ line ∈ lines, Plain line) :
    RuleSet.compile (rules (ofRules lines)) = RuleSet.compile lines :=
  compile_rules (rules_ofRules fun line hmem => (hplain line hmem).2) hplain

/-- Lines that each end in a line feed are lines with line feeds between them, and an empty one. -/
theorem flatMap_eq_intercalate (lines : List (List Char)) :
    lines.flatMap (· ++ ['\n']) = ['\n'].intercalate (lines ++ [[]]) := by
  induction lines with
  | nil => rfl
  | cons line lines ih =>
      cases lines with
      | nil => simp [List.intercalate]
      | cons next lines =>
          rw [List.flatMap_cons, ih]
          exact List.intercalate_cons_cons.symm

theorem compile_rules_join {lines : List String} (hplain : ∀ line ∈ lines, Plain line) :
    RuleSet.compile (rules (Utf8.encode (String.join (lines.map (· ++ "\n"))))) =
      RuleSet.compile lines := by
  apply compile_rules _ hplain
  have htext : (String.join (lines.map (· ++ "\n"))).toList =
      ['\n'].intercalate (lines.map String.toList ++ [[]]) := by
    rw [String.toList_join, List.flatMap_map, ← flatMap_eq_intercalate, List.flatMap_map]
    simp
  have hbreak : ∀ cs ∈ lines.map String.toList ++ [[]], '\n' ∉ cs := by
    intro cs hmem
    rcases List.mem_append.mp hmem with hmem | hmem
    · obtain ⟨line, hline, rfl⟩ := List.mem_map.mp hmem
      exact (hplain line hline).2
    · simp [List.mem_singleton.mp hmem]
  rw [Utf8.decodeLossy_encode, htext, List.splitOn_intercalate '\n' hbreak (by simp),
    List.filterMap_append]
  simp [rule?_nil]

theorem Plain.entry {field value : String} (hfield : Plain field) (hvalue : Plain value) :
    Plain (field ++ " " ++ value) := by
  constructor
  · simp [hfield.1, hvalue.1]
  · simp [hfield.2, hvalue.2]

end RuleText

namespace World

open RuleText

variable (w : World)

theorem answer_setText {i : Nat} {former : List UInt8}
    (hsource : w.sources[i]? = some (.memory former false false)) (octets : List UInt8) :
    ∃ source, (w.change (.setText i octets)).sources[i]? = some source ∧
      (w.change (.setText i octets)).answer source = .ok octets := by
  have hlt : i < w.sources.length := (List.getElem?_eq_some_iff.mp hsource).1
  refine ⟨.memory octets false false, ?_, rfl⟩
  simp only [change, hsource, setSource]
  exact List.getElem?_set_self hlt

theorem answer_set {store key : String} {lines : List String}
    (hmembers : (w.store store).members key = .ok lines) :
    w.answer (.collection .set store key) = .ok (ofRules lines) := by
  simp [answer, collectionText, hmembers, Except.map]

theorem answer_hash {store key : String} {entries : List (String × String)}
    (hentries : (w.store store).entries key = .ok entries) :
    w.answer (.collection .hash store key) =
      .ok (Text.Utf8.encode (String.join
        ((entries.map fun (field, value) => field ++ " " ++ value).map (· ++ "\n")))) := by
  simp only [answer, collectionText, hentries, Except.map, List.map_map]
  rfl

/-- Rules that a memory source is given, or that are the members of a set, compile as the list of
them does, to an equal rule set or with the same error; and so do the entries of a hash, each a
field and its value with a space between. -/
theorem compile_loaded_eq :
    (∀ i former lines, w.sources[i]? = some (.memory former false false) →
      (∀ line ∈ lines, Plain line) →
      ∃ source octets, (w.change (.setText i (ofRules lines))).sources[i]? = some source ∧
        (w.change (.setText i (ofRules lines))).answer source = .ok octets ∧
        RuleSet.compile (rules octets) = RuleSet.compile lines) ∧
    (∀ store key lines, (w.store store).members key = .ok lines →
      (∀ line ∈ lines, Plain line) →
      ∃ octets, w.answer (.collection .set store key) = .ok octets ∧
        RuleSet.compile (rules octets) = RuleSet.compile lines) ∧
    (∀ store key entries, (w.store store).entries key = .ok entries →
      (∀ entry ∈ entries, Plain entry.1 ∧ Plain entry.2) →
      ∃ octets, w.answer (.collection .hash store key) = .ok octets ∧
        RuleSet.compile (rules octets) =
          RuleSet.compile (entries.map fun (field, value) => field ++ " " ++ value)) := by
  refine ⟨?_, ?_, ?_⟩
  · intro i former lines hsource hplain
    obtain ⟨source, hgiven, hanswer⟩ := w.answer_setText hsource (ofRules lines)
    exact ⟨source, ofRules lines, hgiven, hanswer, compile_rules_ofRules hplain⟩
  · intro store key lines hmembers hplain
    exact ⟨ofRules lines, w.answer_set hmembers, compile_rules_ofRules hplain⟩
  · intro store key entries hentries hplain
    refine ⟨_, w.answer_hash hentries, compile_rules_join ?_⟩
    intro line hmem
    obtain ⟨entry, hentry, rfl⟩ := List.mem_map.mp hmem
    exact (hplain entry hentry).1.entry (hplain entry hentry).2

theorem compile_loaded_eq_mixed :
    let lines := [" *.example.com\r", "", "\u3000", "10.0.0.1 "]
    let entries := [("10.0.0.0/8", ""), ("", "\tlocalhost")]
    let w : World :=
      ⟨.empty, [("kv", ⟨[("rules", lines)], [("rules", entries)], none, none, 0⟩)],
        [.memory [] false false]⟩
    (∃ source octets, (w.change (.setText 0 (ofRules lines))).sources[0]? = some source ∧
      (w.change (.setText 0 (ofRules lines))).answer source = .ok octets ∧
      RuleSet.compile (rules octets) = RuleSet.compile lines) ∧
    (∃ octets, w.answer (.collection .set "kv" "rules") = .ok octets ∧
      RuleSet.compile (rules octets) = RuleSet.compile lines) ∧
    ∃ octets, w.answer (.collection .hash "kv" "rules") = .ok octets ∧
      RuleSet.compile (rules octets) = RuleSet.compile ["10.0.0.0/8 ", " \tlocalhost"] := by
  intro lines entries w
  obtain ⟨hmemory, hset, hhash⟩ := compile_loaded_eq w
  exact ⟨hmemory 0 [] lines rfl (by decide), hset "kv" "rules" lines rfl (by decide),
    hhash "kv" "rules" entries rfl (by decide)⟩

end World

end HostPolicy
