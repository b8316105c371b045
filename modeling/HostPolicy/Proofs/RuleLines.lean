import HostPolicy.Proofs.RuleText

/-!
# Rule text is read line by line

A line of rule text holds one rule or none, whatever octets the other lines are made of, and the
rules of a text are those of its lines in order. What a line can hold is a text that is trimmed and
not empty, and has no comment and no line feed in it; rules of this kind that are written one a line
come back as they are.
-/

namespace HostPolicy.RuleText

open Text

/-! ### Lines -/

/-- The octet between two lines. -/
abbrev lineFeed : UInt8 := 10

theorem not_mem_of_mem_splitOn (c : Char) (cs : List Char) :
    ∀ piece ∈ cs.splitOn c, c ∉ piece := by
  induction cs with
  | nil => simp
  | cons d cs ih =>
      obtain ⟨first, rest, hpieces⟩ := List.exists_cons_of_ne_nil (List.splitOn_ne_nil c cs)
      rw [hpieces] at ih
      rw [List.splitOn_cons_eq_if_modifyHead, hpieces]
      split
      · exact List.forall_mem_cons.mpr ⟨List.not_mem_nil, ih⟩
      · next hne =>
          obtain ⟨hfirst, hrest⟩ := List.forall_mem_cons.mp ih
          refine List.forall_mem_cons.mpr ⟨?_, hrest⟩
          rw [List.mem_cons, not_or]
          exact ⟨fun heq => hne (by simp [heq]), hfirst⟩

theorem rules_append (front back : List UInt8) :
    rules (front ++ lineFeed :: back) = rules front ++ rules back := by
  rw [rules, Utf8.decodeLossy_lineFeed, List.splitOn_append_cons_self, List.filterMap_append]
  rfl

theorem rules_intercalate (lines : List (List UInt8)) :
    rules ([lineFeed].intercalate lines) = lines.flatMap rules := by
  induction lines with
  | nil => rfl
  | cons line lines ih =>
      cases lines with
      | nil => simp [List.intercalate]
      | cons next lines =>
          rw [List.intercalate_cons_cons, List.append_assoc, List.singleton_append, rules_append,
            ih, ← List.flatMap_cons]

theorem rules_of_line {line : List UInt8} (h : lineFeed ∉ line) :
    rules line = (rule? (Utf8.decodeLossy line)).toList := by
  rw [rules, List.splitOn_eq_singleton (Utf8.lineFeed_not_mem_decodeLossy h)]
  cases hrule : rule? (Utf8.decodeLossy line) <;> simp [hrule]

/-- The rules of a text are those before any of its line feeds and then those behind it, so they are
the rules of its lines in order; and a line holds the rule that it holds by itself. -/
theorem rules_line_by_line :
    (∀ front back, rules (front ++ lineFeed :: back) = rules front ++ rules back) ∧
      (∀ lines, rules ([lineFeed].intercalate lines) = lines.flatMap rules) ∧
      ∀ line, lineFeed ∉ line → rules line = (rule? (Utf8.decodeLossy line)).toList :=
  ⟨rules_append, rules_intercalate, fun _ => rules_of_line⟩

/-- The first line ends within a character, the second in a comment and a carriage return. -/
theorem rules_line_by_line_cut :
    let front : List UInt8 := [0x61, 0x2E, 0x62, 0xE6, 0x97]
    let back := Utf8.encode "c.d #e\r"
    lineFeed ∉ front ∧ lineFeed ∉ back ∧
      rules (front ++ lineFeed :: back) = ["a.b\uFFFD", "c.d"] := by
  intro front back
  have hfront : lineFeed ∉ front := by decide
  have hback : lineFeed ∉ back := by decide
  obtain ⟨happend, -, hline⟩ := rules_line_by_line
  refine ⟨hfront, hback, ?_⟩
  rw [happend, hline front hfront, hline back hback]
  decide

/-! ### Rules as they are read -/

/-- A text that is read as a rule, and as it is. -/
structure IsRule (rule : String) : Prop where
  ne_empty : rule ≠ ""
  trimmed : trim rule = rule
  plain : Plain rule

instance : DecidablePred IsRule := fun rule =>
  decidable_of_iff (rule ≠ "" ∧ trim rule = rule ∧ Plain rule)
    ⟨fun ⟨hne, htrim, hplain⟩ => ⟨hne, htrim, hplain⟩,
      fun ⟨hne, htrim, hplain⟩ => ⟨hne, htrim, hplain⟩⟩

theorem rule?_eq_some_iff {line : List Char} {rule : String} : rule? line = some rule ↔
    rule ≠ "" ∧ trimChars (line.takeWhile (· != '#')) = rule.toList := by
  unfold rule?
  split
  · next hnil => simp [hnil, eq_comm (a := ([] : List Char))]
  · next hne =>
      rw [Option.some.injEq]
      constructor
      · rintro rfl
        rw [String.toList_ofList]
        exact ⟨by simpa using hne, rfl⟩
      · rintro ⟨-, htrim⟩
        rw [htrim, String.ofList_toList]

theorem isRule_of_rule? {line : List Char} {rule : String} (hbreak : '\n' ∉ line)
    (h : rule? line = some rule) : IsRule rule := by
  obtain ⟨hne, htrim⟩ := rule?_eq_some_iff.mp h
  have hfront : ∀ c ∈ rule.toList, c ∈ line.takeWhile (· != '#') := by
    intro c hmem
    rw [← htrim] at hmem
    exact mem_of_mem_trimChars hmem
  refine ⟨hne, ?_, ?_, ?_⟩
  · have htwice := trim_ofList_trimChars (line.takeWhile (· != '#'))
    rwa [htrim, String.ofList_toList] at htwice
  · intro hmem
    have hkept := List.mem_takeWhile_imp (hfront _ hmem)
    contradiction
  · exact fun hmem => hbreak ((List.takeWhile_sublist _).subset (hfront _ hmem))

theorem rule?_of_isRule {rule : String} (h : IsRule rule) : rule? rule.toList = some rule := by
  rw [rule?_eq_some_iff, h.plain.takeWhile_eq]
  refine ⟨h.ne_empty, ?_⟩
  have htrim := congrArg String.toList h.trimmed
  rwa [trim, String.toList_ofList] at htrim

theorem isRule_of_mem_rules {octets : List UInt8} {rule : String} (h : rule ∈ rules octets) :
    IsRule rule := by
  obtain ⟨line, hline, hrule⟩ := List.mem_filterMap.mp h
  exact isRule_of_rule? (not_mem_of_mem_splitOn '\n' _ line hline) hrule

theorem rules_ofRules_of_isRule {lines : List String} (h : ∀ line ∈ lines, IsRule line) :
    rules (ofRules lines) = lines := by
  rw [rules_ofRules fun line hmem => (h line hmem).plain.2, List.filterMap_map]
  exact (List.filterMap_congr fun line hmem => rule?_of_isRule (h line hmem)).trans
    (List.filterMap_some)

/-- Any octets are read as a list of rules, and a list of rules that is written one a line is read
back as it was, one that was read before and any other. -/
theorem rules_normal_form :
    (∀ octets, (∀ rule ∈ rules octets, IsRule rule) ∧
        rules (ofRules (rules octets)) = rules octets) ∧
      ∀ lines, (∀ line ∈ lines, IsRule line) → rules (ofRules lines) = lines :=
  ⟨fun _ => ⟨fun _ => isRule_of_mem_rules,
      rules_ofRules_of_isRule fun _ => isRule_of_mem_rules⟩,
    fun _ => rules_ofRules_of_isRule⟩

/-- A carriage return or a blank within a rule stays. -/
theorem rules_normal_form_inner :
    let lines := ["10.0.0.1 office", "a\rb", "\uFFFD"]
    (∀ line ∈ lines, IsRule line) ∧ rules (ofRules lines) = lines := by
  intro lines
  have hlines : ∀ line ∈ lines, IsRule line := by decide
  exact ⟨hlines, rules_normal_form.2 lines hlines⟩

end HostPolicy.RuleText
