import HostPolicy.Proofs.RuleSet
import HostPolicy.Proofs.Text.LetterCase
import HostPolicy.Proofs.Text.Utf8

/-!
# Domains and what lies below them

A rule without a dot in front accepts its own name. A rule with a dot in front accepts the name
behind the dot and every name that ends in the rule, dot included, so that only whole labels are
left out in front. Names are compared backwards, and it makes no difference whether characters or
octets are compared.
-/

namespace HostPolicy

/-! ### Names -/

theorem lowerCase_eq_nil_iff (text : String) : lowerCase text = [] ↔ text = "" := by
  simp [lowerCase]

theorem head?_lowerCase_eq_dot_iff (text : String) :
    (lowerCase text).head? = some '.' ↔ text.toList.head? = some '.' := by
  rw [lowerCase, List.head?_map, Option.map_eq_some_iff]
  constructor
  · rintro ⟨c, hhead, hdot⟩
    rw [hhead, (Text.toLower_eq_iff rfl).mp hdot]
  · intro hhead
    exact ⟨'.', hhead, rfl⟩

theorem getLast?_map_toLower_eq_dot_iff (cs : List Char) :
    (cs.map Char.toLower).getLast? = some '.' ↔ cs.getLast? = some '.' := by
  rw [List.getLast?_map, Option.map_eq_some_iff]
  constructor
  · rintro ⟨c, hlast, hlower⟩
    rw [hlast, (Text.toLower_eq_iff rfl).mp hlower]
  · intro hlast
    exact ⟨'.', hlast, rfl⟩

theorem DomainRule.ofText?_eq_exact_iff {text : String} {name : List Char} :
    ofText? text = some (exact name) ↔
      lowerCase text = name ∧ text ≠ "" ∧ text.toList.head? ≠ some '.' := by
  rw [Ne, ← lowerCase_eq_nil_iff, Ne, ← head?_lowerCase_eq_dot_iff]
  unfold ofText?
  split
  · next hnil => simp [hnil]
  · next hdot => simp [hdot]
  · next own _ hwithin => simp [hwithin]
  · next hnil _ hother =>
      have hne : lowerCase text ≠ [] := hnil
      have hhead : (lowerCase text).head? ≠ some '.' := by
        intro hdot
        obtain ⟨own, hown⟩ := List.head?_eq_some_iff.mp hdot
        exact hother own hown
      simp [hne, hhead]

theorem DomainRule.ofText?_eq_within_iff {text : String} {name : List Char} :
    ofText? text = some (within name) ↔ name ≠ [] ∧ lowerCase text = '.' :: name := by
  unfold ofText?
  split
  · next hnil => simp [hnil]
  · next hdot => simp [hdot, eq_comm]
  · next own hne hwithin =>
      rw [hwithin]
      constructor
      · intro heq
        cases heq
        exact ⟨hne, rfl⟩
      · rintro ⟨_, heq⟩
        cases heq
        rfl
  · next _ _ hother =>
      constructor
      · intro heq
        cases heq
      · rintro ⟨_, heq⟩
        exact absurd heq (hother name)

namespace DomainSet

/-- A text without one dot at its end. -/
def withoutFinalDot (cs : List Char) : List Char :=
  if cs.getLast? = some '.' then cs.dropLast else cs

theorem nameOf_eq (candidate : String) :
    nameOf candidate = (withoutFinalDot candidate.toList).map Char.toLower := by
  have hdot : (lowerCase candidate).getLast? = some '.' ↔ candidate.toList.getLast? = some '.' :=
    getLast?_map_toLower_eq_dot_iff candidate.toList
  simp only [nameOf, withoutFinalDot, hdot]
  split
  · exact List.map_dropLast.symm
  · rfl

/-! ### Keys -/

/-- A name backwards starts with another one backwards, and what follows is nothing or a dot, if it
is that name or ends in it behind a dot. -/
theorem startsWithKey_iff (name own : List Char) :
    startsWithKey (key name) (key own) = true ↔ name = own ∨ '.' :: own <:+ name := by
  have hback : ∀ rest, key name = key own ++ rest ↔ name.reverse = own.reverse ++ rest := by
    intro rest
    simp [key]
  rw [startsWithKey, Bool.and_eq_true, List.isPrefixOf_iff_prefix]
  constructor
  · rintro ⟨⟨rest, hrest⟩, hboundary⟩
    rw [← hrest, List.drop_left] at hboundary
    have hname := (hback rest).mp hrest.symm
    cases rest with
    | nil =>
        left
        rwa [List.append_nil, List.reverse_inj] at hname
    | cons c rest =>
        right
        obtain rfl : c = '.' := by simpa using hboundary
        refine ⟨rest.reverse, ?_⟩
        rw [← List.reverse_inj, hname]
        simp
  · rintro (rfl | ⟨front, rfl⟩)
    · exact ⟨List.prefix_refl _, by simp⟩
    · have hkey := (hback ('.' :: front.reverse)).mpr (by simp)
      rw [hkey]
      exact ⟨List.prefix_append _ _, by rw [List.drop_left]; rfl⟩

/-! ### Octets -/

/-- Where the keys stand in a text of octets, each with the place behind its last octet. All of them
count, also where they overlap. -/
def occurrences (keys : List (List UInt8)) (text : List UInt8) : List (Nat × Nat) :=
  (List.range (text.length + 1)).flatMap fun first =>
    (keys.filter fun k => k.isPrefixOf (text.drop first)).map fun k => (first, first + k.length)

def dot : UInt8 := 46

/-- Whether some key stands at the start of a text, and a dot or nothing behind it. -/
def search (keys : List (List UInt8)) (text : List UInt8) : Bool :=
  (occurrences keys text).any fun (first, past) =>
    first == 0 && (past == text.length || text[past]? == some dot)

theorem search_iff (keys : List (List UInt8)) (text : List UInt8) :
    search keys text = true ↔
      ∃ k ∈ keys, ∃ rest, k ++ rest = text ∧ (rest = [] ∨ rest.head? = some dot) := by
  simp only [search, occurrences, List.any_eq_true, List.mem_flatMap, List.mem_map, List.mem_filter,
    List.isPrefixOf_iff_prefix, Bool.and_eq_true, Bool.or_eq_true, beq_iff_eq]
  constructor
  · rintro ⟨_, ⟨first, _, k, ⟨hmem, rest, hrest⟩, rfl⟩, hfirst, hpast⟩
    dsimp only at hfirst hpast
    subst hfirst
    rw [List.drop_zero] at hrest
    refine ⟨k, hmem, rest, hrest, ?_⟩
    simpa [← hrest, ← List.head?_drop, eq_comm] using hpast
  · rintro ⟨k, hmem, rest, rfl, hbehind⟩
    refine ⟨(0, k.length), ⟨0, by simp, k, ⟨hmem, rest, rfl⟩, by simp⟩, rfl, ?_⟩
    simpa [← List.head?_drop, eq_comm] using hbehind

theorem head?_encode_eq_dot_iff (text : String) :
    (Text.Utf8.encode text).head? = some dot ↔ text.toList.head? = some '.' := by
  have hdot : Text.Utf8.encode "." = [dot] := rfl
  have hbegins : ∀ {α : Type} (a : α) (l : List α), l.head? = some a ↔ [a] <+: l := by
    intro α a l
    cases l <;> simp [eq_comm]
  rw [hbegins, hbegins, ← hdot, Text.Utf8.encode_prefix_encode_iff]
  rfl

/-- The search over octets finds a key where the comparison of characters does. -/
theorem search_encode_iff (keys : List (List Char)) (back : List Char) :
    search (keys.map fun k => Text.Utf8.encode (String.ofList k))
        (Text.Utf8.encode (String.ofList back)) = true ↔
      ∃ k ∈ keys, startsWithKey back k = true := by
  have hsplit : ∀ k rest : List Char, Text.Utf8.encode (String.ofList (k ++ rest)) =
      Text.Utf8.encode (String.ofList k) ++ Text.Utf8.encode (String.ofList rest) := by
    intro k rest
    simp [Text.Utf8.encode]
  have hbehind : ∀ rest : List Char, (Text.Utf8.encode (String.ofList rest) = [] ∨
      (Text.Utf8.encode (String.ofList rest)).head? = some dot) ↔
      rest.head?.all (· == '.') = true := by
    intro rest
    rw [head?_encode_eq_dot_iff, String.toList_ofList]
    cases rest <;> simp [Text.Utf8.encode]
  simp only [search_iff, List.mem_map, exists_exists_and_eq_and]
  refine exists_congr fun k => and_congr_right fun _ => ?_
  rw [startsWithKey, Bool.and_eq_true, List.isPrefixOf_iff_prefix]
  constructor
  · rintro ⟨octets, hoctets, hdot⟩
    obtain ⟨rest, rfl⟩ : k <+: back := by
      simpa using Text.Utf8.encode_prefix_encode_iff.mp ⟨octets, hoctets⟩
    rw [hsplit, List.append_cancel_left_eq] at hoctets
    rw [List.drop_left, ← hbehind, ← hoctets]
    exact ⟨List.prefix_append k rest, hdot⟩
  · rintro ⟨⟨rest, rfl⟩, hdot⟩
    rw [List.drop_left, ← hbehind] at hdot
    exact ⟨_, (hsplit k rest).symm, hdot⟩

/-! ### What a set of domains contains -/

/-- A name with further letters in front of it ends in it behind a dot only if the letters end in
one. -/
theorem suffix_append_iff {front own : List Char} :
    '.' :: own <:+ front ++ own ↔ front.getLast? = some '.' := by
  constructor
  · rintro ⟨rest, hrest⟩
    have hfront : (rest ++ ['.']) ++ own = front ++ own := by
      rw [List.append_assoc]
      exact hrest
    rw [← List.append_cancel_right hfront, List.getLast?_concat]
  · intro hlast
    obtain ⟨rest, rfl⟩ := List.getLast?_eq_some_iff.mp hlast
    exact ⟨rest, by simp⟩

theorem contains_iff_search (s : DomainSet) (candidate : String) :
    s.contains candidate = true ↔ nameOf candidate ≠ [] ∧ (nameOf candidate ∈ s.exact ∨
      search (s.keys.map fun k => Text.Utf8.encode (String.ofList k))
        (Text.Utf8.encode (String.ofList (key (nameOf candidate)))) = true) := by
  rw [search_encode_iff]
  simp [contains]

theorem contains_iff_rule (texts : List String) (candidate : String) :
    (ofTexts texts).contains candidate = true ↔ nameOf candidate ≠ [] ∧
      ((∃ rule ∈ texts, rule ≠ "" ∧ rule.toList.head? ≠ some '.' ∧
          lowerCase rule = nameOf candidate) ∨
        ∃ rule ∈ texts, ∃ own, own ≠ [] ∧ lowerCase rule = '.' :: own ∧
          (nameOf candidate = own ∨ '.' :: own <:+ nameOf candidate)) := by
  simp only [contains, Bool.and_eq_true, Bool.or_eq_true, List.contains_iff_mem, List.any_eq_true,
    mem_exact_ofTexts, mem_keys_ofTexts, DomainRule.ofText?_eq_exact_iff,
    DomainRule.ofText?_eq_within_iff, Bool.not_eq_true', List.isEmpty_eq_false_iff]
  refine and_congr_right fun _ => or_congr ?_ ?_
  · exact exists_congr fun rule => and_congr_right fun _ => by rw [and_comm, and_assoc]
  · constructor
    · rintro ⟨_, ⟨rule, hmem, own, ⟨hne, hrule⟩, rfl⟩, hkey⟩
      exact ⟨rule, hmem, own, hne, hrule, (startsWithKey_iff _ _).mp hkey⟩
    · rintro ⟨rule, hmem, own, hne, hrule, hbelow⟩
      exact ⟨key own, ⟨rule, hmem, own, ⟨hne, hrule⟩, rfl⟩, (startsWithKey_iff _ _).mpr hbelow⟩

/-- With the candidate's name in small letters and without one dot at its end: a rule without a dot
in front accepts it if it is that name, and a rule with one if the name is what follows the dot or
ends in the rule, whatever other rules there are. To search the octets of the keys is as good, and
letters in front of a domain that no dot parts from it make another domain. -/
theorem contains_iff_below (texts : List String) (candidate : String) :
    let name := (withoutFinalDot candidate.toList).map Char.toLower
    ((ofTexts texts).contains candidate = true ↔ name ≠ [] ∧
      ((∃ rule ∈ texts, rule ≠ "" ∧ rule.toList.head? ≠ some '.' ∧ lowerCase rule = name) ∨
        ∃ rule ∈ texts, ∃ own, own ≠ [] ∧ lowerCase rule = '.' :: own ∧
          (name = own ∨ '.' :: own <:+ name))) ∧
    ((ofTexts texts).contains candidate = true ↔ name ≠ [] ∧ (name ∈ (ofTexts texts).exact ∨
      search ((ofTexts texts).keys.map fun k => Text.Utf8.encode (String.ofList k))
        (Text.Utf8.encode (String.ofList (key name))) = true)) ∧
    ∀ rule own front, lowerCase rule = '.' :: own → name = front ++ own → front ≠ [] →
      front.getLast? ≠ some '.' → (ofTexts [rule]).contains candidate = false := by
  intro name
  have hname : nameOf candidate = name := nameOf_eq candidate
  rw [← hname]
  refine ⟨contains_iff_rule texts candidate, contains_iff_search _ candidate, ?_⟩
  intro rule own front hrule hfront hne hlast
  rw [Bool.eq_false_iff, Ne, contains_iff_rule]
  rintro ⟨_, ⟨other, hmem, _, hhead, _⟩ | ⟨other, hmem, name', _, hother, hbelow⟩⟩
  · obtain rfl := List.mem_singleton.mp hmem
    exact hhead ((head?_lowerCase_eq_dot_iff other).mp (by rw [hrule]; rfl))
  · obtain rfl := List.mem_singleton.mp hmem
    obtain rfl : own = name' := (List.cons.inj (hrule.symm.trans hother)).2
    rw [hfront, suffix_append_iff] at hbelow
    rcases hbelow with hsame | hdot
    · exact hne (List.append_left_eq_self.mp hsame)
    · exact hlast hdot

/-- Rules of which one ends another, and a candidate whose last label only ends in one. -/
theorem contains_iff_below_overlap :
    let rules := [".com.au", ".M.COM.au", "m.com.au", ".日.org"]
    (ofTexts rules).contains "WWW.m.com.AU." = true ∧
      (ofTexts [".m.com.au"]).contains "xm.com.au" = false := by
  intro rules
  constructor
  · refine (contains_iff_below rules "WWW.m.com.AU.").1.mpr ⟨by decide, Or.inr ?_⟩
    exact ⟨".com.au", by decide, "com.au".toList, by decide, by decide, Or.inr (by decide)⟩
  · exact (contains_iff_below [] "xm.com.au").2.2 ".m.com.au" "m.com.au".toList ['x'] (by decide)
      (by decide) (by decide) (by decide)

end DomainSet

end HostPolicy
