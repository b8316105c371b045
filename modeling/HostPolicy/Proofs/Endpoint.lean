import HostPolicy.Endpoint
import HostPolicy.Proofs.Address.Literal
import HostPolicy.Proofs.Text.Digits

/-!
# The host of an endpoint

A host without colons may stand bare before its port, and any host without brackets between
brackets. Either way, and by itself if no colon makes it an endpoint of its own, it comes back from
the endpoint as it is. A text that is written in neither way has no host and no port in it.
-/

namespace HostPolicy.Endpoint

/-! ### Where a text is cut -/

theorem cutLastColon_append {before port : List Char} (hport : ':' ∉ port) :
    cutLastColon (before ++ ':' :: port) = some (before, port) := by
  have hpass : ∀ c ∈ port.reverse, (c != ':') = true := by
    intro c hmem
    rw [bne_iff_ne]
    rintro rfl
    exact hport (List.mem_reverse.mp hmem)
  have hreverse : (before ++ ':' :: port).reverse = port.reverse ++ ':' :: before.reverse := by simp
  unfold cutLastColon
  rw [hreverse, List.dropWhile_append_of_pos hpass, List.takeWhile_append_of_pos hpass,
    List.dropWhile_cons_of_neg (by simp), List.takeWhile_cons_of_neg (by simp)]
  simp

theorem cutLastColon_of_not_mem {cs : List Char} (h : ':' ∉ cs) : cutLastColon cs = none := by
  have hdrop : cs.reverse.dropWhile (· != ':') = [] := by
    rw [List.dropWhile_eq_nil_iff]
    intro c hmem
    rw [bne_iff_ne]
    rintro rfl
    exact h (List.mem_reverse.mp hmem)
  rw [cutLastColon, hdrop]

theorem exists_lastColon {cs : List Char} (h : ':' ∈ cs) :
    ∃ before port, cs = before ++ ':' :: port ∧ ':' ∉ port := by
  obtain ⟨after, before, hcut, hafter⟩ := List.eq_append_cons_of_mem (List.mem_reverse.mpr h)
  refine ⟨before.reverse, after.reverse, ?_, by simpa using hafter⟩
  have hreverse := congrArg List.reverse hcut
  simpa using hreverse

theorem cutLastColon_eq_some_iff {cs before port : List Char} :
    cutLastColon cs = some (before, port) ↔ cs = before ++ ':' :: port ∧ ':' ∉ port := by
  constructor
  · intro hcut
    by_cases hcolon : ':' ∈ cs
    · obtain ⟨own, last, rfl, hlast⟩ := exists_lastColon hcolon
      rw [cutLastColon_append hlast] at hcut
      cases hcut
      exact ⟨rfl, hlast⟩
    · rw [cutLastColon_of_not_mem hcolon] at hcut
      contradiction
  · rintro ⟨rfl, hport⟩
    exact cutLastColon_append hport

theorem hostBefore_eq_some_iff {before name : List Char} :
    hostBefore before = some name ↔
      before = '[' :: (name ++ [']']) ∨ before = name ∧ ':' ∉ name ∧ name.head? ≠ some '[' := by
  unfold hostBefore
  split
  · next rest =>
      have hbare : ¬('[' :: rest = name ∧ ':' ∉ name ∧ name.head? ≠ some '[') := by
        rintro ⟨rfl, -, hhead⟩
        exact hhead rfl
      rw [or_iff_left hbare, List.cons.injEq, Option.ite_none_right_eq_some, Option.some.injEq]
      constructor
      · rintro ⟨hlast, rfl⟩
        obtain ⟨front, rfl⟩ := List.getLast?_eq_some_iff.mp hlast
        rw [List.dropLast_concat]
        exact ⟨rfl, rfl⟩
      · rintro ⟨-, rfl⟩
        simp
  · next hopen =>
      have hhead : before.head? ≠ some '[' := by
        intro hhead
        obtain ⟨rest, hrest⟩ := List.head?_eq_some_iff.mp hhead
        exact hopen rest hrest
      rw [or_iff_right (hopen _), Option.ite_none_left_eq_some, Option.some.injEq]
      constructor
      · rintro ⟨hcolon, rfl⟩
        exact ⟨rfl, hcolon, hhead⟩
      · rintro ⟨rfl, hcolon, -⟩
        exact ⟨hcolon, rfl⟩

/-- What has a colon and no bracket in front of it is no host. -/
theorem hostBefore_eq_none {before : List Char} (hcolon : ':' ∈ before) (hbracket : '[' ∉ before) :
    hostBefore before = none := by
  unfold hostBefore
  split
  · exact absurd List.mem_cons_self hbracket
  · rw [if_pos hcolon]

theorem any_isBracket_iff {cs : List Char} :
    cs.any isBracket = false ↔ '[' ∉ cs ∧ ']' ∉ cs := by
  simp only [List.any_eq_false, isBracket, Bool.or_eq_true, beq_iff_eq]
  constructor
  · intro h
    exact ⟨fun hmem => h _ hmem (Or.inl rfl), fun hmem => h _ hmem (Or.inr rfl)⟩
  · rintro ⟨hopen, hclose⟩ c hmem (rfl | rfl)
    · exact hopen hmem
    · exact hclose hmem

theorem splitChars_eq_some_iff {cs name port : List Char} :
    splitChars cs = some (name, port) ↔
      (cs = name ++ ':' :: port ∧ ':' ∉ name ∨ cs = '[' :: (name ++ [']']) ++ ':' :: port) ∧
        name.any isBracket = false ∧ ':' ∉ port ∧ port.any isBracket = false := by
  simp only [splitChars, Option.bind_eq_bind, Option.bind_eq_some_iff, Prod.exists,
    cutLastColon_eq_some_iff, hostBefore_eq_some_iff, Option.ite_none_left_eq_some,
    Bool.not_eq_true, Bool.or_eq_false_iff, Option.some.injEq, Prod.mk.injEq]
  constructor
  · rintro ⟨before, _, ⟨rfl, hport⟩, _, hbefore, ⟨hname, hbrackets⟩, rfl, rfl⟩
    refine ⟨?_, hname, hport, hbrackets⟩
    rcases hbefore with rfl | ⟨rfl, hcolon, -⟩
    · exact Or.inr rfl
    · exact Or.inl ⟨rfl, hcolon⟩
  · rintro ⟨hwritten, hname, hport, hbrackets⟩
    -- a bare host does not look like one between brackets
    have hhead : name.head? ≠ some '[' := by
      intro hhead
      exact (any_isBracket_iff.mp hname).1 (List.mem_of_mem_head? hhead)
    rcases hwritten with ⟨rfl, hcolon⟩ | rfl
    · exact ⟨name, port, ⟨rfl, hport⟩, name, Or.inr ⟨rfl, hcolon, hhead⟩, ⟨hname, hbrackets⟩,
        rfl, rfl⟩
    · exact ⟨_, port, ⟨rfl, hport⟩, name, Or.inl rfl, ⟨hname, hbrackets⟩, rfl, rfl⟩

/-! ### Ports -/

/-- A number from 1 to 65535 in decimal digits, after a plus sign or not. -/
def IsPortText (port : List Char) : Prop :=
  ∃ digits, (port = digits ∨ port = '+' :: digits) ∧ (∀ c ∈ digits, c.isDigit = true) ∧
    0 < Text.decimalValue digits ∧ Text.decimalValue digits ≤ 65535

/-- The digits that count are at most five, and then their value is that of all of them. -/
theorem significant_iff {digits : List Char} (hdigits : ∀ c ∈ digits, c.isDigit = true) :
    let significant := digits.dropWhile (· == '0')
    (0 < significant.length ∧ significant.length ≤ 5 ∧
        Text.decimalValue (significant.take 5) ≤ 65535) ↔
      0 < Text.decimalValue digits ∧ Text.decimalValue digits ≤ 65535 := by
  intro significant
  rw [← Text.decimalValue_dropWhile_zero digits]
  change _ ↔ 0 < Text.decimalValue significant ∧ Text.decimalValue significant ≤ 65535
  cases hsignificant : significant with
  | nil => simp [Text.decimalValue, Text.ofDigits]
  | cons c cs =>
      have hmem : c ∈ digits := by
        have hsublist : (c :: cs).Sublist digits := hsignificant ▸ List.dropWhile_sublist _
        exact hsublist.subset List.mem_cons_self
      have hne : c ≠ '0' := by
        have hhead := List.head?_dropWhile_not (· == '0') digits
        simpa [show digits.dropWhile (· == '0') = c :: cs from hsignificant] using hhead
      have hpow : 10 ^ cs.length ≤ Text.decimalValue (c :: cs) :=
        Text.pow_le_decimalValue (hdigits c hmem) hne cs
      have hpos : 0 < 10 ^ cs.length := Nat.pow_pos (by decide)
      by_cases hlength : (c :: cs).length ≤ 5
      · rw [List.take_of_length_le hlength]
        constructor
        · rintro ⟨_, _, hle⟩
          exact ⟨Nat.lt_of_lt_of_le hpos hpow, hle⟩
        · rintro ⟨_, hle⟩
          exact ⟨Nat.succ_pos _, hlength, hle⟩
      · have hlong : 5 ≤ cs.length := by
          rw [List.length_cons] at hlength
          omega
        have hlarge : 10 ^ 5 ≤ 10 ^ cs.length := Nat.pow_le_pow_right (by decide) hlong
        constructor
        · rintro ⟨_, hle, _⟩
          exact absurd hle hlength
        · rintro ⟨_, hle⟩
          omega

theorem isPort_iff {port : List Char} : isPort port = true ↔ IsPortText port := by
  have hplus (digits : List Char) (hdigits : ∀ c ∈ '+' :: digits, c.isDigit = true) : False := by
    have hdigit := hdigits '+' List.mem_cons_self
    contradiction
  unfold isPort IsPortText
  dsimp only
  split
  · next digits =>
      simp only [Bool.and_eq_true, decide_eq_true_eq, List.all_eq_true, and_assoc]
      constructor
      · rintro ⟨hdigits, hvalue⟩
        exact ⟨digits, Or.inr rfl, hdigits, (significant_iff hdigits).mp hvalue⟩
      · rintro ⟨own, rfl | heq, hdigits, hvalue⟩
        · exact (hplus digits hdigits).elim
        · obtain rfl := List.tail_eq_of_cons_eq heq
          exact ⟨hdigits, (significant_iff hdigits).mpr hvalue⟩
  · next hbare =>
      simp only [Bool.and_eq_true, decide_eq_true_eq, List.all_eq_true, and_assoc]
      constructor
      · rintro ⟨hdigits, hvalue⟩
        exact ⟨port, Or.inl rfl, hdigits, (significant_iff hdigits).mp hvalue⟩
      · rintro ⟨own, rfl | heq, hdigits, hvalue⟩
        · exact ⟨hdigits, (significant_iff hdigits).mpr hvalue⟩
        · exact absurd heq (hbare own)

theorem IsPortText.digit_or_plus {port : List Char} (h : IsPortText port) :
    ∀ c ∈ port, c.isDigit = true ∨ c = '+' := by
  obtain ⟨digits, rfl | rfl, hdigits, _⟩ := h
  · exact fun c hmem => Or.inl (hdigits c hmem)
  · intro c hmem
    rcases List.mem_cons.mp hmem with rfl | hmem
    · exact Or.inr rfl
    · exact Or.inl (hdigits c hmem)

theorem IsPortText.not_mem {port : List Char} (h : IsPortText port) {c : Char}
    (hdigit : c.isDigit = false) (hplus : c ≠ '+') : c ∉ port := by
  intro hmem
  rcases h.digit_or_plus c hmem with hc | hc
  · rw [hc] at hdigit
    contradiction
  · exact hplus hc

/-! ### Hosts -/

section Host

variable {name port : List Char}

theorem any_isBracket {cs : List Char} (h : ∀ c ∈ cs, isBracket c = false) :
    cs.any isBracket = false := by
  rw [List.any_eq_false]
  intro c hmem
  rw [h c hmem]
  exact Bool.false_ne_true

theorem IsPortText.any_isBracket (hport : IsPortText port) : port.any isBracket = false :=
  any_isBracket_iff.mpr
    ⟨hport.not_mem rfl (by decide), hport.not_mem rfl (by decide)⟩

theorem hostChars_of_split {cs : List Char} (hsplit : splitChars cs = some (name, port))
    (hne : name ≠ []) (hport : IsPortText port) : hostChars cs = name := by
  simp [hostChars, hsplit, isPort_iff.mpr hport, hne]

theorem hostChars_bare (hne : name ≠ []) (hcolon : ':' ∉ name)
    (hname : ∀ c ∈ name, isBracket c = false) (hport : IsPortText port) :
    hostChars (name ++ ':' :: port) = name := by
  refine hostChars_of_split (splitChars_eq_some_iff.mpr ?_) hne hport
  exact ⟨Or.inl ⟨rfl, hcolon⟩, any_isBracket hname, hport.not_mem rfl (by decide),
    hport.any_isBracket⟩

theorem hostChars_bracketed (hne : name ≠ []) (hname : ∀ c ∈ name, isBracket c = false)
    (hport : IsPortText port) : hostChars ('[' :: (name ++ [']']) ++ ':' :: port) = name := by
  refine hostChars_of_split (splitChars_eq_some_iff.mpr ?_) hne hport
  exact ⟨Or.inr rfl, any_isBracket hname, hport.not_mem rfl (by decide), hport.any_isBracket⟩

theorem hostChars_of_not_mem {cs : List Char} (h : ':' ∉ cs) : hostChars cs = cs := by
  simp [hostChars, splitChars, cutLastColon_of_not_mem h]

end Host

theorem isBracket_of_isLiteral {c : Char} (hliteral : Address.isLiteral c = true) :
    isBracket c = false := by
  have hopen : c ≠ '[' := by
    rintro rfl
    contradiction
  have hclose : c ≠ ']' := by
    rintro rfl
    contradiction
  simp [isBracket, hopen, hclose]

/-- No literal is taken for a host with a port: what stands before its last colon has a colon too,
and no bracket around it. -/
theorem hostChars_of_parse? {text : String} {a : Address} (h : Address.parse? text = some a) :
    hostChars text.toList = text.toList := by
  rcases Address.colons_of_parse? h with hnone | htwo
  · exact hostChars_of_not_mem hnone
  · obtain ⟨before, port, hcut, hport⟩ :=
      exists_lastColon (List.count_pos_iff.mp (Nat.lt_of_lt_of_le Nat.two_pos htwo))
    have hcolon : ':' ∈ before := by
      rw [hcut, List.count_append, List.count_cons_self, List.count_eq_zero.mpr hport] at htwo
      exact List.count_pos_iff.mp (by omega)
    have hbracket : '[' ∉ before := by
      intro hmem
      have hliteral := Address.all_of_parse? h '[' (by rw [hcut]; exact List.mem_append_left _ hmem)
      contradiction
    rw [hcut]
    simp [hostChars, splitChars, cutLastColon_append hport, hostBefore_eq_none hcolon hbracket]

/-! ### Endpoints as they are written -/

/-- A text with none of these characters. -/
def Without (marks text : String) : Prop :=
  ∀ mark ∈ marks.toList, mark ∉ text.toList

/-- How a host and a port are written as one text. Between brackets the host may have colons. -/
inductive Written (name port : String) : String → Prop
  | bare : Without ":[]" name → Without ":[]" port → Written name port (name ++ ":" ++ port)
  | bracketed : Without "[]" name → Without ":[]" port →
      Written name port ("[" ++ name ++ "]:" ++ port)

/-- A host that is not empty and a port that is a number, written as one text. -/
def Valid (name port address : String) : Prop :=
  Written name port address ∧ name ≠ "" ∧ IsPortText port.toList

section Text

variable {text address name port : String}

theorem without_brackets_iff : Without "[]" text ↔ text.toList.any isBracket = false := by
  rw [any_isBracket_iff]
  simp [Without]

theorem without_marks_iff :
    Without ":[]" text ↔ ':' ∉ text.toList ∧ text.toList.any isBracket = false := by
  rw [any_isBracket_iff]
  simp [Without]

theorem split?_eq_some_iff_chars : split? address = some (name, port) ↔
    splitChars address.toList = some (name.toList, port.toList) := by
  simp only [split?, Option.map_eq_some_iff, Prod.exists, Prod.mk.injEq]
  constructor
  · rintro ⟨own, last, hsplit, rfl, rfl⟩
    rw [hsplit, String.toList_ofList, String.toList_ofList]
  · intro hsplit
    exact ⟨_, _, hsplit, String.ofList_toList, String.ofList_toList⟩

theorem split?_eq_some_iff : split? address = some (name, port) ↔ Written name port address := by
  rw [split?_eq_some_iff_chars, splitChars_eq_some_iff, ← without_brackets_iff,
    ← without_marks_iff]
  constructor
  · rintro ⟨⟨htext, hcolon⟩ | htext, hname, hport⟩
    · have haddress : address = name ++ ":" ++ port :=
        String.toList_injective (by simpa using htext)
      rw [haddress]
      exact .bare (without_marks_iff.mpr ⟨hcolon, without_brackets_iff.mp hname⟩) hport
    · have haddress : address = "[" ++ name ++ "]:" ++ port :=
        String.toList_injective (by simpa using htext)
      rw [haddress]
      exact .bracketed hname hport
  · rintro (⟨hname, hport⟩ | ⟨hname, hport⟩)
    · obtain ⟨hcolon, hbrackets⟩ := without_marks_iff.mp hname
      exact ⟨Or.inl ⟨by simp, hcolon⟩, without_brackets_iff.mpr hbrackets, hport⟩
    · exact ⟨Or.inr (by simp), hname, hport⟩

theorem host_of_valid (h : Valid name port address) : host address = name := by
  obtain ⟨hwritten, hne, hport⟩ := h
  have hsplit := split?_eq_some_iff_chars.mp (split?_eq_some_iff.mpr hwritten)
  rw [host, hostChars_of_split hsplit (by simpa using hne) hport, String.ofList_toList]

theorem host_of_not_valid (h : ∀ name port, ¬Valid name port address) : host address = address := by
  have hchars : hostChars address.toList = address.toList := by
    unfold hostChars
    split
    · next name port hsplit =>
        have hwritten : Written (String.ofList name) (String.ofList port) address := by
          rw [← split?_eq_some_iff, split?_eq_some_iff_chars, hsplit, String.toList_ofList,
            String.toList_ofList]
        have hinvalid := h (String.ofList name) (String.ofList port)
        rw [if_pos]
        by_contra hvalid
        simp only [Bool.or_eq_true, List.isEmpty_iff, Bool.not_eq_true', not_or,
          Bool.not_eq_false] at hvalid
        refine hinvalid ⟨hwritten, by simpa using hvalid.1, ?_⟩
        rw [String.toList_ofList]
        exact isPort_iff.mp hvalid.2
    · rfl
  rw [host, hchars, String.ofList_toList]

end Text

/-- A text splits into the host and the port that it is written of, and only into these. Its host is
that host if it is not empty and the port is a number, and in every other case the whole text. -/
theorem split_host_iff_written (address : String) :
    (∀ name port, split? address = some (name, port) ↔ Written name port address) ∧
      ∀ name, host address = name ↔ (∃ port, Valid name port address) ∨
        name = address ∧ ∀ name port, ¬Valid name port address := by
  refine ⟨fun _ _ => split?_eq_some_iff, fun name => ?_⟩
  constructor
  · rintro rfl
    by_cases hvalid : ∃ name port, Valid name port address
    · obtain ⟨name, port, hvalid⟩ := hvalid
      exact Or.inl ⟨port, (host_of_valid hvalid).symm ▸ hvalid⟩
    · have hnot : ∀ name port, ¬Valid name port address := by simpa using hvalid
      exact Or.inr ⟨host_of_not_valid hnot, hnot⟩
  · rintro (⟨port, hvalid⟩ | ⟨rfl, hnot⟩)
    · exact host_of_valid hvalid
    · exact host_of_not_valid hnot

/-- Without a port that is a number the brackets stay. -/
example : split? "[::1]:" = some ("::1", "") ∧ host "[::1]:" = "[::1]:" := by decide

end HostPolicy.Endpoint
