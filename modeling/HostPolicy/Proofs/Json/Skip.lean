import HostPolicy.Json.Skip
import HostPolicy.Proofs.Json.Grammar
import HostPolicy.Proofs.Json.Text

/-!
# A value that nobody asks for is skipped

Whatever it is and however deeply it nests, the reader ends up behind it. What follows a value
matters to numbers alone, which are not told from their continuation otherwise.
-/

namespace HostPolicy.Json

/-- What may follow a value: a comma, the end of a list or an object, or nothing. -/
def Closes (more : List Token) : Prop :=
  ∀ t ∈ more.head?, t = [','] ∨ t = [']'] ∨ t = ['\x7d']

/-- The characters that may follow a number. -/
def enders : List Char :=
  [' ', '\n', '\t', '\r', ',', ']', '\x7d']

/-- No character that goes on with a number stands in front. -/
def Bounded (rest : List Char) : Prop :=
  ∀ c ∈ rest.head?, c ∈ enders

variable {cs rest : List Char} {more : List Token} {v : Value}

theorem mem_enders_of_isSpace {c : Char} (hspace : isSpace c = true) : c ∈ enders := by
  simp only [isSpace, Bool.or_eq_true, beq_iff_eq] at hspace
  obtain ((rfl | rfl) | rfl) | rfl := hspace <;> decide

theorem Spells.bounded (h : Spells rest more) (hcloses : Closes more) : Bounded rest := by
  intro c hc
  cases h with
  | done hspace => exact mem_enders_of_isSpace (hspace c (List.mem_of_mem_head? hc))
  | @token space cs t ts hspace _ =>
      cases space with
      | nil => obtain rfl | rfl | rfl := hcloses t rfl <;> cases hc <;> decide
      | cons d space =>
          cases hc
          exact mem_enders_of_isSpace (hspace c List.mem_cons_self)

@[elab_as_elim]
theorem Bounded.elim {P : List Char → Prop} (h : Bounded rest) (nil : P [])
    (cons : ∀ c ∈ enders, ∀ cs, P (c :: cs)) : P rest := by
  cases rest with
  | nil => exact nil
  | cons c cs => exact cons c (h c rfl) cs

/-! ### Numbers -/

theorem Bounded.skipScale (h : Bounded rest) : skipScale rest = .ok rest := by
  refine h.elim rfl ?_
  simp [enders, Json.skipScale]

theorem Bounded.skipTail (h : Bounded rest) : skipTail rest = .ok rest := by
  refine h.elim rfl ?_
  simp [enders, Json.skipTail, Json.skipScale]

theorem Bounded.startsWithDigit (h : Bounded rest) : startsWithDigit rest = false := by
  refine h.elim rfl ?_
  simp [enders, Json.startsWithDigit]

theorem Digits.exists_cons (ds : Digits) :
    ∃ d rest, ds.val = d :: rest ∧ d.isDigit = true := by
  obtain ⟨ds, hne, hdigits⟩ := ds
  cases ds with
  | nil => contradiction
  | cons d rest => exact ⟨d, rest, rfl, hdigits d List.mem_cons_self⟩

theorem startsWithDigit_digits (ds : Digits) (rest : List Char) :
    startsWithDigit (ds.val ++ rest) = true := by
  obtain ⟨d, tail, hds, hdigit⟩ := ds.exists_cons
  simp [hds, startsWithDigit, hdigit]

theorem dropWhile_digits (ds : Digits) (hend : startsWithDigit rest = false) :
    (ds.val ++ rest).dropWhile Char.isDigit = rest := by
  rw [List.dropWhile_append_of_pos ds.property.2]
  cases rest with
  | nil => rfl
  | cons c cs =>
      have hother : c.isDigit = false := hend
      simp [hother]

theorem startsWithDigit_exponent (e : Option Exponent) (h : Bounded rest) :
    startsWithDigit (exponentChars e ++ rest) = false := by
  cases e with
  | none => exact h.startsWithDigit
  | some e =>
      obtain ⟨letter, sign, digits, rfl | rfl, _⟩ := e <;> rfl

theorem skipExponent_digits (e : Exponent) (h : Bounded rest) :
    skipExponent (e.sign ++ (e.digits.val ++ rest)) = .ok rest := by
  have hstarts := startsWithDigit_digits e.digits rest
  have hdrop := dropWhile_digits e.digits h.startsWithDigit
  obtain hsign | hsign | hsign := e.sign_eq
  · obtain ⟨d, tail, hds, hdigit⟩ := e.digits.exists_cons
    have hplus : d ≠ '+' := by
      rintro rfl
      contradiction
    have hminus : d ≠ '-' := by
      rintro rfl
      contradiction
    simp only [hds, List.cons_append] at hstarts hdrop
    simp [hsign, hds, skipExponent, hplus, hminus, hstarts, hdrop]
  · simp [hsign, skipExponent, hstarts, hdrop]
  · simp [hsign, skipExponent, hstarts, hdrop]

theorem skipScale_exponent (e : Option Exponent) (h : Bounded rest) :
    skipScale (exponentChars e ++ rest) = .ok rest := by
  cases e with
  | none => exact h.skipScale
  | some e =>
      have hskip := skipExponent_digits e h
      obtain hletter | hletter := e.letter_eq <;>
        simpa [exponentChars, Exponent.chars, hletter, skipScale] using hskip

theorem skipTail_scale (n : Numeral) (h : Bounded rest) :
    skipTail (n.scaleChars ++ rest) = .ok rest := by
  have hscale := skipScale_exponent n.exponent h
  rw [Numeral.scaleChars]
  cases n.fraction with
  | none =>
      cases he : n.exponent with
      | none => exact h.skipTail
      | some e =>
          rw [he] at hscale
          obtain hletter | hletter := e.letter_eq <;>
            simpa [fractionChars, exponentChars, Exponent.chars, hletter, skipTail] using hscale
  | some ds =>
      have hdrop := dropWhile_digits ds (startsWithDigit_exponent n.exponent h)
      simp [fractionChars, skipTail, startsWithDigit_digits, hdrop, hscale]

theorem startsWithDigit_scale (n : Numeral) (h : Bounded rest) :
    startsWithDigit (n.scaleChars ++ rest) = false := by
  rw [Numeral.scaleChars]
  cases n.fraction with
  | none => exact startsWithDigit_exponent n.exponent h
  | some ds => rfl

theorem skipNumber_numeral (n : Numeral) (h : Bounded rest) :
    skipNumber (n.token ++ rest) = .ok rest := by
  have htail := skipTail_scale n h
  have hend := startsWithDigit_scale n h
  have hstarts := startsWithDigit_digits n.whole (n.scaleChars ++ rest)
  have hdrop := dropWhile_digits n.whole hend
  obtain ⟨d, tail, hds, hdigit⟩ := n.whole.exists_cons
  have hzero := n.zero_alone
  have hminus : d ≠ '-' := by
    rintro rfl
    contradiction
  simp only [hds, List.cons_append] at hstarts hdrop
  rw [hds] at hzero
  by_cases hd : d = '0'
  · subst hd
    have htail' : tail = [] := by simpa using hzero rfl
    subst htail'
    cases hn : n.negative <;>
      simp [Numeral.token, hn, hds, skipNumber, hend, htail]
  · cases hn : n.negative <;>
      simp [Numeral.token, hn, hds, skipNumber, hminus, hd, hstarts, hdrop, htail]

/-! ### Texts -/

theorem skipQuoted_close (rest : List Char) : skipQuoted ('"' :: rest) = .ok rest := by
  rw [skipQuoted]

theorem unescape?_of_mem {c e : Char} (h : (c, e) ∈ ('/', '/') :: shortEscapes) :
    e ≠ 'u' ∧ unescape? e = some c := by
  simp only [shortEscapes, List.mem_cons, List.not_mem_nil, Prod.mk.injEq, or_false] at h
  obtain ⟨rfl, rfl⟩ | ⟨rfl, rfl⟩ | ⟨rfl, rfl⟩ | ⟨rfl, rfl⟩ | ⟨rfl, rfl⟩ | ⟨rfl, rfl⟩ | ⟨rfl, rfl⟩ |
    ⟨rfl, rfl⟩ := h <;> decide

theorem skipQuoted_short {c e : Char} (h : (c, e) ∈ ('/', '/') :: shortEscapes)
    (rest : List Char) : skipQuoted ('\\' :: e :: rest) = skipQuoted rest := by
  obtain ⟨hcode, hknown⟩ := unescape?_of_mem h
  rw [skipQuoted]
  · simp [hknown]
  · exact hcode

theorem skipQuoted_code (digits : HexDigits) (rest : List Char) :
    skipQuoted ('\\' :: 'u' :: (digits.val ++ rest)) = skipQuoted rest := by
  have hread := readHex_isHex digits.property.1 digits.property.2 rest
  rw [skipQuoted]
  split
  · next fault hfault =>
      rw [hread] at hfault
      contradiction
  · next n after hafter =>
      rw [hread] at hafter
      cases hafter
      rfl

theorem skipQuoted_glyph (g : Glyph) (rest : List Char) :
    skipQuoted (g.chars ++ rest) = skipQuoted rest := by
  cases g with
  | plain c unescaped =>
      obtain ⟨hquote, hbackslash, hplain⟩ := unescaped
      rw [Glyph.chars, List.singleton_append, skipQuoted]
      · rw [if_neg hplain]
      · exact hquote
      · simp [hbackslash]
      · simp [hbackslash]
      · simp [hbackslash]
  | short c e paired => exact skipQuoted_short paired rest
  | code digits => exact skipQuoted_code digits rest

theorem skipQuoted_glyphs (q : Quoted) (rest : List Char) :
    skipQuoted (q.flatMap Glyph.chars ++ '"' :: rest) = .ok rest := by
  induction q with
  | nil => exact skipQuoted_close rest
  | cons g q ih => rw [List.flatMap_cons, List.append_assoc, skipQuoted_glyph, ih]

theorem Quoted.token_append (q : Quoted) (rest : List Char) :
    q.token ++ rest = '"' :: (q.flatMap Glyph.chars ++ '"' :: rest) := by
  simp [token]

/-! ### Values -/

/-- However much has to be closed behind it, the value is skipped and the stack is left. -/
def Skipped (v : Value) : Prop :=
  ∀ fuel stack cs more, Closes more → Spells cs (v.tokens ++ more) → cs.length < fuel →
    ∃ fuel' rest, skipFrom fuel stack cs = skipRest fuel' stack rest ∧ Spells rest more ∧
      rest.length < fuel'

variable {fuel : Nat} {t : Token}

/-- A value of one token takes one round. -/
theorem skipped_token (htoken : v.tokens = [t]) (hsolid : Solid t)
    (hround : ∀ fuel stack cs rest, skipSpace cs = t ++ rest → Bounded rest →
      skipFrom (fuel + 1) stack cs = skipRest fuel stack rest) : Skipped v := by
  intro fuel stack cs more hcloses hspells hfuel
  rw [htoken] at hspells
  obtain ⟨rest, hskip, hrest, hlength⟩ := hspells.skipSpace_token hsolid
  obtain ⟨fuel, rfl⟩ := Nat.exists_eq_succ_of_ne_zero (Nat.ne_of_gt (Nat.zero_lt_of_lt hfuel))
  refine ⟨fuel, rest, hround fuel stack cs rest hskip (hrest.bounded hcloses), hrest, ?_⟩
  obtain ⟨c, w, rfl, _⟩ := hsolid
  rw [List.length_cons] at hlength
  omega

theorem skipped_null : Skipped .null := by
  refine skipped_token rfl (solid_cons rfl _) ?_
  intro fuel stack cs rest hskip _
  simp [skipFrom, valueText, hskip, readWord, bind, Except.bind]

theorem skipped_bool (b : Bool) : Skipped (.bool b) := by
  cases b with
  | true =>
      refine skipped_token rfl (solid_cons rfl _) ?_
      intro fuel stack cs rest hskip _
      simp [skipFrom, valueText, hskip, readWord, bind, Except.bind]
  | false =>
      refine skipped_token rfl (solid_cons rfl _) ?_
      intro fuel stack cs rest hskip _
      simp [skipFrom, valueText, hskip, readWord, bind, Except.bind]

theorem skipped_text (q : Quoted) : Skipped (.text q) := by
  refine skipped_token rfl q.solid ?_
  intro fuel stack cs rest hskip _
  rw [q.token_append] at hskip
  simp [skipFrom, valueText, hskip, skipQuoted_glyphs, bind, Except.bind]

theorem skipped_number (n : Numeral) : Skipped (.number n) := by
  refine skipped_token rfl n.solid ?_
  intro fuel stack cs rest hskip hbounded
  have hread := skipNumber_numeral n hbounded
  have hstarts := n.startsNumber rest
  obtain ⟨c, w, hcons, _, hother⟩ := exists_of_startsNumber hstarts
  rw [hcons] at hskip hread hstarts
  simp only [List.mem_cons, List.not_mem_nil, or_false, not_or] at hother
  simp [skipFrom, valueText, hskip, hother, hstarts, hread, bind, Except.bind]

theorem closes_elements (values : List Value) (more : List Token) :
    Closes (elementTokens false values ++ more) := by
  cases values with
  | nil =>
      rintro t ⟨⟩
      exact Or.inr (Or.inl rfl)
  | cons v values =>
      rintro t ⟨⟩
      exact Or.inl rfl

theorem closes_members (members : List (Quoted × Value)) (more : List Token) :
    Closes (memberTokens false members ++ more) := by
  cases members with
  | nil =>
      rintro t ⟨⟩
      exact Or.inr (Or.inr rfl)
  | cons m members =>
      rintro t ⟨⟩
      exact Or.inl rfl

/-- Once an element of a list was skipped, the others are. -/
theorem skipRest_elements {values : List Value} (h : ∀ v ∈ values, Skipped v)
    (hcs : Spells cs (elementTokens false values ++ more)) (hfuel : cs.length < fuel)
    (stack : List Frame) :
    ∃ fuel' rest, skipRest fuel (.list :: stack) cs = skipRest fuel' stack rest ∧
      Spells rest more ∧ rest.length < fuel' := by
  induction values generalizing cs fuel with
  | nil =>
      obtain ⟨rest, hskip, hrest, hlength⟩ := hcs.skipSpace_token (solid_cons rfl _)
      obtain ⟨fuel, rfl⟩ := Nat.exists_eq_succ_of_ne_zero (Nat.ne_of_gt (Nat.zero_lt_of_lt hfuel))
      refine ⟨fuel, rest, ?_, hrest, ?_⟩
      · simp [skipRest, hskip]
      · simp only [List.length_cons, List.length_nil] at hlength
        omega
  | cons v values ih =>
      obtain ⟨hv, hvalues⟩ := List.forall_mem_cons.mp h
      rw [elementTokens, List.cons_append, List.append_assoc] at hcs
      obtain ⟨rest, hskip, hrest, hlength⟩ := hcs.skipSpace_token (solid_cons rfl _)
      simp only [List.length_cons, List.length_nil] at hlength
      obtain ⟨fuel, rfl⟩ := Nat.exists_eq_succ_of_ne_zero (Nat.ne_of_gt (Nat.zero_lt_of_lt hfuel))
      obtain ⟨fuel', rest', heq, hrest', hfuel'⟩ :=
        hv fuel (.list :: stack) rest _ (closes_elements values more) hrest (by omega)
      obtain ⟨last, after, hlast, hafter⟩ := ih hvalues hrest' hfuel'
      refine ⟨last, after, ?_, hafter⟩
      simp [skipRest, hskip, heq, hlast]

theorem skipped_list {values : List Value} (h : ∀ v ∈ values, Skipped v) :
    Skipped (.list values) := by
  intro fuel stack cs more hcloses hspells hfuel
  rw [Value.tokens, List.cons_append] at hspells
  obtain ⟨rest, hskip, hrest, hlength⟩ := hspells.skipSpace_token (solid_cons rfl _)
  simp only [List.length_cons, List.length_nil] at hlength
  obtain ⟨fuel, rfl⟩ := Nat.exists_eq_succ_of_ne_zero (Nat.ne_of_gt (Nat.zero_lt_of_lt hfuel))
  cases values with
  | nil =>
      obtain ⟨after, hclose, hafter, hshorter⟩ := hrest.skipSpace_token (solid_cons rfl _)
      simp only [List.length_cons, List.length_nil] at hshorter
      refine ⟨fuel, after, ?_, hafter, by omega⟩
      simp [skipFrom, valueText, hskip, hclose, bind, Except.bind]
  | cons v values =>
      obtain ⟨hv, hvalues⟩ := List.forall_mem_cons.mp h
      rw [elementTokens, List.append_assoc] at hrest
      obtain ⟨c, w, hfirst, hend, hvalue, hshorter⟩ := hrest.skipSpace_value
      obtain ⟨fuel', rest', heq, hrest', hfuel'⟩ :=
        hv fuel (.list :: stack) (c :: w) _ (closes_elements values more) hvalue (by omega)
      obtain ⟨last, after, hlast, hafter⟩ := skipRest_elements hvalues hrest' hfuel' stack
      refine ⟨last, after, ?_, hafter⟩
      simp [skipFrom, valueText, hskip, hfirst, hend, heq, hlast, bind, Except.bind]

theorem Spells.readColon {ts : List Token} (h : Spells cs ([':'] :: ts)) :
    ∃ rest, readColon cs = .ok rest ∧ Spells rest ts ∧ rest.length < cs.length := by
  obtain ⟨rest, hskip, hrest, hlength⟩ := h.skipSpace_token (solid_cons rfl _)
  simp only [List.length_cons, List.length_nil] at hlength
  exact ⟨rest, by simp [Json.readColon, hskip], hrest, by omega⟩

theorem Spells.skipKey {key : Quoted} {ts : List Token}
    (h : Spells cs (key.token :: [':'] :: ts)) :
    ∃ rest, skipKey cs = .ok rest ∧ Spells rest ts ∧ rest.length < cs.length := by
  obtain ⟨rest, hskip, hrest, hlength⟩ := h.skipSpace_token key.solid
  obtain ⟨after, hcolon, hafter, hshorter⟩ := hrest.readColon
  rw [key.token_append] at hskip
  exact ⟨after, by simp [Json.skipKey, hskip, skipQuoted_glyphs, hcolon, bind, Except.bind],
    hafter, by omega⟩

/-- Once a member of an object was skipped, the others are. -/
theorem skipRest_members {members : List (Quoted × Value)} (h : ∀ m ∈ members, Skipped m.2)
    (hcs : Spells cs (memberTokens false members ++ more)) (hfuel : cs.length < fuel)
    (stack : List Frame) :
    ∃ fuel' rest, skipRest fuel (.object :: stack) cs = skipRest fuel' stack rest ∧
      Spells rest more ∧ rest.length < fuel' := by
  induction members generalizing cs fuel with
  | nil =>
      obtain ⟨rest, hskip, hrest, hlength⟩ := hcs.skipSpace_token (solid_cons rfl _)
      obtain ⟨fuel, rfl⟩ := Nat.exists_eq_succ_of_ne_zero (Nat.ne_of_gt (Nat.zero_lt_of_lt hfuel))
      refine ⟨fuel, rest, ?_, hrest, ?_⟩
      · simp [skipRest, hskip]
      · simp only [List.length_cons, List.length_nil] at hlength
        omega
  | cons m members ih =>
      obtain ⟨key, v⟩ := m
      obtain ⟨hv, hmembers⟩ := List.forall_mem_cons.mp h
      rw [memberTokens, List.cons_append, List.cons_append, List.cons_append,
        List.append_assoc] at hcs
      obtain ⟨keyed, hskip, hkeyed, hlength⟩ := hcs.skipSpace_token (solid_cons rfl _)
      simp only [List.length_cons, List.length_nil] at hlength
      obtain ⟨rest, hkey, hrest, hshorter⟩ := hkeyed.skipKey
      obtain ⟨fuel, rfl⟩ := Nat.exists_eq_succ_of_ne_zero (Nat.ne_of_gt (Nat.zero_lt_of_lt hfuel))
      obtain ⟨fuel', rest', heq, hrest', hfuel'⟩ :=
        hv fuel (.object :: stack) rest _ (closes_members members more) hrest (by omega)
      obtain ⟨last, after, hlast, hafter⟩ := ih hmembers hrest' hfuel'
      refine ⟨last, after, ?_, hafter⟩
      simp [skipRest, hskip, hkey, heq, hlast, bind, Except.bind]

theorem skipped_object {members : List (Quoted × Value)} (h : ∀ m ∈ members, Skipped m.2) :
    Skipped (.object members) := by
  intro fuel stack cs more hcloses hspells hfuel
  rw [Value.tokens, List.cons_append] at hspells
  obtain ⟨rest, hskip, hrest, hlength⟩ := hspells.skipSpace_token (solid_cons rfl _)
  simp only [List.length_cons, List.length_nil] at hlength
  obtain ⟨fuel, rfl⟩ := Nat.exists_eq_succ_of_ne_zero (Nat.ne_of_gt (Nat.zero_lt_of_lt hfuel))
  cases members with
  | nil =>
      obtain ⟨after, hclose, hafter, hshorter⟩ := hrest.skipSpace_token (solid_cons rfl _)
      simp only [List.length_cons, List.length_nil] at hshorter
      refine ⟨fuel, after, ?_, hafter, by omega⟩
      simp [skipFrom, valueText, hskip, hclose, bind, Except.bind]
  | cons m members =>
      obtain ⟨key, v⟩ := m
      obtain ⟨hv, hmembers⟩ := List.forall_mem_cons.mp h
      rw [memberTokens, List.cons_append, List.cons_append, List.append_assoc] at hrest
      obtain ⟨quoted, hquoted, _⟩ := hrest.skipSpace_token key.solid
      obtain ⟨hsame, hnotlonger⟩ := hrest.of_skipSpace key.solid
      rw [key.token_append] at hquoted
      rw [hquoted] at hsame hnotlonger
      obtain ⟨value, hkey, hvalue, hshorter⟩ := hsame.skipKey
      obtain ⟨fuel', rest', heq, hrest', hfuel'⟩ :=
        hv fuel (.object :: stack) value _ (closes_members members more) hvalue (by omega)
      obtain ⟨last, after, hlast, hafter⟩ := skipRest_members hmembers hrest' hfuel' stack
      refine ⟨last, after, ?_, hafter⟩
      simp [skipFrom, valueText, hskip, hquoted, hkey, heq, hlast, bind, Except.bind]

theorem skipped (v : Value) : Skipped v := by
  induction v using Value.induction with
  | null => exact skipped_null
  | bool b => exact skipped_bool b
  | number n => exact skipped_number n
  | text q => exact skipped_text q
  | list values ih => exact skipped_list ih
  | object members ih => exact skipped_object ih

theorem skipValue_spelled (h : Spells cs (v.tokens ++ more)) (hcloses : Closes more) :
    ∃ rest, skipValue cs = .ok rest ∧ Spells rest more := by
  obtain ⟨fuel, rest, heq, hrest, hfuel⟩ :=
    skipped v (cs.length + 1) [] cs more hcloses h (Nat.lt_succ_self _)
  obtain ⟨fuel, rfl⟩ := Nat.exists_eq_succ_of_ne_zero (Nat.ne_of_gt (Nat.zero_lt_of_lt hfuel))
  exact ⟨rest, by rw [skipValue, heq, skipRest], hrest⟩

end HostPolicy.Json
