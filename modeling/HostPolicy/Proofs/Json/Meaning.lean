import HostPolicy.Proofs.Json.Skip

/-!
# What a value means to a reader

A reader of values of one type makes of every value either what it means or a fault, and in the
first case it ends up behind the value. So how the value is spelled does not matter to it.
-/

namespace HostPolicy.Json

variable {α β : Type}

def Fails (result : Except Fault α) : Prop :=
  ∃ fault, result = .error fault

/-- A reading answers the meaning, if there is one, and leaves what follows; otherwise it fails. -/
def Reads (result : Except Fault (α × List Char)) (meaning : Option α) (more : List Token) : Prop :=
  match meaning with
  | some a => ∃ rest, result = .ok (a, rest) ∧ Spells rest more
  | none => Fails result

/-- The reader makes of every value what it means. -/
def Follows (read : List Char → Except Fault (α × List Char)) (meaning : Value → Option α) : Prop :=
  ∀ ⦃v cs more⦄, Closes more → Spells cs (v.tokens ++ more) → Reads (read cs) (meaning v) more

theorem ok_bind {ε : Type} (a : α) (next : α → Except ε β) : (Except.ok a >>= next) = next a :=
  rfl

variable {cs rest : List Char} {more later : List Token} {v : Value}

theorem fails_fail (complaint : Complaint) (cs : List Char) : Fails (α := α) (fail complaint cs) :=
  ⟨_, rfl⟩

theorem fails_failPast (complaint : Complaint) (cs : List Char) :
    Fails (α := α) (failPast complaint cs) :=
  ⟨_, rfl⟩

theorem Fails.then {result : Except Fault α} (h : Fails result) (next : α → Except Fault β) :
    Fails (result >>= next) := by
  obtain ⟨fault, rfl⟩ := h
  exact ⟨fault, rfl⟩

theorem Fails.bind {result : Except Fault α} {next : α → Except Fault β}
    (h : ∀ a, result = .ok a → Fails (next a)) : Fails (result >>= next) := by
  cases result with
  | error fault => exact ⟨fault, rfl⟩
  | ok a => exact h a rfl

theorem Reads.bind {result : Except Fault (α × List Char)} {meaning : Option α}
    {next : α × List Char → Except Fault (β × List Char)} {meaning' : α → Option β}
    (h : Reads result meaning more)
    (hnext : ∀ a rest, Spells rest more → Reads (next (a, rest)) (meaning' a) later) :
    Reads (result >>= next) (meaning >>= meaning') later := by
  cases meaning with
  | none => exact Fails.then h _
  | some a =>
      obtain ⟨rest, rfl, hrest⟩ := h
      exact hnext a rest hrest

theorem Reads.map {result : Except Fault (α × List Char)} {meaning : Option α} (f : α → β)
    (h : Reads result meaning more) :
    Reads (result >>= fun p => pure (f p.1, p.2)) (meaning.map f) more := by
  cases meaning with
  | none => exact Fails.then h _
  | some a =>
      obtain ⟨rest, rfl, hrest⟩ := h
      exact ⟨rest, rfl, hrest⟩

/-! ### Words and texts -/

def Value.bool? : Value → Option Bool
  | .bool b => some b
  | _ => none

def Value.text? : Value → Option String
  | .text q => q.text?
  | _ => none

/-- A value of another type is complained about. -/
theorem fails_mistyped (expected : String) (cs : List Char) :
    Fails (α := α) (mistyped expected cs) := by
  unfold mistyped
  split
  · exact Fails.bind fun _ _ => fails_fail _ _
  · exact Fails.bind fun _ _ => fails_fail _ _
  · exact Fails.bind fun _ _ => fails_fail _ _
  · exact Fails.bind fun _ _ => fails_fail _ _
  · exact fails_fail _ _
  · exact fails_fail _ _
  · split
    · exact Fails.bind fun _ _ => fails_fail _ _
    · exact fails_failPast _ _
  · exact fails_fail _ _

/-- What a reader from behind the opening quote answers. -/
def Settles (result : Except Fault (α × List Char)) (meaning : Option α) (rest : List Char) :
    Prop :=
  match meaning with
  | some a => result = .ok (a, rest)
  | none => Fails result

theorem Settles.escape {c : Char} {cs' : List Char} {o : Option (List Char)}
    (hescape : readEscape cs = .ok (c, cs')) (h : Settles (readQuoted cs') o rest) :
    Settles (readQuoted ('\\' :: cs)) (o.map (c :: ·)) rest := by
  cases o with
  | some read => exact readQuoted_escape hescape h
  | none =>
      obtain ⟨fault, h⟩ := h
      refine ⟨fault, ?_⟩
      rw [readQuoted]
      split
      · next other hother =>
          rw [hescape] at hother
          contradiction
      · next d after hafter =>
          rw [hescape] at hafter
          cases hafter
          rw [h]
          rfl

theorem Settles.plain {c : Char} {cs : List Char} {o : Option (List Char)}
    (hquote : c ≠ '"') (hbackslash : c ≠ '\\') (hplain : ¬c.toNat < 0x20)
    (h : Settles (readQuoted cs) o rest) :
    Settles (readQuoted (c :: cs)) (o.map (c :: ·)) rest := by
  cases o with
  | some read => exact readQuoted_plain hquote hbackslash hplain h
  | none =>
      obtain ⟨fault, h⟩ := h
      refine ⟨fault, ?_⟩
      rw [readQuoted]
      · rw [if_neg hplain, h]
        rfl
      · exact hquote
      · exact hbackslash

theorem fails_readQuoted_escape (h : Fails (readEscape cs)) : Fails (readQuoted ('\\' :: cs)) := by
  obtain ⟨fault, h⟩ := h
  refine ⟨fault, ?_⟩
  rw [readQuoted]
  split
  · next other hother =>
      rw [h] at hother
      cases hother
      rfl
  · next d after hafter =>
      rw [h] at hafter
      contradiction

theorem readEscape_mem {c e : Char} (h : (c, e) ∈ ('/', '/') :: shortEscapes) (cs : List Char) :
    readEscape (e :: cs) = .ok (c, cs) := by
  obtain ⟨hcode, hknown⟩ := unescape?_of_mem h
  rw [readEscape]
  · rw [hknown]
  · exact hcode

theorem readEscape_code (digits : HexDigits) (cs : List Char) :
    readEscape ('u' :: (digits.val ++ cs)) =
      if isTrailing digits.value then fail .loneSurrogate cs
      else if isLeading digits.value then readTrailing digits.value cs
      else .ok (Char.ofNat digits.value, cs) := by
  rw [readEscape, readHex_isHex digits.property.1 digits.property.2]
  rfl

theorem readTrailing_code (leading : Nat) (digits : HexDigits) (cs : List Char) :
    readTrailing leading ('\\' :: 'u' :: (digits.val ++ cs)) =
      if isTrailing digits.value then .ok (ofSurrogates leading digits.value, cs)
      else fail .loneSurrogate cs := by
  rw [readTrailing, readHex_isHex digits.property.1 digits.property.2]
  rfl

theorem isTrailing_of_isLeading {n : Nat} (h : isLeading n = true) : isTrailing n = false := by
  simp only [isLeading, Bool.and_eq_true, decide_eq_true_eq] at h
  simp only [isTrailing, Bool.and_eq_false_iff, decide_eq_false_iff_not]
  omega

/-- A text that goes on with a glyph other than an escape of digits leaves the surrogate alone. -/
theorem fails_readTrailing_glyph (leading : Nat) (g : Glyph) (hcode : ∀ digits, g ≠ .code digits)
    (cs : List Char) : Fails (readTrailing leading (g.chars ++ cs)) := by
  cases g with
  | plain c unescaped =>
      refine ⟨.past .halfSurrogatePair (c :: cs), ?_⟩
      rw [Glyph.chars, List.singleton_append, readTrailing]
      · rfl
      · simp
      · simp [unescaped.2.1]
      · simp [unescaped.2.1]
      · simp [unescaped.2.1]
  | short c e paired =>
      obtain ⟨hother, _⟩ := unescape?_of_mem paired
      refine ⟨.past .halfSurrogatePair (e :: cs), ?_⟩
      simp [Glyph.chars, readTrailing, hother, failPast]
  | code digits => exact absurd rfl (hcode digits)

/-- With an escape of four digits in front; a leading surrogate is read with what follows it. -/
theorem settles_code {q : Quoted} {digits : HexDigits}
    (h : Settles (readQuoted cs) (q.decodeFrom none) rest)
    (hpair : isLeading digits.value = true →
      Settles (readQuoted ((Glyph.code digits).chars ++ cs)) (q.decodeFrom (some digits.value))
        rest) :
    Settles (readQuoted ((Glyph.code digits).chars ++ cs))
      (Quoted.decodeFrom none (.code digits :: q)) rest := by
  have hread := readEscape_code digits cs
  simp only [Quoted.decodeFrom]
  by_cases htrailing : isTrailing digits.value = true
  · rw [if_pos htrailing] at hread ⊢
    exact fails_readQuoted_escape ⟨_, hread⟩
  · rw [if_neg htrailing] at hread ⊢
    by_cases hleading : isLeading digits.value = true
    · rw [if_pos hleading]
      exact hpair hleading
    · rw [if_neg hleading] at hread ⊢
      exact h.escape hread

/-- With a leading surrogate in front and another glyph behind it, which has to be the trailing. -/
theorem settles_pair {q : Quoted} {digits : HexDigits} (hleading : isLeading digits.value = true)
    (g : Glyph) (h : Settles (readQuoted cs) (q.decodeFrom none) rest) :
    Settles (readQuoted ((Glyph.code digits).chars ++ (g.chars ++ cs)))
      (Quoted.decodeFrom (some digits.value) (g :: q)) rest := by
  have hread : readEscape ('u' :: (digits.val ++ (g.chars ++ cs))) =
      readTrailing digits.value (g.chars ++ cs) := by
    rw [readEscape_code, isTrailing_of_isLeading hleading, if_neg Bool.false_ne_true,
      if_pos hleading]
  have hlone : Fails (readTrailing digits.value (g.chars ++ cs)) →
      Fails (readQuoted ((Glyph.code digits).chars ++ (g.chars ++ cs))) :=
    fun h => fails_readQuoted_escape (hread ▸ h)
  cases g with
  | plain c unescaped => exact hlone (fails_readTrailing_glyph _ _ (by simp) cs)
  | short c e paired => exact hlone (fails_readTrailing_glyph _ _ (by simp) cs)
  | code other =>
      have htrailing := readTrailing_code digits.value other cs
      simp only [Quoted.decodeFrom]
      by_cases hpaired : isTrailing other.value = true
      · rw [if_pos hpaired] at htrailing ⊢
        exact h.escape (hread.trans htrailing)
      · rw [if_neg hpaired] at htrailing ⊢
        exact hlone ⟨_, htrailing⟩

/-- By induction on the text, and with it for what follows a leading surrogate. -/
theorem settles_glyphs (q : Quoted) (rest : List Char) :
    Settles (readQuoted (q.flatMap Glyph.chars ++ '"' :: rest)) (q.decodeFrom none) rest ∧
      ∀ digits : HexDigits, isLeading digits.value = true →
        Settles (readQuoted ((Glyph.code digits).chars ++ (q.flatMap Glyph.chars ++ '"' :: rest)))
          (q.decodeFrom (some digits.value)) rest := by
  induction q with
  | nil =>
      refine ⟨readQuoted_close rest, ?_⟩
      intro digits hleading
      have hread := readEscape_code digits ('"' :: rest)
      rw [isTrailing_of_isLeading hleading, hleading] at hread
      exact fails_readQuoted_escape ⟨_, hread⟩
  | cons g q ih =>
      obtain ⟨ih, ihpair⟩ := ih
      rw [List.flatMap_cons, List.append_assoc]
      refine ⟨?_, fun digits hleading => settles_pair hleading g ih⟩
      cases g with
      | plain c unescaped => exact ih.plain unescaped.1 unescaped.2.1 unescaped.2.2
      | short c e paired => exact ih.escape (readEscape_mem paired _)
      | code digits => exact settles_code ih (ihpair digits)

theorem reads_quoted (q : Quoted) (h : Spells rest more) :
    Reads (readQuoted (q.flatMap Glyph.chars ++ '"' :: rest)) (q.decodeFrom none) more := by
  have hread := (settles_glyphs q rest).1
  generalize q.decodeFrom none = o at hread ⊢
  cases o with
  | none => exact hread
  | some read => exact ⟨rest, hread, h⟩

/-! ### The type of a value shows in its first character -/

structure Announces (c : Char) (v : Value) : Prop where
  null : c = 'n' → v = .null
  bool : c = 't' ∨ c = 'f' → ∃ b, v = .bool b
  text : c = '"' → ∃ q, v = .text q
  list : c = '[' → ∃ values, v = .list values
  object : c = '\x7b' → ∃ members, v = .object members
  number : startsNumber [c] = true → ∃ n, v = .number n

theorem announces_null : Announces 'n' .null := by
  constructor <;> simp [startsNumber, startsWithDigit]

theorem announces_bool (b : Bool) : Announces (if b then 't' else 'f') (.bool b) := by
  cases b <;> constructor <;> simp [startsNumber, startsWithDigit]

theorem announces_text (q : Quoted) : Announces '"' (.text q) := by
  constructor <;> simp [startsNumber, startsWithDigit]

theorem announces_list (values : List Value) : Announces '[' (.list values) := by
  constructor <;> simp [startsNumber, startsWithDigit]

theorem announces_object (members : List (Quoted × Value)) :
    Announces '\x7b' (.object members) := by
  constructor <;> simp [startsNumber, startsWithDigit]

theorem Spells.valueText_value (h : Spells cs (v.tokens ++ more)) :
    ∃ c w, skipSpace cs = c :: w ∧ valueText cs = .ok (c :: w) ∧ Announces c v := by
  obtain ⟨c, w, hskip, hannounces⟩ : ∃ c w, skipSpace cs = c :: w ∧ Announces c v := by
    cases v with
    | null =>
        obtain ⟨rest, hskip, _⟩ := h.skipSpace_token (solid_cons rfl _)
        exact ⟨_, _, hskip, announces_null⟩
    | bool b =>
        cases b with
        | true =>
            obtain ⟨rest, hskip, _⟩ := h.skipSpace_token (solid_cons rfl _)
            exact ⟨_, _, hskip, announces_bool true⟩
        | false =>
            obtain ⟨rest, hskip, _⟩ := h.skipSpace_token (solid_cons rfl _)
            exact ⟨_, _, hskip, announces_bool false⟩
    | number n =>
        obtain ⟨rest, hskip, _⟩ := h.skipSpace_token n.solid
        obtain ⟨c, w, hcons, _, hother⟩ := exists_of_startsNumber (n.startsNumber rest)
        refine ⟨c, w, hskip.trans hcons, ?_⟩
        simp only [List.mem_cons, List.not_mem_nil, or_false, not_or] at hother
        constructor <;> simp [hother]
    | text q =>
        obtain ⟨rest, hskip, _⟩ := h.skipSpace_token q.solid
        exact ⟨_, _, hskip, announces_text q⟩
    | list values =>
        obtain ⟨rest, hskip, _⟩ := h.skipSpace_token (solid_cons rfl _)
        exact ⟨_, _, hskip, announces_list values⟩
    | object members =>
        obtain ⟨rest, hskip, _⟩ := h.skipSpace_token (solid_cons rfl _)
        exact ⟨_, _, hskip, announces_object members⟩
  exact ⟨c, w, hskip, by rw [valueText, hskip], hannounces⟩

theorem fails_readBool (hother : ∀ b, v ≠ .bool b) (h : Spells cs (v.tokens ++ more)) :
    Fails (readBool cs) := by
  obtain ⟨c, w, _, hvalue, hannounces⟩ := h.valueText_value
  have htrue : c ≠ 't' := fun hc => absurd (hannounces.bool (Or.inl hc)) (by simp [hother])
  have hfalse : c ≠ 'f' := fun hc => absurd (hannounces.bool (Or.inr hc)) (by simp [hother])
  simpa [readBool, hvalue, htrue, hfalse, bind, Except.bind] using fails_mistyped _ _

theorem follows_bool : Follows readBool Value.bool? := by
  intro v cs more _ h
  cases v with
  | bool b =>
      cases b with
      | true =>
          obtain ⟨rest, hvalue, hrest⟩ := h.valueText_token (solid_cons rfl _)
          exact ⟨rest, by simp [readBool, hvalue, readWord, ok_bind, pure, Except.pure], hrest⟩
      | false =>
          obtain ⟨rest, hvalue, hrest⟩ := h.valueText_token (solid_cons rfl _)
          exact ⟨rest, by simp [readBool, hvalue, readWord, ok_bind, pure, Except.pure], hrest⟩
  | _ => exact fails_readBool (by simp) h

theorem fails_readTextAs (expected : String) (hother : ∀ q, v ≠ .text q)
    (h : Spells cs (v.tokens ++ more)) : Fails (readTextAs expected cs) := by
  obtain ⟨c, w, _, hvalue, hannounces⟩ := h.valueText_value
  have hquote : c ≠ '"' := fun hc => absurd (hannounces.text hc) (by simp [hother])
  simpa [readTextAs, hvalue, hquote, bind, Except.bind] using fails_mistyped _ _

theorem follows_text (expected : String) : Follows (readTextAs expected) Value.text? := by
  intro v cs more _ h
  cases v with
  | text q =>
      obtain ⟨rest, hvalue, hrest⟩ := h.valueText_token q.solid
      have hread := reads_quoted q hrest
      rw [q.token_append] at hvalue
      rw [readTextAs, hvalue]
      exact hread.map String.ofList
  | _ => exact fails_readTextAs expected (by simp) h

/-! ### Options and lists -/

variable {read : List Char → Except Fault (α × List Char)} {meaning : Value → Option α}
  {values : List Value}

def Value.option? (meaning : Value → Option α) : Value → Option (Option α)
  | .null => some none
  | v => (meaning v).map some

def Value.list? (meaning : Value → Option α) : Value → Option (List α)
  | .list values => values.mapM meaning
  | _ => none

theorem Follows.option (hread : Follows read meaning) :
    Follows (readOption read) (Value.option? meaning) := by
  intro v cs more hcloses h
  by_cases hnull : v = .null
  · subst hnull
    obtain ⟨rest, hskip, hrest, _⟩ := h.skipSpace_token (solid_cons rfl _)
    exact ⟨rest, by simp [readOption, hskip, readWord, bind, Except.bind, pure, Except.pure], hrest⟩
  · obtain ⟨c, w, hskip, _, hannounces⟩ := h.valueText_value
    have hn : c ≠ 'n' := fun hc => hnull (hannounces.null hc)
    obtain ⟨c', w', hskip', _, hsame, _⟩ := h.skipSpace_value
    rw [hskip] at hskip'
    cases hskip'
    have hmeaning : v.option? meaning = (meaning v).map some := by
      cases v with
      | null => contradiction
      | _ => rfl
    rw [hmeaning]
    have hrest := (hread hcloses hsame).map some
    simpa [readOption, hskip, hn] using hrest

/-- What is left behind a part of the tokens. -/
theorem Spells.drop (ts : List Token) (h : Spells cs (ts ++ more)) :
    ∃ rest, Spells rest more ∧ rest.length ≤ cs.length := by
  induction ts generalizing cs with
  | nil => exact ⟨cs, h, Nat.le_refl _⟩
  | cons t ts ih =>
      cases h with
      | @token space cs _ _ _ hmore =>
          obtain ⟨rest, hrest, hlength⟩ := ih hmore
          refine ⟨rest, hrest, ?_⟩
          simp only [List.length_append]
          omega

theorem Spells.length_lt_elements (h : Spells cs (elementTokens false values ++ more)) :
    values.length < cs.length := by
  induction values generalizing cs with
  | nil =>
      obtain ⟨rest, _, _, hlength⟩ := h.skipSpace_token (solid_cons rfl _)
      simp only [List.length_cons, List.length_nil] at hlength ⊢
      omega
  | cons v values ih =>
      rw [elementTokens, List.cons_append, List.append_assoc] at h
      obtain ⟨rest, _, hrest, hlength⟩ := h.skipSpace_token (solid_cons rfl _)
      obtain ⟨after, hafter, hshorter⟩ := hrest.drop v.tokens
      have hlt := ih hafter
      simp only [List.length_cons, List.length_nil] at hlength ⊢
      omega

theorem Spells.length_le_elements (h : Spells cs (elementTokens true values ++ more)) :
    values.length ≤ cs.length := by
  cases values with
  | nil => exact Nat.zero_le _
  | cons v values =>
      rw [elementTokens, List.append_assoc] at h
      obtain ⟨after, hafter, hshorter⟩ := h.drop v.tokens
      have hlt := hafter.length_lt_elements
      rw [List.length_cons]
      omega

theorem Spells.nextElement_nil {first : Bool}
    (h : Spells cs (elementTokens first [] ++ more)) :
    ∃ rest, nextElement first cs = .ok (none, rest) ∧ Spells rest ([']'] :: more) := by
  have htokens : elementTokens first [] = [[']']] := by cases first <;> rfl
  rw [htokens, List.singleton_append] at h
  obtain ⟨rest, hskip, _⟩ := h.skipSpace_token (solid_cons rfl _)
  have hsame := (h.of_skipSpace (solid_cons rfl _)).1
  rw [hskip] at hsame
  exact ⟨']' :: rest, by simp [nextElement, hskip], hsame⟩

theorem Spells.nextElement_cons {first : Bool}
    (h : Spells cs (elementTokens first (v :: values) ++ more)) :
    ∃ rest, nextElement first cs = .ok (some rest, rest) ∧
      Spells rest (v.tokens ++ (elementTokens false values ++ more)) := by
  cases first with
  | true =>
      rw [elementTokens, List.append_assoc] at h
      obtain ⟨c, w, hskip, hend, hsame, _⟩ := h.skipSpace_value
      exact ⟨c :: w, by simp [nextElement, hskip], hsame⟩
  | false =>
      rw [elementTokens, List.cons_append, List.append_assoc] at h
      obtain ⟨rest, hcomma, hrest, _⟩ := h.skipSpace_token (solid_cons rfl _)
      obtain ⟨c, w, hskip, hend, hsame, _⟩ := hrest.skipSpace_value
      exact ⟨c :: w, by simp [nextElement, hcomma, hskip, hend], hsame⟩

theorem Spells.closeList (h : Spells cs ([']'] :: more)) :
    ∃ rest, closeList cs = .ok rest ∧ Spells rest more := by
  obtain ⟨rest, hskip, hrest, _⟩ := h.skipSpace_token (solid_cons rfl _)
  exact ⟨rest, by simp [Json.closeList, hskip], hrest⟩

theorem reads_elements (hread : Follows read meaning) {first : Bool} {fuel : Nat}
    (hfuel : values.length < fuel) (h : Spells cs (elementTokens first values ++ more)) :
    Reads (readElements read fuel first cs) (values.mapM meaning) ([']'] :: more) := by
  induction values generalizing cs first fuel with
  | nil =>
      obtain ⟨fuel, rfl⟩ := Nat.exists_eq_succ_of_ne_zero (Nat.ne_of_gt hfuel)
      obtain ⟨rest, hnext, hrest⟩ := h.nextElement_nil
      rw [readElements, hnext]
      exact ⟨rest, rfl, hrest⟩
  | cons v values ih =>
      obtain ⟨fuel, rfl⟩ := Nat.exists_eq_succ_of_ne_zero (Nat.ne_of_gt (Nat.zero_lt_of_lt hfuel))
      obtain ⟨rest, hnext, hrest⟩ := h.nextElement_cons
      rw [readElements, hnext, List.mapM_cons]
      refine Reads.bind (hread (closes_elements values more) hrest) ?_
      intro a after hafter
      refine Reads.bind (ih (Nat.lt_of_succ_lt_succ hfuel) hafter) ?_
      intro as last hlast
      exact ⟨last, rfl, hlast⟩

theorem fails_readList (hother : ∀ values, v ≠ .list values) (h : Spells cs (v.tokens ++ more)) :
    Fails (readList read cs) := by
  obtain ⟨c, w, _, hvalue, hannounces⟩ := h.valueText_value
  have hopen : c ≠ '[' := fun hc => absurd (hannounces.list hc) (by simp [hother])
  simpa [readList, hvalue, hopen, bind, Except.bind] using fails_mistyped _ _

theorem Follows.list (hread : Follows read meaning) :
    Follows (readList read) (Value.list? meaning) := by
  intro v cs more hcloses h
  cases v with
  | list values =>
      rw [Value.tokens, List.cons_append] at h
      obtain ⟨rest, hvalue, hrest⟩ := h.valueText_token (solid_cons rfl _)
      have helements := reads_elements hread (Nat.lt_succ_of_le hrest.length_le_elements) hrest
      rw [readList, hvalue, Value.list?]
      generalize values.mapM meaning = o at helements ⊢
      cases o with
      | none => exact Fails.then helements _
      | some as =>
          obtain ⟨after, hread, hafter⟩ := helements
          obtain ⟨last, hclose, hlast⟩ := hafter.closeList
          refine ⟨last, ?_, hlast⟩
          simp [ok_bind, hread, hclose, pure, Except.pure]
  | _ => exact fails_readList (by simp) h

end HostPolicy.Json
