import HostPolicy.Json.Record
import HostPolicy.Proofs.Json.Numeral

/-!
# Whatever is read is JSON

What a reader has taken when it answers are the tokens of a value, with space in front of them.
-/

namespace HostPolicy.Json

variable {α β : Type} {cs mid rest : List Char} {t : Token} {ts ts' : List Token}

/-! ### Tokens in front of a text -/

/-- The text leads with these tokens, with space in front of each, and goes on with the rest. -/
inductive Leads : List Char → List Token → List Char → Prop
  | done (rest : List Char) : Leads rest [] rest
  | token {space cs rest : List Char} {t : Token} {ts : List Token}
      (hspace : ∀ c ∈ space, isSpace c = true) (more : Leads cs ts rest) :
      Leads (space ++ (t ++ cs)) (t :: ts) rest

theorem exists_space (cs : List Char) :
    ∃ space, (∀ c ∈ space, isSpace c = true) ∧ cs = space ++ skipSpace cs :=
  ⟨cs.takeWhile isSpace, List.all_eq_true.mp List.all_takeWhile,
    List.takeWhile_append_dropWhile.symm⟩

theorem Leads.append (h : Leads cs ts mid) (h' : Leads mid ts' rest) :
    Leads cs (ts ++ ts') rest := by
  induction h with
  | done _ => exact h'
  | token hspace _ ih => exact .token hspace (ih h')

/-- The token that was looked at behind the space. -/
theorem Leads.of_skipSpace (h : skipSpace cs = t ++ mid) (hmid : Leads mid ts rest) :
    Leads cs (t :: ts) rest := by
  obtain ⟨space, hspace, hcs⟩ := exists_space cs
  rw [hcs, h]
  exact .token hspace hmid

theorem Leads.spaced (h : Leads (skipSpace cs) (t :: ts) rest) : Leads cs (t :: ts) rest := by
  obtain ⟨space, hspace, hcs⟩ := exists_space cs
  generalize skipSpace cs = behind at h hcs
  cases h with
  | @token space' cs' _ _ _ hspace' hmore =>
      rw [hcs, ← List.append_assoc]
      refine .token ?_ hmore
      exact List.forall_mem_append.mpr ⟨hspace, hspace'⟩

theorem Leads.spells (h : Leads cs ts rest) (hend : skipSpace rest = []) : Spells cs ts := by
  induction h with
  | done rest =>
      obtain ⟨space, hspace, hrest⟩ := exists_space rest
      rw [hend, List.append_nil] at hrest
      exact .done (hrest ▸ hspace)
  | token hspace _ ih => exact .token hspace (ih hend)

/-- What the reader takes is a value. -/
def Sound (read : List Char → Except Fault (α × List Char)) : Prop :=
  ∀ ⦃cs a rest⦄, read cs = .ok (a, rest) → ∃ v : Value, Leads cs v.tokens rest

theorem bind_eq_ok {ε : Type} {result : Except ε α} {next : α → Except ε β} {b : β}
    (h : (result >>= next) = .ok b) : ∃ a, result = .ok a ∧ next a = .ok b := by
  cases result with
  | error fault => contradiction
  | ok a => exact ⟨a, rfl, h⟩

theorem Fails.ne_ok {result : Except Fault α} (h : Fails result) (a : α) : result ≠ .ok a := by
  obtain ⟨fault, rfl⟩ := h
  rintro ⟨⟩

theorem skipSpace_of_valueText {behind : List Char} (h : valueText cs = .ok behind) :
    skipSpace cs = behind := by
  unfold valueText at h
  split at h
  · contradiction
  · cases h
    rfl

/-! ### Words and texts -/

theorem eq_append_of_readWord {word : List Char} (h : readWord word cs = .ok rest) :
    cs = word ++ rest := by
  induction word generalizing cs with
  | nil =>
      cases h
      rfl
  | cons w word ih =>
      cases cs with
      | nil => contradiction
      | cons c cs =>
          rw [readWord] at h
          split at h
          · next hc => rw [hc, ih h, List.cons_append]
          · contradiction

theorem sound_bool : Sound readBool := by
  intro cs b rest h
  obtain ⟨behind, hvalue, h⟩ := bind_eq_ok h
  have hskip := skipSpace_of_valueText hvalue
  split at h
  · next w =>
      obtain ⟨after, hword, hafter⟩ := bind_eq_ok h
      cases hafter
      refine ⟨.bool true, .of_skipSpace ?_ (.done rest)⟩
      rw [hskip, eq_append_of_readWord hword]
      rfl
  · next w =>
      obtain ⟨after, hword, hafter⟩ := bind_eq_ok h
      cases hafter
      refine ⟨.bool false, .of_skipSpace ?_ (.done rest)⟩
      rw [hskip, eq_append_of_readWord hword]
      rfl
  · exact absurd h ((fails_mistyped _ _).ne_ok _)

theorem exists_of_readHex {n : Nat} (h : readHex cs = .ok (n, rest)) :
    ∃ digits : HexDigits, cs = digits.val ++ rest := by
  unfold readHex at h
  split at h
  · contradiction
  · next hsize =>
      simp only [] at h
      split at h
      · next hhex =>
          cases h
          have hsmall : size (cs.take 4) = (cs.take 4).length :=
            size_eq_length fun c hc => utf8Size_of_isHex (List.all_eq_true.mp hhex c hc)
          have hlength : (cs.take 4).length = 4 :=
            Nat.le_antisymm (List.length_take_le 4 cs) (by omega)
          exact ⟨⟨cs.take 4, hlength, hhex⟩, (List.take_append_drop 4 cs).symm⟩
      · contradiction

theorem mem_of_unescape? {c e : Char} (h : unescape? e = some c) :
    (c, e) ∈ ('/', '/') :: shortEscapes := by
  unfold unescape? at h
  split at h
  · next hslash =>
      cases h
      rw [hslash]
      exact List.mem_cons_self
  · obtain ⟨p, hfind, rfl⟩ := Option.map_eq_some_iff.mp h
    have he : p.2 = e := by simpa using List.find?_some hfind
    rw [← he]
    exact List.mem_cons_of_mem _ (List.mem_of_find?_eq_some hfind)

theorem exists_of_readTrailing {leading : Nat} {c : Char}
    (h : readTrailing leading cs = .ok (c, rest)) :
    ∃ digits : HexDigits, cs = (Glyph.code digits).chars ++ rest := by
  unfold readTrailing at h
  split at h
  · contradiction
  · contradiction
  · obtain ⟨⟨n, after⟩, hhex, hpaired⟩ := bind_eq_ok h
    obtain ⟨digits, rfl⟩ := exists_of_readHex hhex
    simp only [] at hpaired
    split at hpaired
    · simp only [Except.ok.injEq, Prod.mk.injEq] at hpaired
      obtain ⟨-, rfl⟩ := hpaired
      exact ⟨digits, rfl⟩
    · contradiction
  · contradiction
  · contradiction

/-- An escape is one glyph, or two that make a pair. -/
theorem exists_of_readEscape {c : Char} (h : readEscape cs = .ok (c, rest)) :
    ∃ q : Quoted, '\\' :: cs = q.flatMap Glyph.chars ++ rest := by
  unfold readEscape at h
  split at h
  · contradiction
  · obtain ⟨⟨n, after⟩, hhex, hcode⟩ := bind_eq_ok h
    obtain ⟨digits, rfl⟩ := exists_of_readHex hhex
    simp only [] at hcode
    split at hcode
    · contradiction
    · split at hcode
      · obtain ⟨paired, rfl⟩ := exists_of_readTrailing hcode
        exact ⟨[.code digits, .code paired], by simp [Glyph.chars]⟩
      · cases hcode
        exact ⟨[.code digits], by simp [Glyph.chars]⟩
  · next e after _ =>
      split at h
      · next hknown =>
          cases h
          exact ⟨[.short c e (mem_of_unescape? hknown)], by simp [Glyph.chars]⟩
      · contradiction

theorem exists_of_readQuoted {read : List Char} (h : readQuoted cs = .ok (read, rest)) :
    ∃ q : Quoted, cs = q.flatMap Glyph.chars ++ '"' :: rest := by
  fun_induction readQuoted cs generalizing read rest with
  | case1 => contradiction
  | case2 after =>
      cases h
      exact ⟨[], rfl⟩
  | case3 => contradiction
  | case4 escape c after hescape ih =>
      obtain ⟨⟨later, last⟩, hread, h⟩ := bind_eq_ok h
      cases h
      obtain ⟨front, hfront⟩ := exists_of_readEscape hescape
      obtain ⟨q, rfl⟩ := ih hread
      exact ⟨front ++ q, by rw [hfront, List.flatMap_append, List.append_assoc]⟩
  | case5 => contradiction
  | case6 c after hquote hbackslash hplain ih =>
      obtain ⟨⟨later, last⟩, hread, h⟩ := bind_eq_ok h
      cases h
      obtain ⟨q, rfl⟩ := ih hread
      exact ⟨.plain c ⟨hquote, hbackslash, hplain⟩ :: q, rfl⟩

theorem exists_of_skipQuoted (h : skipQuoted cs = .ok rest) :
    ∃ q : Quoted, cs = q.flatMap Glyph.chars ++ '"' :: rest := by
  fun_induction skipQuoted cs generalizing rest with
  | case1 => contradiction
  | case2 after =>
      cases h
      exact ⟨[], rfl⟩
  | case3 => contradiction
  | case4 => contradiction
  | case5 escape n after hhex ih =>
      obtain ⟨digits, rfl⟩ := exists_of_readHex hhex
      obtain ⟨q, rfl⟩ := ih h
      exact ⟨.code digits :: q, by simp [Glyph.chars]⟩
  | case6 e after _ hknown ih =>
      obtain ⟨c, hc⟩ := Option.isSome_iff_exists.mp hknown
      obtain ⟨q, rfl⟩ := ih h
      exact ⟨.short c e (mem_of_unescape? hc) :: q, rfl⟩
  | case7 => contradiction
  | case8 => contradiction
  | case9 c after hquote hend hcode hescape hplain ih =>
      have hbackslash : c ≠ '\\' := by
        intro hc
        cases after with
        | nil => exact hend hc rfl
        | cons e later => exact hescape e later hc rfl
      obtain ⟨q, rfl⟩ := ih h
      exact ⟨.plain c ⟨hquote, hbackslash, hplain⟩ :: q, rfl⟩

theorem Leads.of_quoted {q : Quoted} (h : skipSpace cs = '"' :: mid)
    (hmid : mid = q.flatMap Glyph.chars ++ '"' :: rest) : Leads cs [q.token] rest := by
  refine .of_skipSpace ?_ (.done rest)
  rw [h, hmid, q.token_append]

theorem sound_text (expected : String) : Sound (readTextAs expected) := by
  intro cs read rest h
  obtain ⟨behind, hvalue, h⟩ := bind_eq_ok h
  have hskip := skipSpace_of_valueText hvalue
  split at h
  · next w =>
      obtain ⟨⟨later, last⟩, hread, h⟩ := bind_eq_ok h
      cases h
      obtain ⟨q, hq⟩ := exists_of_readQuoted hread
      exact ⟨.text q, .of_quoted hskip hq⟩
  · exact absurd h ((fails_mistyped _ _).ne_ok _)

/-! ### Numbers -/

theorem exists_digits (h : startsWithDigit cs = true) :
    ∃ ds : Digits, cs = ds.val ++ cs.dropWhile Char.isDigit := by
  have hne : cs.takeWhile Char.isDigit ≠ [] := by
    cases cs with
    | nil => contradiction
    | cons c cs =>
        have hdigit : c.isDigit = true := h
        simp [hdigit]
  exact ⟨⟨cs.takeWhile Char.isDigit, hne, List.all_eq_true.mp List.all_takeWhile⟩,
    List.takeWhile_append_dropWhile.symm⟩

theorem exists_of_skipDigits
    (h : (if startsWithDigit cs then .ok (cs.dropWhile Char.isDigit)
      else failPast .invalidNumber cs) = .ok rest) :
    ∃ ds : Digits, cs = ds.val ++ rest := by
  split at h
  · next hstarts =>
      obtain ⟨ds, hds⟩ := exists_digits hstarts
      simp only [Except.ok.injEq] at h
      exact ⟨ds, h ▸ hds⟩
  · contradiction

theorem exists_of_skipExponent {letter : Char} (hletter : letter = 'e' ∨ letter = 'E')
    (h : skipExponent cs = .ok rest) :
    ∃ e : Option Exponent, letter :: cs = exponentChars e ++ rest := by
  obtain ⟨sign, hsign, digits, rfl⟩ : ∃ sign, (sign = [] ∨ sign = ['+'] ∨ sign = ['-']) ∧
      ∃ digits : Digits, cs = sign ++ (digits.val ++ rest) := by
    unfold skipExponent at h
    simp only [] at h
    split at h
    · obtain ⟨digits, rfl⟩ := exists_of_skipDigits h
      exact ⟨['+'], by simp, digits, rfl⟩
    · obtain ⟨digits, rfl⟩ := exists_of_skipDigits h
      exact ⟨['-'], by simp, digits, rfl⟩
    · obtain ⟨digits, rfl⟩ := exists_of_skipDigits h
      exact ⟨[], by simp, digits, rfl⟩
  exact ⟨some ⟨letter, sign, digits, hletter, hsign⟩, by simp [exponentChars, Exponent.chars]⟩

theorem exists_of_skipScale (h : skipScale cs = .ok rest) :
    ∃ e : Option Exponent, cs = exponentChars e ++ rest := by
  unfold skipScale at h
  split at h
  · exact exists_of_skipExponent (Or.inl rfl) h
  · exact exists_of_skipExponent (Or.inr rfl) h
  · cases h
    exact ⟨none, rfl⟩

theorem exists_of_skipTail (h : skipTail cs = .ok rest) :
    ∃ fraction exponent, cs = fractionChars fraction ++ (exponentChars exponent ++ rest) := by
  unfold skipTail at h
  split at h
  · split at h
    · next hstarts =>
        obtain ⟨ds, hds⟩ := exists_digits hstarts
        obtain ⟨exponent, hexponent⟩ := exists_of_skipScale h
        refine ⟨some ds, exponent, ?_⟩
        rw [← hexponent]
        exact congrArg _ hds
    · contradiction
  · obtain ⟨exponent, hexponent⟩ := exists_of_skipScale h
    exact ⟨none, exponent, hexponent⟩

def zeroDigit : Digits :=
  ⟨['0'], by simp⟩

def signChars (negative : Bool) : List Char :=
  if negative then ['-'] else []

/-- The sign and the digits in front are there, and the rest is skipped. -/
theorem exists_of_whole (negative : Bool) (whole : Digits)
    (halone : whole.val.head? = some '0' → whole.val = ['0']) (h : skipTail cs = .ok rest) :
    ∃ n : Numeral, signChars negative ++ (whole.val ++ cs) = n.token ++ rest := by
  obtain ⟨fraction, exponent, rfl⟩ := exists_of_skipTail h
  exact ⟨⟨negative, whole, fraction, exponent, halone⟩,
    by simp [signChars, Numeral.token, Numeral.scaleChars]⟩

theorem exists_of_skipZero (negative : Bool)
    (h : (if startsWithDigit cs then failPast .invalidNumber cs else skipTail cs) = .ok rest) :
    ∃ n : Numeral, signChars negative ++ '0' :: cs = n.token ++ rest := by
  split at h
  · contradiction
  · exact exists_of_whole negative zeroDigit (fun _ => rfl) h

theorem exists_of_skipWhole (negative : Bool) (hzero : ∀ w, cs ≠ '0' :: w)
    (h : (if startsWithDigit cs then skipTail (cs.dropWhile Char.isDigit)
      else failPast .invalidNumber cs) = .ok rest) :
    ∃ n : Numeral, signChars negative ++ cs = n.token ++ rest := by
  split at h
  · next hstarts =>
      obtain ⟨ds, hds⟩ := exists_digits hstarts
      have halone : ds.val.head? = some '0' → ds.val = ['0'] := by
        obtain ⟨d, w, hcons, _⟩ := ds.exists_cons
        intro hhead
        rw [hcons] at hhead hds
        cases hhead
        exact absurd hds (hzero _)
      obtain ⟨n, hn⟩ := exists_of_whole negative ds halone h
      exact ⟨n, hds ▸ hn⟩
  · contradiction

theorem exists_of_skipNumber (h : skipNumber cs = .ok rest) :
    ∃ n : Numeral, cs = n.token ++ rest := by
  cases cs with
  | nil => contradiction
  | cons c w =>
      by_cases hminus : c = '-'
      · subst hminus
        unfold skipNumber at h
        simp only [] at h
        split at h
        · exact exists_of_skipZero true h
        · next hzero => exact exists_of_skipWhole true hzero h
      · by_cases hzero : c = '0'
        · subst hzero
          exact exists_of_skipZero false h
        · have hwhole : skipNumber (c :: w) =
              if startsWithDigit (c :: w) then skipTail ((c :: w).dropWhile Char.isDigit)
              else failPast .invalidNumber (c :: w) := by simp [skipNumber, hminus, hzero]
          exact exists_of_skipWhole false (by simp [hzero]) (hwhole ▸ h)

/-! ### Integers -/

theorem exists_of_absorb {n taken n' taken' : Nat} (h : absorb n taken cs = (n', taken', rest)) :
    ∃ ds : List Char, cs = ds ++ rest ∧ ∀ c ∈ ds, c.isDigit = true := by
  induction cs generalizing n taken with
  | nil =>
      cases h
      exact ⟨[], rfl, List.forall_mem_nil _⟩
  | cons c cs ih =>
      rw [absorb] at h
      split at h
      · next hdigit =>
          obtain ⟨ds, rfl, hds⟩ := ih h
          exact ⟨c :: ds, rfl, List.forall_mem_cons.mpr ⟨hdigit.1, hds⟩⟩
      · cases h
        exact ⟨[], rfl, List.forall_mem_nil _⟩

/-- An integer ends with its digits. -/
theorem readTail_integer {negative : Bool} {significand : Nat} {found : Number}
    (h : readTail negative significand cs = .ok (found, rest)) (hinteger : ∀ x, found ≠ .real x) :
    rest = cs := by
  cases cs with
  | nil =>
      cases h
      rfl
  | cons c cs =>
      by_cases hc : c.isDigit = true ∨ c ∈ ['.', 'e', 'E']
      · obtain ⟨x, hx⟩ := noInteger_readTail hc negative significand cs found rest h
        exact absurd hx (hinteger x)
      · simp only [List.mem_cons, List.not_mem_nil, or_false, not_or] at hc
        obtain ⟨hdigit, hpoint, hlower, hupper⟩ := hc
        simp [readTail, hdigit, hpoint, hlower, hupper] at h
        exact h.2.symm

theorem exists_of_readDigits (negative : Bool) {found : Number}
    (h : readDigits negative cs = .ok (found, rest)) (hinteger : ∀ x, found ≠ .real x) :
    ∃ n : Numeral, signChars negative ++ cs = n.token ++ rest := by
  have hrest : ∀ whole : Digits, (whole.val.head? = some '0' → whole.val = ['0']) →
      ∃ n : Numeral, signChars negative ++ (whole.val ++ rest) = n.token ++ rest :=
    fun whole halone => ⟨⟨negative, whole, none, none, halone⟩,
      by simp [signChars, Numeral.token, Numeral.scaleChars, fractionChars, exponentChars]⟩
  unfold readDigits at h
  split at h
  · contradiction
  · split at h
    · contradiction
    · rw [← readTail_integer h hinteger]
      exact hrest zeroDigit fun _ => rfl
  · next c w hzero =>
      split at h
      · next hdigit =>
          have hvalue : digit c ≤ 9 := by
            have hle := (Char.isDigit_iff_toNat.mp hdigit).2
            exact Nat.sub_le_sub_right hle _
          have hnext : 0 * 10 + digit c < Nat.pow 2 64 :=
            Nat.lt_of_le_of_lt (Nat.le_trans (by omega) hvalue) (by decide)
          rw [absorb, if_pos ⟨hdigit, hnext⟩] at h
          cases habsorb : absorb (0 * 10 + digit c) (0 + 1) w with
          | mk n p =>
              obtain ⟨taken, after⟩ := p
              rw [habsorb] at h
              obtain ⟨ds, hds, hdigits⟩ := exists_of_absorb habsorb
              rw [hds, ← readTail_integer h hinteger]
              refine hrest ⟨c :: ds, by simp, List.forall_mem_cons.mpr ⟨hdigit, hdigits⟩⟩ ?_
              rintro ⟨⟩
              exact absurd rfl hzero
      · contradiction

theorem exists_of_readNumber {found : Number} (h : readNumber cs = .ok (found, rest))
    (hinteger : ∀ x, found ≠ .real x) : ∃ n : Numeral, cs = n.token ++ rest := by
  unfold readNumber at h
  split at h
  · exact exists_of_readDigits true h hinteger
  · exact exists_of_readDigits false h hinteger

theorem Leads.of_numeral {n : Numeral} {behind : List Char} (h : valueText cs = .ok behind)
    (hbehind : behind = n.token ++ rest) : Leads cs [n.token] rest :=
  .of_skipSpace ((skipSpace_of_valueText h).trans hbehind) (.done rest)

theorem sound_natural : Sound readUInt64 := by
  intro cs a rest h
  obtain ⟨behind, hvalue, h⟩ := bind_eq_ok h
  split at h
  · obtain ⟨⟨found, after⟩, hnumber, h⟩ := bind_eq_ok h
    cases found with
    | natural n =>
        cases h
        obtain ⟨numeral, hnumeral⟩ := exists_of_readNumber hnumber (by simp)
        exact ⟨.number numeral, .of_numeral hvalue hnumeral⟩
    | negative n => contradiction
    | real x => contradiction
  · exact absurd h ((fails_mistyped _ _).ne_ok _)

theorem sound_integer : Sound readInt64 := by
  intro cs a rest h
  obtain ⟨behind, hvalue, h⟩ := bind_eq_ok h
  split at h
  · obtain ⟨⟨found, after⟩, hnumber, h⟩ := bind_eq_ok h
    have hinteger : (∀ x, found ≠ .real x) ∧ after = rest := by
      cases found with
      | natural n =>
          simp only [] at h
          split at h
          · cases h
            simp
          · contradiction
      | negative n =>
          cases h
          simp
      | real x => contradiction
    obtain ⟨hinteger, rfl⟩ := hinteger
    obtain ⟨numeral, hnumeral⟩ := exists_of_readNumber hnumber hinteger
    exact ⟨.number numeral, .of_numeral hvalue hnumeral⟩
  · exact absurd h ((fails_mistyped _ _).ne_ok _)

/-! ### Options and lists -/

variable {read : List Char → Except Fault (α × List Char)}

theorem Leads.spaced_value {v : Value} (h : Leads (skipSpace cs) v.tokens rest) :
    Leads cs v.tokens rest := by
  obtain ⟨c, w, ts, htokens, _⟩ := v.exists_tokens
  rw [htokens] at h ⊢
  exact h.spaced

theorem Sound.option (hread : Sound read) : Sound (readOption read) := by
  intro cs o rest h
  unfold readOption at h
  split at h
  · next w hskip =>
      obtain ⟨after, hword, h⟩ := bind_eq_ok h
      cases h
      refine ⟨.null, .of_skipSpace ?_ (.done rest)⟩
      rw [hskip, eq_append_of_readWord hword]
      rfl
  · obtain ⟨⟨value, after⟩, hvalue, h⟩ := bind_eq_ok h
    cases h
    obtain ⟨v, hv⟩ := hread hvalue
    exact ⟨v, hv.spaced_value⟩

theorem of_nextElement_none {first : Bool} (h : nextElement first cs = .ok (none, rest)) :
    skipSpace cs = rest ∧ ∃ w, rest = ']' :: w := by
  unfold nextElement at h
  split at h
  · contradiction
  · next w hskip =>
      cases h
      exact ⟨hskip, w, rfl⟩
  · split at h
    · cases h
    · split at h
      · split at h <;> cases h
      · contradiction

/-- The next element is looked at behind the space, and a comma if it is not the first. -/
theorem of_nextElement_some {first : Bool} {behind after : List Char}
    (h : nextElement first cs = .ok (some behind, after)) :
    first = true ∧ behind = skipSpace cs ∨
      first = false ∧ ∃ w, skipSpace cs = [','] ++ w ∧ behind = skipSpace w := by
  unfold nextElement at h
  split at h
  · contradiction
  · cases h
  · next c w _ hskip =>
      split at h
      · next hfirst =>
          cases h
          exact Or.inl ⟨hfirst, hskip.symm⟩
      · next hfirst =>
          split at h
          · next hcomma =>
              subst hcomma
              split at h
              · contradiction
              · contradiction
              · cases h
                exact Or.inr ⟨by simpa using hfirst, w, hskip, rfl⟩
          · contradiction

theorem Leads.element {first : Bool} {values : List Value} {v : Value} {behind after : List Char}
    (h : nextElement first cs = .ok (some behind, after)) (hv : Leads behind v.tokens mid)
    (hmore : Leads mid (elementTokens false values) rest) :
    Leads cs (elementTokens first (v :: values)) rest := by
  obtain ⟨rfl, rfl⟩ | ⟨rfl, w, hcomma, rfl⟩ := of_nextElement_some h
  · exact hv.spaced_value.append hmore
  · exact .of_skipSpace hcomma (hv.spaced_value.append hmore)

theorem Leads.close {close : Char} (h : skipSpace cs = close :: mid)
    (hmid : Leads (close :: mid) [[close]] rest) : Leads cs [[close]] rest := by
  rw [← h] at hmid
  exact hmid.spaced

theorem elementTokens_nil (first : Bool) : elementTokens first [] = [[']']] := by
  cases first <;> rfl

/-- Once the end of the list is there, the elements are. -/
theorem exists_of_readElements (hread : Sound read) {fuel : Nat} {first : Bool} {as : List α}
    (h : readElements read fuel first cs = .ok (as, mid)) (hclose : Leads mid [[']']] rest) :
    ∃ values, Leads cs (elementTokens first values) rest := by
  induction fuel generalizing cs first as with
  | zero => contradiction
  | succ fuel ih =>
      obtain ⟨⟨next, after⟩, hnext, h⟩ := bind_eq_ok h
      cases next with
      | none =>
          cases h
          obtain ⟨hskip, w, rfl⟩ := of_nextElement_none hnext
          exact ⟨[], elementTokens_nil first ▸ hclose.close hskip⟩
      | some behind =>
          obtain ⟨⟨a, later⟩, hvalue, h⟩ := bind_eq_ok h
          obtain ⟨⟨as, last⟩, hmore, h⟩ := bind_eq_ok h
          cases h
          obtain ⟨v, hv⟩ := hread hvalue
          obtain ⟨values, hvalues⟩ := ih hmore
          exact ⟨v :: values, hv.element hnext hvalues⟩

theorem leads_of_closeList (h : closeList cs = .ok rest) : Leads cs [[']']] rest := by
  unfold closeList at h
  split at h
  · next hskip =>
      cases h
      exact .of_skipSpace hskip (.done rest)
  · split at h <;> contradiction
  · contradiction
  · contradiction

theorem Sound.list (hread : Sound read) : Sound (readList read) := by
  intro cs as rest h
  obtain ⟨behind, hvalue, h⟩ := bind_eq_ok h
  have hskip := skipSpace_of_valueText hvalue
  split at h
  · next w =>
      obtain ⟨⟨values, after⟩, helements, h⟩ := bind_eq_ok h
      obtain ⟨last, hclose, h⟩ := bind_eq_ok h
      cases h
      obtain ⟨values, hvalues⟩ := exists_of_readElements hread helements (leads_of_closeList hclose)
      exact ⟨.list values, .of_skipSpace hskip hvalues⟩
  · exact absurd h ((fails_mistyped _ _).ne_ok _)

end HostPolicy.Json
