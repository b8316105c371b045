import HostPolicy.Json.Reader

/-!
# The grammar of JSON text

A value is a tree of what is written: a number by its digits, a text by its characters and escapes.
It comes as a row of tokens, and a text spells it if it has these tokens in order with any space
between them. One value so has many spellings, which differ in space alone.
-/

namespace HostPolicy.Json

/-- Characters with no space between them. -/
abbrev Token := List Char

/-! ### Numbers -/

abbrev Digits := { ds : List Char // ds ≠ [] ∧ ∀ c ∈ ds, c.isDigit = true }

structure Exponent where
  letter : Char
  sign : List Char
  digits : Digits
  letter_eq : letter = 'e' ∨ letter = 'E'
  sign_eq : sign = [] ∨ sign = ['+'] ∨ sign = ['-']

/-- A number as it is written. A zero in front stands alone. -/
structure Numeral where
  negative : Bool
  whole : Digits
  fraction : Option Digits
  exponent : Option Exponent
  zero_alone : whole.val.head? = some '0' → whole.val = ['0']

def Exponent.chars (e : Exponent) : List Char :=
  e.letter :: (e.sign ++ e.digits.val)

def exponentChars (e : Option Exponent) : List Char :=
  e.elim [] Exponent.chars

def fractionChars (ds : Option Digits) : List Char :=
  ds.elim [] fun ds => '.' :: ds.val

/-- What follows the digits in front. -/
def Numeral.scaleChars (n : Numeral) : List Char :=
  fractionChars n.fraction ++ exponentChars n.exponent

def Numeral.token (n : Numeral) : Token :=
  (if n.negative then ['-'] else []) ++ n.whole.val ++ n.scaleChars

/-! ### Texts -/

abbrev HexDigits := { ds : List Char // ds.length = 4 ∧ ds.all Text.isHex = true }

def HexDigits.value (ds : HexDigits) : Nat :=
  Text.hexadecimalValue ds.val

/-- A character of a text, or an escape in it. A single escape of four digits may be half of a
character. -/
inductive Glyph where
  | plain (c : Char) (unescaped : c ≠ '"' ∧ c ≠ '\\' ∧ ¬c.toNat < 0x20)
  | short (c e : Char) (paired : (c, e) ∈ ('/', '/') :: shortEscapes)
  | code (digits : HexDigits)

def Glyph.chars : Glyph → List Char
  | plain c _ => [c]
  | short _ e _ => ['\\', e]
  | code digits => '\\' :: 'u' :: digits.val

abbrev Quoted := List Glyph

def Quoted.token (q : Quoted) : Token :=
  '"' :: (q.flatMap Glyph.chars ++ ['"'])

/-- The characters of a text, `pending` the leading surrogate that was read before; surrogates
that are not paired make no text. -/
def Quoted.decodeFrom : Option Nat → Quoted → Option (List Char)
  | none, [] => some []
  | none, .plain c _ :: q => (decodeFrom none q).map (c :: ·)
  | none, .short c _ _ :: q => (decodeFrom none q).map (c :: ·)
  | none, .code digits :: q =>
    if isTrailing digits.value then none
    else if isLeading digits.value then decodeFrom (some digits.value) q
    else (decodeFrom none q).map (Char.ofNat digits.value :: ·)
  | some leading, .code digits :: q =>
    if isTrailing digits.value then
      (decodeFrom none q).map (ofSurrogates leading digits.value :: ·)
    else none
  | some _, _ => none

def Quoted.text? (q : Quoted) : Option String :=
  (q.decodeFrom none).map String.ofList

/-! ### Values -/

inductive Value where
  | null
  | bool (b : Bool)
  | number (n : Numeral)
  | text (q : Quoted)
  | list (values : List Value)
  | object (members : List (Quoted × Value))

mutual

def Value.tokens : Value → List Token
  | .null => [['n', 'u', 'l', 'l']]
  | .bool true => [['t', 'r', 'u', 'e']]
  | .bool false => [['f', 'a', 'l', 's', 'e']]
  | .number n => [n.token]
  | .text q => [q.token]
  | .list values => ['['] :: elementTokens true values
  | .object members => ['\x7b'] :: memberTokens true members
termination_by structural v => v

/-- The elements of a list up to its end, `first` if none stands before. -/
def elementTokens : Bool → List Value → List Token
  | _, [] => [[']']]
  | true, v :: values => v.tokens ++ elementTokens false values
  | false, v :: values => [','] :: (v.tokens ++ elementTokens false values)
termination_by structural _ values => values

/-- The members of an object up to its end, `first` if none stands before. -/
def memberTokens : Bool → List (Quoted × Value) → List Token
  | _, [] => [['\x7d']]
  | true, (key, v) :: members => key.token :: [':'] :: (v.tokens ++ memberTokens false members)
  | false, (key, v) :: members =>
    [','] :: key.token :: [':'] :: (v.tokens ++ memberTokens false members)
termination_by structural _ members => members

end

@[elab_as_elim]
theorem Value.induction {P : Value → Prop} (null : P .null) (bool : ∀ b, P (.bool b))
    (number : ∀ n, P (.number n)) (text : ∀ q, P (.text q))
    (list : ∀ values, (∀ v ∈ values, P v) → P (.list values))
    (object : ∀ members, (∀ m ∈ members, P m.2) → P (.object members)) (v : Value) : P v := by
  refine @Value.rec P (fun values => ∀ v ∈ values, P v) (fun members => ∀ m ∈ members, P m.2)
    (fun m => P m.2) null bool number text list object ?_ ?_ ?_ ?_ ?_ v
  · simp
  · intro v values hv hvalues
    exact List.forall_mem_cons.mpr ⟨hv, hvalues⟩
  · simp
  · intro m members hm hmembers
    exact List.forall_mem_cons.mpr ⟨hm, hmembers⟩
  · intro key v hv
    exact hv

/-! ### Spellings -/

/-- These characters are these tokens, with space around them. -/
inductive Spells : List Char → List Token → Prop
  | done {space : List Char} (hspace : ∀ c ∈ space, isSpace c = true) : Spells space []
  | token {space cs : List Char} {t : Token} {ts : List Token}
      (hspace : ∀ c ∈ space, isSpace c = true) (more : Spells cs ts) :
      Spells (space ++ (t ++ cs)) (t :: ts)

/-- The text holds the value and nothing else. -/
def Value.SpelledBy (v : Value) (text : String) : Prop :=
  Spells text.toList v.tokens

variable {cs : List Char} {t : Token} {ts more : List Token}

/-- The same space in front of every token. -/
theorem spells_spaced {space : List Char} (hspace : ∀ c ∈ space, isSpace c = true)
    (ts : List Token) : Spells (ts.flatMap (space ++ ·)) ts := by
  induction ts with
  | nil => exact .done (List.forall_mem_nil _)
  | cons t ts ih =>
      rw [List.flatMap_cons, List.append_assoc]
      exact .token hspace ih

theorem Value.spelledBy_spaced {text : String} (v : Value) (space : List Char)
    (hspace : ∀ c ∈ space, isSpace c = true)
    (htext : v.tokens.flatMap (space ++ ·) = text.toList) : v.SpelledBy text := by
  rw [SpelledBy, ← htext]
  exact spells_spaced hspace v.tokens

theorem skipSpace_append {space : List Char} (hspace : ∀ c ∈ space, isSpace c = true)
    (cs : List Char) : skipSpace (space ++ cs) = skipSpace cs :=
  List.dropWhile_append_of_pos hspace

theorem Spells.skipSpace_done (h : Spells cs []) : skipSpace cs = [] := by
  cases h with
  | done hspace =>
      have hskip := skipSpace_append hspace []
      rwa [List.append_nil] at hskip

/-- A token starts with a character that is no space. -/
def Solid (t : Token) : Prop :=
  ∃ c w, t = c :: w ∧ isSpace c = false

theorem solid_cons {c : Char} (hc : isSpace c = false) (w : List Char) : Solid (c :: w) :=
  ⟨c, w, rfl, hc⟩

/-- Where the next token is read the text is behind the token. -/
theorem Spells.skipSpace_token (h : Spells cs (t :: ts)) (hsolid : Solid t) :
    ∃ rest, skipSpace cs = t ++ rest ∧ Spells rest ts ∧ t.length + rest.length ≤ cs.length := by
  cases h with
  | @token space cs _ _ hspace more =>
      obtain ⟨c, w, rfl, hc⟩ := hsolid
      refine ⟨cs, ?_, more, ?_⟩
      · rw [skipSpace_append hspace]
        simp [skipSpace, hc]
      · simp only [List.length_append]
        omega

theorem Spells.valueText_token (h : Spells cs (t :: ts)) (hsolid : Solid t) :
    ∃ rest, valueText cs = .ok (t ++ rest) ∧ Spells rest ts := by
  obtain ⟨rest, hskip, hrest, _⟩ := h.skipSpace_token hsolid
  obtain ⟨c, w, rfl, _⟩ := hsolid
  exact ⟨rest, by rw [valueText, hskip]; rfl, hrest⟩

theorem Spells.of_skipSpace (h : Spells cs (t :: ts)) (hsolid : Solid t) :
    Spells (skipSpace cs) (t :: ts) ∧ (skipSpace cs).length ≤ cs.length := by
  obtain ⟨rest, hskip, hrest, hlength⟩ := h.skipSpace_token hsolid
  rw [hskip, List.length_append]
  exact ⟨.token (List.forall_mem_nil _) hrest, hlength⟩

theorem Numeral.startsNumber (n : Numeral) (rest : List Char) :
    startsNumber (n.token ++ rest) = true := by
  obtain ⟨negative, ⟨ds, hne, hdigits⟩, fraction, exponent, _⟩ := n
  cases negative with
  | true => rfl
  | false =>
      cases ds with
      | nil => contradiction
      | cons d ds => simp [token, Json.startsNumber, startsWithDigit, hdigits d]

/-- The first character tells a number from every other value. -/
theorem exists_of_startsNumber (h : startsNumber cs = true) :
    ∃ c w, cs = c :: w ∧ isSpace c = false ∧
      c ∉ ['n', 't', 'f', '"', '[', '\x7b', ']', '\x7d', ',', ':'] := by
  cases cs with
  | nil => contradiction
  | cons c w =>
      refine ⟨c, w, rfl, ?_⟩
      have hc : c = '-' ∨ c.isDigit = true := by simpa [Json.startsNumber, startsWithDigit] using h
      constructor
      · simp only [isSpace, Bool.or_eq_false_iff, beq_eq_false_iff_ne]
        refine ⟨⟨⟨?_, ?_⟩, ?_⟩, ?_⟩ <;> rintro rfl <;> simp at hc
      · simp only [List.mem_cons, List.not_mem_nil, or_false]
        rintro (rfl | rfl | rfl | rfl | rfl | rfl | rfl | rfl | rfl | rfl) <;> simp at hc

theorem Numeral.solid (n : Numeral) : Solid n.token := by
  obtain ⟨c, w, hcons, hspace, _⟩ := exists_of_startsNumber (n.startsNumber [])
  rw [List.append_nil] at hcons
  exact hcons ▸ solid_cons hspace w

theorem Quoted.solid (q : Quoted) : Solid q.token :=
  solid_cons rfl _

/-- A value starts with neither space nor what ends a list. -/
theorem Value.exists_tokens (v : Value) :
    ∃ c w ts, v.tokens = (c :: w) :: ts ∧ isSpace c = false ∧ c ≠ ']' := by
  cases v with
  | null => exact ⟨_, _, _, rfl, rfl, by decide⟩
  | bool b => cases b <;> exact ⟨_, _, _, rfl, rfl, by decide⟩
  | number n =>
      obtain ⟨c, w, hcons, hspace, hother⟩ := exists_of_startsNumber (n.startsNumber [])
      rw [List.append_nil] at hcons
      refine ⟨c, w, [], by rw [Value.tokens, hcons], hspace, ?_⟩
      rintro rfl
      simp at hother
  | text q => exact ⟨_, _, _, rfl, rfl, by decide⟩
  | list values => exact ⟨_, _, _, rfl, rfl, by decide⟩
  | object members => exact ⟨_, _, _, rfl, rfl, by decide⟩

theorem Spells.skipSpace_value {v : Value} (h : Spells cs (v.tokens ++ more)) :
    ∃ c w, skipSpace cs = c :: w ∧ c ≠ ']' ∧ Spells (c :: w) (v.tokens ++ more) ∧
      (c :: w).length ≤ cs.length := by
  obtain ⟨c, w, ts, htokens, hspace, hend⟩ := v.exists_tokens
  rw [htokens, List.cons_append] at h ⊢
  obtain ⟨rest, hskip, _⟩ := h.skipSpace_token (solid_cons hspace w)
  have hsame := h.of_skipSpace (solid_cons hspace w)
  rw [hskip] at hsame
  exact ⟨c, w ++ rest, hskip, hend, hsame⟩

end HostPolicy.Json
