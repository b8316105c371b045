import HostPolicy.Json.Fault
import HostPolicy.Text.Digits

/-!
Texts in JSON: a run of characters in double quotes, some written as escapes. A character beyond
the sixteen-bit range is escaped as a pair of surrogates; a surrogate on its own stands for no
character. `quote` writes a text, and `readQuoted` reads one from behind its opening quote.
-/

namespace HostPolicy.Json

/-- The characters that have an escape of two characters, with its second. -/
def shortEscapes : List (Char × Char) :=
  [('"', '"'), ('\\', '\\'), ('\x08', 'b'), ('\x0c', 'f'), ('\n', 'n'), ('\r', 'r'), ('\t', 't')]

/-- A character in a text: the quote, the backslash and controls are escaped. -/
def quoteChar (c : Char) : List Char :=
  match shortEscapes.lookup c with
  | some e => ['\\', e]
  | none =>
    if c.toNat < 0x20 then
      ['\\', 'u'] ++ (Text.toDigits 16 4 c.toNat).flatMap Text.hexadecimal
    else [c]

def quote (cs : List Char) : List Char :=
  ['"'] ++ cs.flatMap quoteChar ++ ['"']

/-- The character that an escape of two characters stands for, by its second; a slash may be
escaped too. -/
def unescape? (e : Char) : Option Char :=
  if e = '/' then some '/' else (shortEscapes.find? (·.2 == e)).map (·.1)

/-- Four hexadecimal digits; the text has to go on for four octets. -/
def readHex (cs : List Char) : Except Fault (Nat × List Char) :=
  if size (cs.take 4) < 4 then fail .endInString []
  else
    let digits := cs.take 4
    if digits.all Text.isHex then .ok (Text.hexadecimalValue digits, cs.drop 4)
    else .error ⟨.invalidEscape, size cs - 4⟩

def isLeading (n : Nat) : Bool :=
  0xD800 ≤ n && n ≤ 0xDBFF

def isTrailing (n : Nat) : Bool :=
  0xDC00 ≤ n && n ≤ 0xDFFF

def ofSurrogates (leading trailing : Nat) : Char :=
  Char.ofNat ((leading - 0xD800) * 0x400 + (trailing - 0xDC00) + 0x10000)

/-- The escape of the trailing surrogate, which follows that of the leading one. -/
def readTrailing (leading : Nat) : List Char → Except Fault (Char × List Char)
  | [] => fail .endInString []
  | '\\' :: [] => fail .endInString []
  | '\\' :: 'u' :: rest => do
    let (trailing, rest) ← readHex rest
    if isTrailing trailing then .ok (ofSurrogates leading trailing, rest)
    else fail .loneSurrogate rest
  | '\\' :: rest => failPast .halfSurrogatePair rest
  | rest => failPast .halfSurrogatePair rest

/-- An escape, from behind its backslash. -/
def readEscape : List Char → Except Fault (Char × List Char)
  | [] => fail .endInString []
  | 'u' :: rest => do
    let (n, rest) ← readHex rest
    if isTrailing n then fail .loneSurrogate rest
    else if isLeading n then readTrailing n rest
    else .ok (Char.ofNat n, rest)
  | e :: rest =>
    match unescape? e with
    | some c => .ok (c, rest)
    | none => failPast .invalidEscape (e :: rest)

theorem length_readHex {cs : List Char} {n : Nat} {rest : List Char}
    (h : readHex cs = .ok (n, rest)) : rest.length ≤ cs.length := by
  unfold readHex at h
  split at h
  · simp [fail] at h
  · simp only [] at h
    split at h
    · cases h
      simp
    · simp at h

theorem length_readTrailing {leading : Nat} {cs : List Char} {c : Char} {rest : List Char}
    (h : readTrailing leading cs = .ok (c, rest)) : rest.length ≤ cs.length := by
  unfold readTrailing at h
  split at h
  · simp [fail] at h
  · simp [fail] at h
  · next tail =>
    cases hr : readHex tail with
    | error e => rw [hr] at h; simp [bind, Except.bind] at h
    | ok p =>
      have := @length_readHex tail p.1 p.2 hr
      rw [hr] at h
      simp only [bind, Except.bind] at h
      split at h
      · simp only [Except.ok.injEq, Prod.mk.injEq] at h
        obtain ⟨-, rfl⟩ := h
        simp only [List.length_cons]
        omega
      · simp [fail] at h
  · simp [failPast] at h
  · simp [failPast] at h

theorem length_readEscape {cs : List Char} {c : Char} {rest : List Char}
    (h : readEscape cs = .ok (c, rest)) : rest.length ≤ cs.length := by
  unfold readEscape at h
  split at h
  · simp [fail] at h
  · next tail =>
    cases hr : readHex tail with
    | error e => rw [hr] at h; simp [bind, Except.bind] at h
    | ok p =>
      have := @length_readHex tail p.1 p.2 hr
      rw [hr] at h
      simp only [bind, Except.bind] at h
      split at h
      · simp [fail] at h
      · split at h
        · have := length_readTrailing h
          simp only [List.length_cons]
          omega
        · simp only [Except.ok.injEq, Prod.mk.injEq] at h
          obtain ⟨-, rfl⟩ := h
          simp only [List.length_cons]
          omega
  · split at h
    · simp only [Except.ok.injEq, Prod.mk.injEq] at h
      obtain ⟨-, rfl⟩ := h
      simp
    · simp [failPast] at h

/-- The characters of a text, from behind its opening quote. -/
def readQuoted (cs : List Char) : Except Fault (List Char × List Char) :=
  match cs with
  | [] => fail .endInString []
  | '"' :: rest => .ok ([], rest)
  | '\\' :: rest =>
    match _h : readEscape rest with
    | .error fault => .error fault
    | .ok (c, rest) => do
      let (read, rest) ← readQuoted rest
      return (c :: read, rest)
  | c :: rest =>
    if c.toNat < 0x20 then failPast .controlCharacter cs
    else do
      let (read, rest) ← readQuoted rest
      return (c :: read, rest)
termination_by cs.length
decreasing_by
  · have := length_readEscape _h
    simp only [List.length_cons]
    omega
  · simp

/-- The end of a text that nobody asks for, from behind its opening quote. Escapes have to be
complete there, but surrogates need not be paired. -/
def skipQuoted (cs : List Char) : Except Fault (List Char) :=
  match cs with
  | [] => fail .endInString []
  | '"' :: rest => .ok rest
  | '\\' :: [] => fail .endInString []
  | '\\' :: 'u' :: rest =>
    match _h : readHex rest with
    | .error fault => .error fault
    | .ok (_, rest) => skipQuoted rest
  | '\\' :: e :: rest =>
    if (unescape? e).isSome then skipQuoted rest else failPast .invalidEscape (e :: rest)
  | c :: rest => if c.toNat < 0x20 then fail .controlCharacter cs else skipQuoted rest
termination_by cs.length
decreasing_by
  · have := length_readHex _h
    simp only [List.length_cons]
    omega
  · simp only [List.length_cons]
    omega
  · simp

end HostPolicy.Json
