import HostPolicy.Proofs.RuleSet
import Mathlib.Data.List.Forall2
import Mathlib.Data.List.Infix

/-!
# What a glob stands for

A glob accepts the texts that can be cut into pieces, one for each of its characters: any piece for
a `*`, one character for a `?`, and one character of the same case folding for any other. All ways
to cut a text are tried at once, in rows, and a search for the glob's regular expression, in which
all other characters stand for themselves, finds the same texts.
-/

namespace HostPolicy

/-! ### Characters without case -/

namespace Text

theorem fold_cases (c : Char) : fold c = c ∨ ∃ r ∈ foldRanges, r.first ≤ c.toNat ∧
    c.toNat ≤ r.last ∧ fold c = Char.ofNat (c.toNat + r.shift).toNat := by
  unfold fold
  split
  · next r hfind =>
      have hcovers := List.find?_some hfind
      simp only [FoldRange.covers, Bool.and_eq_true, decide_eq_true_eq] at hcovers
      exact Or.inr ⟨r, List.mem_of_find?_eq_some hfind, hcovers.1.1, hcovers.1.2, rfl⟩
  · exact Or.inl rfl

/-- In ASCII only letters fold, and only to letters. -/
theorem foldRanges_apart : ∀ r ∈ foldRanges,
    (65 ≤ r.first ∧ r.last ≤ 90 ∨ 128 ≤ r.first) ∧
      (97 ≤ r.first + r.shift ∧ r.last + r.shift ≤ 122 ∨ 128 ≤ r.first + r.shift) ∧
      (r.last + r.shift < 0xD800 ∨ 0xE000 ≤ r.first + r.shift ∧ r.last + r.shift < 0x110000) := by
  decide +kernel

theorem fold_eq_fold_iff {c : Char} (hascii : c.toNat < 128) (hletter : c.isAlpha = false)
    (d : Char) : fold d = fold c ↔ d = c := by
  have hcase : ¬(65 ≤ c.toNat ∧ c.toNat ≤ 90) ∧ ¬(97 ≤ c.toNat ∧ c.toNat ≤ 122) := by
    have halpha : c.isAlpha = (decide (c.val ≥ 'A'.val ∧ c.val ≤ 'Z'.val) ||
        (decide (c.val ≥ 'a'.val) && decide (c.val ≤ 'z'.val))) := rfl
    simpa [halpha, UInt32.le_iff_toNat_le] using hletter
  have hown : fold c = c := by
    rcases fold_cases c with hsame | ⟨r, hmem, hfirst, hlast, -⟩
    · exact hsame
    · obtain ⟨hrange, -, -⟩ := foldRanges_apart r hmem
      omega
  rw [hown]
  refine ⟨fun hfold => ?_, fun heq => heq ▸ hown⟩
  rcases fold_cases d with hsame | ⟨r, hmem, hfirst, hlast, himage⟩
  · rw [← hsame, hfold]
  · obtain ⟨-, hrange, hvalid⟩ := foldRanges_apart r hmem
    have hchar : (d.toNat + r.shift).toNat.isValidChar := by
      unfold Nat.isValidChar
      omega
    have hvalue : c.toNat = (d.toNat + r.shift).toNat := by
      rw [← hfold, himage, Char.ofNat, dif_pos hchar]
      rfl
    omega

end Text

namespace Glob

/-! ### Pieces -/

/-- What a character of a glob may stand for. -/
inductive Piece : Char → List Char → Prop
  | run (piece : List Char) : Piece '*' piece
  | one (c : Char) : Piece '?' [c]
  | same {c d : Char} (hrun : c ≠ '*') (hone : c ≠ '?') (hfold : Text.fold d = Text.fold c) :
      Piece c [d]

/-- Whether a text is made of pieces, one for each character of a glob. -/
def Cuts (glob text : List Char) : Prop :=
  ∃ pieces, List.Forall₂ Piece glob pieces ∧ pieces.flatten = text

section Pieces

variable {c : Char} {glob text piece : List Char}

theorem piece_run_iff : Piece '*' piece ↔ True :=
  iff_true_intro (.run piece)

theorem piece_one_iff : Piece '?' piece ↔ ∃ d, piece = [d] := by
  constructor
  · rintro (_ | d | ⟨_, hone, _⟩)
    · exact ⟨d, rfl⟩
    · contradiction
  · rintro ⟨d, rfl⟩
    exact .one d

theorem piece_same_iff (hrun : c ≠ '*') (hone : c ≠ '?') :
    Piece c piece ↔ ∃ d, piece = [d] ∧ Text.fold d = Text.fold c := by
  constructor
  · rintro (_ | _ | ⟨_, _, hfold⟩)
    · contradiction
    · contradiction
    · exact ⟨_, rfl, hfold⟩
  · rintro ⟨d, rfl, hfold⟩
    exact .same hrun hone hfold

theorem cuts_nil_iff : Cuts [] text ↔ text = [] := by
  simp [Cuts, eq_comm (b := text)]

theorem cuts_cons_iff : Cuts (c :: glob) text ↔
    ∃ piece rest, Piece c piece ∧ Cuts glob rest ∧ text = piece ++ rest := by
  constructor
  · rintro ⟨_, hpieces, rfl⟩
    obtain ⟨piece, pieces, hpiece, hrest, rfl⟩ := List.forall₂_cons_left_iff.mp hpieces
    exact ⟨piece, pieces.flatten, hpiece, ⟨pieces, hrest, rfl⟩, rfl⟩
  · rintro ⟨piece, _, hpiece, ⟨pieces, hrest, rfl⟩, rfl⟩
    exact ⟨piece :: pieces, .cons hpiece hrest, rfl⟩

theorem cuts_self (glob : List Char) : Cuts glob glob := by
  induction glob with
  | nil => exact cuts_nil_iff.mpr rfl
  | cons c glob ih =>
      refine cuts_cons_iff.mpr ⟨[c], glob, ?_, ih, rfl⟩
      by_cases hrun : c = '*'
      · exact hrun ▸ .run _
      · by_cases hone : c = '?'
        · exact hone ▸ .one _
        · exact .same hrun hone rfl

end Pieces

/-! ### Rows -/

/-- Whether a token and what `later` says of the rest account for a text. -/
def Token.fits (t : Token) (later : List Char → Bool) (text : List Char) : Bool :=
  match t, text with
  | .run, text => text.tails.any later
  | .one, [] => false
  | .one, _ :: rest => later rest
  | .same _, [] => false
  | .same d, c :: rest => c == d && later rest

def fits (tokens : List Token) : List Char → Bool :=
  tokens.foldr Token.fits List.isEmpty

theorem cons_map_tails (t : Token) (later : List Char → Bool) (text : List Char) :
    t.cons text (text.tails.map later) = text.tails.map (t.fits later) := by
  induction text with
  | nil => cases t <;> simp [Token.cons, Token.fits]
  | cons c rest ih =>
      cases t with
      | run =>
          simp only [Token.cons] at ih ⊢
          rw [List.tails, List.map_cons, List.foldr_cons, ih]
          cases rest <;> simp [Token.fits]
      | one =>
          simp only [Token.cons] at ih ⊢
          cases rest <;> simp_all [Token.fits]
      | same d =>
          simp only [Token.cons] at ih ⊢
          cases rest <;> simp_all [Token.fits]

theorem row_eq (tokens : List Token) (text : List Char) :
    tokens.foldr (Token.cons text) (List.replicate text.length false ++ [true]) =
      text.tails.map (fits tokens) := by
  induction tokens with
  | nil =>
      induction text with
      | nil => rfl
      | cons c rest ih => simpa [fits, List.replicate_succ] using ih
  | cons t tokens ih =>
      rw [List.foldr_cons, ih, cons_map_tails]
      rfl

theorem matchesFolded_eq (g : Glob) (text : List Char) :
    g.matchesFolded text = fits g.tokens text := by
  unfold matchesFolded
  dsimp only
  rw [row_eq]
  cases text <;> rfl

theorem fits_iff_cuts (glob text : List Char) :
    fits (glob.map token) (text.map Text.fold) = true ↔ Cuts glob text := by
  induction glob generalizing text with
  | nil => simp [fits, cuts_nil_iff]
  | cons c glob ih =>
      change (token c).fits (fits (glob.map token)) (text.map Text.fold) = true ↔ _
      rw [cuts_cons_iff]
      by_cases hrun : c = '*'
      · subst hrun
        have htoken : token '*' = .run := rfl
        simp only [htoken, Token.fits, List.any_eq_true, List.mem_tails, piece_run_iff, true_and]
        constructor
        · rintro ⟨_, ⟨_, hsplit⟩, hfits⟩
          obtain ⟨piece, rest, rfl, _, rfl⟩ := List.map_eq_append_iff.mp hsplit.symm
          exact ⟨piece, rest, (ih rest).mp hfits, rfl⟩
        · rintro ⟨piece, rest, hcuts, rfl⟩
          refine ⟨rest.map Text.fold, ⟨piece.map Text.fold, ?_⟩, (ih rest).mpr hcuts⟩
          exact List.map_append.symm
      · by_cases hone : c = '?'
        · subst hone
          have htoken : token '?' = .one := rfl
          simp only [htoken, piece_one_iff]
          cases text with
          | nil => simp [Token.fits]
          | cons d rest => simp [Token.fits, ih]
        · have htoken : token c = .same (Text.fold c) := by simp [token, hrun, hone]
          simp only [htoken, piece_same_iff hrun hone]
          cases text with
          | nil => simp [Token.fits]
          | cons d rest => simp [Token.fits, ih]

theorem accepts_ofText_iff (glob candidate : String) :
    (ofText glob).accepts candidate = true ↔ Cuts glob.toList candidate.toList := by
  rw [accepts, matchesFolded_eq, ← fits_iff_cuts]
  rfl

end Glob

/-! ### Regular expressions -/

namespace Regex

/-- The parts that the regular expressions of globs are made of. -/
inductive Part where
  | start
  | finish
  | any
  | run
  | letter (c : Char)
  deriving DecidableEq, Repr

/-- The characters that have a meaning of their own in regular expressions. -/
def metaChars : List Char :=
  ['\\', '.', '+', '*', '?', '(', ')', '|', '[', ']', '{', '}', '^', '$', '#', '&', '-', '~']

def isMeta (c : Char) : Bool :=
  metaChars.contains c

def escape (literal : List Char) : List Char :=
  literal.flatMap fun c => if isMeta c then ['\\', c] else [c]

/-- The rest of a glob as a regular expression; the characters that are pending stand for
themselves. -/
def ofGlobFrom (pending : List Char) : List Char → List Char
  | [] => escape pending
  | c :: glob =>
    if c = '*' then escape pending ++ '.' :: '*' :: ofGlobFrom [] glob
    else if c = '?' then escape pending ++ '.' :: ofGlobFrom [] glob
    else ofGlobFrom (pending ++ [c]) glob

def ofGlob (glob : List Char) : List Char :=
  '^' :: (ofGlobFrom [] glob ++ ['$'])

/-- The parts of a regular expression; one that makes other use of a meta character has none. -/
def read : List Char → Option (List Part)
  | [] => some []
  | '.' :: '*' :: rest => (read rest).map (.run :: ·)
  | '.' :: rest => (read rest).map (.any :: ·)
  | '^' :: rest => (read rest).map (.start :: ·)
  | '$' :: rest => (read rest).map (.finish :: ·)
  | '\\' :: c :: rest => if isMeta c then (read rest).map (.letter c :: ·) else none
  | c :: rest => if isMeta c then none else (read rest).map (.letter c :: ·)

/-- Whether parts match from a place on, with what stands before and behind it. -/
def MatchesAt : List Part → List Char → List Char → Prop
  | [], _, _ => True
  | .start :: parts, before, behind => before = [] ∧ MatchesAt parts before behind
  | .finish :: parts, before, behind => behind = [] ∧ MatchesAt parts before behind
  | .any :: parts, before, behind =>
    ∃ c rest, behind = c :: rest ∧ MatchesAt parts (before ++ [c]) rest
  | .run :: parts, before, behind =>
    ∃ piece rest, behind = piece ++ rest ∧ MatchesAt parts (before ++ piece) rest
  | .letter c :: parts, before, behind =>
    ∃ d rest, behind = d :: rest ∧ Text.fold d = Text.fold c ∧ MatchesAt parts (before ++ [d]) rest

/-- Whether parts match somewhere in a text. -/
def Finds (parts : List Part) (text : List Char) : Prop :=
  ∃ before behind, text = before ++ behind ∧ MatchesAt parts before behind

/-- What a character of a glob is in a regular expression. -/
def part (c : Char) : Part :=
  if c = '*' then .run else if c = '?' then .any else .letter c

section Read

variable {c : Char} {rest : List Char}

theorem read_run : read ('.' :: '*' :: rest) = (read rest).map (.run :: ·) := by
  rw [read]

theorem read_any (hrest : rest.head? ≠ some '*') :
    read ('.' :: rest) = (read rest).map (.any :: ·) := by
  rw [read]
  rintro after rfl
  exact hrest rfl

theorem read_escaped (hmeta : isMeta c = true) :
    read ('\\' :: c :: rest) = (read rest).map (.letter c :: ·) := by
  rw [read, if_pos hmeta]

theorem read_letter (hmeta : isMeta c = false) :
    read (c :: rest) = (read rest).map (.letter c :: ·) := by
  have hne {d : Char} (hd : isMeta d = true) : c ≠ d := by
    rintro rfl
    rw [hmeta] at hd
    contradiction
  rw [read, hmeta]
  · rfl
  · exact fun _ heq => absurd heq (hne rfl)
  · exact hne rfl
  · exact hne rfl
  · exact hne rfl
  · exact fun _ _ heq => absurd heq (hne rfl)

end Read

theorem read_escape (literal rest : List Char) :
    read (escape literal ++ rest) = (read rest).map (literal.map .letter ++ ·) := by
  induction literal with
  | nil => simp [escape]
  | cons c literal ih =>
      rw [escape] at ih ⊢
      rw [List.flatMap_cons, List.append_assoc]
      by_cases hmeta : isMeta c = true
      · rw [if_pos hmeta, List.cons_append, List.cons_append, List.nil_append,
          read_escaped hmeta, ih]
        simp [Function.comp_def]
      · have hplain : isMeta c = false := by simpa using hmeta
        rw [if_neg hmeta, List.cons_append, List.nil_append, read_letter hplain, ih]
        simp [Function.comp_def]

theorem head?_escape_ne (literal : List Char) {rest : List Char} (hrest : rest.head? ≠ some '*') :
    (escape literal ++ rest).head? ≠ some '*' := by
  cases literal with
  | nil => exact hrest
  | cons c literal =>
      rw [escape, List.flatMap_cons]
      by_cases hmeta : isMeta c = true
      · simp [hmeta]
      · have hne : c ≠ '*' := by
          rintro rfl
          exact hmeta rfl
        simp [hmeta, hne]

theorem head?_ofGlobFrom_ne (pending glob : List Char) :
    (ofGlobFrom pending glob ++ ['$']).head? ≠ some '*' := by
  induction glob generalizing pending with
  | nil => exact head?_escape_ne pending (by simp)
  | cons c glob ih =>
      rw [ofGlobFrom]
      split
      · rw [List.append_assoc]
        exact head?_escape_ne pending (by simp)
      · split
        · rw [List.append_assoc]
          exact head?_escape_ne pending (by simp)
        · exact ih (pending ++ [c])

theorem read_ofGlobFrom (pending glob : List Char) : read (ofGlobFrom pending glob ++ ['$']) =
    some (pending.map .letter ++ (glob.map part ++ [.finish])) := by
  induction glob generalizing pending with
  | nil => exact read_escape pending ['$']
  | cons c glob ih =>
      have hrest := ih []
      rw [ofGlobFrom, List.map_cons, part]
      split
      · rw [List.append_assoc, read_escape, List.cons_append, List.cons_append, read_run, hrest]
        rfl
      · split
        · have hhead := head?_ofGlobFrom_ne [] glob
          rw [List.append_assoc, read_escape, List.cons_append, read_any hhead, hrest]
          rfl
        · rw [ih (pending ++ [c])]
          simp

/-- All characters but a `*` and a `?` stand for themselves in the expression of a glob, and it is
tied to both ends of the text. -/
theorem read_ofGlob (glob : List Char) :
    read (ofGlob glob) = some (.start :: (glob.map part ++ [.finish])) := by
  rw [ofGlob, read, read_ofGlobFrom]
  rfl

theorem matchesAt_iff_cuts (glob before behind : List Char) :
    MatchesAt (glob.map part ++ [.finish]) before behind ↔ Glob.Cuts glob behind := by
  induction glob generalizing before behind with
  | nil => simp [MatchesAt, Glob.cuts_nil_iff]
  | cons c glob ih =>
      rw [Glob.cuts_cons_iff, List.map_cons, List.cons_append, part]
      split
      · next hrun =>
          subst hrun
          simp only [MatchesAt, ih, Glob.piece_run_iff, true_and]
          exact exists_congr fun _ => exists_congr fun _ => and_comm
      · next hrun =>
          split
          · next hone =>
              subst hone
              simp only [MatchesAt, ih, Glob.piece_one_iff]
              constructor
              · rintro ⟨d, rest, rfl, hcuts⟩
                exact ⟨[d], rest, ⟨d, rfl⟩, hcuts, rfl⟩
              · rintro ⟨_, rest, ⟨d, rfl⟩, hcuts, rfl⟩
                exact ⟨d, rest, rfl, hcuts⟩
          · next hone =>
              simp only [MatchesAt, ih, Glob.piece_same_iff hrun hone]
              constructor
              · rintro ⟨d, rest, rfl, hfold, hcuts⟩
                exact ⟨[d], rest, ⟨d, rfl, hfold⟩, hcuts, rfl⟩
              · rintro ⟨_, rest, ⟨d, rfl, hfold⟩, hcuts, rfl⟩
                exact ⟨d, rest, rfl, hfold, hcuts⟩

theorem finds_iff_cuts (glob text : List Char) :
    Finds (.start :: (glob.map part ++ [.finish])) text ↔ Glob.Cuts glob text := by
  simp only [Finds, MatchesAt, matchesAt_iff_cuts]
  constructor
  · rintro ⟨_, behind, rfl, rfl, hcuts⟩
    exact hcuts
  · intro hcuts
    exact ⟨[], text, rfl, rfl, hcuts⟩

theorem piece_iff_of_isMeta {c : Char} (hmeta : isMeta c = true) (hrun : c ≠ '*') (hone : c ≠ '?')
    (piece : List Char) : Glob.Piece c piece ↔ piece = [c] := by
  have hplain : metaChars.all (fun c => decide (c.toNat < 128) && !c.isAlpha) = true := by decide
  obtain ⟨hascii, hletter⟩ : c.toNat < 128 ∧ c.isAlpha = false := by
    simpa using List.all_eq_true.mp hplain c (List.contains_iff_mem.mp hmeta)
  simp [Glob.piece_same_iff hrun hone, Text.fold_eq_fold_iff hascii hletter]

end Regex

namespace GlobSet

/-- A compiled set accepts the candidates of which one of its globs accounts for all characters, in
order: a `*` for any run of them, a `?` for one, and any other character for one of the same case
folding. Searching for the regular expressions of the globs finds the same, and a character that
has a meaning of its own there stands for itself alone. -/
theorem accepts_iff_cuts {globs : List String} {s : GlobSet} (compiles : compile globs = .ok s)
    (candidate : String) :
    (s.accepts candidate = true ↔ ∃ g ∈ globs, Glob.Cuts g.toList candidate.toList) ∧
    (s.accepts candidate = true ↔ ∃ g ∈ globs, ∃ parts,
      Regex.read (Regex.ofGlob g.toList) = some parts ∧ Regex.Finds parts candidate.toList) ∧
    ∀ c piece, Regex.isMeta c = true → c ≠ '*' → c ≠ '?' → (Glob.Piece c piece ↔ piece = [c]) := by
  obtain ⟨_, rfl⟩ := (compile_eq_ok_iff globs s).mp compiles
  have hcuts : (GlobSet.mk (globs.map Glob.ofText)).accepts candidate = true ↔
      ∃ g ∈ globs, Glob.Cuts g.toList candidate.toList := by
    rw [accepts_ofGlobs]
    exact exists_congr fun g => and_congr_right fun _ => Glob.accepts_ofText_iff g candidate
  refine ⟨hcuts, hcuts.trans ?_, fun c piece hmeta hrun hone => ?_⟩
  · refine exists_congr fun g => and_congr_right fun _ => ?_
    simp only [Regex.read_ofGlob, Option.some.injEq, exists_eq_left', Regex.finds_iff_cuts]
  · exact Regex.piece_iff_of_isMeta hmeta hrun hone piece

/-- The first `a` that fits is not the one to take, and nothing may be left over. -/
theorem accepts_iff_cuts_stars :
    let globs := ["x?", "*a(?*)"]
    ∃ s, compile globs = .ok s ∧ s.accepts "xaA(日\n)" = true ∧
      ¬∃ g ∈ globs, Glob.Cuts g.toList "xaA(日\n)z".toList := by
  intro globs
  obtain ⟨s, compiles, hnone⟩ : ∃ s, compile globs = .ok s ∧ s.accepts "xaA(日\n)z" = false :=
    ⟨_, rfl, by decide⟩
  refine ⟨s, compiles, ?_, ?_⟩
  · apply (accepts_iff_cuts compiles "xaA(日\n)").1.mpr
    refine ⟨"*a(?*)", by decide, [['x', 'a'], ['A'], ['('], ['日'], ['\n'], [')']], ?_, by decide⟩
    exact .cons (.run _) (.cons (.same (by decide) (by decide) (by decide))
      (.cons (.same (by decide) (by decide) rfl) (.cons (.one _) (.cons (.run _)
        (.cons (.same (by decide) (by decide) rfl) .nil)))))
  · intro hcuts
    have haccepts := (accepts_iff_cuts compiles "xaA(日\n)z").1.mpr hcuts
    rw [hnone] at haccepts
    contradiction

end GlobSet

end HostPolicy
