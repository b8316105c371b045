import HostPolicy.Error
import HostPolicy.Text.CaseFold

/-!
Globs. A `*` stands for any characters, none included, a `?` for any one character, and every
other character for one character of the same case folding; the whole candidate has to be
accounted for.

A candidate is matched from the last token to the first, keeping for each place of the candidate
whether what follows it is accounted for, so the time is at most the product of the two lengths.
-/

namespace HostPolicy

namespace Glob

inductive Token where
  | run
  | one
  | same (folded : Char)
  deriving DecidableEq, Repr

def token (c : Char) : Token :=
  if c = '*' then .run else if c = '?' then .one else .same (Text.fold c)

/-- From `row`, which says of each place of the candidate whether the later tokens account for
what follows it, the same for these tokens and `t` in front of them. -/
def Token.cons (folded : List Char) (t : Token) (row : List Bool) : List Bool :=
  match t with
  | .run => row.foldr (fun here later => (here || later.headD false) :: later) []
  | .one => row.tail ++ [false]
  | .same d => List.zipWith (fun c next => c == d && next) folded row.tail ++ [false]

end Glob

structure Glob where
  tokens : List Glob.Token
  deriving DecidableEq, Repr

namespace Glob

def ofText (text : String) : Glob :=
  ⟨text.toList.map token⟩

/-- No token accounts for the end of the candidate alone. -/
def matchesFolded (g : Glob) (folded : List Char) : Bool :=
  let none := List.replicate folded.length false ++ [true]
  (g.tokens.foldr (Token.cons folded) none).headD false

def accepts (g : Glob) (candidate : String) : Bool :=
  g.matchesFolded (candidate.toList.map Text.fold)

end Glob

/-- Globs in order, all compiled together. -/
structure GlobSet where
  globs : List Glob
  deriving DecidableEq, Repr

namespace GlobSet

/-- The most octets that a compiled set may take. -/
def sizeLimit : Nat := 67108864

/-- A compiled set takes eighty octets for each character of its globs. -/
def compiledSize (globs : List String) : Nat :=
  globs.foldr (fun g rest => 80 * g.length + rest) 0

def tooLarge : RuleError :=
  ⟨Family.wildcard.name, s!"Compiled regex exceeds size limit of {sizeLimit} bytes."⟩

def empty : GlobSet := ⟨[]⟩

def compile (globs : List String) : Except RuleError GlobSet :=
  if sizeLimit < compiledSize globs then .error tooLarge else .ok ⟨globs.map Glob.ofText⟩

def accepts (s : GlobSet) (candidate : String) : Bool :=
  !s.globs.isEmpty &&
    let folded := candidate.toList.map Text.fold
    s.globs.any (·.matchesFolded folded)

def size (s : GlobSet) : Nat :=
  s.globs.length

def isEmpty (s : GlobSet) : Bool :=
  s.globs.isEmpty

end GlobSet

end HostPolicy
