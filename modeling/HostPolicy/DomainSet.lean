/-!
Domain rules. A rule names one domain, or, with a dot in front, a domain and all below it. Letter
case does not matter, in ASCII, and a candidate may end in a dot.

A domain and all below it share the end of their names up to a dot. The names are kept backwards
with a dot in front, so that a candidate belongs to a name when, written the same way, it starts
with the name and the name ends there at a dot or at the end.
-/

namespace HostPolicy

inductive DomainRule where
  | exact (name : List Char)
  | within (name : List Char)
  deriving DecidableEq, Repr

def lowerCase (text : String) : List Char :=
  text.toList.map Char.toLower

/-- An empty text and a lone dot are no rules. -/
def DomainRule.ofText? (text : String) : Option DomainRule :=
  match lowerCase text with
  | [] => none
  | ['.'] => none
  | '.' :: name => some (within name)
  | name => some (exact name)

/-- Exact names, and the keys of the names that hold all below them; each is kept once. -/
structure DomainSet where
  exact : List (List Char)
  keys : List (List Char)
  deriving DecidableEq, Repr

namespace DomainSet

def empty : DomainSet := ⟨[], []⟩

/-- A name backwards, with a dot in front. -/
def key (name : List Char) : List Char :=
  '.' :: name.reverse

def exactName? : DomainRule → Option (List Char)
  | .exact name => some name
  | .within _ => none

def withinKey? : DomainRule → Option (List Char)
  | .exact _ => none
  | .within name => some (key name)

/-- The rules that texts stand for, each as often as it is written. -/
def rules (texts : List String) : List DomainRule :=
  texts.filterMap DomainRule.ofText?

def ofTexts (texts : List String) : DomainSet :=
  ⟨((rules texts).filterMap exactName?).eraseDups, ((rules texts).filterMap withinKey?).eraseDups⟩

/-- Whether a backwards candidate starts with a key that ends at a dot or at its end. -/
def startsWithKey (back key : List Char) : Bool :=
  key.isPrefixOf back && ((back.drop key.length).head?.all (· == '.'))

/-- The candidate's name in small letters, without one dot at the end. -/
def nameOf (candidate : String) : List Char :=
  let name := lowerCase candidate
  if name.getLast? = some '.' then name.dropLast else name

def contains (s : DomainSet) (candidate : String) : Bool :=
  let name := nameOf candidate
  !name.isEmpty && (s.exact.contains name || s.keys.any (startsWithKey (key name)))

def size (s : DomainSet) : Nat :=
  s.exact.length + s.keys.length

def isEmpty (s : DomainSet) : Bool :=
  s.exact.isEmpty && s.keys.isEmpty

end DomainSet

end HostPolicy
