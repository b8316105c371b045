import HostPolicy.AddressSet
import HostPolicy.DomainSet
import HostPolicy.Glob
import HostPolicy.Text.Blank

/-!
Rule sets: patterns of all families, compiled together. A candidate that is an address literal is
looked up among the addresses and blocks only, and every other candidate among the domains and
globs only.
-/

namespace HostPolicy

structure RuleSet where
  addresses : AddressSet
  blocks : BlockSet
  domains : DomainSet
  globs : GlobSet
  deriving DecidableEq, Repr

/-- How many rules of each family a set holds. -/
structure RuleCounts where
  ip : Nat
  cidr : Nat
  domain : Nat
  wildcard : Nat
  deriving DecidableEq, Repr

def RuleCounts.total (n : RuleCounts) : Nat :=
  n.ip + n.cidr + n.domain + n.wildcard

namespace Pattern

def address? : Pattern → Option Address
  | address a => some a
  | _ => none

def block? : Pattern → Option Block
  | block b => some b
  | _ => none

def domain? : Pattern → Option String
  | domain name => some name
  | _ => none

def glob? : Pattern → Option String
  | glob g => some g
  | _ => none

/-- The pattern of a line of rules; a blank line has none. -/
def ofLine? (line : String) : Option Pattern :=
  let text := Text.trim line
  if text = "" then none else some (parse text)

end Pattern

namespace RuleSet

def empty : RuleSet :=
  ⟨⟨[]⟩, ⟨[]⟩, .empty, .empty⟩

/-- Only the globs can fail to compile, when they are too large together. -/
def ofPatterns (patterns : List Pattern) : Except RuleError RuleSet :=
  (GlobSet.compile (patterns.filterMap Pattern.glob?)).map fun globs =>
    { addresses := .ofList (patterns.filterMap Pattern.address?)
      blocks := .ofList (patterns.filterMap Pattern.block?)
      domains := .ofTexts (patterns.filterMap Pattern.domain?)
      globs }

def compile (lines : List String) : Except RuleError RuleSet :=
  ofPatterns (lines.filterMap Pattern.ofLine?)

def accepts (s : RuleSet) (candidate : String) : Bool :=
  match Address.parse? candidate with
  | some address => s.addresses.contains address || s.blocks.contains address
  | none => s.domains.contains candidate || s.globs.accepts candidate

def counts (s : RuleSet) : RuleCounts :=
  ⟨s.addresses.size, s.blocks.size, s.domains.size, s.globs.size⟩

def isEmpty (s : RuleSet) : Bool :=
  s.addresses.isEmpty && s.blocks.isEmpty && s.domains.isEmpty && s.globs.isEmpty

end RuleSet

end HostPolicy
