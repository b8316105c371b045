import HostPolicy.Address.Block

/-!
Patterns. Every text is a pattern of exactly one family, the first of these that it is: an address
literal, a block, a glob (it holds a `*` or a `?`), or a domain.
-/

namespace HostPolicy

inductive Family where
  | ip
  | cidr
  | domain
  | wildcard
  deriving DecidableEq, Repr

def Family.name : Family → String
  | ip => "ip"
  | cidr => "cidr"
  | domain => "domain"
  | wildcard => "wildcard"

inductive Pattern where
  | address (address : Address)
  | block (block : Block)
  | domain (name : String)
  | glob (glob : String)
  deriving DecidableEq, Repr

namespace Pattern

def isWild (c : Char) : Bool :=
  c == '*' || c == '?'

def parse (text : String) : Pattern :=
  match Address.parse? text with
  | some a => address a
  | none =>
    match Block.parse? text with
    | some b => block b
    | none => if text.toList.any isWild then glob text else domain text

def family : Pattern → Family
  | address _ => .ip
  | block _ => .cidr
  | domain _ => .domain
  | glob _ => .wildcard

def text : Pattern → String
  | address a => a.text
  | block b => b.text
  | domain name => name
  | glob g => g

end Pattern

end HostPolicy
