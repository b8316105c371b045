import HostPolicy.Json.Reader

/-!
Values that nobody asks for. They have to be well formed, however deeply they nest; the lists and
objects that are still to be closed are kept on a stack.
-/

namespace HostPolicy.Json

inductive Frame where
  | list
  | object
  deriving DecidableEq, Repr

/-- The text after the key of the next member of an object and its colon. -/
def skipKey (cs : List Char) : Except Fault (List Char) :=
  match skipSpace cs with
  | '"' :: rest => skipQuoted rest >>= readColon
  | [] => fail .endInObject []
  | cs => failPast .keyNotText cs

mutual

/-- Skips a value, and then what the stack still demands. Every round takes a character, so
`fuel` is the length of the text. -/
def skipFrom : Nat → List Frame → List Char → Except Fault (List Char)
  | 0, _, cs => fail .expectedValue cs
  | fuel + 1, stack, cs => do
    match ← valueText cs with
    | 'n' :: rest => skipRest fuel stack (← readWord ['u', 'l', 'l'] rest)
    | 't' :: rest => skipRest fuel stack (← readWord ['r', 'u', 'e'] rest)
    | 'f' :: rest => skipRest fuel stack (← readWord ['a', 'l', 's', 'e'] rest)
    | '"' :: rest => skipRest fuel stack (← skipQuoted rest)
    | '[' :: rest =>
      match skipSpace rest with
      | [] => fail .endInList []
      | ']' :: rest => skipRest fuel stack rest
      | rest => skipFrom fuel (.list :: stack) rest
    | '\x7b' :: rest =>
      match skipSpace rest with
      | [] => fail .endInObject []
      | '\x7d' :: rest => skipRest fuel stack rest
      | rest => skipFrom fuel (.object :: stack) (← skipKey rest)
    | cs =>
      if startsNumber cs then skipRest fuel stack (← skipNumber cs)
      else failPast .expectedValue cs

/-- Skips what the stack demands after a value. -/
def skipRest : Nat → List Frame → List Char → Except Fault (List Char)
  | _, [], cs => .ok cs
  | 0, _, cs => fail .expectedValue cs
  | fuel + 1, .list :: stack, cs =>
    match skipSpace cs with
    | [] => fail .endInList []
    | ',' :: rest => skipFrom fuel (.list :: stack) rest
    | ']' :: rest => skipRest fuel stack rest
    | cs => failPast .expectedListGoesOn cs
  | fuel + 1, .object :: stack, cs =>
    match skipSpace cs with
    | [] => fail .endInObject []
    | ',' :: rest => do skipFrom fuel (.object :: stack) (← skipKey rest)
    | '\x7d' :: rest => skipRest fuel stack rest
    | cs => failPast .expectedObjectGoesOn cs

end

def skipValue (cs : List Char) : Except Fault (List Char) :=
  skipFrom (cs.length + 1) [] cs

end HostPolicy.Json
