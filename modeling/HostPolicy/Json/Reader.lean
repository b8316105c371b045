import HostPolicy.Json.Number
import HostPolicy.Json.Text
import HostPolicy.Text.Quoted

/-!
Readers of JSON values of an expected type. A reader takes the text from the front and answers
what it read and the rest. A value of another type is read as far as it takes to name it in the
complaint; lists and objects are named unread.
-/

namespace HostPolicy.Json

def isSpace (c : Char) : Bool :=
  c == ' ' || c == '\n' || c == '\t' || c == '\r'

def skipSpace (cs : List Char) : List Char :=
  cs.dropWhile isSpace

/-- The rest of a word whose first character was read. -/
def readWord : List Char → List Char → Except Fault (List Char)
  | [], cs => .ok cs
  | _ :: _, [] => fail .endInValue []
  | w :: word, c :: cs => if c = w then readWord word cs else failPast .expectedWord (c :: cs)

/-- The text in front of which a value is expected. -/
def valueText (cs : List Char) : Except Fault (List Char) :=
  match skipSpace cs with
  | [] => fail .endInValue []
  | cs => .ok cs

/-- The complaint about a value that is not of the expected type. -/
def mistyped {α : Type} (expected : String) (cs : List Char) : Except Fault α :=
  match cs with
  | 'n' :: rest => readWord ['u', 'l', 'l'] rest >>= fail (.mistyped "null" expected)
  | 't' :: rest => readWord ['r', 'u', 'e'] rest >>= fail (.mistyped "boolean `true`" expected)
  | 'f' :: rest =>
    readWord ['a', 'l', 's', 'e'] rest >>= fail (.mistyped "boolean `false`" expected)
  | '"' :: rest => do
    let (found, rest) ← readQuoted rest
    fail (.mistyped s!"string {HostPolicy.Text.quoted (String.ofList found)}" expected) rest
  | '[' :: _ => fail (.mistyped "sequence" expected) cs
  | '\x7b' :: _ => fail (.mistyped "map" expected) cs
  | c :: _ =>
    if c = '-' ∨ c.isDigit then do
      let (found, rest) ← readNumber cs
      fail (.mistyped found.text expected) rest
    else failPast .expectedValue cs
  | [] => fail .endInValue []

def readBool (cs : List Char) : Except Fault (Bool × List Char) := do
  match ← valueText cs with
  | 't' :: rest => return (true, ← readWord ['r', 'u', 'e'] rest)
  | 'f' :: rest => return (false, ← readWord ['a', 'l', 's', 'e'] rest)
  | cs => mistyped "a boolean" cs

/-- A text; `expected` is what a complaint says was expected. -/
def readTextAs (expected : String) (cs : List Char) : Except Fault (String × List Char) := do
  match ← valueText cs with
  | '"' :: rest =>
    let (read, rest) ← readQuoted rest
    return (String.ofList read, rest)
  | cs => mistyped expected cs

def readText : List Char → Except Fault (String × List Char) :=
  readTextAs "a string"

def startsNumber (cs : List Char) : Bool :=
  cs.head? == some '-' || startsWithDigit cs

def readUInt64 (cs : List Char) : Except Fault (UInt64 × List Char) := do
  let cs ← valueText cs
  if startsNumber cs then
    match ← readNumber cs with
    | (.natural n, rest) => return (UInt64.ofNat n, rest)
    | (.negative n, rest) => fail (.badValue (Number.negative n).text "u64") rest
    | (.real x, rest) => fail (.mistyped (Number.real x).text "u64") rest
  else mistyped "u64" cs

def readInt64 (cs : List Char) : Except Fault (Int64 × List Char) := do
  let cs ← valueText cs
  if startsNumber cs then
    match ← readNumber cs with
    | (.natural n, rest) =>
      if n < Nat.pow 2 63 then return (Int64.ofNat n, rest)
      else fail (.badValue (Number.natural n).text "i64") rest
    | (.negative n, rest) => return (Int64.ofInt n, rest)
    | (.real x, rest) => fail (.mistyped (Number.real x).text "i64") rest
  else mistyped "i64" cs

def readNull (cs : List Char) : Except Fault (Unit × List Char) := do
  match ← valueText cs with
  | 'n' :: rest => return ((), ← readWord ['u', 'l', 'l'] rest)
  | cs => mistyped "unit" cs

def readOption {α : Type} (read : List Char → Except Fault (α × List Char)) (cs : List Char) :
    Except Fault (Option α × List Char) := do
  match skipSpace cs with
  | 'n' :: rest => return (none, ← readWord ['u', 'l', 'l'] rest)
  | cs =>
    let (value, rest) ← read cs
    return (some value, rest)

def readColon (cs : List Char) : Except Fault (List Char) :=
  match skipSpace cs with
  | ':' :: rest => .ok rest
  | [] => fail .endInObject []
  | cs => failPast .expectedColon cs

/-- The text of the next element of a list, `first` if none was read before, or `none` at the end
of the list, which is left unread. -/
def nextElement (first : Bool) (cs : List Char) : Except Fault (Option (List Char) × List Char) :=
  match skipSpace cs with
  | [] => fail .endInList []
  | ']' :: rest => .ok (none, ']' :: rest)
  | c :: rest =>
    if first then .ok (some (c :: rest), c :: rest)
    else if c = ',' then
      match skipSpace rest with
      | [] => fail .endInValue []
      | ']' :: rest => failPast .trailingComma (']' :: rest)
      | rest => .ok (some rest, rest)
    else failPast .expectedListGoesOn (c :: rest)

/-- The end of a list of which no more elements are wanted. -/
def closeList (cs : List Char) : Except Fault (List Char) :=
  match skipSpace cs with
  | ']' :: rest => .ok rest
  | ',' :: rest =>
    match skipSpace rest with
    | ']' :: rest => failPast .trailingComma (']' :: rest)
    | rest => failPast .trailingCharacters rest
  | [] => fail .endInList []
  | cs => failPast .trailingCharacters cs

/-- Where a list is complained about as a whole: behind what could be its end. -/
def afterList (cs : List Char) : List Char :=
  match skipSpace cs with
  | ']' :: rest => rest
  | ',' :: rest => skipSpace rest
  | cs => cs

/-- The elements of a list up to its end, which is left unread. Every element takes a character,
so `fuel` is the length of the text. -/
def readElements {α : Type} (read : List Char → Except Fault (α × List Char)) :
    Nat → Bool → List Char → Except Fault (List α × List Char)
  | 0, _, cs => fail .expectedValue cs
  | fuel + 1, first, cs => do
    match ← nextElement first cs with
    | (none, cs) => return ([], cs)
    | (some cs, _) =>
      let (value, cs) ← read cs
      let (values, cs) ← readElements read fuel false cs
      return (value :: values, cs)

def readList {α : Type} (read : List Char → Except Fault (α × List Char)) (cs : List Char) :
    Except Fault (List α × List Char) := do
  match ← valueText cs with
  | '[' :: rest =>
    let (values, rest) ← readElements read (rest.length + 1) true rest
    return (values, ← closeList rest)
  | cs => mistyped "a sequence" cs

end HostPolicy.Json
