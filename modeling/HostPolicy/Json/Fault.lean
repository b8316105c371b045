import HostPolicy.Text.Utf8

/-!
What a reader of JSON text objects to, and where. A place is kept as the number of octets of text
from there to the end, and shown as a line and a column, both counted from the start of the text;
columns count octets.
-/

namespace HostPolicy.Json

inductive Complaint where
  | endInValue
  | endInList
  | endInObject
  | endInString
  | expectedColon
  | expectedListGoesOn
  | expectedObjectGoesOn
  | expectedWord
  | expectedValue
  | invalidEscape
  | invalidNumber
  | numberOutOfRange
  | controlCharacter
  | keyNotText
  | loneSurrogate
  | halfSurrogatePair
  | trailingComma
  | trailingCharacters
  | mistyped (found expected : String)
  | badValue (found expected : String)
  | tooShort (length : Nat) (expected : String)
  | unknownVariant (found expected : String)
  | missingField (name : String)
  | duplicateField (name : String)
  deriving DecidableEq, Repr

def Complaint.text : Complaint → String
  | endInValue => "EOF while parsing a value"
  | endInList => "EOF while parsing a list"
  | endInObject => "EOF while parsing an object"
  | endInString => "EOF while parsing a string"
  | expectedColon => "expected `:`"
  | expectedListGoesOn => "expected `,` or `]`"
  | expectedObjectGoesOn => "expected `,` or `\x7d`"
  | expectedWord => "expected ident"
  | expectedValue => "expected value"
  | invalidEscape => "invalid escape"
  | invalidNumber => "invalid number"
  | numberOutOfRange => "number out of range"
  | controlCharacter => "control character (\\u0000-\\u001F) found while parsing a string"
  | keyNotText => "key must be a string"
  | loneSurrogate => "lone leading surrogate in hex escape"
  | halfSurrogatePair => "unexpected end of hex escape"
  | trailingComma => "trailing comma"
  | trailingCharacters => "trailing characters"
  | mistyped found expected => s!"invalid type: {found}, expected {expected}"
  | badValue found expected => s!"invalid value: {found}, expected {expected}"
  | tooShort length expected => s!"invalid length {length}, expected {expected}"
  | unknownVariant found expected => s!"unknown variant `{found}`, expected {expected}"
  | missingField name => s!"missing field `{name}`"
  | duplicateField name => s!"duplicate field `{name}`"

structure Fault where
  complaint : Complaint
  /-- Octets of text from the place of the fault to the end. -/
  left : Nat
  deriving DecidableEq, Repr

/-- The octets of a text. -/
def size : List Char → Nat
  | [] => 0
  | c :: cs => c.utf8Size + size cs

/-- A fault in front of the text `cs`. -/
def Fault.before (complaint : Complaint) (cs : List Char) : Fault :=
  ⟨complaint, size cs⟩

/-- A fault past the first octet of the text `cs`, if there is one. -/
def Fault.past (complaint : Complaint) (cs : List Char) : Fault :=
  ⟨complaint, size cs - 1⟩

def fail {α : Type} (complaint : Complaint) (cs : List Char) : Except Fault α :=
  .error (.before complaint cs)

def failPast {α : Type} (complaint : Complaint) (cs : List Char) : Except Fault α :=
  .error (.past complaint cs)

def newline : UInt8 := 10

def Fault.message (text : String) (fault : Fault) : String :=
  let octets := Text.Utf8.encode text
  let before := octets.take (octets.length - fault.left)
  let line := before.count newline + 1
  let column := (before.reverse.takeWhile (· != newline)).length
  s!"{fault.complaint.text} at line {line} column {column}"

end HostPolicy.Json
