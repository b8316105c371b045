import HostPolicy.Text.Digits

/-!
Endpoints, a host and a port joined by a colon. A host that holds colons itself stands between
brackets.
-/

namespace HostPolicy.Endpoint

/-- What stands before and after the last colon. -/
def cutLastColon (cs : List Char) : Option (List Char × List Char) :=
  match cs.reverse.dropWhile (· != ':') with
  | [] => none
  | _ :: before => some (before.reverse, (cs.reverse.takeWhile (· != ':')).reverse)

/-- The host that is written before the last colon: bare, or between brackets. -/
def hostBefore : List Char → Option (List Char)
  | '[' :: rest => if rest.getLast? = some ']' then some rest.dropLast else none
  | host => if ':' ∈ host then none else some host

def isBracket (c : Char) : Bool :=
  c == '[' || c == ']'

def splitChars (cs : List Char) : Option (List Char × List Char) := do
  let (before, port) ← cutLastColon cs
  let host ← hostBefore before
  if host.any isBracket || port.any isBracket then none else some (host, port)

/-- The host and the port of an endpoint; neither has to make sense. -/
def split? (address : String) : Option (String × String) :=
  (splitChars address.toList).map fun (host, port) => (String.ofList host, String.ofList port)

/-- Decimal digits, after a plus sign or not, of a number from 1 to 65535. -/
def isPort (port : List Char) : Bool :=
  let digits := match port with
    | '+' :: digits => digits
    | digits => digits
  let significant := digits.dropWhile (· == '0')
  digits.all Char.isDigit && decide (0 < significant.length) && decide (significant.length ≤ 5) &&
    decide (Text.decimalValue (significant.take 5) ≤ 65535)

def hostChars (cs : List Char) : List Char :=
  match splitChars cs with
  | some (host, port) => if host.isEmpty || !isPort port then cs else host
  | none => cs

/-- The host of an endpoint with a host and a valid port, and any other text as it is. -/
def host (address : String) : String :=
  String.ofList (hostChars address.toList)

end HostPolicy.Endpoint
