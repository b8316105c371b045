import HostPolicy.Json.Text

/-!
Writing JSON values without space. A member of an object may be absent.
-/

namespace HostPolicy.Json

def textChars (text : String) : List Char :=
  quote text.toList

def boolChars (b : Bool) : List Char :=
  if b then ['t', 'r', 'u', 'e'] else ['f', 'a', 'l', 's', 'e']

def naturalChars (n : UInt64) : List Char :=
  Text.decimal n.toNat

def integerChars (n : Int64) : List Char :=
  let digits := Text.decimal n.toInt.natAbs
  if n < 0 then '-' :: digits else digits

def listChars (values : List (List Char)) : List Char :=
  ['['] ++ [','].intercalate values ++ [']']

def memberChars? (name : String) (value : Option (List Char)) : Option (List Char) :=
  value.map fun value => textChars name ++ ':' :: value

def objectChars (members : List (String × Option (List Char))) : List Char :=
  let present := members.filterMap fun (name, value) => memberChars? name value
  ['\x7b'] ++ [','].intercalate present ++ ['\x7d']

end HostPolicy.Json
