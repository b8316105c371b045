import HostPolicy.Text.Blank
import HostPolicy.Text.Utf8

/-!
Rule text: one rule a line, in UTF-8. A `#` starts a comment that runs to the end of its line,
white space around a rule is dropped, a carriage return before the line feed with it, and blank
lines hold no rule.
-/

namespace HostPolicy.RuleText

/-- The rule of a line, before any comment. -/
def rule? (line : List Char) : Option String :=
  match Text.trimChars (line.takeWhile (· != '#')) with
  | [] => none
  | rule => some (String.ofList rule)

/-- The rules of a text, in order; octets that are not UTF-8 stay within their line. -/
def rules (octets : List UInt8) : List String :=
  ((Text.Utf8.decodeLossy octets).splitOn '\n').filterMap rule?

def ofRules (rules : List String) : List UInt8 :=
  Text.Utf8.encode ("\n".intercalate rules)

end HostPolicy.RuleText
