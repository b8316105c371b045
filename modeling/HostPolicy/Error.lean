import HostPolicy.Duration
import HostPolicy.Pattern

/-!
What can go wrong, in four kinds: compiling rules, loading or closing a source, reading a
configuration, and any of these met by a policy. Each has the message it is shown with, and a
source's error says whether a later attempt may succeed.
-/

namespace HostPolicy

/-- A matcher, of the rules of the family with this name, could not be compiled. -/
structure RuleError where
  family : String
  reason : String
  deriving DecidableEq, Repr

def RuleError.message (e : RuleError) : String :=
  s!"Failed to compile {e.family} matcher: {e.reason}"

/-- The causes of a failed read that are told apart. -/
inductive ReadFailure where
  | notFound
  | permissionDenied
  | invalidInput
  | other
  deriving DecidableEq, Repr

structure ReadError where
  failure : ReadFailure
  text : String
  deriving DecidableEq, Repr

/-- Another attempt at a read is in vain when access is denied or the path is none. -/
def ReadError.isRecoverable (e : ReadError) : Bool :=
  e.failure != .permissionDenied && e.failure != .invalidInput

inductive SourceError where
  | read (path : String) (error : ReadError)
  | timeout (source : String) (limit : Duration)
  | store (reason : String)
  | closed
  deriving DecidableEq, Repr

namespace SourceError

def message : SourceError → String
  | read path error => s!"Failed to read rule file {path}: {error.text}"
  | timeout source limit => s!"Loading from {source} timed out after {limit.text}"
  | store reason => s!"Rule store error: {reason}"
  | closed => "Rule source is closed"

def isRecoverable : SourceError → Bool
  | read _ error => error.isRecoverable
  | timeout _ _ => true
  | store _ => true
  | closed => false

end SourceError

inductive ConfigError where
  | fileNotFound (path : String)
  | unreadable (reason : String)
  | invalid (reason : String)
  | read (error : ReadError)
  deriving DecidableEq, Repr

namespace ConfigError

def message : ConfigError → String
  | fileNotFound path => s!"Configuration file not found: {path}"
  | unreadable reason => s!"Failed to parse configuration: {reason}"
  | invalid reason => s!"Configuration validation failed: {reason}"
  | read error => s!"I/O error reading configuration: {error.text}"

/-- A configuration does not mend itself. -/
def isRecoverable (_ : ConfigError) : Bool := false

end ConfigError

inductive PolicyError where
  | config (error : ConfigError)
  | source (error : SourceError)
  | rule (error : RuleError)
  deriving DecidableEq, Repr

namespace PolicyError

def message : PolicyError → String
  | config error => "Configuration error: " ++ error.message
  | source error => "Loader error: " ++ error.message
  | rule error => "Rule error: " ++ error.message

/-- Only a source may recover by itself. -/
def isRecoverable : PolicyError → Bool
  | config error => error.isRecoverable
  | source error => error.isRecoverable
  | rule _ => false

end PolicyError

end HostPolicy
