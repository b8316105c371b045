import HostPolicy.Engine.Basic

/-!
Configurations: the settings of one engine and the sources that it reads, as they are written by
an operator, and what they have to fulfil.
-/

namespace HostPolicy

structure FileSource where
  path : String
  deriving DecidableEq, Repr

/-- A collection of a Redis database. -/
structure RedisSource where
  address : String
  database : Int64
  password : Option String
  key : String
  layout : Collection
  deriving DecidableEq, Repr

structure Config where
  reversed : Bool
  patterns : List String
  reloadSeconds : UInt64
  timeoutSeconds : UInt64
  file : Option FileSource
  redis : Option RedisSource
  deriving DecidableEq, Repr

inductive ConfigViolation where
  | noTimeout
  | noPath
  | noAddress
  | negativeDatabase (database : Int64)
  | redisUnavailable (address : String)
  deriving DecidableEq, Repr

def ConfigViolation.text : ConfigViolation → String
  | noTimeout => "load_timeout_secs must be greater than 0"
  | noPath => "file.path cannot be empty"
  | noAddress => "redis.addr cannot be empty"
  | negativeDatabase database => s!"redis.db must be non-negative, got {database}"
  | redisUnavailable address => s!"redis source {address} requires the `redis` feature"

def FileSource.violation? (f : FileSource) : Option ConfigViolation :=
  if f.path = "" then some .noPath else none

def RedisSource.violation? (r : RedisSource) : Option ConfigViolation :=
  if Text.trim r.address = "" then some .noAddress
  else if r.database < 0 then some (.negativeDatabase r.database)
  else none

namespace Config

def defaultTimeoutSeconds : UInt64 := 10

/-- The first thing that is wrong, the timeout before the file and the file before the database. -/
def violation? (c : Config) : Option ConfigViolation :=
  if c.timeoutSeconds = 0 then some .noTimeout
  else (c.file.bind FileSource.violation?).or (c.redis.bind RedisSource.violation?)

def validate (c : Config) : Except ConfigError Unit :=
  match c.violation? with
  | some violation => .error (.invalid violation.text)
  | none => .ok ()

/-- The seconds between two periodic reloads; zero asks for none. -/
def periodSeconds? (c : Config) : Option UInt64 :=
  if c.reloadSeconds = 0 then none else some c.reloadSeconds

def sourceCount (c : Config) : Nat :=
  c.file.toList.length + c.redis.toList.length

def settings (c : Config) (kind : Kind) : Settings :=
  .ofRequest ⟨kind, c.reversed⟩ c.patterns (some (c.timeoutSeconds.toNat * 1000))
    (c.periodSeconds?.map fun seconds => seconds.toNat * 1000)

/-- The settings and sources of the engine that a configuration asks for. No source reads from a
Redis database. -/
def plan (c : Config) (kind : Kind) : Except ConfigError (Settings × List Source) := do
  c.validate
  match c.redis with
  | some redis => throw (.invalid (ConfigViolation.redisUnavailable redis.address).text)
  | none => return (c.settings kind, c.file.toList.map fun file => .file file.path)

end Config

end HostPolicy
