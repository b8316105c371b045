import HostPolicy.Config.Basic
import HostPolicy.Json.Writer

/-!
Writing configurations as JSON text: objects with a member for each field, in order. Sources and
a password that are absent have no member.
-/

namespace HostPolicy

open Json

def FileSource.chars (f : FileSource) : List Char :=
  objectChars [("path", some (textChars f.path))]

def Collection.chars : Collection → List Char
  | set => textChars "set"
  | hash => textChars "hash"

def RedisSource.chars (r : RedisSource) : List Char :=
  objectChars [
    ("addr", some (textChars r.address)),
    ("db", some (integerChars r.database)),
    ("password", r.password.map textChars),
    ("key", some (textChars r.key)),
    ("type", some r.layout.chars)]

namespace Config

def chars (c : Config) : List Char :=
  objectChars [
    ("reverse", some (boolChars c.reversed)),
    ("matchers", some (listChars (c.patterns.map textChars))),
    ("reload_secs", some (naturalChars c.reloadSeconds)),
    ("load_timeout_secs", some (naturalChars c.timeoutSeconds)),
    ("file", c.file.map FileSource.chars),
    ("redis", c.redis.map RedisSource.chars)]

def text (c : Config) : String :=
  String.ofList c.chars

end Config

end HostPolicy
