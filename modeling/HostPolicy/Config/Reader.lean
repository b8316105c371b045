import HostPolicy.Config.Basic
import HostPolicy.Json.Record

/-!
Reading configurations from JSON text, and from files that hold it.
-/

namespace HostPolicy.Config

open Json

/-! ## The file source -/

def fileMember (name : String) (draft : Option String) (cs : List Char) :
    Except Fault (Option String × List Char) :=
  match name with
  | "path" => readMember "path" id (fun _ path => some path) (readTextAs "path string") draft cs
  | _ => skipMember draft cs

def fileElements (cs : List Char) : Except Fault (Except Complaint FileSource × List Char) := do
  match ← readField true (readTextAs "path string") cs with
  | (some path, cs) => return (.ok ⟨path⟩, cs)
  | (none, cs) => return (.error (.tooShort 0 "struct FileSourceConfig with 1 element"), cs)

def finishFile (draft : Option String) : Except Complaint FileSource :=
  match draft with
  | some path => .ok ⟨path⟩
  | none => .error (.missingField "path")

def readFile : List Char → Except Fault (FileSource × List Char) :=
  readRecord "struct FileSourceConfig" fileMember none finishFile fileElements

/-! ## The Redis source -/

def layoutNamed (name : String) (cs : List Char) : Except Fault (Collection × List Char) :=
  match name with
  | "set" => .ok (.set, cs)
  | "hash" => .ok (.hash, cs)
  | name => fail (.unknownVariant name "`set` or `hash`") cs

/-- The name of a layout, or an object with that name as its only key and `null` as its value. -/
def readLayout (cs : List Char) : Except Fault (Collection × List Char) := do
  match ← valueText cs with
  | '"' :: rest =>
    let (name, rest) ← readQuoted rest
    layoutNamed (String.ofList name) rest
  | '\x7b' :: rest =>
    let (name, rest) ← readOnlyKey rest
    let (layout, rest) ← layoutNamed name rest
    let ((), rest) ← readNull (← readColon rest)
    match skipSpace rest with
    | '\x7d' :: rest => return (layout, rest)
    | [] => fail .endInObject []
    | rest => fail .expectedValue rest
  | cs => failPast .expectedValue cs

structure RedisDraft where
  address : Option String
  database : Option Int64
  password : Option (Option String)
  key : Option String
  layout : Option Collection

def redisMember (name : String) (draft : RedisDraft) (cs : List Char) :
    Except Fault (RedisDraft × List Char) :=
  match name with
  | "addr" =>
    readMember "addr" (·.address) (fun d v => { d with address := some v }) readText draft cs
  | "db" =>
    readMember "db" (·.database) (fun d v => { d with database := some v }) readInt64 draft cs
  | "password" =>
    readMember "password" (·.password) (fun d v => { d with password := some v })
      (readOption readText) draft cs
  | "key" => readMember "key" (·.key) (fun d v => { d with key := some v }) readText draft cs
  | "type" =>
    readMember "type" (·.layout) (fun d v => { d with layout := some v }) readLayout draft cs
  | _ => skipMember draft cs

/-- Only the address has to be given. -/
def finishRedis (missing : Complaint) (d : RedisDraft) : Except Complaint RedisSource :=
  match d.address with
  | none => .error missing
  | some address => .ok {
      address
      database := d.database.getD 0
      password := d.password.getD none
      key := d.key.getD defaultKey
      layout := d.layout.getD .set }

def redisElements (cs : List Char) : Except Fault (Except Complaint RedisSource × List Char) := do
  let missing := Complaint.tooShort 0 "struct RedisSourceConfig with 5 elements"
  let (address, cs) ← readField true readText cs
  let (database, cs) ← readField false readInt64 cs
  let (password, cs) ← readField false (readOption readText) cs
  let (key, cs) ← readField false readText cs
  let (layout, cs) ← readField false readLayout cs
  return (finishRedis missing ⟨address, database, password, key, layout⟩, cs)

def readRedis : List Char → Except Fault (RedisSource × List Char) :=
  readRecord "struct RedisSourceConfig" redisMember ⟨none, none, none, none, none⟩
    (finishRedis (.missingField "addr")) redisElements

/-! ## The configuration -/

structure Draft where
  reversed : Option Bool
  patterns : Option (List String)
  reloadSeconds : Option UInt64
  timeoutSeconds : Option UInt64
  file : Option (Option FileSource)
  redis : Option (Option RedisSource)

def member (name : String) (draft : Draft) (cs : List Char) : Except Fault (Draft × List Char) :=
  match name with
  | "reverse" =>
    readMember "reverse" (·.reversed) (fun d v => { d with reversed := some v }) readBool draft cs
  | "matchers" =>
    readMember "matchers" (·.patterns) (fun d v => { d with patterns := some v })
      (readList readText) draft cs
  | "reload_secs" =>
    readMember "reload_secs" (·.reloadSeconds) (fun d v => { d with reloadSeconds := some v })
      readUInt64 draft cs
  | "load_timeout_secs" =>
    readMember "load_timeout_secs" (·.timeoutSeconds)
      (fun d v => { d with timeoutSeconds := some v }) readUInt64 draft cs
  | "file" =>
    readMember "file" (·.file) (fun d v => { d with file := some v }) (readOption readFile) draft cs
  | "redis" =>
    readMember "redis" (·.redis) (fun d v => { d with redis := some v }) (readOption readRedis)
      draft cs
  | _ => skipMember draft cs

/-- Every field that is not given has a default. -/
def finish (d : Draft) : Except Complaint Config :=
  .ok {
    reversed := d.reversed.getD false
    patterns := d.patterns.getD []
    reloadSeconds := d.reloadSeconds.getD 0
    timeoutSeconds := d.timeoutSeconds.getD defaultTimeoutSeconds
    file := d.file.getD none
    redis := d.redis.getD none }

def elements (cs : List Char) : Except Fault (Except Complaint Config × List Char) := do
  let (reversed, cs) ← readField true readBool cs
  let (patterns, cs) ← readField false (readList readText) cs
  let (reloadSeconds, cs) ← readField false readUInt64 cs
  let (timeoutSeconds, cs) ← readField false readUInt64 cs
  let (file, cs) ← readField false (readOption readFile) cs
  let (redis, cs) ← readField false (readOption readRedis) cs
  return (finish ⟨reversed, patterns, reloadSeconds, timeoutSeconds, file, redis⟩, cs)

def read : List Char → Except Fault (Config × List Char) :=
  readRecord "struct PolicyConfig" member ⟨none, none, none, none, none, none⟩ finish elements

/-- The configuration that a text holds, whether or not it is valid; otherwise what is wrong with
the text. -/
def parse (text : String) : Except String Config :=
  (readWhole read text.toList).mapError (·.message text)

def ofText (text : String) : Except ConfigError Config := do
  let config ← (parse text).mapError .unreadable
  config.validate
  return config

def notText : ReadError :=
  ⟨.other, "stream did not contain valid UTF-8"⟩

/-- The text of the file at a path; no file there is an error of its own. -/
def fileText (d : Directory) (path : String) : Except ConfigError String :=
  match d.read path with
  | .ok octets =>
    match Text.Utf8.decode? octets with
    | some cs => .ok (String.ofList cs)
    | none => .error (.read notText)
  | .error .notFound => .error (.fileNotFound path)
  | .error failure => .error (.read failure.error)

def load (d : Directory) (path : String) : Except ConfigError Config := do
  let text ← fileText d path
  let config ← (parse text).mapError fun reason => .unreadable s!"{reason} in {path}"
  config.validate
  return config

end HostPolicy.Config
