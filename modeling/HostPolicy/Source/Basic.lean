import HostPolicy.RuleText
import HostPolicy.Source.Directory
import HostPolicy.Source.Store

/-!
Rule sources. A source has a name, takes a while to answer a load, answers with rule text or an
error, and is closed in the end. What it answers with may lie outside of it, in files or stores.
-/

namespace HostPolicy

inductive Collection where
  | set
  | hash
  deriving DecidableEq, Repr

def Collection.name : Collection → String
  | set => "kv-set"
  | hash => "kv-hash"

/-- The key of a collection when none is given. -/
def defaultKey : String := "policy"

def collectionKey (key : Option String) : String :=
  match key with
  | none => defaultKey
  | some key => if key = "" then defaultKey else key

/-- A source that answers as it is told, after a delay or never. -/
structure Script where
  name : String
  stalled : Bool
  delay : Nat
  octets : List UInt8
  loadError : Option SourceError
  closeError : Option SourceError
  loads : Nat
  closed : Bool
  deriving DecidableEq, Repr

inductive Source where
  | memory (octets : List UInt8) (failing closed : Bool)
  | file (path : String)
  | collection (layout : Collection) (store key : String)
  | scripted (script : Script)
  deriving DecidableEq, Repr

namespace Source

def name : Source → String
  | memory _ _ _ => "memory"
  | file path => "file:" ++ path
  | collection layout _ key => s!"{layout.name}:{key}"
  | scripted script => script.name

/-- Milliseconds from the start of a load to its answer; `none` if there is never one. -/
def delay : Source → Option Nat
  | scripted script => if script.stalled then none else some script.delay
  | _ => some 0

def begun : Source → Source
  | scripted script => scripted { script with loads := script.loads + 1 }
  | source => source

end Source

/-- The sources of an engine, in order, and what they read from. -/
structure World where
  directory : Directory
  stores : List (String × Store)
  sources : List Source
  deriving DecidableEq, Repr

namespace World

def store (w : World) (name : String) : Store :=
  (w.stores.lookup name).getD .empty

def setStore (w : World) (name : String) (store : Store) : World :=
  { w with stores := (name, store) :: w.stores.filter (·.1 != name) }

def setSource (w : World) (i : Nat) (source : Source) : World :=
  { w with sources := w.sources.set i source }

def memoryUnavailable : SourceError :=
  .store "memory source marked unavailable"

/-- A set has one member a line, a hash one field with its value. -/
def collectionText (layout : Collection) (store : Store) (key : String) :
    Except SourceError (List UInt8) :=
  match layout with
  | .set => (store.members key).map RuleText.ofRules
  | .hash => (store.entries key).map fun entries =>
      Text.Utf8.encode (String.join (entries.map fun (field, value) => s!"{field} {value}\n"))

def answer (w : World) : Source → Except SourceError (List UInt8)
  | .memory octets failing closed =>
    if closed then .error .closed
    else if failing then .error memoryUnavailable
    else .ok octets
  | .file path => (w.directory.read path).mapError fun failure => .read path failure.error
  | .collection layout store key => collectionText layout (w.store store) key
  | .scripted script =>
    if script.closed then .error .closed
    else
      match script.loadError with
      | some error => .error error
      | none => .ok script.octets

def beginLoad (w : World) (i : Nat) : World :=
  { w with sources := w.sources.modify i Source.begun }

/-- Closes a source, which may report an error and is closed all the same. -/
def close (w : World) (i : Nat) : World × Option SourceError :=
  match w.sources[i]? with
  | some (.memory octets failing _) => (w.setSource i (.memory octets failing true), none)
  | some (.collection _ name _) =>
    let (store, error) := (w.store name).close
    (w.setStore name store, error)
  | some (.scripted script) =>
    (w.setSource i (.scripted { script with closed := true }), script.closeError)
  | _ => (w, none)

inductive Change where
  | setText (source : Nat) (octets : List UInt8)
  | setFailing (source : Nat) (failing : Bool)
  /-- What a scripted source does from now on; what happened to it stays. -/
  | setScript (source : Nat) (script : Script)
  | updateStore (name : String) (update : Store.Update)
  | writeFile (path : String) (octets : List UInt8)
  | removeFile (path : String)
  deriving DecidableEq, Repr

def change (w : World) : Change → World
  | .setText i octets =>
    match w.sources[i]? with
    | some (.memory _ failing closed) => w.setSource i (.memory octets failing closed)
    | _ => w
  | .setFailing i failing =>
    match w.sources[i]? with
    | some (.memory octets _ closed) => w.setSource i (.memory octets failing closed)
    | _ => w
  | .setScript i script =>
    match w.sources[i]? with
    | some (.scripted former) =>
      w.setSource i (.scripted { script with loads := former.loads, closed := former.closed })
    | _ => w
  | .updateStore name update => w.setStore name ((w.store name).update update)
  | .writeFile path octets => { w with directory := w.directory.write path octets }
  | .removeFile path => { w with directory := w.directory.remove path }

/-- Whether a source has been closed, where it can tell. -/
def isClosed (w : World) (i : Nat) : Bool :=
  match w.sources[i]? with
  | some (.memory _ _ closed) => closed
  | some (.scripted script) => script.closed
  | _ => false

end World

end HostPolicy
