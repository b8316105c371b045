import HostPolicy.Policy
import HostPolicy.Source.Basic

/-!
The state of an engine: the rule set that it decides by, and where its reload cycles, its ticker
and its closing stand. Times are in milliseconds.

A reload cycle asks every source in turn and compiles what they answer into the next rule set.
Cycles are run one at a time: whoever wants to run one, or to close the sources, queues up for
the right to do so, which the head of the queue holds.
-/

namespace HostPolicy

structure Settings where
  policy : Policy
  /-- Rules that every rule set holds beside those of the sources. -/
  patterns : List String
  /-- The longest that a load may take. -/
  loadTimeout : Nat
  /-- The time between two periodic reloads. -/
  period : Option Nat
  deriving DecidableEq, Repr

namespace Settings

def defaultLoadTimeout : Nat := 10000

def shortestPeriod : Nat := 1000

/-- A timeout of zero is none given, and so is a period of zero; any other period is at least the
shortest. -/
def ofRequest (policy : Policy) (patterns : List String) (loadTimeout period : Option Nat) :
    Settings where
  policy := policy
  patterns := patterns
  loadTimeout :=
    match loadTimeout with
    | some t => if t = 0 then defaultLoadTimeout else t
    | none => defaultLoadTimeout
  period := period.bind fun p => if p = 0 then none else some (max p shortestPeriod)

end Settings

/-- Who queues up to run a cycle or to close the sources. -/
inductive Claimant where
  /-- The first cycle, which makes the engine. -/
  | build
  /-- A reload that was called for, by its number. -/
  | manual (call : Nat)
  | periodic
  | closer
  deriving DecidableEq, Repr

inductive Event where
  | started (rules : Nat)
  | startedEmpty (error : RuleError)
  | reloadCalled (call : Nat)
  | reloadReturned (call : Nat)
  | reloadAbandoned (call : Nat)
  | ticked
  | cycleBegan (who : Claimant)
  | cycleCancelled
  | loadBegan (source : Nat)
  | loadEnded (source : Nat) (answer : Except SourceError (List UInt8))
  | installed (version : UInt64) (rules : RuleSet)
  | notCompiled (error : RuleError)
  | tickerStopped
  | tickerLost
  | closeCalled
  | closeAbandoned
  | sourceClosed (source : Nat) (error : Option SourceError)
  | engineClosed (version : UInt64)
  | closeReturned (error : Option SourceError)
  | dropped

structure Entry where
  time : Nat
  event : Event

/-- The cycle of the head of the queue: the source that is next to answer, when its load began,
and the rules that the sources before it answered. -/
structure Cycle where
  next : Nat
  began : Option Nat
  gathered : List String
  deriving DecidableEq, Repr

/-- The task that asks for a cycle once every period. -/
inductive Ticker where
  | off
  /-- Its next cycle is due at `deadline`. -/
  | waiting (deadline : Nat)
  /-- Its cycle is queued or running; the next is due at `deadline`. -/
  | cycling (deadline : Nat)
  | stopped
  /-- It ended by itself, as no clock reaches its deadline. -/
  | lost
  deriving DecidableEq, Repr

/-- The first call to close the engine. -/
inductive Closing where
  | notCalled
  /-- It waits for the ticker to stop. -/
  | stopping
  /-- It queues up, and then closes the sources from `next` on; `error` is the first that one of
  them reported. -/
  | releasing (next : Nat) (error : Option SourceError)
  /-- Its caller waited for it no longer when it had closed the sources before `next`. -/
  | abandoned (next : Nat)
  | done (error : Option SourceError)
  deriving DecidableEq, Repr

structure Engine where
  settings : Settings
  world : World
  rules : RuleSet
  /-- How many rule sets were compiled so far. -/
  version : UInt64
  queue : List Claimant
  cycle : Option Cycle
  ticker : Ticker
  closing : Closing
  /-- How many hold the engine, calls in progress apart. -/
  owners : Nat
  calls : Nat
  now : Nat
  /-- What happened so far, the latest first. -/
  journal : List Entry

namespace Claimant

/-- A call in progress keeps the engine alive; the ticker does not. -/
def isCall : Claimant → Bool
  | build => true
  | manual _ => true
  | periodic => false
  | closer => true

end Claimant

namespace Ticker

def clockEnd : Nat := Nat.pow 2 63 * 1000

def start (period : Option Nat) (now : Nat) : Ticker :=
  match period with
  | none => off
  | some p => if now + p < clockEnd then waiting (now + p) else lost

/-- How late a tick may be without moving those after it. -/
def tolerance : Nat := 5

/-- The longest time between a tick and the next: thirty years of 365 days. The first tick may be
later. -/
def longestPeriod : Nat := 30 * 365 * 24 * 60 * 60 * 1000

/-- When the next tick is due after one that was due at `deadline` and came at `now`. -/
def following (period deadline now : Nat) : Nat :=
  (if now ≤ deadline + tolerance then deadline else now) + min period longestPeriod

def hasEnded : Ticker → Bool
  | off => true
  | stopped => true
  | lost => true
  | waiting _ => false
  | cycling _ => false

end Ticker

namespace Closing

/-- How many sources a call in progress has closed. -/
def released? : Closing → Option Nat
  | notCalled => none
  | stopping => some 0
  | releasing next _ => some next
  | abandoned _ => none
  | done _ => none

end Closing

namespace Engine

def record (e : Engine) (event : Event) : Engine :=
  { e with journal := ⟨e.now, event⟩ :: e.journal }

def enqueue (e : Engine) (who : Claimant) : Engine :=
  { e with queue := e.queue ++ [who] }

def isClosed (e : Engine) : Bool :=
  e.closing != .notCalled

def isAlive (e : Engine) : Bool :=
  decide (0 < e.owners) || e.queue.any Claimant.isCall || e.closing == .stopping

/-- Whether the ticker has to stop. -/
def isShutDown (e : Engine) : Bool :=
  e.isClosed || !e.isAlive

def decide (e : Engine) (address : String) : Bool :=
  e.settings.policy.decide e.rules address

/-- The answer of a policy that may be absent: an absent one refuses every address. -/
def decides? (e : Option Engine) (address : String) : Bool :=
  e.any (·.decide address)

def summary (e : Engine) : String :=
  let fields := [
    ("kind", e.settings.policy.kind.label),
    ("reverse", toString e.settings.policy.reversed),
    ("version", toString e.version),
    ("sources", toString e.world.sources.length),
    ("rules", toString e.rules.counts.total),
    ("closed", toString e.isClosed)]
  "PolicyEngine \x7b " ++ ", ".intercalate (fields.map fun (name, value) => name ++ ": " ++ value)
    ++ " \x7d"

end Engine

end HostPolicy
