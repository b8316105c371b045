import HostPolicy.Engine.Step

/-!
An engine left to itself. It takes every step that is ready, and when none is, time passes to
the next moment at which one will be. The calls that wait for something run the engine so until
it has come about.
-/

namespace HostPolicy.Engine

/-- The engine after a step that it takes by itself and is ready for. -/
def progress? (e : Engine) : Option Engine :=
  e.ticker? <|> e.closer? <|> e.holder?

def loadDue? (e : Engine) : Option Nat := do
  let c ← e.cycle
  let source ← e.world.sources[c.next]?
  return (← c.began) + e.patience source

def tickDue? (e : Engine) : Option Nat :=
  match e.ticker with
  | .waiting deadline => some deadline
  | _ => none

def due? (e : Engine) : Option Nat :=
  match e.loadDue?, e.tickDue? with
  | some a, some b => some (min a b)
  | some a, none => some a
  | none, b => b

/-- The engine after what it does next by itself: a step, or to wait for a moment up to
`horizon`. -/
def next? (horizon : Option Nat) (e : Engine) : Option Engine :=
  match e.progress? with
  | some later => some later
  | none =>
    match e.due? with
    | some due => if horizon.all (due ≤ ·) then some (e.step (.wait (due - e.now))) else none
    | none => none

/-- What becomes of an engine left to itself until `stop` holds or nothing more is due up to
`horizon`. -/
def run (horizon : Option Nat) (stop : Engine → Bool) : Nat → Engine → Engine
  | 0, e => e
  | fuel + 1, e =>
    if stop e then e
    else
      match e.next? horizon with
      | some later => run horizon stop fuel later
      | none => e

/-- Enough steps for all that is queued and for the ticks of `time` milliseconds: a cycle takes
three for each source and a few more. -/
def enough (e : Engine) (time : Nat) : Nat :=
  (time / Settings.shortestPeriod + e.queue.length + 4) * (3 * e.world.sources.length + 8)

/-- Takes the steps that are ready, without waiting. -/
def settle (e : Engine) : Engine :=
  run (some e.now) (fun _ => false) (e.enough 0) e

/-- Lets time pass; what is due at its end is done too. Where none is to pass nothing goes on. -/
def advance (e : Engine) (time : Nat) : Engine :=
  if time = 0 then e
  else
    let passed := run (some (e.now + time)) (fun _ => false) (e.enough time) e
    { passed with now := max passed.now (e.now + time) }

def runUntil (e : Engine) (stop : Engine → Bool) : Engine :=
  run none stop (e.enough 0) e

def build (settings : Settings) (world : World) : Engine :=
  (new settings world).runUntil fun e => !e.queue.contains .build

def reloadNow (e : Engine) : Engine :=
  e.reload.runUntil fun later => !later.queue.contains (.manual e.calls)

def hasCalls (e : Engine) : Bool :=
  e.queue.any fun
    | .manual _ => true
    | _ => false

/-- Waits for all reloads that were called for. What the last of them lets go on does so at
once. -/
def join (e : Engine) : Engine :=
  if e.hasCalls then (e.runUntil (!·.hasCalls)).settle else e

/-- Closes the engine, waits until that is done, and answers what it reports. -/
def closeNow (e : Engine) : Engine × Option SourceError :=
  if e.isClosed then (e.close, none)
  else
    let later := e.close.runUntil fun later => later.closing matches .done _
    match later.closing with
    | .done error => (later, error)
    | _ => (later, none)

end HostPolicy.Engine
