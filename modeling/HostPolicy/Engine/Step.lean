import HostPolicy.Engine.Basic

/-!
The steps of an engine. Some are taken by callers: to reload, to close, to wait for either no
longer, to share the engine or to let go of it, to change what the sources read, to let time pass.
The others are taken by the engine itself, each where it is ready: by the holder of the queue's
head, by the ticker, and by the call that closes. Every order of steps is possible.
-/

namespace HostPolicy.Engine

/-- The engine before its first cycle. -/
def new (settings : Settings) (world : World) : Engine where
  settings := settings
  world := world
  rules := .empty
  version := 0
  queue := [.build]
  cycle := none
  ticker := .off
  closing := .notCalled
  owners := 0
  calls := 0
  now := 0
  journal := []

/-- An engine of fixed rules, without sources. Its version is 1 also if they do not compile and
it starts with no rules. -/
def ofPatterns (policy : Policy) (patterns : List String) : Engine :=
  let e := { new (.ofRequest policy patterns none none) ⟨.empty, [], []⟩ with
    version := 1, queue := [], owners := 1 }
  match RuleSet.compile patterns with
  | .ok rules => { e with rules := rules }
  | .error error => e.record (.startedEmpty error)

/-! ## Callers -/

def reload (e : Engine) : Engine :=
  if e.owners = 0 then e
  else
    let queued := e.enqueue (.manual e.calls)
    { queued with calls := e.calls + 1 }.record (.reloadCalled e.calls)

/-- A claimant gives up its place in the queue, and with it a cycle of its own that is running. -/
def withdraw (e : Engine) (who : Claimant) : Engine :=
  let rest := { e with queue := e.queue.filter (· != who) }
  if e.queue.head? = some who ∧ e.cycle.isSome then
    { rest with cycle := none }.record .cycleCancelled
  else rest

/-- The caller of a reload waits for it no longer. -/
def abandon (e : Engine) (call : Nat) : Engine :=
  if .manual call ∈ e.queue then (e.withdraw (.manual call)).record (.reloadAbandoned call) else e

/-- Only the first call closes; the later ones return at once. -/
def close (e : Engine) : Engine :=
  if e.owners = 0 then e
  else if e.isClosed then (e.record .closeCalled).record (.closeReturned none)
  else { e with closing := .stopping }.record .closeCalled

/-- The caller of the call that closes waits for it no longer. The sources that it has not closed by
then stay as they are. -/
def abandonClose (e : Engine) : Engine :=
  match e.closing.released? with
  | some next =>
    let rest := e.queue.filter (· != Claimant.closer)
    { e with queue := rest, closing := .abandoned next }.record .closeAbandoned
  | none => e

def share (e : Engine) : Engine :=
  if e.owners = 0 then e else { e with owners := e.owners + 1 }

def drop (e : Engine) : Engine :=
  if e.owners = 0 then e else { e with owners := e.owners - 1 }.record .dropped

/-! ## The holder of the head of the queue -/

def beginCycle (e : Engine) (who : Claimant) : Engine :=
  { e with cycle := some ⟨0, none, []⟩ }.record (.cycleBegan who)

def beginLoad (e : Engine) (c : Cycle) : Engine :=
  { e with
    world := e.world.beginLoad c.next
    cycle := some { c with began := some e.now } }.record (.loadBegan c.next)

def patience (e : Engine) (source : Source) : Nat :=
  match source.delay with
  | some delay => min delay e.settings.loadTimeout
  | none => e.settings.loadTimeout

/-- An answer that takes no longer than the timeout is in time. -/
def answer (e : Engine) (source : Source) : Except SourceError (List UInt8) :=
  if source.delay.any (· ≤ e.settings.loadTimeout) then e.world.answer source
  else .error (.timeout source.name (.ofMillis e.settings.loadTimeout))

/-- The rules of an answer; a source that fails adds none. -/
def rulesOf : Except SourceError (List UInt8) → List String
  | .ok octets => RuleText.rules octets
  | .error _ => []

def endLoad (e : Engine) (c : Cycle) (source : Source) : Engine :=
  let answer := e.answer source
  { e with cycle := some ⟨c.next + 1, none, c.gathered ++ rulesOf answer⟩ }.record
    (.loadEnded c.next answer)

def leave (e : Engine) : Engine :=
  let next := { e with queue := e.queue.tail, cycle := none }
  match e.queue.head? with
  | some .build =>
    { next with owners := 1, ticker := .start e.settings.period e.now }.record
      (.started e.rules.counts.total)
  | some (.manual call) => next.record (.reloadReturned call)
  | some .periodic =>
    match e.ticker with
    | .cycling deadline => { next with ticker := .waiting deadline }
    | _ => next
  | _ => next

def install (e : Engine) (c : Cycle) : Engine :=
  match RuleSet.compile (e.settings.patterns ++ c.gathered) with
  | .ok rules =>
    { e with rules := rules, version := e.version + 1 }.record (.installed (e.version + 1) rules)
  | .error error => e.record (.notCompiled error)

def runCycle? (e : Engine) (who : Claimant) : Option Engine :=
  match e.cycle with
  | none => if e.isClosed then some e.leave else some (e.beginCycle who)
  | some c =>
    match e.world.sources[c.next]?, c.began with
    | none, _ => some (e.install c).leave
    | some _, none => some (e.beginLoad c)
    | some source, some began =>
      if began + e.patience source ≤ e.now then some (e.endLoad c source) else none

/-- Closes the next source, or ends the call when there is none. -/
def release? (e : Engine) : Option Engine :=
  match e.closing with
  | .releasing next error =>
    if next < e.world.sources.length then
      let (world, failed) := e.world.close next
      some ({ e with world, closing := .releasing (next + 1) (error.or failed) }.record
        (.sourceClosed next failed))
    else
      some (({ e.leave with closing := .done error }.record (.engineClosed e.version)).record
        (.closeReturned error))
  | _ => none

/-- A periodic cycle comes to a halt as soon as the ticker has to stop. -/
def holder? (e : Engine) : Option Engine :=
  match e.queue with
  | [] => none
  | .closer :: _ => e.release?
  | .periodic :: _ => if e.isShutDown then none else e.runCycle? .periodic
  | who :: _ => e.runCycle? who

/-! ## The ticker -/

def tick (e : Engine) (deadline : Nat) : Engine :=
  let following := Ticker.following (e.settings.period.getD 0) deadline e.now
  { e.enqueue .periodic with ticker := .cycling following }.record .ticked

def stopTicker (e : Engine) : Engine :=
  { e with ticker := .stopped }.record .tickerStopped

def ticker? (e : Engine) : Option Engine :=
  match e.ticker with
  | .waiting deadline =>
    if e.isShutDown then some e.stopTicker
    else if deadline ≤ e.now then some (e.tick deadline)
    else none
  | .cycling _ => if e.isShutDown then some (e.withdraw .periodic).stopTicker else none
  | _ => none

/-! ## The call that closes -/

def closer? (e : Engine) : Option Engine :=
  if e.closing = .stopping ∧ e.ticker.hasEnded then
    let noticed := if e.ticker = .lost then e.record .tickerLost else e
    some { noticed.enqueue .closer with closing := .releasing 0 none }
  else none

/-! ## All steps -/

inductive Action where
  | reload
  | abandon (call : Nat)
  | close
  | abandonClose
  | share
  | drop
  | change (change : World.Change)
  | wait (time : Nat)
  | holder
  | ticker
  | closer
  deriving DecidableEq, Repr

/-- A step that is not ready changes nothing. -/
def step (e : Engine) : Action → Engine
  | .reload => e.reload
  | .abandon call => e.abandon call
  | .close => e.close
  | .abandonClose => e.abandonClose
  | .share => e.share
  | .drop => e.drop
  | .change change => { e with world := e.world.change change }
  | .wait time => { e with now := e.now + time }
  | .holder => e.holder?.getD e
  | .ticker => e.ticker?.getD e
  | .closer => e.closer?.getD e

def steps (e : Engine) (actions : List Action) : Engine :=
  actions.foldl step e

end HostPolicy.Engine
