import HostPolicy.Engine.Basic

/-!
What an engine reports of the events in its journal.
-/

namespace HostPolicy

namespace Engine

/-- What a ticker that ended by itself leaves behind. -/
def lostReason : String := "overflow when adding duration to instant"

def sourceName (e : Engine) (i : Nat) : String :=
  (e.world.sources[i]?.map Source.name).getD ""

def kindField (e : Engine) : String × LogValue :=
  ("kind", .text e.settings.policy.kind.name)

/-- A file that was read is reported by the source itself, and a failed load by the engine. -/
def loadRecord? (e : Engine) (i : Nat) : Except SourceError (List UInt8) → Option LogRecord
  | .ok octets =>
    match e.world.sources[i]? with
    | some (.file path) =>
      some ⟨.trace, "Rule file read", [("path", .text path), ("bytes", .count octets.length)]⟩
    | _ => none
  | .error error =>
    some ⟨.warn, "Rule source load failed",
      [e.kindField, ("source", .text (e.sourceName i)), ("error", .text error.message)]⟩

def record? (e : Engine) : Event → Option LogRecord
  | .started rules =>
    some ⟨.info, "Policy engine started",
      [e.kindField, ("reverse", .flag e.settings.policy.reversed),
        ("sources", .count e.world.sources.length), ("rules", .count rules),
        ("reload_secs", .count (e.settings.period.getD 0 / 1000))]⟩
  | .startedEmpty error =>
    some ⟨.warn, "Rule compilation failed, starting with empty rule set",
      [e.kindField, ("error", .text error.message)]⟩
  | .loadEnded i answer => e.loadRecord? i answer
  | .installed version rules =>
    let n := rules.counts
    some ⟨.debug, "Policy rules reloaded",
      [e.kindField, ("version", .count version.toNat), ("ip", .count n.ip), ("cidr", .count n.cidr),
        ("domain", .count n.domain), ("wildcard", .count n.wildcard)]⟩
  | .notCompiled error =>
    some ⟨.warn, "Rule compilation failed, keeping previous rule set",
      [e.kindField, ("error", .text error.message)]⟩
  | .tickerStopped => some ⟨.debug, "Policy reload task stopped", [e.kindField]⟩
  | .tickerLost =>
    some ⟨.warn, "Reload task ended abnormally", [e.kindField, ("error", .text lostReason)]⟩
  | .sourceClosed i (some error) =>
    some ⟨.warn, "Failed to close rule source",
      [e.kindField, ("source", .text (e.sourceName i)), ("error", .text error.message)]⟩
  | .engineClosed version =>
    some ⟨.info, "Policy engine closed", [e.kindField, ("version", .count version.toNat)]⟩
  | _ => none

/-- The records of all events after the first `count`, in order. -/
def recordsSince (e : Engine) (count : Nat) : List LogRecord :=
  (e.journal.take (e.journal.length - count)).reverse.filterMap fun entry => e.record? entry.event

end Engine

end HostPolicy
