import HostPolicy.Engine.Basic
import Mathlib.Data.List.Basic

/-!
# How an engine treats its sources

`Conduct` is the grammar of journals in which the sources are treated as they may expect: cycles
come one after another, a cycle asks the sources in order and one at a time, and sources are closed
in order, outside of cycles, and for good. What it means for the sources is read off the grammar
here, once for all journals; that every run of an engine keeps to it is shown elsewhere.

A journal is kept the latest entry first, so that what was told before an entry is the list behind
it.
-/

namespace HostPolicy

/-- Whether neither a cycle nor a source has a part in an event. -/
def Event.isQuiet : Event → Bool
  | cycleBegan _ => false
  | cycleCancelled => false
  | loadBegan _ => false
  | loadEnded _ _ => false
  | installed _ _ => false
  | notCompiled _ => false
  | sourceClosed _ _ => false
  | _ => true

/-- Whether an event is the closing of the source with this index. -/
def Event.closes (source : Nat) : Event → Bool
  | sourceClosed i _ => i == source
  | _ => false

namespace Journal

/-- How far an engine has come with its sources. -/
inductive Stage where
  /-- No cycle is running, and this many sources were closed. -/
  | resting (closed : Nat)
  /-- In a cycle that has asked the sources before `next`. -/
  | asking (next : Nat)
  | loading (source : Nat)
  deriving DecidableEq

namespace Stage

def closed : Stage → Nat
  | resting closed => closed
  | _ => 0

def loads : Stage → List Nat
  | loading source => [source]
  | _ => []

/-- No stage is past the last source. -/
def Within (count : Nat) : Stage → Prop
  | resting closed => closed ≤ count
  | asking next => next ≤ count
  | loading source => source < count

end Stage

/-- The journals of an engine with `count` sources, and the stage that each leads to. -/
inductive Conduct (count : Nat) : List Entry → Stage → Prop
  | start : Conduct count [] (.resting 0)
  | cycleBegan {earlier : List Entry} (time : Nat) (who : Claimant)
      (before : Conduct count earlier (.resting 0)) :
      Conduct count (⟨time, .cycleBegan who⟩ :: earlier) (.asking 0)
  | loadBegan {earlier : List Entry} {i : Nat} (time : Nat) (known : i < count)
      (before : Conduct count earlier (.asking i)) :
      Conduct count (⟨time, .loadBegan i⟩ :: earlier) (.loading i)
  | loadEnded {earlier : List Entry} {i : Nat} (time : Nat)
      (answer : Except SourceError (List UInt8)) (before : Conduct count earlier (.loading i)) :
      Conduct count (⟨time, .loadEnded i answer⟩ :: earlier) (.asking (i + 1))
  | installed {earlier : List Entry} (time : Nat) (version : UInt64) (rules : RuleSet)
      (before : Conduct count earlier (.asking count)) :
      Conduct count (⟨time, .installed version rules⟩ :: earlier) (.resting 0)
  | notCompiled {earlier : List Entry} (time : Nat) (error : RuleError)
      (before : Conduct count earlier (.asking count)) :
      Conduct count (⟨time, .notCompiled error⟩ :: earlier) (.resting 0)
  | cancelledAsking {earlier : List Entry} {i : Nat} (time : Nat)
      (before : Conduct count earlier (.asking i)) :
      Conduct count (⟨time, .cycleCancelled⟩ :: earlier) (.resting 0)
  | cancelledLoading {earlier : List Entry} {i : Nat} (time : Nat)
      (before : Conduct count earlier (.loading i)) :
      Conduct count (⟨time, .cycleCancelled⟩ :: earlier) (.resting 0)
  | sourceClosed {earlier : List Entry} {i : Nat} (time : Nat) (error : Option SourceError)
      (known : i < count) (before : Conduct count earlier (.resting i)) :
      Conduct count (⟨time, .sourceClosed i error⟩ :: earlier) (.resting (i + 1))
  | quiet {earlier : List Entry} {stage : Stage} (entry : Entry)
      (isQuiet : entry.event.isQuiet = true) (before : Conduct count earlier stage) :
      Conduct count (entry :: earlier) stage

namespace Conduct

variable {count : Nat} {journal earlier later : List Entry} {stage : Stage}

theorem append_quiet (hconduct : Conduct count earlier stage)
    (hquiet : ∀ entry ∈ later, entry.event.isQuiet = true) :
    Conduct count (later ++ earlier) stage := by
  induction later with
  | nil => exact hconduct
  | cons entry later ih =>
      have hrest := ih fun other hmem => hquiet other (List.mem_cons_of_mem entry hmem)
      exact .quiet entry (hquiet entry List.mem_cons_self) hrest

theorem tail {entry : Entry} (hconduct : Conduct count (entry :: earlier) stage) :
    ∃ stage, Conduct count earlier stage := by
  cases hconduct with
  | cycleBegan _ _ before => exact ⟨_, before⟩
  | loadBegan _ _ before => exact ⟨_, before⟩
  | loadEnded _ _ before => exact ⟨_, before⟩
  | installed _ _ _ before => exact ⟨_, before⟩
  | notCompiled _ _ before => exact ⟨_, before⟩
  | cancelledAsking _ before => exact ⟨_, before⟩
  | cancelledLoading _ before => exact ⟨_, before⟩
  | sourceClosed _ _ _ before => exact ⟨_, before⟩
  | quiet _ _ before => exact ⟨_, before⟩

theorem stage_within (hconduct : Conduct count journal stage) : stage.Within count := by
  induction hconduct with
  | start => exact Nat.zero_le count
  | cycleBegan time who before ih => exact Nat.zero_le count
  | loadBegan time known before ih => exact known
  | loadEnded time answer before ih => exact ih
  | installed time version rules before ih => exact Nat.zero_le count
  | notCompiled time error before ih => exact Nat.zero_le count
  | cancelledAsking time before ih => exact Nat.zero_le count
  | cancelledLoading time before ih => exact Nat.zero_le count
  | sourceClosed time error known before ih => exact known
  | quiet entry isQuiet before ih => exact ih

end Conduct

end Journal

end HostPolicy
