import HostPolicy.Engine.Run
import HostPolicy.Proofs.Engine.Move

/-!
# An engine left to itself takes steps

Whatever becomes of an engine that is left to itself, or of a call that waits for it, comes about by
steps. What holds of every run holds of these too.
-/

namespace HostPolicy.Engine

/-- Whether some run leads from one engine to another. -/
def Reaches (e later : Engine) : Prop :=
  ∃ actions, e.steps actions = later

variable {e middle later : Engine}

theorem Reaches.refl (e : Engine) : e.Reaches e := ⟨[], rfl⟩

theorem Reaches.of_step (e : Engine) (action : Action) : e.Reaches (e.step action) :=
  ⟨[action], rfl⟩

theorem Reaches.trans (hfirst : e.Reaches middle) (hsecond : middle.Reaches later) :
    e.Reaches later := by
  obtain ⟨first, rfl⟩ := hfirst
  obtain ⟨second, rfl⟩ := hsecond
  exact ⟨first ++ second, steps_append e first second⟩

theorem progress?_cases (hprogress : e.progress? = some later) :
    e.ticker? = some later ∨ (e.ticker? = none ∧ e.closer? = some later) ∨
      e.holder? = some later := by
  cases hticker : e.ticker? <;> cases hcloser : e.closer? <;> simp_all [progress?]

theorem exists_action_of_progress? (ready : e.progress? = some later) :
    ∃ action, e.step action = later := by
  rcases progress?_cases ready with hticker | ⟨_, hcloser⟩ | hholder
  · exact ⟨.ticker, by simp [step, hticker]⟩
  · exact ⟨.closer, by simp [step, hcloser]⟩
  · exact ⟨.holder, by simp [step, hholder]⟩

theorem reaches_progress? (hprogress : e.progress? = some later) : e.Reaches later := by
  obtain ⟨action, rfl⟩ := exists_action_of_progress? hprogress
  exact .of_step e action

theorem reaches_next? {horizon : Option Nat} (hnext : e.next? horizon = some later) :
    e.Reaches later := by
  unfold next? at hnext
  split at hnext
  · next hprogress =>
      cases hnext
      exact reaches_progress? hprogress
  · split at hnext
    · split at hnext
      · cases hnext
        exact .of_step e _
      · contradiction
    · contradiction

theorem reaches_run (horizon : Option Nat) (stop : Engine → Bool) (fuel : Nat) (e : Engine) :
    e.Reaches (run horizon stop fuel e) := by
  induction fuel generalizing e with
  | zero => exact .refl e
  | succ fuel ih =>
      unfold run
      split
      · exact .refl e
      · split
        · next later hnext => exact (reaches_next? hnext).trans (ih later)
        · exact .refl e

theorem reaches_runUntil (e : Engine) (stop : Engine → Bool) : e.Reaches (e.runUntil stop) :=
  reaches_run none stop _ e

theorem reaches_settle (e : Engine) : e.Reaches e.settle :=
  reaches_run _ _ _ e

theorem reaches_advance (e : Engine) (time : Nat) : e.Reaches (e.advance time) := by
  unfold advance
  split
  · exact .refl e
  · refine (reaches_run (some (e.now + time)) (fun _ => false) (e.enough time) e).trans ?_
    generalize run _ _ _ e = passed
    refine ⟨[.wait (max passed.now (e.now + time) - passed.now)], ?_⟩
    have hnow : passed.now + (max passed.now (e.now + time) - passed.now) =
        max passed.now (e.now + time) := by omega
    simp [step, hnow]

theorem reaches_build (settings : Settings) (world : World) :
    (new settings world).Reaches (build settings world) :=
  reaches_runUntil _ _

theorem reaches_reloadNow (e : Engine) : e.Reaches e.reloadNow :=
  (Reaches.of_step e .reload).trans (reaches_runUntil _ _)

theorem reaches_join (e : Engine) : e.Reaches e.join := by
  unfold join
  split
  · exact (reaches_runUntil e _).trans (reaches_settle _)
  · exact .refl e

theorem reaches_closeNow (e : Engine) : e.Reaches e.closeNow.1 := by
  have hclose : e.Reaches e.close := .of_step e .close
  unfold closeNow
  split
  · exact hclose
  · refine hclose.trans ?_
    dsimp only
    split <;> dsimp only <;> exact reaches_runUntil _ _

end HostPolicy.Engine
