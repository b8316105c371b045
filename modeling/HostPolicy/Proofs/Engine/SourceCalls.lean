import HostPolicy.Proofs.Engine.Conducted

/-!
# What an engine does to its sources

The life of a source as the engine lets it have it, for every run: at most one load at a time over
all sources, each source closed once by a call to close that comes to its end and never without such
a call, no load when a source is closed nor after it, and none once nobody holds the engine.
-/

namespace HostPolicy.Engine

open Journal

variable {e later : Engine}

/-! ### Calls to close -/

structure CloseTold (e : Engine) : Prop where
  called : e.closing ≠ .notCalled → ∃ time, ⟨time, .closeCalled⟩ ∈ e.journal
  returned : ∀ time error, ⟨time, .closeReturned error⟩ ∈ e.journal → e.closing ≠ .notCalled
  abandoned : ∀ next, e.closing = .abandoned next → ∃ time, ⟨time, .closeAbandoned⟩ ∈ e.journal

theorem CloseTold.move (h : CloseTold e) (hmove : Move e later) : CloseTold later := by
  obtain ⟨told, hjournal, htold⟩ := hmove.told
  refine ⟨?_, ?_, ?_⟩
  · intro closed
    by_cases opened : e.closing = .notCalled
    · exact ⟨e.now, hmove.closeCalled_told opened closed⟩
    · obtain ⟨time, hmem⟩ := h.called opened
      exact ⟨time, by rw [hjournal]; exact List.mem_append_right told hmem⟩
  · intro time error hmem
    rw [hjournal] at hmem
    apply hmove.closed
    rcases List.mem_append.mp hmem with hnew | hold
    · exact (htold _ hnew).2
    · exact h.returned time error hold
  · intro next habandoned
    rcases hmove.closeAbandoned_told habandoned with hformer | hnow
    · obtain ⟨time, hmem⟩ := h.abandoned next hformer
      exact ⟨time, by rw [hjournal]; exact List.mem_append_right told hmem⟩
    · exact ⟨e.now, hnow⟩

theorem stage_closed (horder : Orderly e) : e.stage.closed = e.released := by
  cases hcycle : e.cycle with
  | none => rw [stage_of_idle hcycle]; rfl
  | some c =>
      rw [horder.unreleased (by rw [hcycle]; rfl)]
      cases hbegan : c.began with
      | none => rw [stage_of_asking hcycle hbegan]; rfl
      | some began => rw [stage_of_loading hcycle hbegan]; rfl

theorem isAlive_eq_false_iff (e : Engine) : e.isAlive = false ↔
    e.owners = 0 ∧ (∀ who ∈ e.queue, who.isCall = false) ∧ e.closing ≠ .stopping := by
  simp [isAlive, and_assoc]

theorem isShutDown_of_dead (dead : e.isAlive = false) : e.isShutDown = true := by
  simp [isShutDown, dead]

/-- Who goes on with a cycle keeps the engine alive, or is the ticker of one that is. -/
theorem HasTurn.isAlive {who : Claimant} (turn : e.HasTurn who) : e.isAlive = true := by
  by_contra hnot
  have dead : e.isAlive = false := Bool.eq_false_iff.mpr hnot
  have hmem : who ∈ e.queue := List.mem_of_mem_head? (by simp [turn.head])
  have hcall := ((e.isAlive_eq_false_iff).mp dead).2.1 who hmem
  cases who with
  | periodic =>
      have hrunning := turn.not_shutDown rfl
      rw [isShutDown_of_dead dead] at hrunning
      contradiction
  | build => contradiction
  | manual call => contradiction
  | closer => contradiction

theorem Move.dead (hmove : Move e later) (dead : e.isAlive = false) : later.isAlive = false := by
  obtain ⟨hnone, hcalls, hnotStopping⟩ := (e.isAlive_eq_false_iff).mp dead
  have noTurn : ∀ who, ¬e.HasTurn who := by
    intro who turn
    rw [turn.isAlive] at dead
    contradiction
  have noCloser : e.queue.head? ≠ some .closer := by
    intro hhead
    have hcall := hcalls .closer (List.mem_of_mem_head? (by simp [hhead]))
    contradiction
  cases hmove with
  | stay | changed | waited | tickerStopped => exact dead
  | reloadCalled held | closeCalled held | closeRepeated held | shared held | dropped held =>
      exact absurd hnone held
  | reloadAbandoned call queued => exact absurd (hcalls _ queued) (by simp [Claimant.isCall])
  | cycleBegan who turn | turnedAway who turn | loadBegan who turn | loadEnded who turn
  | installed who turn | notCompiled who turn => exact absurd turn (noTurn who)
  | sourceClosed head | engineClosed head => exact absurd head noCloser
  | ticked deadline waiting running =>
      rw [isShutDown_of_dead dead] at running
      contradiction
  | cycleGivenUp deadline cycling shutDown =>
      refine (isAlive_eq_false_iff _).mpr ⟨(e.withdraw_owners .periodic).trans hnone, ?_, ?_⟩
      · intro who hmem
        have hfiltered : who ∈ e.queue.filter (· != .periodic) := e.withdraw_queue .periodic ▸ hmem
        exact hcalls who (List.mem_filter.mp hfiltered).1
      · exact fun stopping => hnotStopping ((e.withdraw_closing .periodic).symm.trans stopping)
  | closerQueued stopping => exact absurd stopping hnotStopping
  | closeAbandoned next =>
      refine (isAlive_eq_false_iff _).mpr ⟨hnone, ?_, Closing.noConfusion⟩
      exact fun who hmem => hcalls who (List.mem_filter.mp hmem).1

end HostPolicy.Engine
