import HostPolicy.Config.Reader
import HostPolicy.Proofs.Engine.Pace
import HostPolicy.Proofs.Engine.SourceCalls

/-!
# How long the ticker goes on

The ticker of an engine that is neither closed nor let go of ends in one way only: its first
deadline, a period after the engine was built, may be later than any clock can tell. No deadline
after the first can end it.
-/

namespace HostPolicy

/-- Of an engine built at `built`: the ticker goes on, unless its first deadline was none. -/
def Ticker.LivesFrom (period built : Nat) (t : Ticker) : Prop :=
  if built + period < clockEnd then t.hasEnded = false else t = lost

theorem Ticker.livesFrom_start (period now : Nat) :
    (start (some period) now).LivesFrom period now := by
  unfold LivesFrom start
  dsimp only
  by_cases hlt : now + period < clockEnd
  · rw [if_pos hlt, if_pos hlt]
    rfl
  · rw [if_neg hlt, if_neg hlt]

/-- A ticker that is not lost may change between waiting and its cycle. -/
theorem Ticker.LivesFrom.of_running {period built : Nat} {t other : Ticker}
    (h : t.LivesFrom period built) (running : t.hasEnded = false)
    (still : other.hasEnded = false) : other.LivesFrom period built := by
  unfold LivesFrom at h ⊢
  by_cases hlt : built + period < clockEnd
  · rw [if_pos hlt]
    exact still
  · rw [if_neg hlt] at h
    rw [h] at running
    contradiction

namespace Engine

variable {e later : Engine} {period : Nat}

/-- Once the ticker has to stop, it has to from then on. -/
theorem Move.shutDown (hmove : Move e later) (shutDown : e.isShutDown = true) :
    later.isShutDown = true := by
  rw [isShutDown, Bool.or_eq_true, Bool.not_eq_true'] at shutDown ⊢
  rcases shutDown with closed | dead
  · left
    rw [isClosed_iff] at closed ⊢
    exact hmove.closed closed
  · exact Or.inr (hmove.dead dead)

/-- As long as the ticker need not stop, it goes on from when the engine was built. -/
def TickerLives (period : Nat) (e : Engine) : Prop :=
  ∀ built rules, ⟨built, .started rules⟩ ∈ e.journal →
    built ≤ e.now ∧ (e.isShutDown = false → e.ticker.LivesFrom period built)

theorem TickerLives.congr (h : TickerLives period e) (hmove : Move e later)
    (hstarted : ∀ built rules, ⟨built, .started rules⟩ ∈ later.journal →
      ⟨built, .started rules⟩ ∈ e.journal)
    (hticker : ∀ built, e.isShutDown = false → e.ticker.LivesFrom period built →
      later.ticker.LivesFrom period built) : TickerLives period later := by
  intro built rules hmem
  obtain ⟨hbuilt, hlives⟩ := h built rules (hstarted built rules hmem)
  refine ⟨Nat.le_trans hbuilt hmove.now_le, ?_⟩
  intro running
  have before : e.isShutDown = false := by
    by_contra shutDown
    rw [hmove.shutDown (Bool.not_eq_false _ ▸ shutDown)] at running
    contradiction
  exact hticker built before (hlives before)

theorem Unpaced.started (untold : Unpaced e later) {built rules : Nat}
    (hmem : ⟨built, .started rules⟩ ∈ later.journal) : ⟨built, .started rules⟩ ∈ e.journal := by
  obtain ⟨told, hjournal, htold⟩ := untold
  rw [hjournal] at hmem
  rcases List.mem_append.mp hmem with hnew | hold
  · have hquiet := htold _ hnew
    contradiction
  · exact hold

theorem TickerLives.move (h : TickerLives period e) (horder : Orderly e) (hpaced : Paced period e)
    (hperiod : e.settings.period = some period) (hmove : Move e later) :
    TickerLives period later := by
  cases hmove.beat horder with
  | aside untold hbuild hticker hflying =>
      refine h.congr hmove (fun _ _ => untold.started) ?_
      intro built _ hlives
      rwa [hticker]
  | started middle rules untold head hjournal hbuild hidle hticker =>
      -- Nothing was started before, so that this is the moment from which the ticker counts.
      have hnone := hpaced.building (List.mem_of_mem_head? (by simp [head]))
      intro built others hmem
      rw [hjournal] at hmem
      rcases List.mem_cons.mp hmem with hnow | hold
      · cases hnow
        refine ⟨hmove.now_le, fun _ => ?_⟩
        rw [hticker, hperiod]
        exact Ticker.livesFrom_start period e.now
      · have hquiet := hnone _ (untold.started hold)
        contradiction
  | ticked deadline waiting due untold hbuild hticker hidle =>
      refine h.congr hmove (fun _ _ => untold.started) ?_
      intro built _ hlives
      exact hlives.of_running (by rw [waiting]; rfl) (by rw [hticker]; rfl)
  | began queued hidle hjournal hqueue hticker hflying =>
      refine h.congr hmove ?_ ?_
      · intro built rules hmem
        rw [hjournal] at hmem
        exact (List.mem_cons.mp hmem).resolve_left (by simp)
      · intro built _ hlives
        rwa [hticker]
  | ended deadline cycling flying untold hbuild hticker =>
      refine h.congr hmove (fun _ _ => untold.started) ?_
      intro built _ hlives
      exact hlives.of_running (by rw [cycling]; rfl) (by rw [hticker]; rfl)
  | stopped shutDown untold hbuild hticker =>
      refine h.congr hmove (fun _ _ => untold.started) ?_
      intro built running
      rw [shutDown] at running
      contradiction

end Engine

namespace Config

end Config

end HostPolicy
