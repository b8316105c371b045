import HostPolicy.Engine.Run
import Mathlib.Data.List.Basic

/-!
# What the policy has no part in

Two engines that differ in their policy only, and of which the same is asked, stay alike in all
else. An engine with another policy takes the steps that the engine takes, and gets to where the
engine gets to, with that policy (`step_withPolicy`). So the decisions are all that a policy shows
in, and there a reversed one says the opposite.
-/

namespace HostPolicy.Engine

def withPolicy (e : Engine) (p : Policy) : Engine :=
  { e with settings := { e.settings with policy := p } }

section Step

variable (e : Engine) (p : Policy)

@[simp] theorem withPolicy_policy : (e.withPolicy p).settings.policy = p := rfl

@[simp] theorem withPolicy_patterns :
    (e.withPolicy p).settings.patterns = e.settings.patterns := rfl

@[simp] theorem withPolicy_world : (e.withPolicy p).world = e.world := rfl

@[simp] theorem withPolicy_now : (e.withPolicy p).now = e.now := rfl

@[simp] theorem withPolicy_rules : (e.withPolicy p).rules = e.rules := rfl

@[simp] theorem withPolicy_queue : (e.withPolicy p).queue = e.queue := rfl

@[simp] theorem withPolicy_cycle : (e.withPolicy p).cycle = e.cycle := rfl

@[simp] theorem withPolicy_ticker : (e.withPolicy p).ticker = e.ticker := rfl

@[simp] theorem withPolicy_closing : (e.withPolicy p).closing = e.closing := rfl

@[simp] theorem withPolicy_isClosed : (e.withPolicy p).isClosed = e.isClosed := rfl

@[simp] theorem withPolicy_due? : (e.withPolicy p).due? = e.due? := rfl

@[simp] theorem withPolicy_enough (time : Nat) : (e.withPolicy p).enough time = e.enough time := rfl

theorem reload_withPolicy : (e.withPolicy p).reload = e.reload.withPolicy p := by
  unfold reload
  rw [apply_ite (withPolicy · p)]
  rfl

theorem withdraw_withPolicy (who : Claimant) :
    (e.withPolicy p).withdraw who = (e.withdraw who).withPolicy p := by
  unfold withdraw
  rw [apply_ite (withPolicy · p)]
  rfl

theorem abandon_withPolicy (call : Nat) :
    (e.withPolicy p).abandon call = (e.abandon call).withPolicy p := by
  unfold abandon
  rw [apply_ite (withPolicy · p), withdraw_withPolicy]
  rfl

theorem close_withPolicy : (e.withPolicy p).close = e.close.withPolicy p := by
  unfold close
  rw [apply_ite (withPolicy · p), apply_ite (withPolicy · p)]
  rfl

theorem abandonClose_withPolicy : (e.withPolicy p).abandonClose = e.abandonClose.withPolicy p := by
  unfold abandonClose
  rw [withPolicy_closing]
  cases e.closing.released? <;> rfl

theorem share_withPolicy : (e.withPolicy p).share = e.share.withPolicy p := by
  unfold share
  rw [apply_ite (withPolicy · p)]
  rfl

theorem drop_withPolicy : (e.withPolicy p).drop = e.drop.withPolicy p := by
  unfold drop
  rw [apply_ite (withPolicy · p)]
  rfl

theorem leave_withPolicy : (e.withPolicy p).leave = e.leave.withPolicy p := by
  unfold leave
  rw [withPolicy_queue, withPolicy_ticker]
  cases e.queue.head? with
  | none => rfl
  | some who =>
      cases who with
      | periodic => cases e.ticker <;> rfl
      | _ => rfl

/-- What is compiled are the patterns and the rules gathered, whatever the policy. -/
theorem install_withPolicy (c : Cycle) :
    (e.withPolicy p).install c = (e.install c).withPolicy p := by
  unfold install
  rw [withPolicy_patterns]
  cases RuleSet.compile (e.settings.patterns ++ c.gathered) <;> rfl

theorem runCycle?_withPolicy (who : Claimant) :
    (e.withPolicy p).runCycle? who = (e.runCycle? who).map (withPolicy · p) := by
  unfold runCycle?
  rw [withPolicy_cycle, withPolicy_world]
  cases e.cycle with
  | none =>
      dsimp only
      rw [apply_ite (Option.map (withPolicy · p)), leave_withPolicy]
      rfl
  | some c =>
      dsimp only
      cases e.world.sources[c.next]? with
      | none =>
          dsimp only
          rw [install_withPolicy, leave_withPolicy]
          rfl
      | some source =>
          cases c.began with
          | none => rfl
          | some began =>
              dsimp only
              rw [apply_ite (Option.map (withPolicy · p))]
              rfl

theorem release?_withPolicy :
    (e.withPolicy p).release? = e.release?.map (withPolicy · p) := by
  unfold release?
  rw [withPolicy_closing]
  cases e.closing with
  | releasing next error =>
      dsimp only
      rw [apply_ite (Option.map (withPolicy · p)), leave_withPolicy]
      rfl
  | _ => rfl

theorem holder?_withPolicy : (e.withPolicy p).holder? = e.holder?.map (withPolicy · p) := by
  unfold holder?
  rw [withPolicy_queue]
  cases e.queue with
  | nil => rfl
  | cons who rest =>
      cases who with
      | closer => exact e.release?_withPolicy p
      | periodic =>
          dsimp only
          rw [apply_ite (Option.map (withPolicy · p)), runCycle?_withPolicy]
          rfl
      | build => exact e.runCycle?_withPolicy p .build
      | manual call => exact e.runCycle?_withPolicy p (.manual call)

theorem ticker?_withPolicy : (e.withPolicy p).ticker? = e.ticker?.map (withPolicy · p) := by
  unfold ticker?
  rw [withPolicy_ticker]
  cases e.ticker with
  | waiting deadline =>
      dsimp only
      rw [apply_ite (Option.map (withPolicy · p)), apply_ite (Option.map (withPolicy · p))]
      rfl
  | cycling deadline =>
      dsimp only
      rw [apply_ite (Option.map (withPolicy · p)), withdraw_withPolicy]
      rfl
  | _ => rfl

theorem closer?_withPolicy : (e.withPolicy p).closer? = e.closer?.map (withPolicy · p) := by
  unfold closer?
  dsimp only
  rw [withPolicy_ticker, apply_ite (Option.map (withPolicy · p))]
  by_cases hlost : e.ticker = .lost
  · rw [if_pos hlost, if_pos hlost]
    rfl
  · rw [if_neg hlost, if_neg hlost]
    rfl

theorem getD_map_withPolicy (result : Option Engine) :
    (result.map (withPolicy · p)).getD (e.withPolicy p) = (result.getD e).withPolicy p := by
  cases result <;> rfl

theorem step_withPolicy (action : Action) :
    (e.withPolicy p).step action = (e.step action).withPolicy p := by
  cases action with
  | reload => exact e.reload_withPolicy p
  | abandon call => exact e.abandon_withPolicy p call
  | close => exact e.close_withPolicy p
  | abandonClose => exact e.abandonClose_withPolicy p
  | share => exact e.share_withPolicy p
  | drop => exact e.drop_withPolicy p
  | change change => rfl
  | wait time => rfl
  | holder => rw [step, step, holder?_withPolicy, getD_map_withPolicy]
  | ticker => rw [step, step, ticker?_withPolicy, getD_map_withPolicy]
  | closer => rw [step, step, closer?_withPolicy, getD_map_withPolicy]

theorem progress?_withPolicy :
    (e.withPolicy p).progress? = e.progress?.map (withPolicy · p) := by
  unfold progress?
  rw [ticker?_withPolicy, closer?_withPolicy, holder?_withPolicy]
  cases e.ticker? <;> cases e.closer? <;> rfl

theorem next?_withPolicy (horizon : Option Nat) :
    (e.withPolicy p).next? horizon = (e.next? horizon).map (withPolicy · p) := by
  unfold next?
  rw [progress?_withPolicy, withPolicy_due?]
  cases e.progress? with
  | some later => rfl
  | none =>
      cases e.due? with
      | none => rfl
      | some due =>
          dsimp only [Option.map_none]
          rw [apply_ite (Option.map (withPolicy · p))]
          rfl

end Step

/-! ### An engine left to itself -/

section Run

variable (e : Engine) (p : Policy)

theorem run_withPolicy (horizon : Option Nat) {stop : Engine → Bool}
    (hstop : ∀ e : Engine, stop (e.withPolicy p) = stop e) (fuel : Nat) :
    run horizon stop fuel (e.withPolicy p) = (run horizon stop fuel e).withPolicy p := by
  induction fuel generalizing e with
  | zero => rfl
  | succ fuel ih =>
      unfold run
      rw [hstop, next?_withPolicy]
      by_cases hdone : stop e
      · rw [if_pos hdone, if_pos hdone]
      · rw [if_neg hdone, if_neg hdone]
        cases e.next? horizon with
        | none => rfl
        | some later => exact ih later

theorem runUntil_withPolicy {stop : Engine → Bool}
    (hstop : ∀ e : Engine, stop (e.withPolicy p) = stop e) :
    (e.withPolicy p).runUntil stop = (e.runUntil stop).withPolicy p :=
  e.run_withPolicy p none hstop _

theorem settle_withPolicy : (e.withPolicy p).settle = e.settle.withPolicy p :=
  e.run_withPolicy p (some e.now) (fun _ => rfl) _

theorem advance_withPolicy (time : Nat) :
    (e.withPolicy p).advance time = (e.advance time).withPolicy p := by
  have hpassed : run (some (e.now + time)) (fun _ => false) (e.enough time) (e.withPolicy p) =
      (run (some (e.now + time)) (fun _ => false) (e.enough time) e).withPolicy p :=
    e.run_withPolicy p _ (fun _ => rfl) _
  unfold advance
  rw [apply_ite (withPolicy · p), withPolicy_now, withPolicy_enough, hpassed]
  rfl

theorem build_withPolicy (settings : Settings) (world : World) :
    build { settings with policy := p } world = (build settings world).withPolicy p :=
  (new settings world).runUntil_withPolicy p fun _ => rfl

theorem reloadNow_withPolicy : (e.withPolicy p).reloadNow = e.reloadNow.withPolicy p := by
  unfold reloadNow
  rw [reload_withPolicy]
  exact e.reload.runUntil_withPolicy p fun _ => rfl

theorem join_withPolicy : (e.withPolicy p).join = e.join.withPolicy p := by
  unfold join
  rw [apply_ite (withPolicy · p), runUntil_withPolicy, settle_withPolicy]
  · rfl
  · exact fun _ => rfl

theorem closeNow_withPolicy :
    (e.withPolicy p).closeNow = (e.closeNow.1.withPolicy p, e.closeNow.2) := by
  unfold closeNow
  rw [withPolicy_isClosed, close_withPolicy]
  by_cases closed : e.isClosed
  · rw [if_pos closed, if_pos closed]
  · rw [if_neg closed, if_neg closed]
    dsimp only
    rw [runUntil_withPolicy]
    · generalize e.close.runUntil _ = later
      rw [withPolicy_closing]
      cases later.closing <;> rfl
    · exact fun _ => rfl

end Run

/-! ### Whatever is asked of it -/

/-- One step, of a caller or of the engine itself, or something that a caller waits for while the
engine goes on by itself. -/
inductive Request where
  | step (action : Action)
  /-- A reload in the background. -/
  | spawn
  | reload
  | join
  | advance (time : Nat)
  | close
  deriving DecidableEq, Repr

def serve (e : Engine) : Request → Engine
  | .step action => e.step action
  | .spawn => e.reload.settle
  | .reload => e.reloadNow
  | .join => e.join
  | .advance time => e.advance time
  | .close => e.closeNow.1

def serveAll (e : Engine) (requests : List Request) : Engine :=
  requests.foldl serve e

theorem serve_withPolicy (e : Engine) (p : Policy) (request : Request) :
    (e.withPolicy p).serve request = (e.serve request).withPolicy p := by
  cases request with
  | step action => exact e.step_withPolicy p action
  | spawn => rw [serve, serve, reload_withPolicy, settle_withPolicy]
  | reload => exact e.reloadNow_withPolicy p
  | join => exact e.join_withPolicy p
  | advance time => exact e.advance_withPolicy p time
  | close => rw [serve, serve, closeNow_withPolicy]

theorem serveAll_withPolicy (e : Engine) (p : Policy) (requests : List Request) :
    (e.withPolicy p).serveAll requests = (e.serveAll requests).withPolicy p := by
  induction requests generalizing e with
  | nil => rfl
  | cons request requests ih =>
      calc (e.withPolicy p).serveAll (request :: requests)
          = ((e.serve request).withPolicy p).serveAll requests :=
            congrArg (serveAll · requests) (e.serve_withPolicy p request)
        _ = ((e.serve request).serveAll requests).withPolicy p := ih (e.serve request)

theorem decide_empty (e : Engine) : e.decide "" = false := rfl

/-- The rules say of an address what they say, and a policy at most turns it around. -/
theorem decide_withPolicy (e : Engine) (p : Policy) {address : String} (hne : address ≠ "") :
    (e.withPolicy p).decide address =
      (e.decide address ^^ (p.reversed != e.settings.policy.reversed)) := by
  simp only [decide, Policy.decide, if_neg hne, withPolicy_rules, withPolicy_policy]
  cases e.rules.accepts (Endpoint.host address) <;> cases p.reversed <;>
    cases e.settings.policy.reversed <;> rfl

/-- Engines of any policies with the same rules and sources, of which the same is asked, have the
same rules, versions and journals throughout, and what is asked comes to the same. Their decisions
agree if both are reversed or neither is, and are opposite if one is, except that both refuse the
empty address. -/
theorem policies_alike (patterns : List String) (loadTimeout : Nat) (period : Option Nat)
    (world : World) (p q : Policy) (requests : List Request) :
    ∀ start ∈ [new, build],
      let e := (start ⟨p, patterns, loadTimeout, period⟩ world).serveAll requests
      let f := (start ⟨q, patterns, loadTimeout, period⟩ world).serveAll requests
      e.rules = f.rules ∧ e.version = f.version ∧ e.isClosed = f.isClosed ∧
      e.world = f.world ∧ e.now = f.now ∧ e.journal = f.journal ∧
      e.reloadNow.rules.counts = f.reloadNow.rules.counts ∧ e.closeNow.2 = f.closeNow.2 ∧
      (∀ address, address ≠ "" →
        (p.reversed = q.reversed → e.decide address = f.decide address) ∧
        (p.reversed ≠ q.reversed → e.decide address = !f.decide address)) ∧
      e.decide "" = false ∧ f.decide "" = false := by
  intro start hstart e f
  have hmade : ∀ r, start ⟨r, patterns, loadTimeout, period⟩ world =
      (start ⟨q, patterns, loadTimeout, period⟩ world).withPolicy r := by
    intro r
    rcases List.mem_pair.mp hstart with rfl | rfl
    · rfl
    · exact build_withPolicy r ⟨q, patterns, loadTimeout, period⟩ world
  have hserved : ∀ r, (start ⟨r, patterns, loadTimeout, period⟩ world).serveAll requests =
      f.withPolicy r := by
    intro r
    rw [hmade]
    exact serveAll_withPolicy _ r requests
  have hpolicy : f.settings.policy = q :=
    congrArg (fun served : Engine => served.settings.policy) (hserved q)
  have hother : e = f.withPolicy p := hserved p
  rw [hother]
  refine ⟨rfl, rfl, rfl, rfl, rfl, rfl, ?_, ?_, ?_, decide_empty _, decide_empty _⟩
  · rw [reloadNow_withPolicy]
    rfl
  · rw [closeNow_withPolicy]
  · intro address hne
    rw [f.decide_withPolicy p hne, hpolicy]
    constructor
    · intro same
      rw [same, bne_self_eq_false, Bool.xor_false]
    · intro differ
      rw [bne_iff_ne.mpr differ, Bool.xor_true]

/-- An admission policy and a reversed bypass policy: rules that a source has by the time of a
reload, which goes on in the background while the engine is closed. -/
theorem policies_alike_reloaded :
    let sources : List Source :=
      [.scripted ⟨"slow", false, 7, RuleText.ofRules ["a.org"], none, some .closed, 0, false⟩]
    let requests : List Request := [.reload, .spawn, .advance 3, .step .close, .join]
    let e := (build ⟨⟨.admission, false⟩, ["b.org"], 10, none⟩ ⟨.empty, [], sources⟩).serveAll
      requests
    let f := (build ⟨⟨.bypass, true⟩, ["b.org"], 10, none⟩ ⟨.empty, [], sources⟩).serveAll requests
    e.version = f.version ∧ e.closeNow.2 = f.closeNow.2 ∧
      e.decide "a.org:443" = !f.decide "a.org:443" ∧ f.decide "" = false := by
  intro sources requests e f
  obtain ⟨_, hversion, _, _, _, _, _, hclose, hdecide, _, hempty⟩ :=
    policies_alike ["b.org"] 10 none ⟨.empty, [], sources⟩ ⟨.admission, false⟩ ⟨.bypass, true⟩
      requests build (by simp)
  exact ⟨hversion, hclose, (hdecide "a.org:443" (by decide)).2 (by decide), hempty⟩

end HostPolicy.Engine
