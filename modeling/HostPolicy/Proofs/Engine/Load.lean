import HostPolicy.Proofs.Engine.Loading
import HostPolicy.Proofs.Engine.Order
import HostPolicy.Proofs.Engine.Reach

/-!
# A load isolates bad sources

An engine left to itself comes to the end of a load, as no source holds it up for longer than the
timeout (`load_completes`). By then every source that answered in time has added its rules and every
other one has been reported, whatever the sources around it did.
-/

namespace HostPolicy

/-- How many steps a ticker may still take before the next cycle that it asks for is over. -/
def Ticker.pending : Ticker → Nat
  | waiting _ => 2
  | cycling _ => 1
  | _ => 0

theorem Ticker.pending_le (t : Ticker) : t.pending ≤ 2 := by
  unfold pending
  split <;> omega

/-- How many steps the call that closes takes before it queues up. -/
def Closing.pending : Closing → Nat
  | stopping => 1
  | _ => 0

/-- What a source answers does not depend on the sources around it. -/
theorem World.answer_congr {w other : World} (hdirectory : w.directory = other.directory)
    (hstores : w.stores = other.stores) : w.answer = other.answer := by
  funext source
  cases source <;> simp [answer, store, hdirectory, hstores]

namespace Engine

def isLoaded (e : Engine) : Bool :=
  e.cycle.any fun c => e.world.sources.length ≤ c.next

/-! ### What is left to do -/

def loadsLeft (e : Engine) : Nat :=
  match e.cycle with
  | none => 0
  | some c => 2 * (e.world.sources.length - c.next) - if c.began.isSome then 1 else 0

def workLeft (e : Engine) : Nat :=
  e.loadsLeft + e.ticker.pending + e.closing.pending

/-- An engine that has to wait is ready for a step thereafter. -/
def rank (e : Engine) : Nat :=
  2 * e.workLeft + if e.progress?.isSome then 0 else 1

theorem loadsLeft_le (e : Engine) : e.loadsLeft ≤ 2 * e.world.sources.length := by
  unfold loadsLeft
  split <;> omega

theorem rank_lt_enough (e : Engine) : e.rank < e.enough 0 := by
  have hloads := e.loadsLeft_le
  have hticker := e.ticker.pending_le
  have hclosing : e.closing.pending ≤ 1 := by
    unfold Closing.pending
    split <;> omega
  calc e.rank < 4 * (3 * e.world.sources.length + 8) := by
        unfold rank workLeft
        split <;> omega
    _ ≤ e.enough 0 := Nat.mul_le_mul_right _ (Nat.le_add_left 4 _)

/-! ### Steps of the engine itself in a load -/

variable {e later : Engine} {who : Claimant} {c : Cycle}

/-- A step towards the end of a load. -/
structure Onward (who : Claimant) (e later : Engine) : Prop where
  steady : Steady e later
  turn : later.HasTurn who
  less : later.rank < e.rank

theorem Steady.of_same (running : later.cycle.isSome) (hreplies : later.replies = e.replies)
    (hnow : later.now = e.now) : Steady e later := by
  refine ⟨running, hreplies, ?_⟩
  intro hlater
  rw [hnow] at hlater
  exact absurd hlater (Nat.lt_irrefl _)

/-- A step that is ready takes no time, and it counts for two as a wait may follow. -/
theorem Onward.of_ready (ready : e.progress? = some later) (running : later.cycle.isSome)
    (hreplies : later.replies = e.replies) (hnow : later.now = e.now) (turn : later.HasTurn who)
    (hless : later.workLeft < e.workLeft) : Onward who e later := by
  refine ⟨.of_same running hreplies hnow, turn, ?_⟩
  unfold rank
  rw [ready]
  split <;> simp <;> omega

theorem workLeft_lt_of_loadsLeft_lt (hloads : later.loadsLeft < e.loadsLeft)
    (hticker : later.ticker = e.ticker) (hclosing : later.closing = e.closing) :
    later.workLeft < e.workLeft := by
  unfold workLeft
  rw [hticker, hclosing]
  omega

theorem HasTurn.congr (turn : e.HasTurn who) (hhead : later.queue.head? = e.queue.head?)
    (hshutDown : later.isShutDown = e.isShutDown) : later.HasTurn who :=
  ⟨hhead.trans turn.head, turn.ne_closer, fun h => hshutDown.trans (turn.not_shutDown h)⟩

theorem HasTurn.of_ne_periodic (turn : e.HasTurn who) (hne : who ≠ .periodic)
    (hhead : later.queue.head? = some who) : later.HasTurn who :=
  ⟨hhead, turn.ne_closer, fun h => absurd h hne⟩

theorem HasTurn.ne_periodic (turn : e.HasTurn who) (shutDown : e.isShutDown = true) :
    who ≠ .periodic := by
  intro hperiodic
  rw [turn.not_shutDown hperiodic] at shutDown
  contradiction

theorem HasTurn.holder? (turn : e.HasTurn who) : e.holder? = e.runCycle? who := by
  obtain ⟨rest, hqueue⟩ := List.head?_eq_some_iff.mp turn.head
  cases who with
  | closer => exact absurd rfl turn.ne_closer
  | periodic => simp [Engine.holder?, hqueue, turn.not_shutDown rfl]
  | build | manual => simp [Engine.holder?, hqueue]

theorem isShutDown_tick (e : Engine) (deadline : Nat) :
    (e.tick deadline).isShutDown = e.isShutDown := by
  have hcalls : (e.tick deadline).queue.any Claimant.isCall = e.queue.any Claimant.isCall := by
    simp [tick, enqueue, record, Claimant.isCall]
  rw [isShutDown, isAlive, hcalls]
  rfl

theorem onward_ticker? (turn : e.HasTurn who) (running : e.cycle.isSome)
    (hticker : e.ticker? = some later) : Onward who e later := by
  have ready : e.progress? = some later := by simp [progress?, hticker]
  unfold ticker? at hticker
  split at hticker
  · next deadline waiting =>
      split at hticker
      · cases hticker
        refine .of_ready ready running rfl rfl (turn.congr rfl rfl) ?_
        change e.loadsLeft + 0 + e.closing.pending < e.workLeft
        simp [workLeft, waiting, Ticker.pending]
      · split at hticker
        · cases hticker
          refine .of_ready ready running rfl rfl (turn.congr ?_ ?_) ?_
          · simp [tick, enqueue, record, turn.head]
          · exact e.isShutDown_tick deadline
          · change e.loadsLeft + 1 + e.closing.pending < e.workLeft
            simp [workLeft, waiting, Ticker.pending]
        · contradiction
  · next deadline cycling =>
      split at hticker
      · next shutDown =>
          -- The ticker gives up its own cycle, which is not the one that is running.
          cases hticker
          have hne := turn.ne_periodic shutDown
          rcases e.withdraw_eq .periodic with ⟨hhead, _, _⟩ | ⟨_, heq⟩
          · exact absurd (Option.some.inj (turn.head.symm.trans hhead)) hne
          · rw [heq] at ready ⊢
            refine .of_ready ready running rfl rfl (turn.of_ne_periodic hne ?_) ?_
            · exact Orderly.head?_filter turn.head hne
            · change e.loadsLeft + 0 + e.closing.pending < e.workLeft
              simp [workLeft, cycling, Ticker.pending]
      · contradiction
  · contradiction

theorem onward_closer? (turn : e.HasTurn who) (running : e.cycle.isSome)
    (hticker : e.ticker? = none) (hcloser : e.closer? = some later) : Onward who e later := by
  have ready : e.progress? = some later := by simp [progress?, hticker, hcloser]
  unfold closer? at hcloser
  split at hcloser
  · next stopping =>
      have shutDown : e.isShutDown = true := by simp [isShutDown, isClosed, stopping.1]
      cases hcloser
      refine .of_ready ready ?_ ?_ ?_ (turn.of_ne_periodic (turn.ne_periodic shutDown) ?_) ?_
      · split <;> exact running
      · split <;> rfl
      · split <;> rfl
      · split <;> simp [enqueue, record, turn.head]
      · have hless : e.loadsLeft + e.ticker.pending + 0 < e.workLeft := by
          simp [workLeft, stopping.1, Closing.pending]
        split <;> exact hless
  · contradiction

theorem reply_congr (hsettings : later.settings = e.settings)
    (hdirectory : later.world.directory = e.world.directory)
    (hstores : later.world.stores = e.world.stores) : later.reply = e.reply := by
  have hanswer : later.world.answer = e.world.answer := World.answer_congr hdirectory hstores
  funext source
  simp only [reply, patience, answer, hsettings, hanswer]

theorem reply_begun (e : Engine) (source : Source) : e.reply source.begun = e.reply source := by
  cases source <;> rfl

theorem replies_beginLoad (e : Engine) (c : Cycle) : (e.beginLoad c).replies = e.replies := by
  have hreply : (e.beginLoad c).reply = e.reply := reply_congr rfl rfl rfl
  unfold replies
  rw [hreply]
  apply List.ext_getElem?
  intro i
  simp only [List.getElem?_map, beginLoad, record, World.beginLoad, List.getElem?_modify]
  cases e.world.sources[i]? with
  | none => rfl
  | some source =>
      by_cases hasked : c.next = i
      · simp [hasked, reply_begun]
      · simp [hasked]

theorem onward_holder? (turn : e.HasTurn who) (running : e.cycle = some c)
    (unfinished : c.next < e.world.sources.length) (ready : e.progress? = some later)
    (hholder : e.holder? = some later) : Onward who e later := by
  rw [turn.holder?] at hholder
  simp only [runCycle?, running] at hholder
  split at hholder
  · next missing => exact absurd unfinished (Nat.not_lt.mpr (List.getElem?_eq_none_iff.mp missing))
  · next source asked between =>
      cases hholder
      have hless : (e.beginLoad c).loadsLeft < e.loadsLeft := by
        simp [loadsLeft, beginLoad, record, running, between]
        omega
      exact .of_ready ready rfl (e.replies_beginLoad c) rfl (turn.congr rfl rfl)
        (workLeft_lt_of_loadsLeft_lt hless rfl rfl)
  · next source began asked loading =>
      split at hholder
      · cases hholder
        have hless : (e.endLoad c source).loadsLeft < e.loadsLeft := by
          simp [loadsLeft, endLoad, record, running, loading]
          omega
        exact .of_ready ready rfl rfl rfl (turn.congr rfl rfl)
          (workLeft_lt_of_loadsLeft_lt hless rfl rfl)
      · contradiction

/-! ### An engine left to itself -/

theorem onward_progress? (turn : e.HasTurn who) (running : e.cycle = some c)
    (unfinished : c.next < e.world.sources.length) (ready : e.progress? = some later) :
    Onward who e later := by
  have hsome : e.cycle.isSome := by simp [running]
  rcases progress?_cases ready with hticker | ⟨hticker, hcloser⟩ | hholder
  · exact onward_ticker? turn hsome hticker
  · exact onward_closer? turn hsome hticker hcloser
  · exact onward_holder? turn running unfinished ready hholder

/-- An engine that has to wait in a load waits for the end of it or for a tick. -/
theorem waits_of_progress?_none (turn : e.HasTurn who) (running : e.cycle = some c)
    (stuck : e.progress? = none) :
    (∃ due, e.loadDue? = some due ∧ e.now < due) ∧ ∀ due, e.tickDue? = some due → e.now < due := by
  simp only [progress?, Option.orElse_eq_orElse, Option.orElse_eq_or,
    Option.or_eq_none_iff] at stuck
  obtain ⟨hticker, _, hholder⟩ := stuck
  constructor
  · rw [turn.holder?] at hholder
    simp only [runCycle?, running] at hholder
    split at hholder
    · contradiction
    · contradiction
    · next source began asked loading =>
        split at hholder
        · contradiction
        · next early =>
            exact ⟨_, (loadDue?_eq_some_iff running).mpr ⟨began, source, loading, asked, rfl⟩,
              Nat.lt_of_not_le early⟩
  · intro due hdue
    unfold tickDue? at hdue
    split at hdue
    · next deadline waiting =>
        cases hdue
        simp only [ticker?, waiting] at hticker
        split at hticker
        · contradiction
        · split at hticker
          · contradiction
          · next early => exact Nat.lt_of_not_le early
    · contradiction

theorem due?_of_loadDue? {loadDue : Nat} (hload : e.loadDue? = some loadDue) :
    ∃ due, e.due? = some due ∧ due ≤ loadDue ∧ (due = loadDue ∨ e.tickDue? = some due) := by
  unfold due?
  rw [hload]
  cases htick : e.tickDue? with
  | none => exact ⟨loadDue, rfl, Nat.le_refl _, Or.inl rfl⟩
  | some tickDue =>
      refine ⟨min loadDue tickDue, rfl, Nat.min_le_left _ _, ?_⟩
      rcases Nat.le_total loadDue tickDue with hle | hle
      · exact Or.inl (Nat.min_eq_left hle)
      · exact Or.inr (by rw [Nat.min_eq_right hle])

/-- Where nothing is ready time passes until something is, and no load goes on for longer. -/
theorem onward_wait (turn : e.HasTurn who) (running : e.cycle = some c)
    (stuck : e.progress? = none) :
    ∃ time, e.next? none = some (e.step (.wait time)) ∧ Onward who e (e.step (.wait time)) := by
  obtain ⟨⟨loadDue, hload, hbefore⟩, htick⟩ := waits_of_progress?_none turn running stuck
  obtain ⟨due, hdue, hle, hwhich⟩ := due?_of_loadDue? hload
  have hlater : e.now < due := by
    rcases hwhich with rfl | htickDue
    · exact hbefore
    · exact htick due htickDue
  have hnow : (e.step (.wait (due - e.now))).now = due := by
    change e.now + (due - e.now) = due
    omega
  have hturn : (e.step (.wait (due - e.now))).HasTurn who := turn.congr rfl rfl
  refine ⟨due - e.now, by simp [next?, stuck, hdue], ?_, hturn, ?_⟩
  · refine ⟨by simp [step, running], rfl, fun _ => ⟨loadDue, hload, ?_⟩⟩
    rw [hnow]
    exact hle
  · -- Were nothing ready after the wait, what was due would be due later still.
    have hready : (e.step (.wait (due - e.now))).progress? ≠ none := by
      intro hstuck
      obtain ⟨⟨other, hother, hlt⟩, hticks⟩ := waits_of_progress?_none hturn running hstuck
      rw [hnow] at hlt hticks
      rcases hwhich with rfl | htickDue
      · obtain rfl : other = due := Option.some.inj (hother.symm.trans hload)
        exact Nat.lt_irrefl _ hlt
      · exact Nat.lt_irrefl _ (hticks due htickDue)
    have hwork : (e.step (.wait (due - e.now))).workLeft = e.workLeft := rfl
    unfold rank
    rw [hwork, stuck, if_pos (Option.isSome_iff_ne_none.mpr hready)]
    simp

theorem goesOn (turn : e.HasTurn who) (running : e.cycle = some c)
    (unfinished : c.next < e.world.sources.length) :
    ∃ action, e.next? none = some (e.step action) ∧ Onward who e (e.step action) := by
  cases hprogress : e.progress? with
  | some later =>
      obtain ⟨action, rfl⟩ := exists_action_of_progress? hprogress
      exact ⟨action, by simp [next?, hprogress],
        onward_progress? turn running unfinished hprogress⟩
  | none =>
      obtain ⟨time, hnext, onward⟩ := onward_wait turn running hprogress
      exact ⟨.wait time, hnext, onward⟩

/-- An engine left to itself asks all sources, and loses no time. -/
theorem load_completes {fuel : Nat} (turn : e.HasTurn who) (running : e.cycle.isSome)
    (hfuel : e.rank < fuel) :
    ∃ actions, e.Undisturbed actions ∧ e.steps actions = run none isLoaded fuel e ∧
      (run none isLoaded fuel e).isLoaded := by
  -- Every step lowers the rank, so that the rest of the fuel exceeds it again.
  induction fuel generalizing e with
  | zero => contradiction
  | succ fuel ih =>
      obtain ⟨c, hcycle⟩ := Option.isSome_iff_exists.mp running
      unfold run
      by_cases hloaded : e.isLoaded
      · rw [if_pos hloaded]
        exact ⟨[], trivial, rfl, hloaded⟩
      · have unfinished : c.next < e.world.sources.length := by
          simpa [isLoaded, hcycle] using hloaded
        obtain ⟨action, hnext, onward⟩ := goesOn turn hcycle unfinished
        rw [if_neg hloaded, hnext]
        obtain ⟨actions, undisturbed, hsteps, hend⟩ := ih onward.turn onward.steady.running
          (Nat.lt_of_lt_of_le onward.less (Nat.le_of_lt_succ hfuel))
        exact ⟨action :: actions, ⟨onward.steady, undisturbed⟩, hsteps, hend⟩

/-! ### What a load comes to -/

/-- What a source answers if it does so within the time for a load. -/
def heard? (e : Engine) (source : Source) : Option (Except SourceError (List UInt8)) :=
  if source.delay.any (· ≤ e.settings.loadTimeout) then some (e.world.answer source) else none

def contribution (e : Engine) (source : Source) : List String :=
  match e.heard? source with
  | some (.ok octets) => RuleText.rules octets
  | _ => []

def warning? (e : Engine) (source : Source) : Option LogRecord :=
  match e.heard? source with
  | some (.ok _) => none
  | some (.error error) => some (e.loadFailure source.name error)
  | none =>
    some (e.loadFailure source.name (.timeout source.name (.ofMillis e.settings.loadTimeout)))

/-- What comes of a load: an engine left to itself gets to its end, and there, as at the end of any
other run in which the sources stay as they are and no time is lost, these rules are gathered, these
warnings given, and this time has passed. -/
structure Loads (e : Engine) (rules : List String) (warnings : List LogRecord) (time : Nat) :
    Prop where
  completes : (e.runUntil isLoaded).isLoaded ∧
    ∃ actions, e.Undisturbed actions ∧ e.steps actions = e.runUntil isLoaded
  outcome : ∀ actions, e.Undisturbed actions → (e.steps actions).isLoaded →
    (e.steps actions).cycle.map Cycle.gathered = some rules ∧
    ((e.steps actions).recordsSince e.journal.length).filter isLoadFailure = warnings ∧
    (e.steps actions).now = e.now + time

section Outcome

variable (e) (source : Source)

theorem answer_eq_heard? :
    e.answer source = (e.heard? source).getD
      (.error (.timeout source.name (.ofMillis e.settings.loadTimeout))) := by
  unfold answer heard?
  split <;> rfl

theorem rulesOf_answer : rulesOf (e.answer source) = e.contribution source := by
  rw [answer_eq_heard?]
  unfold contribution
  split
  · next octets hheard => rw [hheard]; rfl
  · next hnot =>
      cases hheard : e.heard? source with
      | none => rfl
      | some answer =>
          cases answer with
          | ok octets => exact absurd hheard (hnot octets)
          | error error => rfl

theorem complaint?_reply : e.complaint? (e.reply source) = e.warning? source := by
  unfold complaint? warning? reply
  dsimp only
  rw [answer_eq_heard?]
  cases hheard : e.heard? source with
  | none => rfl
  | some answer => cases answer <;> rfl

variable {e source}

theorem heard?_congr (hsettings : later.settings = e.settings)
    (hdirectory : later.world.directory = e.world.directory)
    (hstores : later.world.stores = e.world.stores) : later.heard? = e.heard? := by
  have hanswer : later.world.answer = e.world.answer := World.answer_congr hdirectory hstores
  funext source
  simp only [heard?, hsettings, hanswer]

theorem contribution_eq_nil (bad : ∀ octets, e.heard? source ≠ some (.ok octets)) :
    e.contribution source = [] := by
  unfold contribution
  split
  · next octets hheard => exact absurd hheard (bad octets)
  · rfl

theorem exists_warning (bad : ∀ octets, e.heard? source ≠ some (.ok octets)) :
    ∃ warning, e.warning? source = some warning := by
  unfold warning?
  split
  · next octets hheard => exact absurd hheard (bad octets)
  · exact ⟨_, rfl⟩
  · exact ⟨_, rfl⟩

end Outcome

theorem Loading.loaded {start : Engine} (h : Loading start e c) (loaded : e.isLoaded) :
    c.gathered = start.rulesOfFirst start.replies.length ∧
      e.now = start.now + start.timeOfFirst start.replies.length ∧
      (e.recordsSince start.journal.length).filter isLoadFailure =
        start.complaintsOfFirst start.replies.length := by
  have hlength : start.replies.length = e.world.sources.length := by
    rw [← h.replies, length_replies]
  have hle : start.replies.length ≤ c.next := by
    rw [hlength]
    simpa [isLoaded, h.running] using loaded
  -- A load in progress would be of a source past the last.
  have between : c.began = none := by
    cases hbegan : c.began with
    | none => rfl
    | some began =>
        obtain ⟨_, _, r, hreply, _⟩ := h.loading began hbegan
        have hlt := (List.getElem?_eq_some_iff.mp hreply).1
        omega
  obtain ⟨hge, hnow⟩ := h.between between
  have hall : c.next = start.replies.length := Nat.le_antisymm hge hle
  obtain ⟨told, hjournal, hfailures⟩ := h.told
  rw [filter_recordsSince hjournal, failure?_congr h.settings h.replies, hfailures, h.gathered,
    hnow, hall]
  exact ⟨rfl, rfl, rfl⟩

theorem loads_of_begins (turn : e.HasTurn who) (begins : e.cycle = some ⟨0, none, []⟩) :
    e.Loads (e.world.sources.flatMap e.contribution) (e.world.sources.filterMap e.warning?)
      (e.world.sources.map e.patience).sum := by
  constructor
  · have running : e.cycle.isSome := by simp [begins]
    obtain ⟨actions, undisturbed, hsteps, hend⟩ :=
      load_completes turn running e.rank_lt_enough
    exact ⟨hend, actions, undisturbed, hsteps⟩
  · intro actions undisturbed loaded
    obtain ⟨c, h⟩ := loading_run (.begin e begins) undisturbed
    obtain ⟨hgathered, hnow, hwarnings⟩ := h.loaded loaded
    refine ⟨?_, ?_, ?_⟩
    · rw [h.running, Option.map_some, hgathered, rulesOfFirst, List.take_length]
      simp [replies, List.flatMap_map, reply, rulesOf_answer]
    · rw [hwarnings, complaintsOfFirst, List.take_length, replies, List.filterMap_map]
      exact List.filterMap_congr fun source _ => e.complaint?_reply source
    · rw [hnow, timeOfFirst, List.take_length, replies, List.map_map]
      rfl

def withSources (e : Engine) (sources : List Source) : Engine :=
  { e with world := { e.world with sources := sources } }

/-- What a source comes to is the same among any other sources. -/
theorem loads_withSources (turn : e.HasTurn who) (begins : e.cycle = some ⟨0, none, []⟩)
    (sources : List Source) :
    (e.withSources sources).Loads (sources.flatMap e.contribution) (sources.filterMap e.warning?)
      (sources.map e.patience).sum := by
  have hturn : (e.withSources sources).HasTurn who := turn.congr rfl rfl
  have hheard : (e.withSources sources).heard? = e.heard? := heard?_congr rfl rfl rfl
  have hcontribution : (e.withSources sources).contribution = e.contribution := by
    funext source
    simp only [contribution, hheard]
  have hwarning : (e.withSources sources).warning? = e.warning? := by
    funext source
    simp only [warning?, hheard]
    rfl
  have hloads := loads_of_begins hturn begins
  rw [hcontribution, hwarning] at hloads
  exact hloads

/-- A load gathers the rules of all sources that answer in time, in their order, warns once of every
other source, and waits for none of them longer than the timeout. With another source in the place
of one, which fails or is late, what that one added is missing, and nothing else. -/
theorem load_isolates (turn : e.HasTurn who) (begins : e.cycle = some ⟨0, none, []⟩) :
    e.Loads (e.world.sources.flatMap e.contribution) (e.world.sources.filterMap e.warning?)
      (e.world.sources.map e.patience).sum ∧
    ∀ before source after bad, e.world.sources = before ++ source :: after →
      (∀ octets, e.heard? bad ≠ some (.ok octets)) →
      e.world.sources.flatMap e.contribution =
        before.flatMap e.contribution ++ e.contribution source ++ after.flatMap e.contribution ∧
      ∃ warning, e.warning? bad = some warning ∧
        (e.withSources (before ++ bad :: after)).Loads
          (before.flatMap e.contribution ++ after.flatMap e.contribution)
          (before.filterMap e.warning? ++ warning :: after.filterMap e.warning?)
          ((before.map e.patience).sum + (e.patience bad + (after.map e.patience).sum)) := by
  refine ⟨loads_of_begins turn begins, ?_⟩
  intro before source after bad hsources hbad
  obtain ⟨warning, hwarning⟩ := exists_warning hbad
  refine ⟨by simp [hsources], warning, hwarning, ?_⟩
  have hloads := loads_withSources turn begins (before ++ bad :: after)
  simpa [contribution_eq_nil hbad, hwarning] using hloads

/-- Sources of every kind: one in time, one that fails, one that is never heard of, one that is late
by a millisecond, and one that answers at once. -/
theorem load_isolates_mixed :
    let sources : List Source := [
      .scripted ⟨"slow", false, 100, RuleText.ofRules ["slow.org"], none, none, 0, false⟩,
      .scripted ⟨"failing", false, 7, [], some .closed, none, 0, false⟩,
      .scripted ⟨"stalled", true, 0, [], none, none, 0, false⟩,
      .scripted ⟨"late", false, 101, RuleText.ofRules ["late.org"], none, none, 0, false⟩,
      .memory (RuleText.ofRules ["a.org", "b.org"]) false false]
    let e := (new ⟨⟨.admission, false⟩, [], 100, none⟩ ⟨.empty, [], sources⟩).step .holder
    e.HasTurn .build ∧ e.cycle = some ⟨0, none, []⟩ ∧
      e.Loads ["slow.org", "a.org", "b.org"]
        [e.loadFailure "failing" .closed,
          e.loadFailure "stalled" (.timeout "stalled" (.ofMillis 100)),
          e.loadFailure "late" (.timeout "late" (.ofMillis 100))] 307 := by
  intro sources e
  have turn : e.HasTurn .build := ⟨rfl, by simp, by simp⟩
  exact ⟨turn, rfl, (load_isolates turn rfl).1⟩

end Engine

end HostPolicy
