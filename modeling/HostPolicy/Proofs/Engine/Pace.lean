import HostPolicy.Proofs.Engine.Closing

/-!
# The pace of periodic reloads

The ticker asks for a cycle at a deadline or later, and the next deadline is a period after this
one, or after the tick if that came late. A cycle may have to wait behind others and may take longer
than a period. `Pacing` holds nevertheless: the number of periodic cycles begun so far bounds the
deadline from below, so that those that were missed are never caught up with.
-/

namespace HostPolicy

open Journal

namespace Ticker

/-- Each tick is due a whole period after the one before was due, or after it came if that was late.
-/
def Delays (period : Nat) : Prop :=
  ∀ deadline now,
    following period deadline now = (if now ≤ deadline + tolerance then deadline else now) + period

theorem delays_iff (period : Nat) : Delays period ↔ period ≤ longestPeriod := by
  constructor
  · intro h
    have hzero := h 0 0
    simp only [following] at hzero
    omega
  · intro hle deadline now
    rw [following, Nat.min_eq_left hle]

/-- The earliest that the periodic cycle after `count` others can begin. -/
def dueAt (period built count : Nat) : Nat :=
  built + period + count * min period longestPeriod

theorem dueAt_succ (period built count : Nat) :
    dueAt period built (count + 1) = dueAt period built count + min period longestPeriod := by
  rw [dueAt, dueAt, Nat.succ_mul]
  omega

theorem Delays.dueAt {period : Nat} (h : Delays period) (built count : Nat) :
    dueAt period built count = built + (count + 1) * period := by
  rw [Ticker.dueAt, Nat.min_eq_left ((delays_iff period).mp h), Nat.succ_mul]
  omega

theorem add_le_following (period deadline now : Nat) :
    deadline + min period longestPeriod ≤ following period deadline now := by
  unfold following
  split <;> omega

end Ticker

namespace Event

/-- Whether an event is the beginning of a periodic cycle. -/
def beginsPeriodic : Event → Bool
  | cycleBegan .periodic => true
  | _ => false

/-- Whether an event is that the engine has been built. -/
def isStart : Event → Bool
  | started _ => true
  | _ => false

/-- Whether an event is one that the deadlines of the ticker are told by. -/
def paces (event : Event) : Bool :=
  event.beginsPeriodic || event.isStart

theorem paces_eq_false_iff (event : Event) :
    event.paces = false ↔ event.beginsPeriodic = false ∧ event.isStart = false :=
  Bool.or_eq_false_iff

end Event

/-- When the periodic cycles began that a journal tells of, the first first. -/
def periodicBegins (journal : List Entry) : List Nat :=
  (journal.reverse.filter (·.event.beginsPeriodic)).map Entry.time

theorem periodicBegins_append (later earlier : List Entry) :
    periodicBegins (later ++ earlier) = periodicBegins earlier ++ periodicBegins later := by
  simp [periodicBegins]

theorem periodicBegins_quiet {journal : List Entry}
    (hquiet : ∀ entry ∈ journal, entry.event.paces = false) : periodicBegins journal = [] := by
  have hnone : ∀ entry ∈ journal, entry.event.beginsPeriodic = false :=
    fun entry hmem => ((Event.paces_eq_false_iff _).mp (hquiet entry hmem)).1
  simpa [periodicBegins] using hnone

namespace Engine

variable {e middle later : Engine}

/-! ### What a step does to the ticker -/

/-- Nothing is told between two engines that the deadlines of the ticker depend on. -/
def Unpaced (e later : Engine) : Prop :=
  ∃ told, later.journal = told ++ e.journal ∧ ∀ entry ∈ told, entry.event.paces = false

/-- From an engine to the engine after one step, as far as the ticker and its cycles are concerned.
-/
inductive Beat (e later : Engine) : Prop
  | aside (untold : Unpaced e later) (hbuild : .build ∈ later.queue ↔ .build ∈ e.queue)
      (hticker : later.ticker = e.ticker)
      (hflying : InFlight .periodic later ↔ InFlight .periodic e)
  | started (middle : Engine) (rules : Nat) (untold : Unpaced e middle)
      (head : e.queue.head? = some .build)
      (hjournal : later.journal = ⟨e.now, .started rules⟩ :: middle.journal)
      (hbuild : .build ∉ later.queue) (hidle : later.cycle = none)
      (hticker : later.ticker = .start e.settings.period e.now)
  | ticked (deadline : Nat) (waiting : e.ticker = .waiting deadline) (due : deadline ≤ e.now)
      (untold : Unpaced e later) (hbuild : .build ∈ later.queue ↔ .build ∈ e.queue)
      (hticker : later.ticker =
        .cycling (Ticker.following (e.settings.period.getD 0) deadline e.now))
      (hidle : ¬InFlight .periodic later)
  | began (queued : .periodic ∈ e.queue) (hidle : ¬InFlight .periodic e)
      (hjournal : later.journal = ⟨e.now, .cycleBegan .periodic⟩ :: e.journal)
      (hqueue : later.queue = e.queue) (hticker : later.ticker = e.ticker)
      (hflying : InFlight .periodic later)
  | ended (deadline : Nat) (cycling : e.ticker = .cycling deadline) (flying : InFlight .periodic e)
      (untold : Unpaced e later) (hbuild : .build ∈ later.queue ↔ .build ∈ e.queue)
      (hticker : later.ticker = .waiting deadline)
  | stopped (shutDown : e.isShutDown = true) (untold : Unpaced e later)
      (hbuild : .build ∈ later.queue ↔ .build ∈ e.queue) (hticker : later.ticker = .stopped)

theorem Unpaced.of_journal_eq (hjournal : later.journal = e.journal) : Unpaced e later :=
  ⟨[], hjournal, by simp⟩

theorem Unpaced.of_record (event : Event) (hquiet : event.paces = false)
    (hjournal : later.journal = ⟨e.now, event⟩ :: e.journal) : Unpaced e later :=
  ⟨[⟨e.now, event⟩], hjournal, by simpa using hquiet⟩

theorem Unpaced.record (untold : Unpaced e middle) {entry : Entry}
    (hquiet : entry.event.paces = false) (hjournal : later.journal = entry :: middle.journal) :
    Unpaced e later := by
  obtain ⟨told, hmiddle, htold⟩ := untold
  refine ⟨entry :: told, by rw [hjournal, hmiddle]; rfl, ?_⟩
  intro other hmem
  rcases List.mem_cons.mp hmem with rfl | hold
  · exact hquiet
  · exact htold other hold

theorem Unpaced.withdraw (e : Engine) (who : Claimant) : Unpaced e (e.withdraw who) := by
  rcases e.withdraw_eq who with ⟨_, _, heq⟩ | ⟨_, heq⟩ <;> rw [heq]
  · exact .of_record .cycleCancelled rfl rfl
  · exact .of_journal_eq rfl

/-- With the cycle, and while it is running the head of the queue, stays who runs it. -/
theorem inFlight_congr {who : Claimant} (hcycle : later.cycle.isSome = e.cycle.isSome)
    (hhead : e.cycle.isSome → later.queue.head? = e.queue.head?) :
    InFlight who later ↔ InFlight who e := by
  unfold InFlight
  rw [hcycle]
  exact and_congr_right fun hsome => by rw [hhead hsome]

/-- A claim given up has no part in the cycle of another claimant. -/
theorem inFlight_withdraw (horder : Orderly e) {who other : Claimant} (hne : other ≠ who) :
    InFlight other (e.withdraw who) ↔ InFlight other e := by
  rcases e.withdraw_eq who with ⟨hhead, _, heq⟩ | ⟨hidle, heq⟩
  · rw [heq]
    refine ⟨fun flying => absurd flying.1 (by simp), fun flying => ?_⟩
    rw [InFlight, hhead] at flying
    exact absurd (Option.some.inj flying.2).symm hne
  · rw [heq]
    refine inFlight_congr rfl ?_
    intro hsome
    obtain ⟨holder, hholder, _⟩ := horder.running hsome
    have hother : holder ≠ who := by
      rintro rfl
      rw [hidle hholder] at hsome
      contradiction
    exact (Orderly.head?_filter hholder hother).trans hholder.symm

theorem inFlight_append (horder : Orderly e) {who added : Claimant} (hcycle : later.cycle = e.cycle)
    (hqueue : later.queue = e.queue ++ [added]) : InFlight who later ↔ InFlight who e := by
  refine inFlight_congr (by rw [hcycle]) ?_
  intro hsome
  obtain ⟨c, running⟩ := Option.isSome_iff_exists.mp hsome
  rw [hqueue, head?_append_of_running horder running]

/-- The end of a turn. If it was that of the ticker, its cycle was running. -/
theorem Beat.leave (horder : Orderly e) {who : Claimant} (turn : e.HasTurn who)
    (hqueue : middle.queue = e.queue) (hticker : middle.ticker = e.ticker)
    (hsettings : middle.settings = e.settings) (hnow : middle.now = e.now)
    (untold : Unpaced e middle) (hflying : who = .periodic → InFlight .periodic e) :
    Beat e middle.leave := by
  have hhead : middle.queue.head? = some who := hqueue ▸ turn.head
  obtain ⟨rest, hcons⟩ := List.head?_eq_some_iff.mp turn.head
  have hidle : ∀ other, ¬InFlight other middle.leave := by
    rintro other ⟨hsome, _⟩
    simp at hsome
  have hmem : who ∈ e.queue := hcons ▸ List.mem_cons_self
  cases who with
  | build =>
      have halone := (horder.building hmem).1
      refine .started middle middle.rules.counts.total untold turn.head ?_ ?_ (leave_cycle _) ?_
      · simp [farewell, hhead, hnow]
      · simp [hqueue, halone]
      · rw [leave_ticker_of_build _ hhead, hsettings, hnow]
  | manual call =>
      refine .aside ?_ ?_ ?_ ?_
      · have hreturned : (⟨middle.now, .reloadReturned call⟩ : Entry).event.paces = false := rfl
        exact untold.record hreturned (by simp [farewell, hhead])
      · simp [hqueue, hcons]
      · exact (leave_ticker_of_manual _ hhead).trans hticker
      · refine iff_of_false (hidle _) ?_
        rintro ⟨_, hother⟩
        rw [turn.head] at hother
        cases hother
  | periodic =>
      obtain ⟨deadline, cycling⟩ := horder.periodic.mp hmem
      refine .ended deadline cycling (hflying rfl) ?_ ?_ ?_
      · obtain ⟨told, hjournal, htold⟩ := untold
        exact ⟨told, by simp [farewell, hhead, hjournal], htold⟩
      · simp [hqueue, hcons]
      · exact leave_ticker_of_periodic _ hhead (hticker.trans cycling)
  | closer => exact absurd rfl turn.ne_closer

theorem Move.beat (hmove : Move e later) (horder : Orderly e) : Beat e later := by
  cases hmove with
  | stay | shared | changed | waited =>
      exact .aside (.of_journal_eq rfl) Iff.rfl rfl Iff.rfl
  | closeCalled | dropped | sourceClosed =>
      exact .aside (.of_record _ rfl rfl) Iff.rfl rfl Iff.rfl
  | loadBegan who turn c running | loadEnded who turn c running =>
      refine .aside (.of_record _ rfl rfl) Iff.rfl rfl ?_
      exact inFlight_congr (by rw [running]; rfl) fun _ => rfl
  | closeRepeated held closed =>
      refine .aside ⟨[⟨e.now, .closeReturned none⟩, ⟨e.now, .closeCalled⟩], rfl, ?_⟩ Iff.rfl rfl
        Iff.rfl
      simp [Event.paces, Event.beginsPeriodic, Event.isStart]
  | reloadCalled held =>
      exact .aside (.of_record _ rfl rfl) (by simp) rfl
        (inFlight_append horder rfl rfl)
  | closerQueued stopping ended told noticed =>
      refine .aside ⟨told, rfl, ?_⟩ (by simp) rfl (inFlight_append horder rfl rfl)
      rcases noticed with rfl | rfl <;> simp [Event.paces, Event.beginsPeriodic, Event.isStart]
  | closeAbandoned next pending =>
      refine .aside (.of_record _ rfl rfl) (by simp) rfl ?_
      refine inFlight_congr rfl ?_
      intro hsome
      obtain ⟨holder, hhead, hne⟩ := horder.running hsome
      exact (Orderly.head?_filter hhead hne).trans hhead.symm
  | reloadAbandoned call queued =>
      refine .aside (.record (.withdraw e (.manual call)) rfl rfl) (by simp [record]) ?_ ?_
      · rcases e.withdraw_eq (.manual call) with ⟨_, _, heq⟩ | ⟨_, heq⟩ <;> rw [heq] <;> rfl
      · exact inFlight_withdraw horder (by simp)
  | cycleBegan who turn idle opened =>
      have hidle : ¬InFlight .periodic e := by
        rintro ⟨hsome, _⟩
        simp [idle] at hsome
      by_cases hwho : who = .periodic
      · subst hwho
        have hqueued : .periodic ∈ e.queue := List.mem_of_mem_head? (by simp [turn.head])
        exact .began hqueued hidle rfl rfl rfl ⟨rfl, turn.head⟩
      · refine .aside (.of_record _ ?_ rfl) Iff.rfl rfl (iff_of_false ?_ hidle)
        · cases who <;> first | rfl | contradiction
        · rintro ⟨_, hhead⟩
          exact hwho (Option.some.inj (turn.head.symm.trans hhead))
  | turnedAway who turn idle closed =>
      refine .leave horder turn rfl rfl rfl rfl (.of_journal_eq rfl) ?_
      intro hwho
      have running := turn.not_shutDown hwho
      rw [isShutDown, e.isClosed_iff.mpr closed] at running
      contradiction
  | installed who turn c running | notCompiled who turn c running =>
      refine .leave horder turn rfl rfl rfl rfl
        (.of_record _ rfl rfl) ?_
      rintro rfl
      exact ⟨by rw [running]; rfl, turn.head⟩
  | engineClosed head next error releasing released =>
      obtain ⟨rest, hqueue⟩ := List.head?_eq_some_iff.mp head
      refine .aside ⟨[⟨e.now, .closeReturned error⟩, ⟨e.now, .engineClosed e.version⟩], rfl, ?_⟩
        (by simp [hqueue]) rfl (iff_of_false ?_ ?_)
      · simp [Event.paces, Event.beginsPeriodic, Event.isStart]
      · rintro ⟨hsome, _⟩
        contradiction
      · rintro ⟨_, hhead⟩
        rw [head] at hhead
        cases hhead
  | ticked deadline waiting running due =>
      refine .ticked deadline waiting due (.of_record _ rfl rfl) (by simp) rfl ?_
      -- The ticker was waiting, so that nothing of it was queued before.
      have habsent : .periodic ∉ e.queue := by
        intro hmem
        obtain ⟨other, cycling⟩ := horder.periodic.mp hmem
        simp [waiting] at cycling
      rintro ⟨hsome, hhead⟩
      obtain ⟨c, hcycle⟩ := Option.isSome_iff_exists.mp hsome
      rw [head?_append_of_running horder hcycle] at hhead
      exact habsent (List.mem_of_mem_head? (by simp [hhead]))
  | tickerStopped deadline waiting shutDown =>
      exact .stopped shutDown (.of_record _ rfl rfl) Iff.rfl rfl
  | cycleGivenUp deadline cycling shutDown =>
      refine .stopped shutDown (.record (.withdraw e .periodic) rfl rfl) ?_ rfl
      simp [stopTicker, record]

/-! ### What the deadlines keep to -/

variable {period built : Nat}

/-- Of an engine built at `built`: no periodic cycle has begun too early, and the deadline that the
next one is counted from is not too early either. The ticker moves its deadline on when it asks for
a cycle, before that cycle begins. -/
structure Pacing (period built : Nat) (e : Engine) : Prop where
  begun : ∀ k time, (periodicBegins e.journal)[k]? = some time →
    Ticker.dueAt period built k ≤ time
  waiting : ∀ deadline, e.ticker = .waiting deadline →
    Ticker.dueAt period built (periodicBegins e.journal).length ≤ deadline
  queued : ∀ deadline, e.ticker = .cycling deadline → ¬InFlight .periodic e →
    Ticker.dueAt period built (periodicBegins e.journal).length ≤ e.now ∧
      Ticker.dueAt period built ((periodicBegins e.journal).length + 1) ≤ deadline
  flying : ∀ deadline, e.ticker = .cycling deadline → InFlight .periodic e →
    Ticker.dueAt period built (periodicBegins e.journal).length ≤ deadline

/-- The engine has been built, once, and keeps pace since. -/
structure Paced (period : Nat) (e : Engine) : Prop where
  building : .build ∈ e.queue → ∀ entry ∈ e.journal, entry.event.paces = false
  built : .build ∉ e.queue → ∃ built rules, ⟨built, .started rules⟩ ∈ e.journal ∧
    (∀ entry ∈ e.journal, entry.event.isStart = true → entry.time = built) ∧ Pacing period built e

theorem Unpaced.periodicBegins_eq (untold : Unpaced e later) :
    periodicBegins later.journal = periodicBegins e.journal := by
  obtain ⟨told, hjournal, htold⟩ := untold
  rw [hjournal, periodicBegins_append, periodicBegins_quiet htold, List.append_nil]

/-- What is told next is neither the beginning of a periodic cycle nor that of the engine. -/
theorem Paced.congr (h : Paced period e) (untold : Unpaced e later)
    (hbuild : .build ∈ later.queue ↔ .build ∈ e.queue)
    (hpacing : ∀ built, .build ∉ e.queue → Pacing period built e → Pacing period built later) :
    Paced period later := by
  obtain ⟨told, hjournal, htold⟩ := untold
  refine ⟨?_, ?_⟩
  · intro queued entry hmem
    rw [hjournal] at hmem
    rcases List.mem_append.mp hmem with hnew | hold
    · exact htold entry hnew
    · exact h.building (hbuild.mp queued) entry hold
  · intro passed
    rw [hbuild] at passed
    obtain ⟨built, rules, hstarted, honce, hpace⟩ := h.built passed
    refine ⟨built, rules, hjournal ▸ List.mem_append_right told hstarted, ?_,
      hpacing built passed hpace⟩
    intro entry hmem hstart
    rw [hjournal] at hmem
    rcases List.mem_append.mp hmem with hnew | hold
    · have hquiet := ((Event.paces_eq_false_iff _).mp (htold entry hnew)).2
      rw [hstart] at hquiet
      contradiction
    · exact honce entry hold hstart

/-- Nothing periodic has begun before the first deadline is set. -/
theorem Pacing.of_start (hnone : periodicBegins e.journal = [])
    (hticker : e.ticker = .start (some period) built) : Pacing period built e := by
  have hstart : e.ticker = .waiting (built + period) ∨ e.ticker = .lost := by
    rw [hticker, Ticker.start]
    split
    · exact Or.inl rfl
    · exact Or.inr rfl
  refine ⟨by simp [hnone], ?_, ?_, ?_⟩ <;>
    rcases hstart with hstart | hstart <;> simp [hnone, hstart, Ticker.dueAt]

theorem periodicBegins_began
    (hjournal : later.journal = ⟨e.now, .cycleBegan .periodic⟩ :: e.journal) :
    periodicBegins later.journal = periodicBegins e.journal ++ [e.now] := by
  rw [hjournal, ← List.singleton_append, periodicBegins_append]
  rfl

/-- The cycle that was asked for begins: it is the next, and its own deadline is already counted. -/
theorem Pacing.began {deadline : Nat} (h : Pacing period built e)
    (cycling : e.ticker = .cycling deadline) (hidle : ¬InFlight .periodic e)
    (hjournal : later.journal = ⟨e.now, .cycleBegan .periodic⟩ :: e.journal)
    (hticker : later.ticker = e.ticker) (hflying : InFlight .periodic later) :
    Pacing period built later := by
  obtain ⟨hdue, hnext⟩ := h.queued deadline cycling hidle
  have hbegins := periodicBegins_began hjournal
  refine ⟨?_, by simp [hticker, cycling], fun _ _ hnot => absurd hflying hnot, ?_⟩
  · intro k time hk
    rw [hbegins] at hk
    rcases Nat.lt_or_ge k (periodicBegins e.journal).length with hlt | hge
    · rw [List.getElem?_append_left hlt] at hk
      exact h.begun k time hk
    · rw [List.getElem?_append_right hge, List.getElem?_singleton] at hk
      have hlast : k = (periodicBegins e.journal).length ∧ time = e.now := by
        split at hk
        · exact ⟨by omega, (Option.some.inj hk).symm⟩
        · contradiction
      rw [hlast.1, hlast.2]
      exact hdue
  · rw [hticker, cycling, hbegins, List.length_append]
    rintro _ ⟨⟩ _
    exact hnext

theorem Paced.move (h : Paced period e) (horder : Orderly e)
    (hperiod : e.settings.period = some period) (hmove : Move e later) : Paced period later := by
  have hnow := hmove.now_le
  cases hmove.beat horder with
  | aside untold hbuild hticker hflying =>
      refine h.congr untold hbuild ?_
      intro built passed hpace
      have hsame := untold.periodicBegins_eq
      refine ⟨hsame ▸ hpace.begun, ?_, ?_, ?_⟩
      · rw [hsame, hticker]
        exact hpace.waiting
      · rw [hsame, hticker, hflying]
        intro deadline cycling hidle
        obtain ⟨hdue, hnext⟩ := hpace.queued deadline cycling hidle
        exact ⟨Nat.le_trans hdue hnow, hnext⟩
      · rw [hsame, hticker, hflying]
        exact hpace.flying
  | started middle rules untold head hjournal hbuild hidle hticker =>
      obtain ⟨told, hmiddle, htold⟩ := untold
      have hquiet : ∀ entry ∈ middle.journal, entry.event.paces = false := by
        have hold := h.building (List.mem_of_mem_head? (by simp [head]))
        rw [hmiddle]
        intro entry hmem
        exact (List.mem_append.mp hmem).elim (htold entry) (hold entry)
      refine ⟨fun queued => absurd queued hbuild, fun _ => ⟨e.now, rules, ?_, ?_, ?_⟩⟩
      · rw [hjournal]
        exact List.mem_cons_self
      · intro entry hmem hstart
        rw [hjournal] at hmem
        rcases List.mem_cons.mp hmem with rfl | hold
        · rfl
        · have hnot := ((Event.paces_eq_false_iff _).mp (hquiet entry hold)).2
          rw [hstart] at hnot
          contradiction
      · have hnone : periodicBegins later.journal = [] := by
          rw [hjournal, ← List.singleton_append, periodicBegins_append, periodicBegins_quiet hquiet]
          rfl
        exact .of_start hnone (by rw [hticker, hperiod])
  | ticked deadline waiting due untold hbuild hticker hidle =>
      refine h.congr untold hbuild ?_
      intro built passed hpace
      have hsame := untold.periodicBegins_eq
      have hdue := hpace.waiting deadline waiting
      refine ⟨hsame ▸ hpace.begun, by simp [hticker], ?_, fun _ _ flying => absurd flying hidle⟩
      rw [hsame, hticker, hperiod, Option.getD_some]
      rintro _ ⟨⟩ _
      have hnext := Ticker.add_le_following period deadline e.now
      rw [Ticker.dueAt_succ]
      omega
  | began queued hidle hjournal hqueue hticker hflying =>
      have passed : .build ∉ e.queue := by
        intro hbuild
        rw [(horder.building hbuild).1] at queued
        simp at queued
      obtain ⟨deadline, cycling⟩ := horder.periodic.mp queued
      obtain ⟨built, rules, hstarted, honce, hpace⟩ := h.built passed
      have hnext := hpace.began cycling hidle hjournal hticker hflying
      refine ⟨fun hbuild => absurd (hqueue ▸ hbuild) passed, fun _ => ⟨built, rules, ?_, ?_, hnext⟩⟩
      · rw [hjournal]
        exact List.mem_cons_of_mem _ hstarted
      · intro entry hmem hstart
        rw [hjournal] at hmem
        rcases List.mem_cons.mp hmem with rfl | hold
        · contradiction
        · exact honce entry hold hstart
  | ended deadline cycling flying untold hbuild hticker =>
      refine h.congr untold hbuild ?_
      intro built passed hpace
      have hsame := untold.periodicBegins_eq
      refine ⟨hsame ▸ hpace.begun, ?_, ?_, ?_⟩
      · rw [hsame, hticker]
        rintro _ ⟨⟩
        exact hpace.flying deadline cycling flying
      · simp [hticker]
      · simp [hticker]
  | stopped shutDown untold hbuild hticker =>
      refine h.congr untold hbuild ?_
      intro built passed hpace
      refine ⟨untold.periodicBegins_eq ▸ hpace.begun, ?_, ?_, ?_⟩ <;> simp [hticker]

/-! ### Every run -/

end Engine

end HostPolicy
