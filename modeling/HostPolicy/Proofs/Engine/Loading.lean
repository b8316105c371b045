import HostPolicy.Engine.Log
import HostPolicy.Engine.Run
import HostPolicy.Proofs.Engine.Move
import Mathlib.Algebra.Ring.Nat

/-!
# How far a cycle has come with its sources

A cycle asks one source after the other. `Loading` says what it has gathered, reported and waited
for when it has asked the first of them, and every step keeps this as long as the sources stay as
they are and no time is lost, whatever else goes on meanwhile (`loading_run`).
-/

namespace HostPolicy

/-- What comes of asking a source: how long it is waited for, and what is heard from it. -/
structure Reply where
  source : String
  time : Nat
  answer : Except SourceError (List UInt8)

namespace Engine

def reply (e : Engine) (source : Source) : Reply :=
  ⟨source.name, e.patience source, e.answer source⟩

def replies (e : Engine) : List Reply :=
  e.world.sources.map e.reply

def loadFailure (e : Engine) (source : String) (error : SourceError) : LogRecord :=
  ⟨.warn, "Rule source load failed",
    [e.kindField, ("source", .text source), ("error", .text error.message)]⟩

/-- What is reported of a source that adds no rules. -/
def complaint? (e : Engine) (r : Reply) : Option LogRecord :=
  match r.answer with
  | .ok _ => none
  | .error error => some (e.loadFailure r.source error)

/-! ### The first sources -/

section First

variable (e : Engine) (count : Nat)

def rulesOfFirst : List String :=
  (e.replies.take count).flatMap (rulesOf ·.answer)

def timeOfFirst : Nat :=
  ((e.replies.take count).map Reply.time).sum

def complaintsOfFirst : List LogRecord :=
  (e.replies.take count).filterMap e.complaint?

variable {e count} {r : Reply}

theorem take_replies_succ (hasked : e.replies[count]? = some r) :
    e.replies.take (count + 1) = e.replies.take count ++ [r] := by
  rw [List.take_add_one, hasked]
  rfl

theorem rulesOfFirst_succ (hasked : e.replies[count]? = some r) :
    e.rulesOfFirst (count + 1) = e.rulesOfFirst count ++ rulesOf r.answer := by
  simp [rulesOfFirst, take_replies_succ hasked]

theorem timeOfFirst_succ (hasked : e.replies[count]? = some r) :
    e.timeOfFirst (count + 1) = e.timeOfFirst count + r.time := by
  simp [timeOfFirst, take_replies_succ hasked]

theorem complaintsOfFirst_succ (hasked : e.replies[count]? = some r) :
    e.complaintsOfFirst (count + 1) = e.complaintsOfFirst count ++ (e.complaint? r).toList := by
  rw [complaintsOfFirst, take_replies_succ hasked, List.filterMap_append]
  cases hcomplaint : e.complaint? r <;> simp [complaintsOfFirst, hcomplaint]

end First

theorem getElem?_replies {e : Engine} {i : Nat} {source : Source}
    (hsource : e.world.sources[i]? = some source) : e.replies[i]? = some (e.reply source) := by
  simp [replies, hsource]

theorem length_replies (e : Engine) : e.replies.length = e.world.sources.length :=
  List.length_map _

theorem sourceName_eq (e : Engine) (i : Nat) :
    e.sourceName i = (e.replies[i]?.map Reply.source).getD "" := by
  cases hsource : e.world.sources[i]? <;> simp [sourceName, replies, hsource, reply]

/-! ### What the log says of failed loads -/

/-- What an event reports of a load that failed. -/
def failure? (e : Engine) : Event → Option LogRecord
  | .loadEnded i (.error error) => some (e.loadFailure (e.sourceName i) error)
  | _ => none

def isLoadFailure (r : LogRecord) : Bool :=
  r.message == "Rule source load failed"

theorem filter_record? (e : Engine) (event : Event) :
    (e.record? event).filter isLoadFailure = e.failure? event := by
  cases event with
  | loadEnded i answer =>
      cases answer with
      | ok octets =>
          simp only [record?, loadRecord?, failure?]
          split <;> rfl
      | error error => rfl
  | sourceClosed i error => cases error <;> rfl
  | _ => rfl

/-- The failures that a log shows are those that its journal entries report. -/
theorem filter_recordsSince {start e : Engine} {told : List Entry}
    (hjournal : e.journal = told ++ start.journal) :
    (e.recordsSince start.journal.length).filter isLoadFailure =
      told.reverse.filterMap fun entry => e.failure? entry.event := by
  have htake : e.journal.take (e.journal.length - start.journal.length) = told := by
    simp [hjournal]
  rw [recordsSince, htake, List.filter_filterMap]
  exact List.filterMap_congr fun entry _ => e.filter_record? entry.event

theorem failure?_loadEnded {e : Engine} {i : Nat} {r : Reply} (hasked : e.replies[i]? = some r) :
    e.failure? (.loadEnded i r.answer) = e.complaint? r := by
  have hname : e.sourceName i = r.source := by
    rw [sourceName_eq, hasked]
    rfl
  unfold complaint?
  cases hanswer : r.answer with
  | ok octets => rfl
  | error error => rw [failure?, hname]

theorem failure?_congr {e other : Engine} (hsettings : e.settings = other.settings)
    (hreplies : e.replies = other.replies) : e.failure? = other.failure? := by
  funext event
  unfold failure?
  split
  · rw [loadFailure, loadFailure, kindField, kindField, hsettings, sourceName_eq, sourceName_eq,
      hreplies]
  · rfl

/-! ### Runs during a load -/

/-- A step in which the cycle goes on and the sources stay as they are, and time passes only in a
load and not beyond its end. -/
structure Steady (e later : Engine) : Prop where
  running : later.cycle.isSome
  replies : later.replies = e.replies
  prompt : e.now < later.now → ∃ due, e.loadDue? = some due ∧ later.now ≤ due

def Undisturbed (e : Engine) : List Action → Prop
  | [] => True
  | action :: rest => Steady e (e.step action) ∧ Undisturbed (e.step action) rest

/-- The cycle `c` of an engine, which began to ask the sources at `start`. -/
structure Loading (start e : Engine) (c : Cycle) : Prop where
  settings : e.settings = start.settings
  replies : e.replies = start.replies
  running : e.cycle = some c
  gathered : c.gathered = start.rulesOfFirst c.next
  between : c.began = none →
    c.next ≤ start.replies.length ∧ e.now = start.now + start.timeOfFirst c.next
  loading : ∀ began, c.began = some began → began = start.now + start.timeOfFirst c.next ∧
    began ≤ e.now ∧ ∃ r, start.replies[c.next]? = some r ∧ e.now ≤ began + r.time
  told : ∃ told, e.journal = told ++ start.journal ∧
    (told.reverse.filterMap fun entry => start.failure? entry.event) =
      start.complaintsOfFirst c.next

variable {start e later : Engine} {c : Cycle}

theorem loadDue?_eq_some_iff {due : Nat} (running : e.cycle = some c) :
    e.loadDue? = some due ↔ ∃ began source, c.began = some began ∧
      e.world.sources[c.next]? = some source ∧ due = began + e.patience source := by
  simp only [loadDue?, running, Option.bind_eq_bind, Option.bind_some, Option.pure_def,
    Option.bind_eq_some_iff]
  constructor
  · rintro ⟨source, hsource, began, hbegan, hdue⟩
    exact ⟨began, source, hbegan, hsource, (Option.some.inj hdue).symm⟩
  · rintro ⟨began, source, hbegan, hsource, rfl⟩
    exact ⟨source, hsource, began, hbegan, rfl⟩

namespace Loading

theorem begin (e : Engine) (begins : e.cycle = some ⟨0, none, []⟩) :
    Loading e e ⟨0, none, []⟩ := by
  refine ⟨rfl, rfl, begins, rfl, fun _ => ⟨Nat.zero_le _, rfl⟩, by simp, [], rfl, rfl⟩

/-- What has no part in the cycle and takes no time. -/
theorem aside (h : Loading start e c) (steady : Steady e later) (told : List Entry)
    (hsettings : later.settings = e.settings) (hcycle : later.cycle = e.cycle)
    (hnow : later.now = e.now) (hjournal : later.journal = told ++ e.journal)
    (hquiet : ∀ entry ∈ told, start.failure? entry.event = none) : Loading start later c := by
  refine ⟨hsettings.trans h.settings, steady.replies.trans h.replies, hcycle.trans h.running,
    h.gathered, ?_, ?_, ?_⟩
  · rw [hnow]
    exact h.between
  · rw [hnow]
    exact h.loading
  · obtain ⟨earlier, hearlier, hfailures⟩ := h.told
    refine ⟨told ++ earlier, by rw [hjournal, hearlier, List.append_assoc], ?_⟩
    have hnone : (told.reverse.filterMap fun entry => start.failure? entry.event) = [] := by
      apply List.filterMap_eq_nil_iff.mpr
      intro entry hmem
      exact hquiet entry (List.mem_reverse.mp hmem)
    rw [List.reverse_append, List.filterMap_append, hfailures, hnone, List.append_nil]

theorem asked (h : Loading start e c) {source : Source}
    (hsource : e.world.sources[c.next]? = some source) :
    start.replies[c.next]? = some (e.reply source) := by
  rw [← h.replies]
  exact getElem?_replies hsource

theorem loadBegan (h : Loading start e c) {entry : Entry} {world : World}
    (between : c.began = none) (asked : c.next < e.world.sources.length)
    (hentry : start.failure? entry.event = none)
    (steady : Steady e { e with
      world := world
      cycle := some { c with began := some e.now }
      journal := entry :: e.journal }) :
    Loading start { e with
      world := world
      cycle := some { c with began := some e.now }
      journal := entry :: e.journal } { c with began := some e.now } := by
  obtain ⟨_, hnow⟩ := h.between between
  obtain ⟨told, hjournal, hfailures⟩ := h.told
  refine ⟨h.settings, steady.replies.trans h.replies, rfl, h.gathered, by simp, ?_, ?_⟩
  · intro began hbegan
    cases hbegan
    obtain ⟨source, hsource⟩ : ∃ source, e.world.sources[c.next]? = some source :=
      ⟨_, List.getElem?_eq_getElem asked⟩
    exact ⟨hnow, Nat.le_refl _, _, h.asked hsource, Nat.le_add_right _ _⟩
  · refine ⟨entry :: told, by rw [hjournal]; rfl, ?_⟩
    simp [hfailures, hentry]

/-- With no time lost a load ends at the moment at which it is due. -/
theorem loadEnded (h : Loading start e c) {source : Source}
    (asked : e.world.sources[c.next]? = some source) {began : Nat} (loading : c.began = some began)
    (due : began + e.patience source ≤ e.now)
    (steady : Steady e { e with
      cycle := some ⟨c.next + 1, none, c.gathered ++ rulesOf (e.answer source)⟩
      journal := ⟨e.now, .loadEnded c.next (e.answer source)⟩ :: e.journal }) :
    Loading start { e with
      cycle := some ⟨c.next + 1, none, c.gathered ++ rulesOf (e.answer source)⟩
      journal := ⟨e.now, .loadEnded c.next (e.answer source)⟩ :: e.journal }
      ⟨c.next + 1, none, c.gathered ++ rulesOf (e.answer source)⟩ := by
  have hasked := h.asked asked
  obtain ⟨hbegan, _, r, hreply, hnow⟩ := h.loading began loading
  obtain rfl : e.reply source = r := Option.some.inj (hasked.symm.trans hreply)
  obtain ⟨told, hjournal, hfailures⟩ := h.told
  refine ⟨h.settings, steady.replies.trans h.replies, rfl, ?_, ?_, by simp, ?_⟩
  · rw [h.gathered, rulesOfFirst_succ hasked]
    rfl
  · intro _
    have hlt : c.next < start.replies.length := (List.getElem?_eq_some_iff.mp hasked).1
    refine ⟨hlt, ?_⟩
    change e.now = start.now + start.timeOfFirst (c.next + 1)
    change e.now ≤ began + e.patience source at hnow
    rw [timeOfFirst_succ hasked, ← Nat.add_assoc, ← hbegan]
    exact Nat.le_antisymm hnow due
  · refine ⟨⟨e.now, .loadEnded c.next (e.answer source)⟩ :: told, by rw [hjournal]; rfl, ?_⟩
    have hfailure := failure?_loadEnded hasked
    rw [complaintsOfFirst_succ hasked, ← hfailures, ← hfailure, List.reverse_cons,
      List.filterMap_append]
    cases hevent : start.failure? (.loadEnded c.next (e.reply source).answer) <;>
      simp_all [reply]

theorem waited (h : Loading start e c) (time : Nat)
    (steady : Steady e { e with now := e.now + time }) :
    Loading start { e with now := e.now + time } c := by
  by_cases hzero : time = 0
  · subst hzero
    exact h
  · have hlater : e.now < e.now + time := by omega
    obtain ⟨due, hdue, hle⟩ := steady.prompt hlater
    obtain ⟨began, source, loading, hsource, rfl⟩ := (loadDue?_eq_some_iff h.running).mp hdue
    refine ⟨h.settings, steady.replies.trans h.replies, h.running, h.gathered, ?_, ?_, h.told⟩
    · intro between
      rw [loading] at between
      contradiction
    · intro other hother
      obtain rfl : began = other := Option.some.inj (loading.symm.trans hother)
      obtain ⟨hbegan, hle', r, hreply, _⟩ := h.loading began loading
      obtain rfl : e.reply source = r := Option.some.inj ((h.asked hsource).symm.trans hreply)
      exact ⟨hbegan, Nat.le_trans hle' (Nat.le_add_right _ _), _, hreply, hle⟩

theorem record (h : Loading start e c) (steady : Steady e later) (event : Event)
    (hsettings : later.settings = e.settings) (hcycle : later.cycle = e.cycle)
    (hnow : later.now = e.now) (hjournal : later.journal = ⟨e.now, event⟩ :: e.journal)
    (hquiet : start.failure? event = none) : Loading start later c :=
  h.aside steady [⟨e.now, event⟩] hsettings hcycle hnow hjournal (by simpa using hquiet)

/-- A claim given up is another's, as the cycle goes on. -/
theorem withdrawn (h : Loading start e c) {who : Claimant} (steady : Steady e later) (event : Event)
    (hsettings : later.settings = e.settings) (hcycle : later.cycle = (e.withdraw who).cycle)
    (hnow : later.now = e.now)
    (hjournal : later.journal = ⟨e.now, event⟩ :: (e.withdraw who).journal)
    (hquiet : start.failure? event = none) : Loading start later c := by
  rcases e.withdraw_eq who with ⟨_, _, heq⟩ | ⟨_, heq⟩
  · have hrunning := steady.running
    rw [hcycle, heq] at hrunning
    contradiction
  · rw [heq] at hcycle hjournal
    exact h.record steady event hsettings hcycle hnow hjournal hquiet

theorem move (h : Loading start e c) (hmove : Move e later) (steady : Steady e later) :
    ∃ next, Loading start later next := by
  cases hmove with
  | stay | shared | changed =>
      exact ⟨c, h.aside steady [] rfl rfl rfl rfl (by simp)⟩
  | waited time => exact ⟨c, h.waited time steady⟩
  | reloadCalled | closeCalled | dropped | ticked | tickerStopped | sourceClosed =>
      exact ⟨c, h.record steady _ rfl rfl rfl rfl rfl⟩
  | closeAbandoned => exact ⟨c, h.record steady .closeAbandoned rfl rfl rfl rfl rfl⟩
  | closeRepeated =>
      let told : List Entry := [⟨e.now, .closeReturned none⟩, ⟨e.now, .closeCalled⟩]
      have hquiet : ∀ entry ∈ told, start.failure? entry.event = none := by simp [told, failure?]
      exact ⟨c, h.aside steady told rfl rfl rfl rfl hquiet⟩
  | closerQueued stopping ended told noticed =>
      refine ⟨c, h.aside steady told rfl rfl rfl rfl ?_⟩
      rcases noticed with rfl | rfl <;> simp [failure?]
  | reloadAbandoned call =>
      exact ⟨c, h.withdrawn steady (.reloadAbandoned call) (by simp [Engine.record]) rfl
        (by simp [Engine.record]) (by simp [Engine.record]) rfl⟩
  | cycleGivenUp =>
      exact ⟨c, h.withdrawn steady .tickerStopped (by simp [Engine.record, stopTicker]) rfl
        (by simp [Engine.record, stopTicker]) (by simp [Engine.record, stopTicker]) rfl⟩
  | cycleBegan _ _ idle | turnedAway _ _ idle =>
      rw [h.running] at idle
      contradiction
  | loadBegan who turn current running asked between =>
      obtain rfl : c = current := Option.some.inj (h.running.symm.trans running)
      exact ⟨_, h.loadBegan between asked rfl steady⟩
  | loadEnded who turn current running source asked began loading due =>
      obtain rfl : c = current := Option.some.inj (h.running.symm.trans running)
      exact ⟨_, h.loadEnded asked loading due steady⟩
  | installed | notCompiled =>
      have hrunning := steady.running
      rw [leave_cycle] at hrunning
      contradiction
  | engineClosed =>
      have hrunning := steady.running
      contradiction

end Loading

theorem loading_run (h : Loading start e c) {actions : List Action}
    (hrun : e.Undisturbed actions) : ∃ next, Loading start (e.steps actions) next := by
  induction actions generalizing e c with
  | nil => exact ⟨c, h⟩
  | cons action actions ih =>
      obtain ⟨steady, hrest⟩ := hrun
      obtain ⟨next, hnext⟩ := h.move (e.move_step action) steady
      exact ih hnext hrest

end Engine

end HostPolicy
