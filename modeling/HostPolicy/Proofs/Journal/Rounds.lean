import HostPolicy.Engine.Step
import HostPolicy.Proofs.Journal.Conduct

/-!
# The cycles that a journal tells of

`rounds` reads a journal back as a list of cycles, the latest first, each with its loads. A moment
is counted in entries: that of an entry is how many came before it. In a journal that keeps to the
grammar a cycle begins only after the one before it has ended, its loads lie between its beginning
and its end and follow one another in the order of the sources, and it is finished only when all
have answered.
-/

namespace HostPolicy

open Journal

structure Load where
  source : Nat
  began : Nat
  /-- When it was answered or waited for no longer, and with what. -/
  ended : Option (Nat × Except SourceError (List UInt8))

inductive Ending where
  /-- All sources were asked, and what they answered was compiled. -/
  | finished
  | cancelled
  deriving DecidableEq

structure Round where
  who : Claimant
  began : Nat
  /-- The loads begun so far, in order. -/
  loads : List Load
  ended : Option (Nat × Ending)

namespace Load

def rules (l : Load) : List String :=
  match l.ended with
  | some (_, answer) => Engine.rulesOf answer
  | none => []

def finish (source moment : Nat) (answer : Except SourceError (List UInt8)) (l : Load) : Load :=
  if l.source = source ∧ l.ended.isNone then { l with ended := some (moment, answer) } else l

def Before (earlier later : Load) : Prop :=
  ∃ moment answer, earlier.ended = some (moment, answer) ∧ moment < later.began

/-- A load that began after one moment and of which nothing is told from another on. -/
def Within (first last : Nat) (l : Load) : Prop :=
  first < l.began ∧ l.began < last ∧
    ∀ moment answer, l.ended = some (moment, answer) → l.began < moment ∧ moment < last

end Load

namespace Round

def rules (r : Round) : List String :=
  r.loads.flatMap Load.rules

/-- The rule set that a cycle has come to: none before its end, or if it was cancelled or the rules
do not compile. -/
def ruleSet? (patterns : List String) (r : Round) : Option RuleSet :=
  match r.ended with
  | some (_, .finished) => (RuleSet.compile (patterns ++ r.rules)).toOption
  | _ => none

def beginLoad (moment source : Nat) (r : Round) : Round :=
  { r with loads := r.loads ++ [⟨source, moment, none⟩] }

def endLoad (moment source : Nat) (answer : Except SourceError (List UInt8)) (r : Round) : Round :=
  { r with loads := r.loads.map (Load.finish source moment answer) }

def finish (moment : Nat) (ending : Ending) (r : Round) : Round :=
  { r with ended := some (moment, ending) }

/-- The end of a cycle, or of the journal so far while it is running. -/
def limit (length : Nat) (r : Round) : Nat :=
  (r.ended.map Prod.fst).getD length

/-- The earlier cycle had ended when the later one began. -/
def Before (earlier later : Round) : Prop :=
  ∃ moment ending, earlier.ended = some (moment, ending) ∧ moment < later.began

/-- A cycle as it should be, among `count` sources and told by the first `length` entries. -/
structure Proper (count length : Nat) (r : Round) : Prop where
  began_lt : r.began < r.limit length
  ended_lt : ∀ moment ending, r.ended = some (moment, ending) → moment < length
  within : ∀ l ∈ r.loads, l.Within r.began (r.limit length)
  sources : r.loads.map Load.source = List.range r.loads.length
  sequential : r.loads.Pairwise Load.Before
  complete : ∀ moment, r.ended = some (moment, .finished) →
    r.loads.length = count ∧ ∀ l ∈ r.loads, l.ended.isSome

end Round

namespace Journal

/-- The cycles that a journal tells of, the latest first. -/
def rounds : List Entry → List Round
  | [] => []
  | entry :: earlier =>
    match entry.event with
    | .cycleBegan who => ⟨who, earlier.length, [], none⟩ :: rounds earlier
    | .loadBegan i => (rounds earlier).modifyHead (·.beginLoad earlier.length i)
    | .loadEnded i answer => (rounds earlier).modifyHead (·.endLoad earlier.length i answer)
    | .installed _ _ => (rounds earlier).modifyHead (·.finish earlier.length .finished)
    | .notCompiled _ => (rounds earlier).modifyHead (·.finish earlier.length .finished)
    | .cycleCancelled => (rounds earlier).modifyHead (·.finish earlier.length .cancelled)
    | _ => rounds earlier

theorem rounds_quiet {entry : Entry} (hquiet : entry.event.isQuiet = true)
    (earlier : List Entry) : rounds (entry :: earlier) = rounds earlier := by
  obtain ⟨time, event⟩ := entry
  cases event <;> first | rfl | contradiction

theorem rounds_append_quiet {told : List Entry}
    (hquiet : ∀ entry ∈ told, entry.event.isQuiet = true) (earlier : List Entry) :
    rounds (told ++ earlier) = rounds earlier := by
  induction told with
  | nil => rfl
  | cons entry told ih =>
      rw [List.cons_append, rounds_quiet (hquiet entry List.mem_cons_self)]
      exact ih fun other hmem => hquiet other (List.mem_cons_of_mem entry hmem)

end Journal

theorem Load.finish_of_ended {l : Load} (hended : l.ended.isSome) (source moment : Nat)
    (answer : Except SourceError (List UInt8)) : l.finish source moment answer = l := by
  have hnot : ¬(l.source = source ∧ l.ended.isNone) := by
    intro h
    rw [Option.isSome_iff_ne_none] at hended
    exact hended (Option.isNone_iff_eq_none.mp h.2)
  exact if_neg hnot

namespace Round.Proper

variable {count length : Nat} {r : Round}

theorem limit_of_running (running : r.ended = none) : r.limit length = length := by
  simp [Round.limit, running]

theorem mono {longer : Nat} (h : r.Proper count length) (hle : length ≤ longer) :
    r.Proper count longer := by
  have hlimit : r.limit length ≤ r.limit longer := by
    cases hended : r.ended <;> simp [Round.limit, hended, hle]
  refine ⟨Nat.lt_of_lt_of_le h.began_lt hlimit, ?_, ?_, h.sources, h.sequential, h.complete⟩
  · intro moment ending hended
    exact Nat.lt_of_lt_of_le (h.ended_lt moment ending hended) hle
  · intro l hmem
    obtain ⟨hbegan, hlast, hend⟩ := h.within l hmem
    refine ⟨hbegan, Nat.lt_of_lt_of_le hlast hlimit, ?_⟩
    intro moment answer hended
    obtain ⟨hafter, hbefore⟩ := hend moment answer hended
    exact ⟨hafter, Nat.lt_of_lt_of_le hbefore hlimit⟩

theorem beginning (who : Claimant) :
    (⟨who, length, [], none⟩ : Round).Proper count (length + 1) := by
  refine ⟨Nat.lt_succ_self length, ?_, ?_, rfl, .nil, ?_⟩ <;> simp

theorem beginLoad (h : r.Proper count length) (running : r.ended = none)
    (answered : ∀ l ∈ r.loads, l.ended.isSome) :
    (r.beginLoad length r.loads.length).Proper count (length + 1) := by
  have hlater := h.mono (Nat.le_succ length)
  have hlimit : r.limit length = length := limit_of_running running
  have hbegan := h.began_lt
  rw [hlimit] at hbegan
  refine ⟨hlater.began_lt, hlater.ended_lt, ?_, ?_, ?_, ?_⟩
  · intro l hmem
    rcases List.mem_append.mp hmem with hold | hnew
    · exact hlater.within l hold
    · rw [List.mem_singleton.mp hnew]
      refine ⟨hbegan, ?_, by simp⟩
      change length < r.limit (length + 1)
      rw [limit_of_running running]
      exact Nat.lt_succ_self length
  · simp [Round.beginLoad, h.sources, List.range_succ]
  · refine List.pairwise_append.mpr ⟨h.sequential, List.pairwise_singleton _ _, ?_⟩
    intro earlier hold later hnew
    obtain ⟨⟨moment, answer⟩, hended⟩ := Option.isSome_iff_exists.mp (answered earlier hold)
    have hlast := ((h.within earlier hold).2.2 moment answer hended).2
    rw [hlimit] at hlast
    rw [List.mem_singleton.mp hnew]
    exact ⟨moment, answer, hended, hlast⟩
  · intro moment hended
    rw [Round.beginLoad, running] at hended
    contradiction

/-- The load in progress is the last, and its end is told. -/
theorem loads_endLoad (length : Nat) {loads : List Load} {source began : Nat}
    (hloads : r.loads = loads ++ [⟨source, began, none⟩])
    (answered : ∀ l ∈ loads, l.ended.isSome) (answer : Except SourceError (List UInt8)) :
    (r.endLoad length source answer).loads = loads ++ [⟨source, began, some (length, answer)⟩] := by
  have hsame : loads.map (Load.finish source length answer) = loads := by
    calc loads.map (Load.finish source length answer)
        = loads.map id := List.map_congr_left fun l hmem =>
          Load.finish_of_ended (answered l hmem) source length answer
      _ = loads := List.map_id loads
  simp [Round.endLoad, hloads, hsame, Load.finish]

theorem endLoad {loads : List Load} {source began : Nat} (h : r.Proper count length)
    (running : r.ended = none) (hloads : r.loads = loads ++ [⟨source, began, none⟩])
    (answered : ∀ l ∈ loads, l.ended.isSome) (answer : Except SourceError (List UInt8)) :
    (r.endLoad length source answer).Proper count (length + 1) := by
  have hlater := h.mono (Nat.le_succ length)
  have hafter := loads_endLoad length hloads answered answer
  refine ⟨hlater.began_lt, hlater.ended_lt, ?_, ?_, ?_, ?_⟩
  · intro l hmem
    rw [hafter] at hmem
    rcases List.mem_append.mp hmem with hold | hnew
    · exact hlater.within l (by rw [hloads]; exact List.mem_append_left _ hold)
    · have hopen := h.within ⟨source, began, none⟩ (by simp [hloads])
      have hlast := hopen.2.1
      rw [limit_of_running running] at hlast
      rw [List.mem_singleton.mp hnew]
      change Load.Within r.began (r.limit (length + 1)) _
      rw [limit_of_running running]
      refine ⟨hopen.1, Nat.lt_succ_of_lt hlast, ?_⟩
      intro moment other hended
      cases hended
      exact ⟨hlast, Nat.lt_succ_self length⟩
  · rw [hafter]
    have hsources := h.sources
    rw [hloads] at hsources
    simpa using hsources
  · rw [hafter]
    have hsequential := h.sequential
    rw [hloads] at hsequential
    obtain ⟨hold, _, hacross⟩ := List.pairwise_append.mp hsequential
    refine List.pairwise_append.mpr ⟨hold, List.pairwise_singleton _ _, ?_⟩
    intro earlier hearlier later hnew
    rw [List.mem_singleton.mp hnew]
    exact hacross earlier hearlier ⟨source, began, none⟩ List.mem_cons_self
  · intro moment hended
    rw [Round.endLoad, running] at hended
    contradiction

theorem finish (h : r.Proper count length) (running : r.ended = none) (ending : Ending)
    (complete : ending = .finished → r.loads.length = count ∧ ∀ l ∈ r.loads, l.ended.isSome) :
    (r.finish length ending).Proper count (length + 1) := by
  have hlimit : r.limit length = (r.finish length ending).limit (length + 1) := by
    simp [Round.limit, Round.finish, running]
  refine ⟨?_, ?_, ?_, h.sources, h.sequential, ?_⟩
  · rw [← hlimit]
    exact h.began_lt
  · intro moment other hended
    cases hended
    exact Nat.lt_succ_self length
  · rw [← hlimit]
    exact h.within
  · intro moment hended
    cases hended
    exact complete rfl

end Round.Proper

namespace Round

variable {r : Round}

theorem ruleSet?_of_running (running : r.ended = none) (patterns : List String) :
    r.ruleSet? patterns = none := by
  simp [ruleSet?, running]

theorem rules_beginLoad (moment source : Nat) (r : Round) :
    (r.beginLoad moment source).rules = r.rules := by
  simp [rules, beginLoad, Load.rules]

/-- The answer to the load in progress adds its rules after those of the loads before. -/
theorem rules_endLoad (moment : Nat) {loads : List Load} {source began : Nat}
    (hloads : r.loads = loads ++ [⟨source, began, none⟩])
    (answered : ∀ l ∈ loads, l.ended.isSome) (answer : Except SourceError (List UInt8)) :
    (r.endLoad moment source answer).rules = r.rules ++ Engine.rulesOf answer := by
  have hafter := Proper.loads_endLoad moment hloads answered answer
  simp [rules, hafter, hloads, Load.rules]

end Round

def Journal.ruleSets (patterns : List String) (rounds : List Round) : List RuleSet :=
  rounds.filterMap (Round.ruleSet? patterns)

section RuleSets

variable {r : Round} {patterns : List String} {rest : List Round}

theorem ruleSets_running (running : r.ended = none) :
    ruleSets patterns (r :: rest) = ruleSets patterns rest :=
  List.filterMap_cons_none (r.ruleSet?_of_running running patterns)

theorem ruleSets_cancelled (moment : Nat) :
    ruleSets patterns (r.finish moment .cancelled :: rest) = ruleSets patterns rest :=
  List.filterMap_cons_none rfl

theorem ruleSets_finished (moment : Nat) {rules : RuleSet}
    (compiles : RuleSet.compile (patterns ++ r.rules) = .ok rules) :
    ruleSets patterns (r.finish moment .finished :: rest) = rules :: ruleSets patterns rest := by
  refine List.filterMap_cons_some ?_
  change (RuleSet.compile (patterns ++ r.rules)).toOption = some rules
  rw [compiles]
  rfl

theorem ruleSets_notCompiled (moment : Nat) {error : RuleError}
    (fails : RuleSet.compile (patterns ++ r.rules) = .error error) :
    ruleSets patterns (r.finish moment .finished :: rest) = ruleSets patterns rest := by
  refine List.filterMap_cons_none ?_
  change (RuleSet.compile (patterns ++ r.rules)).toOption = none
  rw [fails]
  rfl

end RuleSets

/-! ### The cycles of a journal that keeps to the grammar -/

/-- What the latest cycle looks like at a stage. -/
def Journal.Stage.Shows : Stage → List Round → Prop
  | .resting _, rounds => ∀ r ∈ rounds, r.ended.isSome
  | .asking next, rounds => ∃ r rest, rounds = r :: rest ∧ r.ended = none ∧
      r.loads.length = next ∧ ∀ l ∈ r.loads, l.ended.isSome
  | .loading source, rounds => ∃ r rest loads began, rounds = r :: rest ∧ r.ended = none ∧
      r.loads = loads ++ [⟨source, began, none⟩] ∧ loads.length = source ∧
      ∀ l ∈ loads, l.ended.isSome

/-- What is told of cycles at a stage. -/
structure Chronicle (count : Nat) (journal : List Entry) (stage : Stage) : Prop where
  proper : ∀ r ∈ rounds journal, r.Proper count journal.length
  serial : (rounds journal).Pairwise fun later earlier => earlier.Before later
  current : stage.Shows (rounds journal)

namespace Chronicle

variable {count : Nat} {earlier : List Entry} {stage next : Stage} {entry : Entry}

/-- The latest cycle goes on: it keeps its beginning, and those before it are as they were. -/
theorem goOn {r after : Round} {rest : List Round} (h : Chronicle count earlier stage)
    (hrounds : rounds earlier = r :: rest) (hafter : rounds (entry :: earlier) = after :: rest)
    (hbegan : after.began = r.began) (hproper : after.Proper count (earlier.length + 1))
    (hshows : next.Shows (after :: rest)) : Chronicle count (entry :: earlier) next := by
  have hold := h.proper
  have hserial := h.serial
  rw [hrounds] at hold hserial
  obtain ⟨hbefore, hrest⟩ := List.pairwise_cons.mp hserial
  refine ⟨?_, ?_, ?_⟩
  · intro q hmem
    rw [hafter] at hmem
    rcases List.mem_cons.mp hmem with rfl | hother
    · exact hproper
    · exact (hold q (List.mem_cons_of_mem r hother)).mono (Nat.le_succ earlier.length)
  · rw [hafter]
    refine List.pairwise_cons.mpr ⟨?_, hrest⟩
    intro q hmem
    obtain ⟨moment, ending, hended, hlt⟩ := hbefore q hmem
    exact ⟨moment, ending, hended, hbegan ▸ hlt⟩
  · rw [hafter]
    exact hshows

theorem finish {r : Round} {rest : List Round} (h : Chronicle count earlier stage)
    (hrounds : rounds earlier = r :: rest) (running : r.ended = none) (ending : Ending)
    (complete : ending = .finished → r.loads.length = count ∧ ∀ l ∈ r.loads, l.ended.isSome)
    (hafter : rounds (entry :: earlier) =
      (rounds earlier).modifyHead (·.finish earlier.length ending)) :
    Chronicle count (entry :: earlier) (.resting 0) := by
  have hproper := h.proper r (by rw [hrounds]; exact List.mem_cons_self)
  rw [hrounds, List.modifyHead_cons] at hafter
  refine h.goOn hrounds hafter rfl (hproper.finish running ending complete) ?_
  have hserial := h.serial
  rw [hrounds] at hserial
  intro q hmem
  rcases List.mem_cons.mp hmem with rfl | hother
  · rfl
  · obtain ⟨moment, other, hended, _⟩ := (List.pairwise_cons.mp hserial).1 q hother
    rw [hended]
    rfl

end Chronicle

theorem Journal.Conduct.chronicle {count : Nat} {journal : List Entry} {stage : Stage}
    (hconduct : Conduct count journal stage) : Chronicle count journal stage := by
  induction hconduct with
  | start => exact ⟨by simp [rounds], by simp [rounds], by simp [Stage.Shows, rounds]⟩
  | @cycleBegan earlier time who before ih =>
      refine ⟨?_, ?_, ⟨_, _, rfl, rfl, rfl, by simp⟩⟩
      · intro r hmem
        rcases List.mem_cons.mp hmem with rfl | hold
        · exact .beginning who
        · exact (ih.proper r hold).mono (Nat.le_succ earlier.length)
      · refine List.pairwise_cons.mpr ⟨?_, ih.serial⟩
        intro r hmem
        obtain ⟨⟨moment, ending⟩, hended⟩ := Option.isSome_iff_exists.mp (ih.current r hmem)
        exact ⟨moment, ending, hended, (ih.proper r hmem).ended_lt moment ending hended⟩
  | @loadBegan earlier i time known before ih =>
      obtain ⟨r, rest, hrounds, running, hlength, answered⟩ := ih.current
      have hproper := ih.proper r (by rw [hrounds]; exact List.mem_cons_self)
      subst hlength
      have hrounds' : rounds (⟨time, .loadBegan r.loads.length⟩ :: earlier) =
          r.beginLoad earlier.length r.loads.length :: rest := by simp [rounds, hrounds]
      refine ih.goOn hrounds hrounds' rfl (hproper.beginLoad running answered) ?_
      exact ⟨_, _, r.loads, earlier.length, rfl, running, rfl, rfl, answered⟩
  | @loadEnded earlier i time answer before ih =>
      obtain ⟨r, rest, loads, began, hrounds, running, hloads, hlength, answered⟩ := ih.current
      have hproper := ih.proper r (by rw [hrounds]; exact List.mem_cons_self)
      have hafter := Round.Proper.loads_endLoad earlier.length hloads answered answer
      have hrounds' : rounds (⟨time, .loadEnded i answer⟩ :: earlier) =
          r.endLoad earlier.length i answer :: rest := by simp [rounds, hrounds]
      refine ih.goOn hrounds hrounds' rfl (hproper.endLoad running hloads answered answer)
        ⟨_, _, rfl, running, ?_, ?_⟩
      · rw [hafter]
        simp [hlength]
      · rw [hafter]
        intro l hmem
        rcases List.mem_append.mp hmem with hold | hnew
        · exact answered l hold
        · rw [List.mem_singleton.mp hnew]
          rfl
  | installed time version rules before ih =>
      obtain ⟨r, rest, hrounds, running, hlength, answered⟩ := ih.current
      exact ih.finish hrounds running .finished (fun _ => ⟨hlength, answered⟩) rfl
  | notCompiled time error before ih =>
      obtain ⟨r, rest, hrounds, running, hlength, answered⟩ := ih.current
      exact ih.finish hrounds running .finished (fun _ => ⟨hlength, answered⟩) rfl
  | cancelledAsking time before ih =>
      obtain ⟨r, rest, hrounds, running, _, _⟩ := ih.current
      exact ih.finish hrounds running .cancelled (by simp) rfl
  | cancelledLoading time before ih =>
      obtain ⟨r, rest, _, _, hrounds, running, _, _, _⟩ := ih.current
      exact ih.finish hrounds running .cancelled (by simp) rfl
  | @sourceClosed earlier i time error known before ih =>
      refine ⟨?_, ih.serial, ih.current⟩
      exact fun r hmem => (ih.proper r hmem).mono (Nat.le_succ earlier.length)
  | @quiet earlier stage entry isQuiet before ih =>
      have hsame := rounds_quiet isQuiet earlier
      refine ⟨?_, hsame ▸ ih.serial, hsame ▸ ih.current⟩
      rw [hsame]
      exact fun r hmem => (ih.proper r hmem).mono (Nat.le_succ earlier.length)

end HostPolicy
