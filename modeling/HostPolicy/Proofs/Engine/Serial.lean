import HostPolicy.Proofs.Engine.Provenance

/-!
# Cycles run one after another

All of a cycle, its loads and its end, lies before all of the next. Hence the rule set in use only
ever gives way to one whose sources were all asked later, and once the cycle of a reload has
compiled, the rules in use were asked for after that reload was called.
-/

namespace HostPolicy

open Journal

/-- The later cycle began, and then asked its sources, after the earlier one had ended and none of
its loads was in progress. -/
def Round.Precedes (earlier later : Round) : Prop :=
  ∃ moment ending, earlier.ended = some (moment, ending) ∧
    (∀ l ∈ earlier.loads, l.Within earlier.began moment) ∧
    moment < later.began ∧
    (∀ l ∈ later.loads, later.began < l.began) ∧
    ∀ moment ending, later.ended = some (moment, ending) → later.began < moment

/-- The same cycle at a later time: once it has ended, it changes no more. -/
structure Round.Continues (r later : Round) : Prop where
  who : later.who = r.who
  began : later.began = r.began
  ended : r.ended.isSome → later = r

/-- The latest cycle that compiled. -/
def Journal.latest? (patterns : List String) (rounds : List Round) : Option Round :=
  rounds.find? fun r => (r.ruleSet? patterns).isSome

namespace Journal

theorem latest?_bind_ruleSet? (patterns : List String) (rounds : List Round) :
    (latest? patterns rounds).bind (Round.ruleSet? patterns) =
      (ruleSets patterns rounds).head? := by
  induction rounds with
  | nil => rfl
  | cons r rest ih =>
      cases hset : r.ruleSet? patterns with
      | none => simpa [latest?, ruleSets, hset] using ih
      | some rules => simp [latest?, ruleSets, hset]

end Journal

section Rounds

variable {count : Nat} {journal earlier told : List Entry} {stage : Stage}

theorem Round.Continues.refl (r : Round) : r.Continues r := ⟨rfl, rfl, fun _ => rfl⟩

theorem Round.Continues.trans {r s t : Round} (hfirst : r.Continues s) (hsecond : s.Continues t) :
    r.Continues t := by
  refine ⟨hsecond.who.trans hfirst.who, hsecond.began.trans hfirst.began, ?_⟩
  intro hended
  have hsame := hfirst.ended hended
  subst hsame
  exact hsecond.ended hended

/-- The cycles told of later: those told of before, once they have ended, are among them, and of
each it is known which it was before or when it began. -/
structure Grows (told earlier : List Entry) : Prop where
  kept : ∀ r ∈ rounds earlier, r.ended.isSome → r ∈ rounds (told ++ earlier)
  former : ∀ s ∈ rounds (told ++ earlier), (∃ r ∈ rounds earlier, r.Continues s) ∨
    (earlier.length ≤ s.began ∧ ∃ time, ⟨time, .cycleBegan s.who⟩ ∈ told)

theorem Grows.refl (earlier : List Entry) : Grows [] earlier :=
  ⟨fun _ hmem _ => hmem, fun s hmem => Or.inl ⟨s, hmem, .refl s⟩⟩

theorem Grows.cons {entry : Entry} (h : Grows told earlier)
    (hentry : Grows [entry] (told ++ earlier)) : Grows (entry :: told) earlier := by
  refine ⟨?_, ?_⟩
  · intro r hmem hended
    exact hentry.kept r (h.kept r hmem hended) hended
  · intro s hmem
    rcases hentry.former s hmem with ⟨r, hformer, hgoesOn⟩ | ⟨hlater, time, hbegan⟩
    · rcases h.former r hformer with ⟨q, hq, hfirst⟩ | ⟨hlater, time, hbegan⟩
      · exact Or.inl ⟨q, hq, hfirst.trans hgoesOn⟩
      · refine Or.inr ⟨hgoesOn.began ▸ hlater, time, ?_⟩
        rw [hgoesOn.who]
        exact List.mem_cons_of_mem entry hbegan
    · refine Or.inr ⟨?_, time, ?_⟩
      · rw [List.length_append] at hlater
        omega
      · rw [List.mem_singleton.mp hbegan]
        exact List.mem_cons_self

/-- The latest cycle goes on. -/
theorem Grows.goOn {entry : Entry} {r : Round} {rest : List Round}
    (hrounds : rounds earlier = r :: rest) (running : r.ended = none) (change : Round → Round)
    (hchange : rounds (entry :: earlier) = (rounds earlier).modifyHead change)
    (hwho : (change r).who = r.who) (hbegan : (change r).began = r.began) :
    Grows [entry] earlier := by
  have hafter : rounds (entry :: earlier) = change r :: rest := by
    rw [hchange, hrounds, List.modifyHead_cons]
  refine ⟨?_, ?_⟩
  · intro q hmem hended
    rw [hrounds] at hmem
    rw [List.singleton_append, hafter]
    rcases List.mem_cons.mp hmem with rfl | hrest
    · rw [running] at hended
      contradiction
    · exact List.mem_cons_of_mem (change r) hrest
  · intro s hmem
    rw [List.singleton_append, hafter] at hmem
    rw [hrounds]
    rcases List.mem_cons.mp hmem with rfl | hrest
    · refine Or.inl ⟨r, List.mem_cons_self, hwho, hbegan, ?_⟩
      rw [running]
      simp
    · exact Or.inl ⟨s, List.mem_cons_of_mem r hrest, .refl s⟩

theorem Grows.of_same {entry : Entry} (hrounds : rounds (entry :: earlier) = rounds earlier) :
    Grows [entry] earlier := by
  refine ⟨?_, ?_⟩
  · intro r hmem _
    rwa [List.singleton_append, hrounds]
  · intro s hmem
    rw [List.singleton_append, hrounds] at hmem
    exact Or.inl ⟨s, hmem, .refl s⟩

theorem grows_singleton {entry : Entry} (hconduct : Conduct count (entry :: earlier) stage) :
    Grows [entry] earlier := by
  cases hconduct with
  | cycleBegan time who before =>
      refine ⟨fun r hmem _ => List.mem_cons_of_mem _ hmem, ?_⟩
      intro s hmem
      rcases List.mem_cons.mp hmem with rfl | hold
      · exact Or.inr ⟨Nat.le_refl _, time, List.mem_cons_self⟩
      · exact Or.inl ⟨s, hold, .refl s⟩
  | loadBegan time known before =>
      obtain ⟨r, rest, hrounds, running, _⟩ := before.chronicle.current
      exact .goOn hrounds running (·.beginLoad earlier.length _) rfl rfl rfl
  | loadEnded time answer before =>
      obtain ⟨r, rest, _, _, hrounds, running, _⟩ := before.chronicle.current
      exact .goOn hrounds running (·.endLoad earlier.length _ answer) rfl rfl rfl
  | installed time version rules before =>
      obtain ⟨r, rest, hrounds, running, _⟩ := before.chronicle.current
      exact .goOn hrounds running (·.finish earlier.length .finished) rfl rfl rfl
  | notCompiled time error before =>
      obtain ⟨r, rest, hrounds, running, _⟩ := before.chronicle.current
      exact .goOn hrounds running (·.finish earlier.length .finished) rfl rfl rfl
  | cancelledAsking time before =>
      obtain ⟨r, rest, hrounds, running, _⟩ := before.chronicle.current
      exact .goOn hrounds running (·.finish earlier.length .cancelled) rfl rfl rfl
  | cancelledLoading time before =>
      obtain ⟨r, rest, _, _, hrounds, running, _⟩ := before.chronicle.current
      exact .goOn hrounds running (·.finish earlier.length .cancelled) rfl rfl rfl
  | sourceClosed time error known before => exact .of_same rfl
  | quiet entry isQuiet before => exact .of_same (rounds_quiet isQuiet earlier)

theorem grows (hconduct : Conduct count (told ++ earlier) stage) : Grows told earlier := by
  induction told generalizing stage with
  | nil => exact .refl earlier
  | cons entry told ih =>
      obtain ⟨_, hrest⟩ := hconduct.tail
      exact (ih hrest).cons (grows_singleton hconduct)

/-! ### The order of cycles -/

theorem Round.Proper.precedes {length : Nat} {r s : Round} (hr : r.Proper count length)
    (hs : s.Proper count length) (hbefore : r.Before s) : r.Precedes s := by
  obtain ⟨moment, ending, hended, hlt⟩ := hbefore
  have hlimit : r.limit length = moment := by simp [Round.limit, hended]
  refine ⟨moment, ending, hended, ?_, hlt, ?_, ?_⟩
  · intro l hmem
    exact hlimit ▸ hr.within l hmem
  · intro l hmem
    exact (hs.within l hmem).1
  · intro last other hlast
    have hbegan := hs.began_lt
    rwa [Round.limit, hlast] at hbegan

theorem Chronicle.pairwise_precedes (h : Chronicle count journal stage) :
    (rounds journal).Pairwise fun later earlier => earlier.Precedes later := by
  refine h.serial.imp_of_mem ?_
  intro later earlier hlater hearlier hbefore
  exact (h.proper earlier hearlier).precedes (h.proper later hlater) hbefore

/-- Of the cycles told of, only the latest can be running. -/
theorem Chronicle.countP_running_le_one (h : Chronicle count journal stage) :
    (rounds journal).countP (·.ended.isNone) ≤ 1 := by
  have hserial := h.serial
  cases hrounds : rounds journal with
  | nil => simp
  | cons r rest =>
      rw [hrounds] at hserial
      have hrest : rest.countP (·.ended.isNone) = 0 := by
        rw [List.countP_eq_zero]
        intro q hmem
        obtain ⟨moment, ending, hended, _⟩ := (List.pairwise_cons.mp hserial).1 q hmem
        simp [hended]
      rw [List.countP_cons, hrest]
      split <;> omega

/-- The latest cycle that compiled is any other one that did, or came after it. -/
theorem Chronicle.latest?_of_mem (h : Chronicle count journal stage) {patterns : List String}
    {r : Round} (hmem : r ∈ rounds journal) (hset : (r.ruleSet? patterns).isSome) :
    ∃ s, latest? patterns (rounds journal) = some s ∧ (s = r ∨ r.Precedes s) := by
  have hordered := h.pairwise_precedes
  generalize rounds journal = list at hmem hordered
  induction list with
  | nil => contradiction
  | cons head rest ih =>
      obtain ⟨hhead, hrest⟩ := List.pairwise_cons.mp hordered
      by_cases hfound : (head.ruleSet? patterns).isSome
      · refine ⟨head, List.find?_cons_of_pos hfound, ?_⟩
        rcases List.mem_cons.mp hmem with rfl | hlater
        · exact Or.inl rfl
        · exact Or.inr (hhead r hlater)
      · have hlater : r ∈ rest := by
          rcases List.mem_cons.mp hmem with rfl | hlater
          · exact absurd hset hfound
          · exact hlater
        obtain ⟨s, hs, horder⟩ := ih hlater hrest
        refine ⟨s, ?_, horder⟩
        calc latest? patterns (head :: rest) = latest? patterns rest :=
              List.find?_cons_of_neg hfound
          _ = some s := hs

theorem Journal.mem_of_latest? {patterns : List String} {list : List Round} {r : Round}
    (hlatest : latest? patterns list = some r) : r ∈ list ∧ (r.ruleSet? patterns).isSome := by
  unfold latest? at hlatest
  have hset := List.find?_some hlatest
  exact ⟨List.mem_of_find?_eq_some hlatest, hset⟩

theorem Round.ended_of_ruleSet? {patterns : List String} {r : Round}
    (hset : (r.ruleSet? patterns).isSome) : r.ended.isSome := by
  cases hended : r.ended with
  | none => simp [r.ruleSet?_of_running hended] at hset
  | some moment => rfl

theorem Round.Precedes.began_le {r s : Round} {length : Nat} (hproper : r.Proper count length)
    (hprecedes : r.Precedes s) : r.began ≤ s.began := by
  obtain ⟨moment, ending, hended, _, hlt, _⟩ := hprecedes
  have hbegan := hproper.began_lt
  rw [Round.limit, hended] at hbegan
  exact Nat.le_of_lt (Nat.lt_trans hbegan hlt)

/-- The loads of a cycle, or of one after it, begin after it did. -/
theorem Chronicle.began_lt_load (h : Chronicle count journal stage) {r s : Round}
    (hr : r ∈ rounds journal) (hs : s ∈ rounds journal) (horder : s = r ∨ r.Precedes s) {l : Load}
    (hload : l ∈ s.loads) : r.began < l.began := by
  have hbegan : s.began < l.began := ((h.proper s hs).within l hload).1
  rcases horder with rfl | hprecedes
  · exact hbegan
  · exact Nat.lt_of_le_of_lt (hprecedes.began_le (h.proper r hr)) hbegan

end Rounds

namespace Engine

variable {e later : Engine}

/-! ### Reloads that were not called for have no cycle -/

/-- A cycle told of is one that was told to have begun. -/
theorem cycleBegan_mem {count : Nat} {journal : List Entry} {stage : Stage}
    (hconduct : Conduct count journal stage) {r : Round} (hmem : r ∈ rounds journal) :
    ∃ time, ⟨time, .cycleBegan r.who⟩ ∈ journal := by
  have hall : Grows journal [] := grows (by rwa [List.append_nil])
  rcases hall.former r (by rwa [List.append_nil]) with ⟨q, hq, _⟩ | ⟨_, hbegan⟩
  · contradiction
  · exact hbegan

/-- Cycles are run for reloads that were called for. -/
def CallsTold (e : Engine) : Prop :=
  ∀ time call, ⟨time, .cycleBegan (.manual call)⟩ ∈ e.journal → call < e.calls

theorem CallsTold.move (h : CallsTold e) (horder : Orderly e) (hmove : Move e later) :
    CallsTold later := by
  obtain ⟨told, hjournal, htold⟩ := hmove.told
  intro time call hmem
  rw [hjournal] at hmem
  refine Nat.lt_of_lt_of_le ?_ hmove.calls_le
  rcases List.mem_append.mp hmem with hnew | hold
  · have turn : e.HasTurn (.manual call) := (htold _ hnew).2.1
    exact horder.called call (List.mem_of_mem_head? (by simp [turn.head]))
  · exact h time call hold

theorem callsTold_run (construction : Construction) (actions : List Action) :
    CallsTold (construction.start.steps actions) := by
  refine run_induction ?_ (fun _ _ horder _ h hmove => h.move horder hmove) actions
  intro time call hmem
  obtain ⟨error, hevent⟩ := (fresh_start construction).told _ hmem
  contradiction

/-- The cycle of a reload begins after that was called for. -/
theorem CallsTold.length_le_began (h : CallsTold e) {count count' : Nat} {stage stage' : Stage}
    {told : List Entry} (hbefore : Conduct count e.journal stage)
    (hconduct : Conduct count' (told ++ e.journal) stage') {r : Round}
    (hmem : r ∈ rounds (told ++ e.journal)) (hwho : r.who = .manual e.calls) :
    e.journal.length ≤ r.began := by
  rcases (grows hconduct).former r hmem with ⟨q, hq, hgoesOn⟩ | hnew
  · -- A cycle told of before the call is of an earlier reload, which had a smaller number.
    obtain ⟨time, hbegan⟩ := cycleBegan_mem hbefore hq
    rw [← hgoesOn.who, hwho] at hbegan
    exact absurd (h time _ hbegan) (Nat.lt_irrefl _)
  · exact hnew.1

/-- A cycle that is running is the latest, and its claimant holds the head of the queue. -/
theorem Provenance.head?_of_running {start e : Engine} (h : Provenance start e)
    (hchronicle : Chronicle e.world.sources.length e.journal e.stage) {r : Round}
    (hmem : r ∈ rounds e.journal) (running : r.ended = none) :
    e.cycle.isSome ∧ e.queue.head? = some r.who := by
  cases hcycle : e.cycle with
  | none =>
      have hended := hchronicle.current
      rw [stage_of_idle hcycle] at hended
      have hsome := hended r hmem
      rw [running] at hsome
      contradiction
  | some c =>
      obtain ⟨latest, rest, hrounds, _, _, hhead⟩ := h.current c hcycle
      have hserial := hchronicle.serial
      rw [hrounds] at hmem hserial
      rcases List.mem_cons.mp hmem with rfl | hrest
      · exact ⟨rfl, hhead⟩
      · obtain ⟨moment, ending, hended, _⟩ := (List.pairwise_cons.mp hserial).1 r hrest
        rw [running] at hended
        contradiction

/-! ### The rules in use -/

/-- At any time at most one cycle is running, by the claimant at the head of the queue; all of a
cycle comes before all of the next; and the rules in use are those of the latest that compiled.
These only give way to those of a later one, and after the cycle of a reload that compiled, no load
that they are from had begun before that reload was called. -/
theorem cycles_serial (construction : Construction) (actions : List Action) :
    let start := construction.start
    let patterns := start.settings.patterns
    let e := start.steps actions
    (rounds e.journal).countP (·.ended.isNone) ≤ 1 ∧
    (∀ r ∈ rounds e.journal, r.ended = none → e.cycle.isSome ∧ e.queue.head? = some r.who) ∧
    ((rounds e.journal).Pairwise fun later earlier => earlier.Precedes later) ∧
    e.rules = ((latest? patterns (rounds e.journal)).bind (·.ruleSet? patterns)).getD start.rules ∧
    (∀ more r, latest? patterns (rounds e.journal) = some r →
      ∃ s, latest? patterns (rounds (e.steps more).journal) = some s ∧ (s = r ∨ r.Precedes s)) ∧
    ∀ more, let later := (e.step .reload).steps more
      ∀ r ∈ rounds later.journal, r.who = .manual e.calls → (r.ruleSet? patterns).isSome →
        ∃ s, latest? patterns (rounds later.journal) = some s ∧
          ∀ l ∈ s.loads, e.journal.length ≤ l.began := by
  intro start patterns e
  have hprovenance : Provenance start e := provenance_run construction actions
  have hconduct : Conduct e.world.sources.length e.journal e.stage :=
    conducted_run construction actions
  have hchronicle := hconduct.chronicle
  have hlater : ∀ more, Conduct (e.steps more).world.sources.length (e.steps more).journal
      (e.steps more).stage := by
    intro more
    have hrun : e.steps more = start.steps (actions ++ more) := (steps_append _ _ _).symm
    rw [hrun]
    exact conducted_run construction (actions ++ more)
  refine ⟨hchronicle.countP_running_le_one, ?_, hchronicle.pairwise_precedes, ?_, ?_, ?_⟩
  · intro r hmem running
    exact hprovenance.head?_of_running hchronicle hmem running
  · rw [latest?_bind_ruleSet?, hprovenance.rules, List.headD_eq_head?_getD]
  · intro more r hlatest
    obtain ⟨hmem, hset⟩ := mem_of_latest? hlatest
    obtain ⟨told, hjournal⟩ := e.steps_journal more
    have hgrows : Grows told e.journal := grows (hjournal ▸ hlater more)
    have hkept := hgrows.kept r hmem (Round.ended_of_ruleSet? hset)
    rw [← hjournal] at hkept
    exact (hlater more).chronicle.latest?_of_mem hkept hset
  · intro more later r hmem hwho hset
    obtain ⟨told, hjournal⟩ := e.steps_journal (.reload :: more)
    have hlaterJournal : later.journal = told ++ e.journal := hjournal
    have hafter := hlater (.reload :: more)
    have hall := hafter.chronicle
    rw [hjournal] at hafter
    have hbegan : e.journal.length ≤ r.began :=
      (callsTold_run construction actions).length_le_began hconduct hafter (hlaterJournal ▸ hmem)
        hwho
    obtain ⟨s, hlatest, horder⟩ := hall.latest?_of_mem hmem hset
    refine ⟨s, hlatest, ?_⟩
    intro l hload
    have hlt : r.began < l.began := hall.began_lt_load hmem (mem_of_latest? hlatest).1 horder hload
    omega

theorem cycles_serial_reload :
    let e := Construction.lone.start.steps (turns 4)
    let later := (e.step .reload).steps (turns 4)
    ∃ s, latest? [] (rounds later.journal) = some s ∧
      ∀ l ∈ s.loads, e.journal.length ≤ l.began := by
  intro e later
  let reloaded : Round := ⟨.manual 0, 6, [⟨0, 7, some (8, .ok [])⟩], some (9, .finished)⟩
  have hmem : reloaded ∈ rounds later.journal := by exact List.mem_cons_self
  obtain ⟨_, _, _, _, _, hfresh⟩ := cycles_serial Construction.lone (turns 4)
  exact hfresh (turns 4) reloaded hmem rfl rfl

end Engine

end HostPolicy
