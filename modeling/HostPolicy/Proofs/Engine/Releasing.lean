import HostPolicy.Proofs.Engine.CloseReturns
import HostPolicy.Proofs.Engine.Provenance
import HostPolicy.Proofs.Engine.SourceCalls

/-!
# Close releases every source and reports the first failure

The call that closes closes all sources, in their order and once each, whether or not those before
have reported an error. It logs every error and answers with the first. By then every cycle has
ended, so that the rules are those of the latest that came to a rule set; and calls that find the
engine closed report nothing.
-/

namespace HostPolicy

open Journal

/-! ### What sources report when they are closed -/

def Source.closeError (store : String → Store) : Source → Option SourceError
  | collection _ name _ => (store name).closeError.map .store
  | scripted script => script.closeError
  | _ => none

namespace World

/-- What a source reports if it is closed. -/
def closeError (w : World) (i : Nat) : Option SourceError :=
  (w.close i).2

variable (w : World)

theorem closeError_eq (i : Nat) :
    w.closeError i = w.sources[i]?.bind (Source.closeError w.store) := by
  unfold closeError World.close
  cases w.sources[i]? with
  | none => rfl
  | some source => cases source <;> rfl

theorem lookup_filter_of_ne {stores : List (String × Store)} {name other : String}
    (hne : other ≠ name) : (stores.filter (·.1 != name)).lookup other = stores.lookup other := by
  induction stores with
  | nil => rfl
  | cons entry stores ih =>
      obtain ⟨key, store⟩ := entry
      by_cases hkey : key = name
      · subst hkey
        have hmiss : (other == key) = false := beq_false_of_ne hne
        simp [List.lookup_cons, hmiss, ih]
      · simp [hkey, List.lookup_cons, ih]

theorem store_setStore (name other : String) (store : Store) :
    (w.setStore name store).store other = if other = name then store else w.store other := by
  by_cases hname : other = name
  · simp [World.store, setStore, hname]
  · have hmiss : (other == name) = false := beq_false_of_ne hname
    simp [World.store, setStore, List.lookup_cons, hmiss, hname, lookup_filter_of_ne hname]

/-- Worlds in which the sources cannot be told apart when they are closed. -/
structure Alike (w other : World) : Prop where
  names : other.sources.map Source.name = w.sources.map Source.name
  errors : ∀ i, other.closeError i = w.closeError i

theorem Alike.refl : Alike w w := ⟨rfl, fun _ => rfl⟩

variable {w} in
theorem Alike.trans {middle other : World} (hfirst : Alike w middle)
    (hsecond : Alike middle other) : Alike w other :=
  ⟨hsecond.names.trans hfirst.names, fun i => (hsecond.errors i).trans (hfirst.errors i)⟩

theorem alike_beginLoad (i : Nat) : Alike w (w.beginLoad i) := by
  have hsame : ∀ source : Source, source.begun.name = source.name ∧
      ∀ store, source.begun.closeError store = source.closeError store := by
    intro source
    cases source <;> exact ⟨rfl, fun _ => rfl⟩
  constructor
  · apply List.ext_getElem?
    intro j
    simp only [beginLoad, List.getElem?_map, List.getElem?_modify]
    split <;> simp [hsame, Function.comp_def]
  · intro j
    rw [closeError_eq, closeError_eq]
    change ((w.sources.modify i Source.begun)[j]?).bind (Source.closeError w.store) = _
    rw [List.getElem?_modify]
    split
    · cases w.sources[j]? with
      | none => rfl
      | some source => exact (hsame source).2 w.store
    · rw [id_map']

/-- A source in the place of one that has its name and reports the same. -/
theorem alike_setSource {i : Nat} {former source : Source} (hformer : w.sources[i]? = some former)
    (hname : source.name = former.name)
    (herror : source.closeError w.store = former.closeError w.store) :
    Alike w (w.setSource i source) := by
  have hget : ∀ j, (w.setSource i source).sources[j]? =
      if i = j then some source else w.sources[j]? := by
    intro j
    have hlt := (List.getElem?_eq_some_iff.mp hformer).1
    by_cases hij : i = j
    · subst hij
      simp [setSource, hlt]
    · simp [setSource, hij]
  constructor
  · apply List.ext_getElem?
    intro j
    rw [List.getElem?_map, List.getElem?_map, hget]
    split
    · next hij => rw [← hij, hformer, Option.map_some, Option.map_some, hname]
    · rfl
  · intro j
    rw [closeError_eq, closeError_eq, hget]
    split
    · next hij =>
        rw [← hij, hformer]
        exact herror
    · rfl

/-- What a source reports does not depend on which sources were closed before it. -/
theorem alike_close (i : Nat) : Alike w (w.close i).1 := by
  unfold World.close
  split
  · next hsource => exact w.alike_setSource hsource rfl rfl
  · next layout name key hsource =>
      refine ⟨rfl, ?_⟩
      intro j
      have hstore : ∀ other, ((w.setStore name (w.store name).close.1).store other).closeError =
          (w.store other).closeError := by
        intro other
        rw [store_setStore]
        split
        · next heq => rw [heq]; rfl
        · rfl
      have herror : Source.closeError (w.setStore name (w.store name).close.1).store =
          Source.closeError w.store := by
        funext source
        cases source <;> simp [Source.closeError, hstore]
      rw [closeError_eq, closeError_eq, herror]
      rfl
  · next hsource => exact w.alike_setSource hsource rfl rfl
  · exact .refl w

end World

/-! ### Closings told of -/

def Event.closing? : Event → Option (Nat × Option SourceError)
  | sourceClosed i failed => some (i, failed)
  | _ => none

/-- The sources that were closed, in order, with what each reported. -/
def Journal.closings (journal : List Entry) : List (Nat × Option SourceError) :=
  journal.reverse.filterMap fun entry => entry.event.closing?

section Closings

variable (earlier : List Entry)

theorem closings_append (told : List Entry) :
    closings (told ++ earlier) = closings earlier ++ closings told := by
  simp [closings]

theorem closings_append_of_none {told : List Entry}
    (hnone : ∀ entry ∈ told, entry.event.closing? = none) :
    closings (told ++ earlier) = closings earlier := by
  have htold : closings told = [] := by
    apply List.filterMap_eq_nil_iff.mpr
    intro entry hmem
    exact hnone entry (List.mem_reverse.mp hmem)
  rw [closings_append, htold, List.append_nil]

theorem closings_cons_of_none {entry : Entry} (hnone : entry.event.closing? = none) :
    closings (entry :: earlier) = closings earlier := by
  rw [← List.singleton_append, closings_append_of_none]
  simpa using hnone

theorem closings_cons_sourceClosed (time i : Nat) (failed : Option SourceError) :
    closings (⟨time, .sourceClosed i failed⟩ :: earlier) = closings earlier ++ [(i, failed)] :=
  closings_append earlier [⟨time, .sourceClosed i failed⟩]

end Closings

theorem Event.closing?_quiet {event : Event} (hquiet : event.isQuiet = true) :
    event.closing? = none := by
  cases event <;> first | rfl | contradiction

/-- Sources are closed in their order, and none twice. -/
theorem Journal.Conduct.closings_eq_range {count : Nat} {journal : List Entry} {stage : Stage}
    (hconduct : Conduct count journal stage) :
    (closings journal).map Prod.fst = List.range stage.closed := by
  have same : ∀ {entry : Entry} {earlier : List Entry} {n : Nat}, entry.event.closing? = none →
      (closings earlier).map Prod.fst = List.range n →
      (closings (entry :: earlier)).map Prod.fst = List.range n := by
    intro entry earlier n hnone hrange
    rwa [closings_cons_of_none earlier hnone]
  induction hconduct with
  | start => rfl
  | sourceClosed time error known before ih =>
      rw [closings_cons_sourceClosed, List.map_append, ih]
      exact List.range_succ.symm
  | quiet entry isQuiet before ih => exact same (Event.closing?_quiet isQuiet) ih
  | cycleBegan time who before ih => exact same rfl ih
  | loadBegan time known before ih => exact same rfl ih
  | loadEnded time answer before ih => exact same rfl ih
  | installed time version rules before ih => exact same rfl ih
  | notCompiled time error before ih => exact same rfl ih
  | cancelledAsking time before ih => exact same rfl ih
  | cancelledLoading time before ih => exact same rfl ih

namespace Engine

variable {e later : Engine}

theorem Conducted.closings_eq_range (h : Conducted e) (horder : Orderly e) :
    (closings e.journal).map Prod.fst = List.range e.released := by
  rw [Conduct.closings_eq_range h, stage_closed horder]

theorem Conducted.closings_eq_nil (h : Conducted e) (horder : Orderly e) (hnone : e.released = 0) :
    closings e.journal = [] := by
  simpa [hnone] using h.closings_eq_range horder

/-! ### What a step adds -/

/-- The error that the call that closes has met, or is to answer with. -/
def met? (e : Engine) : Option (Option SourceError) :=
  match e.closing with
  | .releasing _ error => some error
  | .done error => some error
  | _ => none

theorem met?_congr (hclosing : later.closing = e.closing) : later.met? = e.met? := by
  simp only [met?, hclosing]

theorem closings_leave (e : Engine) : closings e.leave.journal = closings e.journal := by
  rw [leave_journal]
  apply closings_append_of_none
  intro entry hmem
  exact Event.closing?_quiet (e.farewell_quiet entry hmem)

theorem closings_withdraw (e : Engine) (who : Claimant) :
    closings (e.withdraw who).journal = closings e.journal := by
  rcases e.withdraw_eq who with ⟨_, _, heq⟩ | ⟨_, heq⟩
  · rw [heq]
    exact closings_cons_of_none _ rfl
  · rw [heq]

/-- A step that closes no source leaves the error as it is, lets the call begin with none, or ends
its wait. -/
theorem Move.releases (hmove : Move e later) :
    (closings later.journal = closings e.journal ∧
      (later.met? = e.met? ∨ later.met? = none ∨
        e.closing = .stopping ∧ later.closing = .releasing 0 none)) ∨
    ∃ next error, e.closing = .releasing next error ∧
      later.closing = .releasing (next + 1) (error.or (e.world.closeError next)) ∧
      closings later.journal = closings e.journal ++ [(next, e.world.closeError next)] := by
  cases hmove with
  | stay | shared | changed | waited => exact Or.inl ⟨rfl, Or.inl rfl⟩
  | reloadCalled | closeRepeated | dropped | cycleBegan | loadBegan | loadEnded | ticked
  | tickerStopped =>
      left
      refine ⟨?_, Or.inl rfl⟩
      simp [closings, Event.closing?]
  | closeCalled | closeAbandoned =>
      left
      refine ⟨?_, Or.inr (Or.inl rfl)⟩
      simp [closings, Event.closing?]
  | closerQueued stopping ended told noticed =>
      left
      refine ⟨closings_append_of_none _ ?_, Or.inr (Or.inr ⟨stopping, rfl⟩)⟩
      rcases noticed with rfl | rfl <;> simp [Event.closing?]
  | engineClosed head next error releasing =>
      left
      refine ⟨by simp [closings, Event.closing?], Or.inl ?_⟩
      simp [met?, releasing]
  | turnedAway => exact Or.inl ⟨closings_leave e, Or.inl (met?_congr e.leave_closing)⟩
  | installed | notCompiled =>
      left
      refine ⟨(closings_leave _).trans (closings_cons_of_none _ rfl), Or.inl ?_⟩
      exact met?_congr (leave_closing _)
  | reloadAbandoned | cycleGivenUp =>
      left
      refine ⟨(closings_cons_of_none _ rfl).trans (e.closings_withdraw _), Or.inl ?_⟩
      exact met?_congr (e.withdraw_closing _)
  | sourceClosed head next error releasing left =>
      exact Or.inr ⟨next, error, releasing, rfl, closings_cons_sourceClosed _ _ _ _⟩

/-- The call that closes answers with the first error of those that were reported. -/
theorem met?_run (construction : Construction) (actions : List Action) :
    let e := construction.start.steps actions
    ∀ error, e.met? = some error → error = (closings e.journal).findSome? Prod.snd := by
  refine run_induction
    (P := fun e => ∀ error, e.met? = some error → error = (closings e.journal).findSome? Prod.snd)
    ?_ ?_ actions
  · intro error hmet
    rw [met?, (fresh_start construction).opened] at hmet
    contradiction
  · intro e later horder hconduct h hmove error hmet
    rcases hmove.releases with ⟨hclosings, hsame | hnone | ⟨stopping, releasing⟩⟩ |
      ⟨next, former, before, after, hclosings⟩
    · rw [hclosings]
      exact h error (hsame ▸ hmet)
    · rw [hnone] at hmet
      contradiction
    · have hnil : closings e.journal = [] :=
        hconduct.closings_eq_nil horder (by simp [released, stopping])
      rw [met?, releasing] at hmet
      rw [hclosings, hnil, ← Option.some.inj hmet]
      rfl
    · have hformer : former = (closings e.journal).findSome? Prod.snd :=
        h former (by rw [met?, before])
      rw [met?, after] at hmet
      rw [hclosings, List.findSome?_append, ← hformer, ← Option.some.inj hmet]
      simp

/-- What is told of a closing is what the source reported when it was its turn. -/
theorem closings_steps {more : List Action} {i : Nat} {failed : Option SourceError}
    (hmem : (i, failed) ∈ closings (e.steps more).journal) :
    (i, failed) ∈ closings e.journal ∨ ∃ first rest, more = first ++ rest ∧
      (∃ error, (e.steps first).closing = .releasing i error) ∧
      failed = (e.steps first).world.closeError i := by
  induction more generalizing e with
  | nil => exact Or.inl hmem
  | cons action more ih =>
      rcases ih hmem with hnow | ⟨first, rest, rfl, hreported⟩
      · rcases (e.move_step action).releases with ⟨hclosings, _⟩ |
          ⟨next, error, before, after, hclosings⟩
        · exact Or.inl (hclosings ▸ hnow)
        · rw [hclosings] at hnow
          rcases List.mem_append.mp hnow with hformer | hlast
          · exact Or.inl hformer
          · obtain ⟨rfl, rfl⟩ := Prod.mk.inj (List.mem_singleton.mp hlast)
            exact Or.inr ⟨[], action :: more, rfl, ⟨error, before⟩, rfl⟩
      · exact Or.inr ⟨action :: first, rest, rfl, hreported⟩

/-! ### Sources that nobody changes -/

theorem alike_runCycle? {who : Claimant} (hrun : e.runCycle? who = some later) :
    e.world.Alike later.world := by
  unfold runCycle? at hrun
  split at hrun
  · split at hrun <;> cases hrun
    · rw [leave_world]
      exact .refl _
    · exact .refl _
  · split at hrun
    · cases hrun
      rw [leave_world]
      unfold install
      split <;> exact .refl _
    · cases hrun
      exact World.alike_beginLoad _ _
    · split at hrun
      · cases hrun
        exact .refl _
      · contradiction

theorem alike_release? (hrelease : e.release? = some later) : e.world.Alike later.world := by
  unfold release? at hrelease
  split at hrelease
  · split at hrelease <;> cases hrelease
    · exact World.alike_close _ _
    · change e.world.Alike e.leave.world
      rw [leave_world]
      exact .refl _
  · contradiction

theorem alike_holder? (hholder : e.holder? = some later) : e.world.Alike later.world := by
  unfold holder? at hholder
  split at hholder
  · contradiction
  · exact alike_release? hholder
  · split at hholder
    · contradiction
    · exact alike_runCycle? hholder
  · exact alike_runCycle? hholder

theorem world_ticker? (hticker : e.ticker? = some later) : later.world = e.world := by
  unfold ticker? at hticker
  split at hticker
  · split at hticker
    · cases hticker
      rfl
    · split at hticker
      · cases hticker
        rfl
      · contradiction
  · split at hticker
    · cases hticker
      exact e.withdraw_world _
    · contradiction
  · contradiction

theorem world_closer? (hcloser : e.closer? = some later) : later.world = e.world := by
  unfold closer? at hcloser
  split at hcloser
  · cases hcloser
    dsimp only [enqueue]
    split <;> rfl
  · contradiction

/-- What an engine does to its sources does not show in what they report when they are closed. -/
theorem alike_step {action : Action} (hother : ∀ change, action ≠ .change change) :
    e.world.Alike (e.step action).world := by
  have same : ∀ {later : Engine}, later.world = e.world → e.world.Alike later.world := by
    intro later hworld
    rw [hworld]
    exact .refl _
  cases action with
  | reload => dsimp only [step, reload]; split <;> exact .refl _
  | abandon call =>
      dsimp only [step, abandon]
      split
      · exact same (e.withdraw_world _)
      · exact .refl _
  | close => dsimp only [step, close]; split <;> (try split) <;> exact .refl _
  | abandonClose => dsimp only [step, abandonClose]; split <;> exact .refl _
  | share => dsimp only [step, share]; split <;> exact .refl _
  | drop => dsimp only [step, drop]; split <;> exact .refl _
  | change change => exact absurd rfl (hother change)
  | wait time => exact .refl _
  | holder =>
      dsimp only [step]
      cases hholder : e.holder? with
      | none => exact .refl _
      | some later => exact alike_holder? hholder
  | ticker =>
      dsimp only [step]
      cases hticker : e.ticker? with
      | none => exact .refl _
      | some later => exact same (world_ticker? hticker)
  | closer =>
      dsimp only [step]
      cases hcloser : e.closer? with
      | none => exact .refl _
      | some later => exact same (world_closer? hcloser)

theorem alike_steps {actions : List Action} (hothers : ∀ change, .change change ∉ actions) :
    e.world.Alike (e.steps actions).world := by
  induction actions generalizing e with
  | nil => exact .refl _
  | cons action actions ih =>
      have hfirst : e.world.Alike (e.step action).world := by
        apply alike_step
        rintro change rfl
        exact hothers change List.mem_cons_self
      exact hfirst.trans (ih fun change hmem => hothers change (List.mem_cons_of_mem action hmem))

theorem sourceName_of_alike (h : e.world.Alike later.world) (i : Nat) :
    later.sourceName i = e.sourceName i := by
  simp only [sourceName, ← List.getElem?_map, h.names]

/-! ### What the log says of it -/

def closeFailure (e : Engine) (source : String) (error : SourceError) : LogRecord :=
  ⟨.warn, "Failed to close rule source",
    [e.kindField, ("source", .text source), ("error", .text error.message)]⟩

def isCloseFailure (r : LogRecord) : Bool :=
  r.message == "Failed to close rule source"

/-- What is reported of a source that was closed. -/
def closeWarning? (e : Engine) (closing : Nat × Option SourceError) : Option LogRecord :=
  closing.2.map (e.closeFailure (e.sourceName closing.1))

theorem filter_isCloseFailure (e : Engine) (event : Event) :
    (e.record? event).filter isCloseFailure = event.closing?.bind e.closeWarning? := by
  cases event with
  | sourceClosed i failed => cases failed <;> rfl
  | loadEnded i answer =>
      cases answer with
      | ok octets =>
          simp only [record?, loadRecord?]
          split <;> rfl
      | error error => rfl
  | _ => rfl

/-- The failures that a log shows are those of the sources that were closed since. -/
theorem closeFailures_recordsSince {start : Engine} {told : List Entry}
    (hjournal : e.journal = told ++ start.journal) :
    (e.recordsSince start.journal.length).filter isCloseFailure =
      (closings told).filterMap e.closeWarning? := by
  have htake : e.journal.take (e.journal.length - start.journal.length) = told := by
    simp [hjournal]
  rw [recordsSince, htake, List.filter_filterMap, closings, List.filterMap_filterMap]
  exact List.filterMap_congr fun entry _ => e.filter_isCloseFailure entry.event

/-! ### The call as a whole -/

/-- What the caller of close is answered. -/
def closeResult : Option SourceError → Except PolicyError Unit
  | none => .ok ()
  | some error => .error (.source error)

/-- The engine after a call to close it and these actions. -/
def afterClose (e : Engine) (more : List Action) : Engine :=
  (e.step .close).steps more

/-- The call that closes an engine in this state, one of a run from `start`, has returned after
these actions, and answers with `error`. -/
structure Returned (start e : Engine) (more : List Action) (error : Option SourceError) : Prop where
  closed : (e.afterClose more).isClosed = true
  inOrder : (closings (e.afterClose more).journal).map Prod.fst =
    List.range e.world.sources.length
  reported : ∀ i failed, (i, failed) ∈ closings (e.afterClose more).journal →
    ∃ first rest, more = first ++ rest ∧
      (∃ error, (e.afterClose first).closing = .releasing i error) ∧
      failed = (e.afterClose first).world.closeError i
  /-- Without a change from outside, each source reports what it would have at the call. -/
  unchanged : (∀ change, .change change ∉ more) →
    closings (e.afterClose more).journal =
      (List.range e.world.sources.length).map (fun i => (i, e.world.closeError i)) ∧
    ∀ i, (e.afterClose more).sourceName i = e.sourceName i
  warned : ((e.afterClose more).recordsSince e.journal.length).filter isCloseFailure =
    (closings (e.afterClose more).journal).filterMap (e.afterClose more).closeWarning?
  answered : (closeResult error = .ok () ∧
      ∀ closing ∈ closings (e.afterClose more).journal, closing.2 = none) ∨
    ∃ before i failed after,
      closings (e.afterClose more).journal = before ++ (i, some failed) :: after ∧
      (∀ closing ∈ before, closing.2 = none) ∧ closeResult error = .error (.source failed)
  settled : ∀ r ∈ rounds (e.afterClose more).journal, r.ended.isSome
  rules : (e.afterClose more).rules =
    (ruleSets start.settings.patterns (rounds (e.afterClose more).journal)).headD start.rules
  version : (e.afterClose more).version = start.version +
    .ofNat (ruleSets start.settings.patterns (rounds (e.afterClose more).journal)).length

theorem answered_of_findSome? {closings : List (Nat × Option SourceError)}
    {error : Option SourceError} (herror : error = closings.findSome? Prod.snd) :
    (closeResult error = .ok () ∧ ∀ closing ∈ closings, closing.2 = none) ∨
    ∃ before i failed after, closings = before ++ (i, some failed) :: after ∧
      (∀ closing ∈ before, closing.2 = none) ∧ closeResult error = .error (.source failed) := by
  cases error with
  | none => exact Or.inl ⟨rfl, List.findSome?_eq_none_iff.mp herror.symm⟩
  | some failed =>
      obtain ⟨before, ⟨i, _⟩, after, hclosings, rfl, hbefore⟩ :=
        List.findSome?_eq_some_iff.mp herror.symm
      exact Or.inr ⟨before, i, failed, after, hclosings, hbefore, rfl⟩

theorem eq_map_range {closings : List (Nat × Option SourceError)} {count : Nat}
    {failure : Nat → Option SourceError}
    (hinOrder : closings.map Prod.fst = List.range count)
    (hfailure : ∀ i failed, (i, failed) ∈ closings → failed = failure i) :
    closings = (List.range count).map fun i => (i, failure i) := by
  calc closings
      = closings.map id := (List.map_id closings).symm
    _ = closings.map fun closing => (closing.1, failure closing.1) := by
        apply List.map_congr_left
        intro ⟨i, failed⟩ hmem
        rw [← hfailure i failed hmem]
        rfl
    _ = (closings.map Prod.fst).map fun i => (i, failure i) := by rw [List.map_map]; rfl
    _ = _ := by rw [hinOrder]

theorem alike_afterClose {more : List Action} (hothers : ∀ change, .change change ∉ more) :
    e.world.Alike (e.afterClose more).world := by
  have hclose : e.world.Alike (e.step .close).world := alike_step (by simp)
  exact hclose.trans (alike_steps hothers)

theorem released_of_done (construction : Construction) (actions more : List Action)
    {error : Option SourceError} (opened : (construction.start.steps actions).closing = .notCalled)
    (held : (construction.start.steps actions).owners ≠ 0)
    (hdone : ((construction.start.steps actions).afterClose more).closing = .done error) :
    Returned construction.start (construction.start.steps actions) more error := by
  have hrun : (construction.start.steps actions).afterClose more =
      construction.start.steps (actions ++ .close :: more) := by
    rw [steps_append, steps_cons, afterClose]
  have horder := orderly_run construction (actions ++ .close :: more)
  have hconduct := conducted_run construction (actions ++ .close :: more)
  have hprovenance := provenance_run construction (actions ++ .close :: more)
  have hmet := met?_run construction (actions ++ .close :: more)
  have hend : Done (construction.start.steps (actions ++ .close :: more)) :=
    done_of_closing construction _ (hrun ▸ hdone)
  have hnone : closings (construction.start.steps actions).journal = [] :=
    (conducted_run construction actions).closings_eq_nil (orderly_run construction actions)
      (by simp [released, opened])
  have hsources := (provenance_run construction actions).length_sources
  rw [← hrun] at horder hconduct hprovenance hmet hend
  generalize construction.start.steps actions = e at *
  have hclose := step_close opened held
  have hinOrder := hconduct.closings_eq_range horder
  have hreleased : (e.afterClose more).released = e.world.sources.length := by
    rw [released, hdone, hsources]
    exact hprovenance.length_sources
  rw [hreleased] at hinOrder
  have hreported : ∀ i failed, (i, failed) ∈ closings (e.afterClose more).journal →
      ∃ first rest, more = first ++ rest ∧
        (∃ error, (e.afterClose first).closing = .releasing i error) ∧
        failed = (e.afterClose first).world.closeError i := by
    intro i failed hmem
    rcases closings_steps hmem with hbefore | hduring
    · rw [hclose, closings_cons_of_none _ rfl, hnone] at hbefore
      contradiction
    · exact hduring
  refine ⟨?_, hinOrder, hreported, ?_, ?_, ?_, ?_, hprovenance.rules, hprovenance.version⟩
  · rw [isClosed_iff, hdone]
    exact Closing.noConfusion
  · intro hothers
    refine ⟨eq_map_range hinOrder ?_, sourceName_of_alike (alike_afterClose hothers)⟩
    intro i failed hmem
    obtain ⟨first, rest, rfl, _, rfl⟩ := hreported i failed hmem
    apply (alike_afterClose _).errors
    exact fun change hfirst => hothers change (List.mem_append_left rest hfirst)
  · obtain ⟨told, hjournal⟩ := (e.step .close).steps_journal more
    have htold : (e.afterClose more).journal = (told ++ [⟨e.now, .closeCalled⟩]) ++ e.journal := by
      rw [afterClose, hjournal, hclose, List.append_assoc]
      rfl
    rw [closeFailures_recordsSince htold, htold, closings_append e.journal, hnone, List.nil_append]
  · exact answered_of_findSome? (hmet error (by rw [met?, hdone]))
  · have hstage : (e.afterClose more).stage = .resting (e.afterClose more).released :=
      stage_of_idle hend.idle
    have hcurrent := (Conduct.chronicle hconduct).current
    rwa [hstage] at hcurrent

theorem closeNow_of_closed (closed : e.closing ≠ .notCalled) :
    e.closeNow = (e.step .close, none) := by
  unfold closeNow
  rw [if_pos (e.isClosed_iff.mpr closed)]
  rfl

/-- The first call to close an engine, with whatever reload in flight, comes to its end. By then all
sources were closed, in order and once each, whichever of them failed; each failure was logged; and
the answer is the first of them, or that there was none. All cycles have ended, and the rules and
the version are those of the latest that came to a rule set. Any call after the first returns at
once, and reports nothing. -/
theorem close_releases (construction : Construction) (actions : List Action) :
    let start := construction.start
    let e := start.steps actions
    e.closing = .notCalled → e.owners ≠ 0 →
      (∃ more, (∀ change, .change change ∉ more) ∧ e.afterClose more = e.closeNow.1 ∧
        e.closeNow.1.closing = .done e.closeNow.2) ∧
      (∀ more error, (e.afterClose more).closing = .done error → Returned start e more error) ∧
      ∀ more, let later := e.afterClose more
        closeResult later.closeNow.2 = .ok () ∧
        (later.owners ≠ 0 → (later.step .close).journal =
          [⟨later.now, .closeReturned none⟩, ⟨later.now, .closeCalled⟩] ++ later.journal) := by
  intro start e opened held
  refine ⟨closeNow_returns (orderly_run construction actions) opened held, ?_, ?_⟩
  · intro more error hdone
    exact released_of_done construction actions more opened held hdone
  · intro more later
    have closed : later.closing ≠ .notCalled := by
      have hclose : (e.step .close).closing ≠ .notCalled := by simp [step_close opened held]
      exact steps_induction (P := fun e => e.closing ≠ .notCalled)
        (fun _ _ closed hmove => hmove.closed closed) hclose more
    rw [closeNow_of_closed closed]
    refine ⟨rfl, ?_⟩
    intro heldLater
    change later.close.journal = _
    simp [close, heldLater, later.isClosed_iff.mpr closed, record]

/-- Of three sources the last two fail when they are closed, while a reload is in a load of the
first. -/
theorem close_releases_failing :
    let sources : List Source := [
      .memory [] false false,
      .scripted ⟨"b", false, 5, [], none, some (.store "b is gone"), 0, false⟩,
      .scripted ⟨"c", false, 0, [], none, some .closed, 0, false⟩]
    let construction := Construction.build ⟨⟨.bypass, false⟩, [], 10, none⟩ ⟨.empty, [], sources⟩
    let actions : List Action := turns 4 ++ [.wait 5] ++ turns 4 ++ [.reload] ++ turns 2
    let e := construction.start.steps actions
    closeResult e.closeNow.2 = .error (.source (.store "b is gone")) ∧
      closings e.closeNow.1.journal =
        [(0, none), (1, some (.store "b is gone")), (2, some .closed)] ∧
      (∀ r ∈ rounds e.closeNow.1.journal, r.ended.isSome) ∧ e.closeNow.1.version = 2 ∧
      closeResult e.closeNow.1.closeNow.2 = .ok () := by
  intro sources construction actions e
  have opened : e.closing = .notCalled := by decide +kernel
  have held : e.owners ≠ 0 := by decide +kernel
  have hcalls := close_releases construction actions opened held
  obtain ⟨more, hothers, hmore, hdone⟩ := hcalls.1
  have hreturned : (e.afterClose more).closing = .done e.closeNow.2 := by
    rw [hmore]
    exact hdone
  have h : Returned construction.start e more e.closeNow.2 := hcalls.2.1 more _ hreturned
  have hresult : closeResult e.closeNow.2 = .error (.source (.store "b is gone")) := by
    decide +kernel
  have hversion : e.closeNow.1.version = 2 := by decide +kernel
  have herrors : (List.range e.world.sources.length).map (fun i => (i, e.world.closeError i)) =
      [(0, none), (1, some (.store "b is gone")), (2, some .closed)] := by decide +kernel
  have hclosings : closings e.closeNow.1.journal =
      [(0, none), (1, some (.store "b is gone")), (2, some .closed)] := by
    rw [← hmore, (h.unchanged hothers).1]
    exact herrors
  have hsettled : ∀ r ∈ rounds e.closeNow.1.journal, r.ended.isSome := by
    rw [← hmore]
    exact h.settled
  have hagain : closeResult e.closeNow.1.closeNow.2 = .ok () := by
    rw [← hmore]
    exact (hcalls.2.2 more).1
  exact ⟨hresult, hclosings, hsettled, hversion, hagain⟩

end Engine

end HostPolicy
