import HostPolicy.Proofs.Config.Accepted
import HostPolicy.Proofs.Json.Rewriting
import Mathlib.Logic.Relation

/-!
# All spellings of a configuration agree

Space, the order of members, members with other names, and lists in place of objects make no
difference to the configuration that a text holds. A member that is given twice does.
-/

namespace HostPolicy.Config

open Json

/-! ### The file source -/

def fileFields : List Field :=
  [⟨"path", fun _ => False⟩]

def turnsFile (draft : Option String) (values : String → List Value) (last : Option String) :
    Prop :=
  Takes Value.text? draft (values "path") last

theorem byFields_file :
    ByFields fileFields fillFile listedFile none finishFile (turnsFile none) where
  object members last := by
    refine foldlM_takeMember_iff (fun _ _ => takes_nil) ?_ members none last
    intro draft last name v values
    unfold fillFile
    split
    · simp only [turnsFile, push, takes_cons, give?_eq_some_iff, reduceIte]
      grind
    · next hpath => simp [turnsFile, push, if_neg hpath]
  perm h hperm := Takes.perm (hperm _ List.mem_cons_self) h
  once h f hf := by
    simp only [fileFields, List.mem_singleton] at hf
    subst hf
    exact Takes.length_le_one h
  list := by
    intro members draft record values h hfinish hlisted
    simp only [fileFields, List.forall₂_cons_left_iff, List.forall₂_nil_left_iff] at hlisted
    obtain ⟨v, _, hv, rfl, rfl⟩ := hlisted
    cases draft with
    | none => contradiction
    | some path =>
        have hpath := Takes.of_some h hv
        exact ⟨some path, by simp [listedFile, hpath], hfinish⟩

/-! ### The Redis source -/

def redisFields : List Field :=
  [⟨"addr", fun _ => False⟩,
    ⟨"db", fun v => v.integer? = some 0⟩,
    ⟨"password", fun v => v.option? Value.text? = some none⟩,
    ⟨"key", fun v => v.text? = some defaultKey⟩,
    ⟨"type", fun v => layout? v = some .set⟩]

def turnsRedis (draft : RedisDraft) (values : String → List Value) (last : RedisDraft) : Prop :=
  Takes Value.text? draft.address (values "addr") last.address ∧
  Takes Value.integer? draft.database (values "db") last.database ∧
  Takes (Value.option? Value.text?) draft.password (values "password") last.password ∧
  Takes Value.text? draft.key (values "key") last.key ∧
  Takes layout? draft.layout (values "type") last.layout

theorem byFields_redis : ByFields redisFields fillRedis listedRedis ⟨none, none, none, none, none⟩
    (finishRedis (.missingField "addr")) (turnsRedis ⟨none, none, none, none, none⟩) where
  object members last := by
    refine foldlM_takeMember_iff ?_ ?_ members _ last
    · rintro ⟨⟩ ⟨⟩
      simp [turnsRedis, takes_nil]
    · intro draft last name v values
      unfold fillRedis
      split
      all_goals
        simp only [turnsRedis, push, takes_cons, give?_eq_some_iff, reduceIte, String.reduceEq]
        grind
  perm h hperm := by
    simp only [redisFields, List.forall_mem_cons] at hperm
    obtain ⟨haddress, hdatabase, hpassword, hkey, hlayout, -⟩ := hperm
    obtain ⟨h₁, h₂, h₃, h₄, h₅⟩ := h
    exact ⟨h₁.perm haddress, h₂.perm hdatabase, h₃.perm hpassword, h₄.perm hkey, h₅.perm hlayout⟩
  once h f hf := by
    simp only [redisFields, List.mem_cons, List.not_mem_nil, or_false] at hf
    obtain ⟨h₁, h₂, h₃, h₄, h₅⟩ := h
    obtain rfl | rfl | rfl | rfl | rfl := hf
    exacts [h₁.length_le_one, h₂.length_le_one, h₃.length_le_one, h₄.length_le_one,
      h₅.length_le_one]
  list := by
    rintro members ⟨address, database, password, key, layout⟩ record values h hfinish hlisted
    simp only [redisFields, List.forall₂_cons_left_iff, List.forall₂_nil_left_iff] at hlisted
    obtain ⟨v₁, _, w₁, ⟨v₂, _, w₂, ⟨v₃, _, w₃, ⟨v₄, _, w₄, ⟨v₅, _, w₅, rfl, rfl⟩, rfl⟩, rfl⟩, rfl⟩,
      rfl⟩ := hlisted
    obtain ⟨h₁, h₂, h₃, h₄, h₅⟩ := h
    cases address with
    | none => contradiction
    | some address =>
        have m₁ := h₁.of_some w₁
        obtain ⟨database', m₂, rfl⟩ := h₂.written w₂
        obtain ⟨password', m₃, rfl⟩ := h₃.written w₃
        obtain ⟨key', m₄, rfl⟩ := h₄.written w₄
        obtain ⟨layout', m₅, rfl⟩ := h₅.written w₅
        refine ⟨⟨some address, some (database.getD 0), some (password.getD none),
          some (key.getD defaultKey), some (layout.getD .set)⟩, ?_, hfinish⟩
        simp [listedRedis, m₁, m₂, m₃, m₄, m₅]

/-! ### The configuration -/

def fields : List Field :=
  [⟨"reverse", fun v => v.bool? = some false⟩,
    ⟨"matchers", fun v => v.list? Value.text? = some []⟩,
    ⟨"reload_secs", fun v => v.natural? = some 0⟩,
    ⟨"load_timeout_secs", fun v => v.natural? = some defaultTimeoutSeconds⟩,
    ⟨"file", fun v => v.option? file? = some none⟩,
    ⟨"redis", fun v => v.option? redis? = some none⟩]

def turns (draft : Draft) (values : String → List Value) (last : Draft) : Prop :=
  Takes Value.bool? draft.reversed (values "reverse") last.reversed ∧
  Takes (Value.list? Value.text?) draft.patterns (values "matchers") last.patterns ∧
  Takes Value.natural? draft.reloadSeconds (values "reload_secs") last.reloadSeconds ∧
  Takes Value.natural? draft.timeoutSeconds (values "load_timeout_secs") last.timeoutSeconds ∧
  Takes (Value.option? file?) draft.file (values "file") last.file ∧
  Takes (Value.option? redis?) draft.redis (values "redis") last.redis

theorem byFields_config : ByFields fields fill listed ⟨none, none, none, none, none, none⟩ finish
    (turns ⟨none, none, none, none, none, none⟩) where
  object members last := by
    refine foldlM_takeMember_iff ?_ ?_ members _ last
    · rintro ⟨⟩ ⟨⟩
      simp [turns, takes_nil]
    · intro draft last name v values
      unfold fill
      split
      all_goals
        simp only [turns, push, takes_cons, give?_eq_some_iff, reduceIte, String.reduceEq]
        grind
  perm h hperm := by
    simp only [fields, List.forall_mem_cons] at hperm
    obtain ⟨p₁, p₂, p₃, p₄, p₅, p₆, -⟩ := hperm
    obtain ⟨h₁, h₂, h₃, h₄, h₅, h₆⟩ := h
    exact ⟨h₁.perm p₁, h₂.perm p₂, h₃.perm p₃, h₄.perm p₄, h₅.perm p₅, h₆.perm p₆⟩
  once h f hf := by
    simp only [fields, List.mem_cons, List.not_mem_nil, or_false] at hf
    obtain ⟨h₁, h₂, h₃, h₄, h₅, h₆⟩ := h
    obtain rfl | rfl | rfl | rfl | rfl | rfl := hf
    exacts [h₁.length_le_one, h₂.length_le_one, h₃.length_le_one, h₄.length_le_one,
      h₅.length_le_one, h₆.length_le_one]
  list := by
    rintro members draft config values h hfinish hlisted
    simp only [fields, List.forall₂_cons_left_iff, List.forall₂_nil_left_iff] at hlisted
    obtain ⟨v₁, _, w₁, ⟨v₂, _, w₂, ⟨v₃, _, w₃, ⟨v₄, _, w₄, ⟨v₅, _, w₅, ⟨v₆, _, w₆, rfl, rfl⟩, rfl⟩,
      rfl⟩, rfl⟩, rfl⟩, rfl⟩ := hlisted
    obtain ⟨h₁, h₂, h₃, h₄, h₅, h₆⟩ := h
    obtain ⟨reversed, m₁, rfl⟩ := h₁.written w₁
    obtain ⟨patterns, m₂, rfl⟩ := h₂.written w₂
    obtain ⟨reloadSeconds, m₃, rfl⟩ := h₃.written w₃
    obtain ⟨timeoutSeconds, m₄, rfl⟩ := h₄.written w₄
    obtain ⟨file, m₅, rfl⟩ := h₅.written w₅
    obtain ⟨redis, m₆, rfl⟩ := h₆.written w₆
    refine ⟨⟨some (draft.reversed.getD false), some (draft.patterns.getD []),
      some (draft.reloadSeconds.getD 0), some (draft.timeoutSeconds.getD defaultTimeoutSeconds),
      some (draft.file.getD none), some (draft.redis.getD none)⟩, ?_, hfinish⟩
    simp [listed, m₁, m₂, m₃, m₄, m₅, m₆]

/-! ### All spellings -/

/-- One change of how a configuration is written, in the whole or in one of its sources. -/
inductive Rewritten : Value → Value → Prop
  | whole {v v' : Value} (h : Rewrites fields v v') : Rewritten v v'
  | file {front back : List (Quoted × Value)} {key : Quoted} {v v' : Value}
      (hkey : key.text? = some "file") (h : Rewrites fileFields v v') :
      Rewritten (.object (front ++ (key, v) :: back)) (.object (front ++ (key, v') :: back))
  | redis {front back : List (Quoted × Value)} {key : Quoted} {v v' : Value}
      (hkey : key.text? = some "redis") (h : Rewrites redisFields v v') :
      Rewritten (.object (front ++ (key, v) :: back)) (.object (front ++ (key, v') :: back))

/-- A field of the configuration or of one of its sources is given more than once. -/
inductive Repeated : Value → Prop
  | whole {v : Value} (h : Repeats fields v) : Repeated v
  | file {members : List (Quoted × Value)} {v : Value} (hv : v ∈ given members "file")
      (h : Repeats fileFields v) : Repeated (.object members)
  | redis {members : List (Quoted × Value)} {v : Value} (hv : v ∈ given members "redis")
      (h : Repeats redisFields v) : Repeated (.object members)

variable {v v' : Value} {members : List (Quoted × Value)} {c : Config}

theorem config?_object_iff :
    config? (.object members) = some c ↔ Keyed members ∧
      ∃ draft, turns ⟨none, none, none, none, none, none⟩ (given members) draft ∧
        (finish draft).toOption = some c :=
  byFields_config.object_iff members

theorem Rewritten.config? (h : Rewritten v v') (hv : config? v = some c) :
    Config.config? v' = some c := by
  cases h with
  | whole h => exact byFields_config.rewrites h hv
  | @file front back key v v' hkey h =>
      have hsame : ∀ o, v.option? file? = some o → v'.option? file? = some o :=
        fun _ => h.option fun _ => byFields_file.rewrites h
      obtain ⟨hkeyed, draft, ⟨h₁, h₂, h₃, h₄, h₅, h₆⟩, hfinish⟩ := config?_object_iff.mp hv
      refine config?_object_iff.mpr ⟨hkeyed.replace v', draft, ⟨?_, ?_, ?_, ?_, ?_, ?_⟩, hfinish⟩
      · rwa [given_insert hkey (by decide)] at h₁ ⊢
      · rwa [given_insert hkey (by decide)] at h₂ ⊢
      · rwa [given_insert hkey (by decide)] at h₃ ⊢
      · rwa [given_insert hkey (by decide)] at h₄ ⊢
      · rw [given_here hkey] at h₅ ⊢
        exact h₅.replace hsame
      · rwa [given_insert hkey (by decide)] at h₆ ⊢
  | @redis front back key v v' hkey h =>
      have hsame : ∀ o, v.option? redis? = some o → v'.option? redis? = some o :=
        fun _ => h.option fun _ => byFields_redis.rewrites h
      obtain ⟨hkeyed, draft, ⟨h₁, h₂, h₃, h₄, h₅, h₆⟩, hfinish⟩ := config?_object_iff.mp hv
      refine config?_object_iff.mpr ⟨hkeyed.replace v', draft, ⟨?_, ?_, ?_, ?_, ?_, ?_⟩, hfinish⟩
      · rwa [given_insert hkey (by decide)] at h₁ ⊢
      · rwa [given_insert hkey (by decide)] at h₂ ⊢
      · rwa [given_insert hkey (by decide)] at h₃ ⊢
      · rwa [given_insert hkey (by decide)] at h₄ ⊢
      · rwa [given_insert hkey (by decide)] at h₅ ⊢
      · rw [given_here hkey] at h₆ ⊢
        exact h₆.replace hsame

theorem config?_of_rewritten (h : Relation.ReflTransGen Rewritten v v')
    (hv : config? v = some c) : config? v' = some c := by
  induction h with
  | refl => exact hv
  | tail _ hstep ih => exact hstep.config? ih

theorem Repeated.config? (h : Repeated v) : config? v = none := by
  cases h with
  | whole h => exact byFields_config.repeats h
  | @file members v hv h =>
      have hnone : v.option? file? = none := h.option (byFields_file.repeats h)
      rw [Option.eq_none_iff_forall_ne_some]
      intro c hc
      obtain ⟨_, draft, ⟨_, _, _, _, hfile, _⟩, _⟩ := config?_object_iff.mp hc
      obtain ⟨o, ho⟩ := hfile.exists_of_mem hv
      rw [hnone] at ho
      contradiction
  | @redis members v hv h =>
      have hnone : v.option? redis? = none := h.option (byFields_redis.repeats h)
      rw [Option.eq_none_iff_forall_ne_some]
      intro c hc
      obtain ⟨_, draft, ⟨_, _, _, _, _, hredis⟩, _⟩ := config?_object_iff.mp hc
      obtain ⟨o, ho⟩ := hredis.exists_of_mem hv
      rw [hnone] at ho
      contradiction

/-- An accepted text spells a value, and every spelling of what that can be rewritten to holds the
same configuration; a value in which a field is given more than once has no accepted spelling. -/
theorem spellings_agree {text : String} (hc : ofText text = .ok c) :
    (∃ v : Value, v.SpelledBy text) ∧
      ∀ v : Value, v.SpelledBy text → ∀ v' text', v'.SpelledBy text' →
        (Relation.ReflTransGen Rewritten v v' → ofText text' = .ok c) ∧
          (Repeated v' → ∃ reason, ofText text' = .error (.unreadable reason)) := by
  refine ⟨exists_spelledBy hc, ?_⟩
  intro v hspelled v' text' hspelled'
  obtain ⟨hconfig, hvalid⟩ := (ofText_eq_ok_iff hspelled).mp hc
  constructor
  · intro hrewritten
    exact (ofText_eq_ok_iff hspelled').mpr ⟨config?_of_rewritten hrewritten hconfig, hvalid⟩
  · intro hrepeated
    obtain ⟨reason, hparse⟩ := parse_unspelled hspelled' hrepeated.config?
    exact ⟨reason, by simp [ofText, hparse, Except.mapError, bind, Except.bind]⟩

theorem spellings_agree_file :
    let name : Quoted := [.plain 'f' (by decide), .plain 'i' (by decide), .plain 'l' (by decide),
      .plain 'e' (by decide)]
    let other : Quoted := [.plain 'x' (by decide)]
    let path : Quoted := [.plain 'p' (by decide), .plain 'a' (by decide), .plain 't' (by decide),
      .plain 'h' (by decide)]
    let rules : Value := .text [.short '/' '/' (by decide), .plain 'r' (by decide)]
    let v : Value := .object [(name, .object [(path, rules)])]
    let v' : Value := .object [(other, .list [.null]), (name, .list [rules])]
    let twice : Value := .object [(name, .null), (name, .object [(path, rules)])]
    let c : Config := ⟨false, [], 0, 10, some ⟨"/r"⟩, none⟩
    let text := "\x7b\"file\":\x7b\"path\":\"\\/r\"\x7d\x7d"
    let text' :=
      "\n\x7b\n\"x\"\n:\n[\nnull\n]\n,\n\"file\"\n:\n[\n\"\\/r\"\n]\n\x7d"
    let text'' := "\x7b\"file\":null,\"file\":\x7b\"path\":\"\\/r\"\x7d\x7d"
    v.SpelledBy text ∧ ofText text = .ok c ∧ v'.SpelledBy text' ∧ ofText text' = .ok c ∧
      twice.SpelledBy text'' ∧ ∃ reason, ofText text'' = .error (.unreadable reason) := by
  intro name other path rules v v' twice c text text' text''
  have hspelled : v.SpelledBy text :=
    v.spelledBy_spaced [] (List.forall_mem_nil _) (by decide +kernel)
  have hspelled' : v'.SpelledBy text' :=
    v'.spelledBy_spaced ['\n'] (by simp [isSpace]) (by decide +kernel)
  have htwice : twice.SpelledBy text'' :=
    twice.spelledBy_spaced [] (List.forall_mem_nil _) (by decide +kernel)
  have hc : ofText text = .ok c := by decide +kernel
  have hlisted : Rewritten v (.object [(name, .list [rules])]) :=
    @Rewritten.file [] [] name _ _ (by decide) (.listed (.cons (Or.inl rfl) .nil))
  have hinserted : Rewritten (.object [(name, .list [rules])]) v' :=
    .whole (@Rewrites.inserted _ [] _ other "x" _ (by decide) (by decide))
  have hrepeated : Repeated twice :=
    .whole (.member (f := ⟨"file", fun v => v.option? file? = some none⟩) (by simp [fields])
      (by decide))
  obtain ⟨_, hagree⟩ := spellings_agree hc
  refine ⟨hspelled, hc, hspelled', ?_, htwice, ?_⟩
  · have hrewritten := (Relation.ReflTransGen.single hlisted).tail hinserted
    exact (hagree v hspelled v' text' hspelled').1 hrewritten
  · exact (hagree v hspelled twice text'' htwice).2 hrepeated

end HostPolicy.Config
