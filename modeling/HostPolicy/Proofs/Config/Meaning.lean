import HostPolicy.Config.Reader
import HostPolicy.Proofs.Json.Members
import HostPolicy.Proofs.Json.Numeral

/-!
# What a configuration text means

The reader of configurations makes of every text that spells a value what the value means, and that
is read off the value: its members by name, or its elements by place.
-/

namespace HostPolicy.Config

open Json

variable {cs rest : List Char} {more : List Token} {v : Value}

/-! ### Layouts -/

def layoutOf : String → Option Collection
  | "set" => some .set
  | "hash" => some .hash
  | _ => none

def null? : Value → Option Unit
  | .null => some ()
  | _ => none

def layout? : Value → Option Collection
  | .text q => q.text? >>= layoutOf
  | .object [(key, v)] => do
    let layout ← key.text? >>= layoutOf
    let () ← null? v
    return layout
  | _ => none

theorem reads_layoutNamed (name : String) (h : Spells rest more) :
    Reads (layoutNamed name rest) (layoutOf name) more := by
  unfold layoutNamed
  split
  · exact ⟨rest, rfl, h⟩
  · exact ⟨rest, rfl, h⟩
  · next hset hhash =>
      rw [layoutOf]
      · exact fails_fail _ _
      · exact hset
      · exact hhash

theorem follows_null : Follows readNull null? := by
  intro v cs more _ h
  by_cases hnull : v = .null
  · subst hnull
    obtain ⟨rest, hvalue, hrest⟩ := h.valueText_token (solid_cons rfl _)
    exact ⟨rest, by simp [readNull, hvalue, readWord, ok_bind, pure, Except.pure], hrest⟩
  · obtain ⟨c, w, _, hvalue, hannounces⟩ := h.valueText_value
    have hn : c ≠ 'n' := fun hc => hnull (hannounces.null hc)
    have hmeaning : null? v = none := by
      cases v with
      | null => contradiction
      | _ => rfl
    rw [hmeaning]
    have hfails : Fails (readNull cs) := by
      simpa [readNull, hvalue, hn, ok_bind] using fails_mistyped _ _
    exact hfails

/-- With another member the object names no layout. -/
theorem layout?_member (key : Quoted) (v : Value) (members : List (Quoted × Value)) :
    layout? (.object ((key, v) :: members)) =
      (key.text? >>= layoutOf >>= fun layout => null? v >>= fun _ =>
        if members.isEmpty then some layout else none) := by
  cases members with
  | nil => rfl
  | cons m members => simp [layout?]

/-- A key, from behind its opening quote, names a layout. -/
theorem reads_layoutKey {α : Type} (key : Quoted) {later : List Token} (h : Spells rest more)
    {next : Collection × List Char → Except Fault (α × List Char)}
    {meaning : Collection → Option α}
    (hnext : ∀ layout after, Spells after more →
      Reads (next (layout, after)) (meaning layout) later) :
    Reads (readQuoted (key.flatMap Glyph.chars ++ '"' :: rest) >>= fun p =>
        layoutNamed (String.ofList p.1) p.2 >>= next)
      (key.text? >>= layoutOf >>= meaning) later := by
  simp only [Quoted.text?, Option.bind_eq_bind, Option.bind_map, Option.bind_assoc]
  refine Reads.bind (reads_quoted key h) ?_
  intro name after hafter
  refine Reads.bind (reads_layoutNamed _ hafter) ?_
  intro layout last hlast
  exact hnext layout last hlast

theorem fails_readLayout (htext : ∀ q, v ≠ .text q) (hobject : ∀ members, v ≠ .object members)
    (h : Spells cs (v.tokens ++ more)) : Fails (readLayout cs) := by
  obtain ⟨c, w, _, hvalue, hannounces⟩ := h.valueText_value
  have hquote : c ≠ '"' := fun hc => absurd (hannounces.text hc) (by simp [htext])
  have hbrace : c ≠ '\x7b' := fun hc => absurd (hannounces.object hc) (by simp [hobject])
  simpa [readLayout, hvalue, hquote, hbrace, ok_bind] using fails_failPast _ _

theorem follows_layout : Follows readLayout layout? := by
  intro v cs more hcloses h
  cases v with
  | text q =>
      obtain ⟨rest, hvalue, hrest⟩ := h.valueText_token q.solid
      rw [q.token_append] at hvalue
      rw [readLayout, hvalue, layout?, Quoted.text?]
      simp only [Option.bind_eq_bind, Option.bind_map]
      refine Reads.bind (reads_quoted q hrest) ?_
      intro name after hafter
      exact reads_layoutNamed _ hafter
  | object members =>
      rw [Value.tokens, List.cons_append] at h
      obtain ⟨rest, hvalue, hrest⟩ := h.valueText_token (solid_cons rfl _)
      rw [readLayout, hvalue]
      cases members with
      | nil =>
          obtain ⟨after, hskip, _⟩ := hrest.skipSpace_token (solid_cons rfl _)
          refine ⟨.past .expectedValue ('\x7d' :: after), ?_⟩
          simp [readOnlyKey, hskip, failPast, bind, Except.bind]
      | cons m members =>
          obtain ⟨key, v⟩ := m
          rw [memberTokens, List.cons_append, List.cons_append, List.append_assoc] at hrest
          obtain ⟨keyed, hskip, hkeyed, _⟩ := hrest.skipSpace_token key.solid
          rw [key.token_append] at hskip
          have hkey : readOnlyKey rest =
              readQuoted (key.flatMap Glyph.chars ++ '"' :: keyed) >>= fun p =>
                pure (String.ofList p.1, p.2) := by
            rw [readOnlyKey, hskip]
            rfl
          simp only [List.singleton_append, ok_bind, hkey, bind_assoc, pure_bind]
          rw [layout?_member]
          refine reads_layoutKey key hkeyed ?_
          intro layout after hafter
          obtain ⟨value, hcolon, hvalue, _⟩ := hafter.readColon
          rw [hcolon]
          refine Reads.bind (follows_null (closes_members members more) hvalue) ?_
          intro _ last hlast
          cases members with
          | nil =>
              obtain ⟨closed, hclose, hclosed, _⟩ := hlast.skipSpace_token (solid_cons rfl _)
              exact ⟨closed, by simp [hclose, pure, Except.pure], hclosed⟩
          | cons m members =>
              obtain ⟨other, hcomma, _⟩ := hlast.skipSpace_token (solid_cons rfl _)
              exact ⟨.before .expectedValue (',' :: other), by simp [hcomma, fail]⟩
  | _ => exact fails_readLayout (by simp) (by simp) h

/-! ### The file source -/

def fillFile (name : String) (draft : Option String) (v : Value) : Option (Option String) :=
  match name with
  | "path" => give? draft some v.text?
  | _ => some draft

def listedFile (values : List Value) : Option (Option String) :=
  values[0]?.mapM Value.text?

def file? : Value → Option FileSource :=
  Value.record? fillFile listedFile 1 none finishFile

theorem followsMember_file : FollowsMember fileMember fillFile := by
  intro name draft v cs more hcloses h
  unfold fileMember
  split
  · exact (follows_text _).member "path" id (fun _ path => some path) draft hcloses h
  · next hpath =>
      rw [fillFile]
      · exact reads_skipMember draft hcloses h
      · exact hpath

/-- A list without the path is complained about by its length. -/
def finishListedFile : Option String → Except Complaint FileSource
  | some path => .ok ⟨path⟩
  | none => .error (.tooShort 0 "struct FileSourceConfig with 1 element")

theorem followsElements_file : FollowsElements fileElements listedFile 1 finishListedFile := by
  intro values cs more h
  rw [fileElements, listedFile, Option.map_eq_bind]
  refine Reads.bind ((follows_text "path string").field true 0 h) ?_
  intro path rest hrest
  cases path with
  | none => exact ⟨rest, rfl, hrest⟩
  | some path => exact ⟨rest, rfl, hrest⟩

theorem follows_file : Follows readFile file? := by
  refine follows_record followsMember_file followsElements_file ?_
  intro draft
  cases draft <;> rfl

/-! ### The Redis source -/

def fillRedis (name : String) (draft : RedisDraft) (v : Value) : Option RedisDraft :=
  match name with
  | "addr" => give? draft.address (fun a => { draft with address := some a }) v.text?
  | "db" => give? draft.database (fun a => { draft with database := some a }) v.integer?
  | "password" =>
    give? draft.password (fun a => { draft with password := some a }) (v.option? Value.text?)
  | "key" => give? draft.key (fun a => { draft with key := some a }) v.text?
  | "type" => give? draft.layout (fun a => { draft with layout := some a }) (layout? v)
  | _ => some draft

def listedRedis (values : List Value) : Option RedisDraft := do
  let address ← values[0]?.mapM Value.text?
  let database ← values[1]?.mapM Value.integer?
  let password ← values[2]?.mapM (Value.option? Value.text?)
  let key ← values[3]?.mapM Value.text?
  let layout ← values[4]?.mapM layout?
  return ⟨address, database, password, key, layout⟩

def redis? : Value → Option RedisSource :=
  Value.record? fillRedis listedRedis 5 ⟨none, none, none, none, none⟩
    (finishRedis (.missingField "addr"))

theorem followsMember_redis : FollowsMember redisMember fillRedis := by
  intro name draft v cs more hcloses h
  unfold redisMember
  split
  · exact (follows_text _).member "addr" _ (fun d a => { d with address := some a }) draft hcloses h
  · exact follows_integer.member "db" _ (fun d a => { d with database := some a }) draft hcloses h
  · exact (follows_text _).option.member "password" _ (fun d a => { d with password := some a })
      draft hcloses h
  · exact (follows_text _).member "key" _ (fun d a => { d with key := some a }) draft hcloses h
  · exact follows_layout.member "type" _ (fun d a => { d with layout := some a }) draft hcloses h
  · next h₁ h₂ h₃ h₄ h₅ =>
      rw [fillRedis]
      · exact reads_skipMember draft hcloses h
      all_goals assumption

theorem followsElements_redis : FollowsElements redisElements listedRedis 5
    (finishRedis (.tooShort 0 "struct RedisSourceConfig with 5 elements")) := by
  intro values cs more h
  rw [redisElements, listedRedis]
  simp only [Option.map_eq_bind, Option.bind_eq_bind, Option.bind_assoc]
  refine Reads.bind ((follows_text _).field true 0 h) ?_
  intro address rest h
  refine Reads.bind (follows_integer.field false 1 h) ?_
  intro database rest h
  refine Reads.bind ((follows_text _).option.field false 2 h) ?_
  intro password rest h
  refine Reads.bind ((follows_text _).field false 3 h) ?_
  intro key rest h
  refine Reads.bind (follows_layout.field false 4 h) ?_
  intro layout rest h
  exact ⟨rest, rfl, h⟩

theorem follows_redis : Follows readRedis redis? := by
  refine follows_record followsMember_redis followsElements_redis ?_
  intro draft
  unfold finishRedis
  split <;> rfl

/-! ### The configuration -/

def fill (name : String) (draft : Draft) (v : Value) : Option Draft :=
  match name with
  | "reverse" => give? draft.reversed (fun a => { draft with reversed := some a }) v.bool?
  | "matchers" =>
    give? draft.patterns (fun a => { draft with patterns := some a }) (v.list? Value.text?)
  | "reload_secs" =>
    give? draft.reloadSeconds (fun a => { draft with reloadSeconds := some a }) v.natural?
  | "load_timeout_secs" =>
    give? draft.timeoutSeconds (fun a => { draft with timeoutSeconds := some a }) v.natural?
  | "file" => give? draft.file (fun a => { draft with file := some a }) (v.option? file?)
  | "redis" => give? draft.redis (fun a => { draft with redis := some a }) (v.option? redis?)
  | _ => some draft

def listed (values : List Value) : Option Draft := do
  let reversed ← values[0]?.mapM Value.bool?
  let patterns ← values[1]?.mapM (Value.list? Value.text?)
  let reloadSeconds ← values[2]?.mapM Value.natural?
  let timeoutSeconds ← values[3]?.mapM Value.natural?
  let file ← values[4]?.mapM (Value.option? file?)
  let redis ← values[5]?.mapM (Value.option? redis?)
  return ⟨reversed, patterns, reloadSeconds, timeoutSeconds, file, redis⟩

def config? : Value → Option Config :=
  Value.record? fill listed 6 ⟨none, none, none, none, none, none⟩ finish

theorem followsMember_config : FollowsMember member fill := by
  intro name draft v cs more hcloses h
  unfold member
  split
  · exact follows_bool.member "reverse" _ (fun d a => { d with reversed := some a }) draft
      hcloses h
  · exact (follows_text _).list.member "matchers" _ (fun d a => { d with patterns := some a })
      draft hcloses h
  · exact follows_natural.member "reload_secs" _ (fun d a => { d with reloadSeconds := some a })
      draft hcloses h
  · exact follows_natural.member "load_timeout_secs" _
      (fun d a => { d with timeoutSeconds := some a }) draft hcloses h
  · exact follows_file.option.member "file" _ (fun d a => { d with file := some a }) draft
      hcloses h
  · exact follows_redis.option.member "redis" _ (fun d a => { d with redis := some a }) draft
      hcloses h
  · rw [fill]
    · exact reads_skipMember draft hcloses h
    all_goals assumption

theorem followsElements_config : FollowsElements elements listed 6 finish := by
  intro values cs more h
  rw [elements, listed]
  simp only [Option.map_eq_bind, Option.bind_eq_bind, Option.bind_assoc]
  refine Reads.bind (follows_bool.field true 0 h) ?_
  intro reversed rest h
  refine Reads.bind ((follows_text _).list.field false 1 h) ?_
  intro patterns rest h
  refine Reads.bind (follows_natural.field false 2 h) ?_
  intro reloadSeconds rest h
  refine Reads.bind (follows_natural.field false 3 h) ?_
  intro timeoutSeconds rest h
  refine Reads.bind (follows_file.option.field false 4 h) ?_
  intro file rest h
  refine Reads.bind (follows_redis.option.field false 5 h) ?_
  intro redis rest h
  exact ⟨rest, rfl, h⟩

theorem follows_config : Follows read config? :=
  follows_record followsMember_config followsElements_config fun _ => rfl

/-! ### Texts -/

variable {text : String}

theorem reads_config (h : v.SpelledBy text) : Reads (read text.toList) (config? v) [] := by
  refine follows_config (fun _ hnone => ?_) (by rwa [List.append_nil])
  contradiction

theorem parse_spelled {c : Config} (h : v.SpelledBy text) (hc : config? v = some c) :
    parse text = .ok c := by
  have hread := reads_config h
  rw [hc] at hread
  obtain ⟨rest, hread, hrest⟩ := hread
  simp [parse, readWhole, hread, ok_bind, hrest.skipSpace_done, pure, Except.pure, Except.mapError]

theorem parse_unspelled (h : v.SpelledBy text) (hc : config? v = none) :
    ∃ reason, parse text = .error reason := by
  have hread := reads_config h
  rw [hc] at hread
  obtain ⟨fault, hread⟩ := hread
  exact ⟨fault.message text, by simp [parse, readWhole, hread, bind, Except.bind, Except.mapError]⟩

/-- A text that spells a value is accepted if the value means a valid configuration. -/
theorem ofText_eq_ok_iff {c : Config} (h : v.SpelledBy text) :
    ofText text = .ok c ↔ config? v = some c ∧ c.validate = .ok () := by
  cases hc : config? v with
  | none =>
      obtain ⟨reason, hparse⟩ := parse_unspelled h hc
      simp [ofText, hparse, Except.mapError, bind, Except.bind]
  | some found =>
      simp only [ofText, parse_spelled h hc, Except.mapError, ok_bind, Option.some.injEq]
      cases hvalid : found.validate with
      | error violation =>
          constructor
          · rintro ⟨⟩
          · rintro ⟨rfl, hok⟩
            rw [hvalid] at hok
            contradiction
      | ok _ =>
          constructor
          · rintro ⟨⟩
            exact ⟨rfl, hvalid⟩
          · rintro ⟨rfl, -⟩
            rfl

end HostPolicy.Config
