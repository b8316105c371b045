import HostPolicy.Config.Reader
import HostPolicy.Config.Writer
import HostPolicy.Proofs.Json.RoundTrip

/-!
# A configuration that was written is read back

Sources and a password that are absent have no member, and no member stands for the same.
-/

namespace HostPolicy

open Json

theorem readsBack_file (f : FileSource) : ReadsBack Config.readFile f.chars f := by
  have hfills : Fills Config.fileMember none [("path", some (textChars f.path))] (some f.path) :=
    .present ((readsBack_text _ f.path).takesMember id (fun _ path => some path) rfl rfl) (.done _)
  exact hfills.readsBack (show Config.finishFile (some f.path) = .ok f from rfl)

theorem readsBack_layout (layout : Collection) :
    ReadsBack Config.readLayout layout.chars layout := by
  have hback : ∀ name, (∀ rest, Config.layoutNamed name rest = .ok (layout, rest)) →
      ReadsBack Config.readLayout (textChars name) layout := by
    intro name hnamed
    refine ⟨rfl, ?_⟩
    intro rest _
    have hopens : opens (textChars name) = true := rfl
    rw [Config.readLayout, valueText_of_opens hopens, textChars_append]
    simp [bind, Except.bind, readQuoted_quote, hnamed]
  cases layout with
  | set => exact hback "set" fun _ => rfl
  | hash => exact hback "hash" fun _ => rfl

theorem readsBack_redis (r : RedisSource) : ReadsBack Config.readRedis r.chars r := by
  obtain ⟨address, database, password, key, layout⟩ := r
  have hfinish : Config.finishRedis (.missingField "addr")
      ⟨some address, some database, password.map some, some key, some layout⟩ =
        .ok ⟨address, database, password, key, layout⟩ := by
    cases password <;> rfl
  refine Fills.readsBack ?_ hfinish
  refine .present ((readsBack_text _ address).takesMember Config.RedisDraft.address
    (fun d v => { d with address := some v }) rfl rfl) ?_
  refine .present ((readsBack_integer database).takesMember Config.RedisDraft.database
    (fun d v => { d with database := some v }) rfl rfl) ?_
  refine .optional ⟨some address, some database, password.map some, none, none⟩ ?_ ?_ ?_
  · rintro rfl
    rfl
  · rintro text rfl
    exact (readsBack_text _ text).option.takesMember Config.RedisDraft.password
      (fun d v => { d with password := some v }) rfl rfl
  · refine .present ((readsBack_text _ key).takesMember Config.RedisDraft.key
      (fun d v => { d with key := some v }) rfl rfl) ?_
    refine .present ((readsBack_layout layout).takesMember Config.RedisDraft.layout
      (fun d v => { d with layout := some v }) rfl rfl) ?_
    exact .done _

theorem readsBack_config (c : Config) : ReadsBack Config.read c.chars c := by
  obtain ⟨reversed, patterns, reloadSeconds, timeoutSeconds, file, redis⟩ := c
  have htexts : ReadsBack (readList readText) (listChars (patterns.map textChars)) patterns :=
    .list fun pattern _ => readsBack_text _ pattern
  have hfinish : Config.finish ⟨some reversed, some patterns, some reloadSeconds,
      some timeoutSeconds, file.map some, redis.map some⟩ =
        .ok ⟨reversed, patterns, reloadSeconds, timeoutSeconds, file, redis⟩ := by
    cases file <;> cases redis <;> rfl
  refine Fills.readsBack ?_ hfinish
  refine .present ((readsBack_bool reversed).takesMember Config.Draft.reversed
    (fun d v => { d with reversed := some v }) rfl rfl) ?_
  refine .present (htexts.takesMember Config.Draft.patterns
    (fun d v => { d with patterns := some v }) rfl rfl) ?_
  refine .present ((readsBack_natural reloadSeconds).takesMember Config.Draft.reloadSeconds
    (fun d v => { d with reloadSeconds := some v }) rfl rfl) ?_
  refine .present ((readsBack_natural timeoutSeconds).takesMember Config.Draft.timeoutSeconds
    (fun d v => { d with timeoutSeconds := some v }) rfl rfl) ?_
  refine .optional ⟨some reversed, some patterns, some reloadSeconds, some timeoutSeconds,
    file.map some, none⟩ ?_ ?_ ?_
  · rintro rfl
    rfl
  · rintro f rfl
    exact (readsBack_file f).option.takesMember Config.Draft.file
      (fun d v => { d with file := some v }) rfl rfl
  · refine .optional ⟨some reversed, some patterns, some reloadSeconds, some timeoutSeconds,
      file.map some, redis.map some⟩ ?_ ?_ (.done _)
    · rintro rfl
      rfl
    · rintro r rfl
      exact (readsBack_redis r).option.takesMember Config.Draft.redis
        (fun d v => { d with redis := some v }) rfl rfl

namespace Config

/-- Valid or not. -/
theorem parse_text (c : Config) : parse c.text = .ok c := by
  have hread : readWhole read c.text.toList = .ok c := by
    rw [text, String.toList_ofList]
    exact readWhole_back (readsBack_config c)
  rw [parse, hread]
  rfl

theorem ofText_text (c : Config) (hvalid : c.validate = .ok ()) : ofText c.text = .ok c := by
  rw [ofText, parse_text]
  simp [Except.mapError, bind, Except.bind, hvalid, pure, Except.pure]

theorem ofText_text_rare :
    let c : Config := ⟨true, ["\x00\x1f\n\"\\/\x7f", "𝄞é\uffff", ""], 18446744073709551615, 1,
      some ⟨"/a\tb"⟩, some ⟨"host:1", 9223372036854775807, some "", "\x7d,]", .hash⟩⟩
    c.validate = .ok () ∧ ofText c.text = .ok c := by
  intro c
  have hvalid : c.validate = .ok () := by rfl
  exact ⟨hvalid, ofText_text c hvalid⟩

end Config

end HostPolicy
