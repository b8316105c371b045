import HostPolicy.Proofs.Config.Meaning
import HostPolicy.Proofs.Json.SoundRecord

/-!
# What is accepted is JSON

Every text that a configuration is read from spells a value, so that the texts that are accepted
are the spellings of the values that mean a valid configuration, and no others.
-/

namespace HostPolicy.Config

open Json

variable {cs rest : List Char}

theorem rest_of_layoutNamed {name : String} {layout : Collection}
    (h : layoutNamed name cs = .ok (layout, rest)) : rest = cs := by
  unfold layoutNamed at h
  split at h
  · cases h
    rfl
  · cases h
    rfl
  · contradiction

theorem leads_of_readNull {u : Unit} (h : readNull cs = .ok (u, rest)) :
    Leads cs (Value.tokens .null) rest := by
  obtain ⟨behind, hvalue, h⟩ := bind_eq_ok h
  have hskip := skipSpace_of_valueText hvalue
  split at h
  · obtain ⟨after, hword, h⟩ := bind_eq_ok h
    cases h
    refine .of_skipSpace ?_ (.done rest)
    rw [hskip, eq_append_of_readWord hword]
    rfl
  · exact absurd h ((fails_mistyped _ _).ne_ok _)

theorem exists_of_readOnlyKey {name : String} (h : readOnlyKey cs = .ok (name, rest)) :
    ∃ key : Quoted, Leads cs [key.token] rest := by
  unfold readOnlyKey at h
  split at h
  · contradiction
  · next hskip =>
      obtain ⟨⟨read, after⟩, hquoted, h⟩ := bind_eq_ok h
      cases h
      obtain ⟨key, hkey⟩ := exists_of_readQuoted hquoted
      exact ⟨key, .of_quoted hskip hkey⟩
  · contradiction
  · contradiction

theorem sound_layout : Sound readLayout := by
  intro cs layout rest h
  obtain ⟨behind, hvalue, h⟩ := bind_eq_ok h
  have hskip := skipSpace_of_valueText hvalue
  split at h
  · obtain ⟨⟨name, after⟩, hquoted, h⟩ := bind_eq_ok h
    obtain rfl := rest_of_layoutNamed h
    obtain ⟨q, hq⟩ := exists_of_readQuoted hquoted
    exact ⟨.text q, .of_quoted hskip hq⟩
  · obtain ⟨⟨name, keyed⟩, hkey, h⟩ := bind_eq_ok h
    obtain ⟨⟨found, named⟩, hnamed, h⟩ := bind_eq_ok h
    obtain ⟨value, hcolon, h⟩ := bind_eq_ok h
    obtain ⟨⟨_, last⟩, hnull, hend⟩ := bind_eq_ok h
    obtain rfl := rest_of_layoutNamed hnamed
    obtain ⟨key, hkey⟩ := exists_of_readOnlyKey hkey
    simp only [] at hend
    split at hend
    · next hclose =>
        cases hend
        have hmember := (leads_of_readColon hcolon).append (leads_of_readNull hnull)
        have hbrace : Leads last [['\x7d']] rest := .of_skipSpace hclose (.done rest)
        exact ⟨.object [(key, .null)], .of_skipSpace hskip (hkey.append (hmember.append hbrace))⟩
    · contradiction
    · contradiction
  · contradiction

theorem sound_file : Sound readFile := by
  refine sound_record ?_ ?_
  · intro name draft cs later rest h
    unfold fileMember at h
    split at h
    · exact exists_of_readMember (sound_text _) h
    · exact exists_of_skipMember h
  · intro cs outcome mid rest h hclose
    obtain ⟨⟨path, after⟩, hpath, h⟩ := bind_eq_ok h
    refine exists_of_readField (sound_text _) hpath ⟨[], ?_⟩
    cases path with
    | none =>
        cases h
        exact hclose
    | some path =>
        cases h
        exact hclose

theorem sound_redis : Sound readRedis := by
  refine sound_record ?_ ?_
  · intro name draft cs later rest h
    unfold redisMember at h
    split at h
    · exact exists_of_readMember (sound_text _) h
    · exact exists_of_readMember sound_integer h
    · exact exists_of_readMember (sound_text _).option h
    · exact exists_of_readMember (sound_text _) h
    · exact exists_of_readMember sound_layout h
    · exact exists_of_skipMember h
  · intro cs outcome mid rest h hclose
    obtain ⟨⟨address, _⟩, haddress, h⟩ := bind_eq_ok h
    obtain ⟨⟨database, _⟩, hdatabase, h⟩ := bind_eq_ok h
    obtain ⟨⟨password, _⟩, hpassword, h⟩ := bind_eq_ok h
    obtain ⟨⟨key, _⟩, hkey, h⟩ := bind_eq_ok h
    obtain ⟨⟨layout, _⟩, hlayout, h⟩ := bind_eq_ok h
    cases h
    refine exists_of_readField (sound_text _) haddress ?_
    refine exists_of_readField sound_integer hdatabase ?_
    refine exists_of_readField (sound_text _).option hpassword ?_
    refine exists_of_readField (sound_text _) hkey ?_
    exact exists_of_readField sound_layout hlayout ⟨[], hclose⟩

theorem sound_config : Sound read := by
  refine sound_record ?_ ?_
  · intro name draft cs later rest h
    unfold member at h
    split at h
    · exact exists_of_readMember sound_bool h
    · exact exists_of_readMember (sound_text _).list h
    · exact exists_of_readMember sound_natural h
    · exact exists_of_readMember sound_natural h
    · exact exists_of_readMember sound_file.option h
    · exact exists_of_readMember sound_redis.option h
    · exact exists_of_skipMember h
  · intro cs outcome mid rest h hclose
    obtain ⟨⟨reversed, _⟩, hreversed, h⟩ := bind_eq_ok h
    obtain ⟨⟨patterns, _⟩, hpatterns, h⟩ := bind_eq_ok h
    obtain ⟨⟨reloadSeconds, _⟩, hreload, h⟩ := bind_eq_ok h
    obtain ⟨⟨timeoutSeconds, _⟩, htimeout, h⟩ := bind_eq_ok h
    obtain ⟨⟨file, _⟩, hfile, h⟩ := bind_eq_ok h
    obtain ⟨⟨redis, _⟩, hredis, h⟩ := bind_eq_ok h
    cases h
    refine exists_of_readField sound_bool hreversed ?_
    refine exists_of_readField (sound_text _).list hpatterns ?_
    refine exists_of_readField sound_natural hreload ?_
    refine exists_of_readField sound_natural htimeout ?_
    refine exists_of_readField sound_file.option hfile ?_
    exact exists_of_readField sound_redis.option hredis ⟨[], hclose⟩

theorem exists_spelledBy {text : String} {c : Config} (h : ofText text = .ok c) :
    ∃ v : Value, v.SpelledBy text := by
  obtain ⟨found, hparse, _⟩ := bind_eq_ok h
  unfold parse at hparse
  cases hwhole : readWhole read text.toList with
  | error fault =>
      rw [hwhole] at hparse
      contradiction
  | ok found =>
      obtain ⟨⟨_, rest⟩, hread, hend⟩ := bind_eq_ok hwhole
      obtain ⟨v, hv⟩ := sound_config hread
      simp only [] at hend
      split at hend
      · next hspace => exact ⟨v, hv.spells hspace⟩
      · contradiction

/-- The texts that are accepted are the spellings of what means a valid configuration. -/
theorem ofText_eq_ok_iff_exists {text : String} {c : Config} :
    ofText text = .ok c ↔
      ∃ v : Value, v.SpelledBy text ∧ config? v = some c ∧ c.validate = .ok () := by
  constructor
  · intro h
    obtain ⟨v, hspelled⟩ := exists_spelledBy h
    exact ⟨v, hspelled, (ofText_eq_ok_iff hspelled).mp h⟩
  · rintro ⟨v, hspelled, h⟩
    exact (ofText_eq_ok_iff hspelled).mpr h

end HostPolicy.Config
