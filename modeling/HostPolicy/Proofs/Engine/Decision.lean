import HostPolicy.Engine.Step
import HostPolicy.Proofs.LetterCase

/-!
# What a decision depends on

A decision is by the host of an address, however the host is written: with a port or without, in
brackets or not, and an address literal in any of its spellings. The case of letters does not matter
in it, nor does it in the rules.
-/

namespace HostPolicy

theorem RuleSet.accepts_of_canonical (rules : RuleSet) {s t : String} {a b : Address}
    (hs : Address.parse? s = some a) (ht : Address.parse? t = some b)
    (same : a.canonical = b.canonical) : rules.accepts s = rules.accepts t := by
  simp only [accepts, hs, ht, AddressSet.contains, BlockSet.contains, same]

namespace Endpoint

variable {name port : String}

theorem host_of_parse? {a : Address} (h : Address.parse? name = some a) : host name = name := by
  rw [host, hostChars_of_parse? h, String.ofList_toList]

theorem host_of_not_mem (h : ':' ∉ name.toList) : host name = name := by
  rw [host, hostChars_of_not_mem h, String.ofList_toList]

theorem host_bare (hne : name ≠ "") (hcolon : ':' ∉ name.toList)
    (hname : ∀ c ∈ name.toList, isBracket c = false) (hport : IsPortText port.toList) :
    host (name ++ ":" ++ port) = name := by
  have hchars : (name ++ ":" ++ port).toList = name.toList ++ ':' :: port.toList := by simp
  rw [host, hchars, hostChars_bare (by simpa using hne) hcolon hname hport, String.ofList_toList]

theorem host_bracketed (hne : name ≠ "") (hname : ∀ c ∈ name.toList, isBracket c = false)
    (hport : IsPortText port.toList) : host ("[" ++ name ++ "]:" ++ port) = name := by
  have hchars : ("[" ++ name ++ "]:" ++ port).toList =
      '[' :: (name.toList ++ [']']) ++ ':' :: port.toList := by simp
  rw [host, hchars, hostChars_bracketed (by simpa using hne) hname hport, String.ofList_toList]

end Endpoint

namespace Engine

theorem decide_congr {e f : Engine} {address other : String}
    (same : e.settings.policy.reversed = f.settings.policy.reversed)
    (hempty : address = "" ↔ other = "")
    (haccepts : e.rules.accepts (Endpoint.host address) = f.rules.accepts (Endpoint.host other)) :
    e.decide address = f.decide other := by
  unfold decide Policy.decide
  rw [haccepts, same]
  exact if_congr hempty rfl rfl

theorem decide_of_host (e : Engine) {address other : String} (hne : address ≠ "")
    (hother : other ≠ "") (hhost : Endpoint.host address = Endpoint.host other) :
    e.decide address = e.decide other :=
  decide_congr rfl (iff_of_false hne hother) (by rw [hhost])

/-- A decision is the same for a host by itself, for the host with any port, and with any port and
in brackets; and it is the same for all spellings of an address and of what it is mapped to. -/
theorem decide_spelling (e : Engine) {port : String} (hport : Endpoint.IsPortText port.toList) :
    (∀ name, name ≠ "" → (∀ c ∈ name.toList, c ≠ ':' ∧ c ≠ '[' ∧ c ≠ ']') →
      e.decide (name ++ ":" ++ port) = e.decide name ∧
        e.decide ("[" ++ name ++ "]:" ++ port) = e.decide name) ∧
    ∀ s t a b, Address.parse? s = some a → Address.parse? t = some b →
      a.canonical = b.canonical →
      e.decide s = e.decide t ∧ e.decide ("[" ++ s ++ "]:" ++ port) = e.decide t ∧
        e.decide ("[" ++ t ++ "]:" ++ port) = e.decide t := by
  have hbracketed : ∀ name : String, name ≠ "" → Endpoint.host name = name →
      (∀ c ∈ name.toList, Endpoint.isBracket c = false) →
      e.decide ("[" ++ name ++ "]:" ++ port) = e.decide name := by
    intro name hne hhost hname
    refine e.decide_of_host (by simp) hne ?_
    rw [Endpoint.host_bracketed hne hname hport, hhost]
  constructor
  · intro name hne hplain
    have hcolon : ':' ∉ name.toList := fun hmem => (hplain ':' hmem).1 rfl
    have hname : ∀ c ∈ name.toList, Endpoint.isBracket c = false := by
      intro c hmem
      simp [Endpoint.isBracket, (hplain c hmem).2]
    have hhost : Endpoint.host name = name := Endpoint.host_of_not_mem hcolon
    refine ⟨?_, hbracketed name hne hhost hname⟩
    refine e.decide_of_host (by simp) hne ?_
    rw [Endpoint.host_bare hne hcolon hname hport, hhost]
  · intro s t a b hs ht same
    have hliteral : ∀ {text : String} {x : Address}, Address.parse? text = some x →
        text ≠ "" ∧ Endpoint.host text = text ∧
          e.decide ("[" ++ text ++ "]:" ++ port) = e.decide text := by
      intro text x hparse
      have hne : text ≠ "" := by
        rintro rfl
        contradiction
      have hhost := Endpoint.host_of_parse? hparse
      refine ⟨hne, hhost, hbracketed text hne hhost ?_⟩
      exact fun c hmem => Endpoint.isBracket_of_isLiteral (Address.all_of_parse? hparse c hmem)
    obtain ⟨hneS, hhostS, hportS⟩ := hliteral hs
    obtain ⟨hneT, hhostT, hportT⟩ := hliteral ht
    have hspelled : e.decide s = e.decide t := by
      refine decide_congr rfl (iff_of_false hneS hneT) ?_
      rw [hhostS, hhostT]
      exact e.rules.accepts_of_canonical hs ht same
    exact ⟨hspelled, hportS.trans hspelled, hportT⟩

theorem decide_spelling_mapped :
    let e := ofPatterns ⟨.admission, false⟩ ["a.org", "10.0.0.1"]
    Endpoint.IsPortText "+0443".toList ∧
      e.decide "[a.org]:+0443" = e.decide "a.org" ∧
      e.decide "[::FFFF:a00:1]:+0443" = e.decide "10.0.0.1" := by
  intro e
  have hport : Endpoint.IsPortText "+0443".toList :=
    ⟨['0', '4', '4', '3'], Or.inr rfl, by simp, by decide, by decide⟩
  obtain ⟨hname, hliteral⟩ := decide_spelling e hport
  refine ⟨hport, (hname "a.org" (by decide) (by simp)).2, ?_⟩
  exact (hliteral "::FFFF:a00:1" "10.0.0.1" (.v6 0xFFFF0A000001) (.v4 0x0A000001) (by decide)
    (by decide) (by decide)).2.1

/-- Rules that differ in the case of their letters only are as many of each family, and engines with
such rules decide alike of addresses that do. -/
theorem decide_letterCase {patterns others : List String} {rules otherRules : RuleSet}
    (same : List.Forall₂ (fun s t => lowerCase s = lowerCase t) patterns others)
    (compiles : RuleSet.compile patterns = .ok rules)
    (othersCompile : RuleSet.compile others = .ok otherRules) :
    rules.counts = otherRules.counts ∧
    ∀ e f : Engine, e.rules = rules → f.rules = otherRules →
      e.settings.policy.reversed = f.settings.policy.reversed →
      ∀ address other, lowerCase address = lowerCase other →
        e.decide address = f.decide other := by
  have hrules : rules = otherRules := by
    rw [RuleSet.compile_congr same, othersCompile] at compiles
    exact (Except.ok.inj compiles).symm
  refine ⟨by rw [hrules], ?_⟩
  intro e f he hf hreversed address other haddress
  refine decide_congr hreversed (eq_empty_iff_of_lowerCase_eq haddress) ?_
  rw [he, hf, hrules]
  exact otherRules.accepts_congr (Endpoint.host_congr haddress)

/-- Rules of every family, two of which fall together in either case. -/
theorem decide_letterCase_mixed :
    let patterns := ["*.Example.ORG", ".corp", "2001:DB8::/32", "::ffff:a00:1", "a.org", "A.org"]
    let others := ["*.example.org", ".CORP", "2001:db8::/32", "::FFFF:A00:1", "A.ORG", "a.org"]
    let e := ofPatterns ⟨.admission, true⟩ patterns
    let f := ofPatterns ⟨.bypass, true⟩ others
    RuleSet.compile patterns = .ok e.rules ∧ RuleSet.compile others = .ok f.rules ∧
      e.rules.counts = f.rules.counts ∧
      e.decide "[2001:db8::A]:443" = f.decide "[2001:DB8::a]:443" := by
  intro patterns others e f
  have same : List.Forall₂ (fun s t => lowerCase s = lowerCase t) patterns others := by decide
  have compiles : RuleSet.compile patterns = .ok e.rules := rfl
  have othersCompile : RuleSet.compile others = .ok f.rules := rfl
  obtain ⟨hcounts, hdecide⟩ := decide_letterCase same compiles othersCompile
  exact ⟨compiles, othersCompile, hcounts,
    hdecide e f rfl rfl rfl "[2001:db8::A]:443" "[2001:DB8::a]:443" (by decide)⟩

end Engine

end HostPolicy
