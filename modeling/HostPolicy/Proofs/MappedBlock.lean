import HostPolicy.Proofs.Address.Block
import HostPolicy.Proofs.Address.Printed
import HostPolicy.Proofs.RuleText

/-!
# Blocks of mapped addresses

An address is put into canonical form before it is looked up, a block is not. So a block of the
addresses that stand for those of an IPv4 block is compiled and counted, and accepts nothing, where
the IPv4 block accepts its addresses in both spellings.
-/

namespace HostPolicy

/-! ### Blocks as lines -/

theorem Text.range_of_isHex {c : Char} (hc : isHex c = true) :
    '0'.toNat ≤ c.toNat ∧ c.toNat ≤ 'f'.toNat := by
  unfold isHex hexValue? at hc
  split at hc
  · next hdigit =>
      obtain ⟨hleast, hmost⟩ := Char.isDigit_iff_toNat.mp hdigit
      exact ⟨hleast, Nat.le_trans hmost (by decide)⟩
  · split at hc
    · next hsmall => exact ⟨Nat.le_trans (by decide) hsmall.1, hsmall.2⟩
    · split at hc
      · next hlarge => exact ⟨Nat.le_trans (by decide) hlarge.1, Nat.le_trans hlarge.2 (by decide)⟩
      · contradiction

theorem Text.isBlank_of_printed {c : Char} (hlow : 0x20 < c.toNat) (hhigh : c.toNat < 0x7F) :
    isBlank c = false := by
  simp [isBlank]
  omega

theorem Address.isBlank_of_isLiteral {c : Char} (hc : isLiteral c = true) :
    Text.isBlank c = false := by
  simp only [isLiteral, Bool.or_eq_true, beq_iff_eq] at hc
  rcases hc with (hhex | rfl) | rfl
  · obtain ⟨hleast, hmost⟩ := Text.range_of_isHex hhex
    exact Text.isBlank_of_printed (Nat.lt_of_lt_of_le (by decide) hleast)
      (Nat.lt_of_le_of_lt hmost (by decide))
  · rfl
  · rfl

namespace Block

theorem chars_eq (b : Block) : b.chars = b.address.chars ++ '/' :: Text.decimal b.length := by
  cases b <;> rfl

theorem ofLine?_text (b : Block) : Pattern.ofLine? b.text = some (.block b) := by
  have hchars : b.text.toList = b.address.chars ++ '/' :: Text.decimal b.length := by
    rw [text, String.toList_ofList, chars_eq]
  have hliteral : ∀ c ∈ b.address.chars, Address.isLiteral c = true := by
    have hall := Address.all_of_parse? b.address.parse?_text
    rwa [Address.text, String.toList_ofList] at hall
  have hblank : ∀ c ∈ b.text.toList, Text.isBlank c = false := by
    intro c hmem
    simp only [hchars, List.mem_append, List.mem_cons] at hmem
    rcases hmem with hmem | rfl | hmem
    · exact Address.isBlank_of_isLiteral (hliteral c hmem)
    · rfl
    · have hdotted : Address.isDotted c = true := by
        simp [Address.isDotted, Text.forall_mem_decimal b.length c hmem]
      exact Address.isBlank_of_isLiteral (Address.isLiteral_of_isDotted hdotted)
  have htrim : Text.trim b.text = b.text := by
    rw [Text.trim, Text.trimChars_of_not_blank hblank, String.ofList_toList]
  have hslash := b.slash_mem_text
  have hne : b.text ≠ "" := by
    intro hempty
    simp [hempty] at hslash
  simp [Pattern.ofLine?, htrim, hne, Pattern.parse_eq_block hslash b.parse?_text]

variable (bits : BitVec 32) (length : Fin 33)

theorem ofLine?_text_v4 :
    Pattern.ofLine? (v4 bits length).text = some (.block (v4 bits length)) :=
  ofLine?_text _

theorem ofLine?_text_mapped :
    Pattern.ofLine? (mapped bits length).text = some (.block (mapped bits length)) :=
  ofLine?_text _

end Block

/-! ### A block among other lines -/

theorem Pattern.accepts_block_iff (b : Block) (candidate : String) :
    (Pattern.block b).accepts candidate = true ↔
      ∃ x, Address.parse? candidate = some x ∧ b.Covers x.canonical := by
  unfold Pattern.accepts
  cases Address.parse? candidate with
  | none => simp
  | some x => simp [Block.contains_network_iff]

namespace RuleSet

def blocksOf (lines : List String) : List Block :=
  (lines.filterMap Pattern.ofLine?).filterMap Pattern.block?

section Insert

variable {line : String} {b : Block} (hline : Pattern.ofLine? line = some (.block b))
  (first second : List String)

include hline

/-- A block changes nothing but the blocks, also not whether the lines compile. -/
theorem compile_insert_block : compile (first ++ line :: second) =
    (compile (first ++ second)).map fun s =>
      { s with blocks := .ofList (blocksOf first ++ b :: blocksOf second) } := by
  have haddress : (Pattern.block b).address? = none := rfl
  have hblock : (Pattern.block b).block? = some b := rfl
  have hdomain : (Pattern.block b).domain? = none := rfl
  have hglob : (Pattern.block b).glob? = none := rfl
  simp only [compile, ofPatterns, blocksOf, List.filterMap_append, List.filterMap_cons, hline,
    haddress, hblock, hdomain, hglob]
  cases GlobSet.compile (List.filterMap Pattern.glob? (first.filterMap Pattern.ofLine?) ++
      List.filterMap Pattern.glob? (second.filterMap Pattern.ofLine?)) with
  | ok globs => rfl
  | error error => rfl

theorem counts_insert_block : (compile (first ++ line :: second)).map counts =
    (compile (first ++ second)).map fun s =>
      { s.counts with cidr := (blocksOf first).length + (blocksOf second).length + 1 } := by
  rw [compile_insert_block hline]
  cases compile (first ++ second) with
  | ok s => simp [Except.map, counts, BlockSet.size, BlockSet.ofList, Nat.add_assoc]
  | error error => rfl

theorem exists_insert_block {others : RuleSet} (compiles : compile (first ++ second) = .ok others) :
    ∃ s, compile (first ++ line :: second) = .ok s ∧ ∀ candidate,
      s.accepts candidate = true ↔ others.accepts candidate = true ∨
        ∃ x, Address.parse? candidate = some x ∧ b.Covers x.canonical := by
  have hcompile := compile_insert_block hline first second
  rw [compiles, Except.map] at hcompile
  refine ⟨_, hcompile, fun candidate => ?_⟩
  rw [accepts_compile hcompile, accepts_compile compiles, ← Pattern.accepts_block_iff]
  simp only [List.mem_append, List.mem_cons, or_and_right, exists_or, exists_eq_left, hline,
    Option.some.injEq, exists_eq_left', or_assoc]
  exact or_congr_right or_comm

end Insert

end RuleSet

/-! ### Mapped blocks -/

namespace Address

theorem mapped?_eq_none_of_canonical {x : Address} {high : BitVec 128}
    (h : x.canonical = .v6 high) : mapped? high = none := by
  cases x with
  | v4 bits => contradiction
  | v6 bits =>
      cases hmapped : mapped? bits with
      | some low =>
          rw [canonical, hmapped] at h
          contradiction
      | none =>
          rw [canonical, hmapped] at h
          rwa [← v6.inj h]

theorem mapped?_of_sameLeading {bits : BitVec 32} {x : BitVec 128}
    (h : Block.SameLeading 96 (mapped bits) x) : (mapped? x).isSome := by
  have hshift : mapped bits >>> 32 = x >>> 32 := (Block.sameLeading_iff_shift (by decide)).mp h
  rw [mapped?, ← hshift, ushiftRight_mapped]
  rfl

end Address

/-- What would be in the block is an IPv4 address in canonical form. -/
theorem Block.not_covers_canonical (bits : BitVec 32) (length : Fin 33) (x : Address) :
    ¬(mapped bits length).Covers x.canonical := by
  rintro ⟨hfamily, hbits⟩
  cases hcanonical : x.canonical with
  | v4 low => simp [hcanonical, mapped, address, Address.width] at hfamily
  | v6 high =>
      rw [hcanonical] at hbits
      have hlead : SameLeading 96 (Address.mapped bits) high := fun i hi =>
        hbits i (Nat.lt_of_lt_of_le hi (Nat.le_add_right 96 length))
      have hsome := Address.mapped?_of_sameLeading hlead
      rw [Address.mapped?_eq_none_of_canonical hcanonical] at hsome
      contradiction

namespace RuleSet

/-- Written as a block of mapped addresses, an IPv4 block compiles with the same rules as otherwise
and counts as much, but the rule set accepts what the other rules accept and no more. Written as an
IPv4 block it accepts its addresses besides, in both spellings, so the two agree on everything but
the addresses in the block that no other rule accepts. -/
theorem mapped_block_accepts_nothing (bits : BitVec 32) (length : Fin 33)
    (first second : List String) :
    let address := (Address.v4 bits).text
    let plainLines := first ++ (address ++ "/" ++ toString (length : Nat)) :: second
    let mappedLines :=
      first ++ ("::ffff:" ++ address ++ "/" ++ toString (96 + length : Nat)) :: second
    (compile mappedLines).map counts = (compile plainLines).map counts ∧
    ∀ others, compile (first ++ second) = .ok others →
      ∃ mapped plain, compile mappedLines = .ok mapped ∧ compile plainLines = .ok plain ∧
        ∀ candidate,
          let inBlock := ∃ x, Address.parse? candidate = some x ∧
            (Block.v4 bits length).Covers x.canonical
          mapped.accepts candidate = others.accepts candidate ∧
          (plain.accepts candidate = true ↔ others.accepts candidate = true ∨ inBlock) ∧
          (mapped.accepts candidate = plain.accepts candidate ↔
            (inBlock → others.accepts candidate = true)) := by
  intro address plainLines mappedLines
  have hplainLine := Block.ofLine?_text_v4 bits length
  have hmappedLine := Block.ofLine?_text_mapped bits length
  rw [Block.text_v4] at hplainLine
  rw [Block.text_mapped] at hmappedLine
  constructor
  · rw [counts_insert_block hmappedLine, counts_insert_block hplainLine]
  · intro others compiles
    obtain ⟨plain, hplain, hin⟩ := exists_insert_block hplainLine first second compiles
    obtain ⟨mapped, hmapped, hnone⟩ := exists_insert_block hmappedLine first second compiles
    refine ⟨mapped, plain, hmapped, hplain, fun candidate => ?_⟩
    intro inBlock
    have hsame : mapped.accepts candidate = others.accepts candidate := by
      rw [Bool.eq_iff_iff, hnone]
      exact or_iff_left fun ⟨x, _, hcovers⟩ => Block.not_covers_canonical bits length x hcovers
    refine ⟨hsame, hin candidate, ?_⟩
    rw [hsame, Bool.eq_iff_iff, hin]
    exact ⟨fun hiff hcovers => hiff.mpr (Or.inr hcovers), fun himp => ⟨Or.inl, Or.rec id himp⟩⟩

theorem mapped_block_accepts_nothing_between :
    let mappedLines := ["10.0.0.1", "::ffff:10.0.0.0/104", "*.example.com"]
    let plainLines := ["10.0.0.1", "10.0.0.0/8", "*.example.com"]
    ∃ mapped plain, compile mappedLines = .ok mapped ∧ compile plainLines = .ok plain ∧
      mapped.counts = plain.counts ∧ mapped.accepts "::ffff:10.0.0.1" = true ∧
      mapped.accepts "::ffff:10.0.0.2" = false ∧ plain.accepts "::ffff:10.0.0.2" = true := by
  intro mappedLines plainLines
  obtain ⟨hcounts, hinsert⟩ :=
    mapped_block_accepts_nothing 0x0A000000#32 8 ["10.0.0.1"] ["*.example.com"]
  obtain ⟨others, compiles, hfirst, hsecond⟩ : ∃ others,
      compile ["10.0.0.1", "*.example.com"] = .ok others ∧
        others.accepts "::ffff:10.0.0.1" = true ∧ others.accepts "::ffff:10.0.0.2" = false :=
    ⟨_, rfl, by decide, by decide⟩
  obtain ⟨mapped, plain, hmapped, hplain, haccepts⟩ := hinsert others compiles
  rw [hmapped, hplain] at hcounts
  refine ⟨mapped, plain, hmapped, hplain, Except.ok.inj hcounts, ?_, ?_, ?_⟩
  · rw [(haccepts _).1, hfirst]
  · rw [(haccepts _).1, hsecond]
  · rw [(haccepts _).2.1]
    exact Or.inr ⟨.v6 (Address.mapped 0x0A000002#32), by decide, rfl, by decide⟩

/-- The IPv4 address is in the block, in its mapped spelling too, and only the IPv4 block accepts
it. -/
theorem mapped_block_refuses : ∃ mapped plain,
    compile ["::ffff:10.0.0.0/104"] = .ok mapped ∧ compile ["10.0.0.0/8"] = .ok plain ∧
      mapped.counts = plain.counts ∧
      mapped.accepts "10.0.0.1" = false ∧ plain.accepts "10.0.0.1" = true ∧
      mapped.accepts "::ffff:10.0.0.1" = false ∧ plain.accepts "::ffff:10.0.0.1" = true :=
  ⟨_, _, rfl, rfl, by decide, by decide, by decide, by decide, by decide⟩

end RuleSet

end HostPolicy
