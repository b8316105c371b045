import HostPolicy.Proofs.RuleSet
import Mathlib.Data.Nat.Bitwise

/-!
# The addresses of a block

A block holds the addresses of its family that share its leading bits. The bits that follow make no
difference: they are cleared for its first address and set for its last, and between the two lie all
words that start as they do.
-/

namespace HostPolicy

namespace Block

/-! ### Leading bits of words -/

/-- Whether the first `length` bits of two words are the same. -/
def SameLeading {width : Nat} (length : Nat) (a x : BitVec width) : Prop :=
  ∀ i < length, a.getMsbD i = x.getMsbD i

section Words

variable {width length : Nat} {a x : BitVec width}

theorem getLsbD_hostMask (i : Nat) :
    (hostMask width length).getLsbD i = decide (length + i < width) := by
  rw [hostMask, BitVec.getLsbD_ushiftRight, BitVec.getLsbD_allOnes]

theorem getMsbD_lowest {i : Nat} (hi : i < length) :
    (lowest a length).getMsbD i = a.getMsbD i := by
  rw [BitVec.getMsbD_eq_getLsbD, BitVec.getMsbD_eq_getLsbD]
  by_cases hin : i < width
  · have hfree : ¬length + (width - 1 - i) < width := by omega
    rw [lowest, BitVec.getLsbD_and, BitVec.getLsbD_not, getLsbD_hostMask, decide_eq_false hfree,
      decide_eq_true (show width - 1 - i < width by omega), Bool.not_false, Bool.and_true,
      Bool.and_true]
  · rw [decide_eq_false hin, Bool.false_and, Bool.false_and]

/-- All bits but the last ones are left when the word is moved down by as many places. -/
theorem sameLeading_iff_shift (hlength : length ≤ width) :
    SameLeading length a x ↔ a >>> (width - length) = x >>> (width - length) := by
  constructor
  · intro hsame
    apply BitVec.eq_of_getLsbD_eq
    intro i hi
    rw [BitVec.getLsbD_ushiftRight, BitVec.getLsbD_ushiftRight]
    by_cases hin : width - length + i < width
    · have hbit := hsame (length - 1 - i) (by omega)
      have hplace : width - 1 - (length - 1 - i) = width - length + i := by omega
      rw [BitVec.getMsbD_eq_getLsbD, BitVec.getMsbD_eq_getLsbD, hplace] at hbit
      simpa [show length - 1 - i < width by omega] using hbit
    · rw [BitVec.getLsbD_of_ge _ _ (Nat.le_of_not_lt hin),
        BitVec.getLsbD_of_ge _ _ (Nat.le_of_not_lt hin)]
  · intro hshift i hi
    have hplace : width - length + (length - 1 - i) = width - 1 - i := by omega
    have hbit := congrArg (·.getLsbD (length - 1 - i)) hshift
    simp only [BitVec.getLsbD_ushiftRight, hplace] at hbit
    rw [BitVec.getMsbD_eq_getLsbD, BitVec.getMsbD_eq_getLsbD, hbit]

theorem sameLeading_width_iff : SameLeading width a x ↔ a = x := by
  rw [sameLeading_iff_shift (Nat.le_refl width), Nat.sub_self, BitVec.ushiftRight_zero,
    BitVec.ushiftRight_zero]

/-! ### The first and the last word of a block -/

theorem toNat_hostMask (hlength : length ≤ width) :
    (hostMask width length).toNat = 2 ^ (width - length) - 1 := by
  have hpow : 2 ^ width = 2 ^ length * 2 ^ (width - length) := by
    rw [← Nat.pow_add, Nat.add_sub_cancel' hlength]
  have hpos : 0 < 2 ^ length * 2 ^ (width - length) := hpow ▸ Nat.pow_pos Nat.two_pos
  rw [hostMask, BitVec.toNat_ushiftRight, BitVec.toNat_allOnes, Nat.shiftRight_eq_div_pow, hpow]
  simpa using Nat.mul_sub_div 0 (2 ^ length) (2 ^ (width - length)) hpos

theorem lowest_eq_shift (hlength : length ≤ width) :
    lowest a length = a >>> (width - length) <<< (width - length) := by
  apply BitVec.eq_of_getLsbD_eq
  intro i hi
  rw [lowest, BitVec.getLsbD_and, BitVec.getLsbD_not, getLsbD_hostMask, BitVec.getLsbD_shiftLeft,
    BitVec.getLsbD_ushiftRight, decide_eq_true hi]
  by_cases hfree : i < width - length
  · have hset : length + i < width := by omega
    simp [hfree, hset]
  · have hset : ¬length + i < width := by omega
    have hplace : width - length + (i - (width - length)) = i := by omega
    simp [hfree, hset, hplace]

theorem highest_eq_or : highest a length = lowest a length ||| hostMask width length := by
  apply BitVec.eq_of_getLsbD_eq
  intro i hi
  simp only [highest, lowest, BitVec.getLsbD_or, BitVec.getLsbD_and, BitVec.getLsbD_not,
    decide_eq_true hi]
  cases (hostMask width length).getLsbD i <;> simp

theorem toNat_lowest (hlength : length ≤ width) :
    (lowest a length).toNat = a.toNat / 2 ^ (width - length) * 2 ^ (width - length) := by
  rw [lowest_eq_shift hlength, BitVec.toNat_shiftLeft, BitVec.toNat_ushiftRight,
    Nat.shiftRight_eq_div_pow, Nat.shiftLeft_eq]
  exact Nat.mod_eq_of_lt (Nat.lt_of_le_of_lt (Nat.div_mul_le_self _ _) a.isLt)

theorem toNat_highest (hlength : length ≤ width) :
    (highest a length).toNat = (lowest a length).toNat + (2 ^ (width - length) - 1) := by
  have hmask : 2 ^ (width - length) - 1 < 2 ^ (width - length) :=
    Nat.sub_one_lt (Nat.pow_pos Nat.two_pos).ne'
  rw [highest_eq_or, BitVec.toNat_or, toNat_lowest hlength, toNat_hostMask hlength,
    ← Nat.shiftLeft_eq]
  exact (Nat.shiftLeft_add_eq_or_of_lt hmask _).symm

/-- A word is in range exactly if dividing by the size of the range takes it where it takes the
block's own word. -/
theorem between_iff_sameLeading (hlength : length ≤ width) :
    lowest a length ≤ x ∧ x ≤ highest a length ↔ SameLeading length a x := by
  rw [sameLeading_iff_shift hlength, BitVec.le_def, BitVec.le_def, toNat_highest hlength,
    toNat_lowest hlength, ← BitVec.toNat_inj, BitVec.toNat_ushiftRight, BitVec.toNat_ushiftRight,
    Nat.shiftRight_eq_div_pow, Nat.shiftRight_eq_div_pow]
  have hpos : 0 < 2 ^ (width - length) := Nat.pow_pos Nat.two_pos
  generalize 2 ^ (width - length) = size at hpos ⊢
  rw [eq_comm (a := a.toNat / size), Nat.div_eq_iff hpos, Nat.add_sub_assoc hpos]

end Words

end Block

/-! ### Addresses and blocks -/

/-- How many bits an address has, which tells its family. -/
def Address.width : Address → Nat
  | v4 _ => 32
  | v6 _ => 128

/-- The bits of an address, the leading one first. -/
def Address.bit : Address → Nat → Bool
  | v4 bits => bits.getMsbD
  | v6 bits => bits.getMsbD

namespace Block

def address : Block → Address
  | v4 address _ => .v4 address
  | v6 address _ => .v6 address

def length : Block → Nat
  | v4 _ length => length
  | v6 _ length => length

/-- Whether an address is of the block's family and starts with the bits that its members share. -/
def Covers (b : Block) (x : Address) : Prop :=
  b.address.width = x.width ∧ ∀ i < b.length, b.address.bit i = x.bit i

theorem covers_v4_iff {a x : BitVec 32} {length : Fin 33} :
    (v4 a length).Covers (.v4 x) ↔ SameLeading length a x :=
  and_iff_right rfl

theorem covers_v6_iff {a x : BitVec 128} {length : Fin 129} :
    (v6 a length).Covers (.v6 x) ↔ SameLeading length a x :=
  and_iff_right rfl

theorem contains_iff_covers (b : Block) (x : Address) : b.contains x = true ↔ b.Covers x := by
  cases b with
  | v4 a length =>
      cases x with
      | v4 x =>
          rw [covers_v4_iff, ← between_iff_sameLeading (Nat.le_of_lt_succ length.isLt)]
          simp [contains]
      | v6 x => simp [contains, Covers, address, Address.width]
  | v6 a length =>
      cases x with
      | v4 x => simp [contains, Covers, address, Address.width]
      | v6 x =>
          rw [covers_v6_iff, ← between_iff_sameLeading (Nat.le_of_lt_succ length.isLt)]
          simp [contains]

theorem covers_network (b : Block) (x : Address) : b.network.Covers x ↔ b.Covers x := by
  cases b with
  | v4 a length =>
      refine and_congr_right fun _ => forall₂_congr fun i hi => ?_
      exact iff_of_eq (congrArg (· = x.bit i) (getMsbD_lowest hi))
  | v6 a length =>
      refine and_congr_right fun _ => forall₂_congr fun i hi => ?_
      exact iff_of_eq (congrArg (· = x.bit i) (getMsbD_lowest hi))

theorem contains_network_iff (b : Block) (x : Address) :
    b.network.contains x = true ↔ b.Covers x := by
  rw [contains_iff_covers, covers_network]

theorem covers_of_length_zero {b : Block} (hlength : b.length = 0) (x : Address) :
    b.Covers x ↔ x.width = b.address.width := by
  simp [Covers, hlength, eq_comm]

/-- Whether two blocks have the same members: they share the same leading bits, and as many. -/
def SameMembers (b other : Block) : Prop :=
  other.length = b.length ∧ other.Covers b.address

theorem SameMembers.covers_iff {b other : Block} (h : b.SameMembers other) (x : Address) :
    other.Covers x ↔ b.Covers x := by
  obtain ⟨hlength, hfamily, hbits⟩ := h
  rw [Covers, Covers, hfamily, hlength]
  refine and_congr_right fun _ => forall₂_congr fun i hi => ?_
  rw [hbits i (hlength ▸ hi)]

theorem covers_of_length_width {b : Block} (hlength : b.length = b.address.width) (x : Address) :
    b.Covers x ↔ x = b.address := by
  cases b with
  | v4 a length =>
      have hall : (length : Nat) = 32 := hlength
      cases x with
      | v4 x =>
          rw [covers_v4_iff, hall, sameLeading_width_iff]
          simp [address, eq_comm]
      | v6 x => simp [Covers, address, Address.width]
  | v6 a length =>
      have hall : (length : Nat) = 128 := hlength
      cases x with
      | v4 x => simp [Covers, address, Address.width]
      | v6 x =>
          rw [covers_v6_iff, hall, sameLeading_width_iff]
          simp [address, eq_comm]

end Block

namespace BlockSet

variable (blocks : List Block) (x : Address)

theorem contains_ofList_cons (b : Block) : (ofList (b :: blocks)).contains x =
    (b.network.contains x.canonical || (ofList blocks).contains x) := rfl

theorem contains_ofList_singleton (b : Block) :
    (ofList [b]).contains x = b.network.contains x.canonical :=
  Bool.or_false _

theorem contains_ofList_congr {blocks others : List Block}
    (h : List.Forall₂ Block.SameMembers blocks others) :
    (ofList others).contains x = (ofList blocks).contains x := by
  induction h with
  | nil => rfl
  | cons hsame _ ih =>
      rw [contains_ofList_cons, contains_ofList_cons, ih]
      congr 1
      rw [Bool.eq_iff_iff, Block.contains_network_iff, Block.contains_network_iff,
        hsame.covers_iff]

/-- A set of blocks contains an address exactly if, in canonical form, it is of the family of some
block and starts with the bits that this block's members share. So the other bits of the blocks make
no difference, a block whose members share no bits holds its whole family, and one whose members
share all bits holds its own address and no other. -/
theorem contains_iff_leading_bits :
    ((ofList blocks).contains x = true ↔ ∃ b ∈ blocks, b.address.width = x.canonical.width ∧
      ∀ i < b.length, b.address.bit i = x.canonical.bit i) ∧
    (∀ others, List.Forall₂ Block.SameMembers blocks others →
      (ofList others).contains x = (ofList blocks).contains x) ∧
    (∀ b : Block, b.length = 0 →
      (∀ y, b.network.contains y = true ↔ y.width = b.address.width) ∧
      ((ofList [b]).contains x = true ↔ x.canonical.width = b.address.width)) ∧
    ∀ b : Block, b.length = b.address.width →
      (∀ y, b.network.contains y = true ↔ y = b.address) ∧
      ((ofList [b]).contains x = true ↔ x.canonical = b.address) := by
  refine ⟨?_, fun others hsame => contains_ofList_congr x hsame, ?_, ?_⟩
  · rw [contains_ofList]
    exact exists_congr fun b => and_congr_right fun _ => b.contains_network_iff x.canonical
  · intro b hlength
    have hfamily (y : Address) : b.network.contains y = true ↔ y.width = b.address.width := by
      rw [b.contains_network_iff, Block.covers_of_length_zero hlength]
    exact ⟨hfamily, by rw [contains_ofList_singleton, hfamily]⟩
  · intro b hlength
    have hone (y : Address) : b.network.contains y = true ↔ y = b.address := by
      rw [b.contains_network_iff, Block.covers_of_length_width hlength]
    exact ⟨hone, by rw [contains_ofList_singleton, hone]⟩

/-- Two spellings of one network, a candidate that is mapped into it, and a block that holds only a
mapped address. -/
theorem contains_iff_leading_bits_mapped :
    let x := Address.v6 (Address.mapped 0xC0A80109#32)
    (ofList [.v6 0#128 0, .v4 0xC0A8014D#32 24]).contains x = true ∧
      (ofList [.v6 0#128 0, .v4 0xC0A80100#32 24]).contains x = true ∧
      (ofList [.v6 (Address.mapped 0xC0A80109#32) 128]).contains x = false := by
  intro x
  have hbits := contains_iff_leading_bits [.v6 0#128 0, .v4 0xC0A8014D#32 24] x
  have hin : (ofList [.v6 0#128 0, .v4 0xC0A8014D#32 24]).contains x = true :=
    hbits.1.mpr ⟨.v4 0xC0A8014D#32 24, by simp, rfl, by decide⟩
  have hsame : List.Forall₂ Block.SameMembers [.v6 0#128 0, .v4 0xC0A8014D#32 24]
      [.v6 0#128 0, .v4 0xC0A80100#32 24] :=
    .cons ⟨rfl, rfl, by decide⟩ (.cons ⟨rfl, rfl, by decide⟩ .nil)
  refine ⟨hin, (hbits.2.1 _ hsame).trans hin, ?_⟩
  rw [Bool.eq_false_iff, Ne, (hbits.2.2.2 (.v6 (Address.mapped 0xC0A80109#32) 128) rfl).2]
  decide

end BlockSet

end HostPolicy
