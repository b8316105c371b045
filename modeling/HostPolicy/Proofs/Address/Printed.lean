import HostPolicy.Pattern
import HostPolicy.Proofs.Address.Groups

/-!
# Literals that were written are read back

Every address, by itself and with the length of a block behind it: dotted literals, the literals of
mapped addresses, and groups with a run of zeros left out. What follows a number must not be taken
for more digits of it.
-/

namespace HostPolicy

namespace Address

/-- Whether a text does not go on with a digit. -/
def EndsDigits (rest : List Char) : Prop :=
  ∀ c ∈ rest.head?, c.isDigit = false

theorem endsDigits_nil : EndsDigits [] :=
  Stops.nil Char.isDigit

theorem endsDigits_cons {c : Char} (hc : c.isDigit = false) (rest : List Char) :
    EndsDigits (c :: rest) :=
  Stops.cons hc rest

section Numbers

variable {rest : List Char} (hrest : EndsDigits rest)

include hrest

theorem EndsDigits.takeWhile_eq : rest.takeWhile Char.isDigit = [] :=
  Stops.takeWhile_eq hrest

theorem EndsDigits.dropWhile_eq : rest.dropWhile Char.isDigit = rest :=
  Stops.dropWhile_eq hrest

theorem takeWhile_decimal (n : Nat) :
    (Text.decimal n ++ rest).takeWhile Char.isDigit = Text.decimal n := by
  rw [List.takeWhile_append_of_pos (Text.forall_mem_decimal n), hrest.takeWhile_eq, List.append_nil]

theorem dropWhile_decimal (n : Nat) :
    (Text.decimal n ++ rest).dropWhile Char.isDigit = rest := by
  rw [List.dropWhile_append_of_pos (Text.forall_mem_decimal n), hrest.dropWhile_eq]

theorem readOctet_decimal (form : Form) {n : Nat} (hn : n < 256) :
    readOctet form (Text.decimal n ++ rest) = some (n, rest) := by
  rw [readOctet_eq_some_iff]
  dsimp only
  rw [takeWhile_decimal hrest, dropWhile_decimal hrest, Text.decimalValue_decimal]
  obtain ⟨c, cs, hcons, _, hzero⟩ := Text.decimal_eq_cons n
  refine ⟨by simp [hcons], Text.length_decimal_le (by decide) (by omega), ?_, by omega, rfl, rfl⟩
  rintro - hlong hhead
  -- a zero in front is the whole number
  rw [hcons, List.head?_cons, Option.some.injEq] at hhead
  rw [hzero hhead] at hlong
  contradiction

theorem readDotted_v4Chars (form : Form) (bits : BitVec 32) :
    readDotted form (v4Chars bits ++ rest) = some (octets bits, rest) := by
  have hlt : ∀ d ∈ octets bits, d < 256 := fun d => Text.lt_of_mem_toDigits (by decide)
  obtain ⟨a, b, c, d, hoctets⟩ : ∃ a b c d, octets bits = [a, b, c, d] := ⟨_, _, _, _, rfl⟩
  rw [hoctets] at hlt
  simp only [List.forall_mem_cons] at hlt
  have hdot (rest : List Char) : EndsDigits ('.' :: rest) := endsDigits_cons rfl rest
  have hchars : v4Chars bits ++ rest = Text.decimal a ++ ('.' :: (Text.decimal b ++
      ('.' :: (Text.decimal c ++ ('.' :: (Text.decimal d ++ rest)))))) := by
    simp [v4Chars, hoctets, List.intercalate]
  rw [hchars, readDotted, readOctet_decimal (hdot _) form hlt.1]
  simp [readChar, readOctet_decimal (hdot _) form hlt.2.1,
    readOctet_decimal (hdot _) form hlt.2.2.1, readOctet_decimal hrest form hlt.2.2.2.1, hoctets]

end Numbers

/-! ### IPv4 literals and those of mapped addresses -/

section Whole

variable {rest : List Char} (hrest : EndsDigits rest) (bits : BitVec 32)

theorem ofOctets_octets : ofOctets (octets bits) = bits := by
  have hfits : bits.toNat < 256 ^ 4 := bits.isLt
  rw [ofOctets, octets, Text.ofDigits_toDigits hfits, BitVec.ofNat_toNat, BitVec.setWidth_eq]

theorem toNat_mapped : (mapped bits).toNat = 0xFFFF * 2 ^ 32 + bits.toNat := by
  rw [mapped, BitVec.toNat_append, ← Nat.shiftLeft_add_eq_or_of_lt bits.isLt, Nat.shiftLeft_eq]
  rfl

theorem ushiftRight_mapped : mapped bits >>> 32 = 0xFFFF#128 := by
  apply BitVec.eq_of_toNat_eq
  rw [BitVec.toNat_ushiftRight, toNat_mapped, Nat.shiftRight_eq_div_pow]
  have hlt := bits.isLt
  simp
  omega

theorem mapped?_mapped : mapped? (mapped bits) = some bits := by
  have hlow : (mapped bits).setWidth 32 = bits := BitVec.setWidth_append_eq_right
  rw [mapped?, if_pos (ushiftRight_mapped bits), hlow]

theorem v6Chars_mapped :
    v6Chars (mapped bits) = [':', ':', 'f', 'f', 'f', 'f', ':'] ++ v4Chars bits := by
  rw [v6Chars, mapped?_mapped]

include hrest

theorem readV4_v4Chars (form : Form) : readV4 form (v4Chars bits ++ rest) = some (bits, rest) := by
  simp [readV4, readDotted_v4Chars hrest, ofOctets_octets]

theorem readDottedGroups_v4Chars (form : Form) : readDottedGroups form (v4Chars bits ++ rest) =
    some ([bits.toNat / 65536 % 65536, bits.toNat % 65536], rest) := by
  have hfits : bits.toNat < 256 ^ 4 := bits.isLt
  have hvalue : Text.ofDigits 256 (octets bits) = bits.toNat := Text.ofDigits_toDigits hfits
  simp [readDottedGroups, readDotted_v4Chars hrest, hvalue, Text.toDigits]

omit hrest in
theorem readGroups_colon (form : Form) (cs : List Char) :
    readGroups form 8 true (':' :: cs) = ([], false, ':' :: cs) := by
  rfl

/-- Behind the `::` stand one group and a dotted literal, which makes two. -/
theorem readGroups_mapped (form : Form) (limit : Nat) :
    readGroups form (limit + 3) true (['f', 'f', 'f', 'f', ':'] ++ (v4Chars bits ++ rest)) =
      ([0xFFFF, bits.toNat / 65536 % 65536, bits.toNat % 65536], true, rest) := by
  have hdotted (cs : List Char) : readDottedGroups form ('f' :: cs) = none := rfl
  have hgroup (cs : List Char) :
      readGroup ('f' :: 'f' :: 'f' :: 'f' :: ':' :: cs) = some (0xFFFF, ':' :: cs) := rfl
  rw [List.cons_append, readGroups]
  simp [hdotted, hgroup, readGroups, readChar, readDottedGroups_v4Chars hrest]

theorem readV6_mapped (form : Form) :
    readV6 form (v6Chars (mapped bits) ++ rest) = some (mapped bits, rest) := by
  have hlimit : ∃ limit, 8 - form.fewestZeros = limit + 3 := by
    cases form
    · exact ⟨4, rfl⟩
    · exact ⟨5, rfl⟩
  obtain ⟨limit, hlimit⟩ := hlimit
  have hvalue : ofGroups [0, 0, 0, 0, 0, 0xFFFF, bits.toNat / 65536 % 65536, bits.toNat % 65536] =
      mapped bits := by
    apply BitVec.eq_of_toNat_eq
    have hlt := bits.isLt
    rw [toNat_mapped, ofGroups, BitVec.toNat_ofNat]
    simp [Text.ofDigits]
    omega
  have htail := readGroups_mapped hrest bits form limit
  rw [v6Chars_mapped, readV6]
  simp only [List.cons_append, List.nil_append] at htail ⊢
  rw [readGroups_colon]
  simp [hlimit, htail, hvalue, List.replicate]

end Whole

/-! ### Addresses -/

theorem eq_mapped_of_mapped? {bits : BitVec 128} {low : BitVec 32} (h : mapped? bits = some low) :
    bits = mapped low := by
  obtain ⟨hhigh, rfl⟩ := (Option.ite_none_right_eq_some.mp h).imp_right Option.some.inj
  have hvalue := congrArg BitVec.toNat hhigh
  rw [BitVec.toNat_ushiftRight, Nat.shiftRight_eq_div_pow] at hvalue
  apply BitVec.eq_of_toNat_eq
  rw [toNat_mapped, BitVec.toNat_setWidth]
  simp at hvalue
  omega

section Rest

variable {rest : List Char} (hrest : Stops isLiteral rest)

include hrest

theorem Stops.endsDigits : EndsDigits rest :=
  hrest.mono fun _ hdigit => by simp [isLiteral, Text.isHex, Text.hexValue?, hdigit]

theorem Stops.endsGroups : EndsGroups rest := by
  constructor
  · refine hrest.mono fun c hc => ?_
    rcases Bool.or_eq_true_iff.mp hc with hhex | hdot
    · simp [isLiteral, hhex]
    · simp [isLiteral, hdot]
  · rintro next rfl
    have hcolon := hrest ':' rfl
    contradiction

theorem readV6_v6Chars (form : Form) (bits : BitVec 128) :
    readV6 form (v6Chars bits ++ rest) = some (bits, rest) := by
  cases hmapped : mapped? bits with
  | some low =>
      rw [eq_mapped_of_mapped? hmapped]
      exact readV6_mapped hrest.endsDigits low form
  | none =>
      have hlength : (groups bits).length = 8 := Text.length_toDigits 65536 8 bits.toNat
      have hgroups : ∀ group ∈ groups bits, group < 65536 :=
        fun group => Text.lt_of_mem_toDigits (by decide)
      have hsplit := zeroRun_split (groups bits) (longestRun (groups bits))
      simp only [v6Chars, hmapped]
      split
      · next hrun =>
          have htotal := congrArg List.length hsplit
          simp only [List.length_append, List.length_replicate] at htotal
          have hread := readV6_run form hrest.endsGroups
            (fun group hmem => hgroups group (List.mem_of_mem_take hmem))
            (fun group hmem => hgroups group (List.mem_of_mem_drop hmem))
            hrun (htotal.symm.trans hlength)
          rw [hread, ← hsplit, ofGroups_groups]
      · rw [readV6_groupChars form hrest.endsGroups hgroups hlength, ofGroups_groups]

end Rest

theorem colon_mem_v6Chars (bits : BitVec 128) : ':' ∈ v6Chars bits := by
  have hread := readV6_v6Chars (Stops.nil isLiteral) .strict bits
  rw [List.append_nil] at hread
  exact List.count_pos_iff.mp (Nat.lt_of_lt_of_le Nat.two_pos (all_of_readV6 hread).2)

/-- A dotted literal has no colon. -/
theorem wholly_readV4_eq_none {form : Form} {cs : List Char} (hcolon : ':' ∈ cs) :
    wholly (readV4 form cs) = none := by
  rw [Option.eq_none_iff_forall_ne_some]
  intro bits hread
  have hdotted := all_of_readV4 (wholly_eq_some_iff.mp hread) ':' hcolon
  contradiction

theorem parse?_text (a : Address) : parse? a.text = some a := by
  cases a with
  | v4 bits =>
      have hread := readV4_v4Chars endsDigits_nil bits .strict
      rw [List.append_nil] at hread
      simp [parse?, text, chars, wholly_eq_some_iff.mpr hread]
  | v6 bits =>
      have hread := readV6_v6Chars (Stops.nil isLiteral) .strict bits
      rw [List.append_nil] at hread
      simp [parse?, text, chars, wholly_eq_some_iff.mpr hread,
        wholly_readV4_eq_none (colon_mem_v6Chars bits)]

end Address

namespace Block

open Address (Takes wholly)

theorem readLength_decimal (width : Nat) {bound n : Nat} (hbound : n < bound) (hwidth : 0 < width)
    (hfits : n < 10 ^ width) :
    readLength width bound (Text.decimal n) = some (⟨n, hbound⟩, []) := by
  have htake := Address.takeWhile_decimal Address.endsDigits_nil n
  have hdrop := Address.dropWhile_decimal Address.endsDigits_nil n
  rw [List.append_nil] at htake hdrop
  obtain ⟨c, cs, hcons, -⟩ := Text.decimal_eq_cons n
  have hlength : ¬((Text.decimal n).length = 0 ∨ width < (Text.decimal n).length) := by
    have hmost := Text.length_decimal_le hwidth hfits
    have hleast : 0 < (Text.decimal n).length := by simp [hcons]
    omega
  simp only [readLength, htake, hdrop, Text.decimalValue_decimal]
  rw [if_neg hlength, dif_pos hbound]

/-- The block of the IPv6 addresses that stand for the addresses of an IPv4 block. -/
def mapped (bits : BitVec 32) (length : Fin 33) : Block :=
  .v6 (Address.mapped bits) ⟨96 + length, by omega⟩

theorem takes_length {width bound : Nat} {n : Fin bound} {cs rest : List Char}
    (h : readLength width bound cs = some (n, rest)) : Takes Char.isDigit cs rest := by
  simp only [readLength, Option.ite_none_left_eq_some] at h
  obtain ⟨-, h⟩ := h
  split at h
  · cases h
    exact Takes.dropWhile Char.isDigit cs
  · contradiction

theorem wholly_readV4_eq_none {cs : List Char} (hcolon : ':' ∈ cs) :
    wholly (readV4 cs) = none := by
  rw [Option.eq_none_iff_forall_ne_some]
  intro b hread
  simp only [Address.wholly_eq_some_iff, readV4, Option.bind_eq_bind, Option.bind_eq_some_iff,
    Prod.exists, Address.readChar_eq_some_iff, Option.pure_def, Option.some.injEq,
    Prod.mk.injEq] at hread
  obtain ⟨bits, _, haddress, digits, rfl, length, last, hlength, -, rfl⟩ := hread
  obtain ⟨⟨octets, _⟩, hdotted, heq⟩ := Option.map_eq_some_iff.mp haddress
  cases heq
  have hdigits : ':' ∈ digits := by
    simpa using (Address.takes_dotted hdotted).mem rfl hcolon
  have hnone := (takes_length hlength).mem rfl hdigits
  contradiction

theorem parse?_text (b : Block) : parse? b.text = some b := by
  cases b with
  | v4 address length =>
      have hslash : Address.Stops Address.isLiteral ('/' :: Text.decimal length) := .cons rfl _
      have hread : readV4 (v4 address length).chars = some (v4 address length, []) := by
        have hlength := readLength_decimal 2 length.isLt (by decide) (by omega)
        simp [readV4, chars, Address.readV4_v4Chars hslash.endsDigits, Address.readChar, hlength]
      simp [parse?, text, Address.wholly_eq_some_iff.mpr hread]
  | v6 address length =>
      have hslash : Address.Stops Address.isLiteral ('/' :: Text.decimal length) := .cons rfl _
      have hread : readV6 (v6 address length).chars = some (v6 address length, []) := by
        have hlength := readLength_decimal 3 length.isLt (by decide) (by omega)
        simp [readV6, chars, Address.readV6_v6Chars hslash, Address.readChar, hlength]
      have hcolon : ':' ∈ (v6 address length).chars :=
        List.mem_append_left _ (Address.colon_mem_v6Chars address)
      simp [parse?, text, Address.wholly_eq_some_iff.mpr hread, wholly_readV4_eq_none hcolon]

theorem slash_mem_text (b : Block) : '/' ∈ b.text.toList := by
  cases b <;> simp [text, chars]

section Text

variable (bits : BitVec 32) (length : Fin 33)

theorem chars_mapped : (mapped bits length).chars =
    [':', ':', 'f', 'f', 'f', 'f', ':'] ++ Address.v4Chars bits ++
      '/' :: Text.decimal (96 + length) := by
  rw [mapped, chars, Address.v6Chars_mapped]

theorem text_v4 :
    (v4 bits length).text = (Address.v4 bits).text ++ "/" ++ toString (length : Nat) := by
  apply String.toList_injective
  simp [text, chars, Address.text, Address.chars, Text.decimal]

theorem text_mapped : (mapped bits length).text =
    "::ffff:" ++ (Address.v4 bits).text ++ "/" ++ toString (96 + length : Nat) := by
  apply String.toList_injective
  simp [text, chars_mapped, Address.text, Address.chars, Text.decimal]

end Text

end Block

/-- An address on its own has no slash. -/
theorem Pattern.parse_eq_block {text : String} {b : Block} (hslash : '/' ∈ text.toList)
    (hblock : Block.parse? text = some b) : Pattern.parse text = .block b := by
  have haddress : Address.parse? text = none := by
    rw [Option.eq_none_iff_forall_ne_some]
    intro a hparse
    have hliteral := Address.all_of_parse? hparse '/' hslash
    contradiction
  simp [Pattern.parse, haddress, hblock]

end HostPolicy
