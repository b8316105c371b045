import HostPolicy.Address.Block
import HostPolicy.Proofs.Text.LetterCase

/-!
# Literals in small letters

Readers read the same from a text in small letters, and leave the rest of it in small letters. So
the literals of addresses and of blocks mean the same in either case.
-/

namespace HostPolicy

open Text

namespace Address

/-- What a reader read, with the rest in small letters. -/
def smallRest {α : Type} (read : α × List Char) : α × List Char :=
  (read.1, read.2.map Char.toLower)

section Readers

variable (form : Form) (cs : List Char)

theorem readChar_map_toLower {d : Char} (hd : d.isAlpha = false) :
    readChar d (cs.map Char.toLower) = (readChar d cs).map (List.map Char.toLower) := by
  cases cs with
  | nil => rfl
  | cons c cs =>
      rw [List.map_cons, readChar, readChar, apply_ite (Option.map (List.map Char.toLower))]
      refine if_congr ?_ rfl rfl
      rw [eq_comm, toLower_eq_iff hd, eq_comm]

theorem readOctet_map_toLower :
    readOctet form (cs.map Char.toLower) = (readOctet form cs).map smallRest := by
  unfold readOctet
  rw [digits_map_toLower, dropWhile_map_toLower isDigit_toLower]
  simp only [apply_ite (Option.map smallRest)]
  rfl

theorem readGroup_map_toLower :
    readGroup (cs.map Char.toLower) = (readGroup cs).map smallRest := by
  unfold readGroup
  rw [takeWhile_map_toLower isHex_toLower, dropWhile_map_toLower isHex_toLower]
  dsimp only
  rw [List.length_map, hexadecimalValue_map_toLower, apply_ite (Option.map smallRest)]
  rfl

theorem readDotted_map_toLower :
    readDotted form (cs.map Char.toLower) = (readDotted form cs).map smallRest := by
  have hdot (cs : List Char) := readChar_map_toLower cs (d := '.') rfl
  unfold readDotted
  simp only [readOctet_map_toLower, Option.bind_eq_bind, Option.bind_map, Option.map_bind,
    Function.comp_def, smallRest, hdot]
  rfl

theorem readDottedGroups_map_toLower :
    readDottedGroups form (cs.map Char.toLower) = (readDottedGroups form cs).map smallRest := by
  unfold readDottedGroups
  rw [readDotted_map_toLower, Option.map_map, Option.map_map]
  rfl

theorem separator_map_toLower (leading : Bool) :
    (if leading then some (cs.map Char.toLower) else readChar ':' (cs.map Char.toLower)) =
      (if leading then some cs else readChar ':' cs).map (List.map Char.toLower) := by
  cases leading with
  | true => rfl
  | false => exact readChar_map_toLower cs rfl

theorem readGroups_map_toLower (limit : Nat) (leading : Bool) :
    readGroups form limit leading (cs.map Char.toLower) =
      ((readGroups form limit leading cs).1, smallRest (readGroups form limit leading cs).2) := by
  induction limit generalizing leading cs with
  | zero => rfl
  | succ limit ih =>
      unfold readGroups
      rw [separator_map_toLower]
      cases (if leading then some cs else readChar ':' cs) with
      | none => rfl
      | some next =>
          have hpair : (if 0 < limit then readDottedGroups form (next.map Char.toLower) else none) =
              (if 0 < limit then readDottedGroups form next else none).map smallRest := by
            rw [apply_ite (Option.map smallRest), readDottedGroups_map_toLower]
            rfl
          dsimp only [Option.map_some]
          rw [hpair]
          cases (if 0 < limit then readDottedGroups form next else none) with
          | some pair => rfl
          | none =>
              dsimp only [Option.map_none]
              rw [readGroup_map_toLower]
              cases readGroup next with
              | none => rfl
              | some group =>
                  dsimp only [Option.map_some, smallRest]
                  rw [ih]
                  rfl

theorem readV4_map_toLower :
    readV4 form (cs.map Char.toLower) = (readV4 form cs).map smallRest := by
  unfold readV4
  rw [readDotted_map_toLower, Option.map_map, Option.map_map]
  rfl

theorem readV6_map_toLower :
    readV6 form (cs.map Char.toLower) = (readV6 form cs).map smallRest := by
  unfold readV6
  rw [readGroups_map_toLower]
  generalize readGroups form 8 true cs = read
  obtain ⟨head, dotted, rest⟩ := read
  dsimp only [smallRest]
  by_cases hall : head.length = 8
  · rw [if_pos hall, if_pos hall]
    rfl
  · rw [if_neg hall, if_neg hall]
    cases dotted with
    | true => rfl
    | false =>
        rw [if_neg Bool.false_ne_true, if_neg Bool.false_ne_true]
        split
        · next after hgap =>
            simp only [List.map_eq_cons_iff, toLower_eq_iff (show ':'.isAlpha = false from rfl)]
              at hgap
            obtain ⟨_, _, rfl, rfl, _, after, rfl, rfl, rfl⟩ := hgap
            rw [readGroups_map_toLower]
            rfl
        · next hnone =>
            split
            · next after => exact absurd rfl (hnone (after.map Char.toLower))
            · rfl

end Readers

theorem wholly_map_smallRest {α : Type} (read : Option (α × List Char)) :
    wholly (read.map smallRest) = wholly read := by
  cases read with
  | none => rfl
  | some read =>
      obtain ⟨value, rest⟩ := read
      cases rest <;> rfl

theorem parse?_congr {s t : String} (same : s.toList.map Char.toLower = t.toList.map Char.toLower) :
    parse? s = parse? t := by
  have hsmall : ∀ text : String, parse? text =
      ((wholly (readV4 .strict (text.toList.map Char.toLower))).map v4).or
        ((wholly (readV6 .strict (text.toList.map Char.toLower))).map v6) := by
    intro text
    rw [readV4_map_toLower, readV6_map_toLower, wholly_map_smallRest, wholly_map_smallRest]
    rfl
  rw [hsmall s, hsmall t, same]

end Address

namespace Block

open Address

variable (cs : List Char)

theorem readLength_map_toLower (width bound : Nat) :
    readLength width bound (cs.map Char.toLower) = (readLength width bound cs).map smallRest := by
  unfold readLength
  rw [digits_map_toLower, dropWhile_map_toLower isDigit_toLower]
  dsimp only
  split
  · rfl
  · split <;> rfl

theorem readV4_map_toLower : readV4 (cs.map Char.toLower) = (readV4 cs).map smallRest := by
  have hslash (cs : List Char) := readChar_map_toLower cs (d := '/') rfl
  unfold readV4
  simp only [Address.readV4_map_toLower, Option.bind_eq_bind, Option.bind_map, Option.map_bind,
    Function.comp_def, smallRest, hslash, readLength_map_toLower]
  rfl

theorem readV6_map_toLower : readV6 (cs.map Char.toLower) = (readV6 cs).map smallRest := by
  have hslash (cs : List Char) := readChar_map_toLower cs (d := '/') rfl
  unfold readV6
  simp only [Address.readV6_map_toLower, Option.bind_eq_bind, Option.bind_map, Option.map_bind,
    Function.comp_def, smallRest, hslash, readLength_map_toLower]
  rfl

theorem parse?_congr {s t : String} (same : s.toList.map Char.toLower = t.toList.map Char.toLower) :
    parse? s = parse? t := by
  have hsmall : ∀ text : String, parse? text =
      (wholly (readV4 (text.toList.map Char.toLower))).or
        (wholly (readV6 (text.toList.map Char.toLower))) := by
    intro text
    rw [readV4_map_toLower, readV6_map_toLower, wholly_map_smallRest, wholly_map_smallRest]
    rfl
  rw [hsmall s, hsmall t, same]

end Block

end HostPolicy
