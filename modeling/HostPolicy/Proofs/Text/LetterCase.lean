import HostPolicy.Text.Blank
import HostPolicy.Text.CaseFold
import HostPolicy.Text.Digits
import Mathlib.Data.List.TakeWhile

/-!
# Small letters

What a character is does not change when it is written small: whether it is blank, a digit, or some
character that is no letter, what it is worth as a hexadecimal digit, and what it folds to.
-/

namespace HostPolicy.Text

theorem toLower_cases (c : Char) : c.toLower = c ∨ ∃ n < 26, c = Char.ofNat (n + 65) := by
  by_cases hupper : c.val ≥ 'A'.val ∧ c.val ≤ 'Z'.val
  · have hleast : 65 ≤ c.toNat := UInt32.le_iff_toNat_le.mp hupper.1
    have hmost : c.toNat ≤ 90 := UInt32.le_iff_toNat_le.mp hupper.2
    refine Or.inr ⟨c.toNat - 65, by omega, ?_⟩
    rw [Nat.sub_add_cancel hleast, Char.ofNat_toNat]
  · exact Or.inl (dif_neg hupper)

theorem apply_toLower {α : Type} {f : Char → α}
    (hletters : ∀ n < 26, f (Char.ofNat (n + 65)).toLower = f (Char.ofNat (n + 65))) (c : Char) :
    f c.toLower = f c := by
  rcases toLower_cases c with hsame | ⟨n, hn, rfl⟩
  · rw [hsame]
  · exact hletters n hn

theorem isDigit_toLower : ∀ c : Char, c.toLower.isDigit = c.isDigit :=
  apply_toLower (by decide)

theorem isBlank_toLower : ∀ c : Char, isBlank c.toLower = isBlank c :=
  apply_toLower (by decide)

theorem hexValue?_toLower : ∀ c : Char, hexValue? c.toLower = hexValue? c :=
  apply_toLower (by decide)

theorem fold_toLower : ∀ c : Char, fold c.toLower = fold c :=
  apply_toLower (by decide +kernel)

theorem isHex_toLower (c : Char) : isHex c.toLower = isHex c := by
  rw [isHex, isHex, hexValue?_toLower]

theorem toLower_eq_iff {c d : Char} (hd : d.isAlpha = false) : c.toLower = d ↔ c = d := by
  have hletters : ∀ n < 26, (Char.ofNat (n + 65)).isAlpha = true ∧
      (Char.ofNat (n + 65)).toLower.isAlpha = true := by decide
  rcases toLower_cases c with hsame | ⟨n, hn, rfl⟩
  · rw [hsame]
  · obtain ⟨hupper, hlower⟩ := hletters n hn
    constructor
    · rintro rfl
      simp [hlower] at hd
    · rintro rfl
      simp [hupper] at hd

theorem toLower_beq {d : Char} (hd : d.isAlpha = false) (c : Char) :
    (c.toLower == d) = (c == d) := by
  rw [Bool.eq_iff_iff, beq_iff_eq, beq_iff_eq, toLower_eq_iff hd]

theorem toLower_of_isDigit {c : Char} (hdigit : c.isDigit = true) : c.toLower = c := by
  have hletters : ∀ n < 26, (Char.ofNat (n + 65)).isDigit = false := by decide
  rcases toLower_cases c with hsame | ⟨n, hn, rfl⟩
  · exact hsame
  · rw [hletters n hn] at hdigit
    contradiction

section Lists

variable {p : Char → Bool} (hp : ∀ c : Char, p c.toLower = p c) (cs : List Char)

include hp

theorem takeWhile_map_toLower :
    (cs.map Char.toLower).takeWhile p = (cs.takeWhile p).map Char.toLower := by
  rw [List.takeWhile_map]
  exact congrArg _ (congrArg (List.takeWhile · cs) (funext hp))

theorem dropWhile_map_toLower :
    (cs.map Char.toLower).dropWhile p = (cs.dropWhile p).map Char.toLower := by
  rw [List.dropWhile_map]
  exact congrArg _ (congrArg (List.dropWhile · cs) (funext hp))

theorem any_map_toLower : (cs.map Char.toLower).any p = cs.any p := by
  rw [List.any_map]
  exact congrArg cs.any (funext hp)

end Lists

theorem mem_map_toLower {d : Char} (hd : d.isAlpha = false) {cs : List Char} :
    d ∈ cs.map Char.toLower ↔ d ∈ cs := by
  simp [List.mem_map, toLower_eq_iff hd]

theorem trimChars_map_toLower (cs : List Char) :
    trimChars (cs.map Char.toLower) = (trimChars cs).map Char.toLower := by
  unfold trimChars
  rw [dropWhile_map_toLower isBlank_toLower, ← List.map_reverse,
    dropWhile_map_toLower isBlank_toLower, List.map_reverse]

/-- Digits have no case. -/
theorem digits_map_toLower (cs : List Char) :
    (cs.map Char.toLower).takeWhile Char.isDigit = cs.takeWhile Char.isDigit := by
  rw [takeWhile_map_toLower isDigit_toLower]
  calc (cs.takeWhile Char.isDigit).map Char.toLower
      = (cs.takeWhile Char.isDigit).map id :=
        List.map_congr_left fun c hmem => toLower_of_isDigit (List.mem_takeWhile_imp hmem)
    _ = cs.takeWhile Char.isDigit := List.map_id _

theorem hexadecimalValue_map_toLower (cs : List Char) :
    hexadecimalValue (cs.map Char.toLower) = hexadecimalValue cs := by
  rw [hexadecimalValue, hexadecimalValue, List.map_map]
  refine congrArg (ofDigits 16) (List.map_congr_left ?_)
  intro c _
  rw [Function.comp_apply, hexValue?_toLower]

end HostPolicy.Text
