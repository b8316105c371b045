import HostPolicy.Json.Text
import HostPolicy.Proofs.Text.Digits

/-!
# A text that was quoted is read back

Whatever characters it is made of: those with an escape of their own, the other controls, which are
written in four hexadecimal digits, and all others, which stand for themselves.
-/

namespace HostPolicy.Json

theorem size_eq_length {cs : List Char} (hsmall : ∀ c ∈ cs, c.utf8Size = 1) :
    size cs = cs.length := by
  induction cs with
  | nil => rfl
  | cons c cs ih =>
      obtain ⟨hone, hrest⟩ := List.forall_mem_cons.mp hsmall
      rw [size, hone, ih hrest, List.length_cons, Nat.add_comm]

/-! ### Escapes -/

theorem utf8Size_of_isHex {c : Char} (hhex : Text.isHex c = true) : c.utf8Size = 1 := by
  have hvalue : c.toNat ≤ 'f'.toNat := by
    simp only [Text.isHex, Text.hexValue?] at hhex
    split at hhex
    · next hdigit => exact (Char.isDigit_iff_toNat.mp hdigit).2.trans (by decide)
    · split at hhex
      · next hlower => exact hlower.2
      · split at hhex
        · next hupper => exact Nat.le_trans hupper.2 (by decide)
        · contradiction
  exact Char.utf8Size_eq_one_iff.mpr (Nat.le_trans hvalue (by decide))

theorem readHex_isHex {digits : List Char} (hlength : digits.length = 4)
    (hhex : digits.all Text.isHex = true) (rest : List Char) :
    readHex (digits ++ rest) = .ok (Text.hexadecimalValue digits, rest) := by
  have hsize : size digits = 4 := by
    rw [size_eq_length, hlength]
    intro c hc
    exact utf8Size_of_isHex (List.all_eq_true.mp hhex c hc)
  rw [readHex, List.take_left' hlength, List.drop_left' hlength, hsize, if_neg (Nat.lt_irrefl 4)]
  exact if_pos hhex

theorem readHex_digits {n : Nat} (hfits : n < 16 ^ 4) (rest : List Char) :
    readHex ((Text.toDigits 16 4 n).flatMap Text.hexadecimal ++ rest) = .ok (n, rest) := by
  have hdigits : ∀ d ∈ Text.toDigits 16 4 n, d < 16 :=
    fun d hmem => Text.lt_of_mem_toDigits (by decide) hmem
  have hlength : ((Text.toDigits 16 4 n).map Nat.digitChar).length = 4 := by
    rw [List.length_map, Text.length_toDigits]
  have hhex : ((Text.toDigits 16 4 n).map Nat.digitChar).all Text.isHex = true := by
    rw [List.all_map, List.all_eq_true]
    intro d hd
    exact Text.isHex_digitChar (hdigits d hd)
  rw [Text.flatMap_hexadecimal hdigits, readHex_isHex hlength hhex,
    Text.hexadecimalValue_map_digitChar hdigits, Text.ofDigits_toDigits hfits]

theorem readEscape_short {c e : Char} (hescape : (c, e) ∈ shortEscapes) (rest : List Char) :
    readEscape (e :: rest) = .ok (c, rest) := by
  simp only [shortEscapes, List.mem_cons, List.not_mem_nil, Prod.mk.injEq, or_false] at hescape
  rcases hescape with ⟨rfl, rfl⟩ | ⟨rfl, rfl⟩ | ⟨rfl, rfl⟩ | ⟨rfl, rfl⟩ | ⟨rfl, rfl⟩ | ⟨rfl, rfl⟩ |
    ⟨rfl, rfl⟩ <;> rfl

theorem readEscape_control {c : Char} (hcontrol : c.toNat < 0x20) (rest : List Char) :
    readEscape ('u' :: (Text.toDigits 16 4 c.toNat).flatMap Text.hexadecimal ++ rest) =
      .ok (c, rest) := by
  have hfits : c.toNat < 16 ^ 4 := Nat.lt_trans hcontrol (by decide)
  have hleading : isLeading c.toNat = false := by
    simp only [isLeading, Bool.and_eq_false_iff, decide_eq_false_iff_not]
    omega
  have htrailing : isTrailing c.toNat = false := by
    simp only [isTrailing, Bool.and_eq_false_iff, decide_eq_false_iff_not]
    omega
  rw [List.cons_append, readEscape, readHex_digits hfits]
  simp [bind, Except.bind, hleading, htrailing]

/-! ### Texts -/

variable {cs rest read after : List Char} {c : Char}

theorem readQuoted_close (rest : List Char) : readQuoted ('"' :: rest) = .ok ([], rest) := by
  rw [readQuoted]

theorem readQuoted_escape (hescape : readEscape cs = .ok (c, rest))
    (hrest : readQuoted rest = .ok (read, after)) :
    readQuoted ('\\' :: cs) = .ok (c :: read, after) := by
  rw [readQuoted]
  split
  · next fault hfault =>
      rw [hescape] at hfault
      contradiction
  · next other rest' hother =>
      rw [hescape] at hother
      cases hother
      rw [hrest]
      rfl

theorem readQuoted_plain (hquote : c ≠ '"') (hbackslash : c ≠ '\\') (hplain : ¬c.toNat < 0x20)
    (hrest : readQuoted rest = .ok (read, after)) :
    readQuoted (c :: rest) = .ok (c :: read, after) := by
  rw [readQuoted]
  · rw [if_neg hplain, hrest]
    rfl
  · exact hquote
  · exact hbackslash

/-- The quote and the backslash have an escape of their own. -/
theorem ne_of_lookup_shortEscapes (hnone : shortEscapes.lookup c = none) : c ≠ '"' ∧ c ≠ '\\' := by
  constructor
  · rintro rfl
    contradiction
  · rintro rfl
    contradiction

theorem readQuoted_quoteChar (c : Char) (hrest : readQuoted rest = .ok (read, after)) :
    readQuoted (quoteChar c ++ rest) = .ok (c :: read, after) := by
  unfold quoteChar
  split
  · next e hlookup =>
      obtain ⟨front, back, heq, _⟩ := List.lookup_eq_some_iff.mp hlookup
      have hmem : (c, e) ∈ shortEscapes := heq ▸ List.mem_append_right front List.mem_cons_self
      exact readQuoted_escape (readEscape_short hmem rest) hrest
  · next hlookup =>
      obtain ⟨hquote, hbackslash⟩ := ne_of_lookup_shortEscapes hlookup
      split
      · next hcontrol => exact readQuoted_escape (readEscape_control hcontrol rest) hrest
      · next hplain => exact readQuoted_plain hquote hbackslash hplain hrest

theorem readQuoted_quote (cs rest : List Char) :
    readQuoted (cs.flatMap quoteChar ++ '"' :: rest) = .ok (cs, rest) := by
  induction cs with
  | nil => exact readQuoted_close rest
  | cons c cs ih =>
      rw [List.flatMap_cons, List.append_assoc]
      exact readQuoted_quoteChar c ih

end HostPolicy.Json
