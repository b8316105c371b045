import HostPolicy.Text.Digits
import Mathlib.Tactic.Ring

/-!
# The value of a run of digits

Zeros in front of it do not count, and a run of which the first digit is none has at least the value
of a one with as many zeros as there are further digits. A number that fits in a count of digits is
the value of these, and every number that of its decimal and of its hexadecimal digits.
-/

namespace HostPolicy.Text

theorem foldl_digits (base : Nat) (digits : List Nat) (n : Nat) :
    digits.foldl (fun n d => n * base + d) n =
      n * base ^ digits.length + ofDigits base digits := by
  induction digits generalizing n with
  | nil => simp [ofDigits]
  | cons d digits ih =>
      rw [ofDigits, List.foldl_cons, List.foldl_cons, ih, ih, List.length_cons]
      ring

theorem ofDigits_cons (base d : Nat) (digits : List Nat) :
    ofDigits base (d :: digits) = d * base ^ digits.length + ofDigits base digits := by
  rw [ofDigits, List.foldl_cons, foldl_digits, Nat.zero_mul, Nat.zero_add]

theorem ofDigits_concat (base : Nat) (digits : List Nat) (d : Nat) :
    ofDigits base (digits ++ [d]) = ofDigits base digits * base + d := by
  rw [ofDigits, List.foldl_append]
  rfl

theorem decimalValue_cons (c : Char) (cs : List Char) :
    decimalValue (c :: cs) = (c.toNat - '0'.toNat) * 10 ^ cs.length + decimalValue cs := by
  rw [decimalValue, List.map_cons, ofDigits_cons, List.length_map]
  rfl

theorem decimalValue_dropWhile_zero (cs : List Char) :
    decimalValue (cs.dropWhile (· == '0')) = decimalValue cs := by
  induction cs with
  | nil => rfl
  | cons c cs ih =>
      by_cases hzero : c = '0'
      · rw [List.dropWhile_cons_of_pos (by simpa using hzero), ih, decimalValue_cons, hzero,
          Nat.sub_self, Nat.zero_mul, Nat.zero_add]
      · rw [List.dropWhile_cons_of_neg (by simpa using hzero)]

theorem pow_le_decimalValue {c : Char} (hdigit : c.isDigit = true) (hne : c ≠ '0')
    (cs : List Char) : 10 ^ cs.length ≤ decimalValue (c :: cs) := by
  have hvalue : 1 ≤ c.toNat - '0'.toNat := by
    have hzero : c.toNat ≠ '0'.toNat := fun heq => hne (Char.toNat_inj.mp heq)
    have hleast : '0'.toNat ≤ c.toNat := (Char.isDigit_iff_toNat.mp hdigit).1
    omega
  calc 10 ^ cs.length
      = 1 * 10 ^ cs.length := (Nat.one_mul _).symm
    _ ≤ (c.toNat - '0'.toNat) * 10 ^ cs.length := Nat.mul_le_mul_right _ hvalue
    _ ≤ decimalValue (c :: cs) := by
      rw [decimalValue_cons]
      exact Nat.le_add_right _ _

/-! ### A fixed count of digits -/

theorem length_toDigits (base count n : Nat) : (toDigits base count n).length = count := by
  induction count generalizing n with
  | zero => rfl
  | succ count ih => rw [toDigits, List.length_append, ih, List.length_singleton]

theorem lt_of_mem_toDigits {base count n d : Nat} (hbase : 0 < base)
    (hmem : d ∈ toDigits base count n) : d < base := by
  induction count generalizing n with
  | zero => contradiction
  | succ count ih =>
      rcases List.mem_append.mp hmem with hfront | hlast
      · exact ih hfront
      · rw [List.mem_singleton.mp hlast]
        exact Nat.mod_lt n hbase

theorem ofDigits_toDigits {base count n : Nat} (hfits : n < base ^ count) :
    ofDigits base (toDigits base count n) = n := by
  induction count generalizing n with
  | zero =>
      rw [Nat.pow_zero, Nat.lt_one_iff] at hfits
      rw [hfits]
      rfl
  | succ count ih =>
      have hfront : n / base < base ^ count := Nat.div_lt_of_lt_mul (by rwa [← Nat.pow_succ'])
      rw [toDigits, ofDigits_concat, ih hfront]
      exact Nat.div_add_mod' n base

/-! ### Hexadecimal digits -/

theorem hexadecimal_of_lt {d : Nat} (hlt : d < 16) : hexadecimal d = [d.digitChar] :=
  Nat.toDigits_of_lt_base hlt

theorem hexValue?_digitChar : ∀ d < 16, hexValue? d.digitChar = some d := by decide

theorem isHex_digitChar {d : Nat} (hlt : d < 16) : isHex d.digitChar = true := by
  rw [isHex, hexValue?_digitChar d hlt]
  rfl

theorem isDigit_of_isHex_eq_false {c : Char} (hc : isHex c = false) : c.isDigit = false := by
  cases hdigit : c.isDigit with
  | false => rfl
  | true => simp [isHex, hexValue?, hdigit] at hc

theorem flatMap_hexadecimal {digits : List Nat} (hdigits : ∀ d ∈ digits, d < 16) :
    digits.flatMap hexadecimal = digits.map Nat.digitChar := by
  induction digits with
  | nil => rfl
  | cons d digits ih =>
      obtain ⟨hlt, hrest⟩ := List.forall_mem_cons.mp hdigits
      rw [List.flatMap_cons, hexadecimal_of_lt hlt, ih hrest, List.map_cons]
      rfl

theorem hexadecimalValue_map_digitChar {digits : List Nat} (hdigits : ∀ d ∈ digits, d < 16) :
    hexadecimalValue (digits.map Nat.digitChar) = ofDigits 16 digits := by
  rw [hexadecimalValue, List.map_map]
  congr 1
  refine (List.map_congr_left ?_).trans (List.map_id digits)
  intro d hmem
  rw [Function.comp_apply, hexValue?_digitChar d (hdigits d hmem), Option.getD_some, id]

theorem exists_hexadecimal (n : Nat) :
    ∃ digits, hexadecimal n = digits.map Nat.digitChar ∧ (∀ d ∈ digits, d < 16) ∧
      ofDigits 16 digits = n := by
  induction n using Nat.strongRecOn with
  | ind n ih =>
      rcases Nat.lt_or_ge n 16 with hsmall | hlarge
      · exact ⟨[n], hexadecimal_of_lt hsmall, by simpa using hsmall, by simp [ofDigits]⟩
      · obtain ⟨digits, hfront, hdigits, hvalue⟩ := ih (n / 16) (by omega)
        have hsplit : hexadecimal n = hexadecimal (n / 16) ++ [(n % 16).digitChar] :=
          Nat.toDigits_of_base_le (by decide) hlarge
        refine ⟨digits ++ [n % 16], by rw [hsplit, hfront, List.map_append]; rfl, ?_, ?_⟩
        · rw [List.forall_mem_append, List.forall_mem_singleton]
          exact ⟨hdigits, Nat.mod_lt n (by decide)⟩
        · rw [ofDigits_concat, hvalue]
          exact Nat.div_add_mod' n 16

theorem forall_mem_hexadecimal (n : Nat) : ∀ c ∈ hexadecimal n, isHex c = true := by
  obtain ⟨digits, hchars, hdigits, -⟩ := exists_hexadecimal n
  rw [hchars, List.forall_mem_map]
  exact fun d hmem => isHex_digitChar (hdigits d hmem)

theorem hexadecimalValue_hexadecimal (n : Nat) : hexadecimalValue (hexadecimal n) = n := by
  obtain ⟨digits, hchars, hdigits, hvalue⟩ := exists_hexadecimal n
  rw [hchars, hexadecimalValue_map_digitChar hdigits, hvalue]

theorem length_hexadecimal_le {n count : Nat} (hcount : 0 < count) (hfits : n < 16 ^ count) :
    (hexadecimal n).length ≤ count :=
  (Nat.length_toDigits_le_iff (by decide) hcount).mpr hfits

/-! ### Decimal digits -/

theorem forall_mem_decimal (n : Nat) : ∀ c ∈ decimal n, c.isDigit = true :=
  fun _ hmem => Nat.isDigit_of_mem_toDigits (by decide) (by decide) hmem

/-- Only zero has a zero in front. -/
theorem decimal_eq_cons (n : Nat) :
    ∃ c cs, decimal n = c :: cs ∧ c.isDigit = true ∧ (c = '0' → n = 0) := by
  induction n using Nat.strongRecOn with
  | ind n ih =>
      rcases Nat.lt_or_ge n 10 with hsmall | hlarge
      · refine ⟨n.digitChar, [], Nat.toDigits_of_lt_base hsmall, ?_, Nat.digitChar_eq_zero.mp⟩
        rw [Nat.isDigit_digitChar, decide_eq_true_eq]
        exact hsmall
      · obtain ⟨c, cs, hfront, hdigit, hzero⟩ := ih (n / 10) (by omega)
        have hsplit : decimal n = decimal (n / 10) ++ [(n % 10).digitChar] :=
          Nat.toDigits_of_base_le (by decide) hlarge
        refine ⟨c, cs ++ [(n % 10).digitChar], by rw [hsplit, hfront, List.cons_append], hdigit, ?_⟩
        intro hc
        have hnone := hzero hc
        omega

theorem decimalValue_decimal (n : Nat) : decimalValue (decimal n) = n := by
  have hvalue (cs : List Char) : decimalValue cs = Nat.ofDigitChars 10 cs 0 := by
    rw [decimalValue, ofDigits, List.foldl_map, Nat.ofDigitChars_eq_foldl]
    simp only [Nat.mul_comm]
  rw [hvalue, decimal, Nat.ofDigitChars_ten_toDigits]

theorem length_decimal_le {n count : Nat} (hcount : 0 < count) (hfits : n < 10 ^ count) :
    (decimal n).length ≤ count :=
  (Nat.length_toDigits_le_iff (by decide) hcount).mpr hfits

end HostPolicy.Text
