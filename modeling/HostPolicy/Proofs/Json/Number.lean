import HostPolicy.Json.Number
import HostPolicy.Proofs.Text.Digits
import Mathlib.Order.Basic

/-!
# An integer that was written is read back

A reader of numbers goes on as long as it can, so that what follows must not be taken for more of
the number: after a value stands a comma, the end of a list or an object, or nothing.
-/

namespace HostPolicy

namespace Json

/-- What may follow a value. -/
def Delimited (rest : List Char) : Prop :=
  ∀ c ∈ rest.head?, c = ',' ∨ c = ']' ∨ c = '\x7d'

variable {rest : List Char}

theorem Delimited.not_startsWithDigit (h : Delimited rest) : startsWithDigit rest = false := by
  cases rest with
  | nil => rfl
  | cons c rest => rcases h c rfl with rfl | rfl | rfl <;> rfl

/-- Digits do not make a number smaller. -/
theorem le_ofDigitChars (cs : List Char) (n : Nat) : n ≤ Nat.ofDigitChars 10 cs n := by
  rw [Nat.ofDigitChars_eq_ofDigitChars_zero]
  exact Nat.le_add_right_of_le (Nat.le_mul_of_pos_left n (Nat.pow_pos (by decide)))

theorem ofDigitChars_cons_digit (c : Char) (cs : List Char) (n : Nat) :
    Nat.ofDigitChars 10 (c :: cs) n = Nat.ofDigitChars 10 cs (n * 10 + digit c) := by
  rw [Nat.ofDigitChars_cons, Nat.mul_comm]
  rfl

theorem absorb_digits {cs : List Char} (hdigits : ∀ c ∈ cs, c.isDigit = true) {n : Nat}
    (hfits : Nat.ofDigitChars 10 cs n < Nat.pow 2 64) (taken : Nat)
    (hend : startsWithDigit rest = false) :
    absorb n taken (cs ++ rest) = (Nat.ofDigitChars 10 cs n, taken + cs.length, rest) := by
  induction cs generalizing n taken with
  | nil =>
      cases rest with
      | nil => rfl
      | cons c rest =>
          have hother : c.isDigit = false := hend
          simp [absorb, hother]
  | cons c cs ih =>
      obtain ⟨hdigit, hrest⟩ := List.forall_mem_cons.mp hdigits
      rw [ofDigitChars_cons_digit] at hfits ⊢
      have hnext : n * 10 + digit c < Nat.pow 2 64 :=
        Nat.lt_of_le_of_lt (le_ofDigitChars cs _) hfits
      rw [List.cons_append, absorb, if_pos ⟨hdigit, hnext⟩, ih hrest hfits, List.length_cons,
        Nat.add_right_comm, Nat.add_assoc]

theorem readTail_delimited (h : Delimited rest) (negative : Bool) (n : Nat) :
    readTail negative n rest = .ok (integer negative n, rest) := by
  cases rest with
  | nil => rfl
  | cons c rest =>
      rcases h c rfl with rfl | rfl | rfl <;> simp [readTail, List.dropWhile, List.takeWhile]

theorem readDigits_decimal {n : Nat} (hfits : n < Nat.pow 2 64) (h : Delimited rest)
    (negative : Bool) :
    readDigits negative (Text.decimal n ++ rest) = .ok (integer negative n, rest) := by
  obtain ⟨c, cs, hcons, hdigit, hzero⟩ := Text.decimal_eq_cons n
  by_cases hc : c = '0'
  · have hnone : Text.decimal n = ['0'] := by rw [hzero hc, Text.decimal, Nat.toDigits_zero]
    rw [hnone, List.singleton_append, readDigits, h.not_startsWithDigit, hzero hc]
    exact readTail_delimited h negative 0
  · have hvalue : Nat.ofDigitChars 10 (Text.decimal n) 0 = n := Nat.ofDigitChars_ten_toDigits
    have habsorb :
        absorb 0 0 (Text.decimal n ++ rest) = (n, 0 + (Text.decimal n).length, rest) := by
      rw [absorb_digits (Text.forall_mem_decimal n) (by rwa [hvalue]) 0 h.not_startsWithDigit,
        hvalue]
    rw [hcons, List.cons_append] at habsorb ⊢
    rw [readDigits]
    · rw [if_pos hdigit, habsorb]
      exact readTail_delimited h negative n
    · exact hc

theorem readNumber_natural {n : Nat} (hfits : n < Nat.pow 2 64) (h : Delimited rest) :
    readNumber (Text.decimal n ++ rest) = .ok (.natural n, rest) := by
  have hdigits := readDigits_decimal hfits h false
  obtain ⟨c, cs, hcons, hdigit, _⟩ := Text.decimal_eq_cons n
  rw [hcons, List.cons_append] at hdigits ⊢
  rw [readNumber]
  · exact hdigits
  · rintro rest' heq
    cases heq
    contradiction

theorem readNumber_negative {n : Nat} (hpositive : 0 < n) (hfits : n ≤ Nat.pow 2 63)
    (h : Delimited rest) :
    readNumber ('-' :: Text.decimal n ++ rest) = .ok (.negative (-n), rest) := by
  have hbelow : n < Nat.pow 2 64 := Nat.lt_of_le_of_lt hfits (by decide)
  have hinteger : integer true n = .negative (-n) := by simp [integer, hpositive, hfits]
  rw [List.cons_append, readNumber, readDigits_decimal hbelow h, hinteger]

end Json

end HostPolicy
