import HostPolicy.Proofs.Json.Meaning
import HostPolicy.Proofs.Json.Number

/-!
# What a number means to a reader of integers

A numeral is an integer if it has neither a fraction nor an exponent and its digits fit; whatever
comes of any other, it is not taken for one.
-/

namespace HostPolicy.Json

variable {α : Type} {cs rest : List Char} {more : List Token} {v : Value}

def Numeral.value (n : Numeral) : Nat :=
  Nat.ofDigitChars 10 n.whole.val 0

/-- The numeral has neither a fraction nor an exponent, and not too many digits. -/
def Numeral.IsWhole (n : Numeral) : Prop :=
  n.fraction = none ∧ n.exponent = none ∧ n.value < Nat.pow 2 64

instance (n : Numeral) : Decidable n.IsWhole :=
  inferInstanceAs (Decidable (_ ∧ _ ∧ _))

/-- Whatever was read is no integer. -/
def NoInteger (result : Except Fault (Number × List Char)) : Prop :=
  ∀ found rest, result = .ok (found, rest) → ∃ x, found = .real x

theorem noInteger_real (x : Float) (cs : List Char) : NoInteger (.ok (.real x, cs)) := by
  rintro _ _ ⟨⟩
  exact ⟨x, rfl⟩

theorem Fails.noInteger {result : Except Fault (Number × List Char)} (h : Fails result) :
    NoInteger result := by
  obtain ⟨fault, rfl⟩ := h
  rintro _ _ ⟨⟩

theorem noInteger_ofParts (negative : Bool) (significand : Nat) (exponent : Int) (cs : List Char) :
    NoInteger (ofParts negative significand exponent cs) := by
  unfold ofParts
  split
  · exact noInteger_real _ cs
  · exact (fails_fail _ cs).noInteger

theorem noInteger_readExponent (negative : Bool) (significand : Nat) (exponent : Int)
    (cs : List Char) : NoInteger (readExponent negative significand exponent cs) := by
  unfold readExponent
  split
  split
  · exact (fails_fail _ _).noInteger
  · split
    · split
      · exact noInteger_ofParts _ _ _ _
      · split
        · exact (fails_fail _ _).noInteger
        · exact noInteger_real _ _
    · exact (fails_failPast _ _).noInteger

theorem noInteger_readScale (negative : Bool) (significand : Nat) (exponent : Int)
    (cs : List Char) : NoInteger (readScale negative significand exponent cs) := by
  unfold readScale
  split
  · exact noInteger_readExponent _ _ _ _
  · exact noInteger_readExponent _ _ _ _
  · exact noInteger_ofParts _ _ _ _

theorem noInteger_readFraction (negative : Bool) (significand : Nat) (exponent : Int)
    (cs : List Char) : NoInteger (readFraction negative significand exponent cs) := by
  unfold readFraction
  split
  split
  · split
    · exact (fails_fail _ _).noInteger
    · exact (fails_failPast _ _).noInteger
  · exact noInteger_readScale _ _ _ _

/-- What goes on with digits, a fraction or an exponent is no integer. -/
theorem noInteger_readTail {c : Char} (hc : c.isDigit = true ∨ c ∈ ['.', 'e', 'E'])
    (negative : Bool) (significand : Nat) (cs : List Char) :
    NoInteger (readTail negative significand (c :: cs)) := by
  rw [readTail]
  split
  · exact noInteger_readFraction _ _ _ _
  · next hpoint =>
      split
      · next hinteger =>
          obtain ⟨hnone, hlower, hupper⟩ := hinteger
          by_cases hdigit : c.isDigit = true
          · simp [hdigit] at hnone
          · simp only [List.dropWhile_cons_of_neg hdigit, List.head?_cons, ne_eq,
              Option.some.injEq] at hpoint hlower hupper
            have hother : c ≠ '.' := by
              rintro rfl
              exact hpoint cs rfl
            simp [hdigit, hother, hlower, hupper] at hc
      · exact noInteger_readScale _ _ _ _

theorem Bounded.readTail (h : Bounded rest) (negative : Bool) (significand : Nat) :
    readTail negative significand rest = .ok (integer negative significand, rest) := by
  refine h.elim rfl ?_
  simp [enders, Json.readTail]

/-- Digits that do not fit are left from the first on that makes the number too large. -/
theorem absorb_overflow {ds : List Char} (hdigits : ∀ c ∈ ds, c.isDigit = true) {n : Nat}
    (hfits : n < Nat.pow 2 64) (hlarge : Nat.pow 2 64 ≤ Nat.ofDigitChars 10 ds n) (taken : Nat) :
    ∃ n' taken' c after, absorb n taken (ds ++ rest) = (n', taken', c :: after) ∧
      c.isDigit = true := by
  induction ds generalizing n taken with
  | nil => exact absurd hlarge (Nat.not_le_of_lt hfits)
  | cons c ds ih =>
      obtain ⟨hdigit, hmore⟩ := List.forall_mem_cons.mp hdigits
      rw [ofDigitChars_cons_digit] at hlarge
      rw [List.cons_append, absorb]
      by_cases hnext : n * 10 + digit c < Nat.pow 2 64
      · rw [if_pos ⟨hdigit, hnext⟩]
        exact ih hmore hnext hlarge _
      · rw [if_neg (fun h => hnext h.2)]
        exact ⟨n, taken, c, _, rfl, hdigit⟩

/-- The digits in front of a number are read, and the first that does not fit is left. -/
theorem readDigits_whole (n : Numeral) (hend : startsWithDigit rest = false) (negative : Bool) :
    (n.value < Nat.pow 2 64 →
      readDigits negative (n.whole.val ++ rest) = readTail negative n.value rest) ∧
    (Nat.pow 2 64 ≤ n.value → ∃ significand c after, c.isDigit = true ∧
      readDigits negative (n.whole.val ++ rest) = readTail negative significand (c :: after)) := by
  obtain ⟨d, ds, hds, hdigit⟩ := n.whole.exists_cons
  by_cases hzero : d = '0'
  · subst hzero
    have halone : ds = [] := by simpa [hds] using n.zero_alone
    subst halone
    have hvalue : n.value = 0 := by simp [Numeral.value, hds, Nat.ofDigitChars]
    simp [hds, hvalue, readDigits, hend]
  · have hread : readDigits negative (n.whole.val ++ rest) =
        readTail negative (absorb 0 0 (n.whole.val ++ rest)).1
          (absorb 0 0 (n.whole.val ++ rest)).2.2 := by
      rw [hds, List.cons_append, readDigits]
      · rw [if_pos hdigit]
      · exact hzero
    rw [hread]
    constructor
    · intro hfits
      rw [absorb_digits n.whole.property.2 hfits 0 hend]
      rfl
    · intro hlarge
      obtain ⟨significand, _, c, after, habsorb, hc⟩ :=
        absorb_overflow n.whole.property.2 (by decide) hlarge 0
      exact ⟨significand, c, after, hc, by rw [habsorb]⟩

theorem readNumber_token (n : Numeral) (rest : List Char) :
    readNumber (n.token ++ rest) =
      readDigits n.negative (n.whole.val ++ (n.scaleChars ++ rest)) := by
  obtain ⟨d, ds, hds, hdigit⟩ := n.whole.exists_cons
  have hminus : d ≠ '-' := by
    rintro rfl
    contradiction
  cases hnegative : n.negative with
  | true => simp [Numeral.token, hnegative, readNumber]
  | false => simp [Numeral.token, hnegative, hds, readNumber, hminus]

theorem readNumber_whole {n : Numeral} (hwhole : n.IsWhole) (h : Bounded rest) :
    readNumber (n.token ++ rest) = .ok (integer n.negative n.value, rest) := by
  obtain ⟨hfraction, hexponent, hfits⟩ := hwhole
  have hscale : n.scaleChars = [] := by
    simp [Numeral.scaleChars, hfraction, hexponent, fractionChars, exponentChars]
  rw [readNumber_token, hscale, List.nil_append,
    (readDigits_whole n h.startsWithDigit n.negative).1 hfits, h.readTail]

theorem Numeral.exists_scale {n : Numeral} (h : n.fraction ≠ none ∨ n.exponent ≠ none) :
    ∃ c w, n.scaleChars = c :: w ∧ c ∈ ['.', 'e', 'E'] := by
  rw [scaleChars]
  cases hfraction : n.fraction with
  | some ds => exact ⟨'.', _, rfl, by simp⟩
  | none =>
      cases hexponent : n.exponent with
      | none => simp [hfraction, hexponent] at h
      | some e =>
          refine ⟨e.letter, _, rfl, ?_⟩
          obtain hletter | hletter := e.letter_eq <;> simp [hletter]

theorem noInteger_readNumber {n : Numeral} (hwhole : ¬n.IsWhole) (h : Bounded rest) :
    NoInteger (readNumber (n.token ++ rest)) := by
  have hread := readDigits_whole n (startsWithDigit_scale n h) n.negative
  rw [readNumber_token]
  by_cases hfits : n.value < Nat.pow 2 64
  · have hscale : n.fraction ≠ none ∨ n.exponent ≠ none := by
      by_contra hnone
      simp only [ne_eq, not_or, not_not] at hnone
      exact hwhole ⟨hnone.1, hnone.2, hfits⟩
    obtain ⟨c, w, hcons, hc⟩ := n.exists_scale hscale
    rw [hread.1 hfits, hcons]
    exact noInteger_readTail (Or.inr hc) _ _ _
  · obtain ⟨significand, c, after, hdigit, heq⟩ := hread.2 (Nat.le_of_not_lt hfits)
    rw [heq]
    exact noInteger_readTail (Or.inl hdigit) _ _ _

/-! ### Integers of sixty-four bits -/

def Value.natural? : Value → Option UInt64
  | .number n => if n.IsWhole ∧ n.negative = false then some (UInt64.ofNat n.value) else none
  | _ => none

def Value.integer? : Value → Option Int64
  | .number n =>
    if n.IsWhole then
      if n.negative then
        if 0 < n.value ∧ n.value ≤ Nat.pow 2 63 then some (Int64.ofInt (-n.value)) else none
      else if n.value < Nat.pow 2 63 then some (Int64.ofNat n.value)
      else none
    else none
  | _ => none

theorem integer_of_fits {n : Nat} (h : 0 < n ∧ n ≤ Nat.pow 2 63) :
    integer true n = .negative (-n) := by
  simp [integer, h]

theorem integer_of_not_fits {n : Nat} (h : ¬(0 < n ∧ n ≤ Nat.pow 2 63)) :
    integer true n = .real (-Float.ofNat n) := by
  simp only [integer, Bool.not_true, Bool.false_eq_true, if_false, if_neg h]

theorem startsNumber_eq_false {c : Char} (hannounces : Announces c v)
    (hother : ∀ n, v ≠ .number n) (w : List Char) : startsNumber (c :: w) = false := by
  by_contra hstarts
  rw [Bool.not_eq_false] at hstarts
  obtain ⟨n, hn⟩ := hannounces.number hstarts
  exact hother n hn

theorem fails_readUInt64 (hother : ∀ n, v ≠ .number n) (h : Spells cs (v.tokens ++ more)) :
    Fails (readUInt64 cs) := by
  obtain ⟨c, w, _, hvalue, hannounces⟩ := h.valueText_value
  have hnumber := startsNumber_eq_false hannounces hother w
  simpa [readUInt64, hvalue, hnumber, bind, Except.bind] using fails_mistyped _ _

theorem fails_readInt64 (hother : ∀ n, v ≠ .number n) (h : Spells cs (v.tokens ++ more)) :
    Fails (readInt64 cs) := by
  obtain ⟨c, w, _, hvalue, hannounces⟩ := h.valueText_value
  have hnumber := startsNumber_eq_false hannounces hother w
  simpa [readInt64, hvalue, hnumber, bind, Except.bind] using fails_mistyped _ _

/-- A number that is no integer is complained about by what it is. -/
theorem NoInteger.fails {result : Except Fault (Number × List Char)} (h : NoInteger result)
    {next : Number × List Char → Except Fault α} (hreal : ∀ x rest, Fails (next (.real x, rest))) :
    Fails (result >>= next) := by
  refine Fails.bind ?_
  rintro ⟨found, rest⟩ hfound
  obtain ⟨x, rfl⟩ := h found rest hfound
  exact hreal x rest

theorem follows_natural : Follows readUInt64 Value.natural? := by
  intro v cs more hcloses h
  cases v with
  | number n =>
      obtain ⟨rest, hvalue, hrest⟩ := h.valueText_token n.solid
      have hbounded := hrest.bounded hcloses
      simp only [readUInt64, hvalue, ok_bind, n.startsNumber rest, if_true, Value.natural?]
      by_cases hwhole : n.IsWhole
      · rw [readNumber_whole hwhole hbounded]
        cases hnegative : n.negative with
        | false =>
            rw [if_pos ⟨hwhole, rfl⟩]
            exact ⟨rest, rfl, hrest⟩
        | true =>
            rw [if_neg (by simp)]
            by_cases hfits : 0 < n.value ∧ n.value ≤ Nat.pow 2 63
            · rw [integer_of_fits hfits]
              exact fails_fail _ _
            · rw [integer_of_not_fits hfits]
              exact fails_fail _ _
      · rw [if_neg (fun h => hwhole h.1)]
        exact (noInteger_readNumber hwhole hbounded).fails fun x rest => fails_fail _ _
  | _ => exact fails_readUInt64 (by simp) h

theorem follows_integer : Follows readInt64 Value.integer? := by
  intro v cs more hcloses h
  cases v with
  | number n =>
      obtain ⟨rest, hvalue, hrest⟩ := h.valueText_token n.solid
      have hbounded := hrest.bounded hcloses
      simp only [readInt64, hvalue, ok_bind, n.startsNumber rest, if_true, Value.integer?]
      by_cases hwhole : n.IsWhole
      · rw [readNumber_whole hwhole hbounded, if_pos hwhole]
        cases hnegative : n.negative with
        | false =>
            rw [if_neg Bool.false_ne_true]
            by_cases hfits : n.value < Nat.pow 2 63
            · rw [if_pos hfits]
              exact ⟨rest, if_pos hfits, hrest⟩
            · rw [if_neg hfits]
              exact ⟨_, if_neg hfits⟩
        | true =>
            rw [if_pos rfl]
            by_cases hfits : 0 < n.value ∧ n.value ≤ Nat.pow 2 63
            · rw [integer_of_fits hfits, if_pos hfits]
              exact ⟨rest, rfl, hrest⟩
            · rw [integer_of_not_fits hfits, if_neg hfits]
              exact fails_fail _ _
      · rw [if_neg hwhole]
        exact (noInteger_readNumber hwhole hbounded).fails fun x rest => fails_fail _ _
  | _ => exact fails_readInt64 (by simp) h

end HostPolicy.Json
