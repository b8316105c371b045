import HostPolicy.Address.Reader
import Mathlib.Data.List.TakeWhile

/-!
# What address literals are made of

A reader takes its literal off the front of a text and leaves the rest. From what it takes the
characters of literals are known, and that an IPv6 literal has more than one colon, so that it
is never taken for a host with a port.
-/

namespace HostPolicy.Address

/-- The rest is what is left of a text without some characters at its front, all of which satisfy
`p`. -/
def Takes (p : Char → Bool) (cs rest : List Char) : Prop :=
  ∃ read, cs = read ++ rest ∧ ∀ c ∈ read, p c = true

namespace Takes

variable {p q : Char → Bool} {cs middle rest : List Char}

theorem refl (cs : List Char) : Takes p cs cs := ⟨[], rfl, by simp⟩

theorem trans (first : Takes p cs middle) (second : Takes p middle rest) : Takes p cs rest := by
  obtain ⟨read, rfl, hread⟩ := first
  obtain ⟨more, rfl, hmore⟩ := second
  refine ⟨read ++ more, by rw [List.append_assoc], ?_⟩
  intro c hmem
  rcases List.mem_append.mp hmem with hmem | hmem
  · exact hread c hmem
  · exact hmore c hmem

theorem mono (h : Takes p cs rest) (hle : ∀ c, p c = true → q c = true) : Takes q cs rest := by
  obtain ⟨read, hcs, hread⟩ := h
  exact ⟨read, hcs, fun c hmem => hle c (hread c hmem)⟩

theorem cons {c : Char} (hc : p c = true) (rest : List Char) : Takes p (c :: rest) rest :=
  ⟨[c], rfl, by simpa using hc⟩

theorem dropWhile (p : Char → Bool) (cs : List Char) : Takes p cs (cs.dropWhile p) :=
  ⟨cs.takeWhile p, List.takeWhile_append_dropWhile.symm, fun _ hmem => List.mem_takeWhile_imp hmem⟩

theorem count_le (h : Takes p cs rest) (c : Char) : rest.count c ≤ cs.count c := by
  obtain ⟨read, rfl, _⟩ := h
  rw [List.count_append]
  exact Nat.le_add_left _ _

theorem mem (h : Takes p cs rest) {c : Char} (hc : p c = false) (hmem : c ∈ cs) : c ∈ rest := by
  obtain ⟨read, rfl, hread⟩ := h
  refine (List.mem_append.mp hmem).resolve_left fun hfront => ?_
  rw [hread c hfront] at hc
  contradiction

theorem all (h : Takes p cs []) : ∀ c ∈ cs, p c = true := by
  obtain ⟨read, rfl, hread⟩ := h
  rwa [List.append_nil]

end Takes

/-- A text that does not go on with a character that satisfies `p`. -/
def Stops (p : Char → Bool) (rest : List Char) : Prop :=
  ∀ c ∈ rest.head?, p c = false

namespace Stops

variable {p q : Char → Bool} {rest : List Char}

theorem nil (p : Char → Bool) : Stops p [] := by
  simp [Stops]

theorem cons {c : Char} (hc : p c = false) (rest : List Char) : Stops p (c :: rest) := by
  simpa [Stops] using hc

theorem mono (h : Stops q rest) (hle : ∀ c, p c = true → q c = true) : Stops p rest := by
  intro c hmem
  rw [← Bool.not_eq_true]
  intro hc
  have hnot := h c hmem
  rw [hle c hc] at hnot
  contradiction

theorem takeWhile_eq (h : Stops p rest) : rest.takeWhile p = [] := by
  cases rest with
  | nil => rfl
  | cons c rest => rw [List.takeWhile_cons_of_neg (by simpa using h c rfl)]

theorem dropWhile_eq (h : Stops p rest) : rest.dropWhile p = rest := by
  cases rest with
  | nil => rfl
  | cons c rest => rw [List.dropWhile_cons_of_neg (by simpa using h c rfl)]

end Stops

/-- The characters of dotted literals. -/
def isDotted (c : Char) : Bool :=
  c.isDigit || c == '.'

def isLiteral (c : Char) : Bool :=
  Text.isHex c || c == ':' || c == '.'

theorem isLiteral_of_isDotted {c : Char} (hc : isDotted c = true) : isLiteral c = true := by
  rcases Bool.or_eq_true_iff.mp hc with hdigit | hdot
  · simp [isLiteral, Text.isHex, Text.hexValue?, hdigit]
  · simp [isLiteral, hdot]

section Readers

variable {form : Form} {cs rest : List Char}

theorem readChar_eq_some_iff {c : Char} : readChar c cs = some rest ↔ cs = c :: rest := by
  cases cs with
  | nil => simp [readChar]
  | cons d cs => by_cases heq : c = d <;> simp [readChar, heq, eq_comm]

theorem readOctet_eq_some_iff {n : Nat} : readOctet form cs = some (n, rest) ↔
    let digits := cs.takeWhile Char.isDigit
    digits ≠ [] ∧ digits.length ≤ 3 ∧
      (form = .strict → 1 < digits.length → digits.head? ≠ some '0') ∧
      Text.decimalValue digits ≤ 255 ∧ Text.decimalValue digits = n ∧
      cs.dropWhile Char.isDigit = rest := by
  simp [readOctet, and_assoc]

theorem readGroup_eq_some_iff {n : Nat} : readGroup cs = some (n, rest) ↔
    let digits := cs.takeWhile Text.isHex
    digits ≠ [] ∧ digits.length ≤ 4 ∧ Text.hexadecimalValue digits = n ∧
      cs.dropWhile Text.isHex = rest := by
  simp [readGroup, and_assoc]

theorem takes_octet {n : Nat} (h : readOctet form cs = some (n, rest)) :
    Takes isDotted cs rest := by
  obtain ⟨_, _, _, _, _, rfl⟩ := readOctet_eq_some_iff.mp h
  exact (Takes.dropWhile Char.isDigit cs).mono fun c hc => by simp [isDotted, hc]

theorem takes_group {n : Nat} (h : readGroup cs = some (n, rest)) : Takes isLiteral cs rest := by
  obtain ⟨_, _, _, rfl⟩ := readGroup_eq_some_iff.mp h
  exact (Takes.dropWhile Text.isHex cs).mono fun c hc => by simp [isLiteral, hc]

theorem takes_dotted {octets : List Nat} (h : readDotted form cs = some (octets, rest)) :
    Takes isDotted cs rest := by
  simp only [readDotted, Option.bind_eq_bind, Option.bind_eq_some_iff, Prod.exists,
    readChar_eq_some_iff] at h
  obtain ⟨a, first, ha, _, rfl, b, second, hb, _, rfl, c, third, hc, _, rfl, d, last, hd, hend⟩ := h
  cases hend
  have hdot (cs : List Char) : Takes isDotted ('.' :: cs) cs := Takes.cons rfl cs
  exact (takes_octet ha).trans <| (hdot _).trans <| (takes_octet hb).trans <| (hdot _).trans <|
    (takes_octet hc).trans <| (hdot _).trans (takes_octet hd)

theorem takes_dottedGroups {pair : List Nat} (h : readDottedGroups form cs = some (pair, rest)) :
    pair.length = 2 ∧ Takes isDotted cs rest := by
  obtain ⟨⟨octets, _⟩, hdotted, heq⟩ := Option.map_eq_some_iff.mp h
  cases heq
  exact ⟨rfl, takes_dotted hdotted⟩

theorem takes_separator {leading : Bool} {next : List Char}
    (h : (if leading then some cs else readChar ':' cs) = some next) :
    Takes isLiteral cs next ∧ next.count ':' + 1 = cs.count ':' + leading.toNat := by
  cases leading with
  | true =>
      cases h
      exact ⟨.refl cs, rfl⟩
  | false =>
      obtain rfl := readChar_eq_some_iff.mp h
      exact ⟨.cons rfl next, by rw [List.count_cons_self]; rfl⟩

/-- Every group but the first follows a colon of its own, except that a dotted literal makes two. -/
theorem takes_groups {limit : Nat} {leading dotted : Bool} {groups : List Nat}
    (h : readGroups form limit leading cs = (groups, dotted, rest)) :
    Takes isLiteral cs rest ∧
      groups.length + rest.count ':' ≤ cs.count ':' + leading.toNat + dotted.toNat := by
  induction limit generalizing leading cs groups dotted rest with
  | zero =>
      cases h
      exact ⟨.refl _, by simp⟩
  | succ limit ih =>
      unfold readGroups at h
      split at h
      · cases h
        exact ⟨.refl _, by simp⟩
      · next next hseparator =>
          obtain ⟨hcolon, hcount⟩ := takes_separator hseparator
          split at h
          · next pair after hpair =>
              cases h
              rw [Option.ite_none_right_eq_some] at hpair
              obtain ⟨hlength, htakes⟩ := takes_dottedGroups hpair.2
              have hle := htakes.count_le ':'
              refine ⟨hcolon.trans (htakes.mono fun _ => isLiteral_of_isDotted), ?_⟩
              simp only [hlength, Bool.toNat_true]
              omega
          · split at h
            · cases h
              exact ⟨.refl _, by simp⟩
            · next group after hgroup =>
                have htakes := takes_group hgroup
                have hle := htakes.count_le ':'
                obtain ⟨hmore, hlength⟩ := ih (Prod.eta _)
                cases h
                refine ⟨hcolon.trans (htakes.trans hmore), ?_⟩
                simp only [List.length_cons, Bool.toNat_false] at hlength ⊢
                omega

end Readers

/-! ### Whole literals -/

section Whole

variable {α : Type} {form : Form} {cs : List Char}

theorem wholly_eq_some_iff {result : Option (α × List Char)} {value : α} :
    wholly result = some value ↔ result = some (value, []) := by
  cases result with
  | none => simp [wholly]
  | some read =>
      obtain ⟨own, rest⟩ := read
      cases rest <;> simp [wholly]

theorem all_of_readV4 {bits : BitVec 32} (h : readV4 form cs = some (bits, [])) :
    ∀ c ∈ cs, isDotted c = true := by
  obtain ⟨⟨octets, _⟩, hdotted, heq⟩ := Option.map_eq_some_iff.mp h
  cases heq
  exact (takes_dotted hdotted).all

theorem all_of_readV6 {bits : BitVec 128} (h : readV6 form cs = some (bits, [])) :
    (∀ c ∈ cs, isLiteral c = true) ∧ 2 ≤ cs.count ':' := by
  unfold readV6 at h
  generalize hhead : readGroups form 8 true cs = head at h
  obtain ⟨head, dotted, rest⟩ := head
  obtain ⟨htakes, hlength⟩ := takes_groups hhead
  dsimp only at h
  split at h
  · next hall =>
      cases h
      have hdotted : dotted.toNat ≤ 1 := Bool.toNat_le dotted
      refine ⟨htakes.all, ?_⟩
      simp only [hall, Bool.toNat_true] at hlength
      omega
  · split at h
    · contradiction
    · split at h
      · next after =>
          obtain ⟨hmore, _⟩ := takes_groups (Prod.eta
            (readGroups form (8 - head.length - form.fewestZeros) true after))
          have hrest : (readGroups form (8 - head.length - form.fewestZeros) true after).2.2 = [] :=
            congrArg Prod.snd (Option.some.inj h)
          have hcolons : Takes isLiteral (':' :: ':' :: after) after :=
            (Takes.cons rfl _).trans (Takes.cons rfl after)
          rw [hrest] at hmore
          refine ⟨(htakes.trans (hcolons.trans hmore)).all, ?_⟩
          have hle := htakes.count_le ':'
          simp only [List.count_cons_self] at hle
          omega
      · contradiction

variable {text : String} {a : Address}

theorem read_of_parse? (h : parse? text = some a) :
    (∃ bits, readV4 .strict text.toList = some (bits, [])) ∨
      ∃ bits, readV6 .strict text.toList = some (bits, []) := by
  unfold parse? at h
  rcases Option.or_eq_some_iff.mp h with hv4 | ⟨_, hv6⟩
  · obtain ⟨bits, hread, _⟩ := Option.map_eq_some_iff.mp hv4
    exact Or.inl ⟨bits, wholly_eq_some_iff.mp hread⟩
  · obtain ⟨bits, hread, _⟩ := Option.map_eq_some_iff.mp hv6
    exact Or.inr ⟨bits, wholly_eq_some_iff.mp hread⟩

theorem all_of_parse? (h : parse? text = some a) : ∀ c ∈ text.toList, isLiteral c = true := by
  rcases read_of_parse? h with ⟨bits, hread⟩ | ⟨bits, hread⟩
  · exact fun c hmem => isLiteral_of_isDotted (all_of_readV4 hread c hmem)
  · exact (all_of_readV6 hread).1

/-- A literal with a colon has another. -/
theorem colons_of_parse? (h : parse? text = some a) :
    ':' ∉ text.toList ∨ 2 ≤ text.toList.count ':' := by
  rcases read_of_parse? h with ⟨bits, hread⟩ | ⟨bits, hread⟩
  · refine Or.inl fun hmem => ?_
    have hcolon := all_of_readV4 hread ':' hmem
    contradiction
  · exact Or.inr (all_of_readV6 hread).2

end Whole

end HostPolicy.Address
