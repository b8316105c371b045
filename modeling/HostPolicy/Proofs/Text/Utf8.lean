import HostPolicy.Text.Utf8
import Mathlib.Data.List.Induction

/-!
# Reading back what was written

A text that is written in UTF-8 is read back as it was, character by character and without a hole.
Any octets may stand before a line feed, and still those behind it are read as they are by
themselves.
-/

namespace HostPolicy.Text.Utf8

def feed (s : Option Unfinished × List (Option Char)) (octet : UInt8) :
    Option Unfinished × List (Option Char) :=
  ((step s.1 octet.toNat).1, (step s.1 octet.toNat).2.reverse ++ s.2)

theorem scan_eq_foldl (octets : List UInt8) : scan octets = octets.foldl feed (none, []) := rfl

section Feed

variable {octet : Nat} (read : List (Option Char))

theorem toNat_ofNat_of_lt (hlt : octet < 256) : (UInt8.ofNat octet).toNat = octet := by
  rw [UInt8.toNat_ofNat']
  exact Nat.mod_eq_of_lt hlt

theorem feed_first (hlt : octet < 256) {next : Option Unfinished} {more : List (Option Char)}
    (hstart : start octet = (next, more)) :
    feed (none, read) (UInt8.ofNat octet) = (next, more.reverse ++ read) := by
  simp only [feed, step, toNat_ofNat_of_lt hlt, hstart]

theorem feed_middle (hlt : octet < 256) {owed low high bits : Nat} (hlow : low ≤ octet)
    (hhigh : octet ≤ high) :
    feed (some ⟨owed + 2, low, high, bits⟩, read) (UInt8.ofNat octet) =
      (some ⟨owed + 1, 0x80, 0xBF, bits * 64 + octet % 64⟩, read) := by
  simp [feed, step, toNat_ofNat_of_lt hlt, hlow, hhigh]

theorem feed_last (hlt : octet < 256) {low high bits : Nat} (hlow : low ≤ octet)
    (hhigh : octet ≤ high) :
    feed (some ⟨1, low, high, bits⟩, read) (UInt8.ofNat octet) =
      (none, some (Char.ofNat (bits * 64 + octet % 64)) :: read) := by
  simp [feed, step, toNat_ofNat_of_lt hlt, hlow, hhigh]

end Feed

/-! ### The first octet -/

variable (octet : Nat)

theorem start_of_one (hlt : octet < 0x80) : start octet = (none, [some (Char.ofNat octet)]) := by
  rw [start, if_pos hlt]

theorem start_of_two (hge : 0xC2 ≤ octet) (hlt : octet < 0xE0) :
    start octet = (some ⟨1, 0x80, 0xBF, octet % 32⟩, []) := by
  rw [start, if_neg (by omega), if_neg (by omega), if_pos hlt]

theorem start_of_three (hge : 0xE0 ≤ octet) (hlt : octet < 0xF0) :
    start octet = (some ⟨2, if octet = 0xE0 then 0xA0 else 0x80,
      if octet = 0xED then 0x9F else 0xBF, octet % 16⟩, []) := by
  rw [start, if_neg (by omega), if_neg (by omega), if_neg (by omega)]
  by_cases hfirst : octet = 0xE0
  · subst hfirst
    rfl
  · by_cases hsurrogate : octet = 0xED
    · subst hsurrogate
      rfl
    · rw [if_neg hfirst, if_neg hsurrogate, if_pos hlt, if_neg hfirst, if_neg hsurrogate]

theorem start_of_four (hge : 0xF0 ≤ octet) (hle : octet ≤ 0xF4) :
    start octet = (some ⟨3, if octet = 0xF0 then 0x90 else 0x80,
      if octet = 0xF4 then 0x8F else 0xBF, octet % 8⟩, []) := by
  rw [start, if_neg (by omega), if_neg (by omega), if_neg (by omega), if_neg (by omega),
    if_neg (by omega), if_neg (by omega)]
  by_cases hfirst : octet = 0xF0
  · subst hfirst
    rfl
  · by_cases hlast : octet = 0xF4
    · subst hlast
      rfl
    · rw [if_neg hfirst, if_pos (by omega), if_neg hfirst, if_neg hlast]

/-! ### A whole character -/

section Character

variable {n : Nat} (read : List (Option Char))

theorem foldl_feed_one (hle : n ≤ 0x7F) :
    [UInt8.ofNat n].foldl feed (none, read) = (none, some (Char.ofNat n) :: read) := by
  have hstart := start_of_one n (by omega)
  exact feed_first read (by omega) hstart

theorem foldl_feed_two (hge : 0x80 ≤ n) (hle : n ≤ 0x7FF) :
    [UInt8.ofNat (n / 64 % 32 + 192), UInt8.ofNat (n % 64 + 128)].foldl feed (none, read) =
      (none, some (Char.ofNat n) :: read) := by
  have hstart := start_of_two (n / 64 % 32 + 192) (by omega) (by omega)
  have hbits : (n / 64 % 32 + 192) % 32 * 64 + (n % 64 + 128) % 64 = n := by omega
  simp only [List.foldl_cons, List.foldl_nil]
  rw [feed_first read (by omega) hstart, feed_last _ (by omega) (by omega) (by omega), hbits]
  rfl

/-- The range of the second octet leaves out what fewer octets would do for, and the surrogates. -/
theorem foldl_feed_three (hge : 0x800 ≤ n) (hle : n ≤ 0xFFFF) (hchar : n < 0xD800 ∨ 0xDFFF < n) :
    [UInt8.ofNat (n / 4096 % 16 + 224), UInt8.ofNat (n / 64 % 64 + 128),
      UInt8.ofNat (n % 64 + 128)].foldl feed (none, read) =
      (none, some (Char.ofNat n) :: read) := by
  have hstart := start_of_three (n / 4096 % 16 + 224) (by omega) (by omega)
  have hlow : (if n / 4096 % 16 + 224 = 0xE0 then 0xA0 else 0x80) ≤ n / 64 % 64 + 128 := by
    split <;> omega
  have hhigh : n / 64 % 64 + 128 ≤ (if n / 4096 % 16 + 224 = 0xED then 0x9F else 0xBF) := by
    split <;> omega
  have hbits : ((n / 4096 % 16 + 224) % 16 * 64 + (n / 64 % 64 + 128) % 64) * 64 +
      (n % 64 + 128) % 64 = n := by omega
  simp only [List.foldl_cons, List.foldl_nil]
  rw [feed_first read (by omega) hstart, feed_middle _ (by omega) hlow hhigh,
    feed_last _ (by omega) (by omega) (by omega), hbits]
  rfl

/-- The range of the second octet leaves out what fewer octets would do for, and what is past the
last character. -/
theorem foldl_feed_four (hge : 0x10000 ≤ n) (hlt : n < 0x110000) :
    [UInt8.ofNat (n / 262144 % 8 + 240), UInt8.ofNat (n / 4096 % 64 + 128),
      UInt8.ofNat (n / 64 % 64 + 128), UInt8.ofNat (n % 64 + 128)].foldl feed (none, read) =
      (none, some (Char.ofNat n) :: read) := by
  have hstart := start_of_four (n / 262144 % 8 + 240) (by omega) (by omega)
  have hlow : (if n / 262144 % 8 + 240 = 0xF0 then 0x90 else 0x80) ≤ n / 4096 % 64 + 128 := by
    split <;> omega
  have hhigh : n / 4096 % 64 + 128 ≤ (if n / 262144 % 8 + 240 = 0xF4 then 0x8F else 0xBF) := by
    split <;> omega
  have hbits : (((n / 262144 % 8 + 240) % 8 * 64 + (n / 4096 % 64 + 128) % 64) * 64 +
      (n / 64 % 64 + 128) % 64) * 64 + (n % 64 + 128) % 64 = n := by omega
  simp only [List.foldl_cons, List.foldl_nil]
  rw [feed_first read (by omega) hstart, feed_middle _ (by omega) hlow hhigh,
    feed_middle _ (by omega) (by omega) (by omega), feed_last _ (by omega) (by omega) (by omega),
    hbits]
  rfl

end Character

theorem foldl_feed_utf8EncodeChar (c : Char) (read : List (Option Char)) :
    (String.utf8EncodeChar c).foldl feed (none, read) = (none, some c :: read) := by
  have hvalid : c.val.toNat < 0xD800 ∨ 0xDFFF < c.val.toNat ∧ c.val.toNat < 0x110000 := c.valid
  have hchar : some (Char.ofNat c.val.toNat) = some c := congrArg some c.ofNat_toNat
  rw [← hchar]
  unfold String.utf8EncodeChar
  dsimp only
  split
  · next hone => exact foldl_feed_one read hone
  · next hmore =>
      split
      · next htwo => exact foldl_feed_two read (Nat.lt_of_not_le hmore) htwo
      · next hmore =>
          split
          · next hthree =>
              exact foldl_feed_three read (Nat.lt_of_not_le hmore) hthree (by omega)
          · next hmore => exact foldl_feed_four read (Nat.lt_of_not_le hmore) (by omega)

theorem foldl_feed_flatMap (cs : List Char) (read : List (Option Char)) :
    (cs.flatMap String.utf8EncodeChar).foldl feed (none, read) =
      (none, (cs.map some).reverse ++ read) := by
  induction cs generalizing read with
  | nil => rfl
  | cons c cs ih =>
      rw [List.flatMap_cons, List.foldl_append, foldl_feed_utf8EncodeChar, ih]
      simp

theorem slots_encode (s : String) : slots (encode s) = s.toList.map some := by
  have hscan : scan (encode s) = (none, (s.toList.map some).reverse) := by
    rw [scan_eq_foldl, encode, foldl_feed_flatMap, List.append_nil]
  rw [slots, hscan]
  exact List.reverse_reverse _

/-! ### Beginnings -/

/-- What was read before has no say in what is read next. -/
theorem foldl_feed_eq (octets : List UInt8) (s : Option Unfinished) (read : List (Option Char)) :
    octets.foldl feed (s, read) =
      ((octets.foldl feed (s, [])).1, (octets.foldl feed (s, [])).2 ++ read) := by
  induction octets generalizing s read with
  | nil => rfl
  | cons octet octets ih =>
      simp only [List.foldl_cons, feed, List.append_nil]
      rw [ih, ih _ (step s octet.toNat).2.reverse, List.append_assoc]

/-- No character's octets begin those of another. -/
theorem encode_prefix_encode_iff {s t : String} :
    encode s <+: encode t ↔ s.toList <+: t.toList := by
  constructor
  · rintro ⟨rest, hrest⟩
    have hfirst : (encode s).foldl feed (none, []) = (none, (s.toList.map some).reverse) := by
      rw [encode, foldl_feed_flatMap, List.append_nil]
    have hall : (encode t).foldl feed (none, []) = (none, (t.toList.map some).reverse) := by
      rw [encode, foldl_feed_flatMap, List.append_nil]
    rw [← hrest, List.foldl_append, hfirst, foldl_feed_eq, Prod.mk.injEq] at hall
    generalize (rest.foldl feed (none, [])).2 = more at hall
    have hmore := hall.2.symm
    rw [← List.reverse_inj, List.reverse_append, List.reverse_reverse,
      List.reverse_reverse] at hmore
    have hread := congrArg (List.filterMap id) hmore
    simp only [List.filterMap_append, List.filterMap_map, Function.id_comp,
      List.filterMap_some] at hread
    exact ⟨more.reverse.filterMap id, hread.symm⟩
  · rintro ⟨rest, hrest⟩
    exact ⟨rest.flatMap String.utf8EncodeChar, by rw [encode, encode, ← hrest, List.flatMap_append]⟩

theorem decodeLossy_encode (s : String) : decodeLossy (encode s) = s.toList := by
  rw [decodeLossy, slots_encode, List.map_map]
  exact List.map_id s.toList

/-! ### Line feeds -/

/-- The octets to come are from `0x80` on, and complete no character below that. -/
structure Unfinished.Wide (u : Unfinished) : Prop where
  low : 0x80 ≤ u.low
  high : u.high ≤ 0xBF
  bits : 2 ≤ u.bits ∨ 2 ≤ u.owed ∧ (1 ≤ u.bits ∨ 0x82 ≤ u.low)

/-- An octet read between two characters is a character, or none, or begins one. -/
theorem start_cases (octet : Nat) :
    (octet < 0x80 ∧ start octet = (none, [some (Char.ofNat octet)])) ∨
      start octet = (none, [none]) ∨ ∃ u, u.Wide ∧ start octet = (some u, []) := by
  by_cases hone : octet < 0x80
  · exact Or.inl ⟨hone, start_of_one octet hone⟩
  right
  by_cases htail : octet < 0xC2
  · left
    rw [start, if_neg hone, if_pos htail]
  by_cases htwo : octet < 0xE0
  · exact Or.inr ⟨_, ⟨Nat.le_refl _, Nat.le_refl _, by dsimp only; omega⟩,
      start_of_two octet (by omega) htwo⟩
  by_cases hthree : octet < 0xF0
  · refine Or.inr ⟨_, ⟨?_, ?_, ?_⟩, start_of_three octet (by omega) hthree⟩
    all_goals dsimp only; split <;> omega
  by_cases hfour : octet ≤ 0xF4
  · refine Or.inr ⟨_, ⟨?_, ?_, ?_⟩, start_of_four octet (by omega) hfour⟩
    all_goals dsimp only; split <;> omega
  · left
    simp only [start]
    iterate 9 rw [if_neg (by omega)]

theorem ofNat_eq_lineFeed_iff {n : Nat} : Char.ofNat n = '\n' ↔ n = 10 := by
  constructor
  · intro h
    by_cases hvalid : n.isValidChar
    · have hvalue : (Char.ofNat n).toNat = n := by
        rw [Char.ofNat, dif_pos hvalid]
        rfl
      rw [← hvalue, h]
      rfl
    · rw [Char.ofNat, dif_neg hvalid] at h
      contradiction
  · rintro rfl
    rfl

theorem wide_start (octet : Nat) : ∀ u ∈ (start octet).1, u.Wide := by
  rcases start_cases octet with ⟨-, hstart⟩ | hstart | ⟨u, hwide, hstart⟩
  · simp [hstart]
  · simp [hstart]
  · simpa [hstart] using hwide

theorem lineFeed_not_mem_start {octet : Nat} (hne : octet ≠ 10) :
    some '\n' ∉ (start octet).2 := by
  rcases start_cases octet with ⟨-, hstart⟩ | hstart | ⟨u, -, hstart⟩
  · rw [hstart, List.mem_singleton, Option.some.injEq, eq_comm, ofNat_eq_lineFeed_iff]
    exact hne
  · simp [hstart]
  · simp [hstart]

section Step

variable {s : Option Unfinished} (hs : ∀ u ∈ s, u.Wide)

include hs

theorem wide_step (octet : Nat) : ∀ u ∈ (step s octet).1, u.Wide := by
  cases s with
  | none => exact wide_start octet
  | some u =>
      obtain ⟨hlow, hhigh, hbits⟩ := hs u rfl
      simp only [step]
      split
      · split
        · simp
        · rintro _ ⟨⟩
          exact ⟨Nat.le_refl _, Nat.le_refl _, Or.inl (by dsimp only; omega)⟩
      · exact wide_start octet

theorem lineFeed_not_mem_step {octet : Nat} (hne : octet ≠ 10) :
    some '\n' ∉ (step s octet).2 := by
  cases s with
  | none => exact lineFeed_not_mem_start hne
  | some u =>
      obtain ⟨hlow, hhigh, hbits⟩ := hs u rfl
      simp only [step]
      split
      · split
        · rw [List.mem_singleton, Option.some.injEq, eq_comm, ofNat_eq_lineFeed_iff]
          omega
        · simp
      · simpa using lineFeed_not_mem_start hne

end Step

/-- What the octets leave behind when they end within a character. -/
def cut : Option Unfinished → List (Option Char)
  | none => []
  | some _ => [none]

theorem slots_eq (octets : List UInt8) :
    slots octets = (scan octets).2.reverse ++ cut (scan octets).1 := by
  unfold slots
  split
  · next read hscan => simp [hscan, cut]
  · next u read hscan => simp [hscan, cut]

theorem step_lineFeed {s : Option Unfinished} (hs : ∀ u ∈ s, u.Wide) :
    step s 10 = (none, cut s ++ [some '\n']) := by
  cases s with
  | none => rfl
  | some u =>
      have hlow := (hs u rfl).low
      rw [step, if_neg (by omega)]
      rfl

theorem wide_scan (octets : List UInt8) : ∀ u ∈ (scan octets).1, u.Wide := by
  rw [scan_eq_foldl]
  have hstart : ∀ u ∈ (none : Option Unfinished), u.Wide := by simp
  generalize (none : Option Unfinished) = s at hstart
  generalize ([] : List (Option Char)) = read
  induction octets generalizing s read with
  | nil => exact hstart
  | cons octet octets ih => exact ih _ (wide_step hstart octet.toNat) _

/-- A line feed ends whatever character is unfinished, and the octets behind it are read as they are
by themselves. -/
theorem slots_lineFeed (front back : List UInt8) :
    slots (front ++ 10 :: back) = slots front ++ some '\n' :: slots back := by
  have hstep : feed (scan front) 10 =
      (none, (cut (scan front).1 ++ [some '\n']).reverse ++ (scan front).2) := by
    have hstep := step_lineFeed (wide_scan front)
    simp [feed, hstep]
  have hscan : scan (front ++ 10 :: back) = ((scan back).1,
      (scan back).2 ++ ((cut (scan front).1 ++ [some '\n']).reverse ++ (scan front).2)) := by
    rw [scan_eq_foldl, List.foldl_append, List.foldl_cons, ← scan_eq_foldl, hstep, foldl_feed_eq]
    rfl
  rw [slots_eq, slots_eq, slots_eq, hscan]
  simp

theorem lineFeed_not_mem_slots {octets : List UInt8} (h : 10 ∉ octets) :
    some '\n' ∉ slots octets := by
  have hscan : some '\n' ∉ (scan octets).2 := by
    induction octets using List.reverseRecOn with
    | nil => simp [scan]
    | append_singleton octets octet ih =>
        rw [List.mem_append, not_or, List.mem_singleton] at h
        have hne : octet.toNat ≠ 10 := fun heq => h.2 (UInt8.toNat_inj.mp heq).symm
        have hstep := lineFeed_not_mem_step (wide_scan octets) hne
        rw [scan_eq_foldl, List.foldl_append, ← scan_eq_foldl]
        simpa [feed] using ⟨hstep, ih h.1⟩
  have hcut : some '\n' ∉ cut (scan octets).1 := by
    cases (scan octets).1 <;> simp [cut]
  rw [slots_eq, List.mem_append, List.mem_reverse, not_or]
  exact ⟨hscan, hcut⟩

theorem decodeLossy_lineFeed (front back : List UInt8) :
    decodeLossy (front ++ 10 :: back) = decodeLossy front ++ '\n' :: decodeLossy back := by
  simp [decodeLossy, slots_lineFeed]

theorem lineFeed_not_mem_decodeLossy {octets : List UInt8} (h : 10 ∉ octets) :
    '\n' ∉ decodeLossy octets := by
  intro hmem
  obtain ⟨slot, hslot, heq⟩ := List.mem_map.mp hmem
  cases slot with
  | none => contradiction
  | some c =>
      obtain rfl : c = '\n' := heq
      exact lineFeed_not_mem_slots h hslot

end HostPolicy.Text.Utf8
