import HostPolicy.Address.Printer
import HostPolicy.Proofs.Address.Literal
import HostPolicy.Proofs.Text.Digits

/-!
# Groups that were written are read back

Eight groups between colons, or fewer with `::` in the place of a run of zeros. What follows a group
must not be taken for more digits of it, for another group, or for the rest of a dotted literal.
-/

namespace HostPolicy.Address

/-! ### One group -/

/-- Neither another digit of a group nor the dot of a dotted literal comes next. -/
def EndsGroup (rest : List Char) : Prop :=
  Stops (fun c => Text.isHex c || c == '.') rest

theorem endsGroup_colon (rest : List Char) : EndsGroup (':' :: rest) :=
  Stops.cons rfl rest

section Group

variable (form : Form) {cs rest : List Char}

theorem readDottedGroups_eq_none (h : (cs.dropWhile Char.isDigit).head? ≠ some '.') :
    readDottedGroups form cs = none := by
  have hdotted : readDotted form cs = none := by
    rw [Option.eq_none_iff_forall_ne_some]
    rintro ⟨octets, last⟩ hread
    simp only [readDotted, Option.bind_eq_bind, Option.bind_eq_some_iff, Prod.exists,
      readChar_eq_some_iff] at hread
    obtain ⟨a, first, ha, _, hdot, _⟩ := hread
    obtain ⟨_, _, _, _, _, hfirst⟩ := readOctet_eq_some_iff.mp ha
    rw [hfirst, hdot] at h
    exact h rfl
  rw [readDottedGroups, hdotted, Option.map_none]

variable (hrest : EndsGroup rest)

include hrest

theorem EndsGroup.hex : Stops Text.isHex rest :=
  hrest.mono fun _ hhex => by simp [hhex]

/-- The first octet of a dotted literal would end at a dot. -/
theorem EndsGroup.readDottedGroups_append (hcs : ∀ c ∈ cs, Text.isHex c = true) :
    readDottedGroups form (cs ++ rest) = none := by
  apply readDottedGroups_eq_none
  induction cs with
  | nil =>
      have hdigits : Stops Char.isDigit rest :=
        hrest.hex.mono fun _ hdigit => by simp [Text.isHex, Text.hexValue?, hdigit]
      rw [List.nil_append, hdigits.dropWhile_eq]
      intro hhead
      exact absurd (hrest '.' hhead) (by decide)
  | cons c cs ih =>
      obtain ⟨hc, hmore⟩ := List.forall_mem_cons.mp hcs
      by_cases hdigit : c.isDigit = true
      · rw [List.cons_append, List.dropWhile_cons_of_pos hdigit]
        exact ih hmore
      · rw [List.cons_append, List.dropWhile_cons_of_neg hdigit, List.head?_cons, ne_eq,
          Option.some.injEq]
        rintro rfl
        contradiction

theorem EndsGroup.readDottedGroups_eq : readDottedGroups form rest = none :=
  hrest.readDottedGroups_append form (List.forall_mem_nil _)

theorem EndsGroup.readGroup_eq : readGroup rest = none := by
  simp [readGroup, hrest.hex.takeWhile_eq]

theorem readGroup_hexadecimal {n : Nat} (hn : n < 65536) :
    readGroup (Text.hexadecimal n ++ rest) = some (n, rest) := by
  have hdigits := Text.forall_mem_hexadecimal n
  rw [readGroup_eq_some_iff]
  dsimp only
  rw [List.takeWhile_append_of_pos hdigits, List.dropWhile_append_of_pos hdigits,
    hrest.hex.takeWhile_eq, hrest.hex.dropWhile_eq, List.append_nil]
  exact ⟨Nat.toDigits_ne_nil, Text.length_hexadecimal_le (by decide) hn,
    Text.hexadecimalValue_hexadecimal n, rfl⟩

/-- One more group, behind a colon if it is not the first. -/
theorem readGroups_succ {group : Nat} (hgroup : group < 65536) {limit : Nat} {groups : List Nat}
    {dotted : Bool} {last : List Char}
    (hread : readGroups form limit false rest = (groups, dotted, last)) (leading : Bool) :
    readGroups form (limit + 1) leading
        ((if leading then [] else [':']) ++ (Text.hexadecimal group ++ rest)) =
      (group :: groups, dotted, last) := by
  have hdotted := hrest.readDottedGroups_append form (Text.forall_mem_hexadecimal group)
  rw [readGroups]
  cases leading <;> simp [readChar, hdotted, readGroup_hexadecimal hrest hgroup, hread]

end Group

/-! ### A run of groups -/

/-- Nor does another group come next, behind a colon. -/
def EndsGroups (rest : List Char) : Prop :=
  EndsGroup rest ∧ ∀ next, rest = ':' :: next → EndsGroup next

theorem endsGroups_colons (rest : List Char) : EndsGroups (':' :: ':' :: rest) := by
  refine ⟨endsGroup_colon _, ?_⟩
  rintro _ ⟨⟩
  exact endsGroup_colon rest

/-- Groups that each follow a colon of their own. -/
def furtherChars (groups : List Nat) : List Char :=
  groups.flatMap fun group => ':' :: Text.hexadecimal group

theorem groupChars_cons (group : Nat) (groups : List Nat) :
    groupChars (group :: groups) = Text.hexadecimal group ++ furtherChars groups := by
  induction groups generalizing group with
  | nil => simp [groupChars, furtherChars, List.intercalate]
  | cons next groups ih =>
      have hnext := ih next
      rw [groupChars] at hnext
      rw [groupChars, List.map_cons, List.map_cons, List.intercalate_cons_cons, ← List.map_cons,
        hnext]
      simp [furtherChars]

section Groups

variable (form : Form) {rest : List Char} (hrest : EndsGroups rest)

include hrest

theorem EndsGroups.readGroups_eq (limit : Nat) (leading : Bool) :
    readGroups form limit leading rest = ([], false, rest) := by
  have hnext : ∀ next, (if leading then some rest else readChar ':' rest) = some next →
      EndsGroup next := by
    cases leading with
    | true =>
        rintro _ ⟨⟩
        exact hrest.1
    | false =>
        intro next hread
        exact hrest.2 next (readChar_eq_some_iff.mp hread)
  cases limit with
  | zero => rfl
  | succ limit =>
      rw [readGroups]
      split
      · rfl
      · next next hseparator =>
          have hends := hnext next hseparator
          simp [hends.readDottedGroups_eq, hends.readGroup_eq]

theorem EndsGroups.further (groups : List Nat) : EndsGroup (furtherChars groups ++ rest) := by
  cases groups with
  | nil => exact hrest.1
  | cons group groups => exact endsGroup_colon _

theorem readGroups_furtherChars {groups : List Nat} (hgroups : ∀ group ∈ groups, group < 65536)
    {limit : Nat} (hlimit : groups.length ≤ limit) :
    readGroups form limit false (furtherChars groups ++ rest) = (groups, false, rest) := by
  induction groups generalizing limit with
  | nil => exact hrest.readGroups_eq form limit false
  | cons group groups ih =>
      obtain ⟨hgroup, hmore⟩ := List.forall_mem_cons.mp hgroups
      obtain ⟨limit, rfl⟩ := Nat.exists_eq_add_one_of_ne_zero (Nat.ne_zero_of_lt hlimit)
      have hread := ih hmore (Nat.le_of_succ_le_succ hlimit)
      have htext : furtherChars (group :: groups) ++ rest =
          [':'] ++ (Text.hexadecimal group ++ (furtherChars groups ++ rest)) := by
        simp [furtherChars]
      rw [htext]
      exact readGroups_succ form (hrest.further groups) hgroup hread false

theorem readGroups_groupChars {groups : List Nat} (hgroups : ∀ group ∈ groups, group < 65536)
    {limit : Nat} (hlimit : groups.length ≤ limit) :
    readGroups form limit true (groupChars groups ++ rest) = (groups, false, rest) := by
  cases groups with
  | nil => exact hrest.readGroups_eq form limit true
  | cons group groups =>
      obtain ⟨hgroup, hmore⟩ := List.forall_mem_cons.mp hgroups
      obtain ⟨limit, rfl⟩ := Nat.exists_eq_add_one_of_ne_zero (Nat.ne_zero_of_lt hlimit)
      have hread := readGroups_furtherChars form hrest hmore (Nat.le_of_succ_le_succ hlimit)
      rw [groupChars_cons, List.append_assoc]
      exact readGroups_succ form (hrest.further groups) hgroup hread true

/-! ### Literals in groups -/

theorem readV6_groupChars {groups : List Nat} (hgroups : ∀ group ∈ groups, group < 65536)
    (hlength : groups.length = 8) :
    readV6 form (groupChars groups ++ rest) = some (ofGroups groups, rest) := by
  rw [readV6, readGroups_groupChars form hrest hgroups hlength.le]
  exact if_pos hlength

/-- In either form `::` may stand for two zero groups or more. -/
theorem readV6_run {head tail : List Nat} {run : Nat} (hhead : ∀ group ∈ head, group < 65536)
    (htail : ∀ group ∈ tail, group < 65536) (hrun : 1 < run)
    (hlength : head.length + run + tail.length = 8) :
    readV6 form (groupChars head ++ [':', ':'] ++ groupChars tail ++ rest) =
      some (ofGroups (head ++ List.replicate run 0 ++ tail), rest) := by
  have hfewest : form.fewestZeros ≤ 1 := by cases form <;> decide
  have hroom : tail.length ≤ 8 - head.length - form.fewestZeros := by omega
  have hzeros : 8 - head.length - tail.length = run := by omega
  have hfront := readGroups_groupChars form (endsGroups_colons (groupChars tail ++ rest)) hhead
    (by omega : head.length ≤ 8)
  have hback := readGroups_groupChars form hrest htail hroom
  have htext : groupChars head ++ [':', ':'] ++ groupChars tail ++ rest =
      groupChars head ++ (':' :: ':' :: (groupChars tail ++ rest)) := by simp
  rw [htext, readV6, hfront]
  simp only [hback, hzeros]
  rw [if_neg (by omega), if_neg Bool.false_ne_true]

end Groups

theorem ofGroups_groups (bits : BitVec 128) : ofGroups (groups bits) = bits := by
  have hfits : bits.toNat < 65536 ^ 8 := bits.isLt
  rw [ofGroups, groups, Text.ofDigits_toDigits hfits, BitVec.ofNat_toNat, BitVec.setWidth_eq]

/-- A run of zero groups, and what stands before and behind it. -/
theorem zeroRun_split (groups : List Nat) (i : Nat) :
    groups = groups.take i ++ List.replicate (zeroRun groups i) 0 ++
      groups.drop (i + zeroRun groups i) := by
  have hrun : (groups.drop i).takeWhile (· == 0) = List.replicate (zeroRun groups i) 0 := by
    rw [List.eq_replicate_iff]
    exact ⟨rfl, fun group hmem => by simpa using List.mem_takeWhile_imp hmem⟩
  have hcut : groups.drop i = List.replicate (zeroRun groups i) 0 ++
      (groups.drop i).dropWhile (· == 0) := by
    rw [← hrun, List.takeWhile_append_dropWhile]
  have hbehind := congrArg (List.drop (zeroRun groups i)) hcut
  rw [List.drop_drop, List.drop_left' List.length_replicate] at hbehind
  rw [hbehind, List.append_assoc, ← hcut, List.take_append_drop]

end HostPolicy.Address
