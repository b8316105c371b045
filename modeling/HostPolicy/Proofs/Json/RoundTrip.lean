import HostPolicy.Json.Record
import HostPolicy.Json.Writer
import HostPolicy.Proofs.Json.Number
import HostPolicy.Proofs.Json.Text

/-!
# Values that were written are read back

A value is read back whatever follows it that can. That carries over from the parts of a value to
the whole: to an option, a list, and a record whose members are written in any order, absent ones
left out.
-/

namespace HostPolicy.Json

/-- How a value starts: neither with space nor with what ends a list or stands for no value. -/
def opens : List Char → Bool
  | [] => false
  | c :: _ => !isSpace c && c != ']' && c != 'n'

/-- What `chars` is read as, whatever follows it that can. -/
structure ReadsBack {α : Type} (read : List Char → Except Fault (α × List Char))
    (chars : List Char) (value : α) : Prop where
  opening : opens chars = true
  back : ∀ rest, Delimited rest → read (chars ++ rest) = .ok (value, rest)

variable {chars rest : List Char}

theorem exists_of_opens (h : opens chars = true) :
    ∃ c cs, chars = c :: cs ∧ isSpace c = false ∧ c ≠ ']' ∧ c ≠ 'n' := by
  cases chars with
  | nil => contradiction
  | cons c cs =>
      simp only [opens, Bool.and_eq_true, Bool.not_eq_true', bne_iff_ne] at h
      exact ⟨c, cs, rfl, h.1.1, h.1.2, h.2⟩

theorem skipSpace_of_opens (h : opens chars = true) (rest : List Char) :
    skipSpace (chars ++ rest) = chars ++ rest := by
  obtain ⟨c, cs, rfl, hspace, _⟩ := exists_of_opens h
  simp [skipSpace, hspace]

theorem valueText_of_opens (h : opens chars = true) (rest : List Char) :
    valueText (chars ++ rest) = .ok (chars ++ rest) := by
  rw [valueText, skipSpace_of_opens h]
  obtain ⟨c, cs, rfl, _⟩ := exists_of_opens h
  rfl

/-! ### Values without parts -/

theorem textChars_append (text : String) (rest : List Char) :
    textChars text ++ rest = '"' :: (text.toList.flatMap quoteChar ++ '"' :: rest) := by
  simp [textChars, quote]

theorem readsBack_text (expected text : String) :
    ReadsBack (readTextAs expected) (textChars text) text := by
  refine ⟨rfl, ?_⟩
  intro rest _
  have hopens : opens (textChars text) = true := rfl
  rw [readTextAs, valueText_of_opens hopens, textChars_append]
  simp [bind, Except.bind, readQuoted_quote, pure, Except.pure]

theorem readsBack_bool (b : Bool) : ReadsBack readBool (boolChars b) b := by
  cases b
  · exact ⟨rfl, fun _ _ => rfl⟩
  · exact ⟨rfl, fun _ _ => rfl⟩

theorem opens_of_isDigit {c : Char} (hdigit : c.isDigit = true) (cs : List Char) :
    opens (c :: cs) = true := by
  simp only [opens, isSpace, Bool.and_eq_true, Bool.not_eq_true', bne_iff_ne, Bool.or_eq_false_iff,
    beq_eq_false_iff_ne]
  refine ⟨⟨⟨⟨⟨?_, ?_⟩, ?_⟩, ?_⟩, ?_⟩, ?_⟩ <;> rintro rfl <;> contradiction

theorem opens_decimal (n : Nat) : opens (Text.decimal n) = true := by
  obtain ⟨c, cs, hcons, hdigit, _⟩ := Text.decimal_eq_cons n
  rw [hcons]
  exact opens_of_isDigit hdigit cs

theorem startsNumber_decimal (n : Nat) (rest : List Char) :
    startsNumber (Text.decimal n ++ rest) = true := by
  obtain ⟨c, cs, hcons, hdigit, _⟩ := Text.decimal_eq_cons n
  simp [hcons, startsNumber, startsWithDigit, hdigit]

theorem readsBack_natural (n : UInt64) : ReadsBack readUInt64 (naturalChars n) n := by
  refine ⟨opens_decimal n.toNat, ?_⟩
  intro rest hrest
  rw [readUInt64, naturalChars, valueText_of_opens (opens_decimal n.toNat)]
  simp only [bind, Except.bind, startsNumber_decimal, if_true,
    readNumber_natural n.toNat_lt hrest]
  rw [UInt64.ofNat_toNat]
  rfl

theorem readsBack_integer (n : Int64) : ReadsBack readInt64 (integerChars n) n := by
  have hleast := n.le_toInt
  have hgreatest := n.toInt_lt
  have hsign : n < 0 ↔ n.toInt < 0 := Int64.lt_iff_toInt_lt
  unfold integerChars
  split
  · next hnegative =>
      rw [hsign] at hnegative
      refine ⟨rfl, ?_⟩
      intro rest hrest
      have hvalue : -(n.toInt.natAbs : Int) = n.toInt := by omega
      have hread := readNumber_negative (n := n.toInt.natAbs) (by omega) (by simp; omega) hrest
      rw [hvalue] at hread
      have hstarts : startsNumber ('-' :: Text.decimal n.toInt.natAbs ++ rest) = true := rfl
      rw [readInt64, valueText_of_opens rfl]
      simp only [bind, Except.bind, hstarts, if_true, hread]
      rw [Int64.ofInt_toInt]
      rfl
  · next hnatural =>
      rw [hsign] at hnatural
      refine ⟨opens_decimal _, ?_⟩
      intro rest hrest
      have hsmall : n.toInt.natAbs < Nat.pow 2 63 := by simp; omega
      have hvalue : Int64.ofNat n.toInt.natAbs = n := by
        rw [← Int64.ofInt_eq_ofNat, Int.natAbs_of_nonneg (by omega), Int64.ofInt_toInt]
      rw [readInt64, valueText_of_opens (opens_decimal _)]
      simp only [bind, Except.bind, startsNumber_decimal, if_true,
        readNumber_natural (Nat.lt_trans hsmall (by decide)) hrest, if_pos hsmall]
      rw [hvalue]
      rfl

/-! ### Options and lists -/

variable {α : Type} {read : List Char → Except Fault (α × List Char)}

theorem ReadsBack.option {value : α} (h : ReadsBack read chars value) :
    ReadsBack (readOption read) chars (some value) := by
  refine ⟨h.opening, ?_⟩
  intro rest hrest
  have hback := h.back rest hrest
  rw [readOption, skipSpace_of_opens h.opening]
  obtain ⟨c, cs, rfl, _, _, hnull⟩ := exists_of_opens h.opening
  split
  · next heq =>
      cases heq
      contradiction
  · rw [hback]
    rfl

/-- What stands in front of a part of a list or an object, the first or a later one. -/
def lead (first : Bool) : List Char :=
  if first then [] else [',']

/-- The parts of a list or an object, from its start on or from behind a part. -/
def separated (first : Bool) : List (List Char) → List Char
  | [] => []
  | part :: parts => lead first ++ part ++ separated false parts

theorem separated_true (parts : List (List Char)) :
    separated true parts = [','].intercalate parts := by
  induction parts with
  | nil => rfl
  | cons part parts ih =>
      cases parts with
      | nil => simp [separated, lead, List.intercalate]
      | cons next parts =>
          simp only [List.intercalate, List.intersperse_cons_cons, List.flatten_cons] at ih ⊢
          rw [← ih]
          rfl

/-- Every part but the first has a comma, and the end takes a character too. -/
theorem length_lt_separated (parts : List (List Char)) (close : Char) (rest : List Char) :
    parts.length < (separated false parts ++ close :: rest).length := by
  induction parts with
  | nil => exact Nat.zero_lt_succ _
  | cons part parts ih =>
      simp only [separated, lead, Bool.false_eq_true, if_false, List.length_append,
        List.length_cons, List.length_nil] at ih ⊢
      omega

theorem length_le_intercalate (parts : List (List Char)) (close : Char) (rest : List Char) :
    parts.length ≤ ([','].intercalate parts ++ close :: rest).length := by
  rw [← separated_true]
  cases parts with
  | nil => exact Nat.zero_le _
  | cons part parts =>
      have hlater := length_lt_separated parts close rest
      rw [separated, List.append_assoc, List.length_append, List.length_cons]
      omega

/-- After a part of a list or an object another follows or the end. -/
theorem delimited_more (parts : List (List Char)) {close : Char}
    (hclose : close = ']' ∨ close = '\x7d') (rest : List Char) :
    Delimited (separated false parts ++ close :: rest) := by
  cases parts with
  | nil =>
      rintro _ ⟨⟩
      exact Or.inr hclose
  | cons part parts =>
      rintro _ ⟨⟩
      exact Or.inl rfl

theorem nextElement_lead (first : Bool) (h : opens chars = true) (rest : List Char) :
    nextElement first (lead first ++ chars ++ rest) =
      .ok (some (chars ++ rest), chars ++ rest) := by
  have hskip := skipSpace_of_opens h rest
  obtain ⟨c, cs, rfl, hspace, hend, _⟩ := exists_of_opens h
  cases first with
  | true =>
      rw [nextElement]
      simp only [lead, if_true, List.nil_append, hskip]
      split
      · contradiction
      · next heq =>
          cases heq
          contradiction
      · next heq =>
          cases heq
          rfl
  | false =>
      have hcomma : skipSpace (lead false ++ (c :: cs) ++ rest) = ',' :: (c :: cs ++ rest) := rfl
      rw [nextElement, hcomma]
      split
      · contradiction
      · next heq => simp at heq
      · next heq =>
          cases heq
          rw [if_neg Bool.false_ne_true, if_pos rfl, hskip]
          split
          · contradiction
          · next heq =>
              cases heq
              contradiction
          · rfl

variable {write : α → List Char}

theorem readElements_separated {values : List α} (h : ∀ v ∈ values, ReadsBack read (write v) v)
    (first : Bool) {fuel : Nat} (hfuel : values.length < fuel) (rest : List Char) :
    readElements read fuel first (separated first (values.map write) ++ ']' :: rest) =
      .ok (values, ']' :: rest) := by
  induction values generalizing first fuel with
  | nil =>
      obtain ⟨fuel, rfl⟩ := Nat.exists_eq_succ_of_ne_zero (Nat.ne_of_gt hfuel)
      cases first <;> rfl
  | cons v values ih =>
      obtain ⟨hv, hvalues⟩ := List.forall_mem_cons.mp h
      obtain ⟨fuel, rfl⟩ := Nat.exists_eq_succ_of_ne_zero (Nat.ne_of_gt (Nat.zero_lt_of_lt hfuel))
      have hmore := ih hvalues false (Nat.lt_of_succ_lt_succ hfuel)
      have hback := hv.back _ (delimited_more (values.map write) (Or.inl rfl) rest)
      rw [List.map_cons, separated, List.append_assoc, readElements,
        nextElement_lead first hv.opening]
      simp only [bind, Except.bind, hback, hmore]
      rfl

theorem ReadsBack.list {values : List α} (h : ∀ v ∈ values, ReadsBack read (write v) v) :
    ReadsBack (readList read) (listChars (values.map write)) values := by
  refine ⟨rfl, ?_⟩
  intro rest _
  have hlength := length_le_intercalate (values.map write) ']' rest
  rw [List.length_map] at hlength
  have helements := readElements_separated h true (Nat.lt_succ_of_le hlength) rest
  rw [separated_true] at helements
  have hchars : listChars (values.map write) ++ rest =
      '[' :: ([','].intercalate (values.map write) ++ ']' :: rest) := by simp [listChars]
  generalize [','].intercalate (values.map write) ++ ']' :: rest = text at hchars helements
  have hopen : valueText ('[' :: text) = .ok ('[' :: text) := rfl
  rw [hchars, readList, hopen]
  simp only [bind, Except.bind, helements]
  rfl

/-! ### Records -/

variable {δ ρ : Type} {member : String → δ → List Char → Except Fault (δ × List Char)}
  {draft later last : δ}

/-- A member that was written, from behind its key, takes one draft to another. -/
def TakesMember (member : String → δ → List Char → Except Fault (δ × List Char)) (name : String)
    (chars : List Char) (draft later : δ) : Prop :=
  ∀ rest, Delimited rest → member name draft (':' :: chars ++ rest) = .ok (later, rest)

/-- The members that are present take one draft to another. -/
inductive Fills (member : String → δ → List Char → Except Fault (δ × List Char)) :
    δ → List (String × Option (List Char)) → δ → Prop
  | done (draft : δ) : Fills member draft [] draft
  | absent {draft last : δ} {name : String} {members : List (String × Option (List Char))}
      (more : Fills member draft members last) : Fills member draft ((name, none) :: members) last
  | present {draft later last : δ} {name : String} {chars : List Char}
      {members : List (String × Option (List Char))}
      (taken : TakesMember member name chars draft later) (more : Fills member later members last) :
      Fills member draft ((name, some chars) :: members) last

/-- A member that may be absent; without it the draft stays as it is. -/
theorem Fills.optional {name : String} {write : α → List Char} {value : Option α}
    {members : List (String × Option (List Char))} (later : δ)
    (hnone : value = none → later = draft)
    (hsome : ∀ v, value = some v → TakesMember member name (write v) draft later)
    (more : Fills member later members last) :
    Fills member draft ((name, value.map write) :: members) last := by
  cases value with
  | none => exact .absent (hnone rfl ▸ more)
  | some v => exact .present (hsome v rfl) more

/-- A member that was not given before is read into the draft. -/
theorem ReadsBack.takesMember {name : String} {value : α} (h : ReadsBack read chars value)
    (given : δ → Option α) (give : δ → α → δ)
    (hmember : member name = readMember name given give read) (missing : given draft = none) :
    TakesMember member name chars draft (give draft value) := by
  intro rest hrest
  have hcolon : readColon (':' :: (chars ++ rest)) = .ok (chars ++ rest) := rfl
  rw [hmember]
  simp [readMember, missing, hcolon, bind, Except.bind, h.back rest hrest, pure, Except.pure]

def presentMembers (members : List (String × Option (List Char))) : List (List Char) :=
  members.filterMap fun (name, value) => memberChars? name value

theorem objectChars_append (members : List (String × Option (List Char))) (rest : List Char) :
    objectChars members ++ rest =
      '\x7b' :: ([','].intercalate (presentMembers members) ++ '\x7d' :: rest) := by
  simp [objectChars, presentMembers]

theorem nextKey_lead (first : Bool) (cs : List Char) :
    nextKey first (lead first ++ '"' :: cs) = .ok (some cs, cs) := by
  cases first <;> rfl

theorem readMembers_separated {members : List (String × Option (List Char))}
    (h : Fills member draft members last) (first : Bool) {fuel : Nat}
    (hfuel : (presentMembers members).length < fuel) (rest : List Char) :
    readMembers member fuel first draft
        (separated first (presentMembers members) ++ '\x7d' :: rest) =
      .ok (last, '\x7d' :: rest) := by
  induction h generalizing first fuel with
  | done draft =>
      obtain ⟨fuel, rfl⟩ := Nat.exists_eq_succ_of_ne_zero (Nat.ne_of_gt hfuel)
      cases first <;> rfl
  | absent more ih => exact ih first hfuel
  | @present draft later last name chars members taken more ih =>
      obtain ⟨fuel, rfl⟩ := Nat.exists_eq_succ_of_ne_zero (Nat.ne_of_gt (Nat.zero_lt_of_lt hfuel))
      have htaken := taken _ (delimited_more (presentMembers members) (Or.inr rfl) rest)
      have hmore := ih false (Nat.lt_of_succ_lt_succ hfuel)
      generalize hafter : separated false (presentMembers members) ++ '\x7d' :: rest = after
        at htaken hmore
      have hmember :
          separated first (presentMembers ((name, some chars) :: members)) ++ '\x7d' :: rest =
            lead first ++
              '"' :: (name.toList.flatMap quoteChar ++ '"' :: (':' :: chars ++ after)) := by
        simp [← hafter, presentMembers, memberChars?, separated, textChars, quote]
      rw [hmember, readMembers, nextKey_lead]
      simp only [bind, Except.bind, readQuoted_quote, String.ofList_toList, htaken, hmore]

theorem Fills.readsBack {members : List (String × Option (List Char))}
    (h : Fills member draft members last) {finish : δ → Except Complaint ρ} {record : ρ}
    (hfinish : finish last = .ok record) {expected : String}
    {elements : List Char → Except Fault (Except Complaint ρ × List Char)} :
    ReadsBack (readRecord expected member draft finish elements) (objectChars members) record := by
  refine ⟨rfl, ?_⟩
  intro rest _
  have hlength := length_le_intercalate (presentMembers members) '\x7d' rest
  have hmembers := readMembers_separated h true (Nat.lt_succ_of_le hlength) rest
  rw [separated_true] at hmembers
  generalize htext : [','].intercalate (presentMembers members) ++ '\x7d' :: rest = text at hmembers
  have hopen : valueText ('\x7b' :: text) = .ok ('\x7b' :: text) := rfl
  rw [objectChars_append, htext, readRecord, hopen]
  simp only [bind, Except.bind, hmembers, hfinish]
  rfl

theorem readWhole_back {value : α} (h : ReadsBack read chars value) :
    readWhole read chars = .ok value := by
  have hback := h.back [] (by simp [Delimited])
  rw [List.append_nil] at hback
  rw [readWhole, hback]
  rfl

end HostPolicy.Json
