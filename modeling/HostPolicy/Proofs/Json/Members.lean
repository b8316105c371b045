import HostPolicy.Json.Record
import HostPolicy.Proofs.Json.Meaning

/-!
# What a record means

An object is read member by member into a draft, and a list field by field. What comes of either is
said here by the values alone: a member is taken by its name, once, and a field by its place.
-/

namespace HostPolicy.Json

variable {α δ ρ : Type} {cs rest : List Char} {more : List Token} {v : Value}
  {members : List (Quoted × Value)} {values : List Value}

/-! ### Members -/

/-- A field of a draft takes a value if it has none. -/
def give? (given : Option α) (give : α → δ) (value : Option α) : Option δ :=
  if given.isSome then none else value.map give

/-- The draft with one member more; `fill` says what becomes of it by name. -/
def takeMember (fill : String → δ → Value → Option δ) (draft : δ) (m : Quoted × Value) :
    Option δ :=
  m.1.text? >>= fun name => fill name draft m.2

/-- The reader of members does with every member what `fill` says. -/
def FollowsMember (member : String → δ → List Char → Except Fault (δ × List Char))
    (fill : String → δ → Value → Option δ) : Prop :=
  ∀ name draft ⦃v cs more⦄, Closes more → Spells cs ([':'] :: (v.tokens ++ more)) →
    Reads (member name draft cs) (fill name draft v) more

theorem Follows.member {read : List Char → Except Fault (α × List Char)}
    {meaning : Value → Option α} (hread : Follows read meaning) (name : String)
    (given : δ → Option α) (give : δ → α → δ) (draft : δ) (hcloses : Closes more)
    (h : Spells cs ([':'] :: (v.tokens ++ more))) :
    Reads (readMember name given give read draft cs)
      (give? (given draft) (give draft) (meaning v)) more := by
  unfold readMember give?
  split
  · exact fails_fail _ _
  · obtain ⟨rest, hcolon, hrest, _⟩ := h.readColon
    rw [hcolon]
    exact (hread hcloses hrest).map (give draft)

theorem reads_skipMember (draft : δ) (hcloses : Closes more)
    (h : Spells cs ([':'] :: (v.tokens ++ more))) :
    Reads (skipMember draft cs) (some draft) more := by
  obtain ⟨rest, hcolon, hrest, _⟩ := h.readColon
  obtain ⟨after, hskip, hafter⟩ := skipValue_spelled hrest hcloses
  exact ⟨after, by simp [skipMember, hcolon, ok_bind, hskip, pure, Except.pure], hafter⟩

theorem Spells.nextKey_nil {first : Bool} (h : Spells cs (memberTokens first [] ++ more)) :
    ∃ rest, nextKey first cs = .ok (none, rest) ∧ Spells rest (['\x7d'] :: more) := by
  have htokens : memberTokens first [] = [['\x7d']] := by cases first <;> rfl
  rw [htokens, List.singleton_append] at h
  obtain ⟨rest, hskip, _⟩ := h.skipSpace_token (solid_cons rfl _)
  have hsame := (h.of_skipSpace (solid_cons rfl _)).1
  rw [hskip] at hsame
  exact ⟨'\x7d' :: rest, by simp [nextKey, hskip], hsame⟩

theorem Spells.nextKey_cons {first : Bool} {key : Quoted}
    (h : Spells cs (memberTokens first ((key, v) :: members) ++ more)) :
    ∃ rest, nextKey first cs =
        .ok (some (key.flatMap Glyph.chars ++ '"' :: rest),
          key.flatMap Glyph.chars ++ '"' :: rest) ∧
      Spells rest ([':'] :: (v.tokens ++ (memberTokens false members ++ more))) := by
  cases first with
  | true =>
      rw [memberTokens, List.cons_append, List.cons_append, List.append_assoc] at h
      obtain ⟨rest, hkey, hrest, _⟩ := h.skipSpace_token key.solid
      rw [key.token_append] at hkey
      exact ⟨rest, by simp [nextKey, hkey], hrest⟩
  | false =>
      rw [memberTokens, List.cons_append, List.cons_append, List.cons_append,
        List.append_assoc] at h
      obtain ⟨keyed, hcomma, hkeyed, _⟩ := h.skipSpace_token (solid_cons rfl _)
      obtain ⟨rest, hkey, hrest, _⟩ := hkeyed.skipSpace_token key.solid
      rw [key.token_append] at hkey
      exact ⟨rest, by simp [nextKey, hcomma, hkey], hrest⟩

theorem Spells.length_lt_members (h : Spells cs (memberTokens false members ++ more)) :
    members.length < cs.length := by
  induction members generalizing cs with
  | nil =>
      obtain ⟨rest, _, _, hlength⟩ := h.skipSpace_token (solid_cons rfl _)
      simp only [List.length_cons, List.length_nil] at hlength ⊢
      omega
  | cons m members ih =>
      obtain ⟨key, v⟩ := m
      rw [memberTokens, List.cons_append, List.cons_append, List.cons_append,
        List.append_assoc] at h
      obtain ⟨rest, _, hrest, hlength⟩ := h.skipSpace_token (solid_cons rfl _)
      obtain ⟨after, hafter, hshorter⟩ := Spells.drop (key.token :: [':'] :: v.tokens) hrest
      have hlt := ih hafter
      simp only [List.length_cons, List.length_nil] at hlength ⊢
      omega

theorem Spells.length_le_members (h : Spells cs (memberTokens true members ++ more)) :
    members.length ≤ cs.length := by
  cases members with
  | nil => exact Nat.zero_le _
  | cons m members =>
      obtain ⟨key, v⟩ := m
      rw [memberTokens, List.cons_append, List.cons_append, List.append_assoc] at h
      obtain ⟨after, hafter, hshorter⟩ := Spells.drop (key.token :: [':'] :: v.tokens) h
      have hlt := hafter.length_lt_members
      rw [List.length_cons]
      omega

variable {member : String → δ → List Char → Except Fault (δ × List Char)}
  {fill : String → δ → Value → Option δ}

theorem reads_members (hmember : FollowsMember member fill) {first : Bool} {fuel : Nat}
    (hfuel : members.length < fuel) (draft : δ)
    (h : Spells cs (memberTokens first members ++ more)) :
    Reads (readMembers member fuel first draft cs) (members.foldlM (takeMember fill) draft)
      (['\x7d'] :: more) := by
  induction members generalizing cs first fuel draft with
  | nil =>
      obtain ⟨fuel, rfl⟩ := Nat.exists_eq_succ_of_ne_zero (Nat.ne_of_gt hfuel)
      obtain ⟨rest, hnext, hrest⟩ := h.nextKey_nil
      rw [readMembers, hnext]
      exact ⟨rest, rfl, hrest⟩
  | cons m members ih =>
      obtain ⟨key, v⟩ := m
      obtain ⟨fuel, rfl⟩ := Nat.exists_eq_succ_of_ne_zero (Nat.ne_of_gt (Nat.zero_lt_of_lt hfuel))
      obtain ⟨rest, hnext, hrest⟩ := h.nextKey_cons
      rw [readMembers, hnext, List.foldlM_cons, takeMember, Quoted.text?]
      simp only [Option.bind_eq_bind, Option.bind_map, Option.bind_assoc]
      refine Reads.bind (reads_quoted key hrest) ?_
      intro name colon hcolon
      refine Reads.bind (hmember (String.ofList name) draft (closes_members members more) hcolon) ?_
      intro draft after hafter
      exact ih (Nat.lt_of_succ_lt_succ hfuel) draft hafter

/-! ### Fields in order -/

/-- A field reads the value in its place, if the list goes that far. -/
theorem Follows.field {read : List Char → Except Fault (α × List Char)}
    {meaning : Value → Option α} (hread : Follows read meaning) (first : Bool) (place : Nat)
    (h : Spells cs (elementTokens first (values.drop place) ++ more)) :
    Reads (readField first read cs) (values[place]?.mapM meaning)
      (elementTokens false (values.drop (place + 1)) ++ more) := by
  rw [← List.head?_drop, ← List.tail_drop]
  cases hdrop : values.drop place with
  | nil =>
      rw [hdrop] at h
      obtain ⟨rest, hnext, hrest⟩ := h.nextElement_nil
      exact ⟨rest, by simp [readField, hnext, ok_bind, pure, Except.pure], hrest⟩
  | cons v later =>
      rw [hdrop] at h
      obtain ⟨rest, hnext, hrest⟩ := h.nextElement_cons
      have hvalue := (hread (closes_elements later more) hrest).map some
      rw [readField, hnext]
      exact hvalue

theorem Spells.closeObject (h : Spells cs (['\x7d'] :: more)) :
    ∃ rest, closeObject cs = .ok rest ∧ Spells rest more := by
  obtain ⟨rest, hskip, hrest, _⟩ := h.skipSpace_token (solid_cons rfl _)
  exact ⟨rest, by simp [Json.closeObject, hskip], hrest⟩

theorem Spells.fails_closeList (h : Spells cs (elementTokens false (v :: values) ++ more)) :
    Fails (Json.closeList cs) := by
  rw [elementTokens, List.cons_append] at h
  obtain ⟨rest, hskip, _⟩ := h.skipSpace_token (solid_cons rfl _)
  simp only [Json.closeList, hskip, List.singleton_append]
  split <;> exact fails_failPast _ _

/-- The reader of fields in order makes a draft of them and finishes it; what goes beyond the last
field is left. -/
def FollowsElements (elements : List Char → Except Fault (Except Complaint ρ × List Char))
    (ofList : List Value → Option δ) (fields : Nat) (finish : δ → Except Complaint ρ) : Prop :=
  ∀ ⦃values cs more⦄, Spells cs (elementTokens true values ++ more) →
    Reads (elements cs) ((ofList values).map finish)
      (elementTokens false (values.drop fields) ++ more)

/-! ### Records -/

/-- What a record of so many fields means; `ofList` makes a draft of the values of a list. -/
def Value.record? (fill : String → δ → Value → Option δ) (ofList : List Value → Option δ)
    (fields : Nat) (empty : δ) (finish : δ → Except Complaint ρ) : Value → Option ρ
  | .object members =>
    members.foldlM (takeMember fill) empty >>= fun draft => (finish draft).toOption
  | .list values =>
    if values.length ≤ fields then ofList values >>= fun draft => (finish draft).toOption else none
  | _ => none

variable {ofList : List Value → Option δ} {fields : Nat} {empty : δ}
  {finish finishList : δ → Except Complaint ρ} {expected : String}
  {elements : List Char → Except Fault (Except Complaint ρ × List Char)}

theorem fails_readRecord (hobject : ∀ members, v ≠ .object members)
    (hlist : ∀ values, v ≠ .list values) (h : Spells cs (v.tokens ++ more)) :
    Fails (readRecord expected member empty finish elements cs) := by
  obtain ⟨c, w, _, hvalue, hannounces⟩ := h.valueText_value
  have hbrace : c ≠ '\x7b' := fun hc => absurd (hannounces.object hc) (by simp [hobject])
  have hbracket : c ≠ '[' := fun hc => absurd (hannounces.list hc) (by simp [hlist])
  simpa [readRecord, hvalue, hbrace, hbracket, ok_bind] using fails_mistyped _ _

theorem reads_object (hmember : FollowsMember member fill)
    (h : Spells cs ((Value.object members).tokens ++ more)) :
    Reads (readRecord expected member empty finish elements cs)
      ((Value.object members).record? fill ofList fields empty finish) more := by
  rw [Value.tokens, List.cons_append] at h
  obtain ⟨rest, hvalue, hrest⟩ := h.valueText_token (solid_cons rfl _)
  rw [readRecord, hvalue]
  refine Reads.bind
    (reads_members hmember (Nat.lt_succ_of_le hrest.length_le_members) empty hrest) ?_
  intro draft after hafter
  cases hfinish : finish draft with
  | error complaint =>
      simp only [hfinish]
      exact fails_fail _ _
  | ok record =>
      obtain ⟨last, hclose, hlast⟩ := hafter.closeObject
      refine ⟨last, ?_, hlast⟩
      simp [hfinish, hclose, ok_bind, pure, Except.pure]

theorem reads_list (helements : FollowsElements elements ofList fields finishList)
    (hsame : ∀ draft, (finishList draft).toOption = (finish draft).toOption)
    (h : Spells cs ((Value.list values).tokens ++ more)) :
    Reads (readRecord expected member empty finish elements cs)
      ((Value.list values).record? fill ofList fields empty finish) more := by
  rw [Value.tokens, List.cons_append] at h
  obtain ⟨rest, hvalue, hrest⟩ := h.valueText_token (solid_cons rfl _)
  have hread := helements hrest
  rw [readRecord, hvalue, Value.record?]
  cases hdraft : ofList values with
  | none =>
      rw [hdraft] at hread
      rw [Option.bind_eq_bind, Option.bind_none, ite_self]
      exact Fails.then hread _
  | some draft =>
      rw [hdraft] at hread
      obtain ⟨after, hfields, hafter⟩ := hread
      rw [Option.bind_eq_bind, Option.bind_some, ← hsame]
      simp only [List.singleton_append, ok_bind, hfields]
      cases hfinish : finishList draft with
      | error complaint =>
          have hnone : (Except.error complaint : Except Complaint ρ).toOption = none := rfl
          rw [hnone, ite_self]
          exact fails_fail _ _
      | ok record =>
          by_cases hfits : values.length ≤ fields
          · rw [if_pos hfits]
            rw [List.drop_eq_nil_of_le hfits] at hafter
            obtain ⟨last, hclose, hlast⟩ := hafter.closeList
            exact ⟨last, by simp [hclose, ok_bind, pure, Except.pure], hlast⟩
          · rw [if_neg hfits]
            obtain ⟨v, later, hdrop⟩ : ∃ v later, values.drop fields = v :: later :=
              List.exists_cons_of_length_pos (by rw [List.length_drop]; omega)
            rw [hdrop] at hafter
            exact hafter.fails_closeList.then _

theorem follows_record (hmember : FollowsMember member fill)
    (helements : FollowsElements elements ofList fields finishList)
    (hsame : ∀ draft, (finishList draft).toOption = (finish draft).toOption) :
    Follows (readRecord expected member empty finish elements)
      (Value.record? fill ofList fields empty finish) := by
  intro v cs more _ h
  cases v with
  | object members => exact reads_object hmember h
  | list values => exact reads_list helements hsame h
  | _ => exact fails_readRecord (by simp) (by simp) h

end HostPolicy.Json
