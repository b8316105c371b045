import HostPolicy.Proofs.Json.Sound

/-!
# Whatever is read as a record is JSON

Values that nobody asks for are, and so are objects with members of any name and lists of fields.
-/

namespace HostPolicy.Json

variable {α δ ρ : Type} {cs mid rest : List Char} {fuel : Nat} {stack : List Frame}

theorem leads_of_readColon (h : readColon cs = .ok rest) : Leads cs [[':']] rest := by
  unfold readColon at h
  split at h
  · next hskip =>
      cases h
      exact .of_skipSpace hskip (.done rest)
  · contradiction
  · contradiction

/-! ### Values that nobody asks for -/

/-- With so much fuel a value is skipped, and then what the stack demands. -/
def TakesValue (fuel : Nat) : Prop :=
  ∀ ⦃stack cs rest⦄, skipFrom fuel stack cs = .ok rest →
    ∃ (v : Value) (less : Nat) (mid : List Char), less < fuel ∧ Leads cs v.tokens mid ∧
      skipRest less stack mid = .ok rest

theorem exists_of_skipKey (h : skipKey cs = .ok rest) :
    ∃ key : Quoted, Leads cs [key.token, [':']] rest := by
  unfold skipKey at h
  split at h
  · next w hskip =>
      obtain ⟨mid, hquoted, hcolon⟩ := bind_eq_ok h
      obtain ⟨key, hkey⟩ := exists_of_skipQuoted hquoted
      exact ⟨key, (Leads.of_quoted hskip hkey).append (leads_of_readColon hcolon)⟩
  · contradiction
  · contradiction

/-- Behind an element of a list. -/
theorem exists_of_skipRest_list (hvalue : ∀ less < fuel, TakesValue less)
    (h : skipRest fuel (.list :: stack) cs = .ok rest) :
    ∃ values less mid, less < fuel ∧ Leads cs (elementTokens false values) mid ∧
      skipRest less stack mid = .ok rest := by
  induction fuel using Nat.strong_induction_on generalizing cs with
  | _ fuel ih =>
      cases fuel with
      | zero => contradiction
      | succ fuel =>
          rw [skipRest] at h
          split at h
          · contradiction
          · next w hcomma =>
              obtain ⟨v, less, mid, hless, hv, hmid⟩ := hvalue fuel (Nat.lt_succ_self _) h
              obtain ⟨values, last, after, hlast, hvalues, hafter⟩ :=
                ih less (by omega) (fun n hn => hvalue n (by omega)) hmid
              exact ⟨v :: values, last, after, by omega,
                .of_skipSpace hcomma (hv.append hvalues), hafter⟩
          · next w hclose =>
              exact ⟨[], fuel, w, Nat.lt_succ_self _, .of_skipSpace hclose (.done w), h⟩
          · contradiction

/-- Behind a member of an object. -/
theorem exists_of_skipRest_object (hvalue : ∀ less < fuel, TakesValue less)
    (h : skipRest fuel (.object :: stack) cs = .ok rest) :
    ∃ members less mid, less < fuel ∧ Leads cs (memberTokens false members) mid ∧
      skipRest less stack mid = .ok rest := by
  induction fuel using Nat.strong_induction_on generalizing cs with
  | _ fuel ih =>
      cases fuel with
      | zero => contradiction
      | succ fuel =>
          rw [skipRest] at h
          split at h
          · contradiction
          · next w hcomma =>
              obtain ⟨behind, hkey, h⟩ := bind_eq_ok h
              obtain ⟨key, hkey⟩ := exists_of_skipKey hkey
              obtain ⟨v, less, mid, hless, hv, hmid⟩ := hvalue fuel (Nat.lt_succ_self _) h
              obtain ⟨members, last, after, hlast, hmembers, hafter⟩ :=
                ih less (by omega) (fun n hn => hvalue n (by omega)) hmid
              exact ⟨(key, v) :: members, last, after, by omega,
                .of_skipSpace hcomma (hkey.append (hv.append hmembers)), hafter⟩
          · next w hclose =>
              exact ⟨[], fuel, w, Nat.lt_succ_self _, .of_skipSpace hclose (.done w), h⟩
          · contradiction

theorem takesValue (fuel : Nat) : TakesValue fuel := by
  induction fuel using Nat.strong_induction_on with
  | _ fuel ih =>
      intro stack cs rest h
      cases fuel with
      | zero => contradiction
      | succ fuel =>
          rw [skipFrom] at h
          obtain ⟨behind, hvalue, h⟩ := bind_eq_ok h
          have hskip := skipSpace_of_valueText hvalue
          split at h
          · next w =>
              obtain ⟨mid, hword, h⟩ := bind_eq_ok h
              refine ⟨.null, fuel, mid, Nat.lt_succ_self _, .of_skipSpace ?_ (.done mid), h⟩
              rw [hskip, eq_append_of_readWord hword]
              rfl
          · next w =>
              obtain ⟨mid, hword, h⟩ := bind_eq_ok h
              refine ⟨.bool true, fuel, mid, Nat.lt_succ_self _, .of_skipSpace ?_ (.done mid), h⟩
              rw [hskip, eq_append_of_readWord hword]
              rfl
          · next w =>
              obtain ⟨mid, hword, h⟩ := bind_eq_ok h
              refine ⟨.bool false, fuel, mid, Nat.lt_succ_self _, .of_skipSpace ?_ (.done mid), h⟩
              rw [hskip, eq_append_of_readWord hword]
              rfl
          · next w =>
              obtain ⟨mid, hquoted, h⟩ := bind_eq_ok h
              obtain ⟨q, hq⟩ := exists_of_skipQuoted hquoted
              exact ⟨.text q, fuel, mid, Nat.lt_succ_self _, .of_quoted hskip hq, h⟩
          · next w =>
              split at h
              · contradiction
              · next after hclose =>
                  exact ⟨.list [], fuel, after, Nat.lt_succ_self _,
                    .of_skipSpace hskip (.of_skipSpace hclose (.done after)), h⟩
              · obtain ⟨v, less, mid, hless, hv, hmid⟩ := ih fuel (Nat.lt_succ_self _) h
                obtain ⟨values, last, after, hlast, hvalues, hafter⟩ :=
                  exists_of_skipRest_list (fun n hn => ih n (by omega)) hmid
                exact ⟨.list (v :: values), last, after, by omega,
                  .of_skipSpace hskip (hv.spaced_value.append hvalues), hafter⟩
          · next w =>
              split at h
              · contradiction
              · next after hclose =>
                  exact ⟨.object [], fuel, after, Nat.lt_succ_self _,
                    .of_skipSpace hskip (.of_skipSpace hclose (.done after)), h⟩
              · obtain ⟨behind, hkey, h⟩ := bind_eq_ok h
                obtain ⟨key, hkey⟩ := exists_of_skipKey hkey
                obtain ⟨v, less, mid, hless, hv, hmid⟩ := ih fuel (Nat.lt_succ_self _) h
                obtain ⟨members, last, after, hlast, hmembers, hafter⟩ :=
                  exists_of_skipRest_object (fun n hn => ih n (by omega)) hmid
                exact ⟨.object ((key, v) :: members), last, after, by omega,
                  .of_skipSpace hskip (hkey.spaced.append (hv.append hmembers)), hafter⟩
          · split at h
            · obtain ⟨mid, hnumber, h⟩ := bind_eq_ok h
              obtain ⟨n, hn⟩ := exists_of_skipNumber hnumber
              exact ⟨.number n, fuel, mid, Nat.lt_succ_self _, .of_numeral hvalue hn, h⟩
            · contradiction

theorem exists_of_skipValue (h : skipValue cs = .ok rest) :
    ∃ v : Value, Leads cs v.tokens rest := by
  obtain ⟨v, less, mid, _, hv, hmid⟩ := takesValue _ h
  rw [skipRest, Except.ok.injEq] at hmid
  exact ⟨v, hmid ▸ hv⟩

/-! ### Records -/

/-- What the reader of a member takes, from behind its key, is a colon and a value. -/
def SoundMember (member : String → δ → List Char → Except Fault (δ × List Char)) : Prop :=
  ∀ ⦃name draft cs later rest⦄, member name draft cs = .ok (later, rest) →
    ∃ v : Value, Leads cs ([':'] :: v.tokens) rest

variable {read : List Char → Except Fault (α × List Char)}
  {member : String → δ → List Char → Except Fault (δ × List Char)}

theorem exists_of_readMember (hread : Sound read) {name : String} {given : δ → Option α}
    {give : δ → α → δ} {draft later : δ}
    (h : readMember name given give read draft cs = .ok (later, rest)) :
    ∃ v : Value, Leads cs ([':'] :: v.tokens) rest := by
  unfold readMember at h
  split at h
  · contradiction
  · obtain ⟨behind, hcolon, h⟩ := bind_eq_ok h
    obtain ⟨⟨a, after⟩, hvalue, h⟩ := bind_eq_ok h
    cases h
    obtain ⟨v, hv⟩ := hread hvalue
    exact ⟨v, (leads_of_readColon hcolon).append hv⟩

theorem exists_of_skipMember {draft later : δ} (h : skipMember draft cs = .ok (later, rest)) :
    ∃ v : Value, Leads cs ([':'] :: v.tokens) rest := by
  obtain ⟨behind, hcolon, h⟩ := bind_eq_ok h
  obtain ⟨after, hvalue, h⟩ := bind_eq_ok h
  cases h
  obtain ⟨v, hv⟩ := exists_of_skipValue hvalue
  exact ⟨v, (leads_of_readColon hcolon).append hv⟩

theorem of_nextKey_none {first : Bool} (h : nextKey first cs = .ok (none, rest)) :
    skipSpace cs = rest ∧ ∃ w, rest = '\x7d' :: w := by
  unfold nextKey at h
  split at h
  · contradiction
  · next w hskip =>
      cases h
      exact ⟨hskip, w, rfl⟩
  · split at h
    · split at h <;> cases h
    · split at h
      · split at h <;> cases h
      · contradiction

/-- The next key is looked at behind the space, and a comma if it is not the first. -/
theorem of_nextKey_some {first : Bool} {behind after : List Char}
    (h : nextKey first cs = .ok (some behind, after)) :
    first = true ∧ skipSpace cs = '"' :: behind ∨
      first = false ∧ ∃ w, skipSpace cs = [','] ++ w ∧ skipSpace w = '"' :: behind := by
  unfold nextKey at h
  split at h
  · contradiction
  · cases h
  · next c w _ hskip =>
      split at h
      · next hfirst =>
          split at h
          · next hquote =>
              cases h
              exact Or.inl ⟨hfirst, hquote ▸ hskip⟩
          · contradiction
      · next hfirst =>
          split at h
          · next hcomma =>
              subst hcomma
              split at h
              · contradiction
              · next hkey =>
                  cases h
                  exact Or.inr ⟨by simpa using hfirst, w, hskip, hkey⟩
              · contradiction
              · contradiction
          · contradiction

theorem Leads.cons_member {first : Bool} {members : List (Quoted × Value)} {key : Quoted}
    {v : Value} {behind after colon : List Char} (h : nextKey first cs = .ok (some behind, after))
    (hkey : behind = key.flatMap Glyph.chars ++ '"' :: colon)
    (hv : Leads colon ([':'] :: v.tokens) mid)
    (hmore : Leads mid (memberTokens false members) rest) :
    Leads cs (memberTokens first ((key, v) :: members)) rest := by
  obtain ⟨rfl, hquote⟩ | ⟨rfl, w, hcomma, hquote⟩ := of_nextKey_some h
  · exact (Leads.of_quoted hquote hkey).append (hv.append hmore)
  · exact .of_skipSpace hcomma ((Leads.of_quoted hquote hkey).append (hv.append hmore))

theorem memberTokens_nil (first : Bool) : memberTokens first [] = [['\x7d']] := by
  cases first <;> rfl

/-- Once the end of the object is there, the members are. -/
theorem exists_of_readMembers (hmember : SoundMember member) {first : Bool} {draft last : δ}
    (h : readMembers member fuel first draft cs = .ok (last, mid))
    (hclose : Leads mid [['\x7d']] rest) :
    ∃ members, Leads cs (memberTokens first members) rest := by
  induction fuel generalizing cs first draft with
  | zero => contradiction
  | succ fuel ih =>
      obtain ⟨⟨next, after⟩, hnext, h⟩ := bind_eq_ok h
      cases next with
      | none =>
          cases h
          obtain ⟨hskip, w, rfl⟩ := of_nextKey_none hnext
          exact ⟨[], memberTokens_nil first ▸ hclose.close hskip⟩
      | some behind =>
          obtain ⟨⟨name, colon⟩, hquoted, h⟩ := bind_eq_ok h
          obtain ⟨⟨later, more⟩, hvalue, h⟩ := bind_eq_ok h
          obtain ⟨key, hkey⟩ := exists_of_readQuoted hquoted
          obtain ⟨v, hv⟩ := hmember hvalue
          obtain ⟨members, hmembers⟩ := ih h
          exact ⟨(key, v) :: members, .cons_member hnext hkey hv hmembers⟩

theorem leads_of_closeObject (h : closeObject cs = .ok rest) : Leads cs [['\x7d']] rest := by
  unfold closeObject at h
  split at h
  · next hskip =>
      cases h
      exact .of_skipSpace hskip (.done rest)
  · contradiction
  · contradiction
  · contradiction

theorem Leads.head_eq {c d : Char} {w : List Char} {ts : List Token} (hc : isSpace c = false)
    (h : Leads (c :: w) ([d] :: ts) rest) : c = d := by
  generalize hcs : c :: w = cs at h
  cases h with
  | @token space cs _ _ _ hspace _ =>
      cases space with
      | nil => exact (List.cons.inj hcs).1
      | cons s space =>
          have hs := hspace s List.mem_cons_self
          rw [← (List.cons.inj hcs).1, hc] at hs
          contradiction

/-- Once what stands behind the field is there, so is the list from the field on. -/
theorem exists_of_readField (hread : Sound read) {first : Bool} {o : Option α}
    (h : readField first read cs = .ok (o, mid))
    (hmore : ∃ values, Leads mid (elementTokens false values) rest) :
    ∃ values, Leads cs (elementTokens first values) rest := by
  obtain ⟨values, hvalues⟩ := hmore
  obtain ⟨⟨next, after⟩, hnext, h⟩ := bind_eq_ok h
  cases next with
  | none =>
      cases h
      obtain ⟨hskip, w, rfl⟩ := of_nextElement_none hnext
      cases values with
      | nil => exact ⟨[], elementTokens_nil first ▸ hvalues.close hskip⟩
      | cons v values => exact absurd (hvalues.head_eq rfl) (by decide)
  | some behind =>
      obtain ⟨⟨a, later⟩, hvalue, h⟩ := bind_eq_ok h
      cases h
      obtain ⟨v, hv⟩ := hread hvalue
      exact ⟨v :: values, hv.element hnext hvalues⟩

/-- What the reader of fields in order takes is a list, once the end of it is there. -/
def SoundElements (elements : List Char → Except Fault (Except Complaint ρ × List Char)) : Prop :=
  ∀ ⦃cs outcome mid rest⦄, elements cs = .ok (outcome, mid) → Leads mid [[']']] rest →
    ∃ values, Leads cs (elementTokens true values) rest

theorem sound_record (hmember : SoundMember member) {expected : String} {empty : δ}
    {finish : δ → Except Complaint ρ}
    {elements : List Char → Except Fault (Except Complaint ρ × List Char)}
    (helements : SoundElements elements) :
    Sound (readRecord expected member empty finish elements) := by
  intro cs record rest h
  obtain ⟨behind, hvalue, h⟩ := bind_eq_ok h
  have hskip := skipSpace_of_valueText hvalue
  split at h
  · next w =>
      obtain ⟨⟨draft, mid⟩, hread, h⟩ := bind_eq_ok h
      simp only [] at h
      split at h
      · obtain ⟨after, hclose, h⟩ := bind_eq_ok h
        cases h
        obtain ⟨members, hmembers⟩ :=
          exists_of_readMembers hmember hread (leads_of_closeObject hclose)
        exact ⟨.object members, .of_skipSpace hskip hmembers⟩
      · contradiction
  · next w =>
      obtain ⟨⟨outcome, mid⟩, hread, h⟩ := bind_eq_ok h
      cases outcome with
      | error complaint => contradiction
      | ok found =>
          obtain ⟨after, hclose, h⟩ := bind_eq_ok h
          cases h
          obtain ⟨values, hvalues⟩ := helements hread (leads_of_closeList hclose)
          exact ⟨.list values, .of_skipSpace hskip hvalues⟩
  · exact absurd h ((fails_mistyped _ _).ne_ok _)

end HostPolicy.Json
