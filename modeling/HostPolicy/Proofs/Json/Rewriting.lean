import HostPolicy.Proofs.Json.Members
import Mathlib.Data.List.Forall2

/-!
# Other ways to write a record

Members in another order, members that no field asks for, and a list of the fields in place of an
object are other ways to write the same record, as long as what the record means depends on no more
than the values that are given for each field. A field that is given twice makes no record.
-/

namespace HostPolicy.Json

variable {α ρ : Type} {meaning : Value → Option α} {before after : Option α}
  {values values' : List Value} {members members' : List (Quoted × Value)} {v v' : Value}

/-! ### What is given for a field -/

/-- The values of the members with the name, in order. -/
def given (members : List (Quoted × Value)) (name : String) : List Value :=
  (members.filter fun m => m.1.text? == some name).map Prod.snd

/-- Every key is a text, so that it names something. -/
def Keyed (members : List (Quoted × Value)) : Prop :=
  ∀ m ∈ members, m.1.text?.isSome = true

theorem given_cons (key : Quoted) (v : Value) (members : List (Quoted × Value)) (name : String) :
    given ((key, v) :: members) name =
      if key.text? = some name then v :: given members name else given members name := by
  unfold given
  split
  · next hname => simp [hname]
  · next hname => simp [hname]

theorem given_append (front back : List (Quoted × Value)) (name : String) :
    given (front ++ back) name = given front name ++ given back name := by
  simp [given]

theorem given_perm (h : members.Perm members') (name : String) :
    (given members name).Perm (given members' name) :=
  (h.filter _).map _

theorem Keyed.perm (h : members.Perm members') (hkeyed : Keyed members) : Keyed members' :=
  fun m hm => hkeyed m (h.mem_iff.mpr hm)

theorem keyed_cons (m : Quoted × Value) (members : List (Quoted × Value)) :
    Keyed (m :: members) ↔ m.1.text?.isSome = true ∧ Keyed members :=
  List.forall_mem_cons

/-- A field that has these values in turn ends up with a meaning: it takes one and no second. -/
def Takes (meaning : Value → Option α) : Option α → List Value → Option α → Prop
  | before, [], after => after = before
  | none, v :: values, after => ∃ a, meaning v = some a ∧ Takes meaning (some a) values after
  | some _, _ :: _, _ => False

theorem takes_nil : Takes meaning before [] after ↔ after = before := by
  cases before <;> rfl

theorem takes_cons :
    Takes meaning before (v :: values) after ↔
      before = none ∧ ∃ a, meaning v = some a ∧ Takes meaning (some a) values after := by
  cases before with
  | none => exact (and_iff_right rfl).symm
  | some a => exact (iff_false_intro id).trans (iff_false_intro fun h => nomatch h.1).symm

theorem give?_eq_some_iff {δ : Type} {give : α → δ} {value : Option α} {draft : δ} :
    give? before give value = some draft ↔
      before = none ∧ ∃ a, value = some a ∧ give a = draft := by
  cases before with
  | none => simp [give?]
  | some a => simp [give?]

/-- From no value on there is none or exactly one. -/
theorem Takes.cases (h : Takes meaning none values after) :
    values = [] ∧ after = none ∨ ∃ v a, values = [v] ∧ meaning v = some a ∧ after = some a := by
  match values, h with
  | [], h => exact Or.inl ⟨rfl, h⟩
  | [v], ⟨a, ha, hafter⟩ => exact Or.inr ⟨v, a, rfl, ha, hafter⟩

theorem Takes.length_le_one (h : Takes meaning none values after) : values.length ≤ 1 := by
  obtain ⟨rfl, -⟩ | ⟨v, a, rfl, -⟩ := h.cases
  · exact Nat.zero_le 1
  · exact Nat.le_refl 1

/-- What stands for the field in a list: the value that it has, or a default that is written out. -/
theorem Takes.written (h : Takes meaning none values after) {dflt : α}
    (hv : values = [v] ∨ values = [] ∧ meaning v = some dflt) :
    ∃ a, meaning v = some a ∧ after.getD dflt = a := by
  obtain ⟨rfl, rfl⟩ | ⟨w, a, rfl, ha, rfl⟩ := h.cases
  · obtain hv | ⟨-, hv⟩ := hv
    · contradiction
    · exact ⟨dflt, hv, rfl⟩
  · obtain hv | ⟨hv, -⟩ := hv
    · cases hv
      exact ⟨a, ha, rfl⟩
    · contradiction

/-- A field that has a value has the only one that is given. -/
theorem Takes.of_some {a : α} {p : Prop} (h : Takes meaning none values (some a))
    (hv : values = [v] ∨ values = [] ∧ p) : meaning v = some a := by
  obtain ⟨-, hnone⟩ | ⟨w, b, rfl, hb, hab⟩ := h.cases
  · contradiction
  · obtain hv | ⟨hv, -⟩ := hv
    · cases hv
      exact hb.trans hab.symm
    · contradiction

theorem Takes.exists_of_mem (h : Takes meaning none values after) (hv : v ∈ values) :
    ∃ a, meaning v = some a := by
  obtain ⟨rfl, -⟩ | ⟨w, a, rfl, ha, -⟩ := h.cases
  · contradiction
  · exact ⟨a, List.mem_singleton.mp hv ▸ ha⟩

/-- Another value that means the same. -/
theorem Takes.replace {front back : List Value} (h : Takes meaning none (front ++ v :: back) after)
    (hv : ∀ a, meaning v = some a → meaning v' = some a) :
    Takes meaning none (front ++ v' :: back) after := by
  obtain ⟨hnil, -⟩ | ⟨w, a, hone, ha, rfl⟩ := h.cases
  · simp at hnil
  · obtain ⟨rfl, hone⟩ | ⟨rfl, hone⟩ := List.append_eq_singleton_iff.mp hone
    · cases hone
      exact ⟨a, hv a ha, rfl⟩
    · simp at hone

theorem Takes.perm (hperm : values.Perm values') (h : Takes meaning none values after) :
    Takes meaning none values' after := by
  obtain ⟨rfl, -⟩ | ⟨v, a, rfl, -⟩ := h.cases
  · rwa [List.nil_perm.mp hperm]
  · rwa [List.perm_singleton.mp hperm.symm]

/-! ### Members in turn -/

variable {δ : Type} {fill : String → δ → Value → Option δ}

/-- One value more for the field of a name, in front of the others. -/
def push (name : String) (v : Value) (values : String → List Value) : String → List Value :=
  fun other => if name = other then v :: values other else values other

/-- What the members make of a draft depends on the values for each field alone, if it does so for
one member more. By induction on the members. -/
theorem foldlM_takeMember_iff {turns : δ → (String → List Value) → δ → Prop}
    (nil : ∀ draft last, turns draft (fun _ => []) last ↔ last = draft)
    (cons : ∀ draft last name v values, turns draft (push name v values) last ↔
      ∃ next, fill name draft v = some next ∧ turns next values last)
    (members : List (Quoted × Value)) (draft last : δ) :
    members.foldlM (takeMember fill) draft = some last ↔
      Keyed members ∧ turns draft (given members) last := by
  induction members generalizing draft with
  | nil =>
      have hkeyed : Keyed [] := List.forall_mem_nil _
      rw [and_iff_right hkeyed]
      exact Option.some_inj.trans (eq_comm.trans (nil draft last).symm)
  | cons m members ih =>
      obtain ⟨key, v⟩ := m
      rw [List.foldlM_cons, takeMember, keyed_cons]
      cases hkey : key.text? with
      | none => simp
      | some name =>
          have hgiven : given ((key, v) :: members) = push name v (given members) := by
            funext other
            rw [given_cons, hkey, push]
            simp
          rw [hgiven, cons]
          simp only [Option.bind_eq_bind, Option.bind_some, Option.bind_eq_some_iff, ih,
            Option.isSome_some, true_and]
          constructor
          · rintro ⟨next, hfill, hkeyed, hturns⟩
            exact ⟨hkeyed, next, hfill, hturns⟩
          · rintro ⟨hkeyed, next, hfill, hturns⟩
            exact ⟨next, hfill, hkeyed, hturns⟩

/-! ### Rewriting a record -/

/-- A field of a record, and the values that write its default out. -/
structure Field where
  name : String
  Default : Value → Prop

/-- What stands for a field in a list: the value that the object has for it, or its default. -/
def WrittenOut (members : List (Quoted × Value)) (f : Field) (v : Value) : Prop :=
  given members f.name = [v] ∨ given members f.name = [] ∧ f.Default v

/-- One change of how a record with these fields is written. -/
inductive Rewrites (fields : List Field) : Value → Value → Prop
  | permuted {members members' : List (Quoted × Value)} (h : members.Perm members') :
      Rewrites fields (.object members) (.object members')
  | inserted {front back : List (Quoted × Value)} {key : Quoted} {name : String} (v : Value)
      (hkey : key.text? = some name) (hunknown : ∀ f ∈ fields, f.name ≠ name) :
      Rewrites fields (.object (front ++ back)) (.object (front ++ (key, v) :: back))
  | listed {members : List (Quoted × Value)} {values : List Value}
      (h : List.Forall₂ (WrittenOut members) fields values) :
      Rewrites fields (.object members) (.list values)

/-- A field is given more than once. -/
inductive Repeats (fields : List Field) : Value → Prop
  | member {members : List (Quoted × Value)} {f : Field} (hf : f ∈ fields)
      (h : 1 < (given members f.name).length) : Repeats fields (.object members)

/-- What a record means depends on the values for each of its fields alone; `turns` says what draft
they make. -/
structure ByFields (fields : List Field) (fill : String → δ → Value → Option δ)
    (ofList : List Value → Option δ) (empty : δ) (finish : δ → Except Complaint ρ)
    (turns : (String → List Value) → δ → Prop) : Prop where
  object : ∀ members draft, members.foldlM (takeMember fill) empty = some draft ↔
    Keyed members ∧ turns (given members) draft
  perm : ∀ {values values' draft}, turns values draft →
    (∀ f ∈ fields, (values f.name).Perm (values' f.name)) → turns values' draft
  once : ∀ {values draft}, turns values draft → ∀ f ∈ fields, (values f.name).length ≤ 1
  list : ∀ {members draft record values}, turns (given members) draft →
    (finish draft).toOption = some record → List.Forall₂ (WrittenOut members) fields values →
    ∃ draft', ofList values = some draft' ∧ (finish draft').toOption = some record

variable {fields : List Field} {ofList : List Value → Option δ} {empty : δ}
  {finish : δ → Except Complaint ρ} {turns : (String → List Value) → δ → Prop} {record : ρ}

theorem ByFields.object_iff (h : ByFields fields fill ofList empty finish turns)
    (members : List (Quoted × Value)) :
    (Value.object members).record? fill ofList fields.length empty finish = some record ↔
      Keyed members ∧
        ∃ draft, turns (given members) draft ∧ (finish draft).toOption = some record := by
  rw [Value.record?, Option.bind_eq_bind, Option.bind_eq_some_iff]
  simp only [h.object]
  constructor
  · rintro ⟨draft, ⟨hkeyed, hturns⟩, hfinish⟩
    exact ⟨hkeyed, draft, hturns, hfinish⟩
  · rintro ⟨hkeyed, draft, hturns, hfinish⟩
    exact ⟨draft, ⟨hkeyed, hturns⟩, hfinish⟩

theorem given_insert {front back : List (Quoted × Value)} {key : Quoted} {name other : String}
    (hkey : key.text? = some name) (hother : other ≠ name) (v : Value) :
    given (front ++ (key, v) :: back) other = given (front ++ back) other := by
  rw [given_append, given_append, given_cons, hkey, if_neg]
  rintro ⟨⟩
  contradiction

theorem given_here {front back : List (Quoted × Value)} {key : Quoted} {name : String}
    (hkey : key.text? = some name) (v : Value) :
    given (front ++ (key, v) :: back) name = given front name ++ v :: given back name := by
  rw [given_append, given_cons, if_pos hkey]

theorem Keyed.replace {front back : List (Quoted × Value)} {key : Quoted}
    (h : Keyed (front ++ (key, v) :: back)) (v' : Value) :
    Keyed (front ++ (key, v') :: back) := by
  obtain ⟨hfront, hback⟩ := List.forall_mem_append.mp h
  obtain ⟨hkey, hback⟩ := List.forall_mem_cons.mp hback
  exact List.forall_mem_append.mpr ⟨hfront, List.forall_mem_cons.mpr ⟨hkey, hback⟩⟩

theorem ByFields.rewrites (h : ByFields fields fill ofList empty finish turns)
    (hrewrites : Rewrites fields v v')
    (hv : v.record? fill ofList fields.length empty finish = some record) :
    v'.record? fill ofList fields.length empty finish = some record := by
  cases hrewrites with
  | permuted hperm =>
      rw [h.object_iff] at hv ⊢
      obtain ⟨hkeyed, draft, hturns, hfinish⟩ := hv
      refine ⟨hkeyed.perm hperm, draft, h.perm hturns ?_, hfinish⟩
      exact fun f _ => given_perm hperm f.name
  | @inserted front back key name w hkey hunknown =>
      rw [h.object_iff] at hv ⊢
      obtain ⟨hkeyed, draft, hturns, hfinish⟩ := hv
      refine ⟨?_, draft, h.perm hturns ?_, hfinish⟩
      · obtain ⟨hfront, hback⟩ := List.forall_mem_append.mp hkeyed
        exact List.forall_mem_append.mpr ⟨hfront, List.forall_mem_cons.mpr ⟨by simp [hkey], hback⟩⟩
      · intro f hf
        rw [given_insert hkey (hunknown f hf)]
  | @listed members values hlisted =>
      rw [h.object_iff] at hv
      obtain ⟨_, draft, hturns, hfinish⟩ := hv
      obtain ⟨draft', hlist, hfinish'⟩ := h.list hturns hfinish hlisted
      rw [Value.record?, if_pos (Nat.le_of_eq hlisted.length_eq.symm), hlist]
      exact hfinish'

/-- A record is not left out, whichever way it is written. -/
theorem Rewrites.option {read : Value → Option ρ} (h : Rewrites fields v v')
    (hsame : ∀ record, read v = some record → read v' = some record) {o : Option ρ}
    (hv : v.option? read = some o) : v'.option? read = some o := by
  have hsome : (read v).map some = some o := by
    cases h <;> exact hv
  obtain ⟨record, hrecord, rfl⟩ := Option.map_eq_some_iff.mp hsome
  have hsome' : (read v').map some = some (some record) := by
    rw [hsame record hrecord]
    rfl
  cases h <;> exact hsome'

theorem ByFields.repeats (h : ByFields fields fill ofList empty finish turns)
    (hrepeats : Repeats fields v) :
    v.record? fill ofList fields.length empty finish = none := by
  rw [Option.eq_none_iff_forall_ne_some]
  intro record hv
  cases hrepeats with
  | @member members f hf hmore =>
      rw [h.object_iff] at hv
      obtain ⟨_, draft, hturns, _⟩ := hv
      exact Nat.not_lt_of_le (h.once hturns f hf) hmore

theorem Repeats.option {read : Value → Option ρ} (h : Repeats fields v) (hnone : read v = none) :
    v.option? read = none := by
  have hmap : (read v).map some = none := by rw [hnone, Option.map_none]
  cases h
  exact hmap

end HostPolicy.Json
