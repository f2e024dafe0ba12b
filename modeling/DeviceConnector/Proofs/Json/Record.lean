import DeviceConnector.Json.Record
import DeviceConnector.Proofs.Json.Syntax
import Mathlib.Data.List.Basic
import Mathlib.Logic.Relation
import Mathlib.Tactic.Tauto
/-!
# What a record says

The members of an object may stand in any order, and those under other keys than the declared ones
say nothing. An object that has a declared key twice is no record.
-/

namespace DeviceConnector.Json.Value

variable {members members' : List (Bytes × Value)} {fields : List String} {name : String}
  {alike : String → Value → Value → Prop}

theorem namedMembers?_cons (key : Bytes) (value : Value) (members : List (Bytes × Value)) :
    namedMembers? ((key, value) :: members) =
      (toText? key).bind fun name => (namedMembers? members).map ((name, value) :: ·) := by
  cases named : toText? key with
  | none => simp [namedMembers?, List.mapM_cons, named]
  | some name =>
    cases rest : namedMembers? members <;>
      simp_all [namedMembers?, List.mapM_cons]

theorem namedMembers?_cons_eq_some_iff {member : Bytes × Value} {named : List (String × Value)} :
    namedMembers? (member :: members) = some named ↔
      ∃ name later, toText? member.1 = some name ∧ namedMembers? members = some later ∧
        named = (name, member.2) :: later := by
  rw [namedMembers?_cons, Option.bind_eq_some_iff]
  constructor
  · rintro ⟨name, said, rest⟩
    obtain ⟨later, read, rfl⟩ := Option.map_eq_some_iff.1 rest
    exact ⟨name, later, said, read, rfl⟩
  · rintro ⟨name, later, said, read, rfl⟩
    exact ⟨name, said, Option.map_eq_some_iff.2 ⟨later, read, rfl⟩⟩

theorem namedMembers?_perm (perm : members.Perm members') {named : List (String × Value)}
    (read : namedMembers? members = some named) :
    ∃ named', namedMembers? members' = some named' ∧ named.Perm named' := by
  induction perm generalizing named with
  | nil => exact ⟨named, read, .refl named⟩
  | cons member _ ih =>
    obtain ⟨name, later, said, rest, rfl⟩ := namedMembers?_cons_eq_some_iff.1 read
    obtain ⟨later', rest', perm⟩ := ih rest
    exact ⟨(name, member.2) :: later',
      namedMembers?_cons_eq_some_iff.2 ⟨name, later', said, rest', rfl⟩, perm.cons _⟩
  | swap first second _ =>
    obtain ⟨name, _, said, after, rfl⟩ := namedMembers?_cons_eq_some_iff.1 read
    obtain ⟨name', last, said', rest, rfl⟩ := namedMembers?_cons_eq_some_iff.1 after
    refine ⟨(name', first.2) :: (name, second.2) :: last, ?_, .swap ..⟩
    have swapped := namedMembers?_cons_eq_some_iff.2 ⟨name, last, said, rest, rfl⟩
    exact namedMembers?_cons_eq_some_iff.2 ⟨name', _, said', swapped, rfl⟩
  | trans _ _ ih ih' =>
    obtain ⟨between, read, perm⟩ := ih read
    obtain ⟨last, read, perm'⟩ := ih' read
    exact ⟨last, read, perm.trans perm'⟩

def occurrences (members : List (Bytes × Value)) (name : String) : Nat :=
  members.countP fun member => toText? member.1 == some name

theorem countP_named {named : List (String × Value)} (read : namedMembers? members = some named) :
    named.countP (·.1 == name) = occurrences members name := by
  induction members generalizing named with
  | nil =>
    cases read
    rfl
  | cons member members ih =>
    obtain ⟨text, later, said, rest, rfl⟩ := namedMembers?_cons_eq_some_iff.1 read
    rw [occurrences, List.countP_cons, List.countP_cons, ih rest, said]
    rfl

theorem record?_object_eq_some_iff {field : String → Option Value} :
    (object members).record? fields = some field ↔
      ∃ named, namedMembers? members = some named ∧
        (∀ name ∈ fields, named.countP (·.1 == name) ≤ 1) ∧
        field = fun name => named.lookup name := by
  rw [record?, Option.bind_eq_some_iff]
  refine exists_congr fun named => and_congr_right fun _ => ?_
  rw [Option.ite_none_right_eq_some, List.all_eq_true, Option.some_inj]
  simp only [decide_eq_true_eq, eq_comm (a := field)]

/-- Two members under a declared key are one too many, whatever their values. -/
theorem record?_object_of_repeated (declared : name ∈ fields)
    (repeated : 2 ≤ occurrences members name) : (object members).record? fields = none := by
  rw [Option.eq_none_iff_forall_ne_some]
  intro field record
  obtain ⟨named, read, once, -⟩ := record?_object_eq_some_iff.1 record
  have single := once name declared
  rw [countP_named read] at single
  omega

theorem mem_namedMembers? {named : List (String × Value)}
    (read : namedMembers? members = some named) {key : Bytes} {value : Value}
    (mem : (key, value) ∈ members) (said : toText? key = some name) :
    (name, value) ∈ named := by
  induction members generalizing named with
  | nil => cases mem
  | cons member members ih =>
    obtain ⟨text, later, said', rest, rfl⟩ := namedMembers?_cons_eq_some_iff.1 read
    rcases List.mem_cons.1 mem with rfl | mem
    · obtain rfl : name = text := Option.some_inj.1 (said.symm.trans said')
      exact List.mem_cons_self ..
    · exact List.mem_cons_of_mem _ (ih rest mem)

theorem lookup_of_mem {named : List (String × Value)} {value : Value} (mem : (name, value) ∈ named)
    (once : named.countP (·.1 == name) ≤ 1) : named.lookup name = some value := by
  induction named with
  | nil => cases mem
  | cons member named ih =>
    rw [List.countP_cons] at once
    rcases List.mem_cons.1 mem with rfl | mem
    · rw [List.lookup_cons_self]
    · have counted : 0 < named.countP (·.1 == name) :=
        List.countP_pos_iff.2 ⟨_, mem, beq_self_eq_true name⟩
      have other : member.1 ≠ name := by
        rintro rfl
        rw [if_pos (beq_self_eq_true _)] at once
        omega
      rw [List.lookup_cons, beq_false_of_ne other.symm]
      exact ih mem (by omega)

/-- A member under a declared key is what its field gives. -/
theorem field_of_mem {field : String → Option Value}
    (record : (object members).record? fields = some field) (declared : name ∈ fields)
    {key : Bytes} {value : Value} (mem : (key, value) ∈ members)
    (said : toText? key = some name) : field name = some value := by
  obtain ⟨named, read, once, rfl⟩ := record?_object_eq_some_iff.1 record
  exact lookup_of_mem (mem_namedMembers? read mem said) (once name declared)

def Given (alike : String → Value → Value → Prop) (name : String) (value value' : Option Value) :
    Prop :=
  value = value' ∨ ∃ v v', value = some v ∧ value' = some v' ∧ alike name v v'

/-- Neither is a record, or both give the same under the declared names. -/
inductive Agree (fields : List String) (alike : String → Value → Value → Prop) :
    Option (String → Option Value) → Option (String → Option Value) → Prop where
  | neither : Agree fields alike none none
  | both {field field' : String → Option Value}
      (given : ∀ name ∈ fields, Given alike name (field name) (field' name)) :
      Agree fields alike (some field) (some field')

/-- What is read from the declared fields alone is the same from records that agree. -/
theorem Agree.bind_eq {α : Type} {take : (String → Option Value) → Option α}
    {record record' : Option (String → Option Value)} (agree : Agree fields alike record record')
    (same : ∀ field field', (∀ name ∈ fields, Given alike name (field name) (field' name)) →
      take field = take field') : record.bind take = record'.bind take := by
  cases agree with
  | neither => rfl
  | both given => exact same _ _ given

theorem agree_of_unnamed (unnamed : namedMembers? members = none)
    (unnamed' : namedMembers? members' = none) :
    Agree fields alike ((object members).record? fields) ((object members').record? fields) := by
  rw [record?, record?, unnamed, unnamed']
  exact .neither

theorem agree_of_named {named named' : List (String × Value)}
    (read : namedMembers? members = some named) (read' : namedMembers? members' = some named')
    (counts : ∀ name ∈ fields, named.countP (·.1 == name) = named'.countP (·.1 == name))
    (given : ∀ name ∈ fields, named.countP (·.1 == name) ≤ 1 →
      Given alike name (named.lookup name) (named'.lookup name)) :
    Agree fields alike ((object members).record? fields) ((object members').record? fields) := by
  by_cases once : ∀ name ∈ fields, named.countP (·.1 == name) ≤ 1
  · have once' : ∀ name ∈ fields, named'.countP (·.1 == name) ≤ 1 := by
      intro name mem
      rw [← counts name mem]
      exact once name mem
    rw [record?_object_eq_some_iff.2 ⟨named, read, once, rfl⟩,
      record?_object_eq_some_iff.2 ⟨named', read', once', rfl⟩]
    exact .both fun name mem => given name mem (once name mem)
  · obtain ⟨name, mem, many⟩ : ∃ name, name ∈ fields ∧ 2 ≤ named.countP (·.1 == name) := by
      simpa only [not_forall, exists_prop, Nat.not_le, Nat.lt_iff_add_one_le] using once
    rw [record?_object_of_repeated mem (by rwa [← countP_named read]),
      record?_object_of_repeated mem (by rwa [← countP_named read', ← counts name mem])]
    exact .neither

theorem lookup_perm {named named' : List (String × Value)} (perm : named.Perm named')
    (once : named.countP (·.1 == name) ≤ 1) : named.lookup name = named'.lookup name := by
  induction perm with
  | nil => rfl
  | cons member perm ih =>
    rw [List.lookup_cons, List.lookup_cons]
    split
    · rfl
    · apply ih
      rw [List.countP_cons] at once
      omega
  | swap first second rest =>
    rw [List.lookup_cons, List.lookup_cons, List.lookup_cons, List.lookup_cons]
    by_cases here : name = first.1
    · by_cases there : name = second.1
      · rw [List.countP_cons, List.countP_cons, ← here, ← there,
          if_pos (beq_self_eq_true name)] at once
        omega
      · rw [beq_false_of_ne there]
    · rw [beq_false_of_ne here]
  | trans perm _ ih ih' =>
    rw [ih once]
    apply ih'
    rwa [← perm.countP_eq]

/-- The members are put in another order; one more is put in, under a key that says none of the
declared names; or the value of one is replaced by one that is alike under its name. -/
inductive Edit (fields : List String) (alike : String → Value → Value → Prop) :
    List (Bytes × Value) → List (Bytes × Value) → Prop where
  | permute {members members' : List (Bytes × Value)} (perm : members.Perm members') :
      Edit fields alike members members'
  | insert {key : Bytes} {name : String} (named : toText? key = some name) (unknown : name ∉ fields)
      (value : Value) (members : List (Bytes × Value)) :
      Edit fields alike members ((key, value) :: members)
  | replace {key : Bytes} {name : String} {value value' : Value} (named : toText? key = some name)
      (same : alike name value value') (members : List (Bytes × Value)) :
      Edit fields alike ((key, value) :: members) ((key, value') :: members)

theorem Edit.agree (edit : Edit fields alike members members') :
    Agree fields alike ((object members).record? fields) ((object members').record? fields) := by
  cases edit with
  | permute perm =>
    cases read : namedMembers? members with
    | none =>
      refine agree_of_unnamed read (Option.eq_none_iff_forall_ne_some.2 fun named' read' => ?_)
      obtain ⟨named, again, -⟩ := namedMembers?_perm perm.symm read'
      cases read.symm.trans again
    | some named =>
      obtain ⟨named', read', perm'⟩ := namedMembers?_perm perm read
      apply agree_of_named read read'
      · intro name _
        exact perm'.countP_eq _
      · intro name _ once
        exact Or.inl (lookup_perm perm' once)
  | @insert key _ said unknown value =>
    have whole := namedMembers?_cons key value members
    rw [said, Option.bind_some] at whole
    cases read : namedMembers? members with
    | none => exact agree_of_unnamed read (by rw [whole, read]; rfl)
    | some named =>
      rw [read, Option.map_some] at whole
      have other {known : String} (mem : known ∈ fields) : known ≠ _ :=
        ne_of_mem_of_not_mem mem unknown
      apply agree_of_named read whole
      · intro known mem
        rw [List.countP_cons, if_neg (by simpa using (other mem).symm), Nat.add_zero]
      · intro known mem _
        left
        rw [List.lookup_cons, beq_false_of_ne (other mem)]
  | @replace key text value value' said same rest =>
    have whole (value : Value) := namedMembers?_cons key value rest
    simp only [said, Option.bind_some] at whole
    cases read : namedMembers? rest with
    | none => exact agree_of_unnamed (by rw [whole, read]; rfl) (by rw [whole, read]; rfl)
    | some named =>
      simp only [read, Option.map_some] at whole
      apply agree_of_named (whole value) (whole value')
      · intro known _
        rw [List.countP_cons, List.countP_cons]
      · intro known _ _
        by_cases here : known = text
        · subst here
          exact Or.inr ⟨value, value', by simp, by simp, same⟩
        · left
          rw [List.lookup_cons, List.lookup_cons, beq_false_of_ne here]

inductive Gap (fields : List String) (name : String) : (Value → Value) → Prop where
  | keyed (before : List (Bytes × Value)) {key : Bytes} (said : toText? key = some name)
      (after : List (Bytes × Value)) :
      Gap fields name fun v => .object (before ++ (key, v) :: after)
  | placed (before after : List Value) (place : fields[before.length]? = some name) :
      Gap fields name fun v => .array (before ++ v :: after)

theorem lookup_between {before after : List (String × Value)} (fresh : before.lookup name = none)
    (v : Value) : (fun other => (before ++ (name, v) :: after).lookup other) =
      Function.update (fun other => (before ++ after).lookup other) name (some v) := by
  funext other
  by_cases here : other = name
  · subst here
    simp [List.lookup_append, fresh]
  · rw [Function.update_of_ne here, List.lookup_append, List.lookup_append, List.lookup_cons,
      beq_false_of_ne here]

theorem namedMembers?_append (first second : List (Bytes × Value)) :
    namedMembers? (first ++ second) = (namedMembers? first).bind fun named =>
      (namedMembers? second).map (named ++ ·) := by
  induction first with
  | nil => simp [namedMembers?]
  | cons member first ih =>
    obtain ⟨key, value⟩ := member
    rw [List.cons_append, namedMembers?_cons, namedMembers?_cons, ih]
    cases toText? key <;> cases namedMembers? first <;> cases namedMembers? second <;> rfl

theorem record?_array {items : List Value} (few : items.length ≤ fields.length) :
    (array items).record? fields = some fun name => (fields.zip items).lookup name :=
  if_pos few

theorem record?_array_of_lt {items : List Value} (many : fields.length < items.length) :
    (array items).record? fields = none :=
  if_neg (Nat.not_le.2 many)

def IsRest (fields : List String) (name : String) (put : Value → Value)
    (rest : Option (String → Option Value)) : Prop :=
  ∀ v, (put v).record? fields = rest.map fun field => Function.update field name (some v)

theorem exists_rest_keyed (declared : name ∈ fields) (before : List (Bytes × Value)) {key : Bytes}
    (said : toText? key = some name) (after : List (Bytes × Value)) :
    ∃ rest, IsRest fields name (fun v => object (before ++ (key, v) :: after)) rest := by
  by_cases valid : ∃ v field, (object (before ++ (key, v) :: after)).record? fields = some field
  · obtain ⟨v, field, record⟩ := valid
    obtain ⟨all, read, once, -⟩ := record?_object_eq_some_iff.1 record
    rw [namedMembers?_append, Option.bind_eq_some_iff] at read
    obtain ⟨named, first, others⟩ := read
    obtain ⟨_, second, rfl⟩ := Option.map_eq_some_iff.1 others
    rw [namedMembers?_cons, said, Option.bind_some, Option.map_eq_some_iff] at second
    obtain ⟨later, last, rfl⟩ := second
    simp only [List.countP_append, List.countP_cons] at once
    have fresh : named.lookup name = none := by
      have single := once name declared
      rw [if_pos (beq_self_eq_true name)] at single
      have absent : named.countP (·.1 == name) = 0 := by omega
      rw [List.lookup_eq_none_iff]
      intro member mem
      have other := List.countP_eq_zero.1 absent member mem
      simpa using fun same : name = member.1 => other (beq_iff_eq.2 same.symm)
    refine ⟨some fun other => (named ++ later).lookup other, fun v => ?_⟩
    rw [Option.map_some, ← lookup_between fresh v, record?_object_eq_some_iff]
    refine ⟨_, ?_, by simpa only [List.countP_append, List.countP_cons] using once, rfl⟩
    rw [namedMembers?_append, first, namedMembers?_cons, said, last]
    rfl
  · refine ⟨none, fun v => Option.eq_none_iff_forall_ne_some.2 fun field record => ?_⟩
    exact valid ⟨v, field, record⟩

theorem exists_rest_placed (distinct : fields.Nodup) {before : List Value}
    (place : fields[before.length]? = some name) (after : List Value) :
    ∃ rest, IsRest fields name (fun v => array (before ++ v :: after)) rest := by
  by_cases few : before.length + after.length < fields.length
  · -- the fields are split where the items are
    obtain ⟨inside, here⟩ := List.getElem?_eq_some_iff.1 place
    have split : fields = fields.take before.length ++ name :: fields.drop (before.length + 1) := by
      rw [← here, List.getElem_cons_drop, List.take_append_drop]
    have fresh : ((fields.take before.length).zip before).lookup name = none := by
      rw [List.lookup_eq_none_iff]
      rintro ⟨other, w⟩ mem
      rw [split, List.nodup_append] at distinct
      have apart := distinct.2.2 other (List.of_mem_zip mem).1 name (List.mem_cons_self ..)
      simpa using apart.symm
    have zipped (v : Value) : fields.zip (before ++ v :: after) =
        (fields.take before.length).zip before ++
          (name, v) :: (fields.drop (before.length + 1)).zip after := by
      conv_lhs => rw [split]
      rw [List.zip_append (by rw [List.length_take]; omega), List.zip_cons_cons]
    refine ⟨some fun other => ((fields.take before.length).zip before ++
      (fields.drop (before.length + 1)).zip after).lookup other, fun v => ?_⟩
    rw [Option.map_some, ← lookup_between fresh v, ← zipped]
    exact record?_array (by rw [List.length_append, List.length_cons]; omega)
  · refine ⟨none, fun v => record?_array_of_lt ?_⟩
    rw [List.length_append, List.length_cons]
    omega

/-- Neither the other fields nor whether there is a record depend on the value in the gap. -/
theorem Gap.exists_rest {put : Value → Value} (gap : Gap fields name put)
    (distinct : fields.Nodup) (declared : name ∈ fields) :
    ∃ rest, IsRest fields name put rest := by
  cases gap with
  | keyed before said after => exact exists_rest_keyed declared before said after
  | placed before after place => exact exists_rest_placed distinct place after

theorem areSpelled_append {first second : List Value} :
    AreSpelled (first ++ second) ↔ AreSpelled first ∧ AreSpelled second := by
  induction first with
  | nil => simp [AreSpelled]
  | cons v first ih => rw [List.cons_append, AreSpelled, AreSpelled, ih, and_assoc]

theorem membersAreSpelled_append {first second : List (Bytes × Value)} :
    MembersAreSpelled (first ++ second) ↔ MembersAreSpelled first ∧ MembersAreSpelled second := by
  induction first with
  | nil => simp [MembersAreSpelled]
  | cons member first ih =>
    rw [List.cons_append, MembersAreSpelled, MembersAreSpelled, ih, and_assoc, and_assoc]

/-- A record is spelled as the format demands if the value in the gap and all around it are. -/
theorem Gap.isSpelled_iff {put : Value → Value} (gap : Gap fields name put) :
    ∃ around : Prop, ∀ v, (put v).IsSpelled ↔ around ∧ v.IsSpelled := by
  cases gap with
  | @keyed before key said after =>
    refine ⟨MembersAreSpelled before ∧ IsContent key ∧ MembersAreSpelled after, fun v => ?_⟩
    change MembersAreSpelled _ ↔ _
    rw [membersAreSpelled_append, MembersAreSpelled]
    tauto
  | placed before after place =>
    refine ⟨AreSpelled before ∧ AreSpelled after, fun v => ?_⟩
    change AreSpelled _ ↔ _
    rw [areSpelled_append, AreSpelled]
    tauto

end DeviceConnector.Json.Value
