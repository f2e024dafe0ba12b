import DeviceConnector.Proofs.Json.Record
/-!
# The two forms of a record

The same fields may be given under their keys or one after the other. What each of them may be is a
slot: a name and a condition on the value that stands there, if one does.
-/

namespace DeviceConnector.Json.Value

abbrev Slot := String × (Option Value → Prop)

variable {slots : List Slot} {v : Value}

/-- One value for each slot in turn. Slots that allow it may be left out at the end. -/
inductive InOrder : List Slot → List Value → Prop where
  | done {slots : List Slot} (absent : ∀ slot ∈ slots, slot.2 none) : InOrder slots []
  | next {slot : Slot} {slots : List Slot} {v : Value} {items : List Value}
      (here : slot.2 (some v)) (rest : InOrder slots items) : InOrder (slot :: slots) (v :: items)

inductive Form (slots : List Slot) : Value → Prop where
  | inOrder {items : List Value} (given : InOrder slots items) : Form slots (.array items)
  | keyed {members : List (Bytes × Value)} {named : List (String × Value)}
      (read : namedMembers? members = some named)
      (once : ∀ slot ∈ slots, named.countP (·.1 == slot.1) ≤ 1)
      (given : ∀ slot ∈ slots, slot.2 (named.lookup slot.1)) : Form slots (.object members)

theorem InOrder.length_le {items : List Value} (given : InOrder slots items) :
    items.length ≤ slots.length := by
  induction given with
  | done => exact Nat.zero_le _
  | next _ _ ih => exact Nat.succ_le_succ ih

/-- Each slot finds its value by its name, and none if the items end before it. -/
theorem InOrder.lookup {items : List Value} (given : InOrder slots items)
    (distinct : (slots.map (·.1)).Nodup) :
    ∀ slot ∈ slots, slot.2 (((slots.map (·.1)).zip items).lookup slot.1) := by
  induction given with
  | done absent =>
    intro slot mem
    rw [List.zip_nil_right, List.lookup_nil]
    exact absent slot mem
  | @next first slots v items here _ ih =>
    rw [List.map_cons, List.nodup_cons] at distinct
    intro slot mem
    rw [List.map_cons, List.zip_cons_cons, List.lookup_cons]
    rcases List.mem_cons.1 mem with rfl | mem
    · rwa [beq_self_eq_true]
    · have other : slot.1 ≠ first.1 := by
        intro same
        exact distinct.1 (same ▸ List.mem_map_of_mem mem)
      rw [beq_false_of_ne other]
      exact ih distinct.2 slot mem

/-- Both forms are records whose fields are as the slots ask. -/
theorem Form.exists_field (form : Form slots v) (distinct : (slots.map (·.1)).Nodup) :
    ∃ field, v.record? (slots.map (·.1)) = some field ∧ ∀ slot ∈ slots, slot.2 (field slot.1) := by
  cases form with
  | inOrder given =>
    have few := given.length_le
    exact ⟨_, record?_array (by rwa [List.length_map]), given.lookup distinct⟩
  | keyed read once given =>
    refine ⟨_, record?_object_eq_some_iff.2 ⟨_, read, ?_, rfl⟩, given⟩
    intro name mem
    obtain ⟨slot, listed, rfl⟩ := List.mem_map.1 mem
    exact once slot listed

theorem Form.ne_null (form : Form slots v) : v ≠ .null := by
  cases form <;> simp

variable {α : Type} {means : α → Value → Prop} {a : Option α}

/-- For a field without a value nothing or null stands there, for another what means its value. -/
def Optionally (means : α → Value → Prop) : Option α → Option Value → Prop
  | none, value => value = none ∨ value = some .null
  | some x, value => ∃ v, value = some v ∧ means x v

theorem Optionally.optional {value : Option Value} (given : Optionally means a value)
    {read : Value → Option α} (reads : ∀ x v, means x v → v ≠ .null ∧ read v = some x) :
    optional read value = some a := by
  cases a with
  | none => rcases given with rfl | rfl <;> rfl
  | some x =>
    obtain ⟨v, rfl, said⟩ := given
    obtain ⟨there, known⟩ := reads x v said
    cases v with
    | null => exact absurd rfl there
    | bool | number | string | array | object => simp [Value.optional, known]

theorem optionally_map {write : α → Value} (said : ∀ x, means x (write x)) (a : Option α) :
    Optionally means a (a.map write) := by
  cases a with
  | none => exact Or.inl rfl
  | some x => exact ⟨_, rfl, said x⟩

theorem optionally_getD {write : α → Value} (said : ∀ x, means x (write x)) (a : Option α) :
    Optionally means a (some ((a.map write).getD .null)) := by
  cases a with
  | none => exact Or.inr rfl
  | some x => exact ⟨_, rfl, said x⟩

end DeviceConnector.Json.Value
