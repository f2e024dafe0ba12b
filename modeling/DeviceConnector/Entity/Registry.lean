import DeviceConnector.Entity.Basic
/-!
# The registry

Every entity that answers to an identifier. The first one registered under an identifier keeps it,
and removal by identity leaves the entry alone when somebody else owns it.
-/

namespace DeviceConnector

abbrev Registry := Table Dsuid Entity

namespace Registry

def add (registry : Registry) (e : Entity) : Registry :=
  if registry.contains e.dsuid then registry else registry.insert e.dsuid e

/-- Register an entity; tells whether its identifier was free. -/
def register (registry : Registry) (e : Entity) : Bool × Registry :=
  (!registry.contains e.dsuid, registry.add e)

/-- Register a vDC and then its devices, each where its identifier is free. The devices are left out
when the identifier of the vDC is taken. -/
def registerVdc (registry : Registry) (vdc : Vdc) (devices : List Entity) : Bool × Registry :=
  if registry.contains vdc.dsuid then (false, registry)
  else (true, devices.foldl add (registry.add (.vdc vdc)))

/-- Remove the entry of an identifier if it is this very entity; tells whether it was. -/
def removeIfSame (registry : Registry) (dsuid : Dsuid) (e : Entity) : Bool × Registry :=
  match registry.find? dsuid with
  | some current =>
    if current.object = e.object then (true, registry.erase dsuid) else (false, registry)
  | none => (false, registry)

def entities (registry : Registry) : List Entity := registry.values

def vdcs (registry : Registry) : List Vdc := registry.entities.filterMap Entity.vdc?

/-- If entities are registered under their own identifiers, none is registered twice. -/
theorem nodup_entities {registry : Registry}
    (own : ∀ dsuid e, registry.find? dsuid = some e → e.dsuid = dsuid) :
    registry.entities.Nodup := by
  apply List.pairwise_map.2
  apply registry.ascending.imp_of_mem
  rintro ⟨dsuid, e⟩ ⟨other, e'⟩ mem mem' less same
  have key := own dsuid e (Table.mem_entries.1 mem)
  have key' := own other e' (Table.mem_entries.1 mem')
  obtain rfl : e = e' := same
  obtain rfl : dsuid = other := key.symm.trans key'
  exact absurd less (Nat.lt_irrefl _)

/-- Adding an entity fills the place under its identifier if that is free, and nothing else. -/
theorem find?_add (registry : Registry) (e : Entity) (dsuid : Dsuid) :
    (registry.add e).find? dsuid =
      if dsuid = e.dsuid ∧ registry.find? dsuid = none then some e else registry.find? dsuid := by
  unfold add
  by_cases taken : registry.contains e.dsuid = true
  · rw [if_pos taken, if_neg]
    rintro ⟨rfl, free⟩
    simp [Table.contains, free] at taken
  · rw [if_neg taken]
    by_cases same : dsuid = e.dsuid
    · subst same
      have free : registry.find? e.dsuid = none := by simpa [Table.contains] using taken
      simp [free]
    · rw [Table.find?_insert_of_ne registry same, if_neg (fun both => same both.1)]

theorem find?_foldl_add_of_found {registry : Registry} {dsuid : Dsuid} {found : Entity}
    (entities : List Entity) (h : registry.find? dsuid = some found) :
    (entities.foldl add registry).find? dsuid = some found := by
  induction entities generalizing registry with
  | nil => exact h
  | cons e entities ih =>
    apply ih
    rw [find?_add, if_neg (by simp [h]), h]

/-- Whatever is added, its identifier is taken afterwards. -/
theorem contains_foldl_add {registry : Registry} {entities : List Entity} {e : Entity}
    (mem : e ∈ entities) : ∃ found, (entities.foldl add registry).find? e.dsuid = some found := by
  induction entities generalizing registry with
  | nil => cases mem
  | cons first entities ih =>
    rcases List.mem_cons.1 mem with rfl | mem
    · cases free : registry.find? e.dsuid with
      | none =>
        refine ⟨e, find?_foldl_add_of_found entities ?_⟩
        rw [find?_add, if_pos ⟨rfl, free⟩]
      | some found =>
        refine ⟨found, find?_foldl_add_of_found entities ?_⟩
        rw [find?_add, if_neg (by simp [free]), free]
    · exact ih mem

theorem find?_foldl_add {registry : Registry} {entities : List Entity} {dsuid : Dsuid}
    {found : Entity} (h : (entities.foldl add registry).find? dsuid = some found) :
    registry.find? dsuid = some found ∨ found ∈ entities ∧ found.dsuid = dsuid := by
  induction entities generalizing registry with
  | nil => exact Or.inl h
  | cons e entities ih =>
    rcases ih h with before | ⟨mem, own⟩
    · rw [find?_add] at before
      split at before
      · rename_i fresh
        obtain rfl := Option.some.inj before
        exact Or.inr ⟨List.mem_cons_self .., fresh.1.symm⟩
      · exact Or.inl before
    · exact Or.inr ⟨List.mem_cons_of_mem _ mem, own⟩

theorem find?_foldl_add_cases (registry : Registry) (entities : List Entity) (dsuid : Dsuid) :
    (entities.foldl add registry).find? dsuid = registry.find? dsuid ∨
    registry.find? dsuid = none ∧ ∃ e ∈ entities, e.dsuid = dsuid ∧
      (entities.foldl add registry).find? dsuid = some e := by
  cases before : registry.find? dsuid with
  | some found => exact Or.inl (find?_foldl_add_of_found entities before)
  | none =>
    cases after : (entities.foldl add registry).find? dsuid with
    | none => exact Or.inl rfl
    | some e =>
      rcases find?_foldl_add after with there | ⟨mem, own⟩
      · cases before.symm.trans there
      · exact Or.inr ⟨rfl, e, mem, own, rfl⟩

/-- Only the entity itself is removed, and only under the given identifier. -/
theorem find?_removeIfSame {registry : Registry} {dsuid other : Dsuid} {e found : Entity} :
    (registry.removeIfSame dsuid e).2.find? other = some found ↔
      registry.find? other = some found ∧ ¬ (other = dsuid ∧ found.object = e.object) := by
  unfold removeIfSame
  split
  · rename_i current here
    by_cases own : other = dsuid
    · subst own
      split
      · rename_i same
        simp only [Table.find?_erase_self, here]
        grind
      · rename_i different
        simp only [here]
        grind
    · split
      · simp [Table.find?_erase_of_ne registry own, own]
      · simp [own]
  · rename_i free
    constructor
    · intro there
      refine ⟨there, ?_⟩
      rintro ⟨rfl, -⟩
      cases free.symm.trans there
    · exact And.left

end Registry

end DeviceConnector
