/-!
# Tables

Finite maps as lists of entries in ascending order of their keys, each key occurring once. Two
tables with the same entries are equal, and walking a table visits the keys in order.
-/

namespace DeviceConnector

/-- Keys that are ordered by a number of their own. -/
class Ranked (κ : Type) where
  rank : κ → Nat
  rank_injective : ∀ {a b : κ}, rank a = rank b → a = b

open Ranked

theorem Ranked.rank_inj {κ : Type} [Ranked κ] {a b : κ} : rank a = rank b ↔ a = b :=
  ⟨rank_injective, fun same => same ▸ rfl⟩

instance : Ranked Nat where
  rank := id
  rank_injective h := h

instance : Ranked UInt32 where
  rank := UInt32.toNat
  rank_injective h := UInt32.toNat_inj.1 h

structure Table (κ ν : Type) [Ranked κ] where
  entries : List (κ × ν)
  ascending : entries.Pairwise fun a b => rank a.1 < rank b.1

namespace Table

variable {κ ν : Type} [Ranked κ]

def empty : Table κ ν := ⟨[], .nil⟩

instance : Inhabited (Table κ ν) := ⟨empty⟩

instance : EmptyCollection (Table κ ν) := ⟨empty⟩

/-- The entry list with a key's value replaced or put in its place. -/
def insertEntry (key : κ) (value : ν) : List (κ × ν) → List (κ × ν)
  | [] => [(key, value)]
  | entry :: rest =>
    if rank key < rank entry.1 then (key, value) :: entry :: rest
    else if rank entry.1 < rank key then entry :: insertEntry key value rest
    else (key, value) :: rest

theorem mem_insertEntry {key : κ} {value : ν} {entries : List (κ × ν)} {entry : κ × ν}
    (h : entry ∈ insertEntry key value entries) : entry = (key, value) ∨ entry ∈ entries := by
  induction entries with
  | nil => simpa [insertEntry] using h
  | cons first rest ih =>
    simp only [insertEntry] at h
    split at h
    · simpa using h
    · split at h
      · rcases List.mem_cons.1 h with h | h
        · exact .inr (h ▸ List.mem_cons_self ..)
        · exact (ih h).imp_right (List.mem_cons_of_mem _)
      · exact (List.mem_cons.1 h).imp_right (List.mem_cons_of_mem _)

theorem ascending_insertEntry (key : κ) (value : ν) {entries : List (κ × ν)}
    (h : entries.Pairwise fun a b => rank a.1 < rank b.1) :
    (insertEntry key value entries).Pairwise fun a b => rank a.1 < rank b.1 := by
  induction entries with
  | nil => simp [insertEntry]
  | cons first rest ih =>
    rw [List.pairwise_cons] at h
    simp only [insertEntry]
    split
    next lt =>
      refine List.pairwise_cons.2 ⟨fun entry mem => ?_, List.pairwise_cons.2 h⟩
      rcases List.mem_cons.1 mem with rfl | mem
      · exact lt
      · exact Nat.lt_trans lt (h.1 entry mem)
    next ge =>
      split
      next gt =>
        refine List.pairwise_cons.2 ⟨fun entry mem => ?_, ih h.2⟩
        rcases mem_insertEntry mem with rfl | mem
        · exact gt
        · exact h.1 entry mem
      next le =>
        have eq : rank key = rank first.1 := by omega
        exact List.pairwise_cons.2 ⟨fun entry mem => eq ▸ h.1 entry mem, h.2⟩

def find? (table : Table κ ν) (key : κ) : Option ν :=
  (table.entries.find? fun entry => rank entry.1 == rank key).map (·.2)

def contains (table : Table κ ν) (key : κ) : Bool := (table.find? key).isSome

def insert (table : Table κ ν) (key : κ) (value : ν) : Table κ ν :=
  ⟨insertEntry key value table.entries, ascending_insertEntry key value table.ascending⟩

def filter (table : Table κ ν) (keep : κ → ν → Bool) : Table κ ν :=
  ⟨table.entries.filter fun entry => keep entry.1 entry.2, table.ascending.filter _⟩

def erase (table : Table κ ν) (key : κ) : Table κ ν :=
  table.filter fun k _ => rank k != rank key

def size (table : Table κ ν) : Nat := table.entries.length

/-- The values in ascending order of their keys. -/
def values (table : Table κ ν) : List ν := table.entries.map (·.2)

def keys (table : Table κ ν) : List κ := table.entries.map (·.1)

@[simp]
theorem find?_empty (key : κ) : (∅ : Table κ ν).find? key = none := rfl

theorem find?_insertEntry_self (key : κ) (value : ν) (entries : List (κ × ν)) :
    (insertEntry key value entries).find? (fun entry => rank entry.1 == rank key) =
      some (key, value) := by
  induction entries with
  | nil => simp [insertEntry]
  | cons first rest ih =>
    simp only [insertEntry]
    split
    · simp
    · split
      next gt => rw [List.find?_cons_of_neg (by simpa using Nat.ne_of_lt gt), ih]
      next => simp

theorem find?_insertEntry_of_ne {key other : κ} (ne : other ≠ key) (value : ν)
    (entries : List (κ × ν)) :
    (insertEntry key value entries).find? (fun entry => rank entry.1 == rank other) =
      entries.find? fun entry => rank entry.1 == rank other := by
  have apart : rank key ≠ rank other := fun same => ne (rank_injective same).symm
  induction entries with
  | nil => simp [insertEntry, apart]
  | cons first rest ih =>
    simp only [insertEntry]
    split
    · simp [List.find?_cons, apart]
    · split
      · simp only [List.find?_cons, ih]
      next ge le =>
        have same : rank first.1 = rank key := by omega
        simp [apart, same]

@[simp]
theorem find?_insert_self (table : Table κ ν) (key : κ) (value : ν) :
    (table.insert key value).find? key = some value := by
  simp [find?, insert, find?_insertEntry_self]

theorem find?_insert_of_ne (table : Table κ ν) {key other : κ} (ne : other ≠ key) (value : ν) :
    (table.insert key value).find? other = table.find? other := by
  simp [find?, insert, find?_insertEntry_of_ne ne]

@[simp]
theorem find?_erase_self (table : Table κ ν) (key : κ) : (table.erase key).find? key = none := by
  simp [find?, erase, filter, List.find?_filter]

theorem find?_erase_of_ne (table : Table κ ν) {key other : κ} (ne : other ≠ key) :
    (table.erase key).find? other = table.find? other := by
  have apart : ¬ rank other = rank key := by simpa [rank_inj] using ne
  simp only [find?, erase, filter, List.find?_filter]
  congr 2
  funext entry
  by_cases same : rank entry.1 = rank other <;> simp [same, apart]

theorem mem_entries {table : Table κ ν} {key : κ} {value : ν} :
    (key, value) ∈ table.entries ↔ table.find? key = some value := by
  have unique : ∀ entries : List (κ × ν), entries.Pairwise (fun a b => rank a.1 < rank b.1) →
      ((key, value) ∈ entries ↔
        (entries.find? fun entry => rank entry.1 == rank key).map (·.2) = some value) := by
    intro entries ascending
    induction entries with
    | nil => simp
    | cons first rest ih =>
      rw [List.pairwise_cons] at ascending
      by_cases same : rank first.1 = rank key
      · have fresh : (key, value) ∉ rest := fun mem =>
          absurd (ascending.1 _ mem) (by simp [same])
        obtain ⟨k, v⟩ := first
        obtain rfl : k = key := rank_injective same
        simp [fresh, eq_comm]
      · have ne : (key, value) ≠ first := fun h => same (h ▸ rfl)
        rw [List.mem_cons, List.find?_cons_of_neg (by simpa using same), ← ih ascending.2]
        simp [ne]
  exact unique table.entries table.ascending

theorem mem_values {table : Table κ ν} {value : ν} :
    value ∈ table.values ↔ ∃ key, table.find? key = some value := by
  unfold values
  rw [List.mem_map]
  constructor
  · rintro ⟨⟨key, v⟩, mem, rfl⟩
    exact ⟨key, mem_entries.1 mem⟩
  · rintro ⟨key, found⟩
    exact ⟨(key, value), mem_entries.2 found, rfl⟩

theorem find?_filter {table : Table κ ν} {keep : κ → ν → Bool} {key : κ} {value : ν} :
    (table.filter keep).find? key = some value ↔
      table.find? key = some value ∧ keep key value = true := by
  rw [← mem_entries, ← mem_entries]
  exact List.mem_filter

theorem erase_insert (table : Table κ ν) (key : κ) (value : ν) :
    (table.insert key value).erase key = table.erase key := by
  have dropped : ∀ entries : List (κ × ν),
      (insertEntry key value entries).filter (fun entry => rank entry.1 != rank key) =
        entries.filter fun entry => rank entry.1 != rank key := by
    intro entries
    induction entries with
    | nil => simp [insertEntry]
    | cons first rest ih =>
      simp only [insertEntry]
      split
      · simp
      · split
        · simp only [List.filter_cons, ih]
        next ge le =>
          have same : rank first.1 = rank key := by omega
          simp [same]
  simp only [erase, filter, insert, dropped]

/-- Only a key that is there can be erased. -/
theorem erase_eq_self_iff {table : Table κ ν} {key : κ} :
    table.erase key = table ↔ table.find? key = none := by
  constructor
  · intro same
    rw [← same, find?_erase_self]
  · intro absent
    have apart : ∀ entry ∈ table.entries, rank entry.1 ≠ rank key := by
      rintro ⟨other, value⟩ mem same
      obtain rfl : other = key := rank_injective same
      cases absent.symm.trans (mem_entries.1 mem)
    have kept : table.entries.filter (fun entry => rank entry.1 != rank key) = table.entries := by
      apply List.filter_eq_self.2
      intro entry mem
      simpa using apart entry mem
    simp only [erase, filter, kept]

theorem find?_erase {table : Table κ ν} {key other : κ} {value : ν}
    (found : (table.erase key).find? other = some value) :
    other ≠ key ∧ table.find? other = some value := by
  have ne : other ≠ key := by
    rintro rfl
    simp at found
  exact ⟨ne, by rwa [find?_erase_of_ne table ne] at found⟩

end Table

end DeviceConnector
