import DeviceConnector.Identifier.HardwareAddress
import DeviceConnector.Proofs.Text.Reading
import Mathlib.Data.List.Nodup
/-!
# The interface whose address is taken

The network interfaces are entries of a directory, which lists them in any order. The address that
is taken is that of the first entry by name among those that offer one, so the order makes no
difference.
-/

namespace DeviceConnector.HardwareAddress

open Text

variable {entries listed : List Entry} {e e' : Entry} {v w : Nat}

/-- The entry is not the loopback and has a text, which is read as the address between its blanks.
The address zero is none. -/
structure Entry.Offers (e : Entry) (v : Nat) : Prop where
  name : e.name ≠ loopback
  address : ∃ text inner, e.address = some text ∧ IsTrimmed text.toList inner ∧
    parse? inner = some v
  nonzero : v ≠ 0

theorem Entry.usable?_eq_some_iff : e.usable? = some v ↔ e.Offers v := by
  rw [usable?, Option.ite_none_left_eq_some, Option.bind_eq_some_iff]
  simp only [Option.filter_eq_some_iff, decide_eq_true_eq]
  constructor
  · rintro ⟨name, text, address, read, nonzero⟩
    exact ⟨name, ⟨text, _, address, isTrimmed_trim _, read⟩, nonzero⟩
  · rintro ⟨name, ⟨text, inner, address, trimmed, read⟩, nonzero⟩
    refine ⟨name, text, address, ?_, nonzero⟩
    rw [trimmed.trim_eq, read]

theorem Entry.Offers.unique (offers : e.Offers v) (offers' : e.Offers w) : v = w := by
  rw [← Entry.usable?_eq_some_iff] at offers offers'
  exact Option.some.inj (offers.symm.trans offers')

structure IsFirst (entries : List Entry) (e : Entry) (v : Nat) : Prop where
  mem : e ∈ entries
  offers : e.Offers v
  least : ∀ e' ∈ entries, ∀ w, e'.Offers w → e.name ≤ e'.name

theorem pairwise_mergeSort_name (entries : List Entry) :
    (entries.mergeSort fun a b => decide (a.name ≤ b.name)).Pairwise
      fun a b => a.name ≤ b.name := by
  have trans (a b c : Entry) (first : decide (a.name ≤ b.name) = true)
      (second : decide (b.name ≤ c.name) = true) : decide (a.name ≤ c.name) = true :=
    decide_eq_true (List.le_trans (of_decide_eq_true first) (of_decide_eq_true second))
  have total (a b : Entry) : (decide (a.name ≤ b.name) || decide (b.name ≤ a.name)) = true := by
    rw [Bool.or_eq_true, decide_eq_true_eq, decide_eq_true_eq]
    exact List.le_total _ _
  exact (List.pairwise_mergeSort trans total entries).imp of_decide_eq_true

/-- Entries that offer nothing are passed over wherever they stand. -/
theorem exists_isFirst (found : ofDirectory? (some entries) = some v) :
    ∃ e, IsFirst entries e v := by
  obtain ⟨before, e, behind, sorted, usable, skipped⟩ := List.findSome?_eq_some_iff.1 found
  have pairwise := pairwise_mergeSort_name entries
  have mem (e' : Entry) : e' ∈ entries ↔ e' ∈ before ++ e :: behind := by
    rw [← sorted, List.mem_mergeSort]
  rw [sorted, List.pairwise_append, List.pairwise_cons] at pairwise
  refine ⟨e, (mem e).2 (by simp), Entry.usable?_eq_some_iff.1 usable, ?_⟩
  intro e' listed w offers
  rcases List.mem_append.1 ((mem e').1 listed) with earlier | later
  · rw [← Entry.usable?_eq_some_iff, skipped e' earlier] at offers
    cases offers
  · rcases List.mem_cons.1 later with rfl | later
    · exact List.le_refl _
    · exact pairwise.2.1.1 e' later

theorem ofDirectory?_some_eq_none_iff :
    ofDirectory? (some entries) = none ↔ ∀ e ∈ entries, ∀ v, ¬ e.Offers v := by
  rw [ofDirectory?, Option.bind_some, List.findSome?_eq_none_iff]
  simp only [List.mem_mergeSort, Option.eq_none_iff_forall_ne_some, ne_eq,
    Entry.usable?_eq_some_iff]

/-- Names tell the entries apart, so two of them cannot both be first. -/
theorem IsFirst.unique (distinct : (entries.map Entry.name).Nodup) (first : IsFirst entries e v)
    (first' : IsFirst entries e' w) : v = w := by
  have same : e.name = e'.name :=
    List.le_antisymm (first.least e' first'.mem w first'.offers)
      (first'.least e first.mem v first.offers)
  obtain rfl := List.inj_on_of_nodup_map distinct first.mem first'.mem same
  exact first.offers.unique first'.offers

theorem ofDirectory?_eq_some_iff (distinct : (entries.map Entry.name).Nodup) :
    ofDirectory? (some entries) = some v ↔ ∃ e, IsFirst entries e v := by
  constructor
  · exact exists_isFirst
  · rintro ⟨e, first⟩
    cases found : ofDirectory? (some entries) with
    | none => exact absurd first.offers (ofDirectory?_some_eq_none_iff.1 found e first.mem v)
    | some w =>
      obtain ⟨e', first'⟩ := exists_isFirst found
      rw [first'.unique distinct first]

theorem IsFirst.of_perm (perm : listed.Perm entries) (first : IsFirst listed e v) :
    IsFirst entries e v where
  mem := perm.mem_iff.1 first.mem
  offers := first.offers
  least e' mem w offers := first.least e' (perm.mem_iff.2 mem) w offers

theorem ofDirectory?_perm (distinct : (entries.map Entry.name).Nodup)
    (perm : listed.Perm entries) : ofDirectory? (some listed) = ofDirectory? (some entries) := by
  have distinct' : (listed.map Entry.name).Nodup := (perm.map Entry.name).nodup_iff.2 distinct
  apply Option.ext
  intro v
  rw [ofDirectory?_eq_some_iff distinct', ofDirectory?_eq_some_iff distinct]
  exact ⟨fun ⟨e, first⟩ => ⟨e, first.of_perm perm⟩,
    fun ⟨e, first⟩ => ⟨e, first.of_perm perm.symm⟩⟩

/-- However the entries of a directory are listed, the same address is taken from it: that of the
entry with the least name among those that offer one. None is taken exactly if the directory cannot
be read or none of its entries offers one. -/
theorem directory_order_immaterial :
    (∀ entries : List Entry, (entries.map Entry.name).Nodup →
      (∀ listed : List Entry, listed.Perm entries →
        ofDirectory? (some listed) = ofDirectory? (some entries)) ∧
      ∀ v, ofDirectory? (some entries) = some v ↔ ∃ e, IsFirst entries e v) ∧
    ∀ directory, ofDirectory? directory = none ↔
      directory = none ∨
        ∃ entries, directory = some entries ∧ ∀ e ∈ entries, ∀ v, ¬ e.Offers v := by
  refine ⟨?_, ?_⟩
  · intro entries distinct
    exact ⟨fun _ => ofDirectory?_perm distinct, fun _ => ofDirectory?_eq_some_iff distinct⟩
  · intro directory
    cases directory with
    | none => simp [ofDirectory?]
    | some entries => simp [ofDirectory?_some_eq_none_iff]

/-- The address is that of the wireless interface, in either order. By name the loopback comes
before it, one without an address file, one with the address zero and one with an empty file, and
behind it one whose name is no text. -/
theorem directory_order_immaterial_wireless :
    let named (name : String) (address : Option String) : Entry :=
      { name := name.toUTF8.data.toList, address }
    let loopback := named "lo" (some "02:00:00:00:00:01")
    let wireless := named "wlan0" (some "\t00:1a:2b:3c:4d:5E \n")
    let idle := [named "eth0" none, named "eth1" (some "00:00:00:00:00:00\n"),
      named "tun0" (some "")]
    let entries := { name := [0xFF], address := some "02:00:00:00:00:02" } ::
      wireless :: loopback :: idle
    (entries.map Entry.name).Nodup ∧ IsFirst entries wireless 0x001A2B3C4D5E ∧
      ofDirectory? (some entries) = some 0x001A2B3C4D5E ∧
      ofDirectory? (some entries.reverse) = some 0x001A2B3C4D5E ∧
      ofDirectory? (some (loopback :: idle)) = none ∧ ofDirectory? none = none := by
  intro named loopback wireless idle entries
  obtain ⟨listings, untaken⟩ := directory_order_immaterial
  have silent : ∀ e ∈ loopback :: idle, e.usable? = none := by
    decide +kernel
  have silent : ∀ e ∈ loopback :: idle, ∀ v, ¬ e.Offers v := by
    intro e mem v offers
    rw [← Entry.usable?_eq_some_iff, silent e mem] at offers
    cases offers
  have first : IsFirst entries wireless 0x001A2B3C4D5E := by
    refine ⟨by simp [entries], Entry.usable?_eq_some_iff.1 (by decide +kernel), ?_⟩
    intro e mem v offers
    rcases List.mem_cons.1 mem with rfl | mem
    · decide +kernel
    · rcases List.mem_cons.1 mem with rfl | mem
      · exact List.le_refl _
      · exact absurd offers (silent e mem v)
  have distinct : (entries.map Entry.name).Nodup := by decide +kernel
  obtain ⟨orders, taken⟩ := listings entries distinct
  have found := (taken _).2 ⟨wireless, first⟩
  refine ⟨distinct, first, found, ?_, ?_, ?_⟩
  · rw [orders _ entries.reverse_perm, found]
  · exact (untaken _).2 (Or.inr ⟨_, rfl, silent⟩)
  · exact (untaken _).2 (Or.inl rfl)

end DeviceConnector.HardwareAddress
