import DeviceConnector.Identifier.Minting
import DeviceConnector.Proofs.Identifier.Canonical
import DeviceConnector.Proofs.Identifier.TimeBased
/-!
# The order of identifiers

Identifiers come in the order of their unique ids, which is that of their bytes and that of their
texts. So it makes no difference which of these a list of identifiers is sorted by.
-/

namespace DeviceConnector

namespace Text

section

variable {α β : Type} [Ord α] [Ord β] {xs ys : List α}

/-- Sequences are compared part by part where their first parts are equally long. -/
theorem compare_append (same : xs.length = ys.length) (xs' ys' : List α) :
    compare (xs ++ xs') (ys ++ ys') = (compare xs ys).then (compare xs' ys') := by
  induction xs generalizing ys with
  | nil =>
    obtain rfl := List.length_eq_zero_iff.1 same.symm
    rfl
  | cons x xs ih =>
    cases ys with
    | nil => cases same
    | cons y ys =>
      rw [List.length_cons, List.length_cons, Nat.add_right_cancel_iff] at same
      rw [List.cons_append, List.cons_append, List.compare_cons_cons, List.compare_cons_cons,
        ih same, Ordering.then_assoc]

theorem compare_singleton (x y : α) : compare [x] [y] = compare x y := by
  rw [List.compare_cons_cons]
  cases compare x y <;> rfl

/-- An order is kept by spelling the elements in a way that keeps it. -/
theorem compare_map {spell : α → β}
    (keeps : ∀ x ∈ xs, ∀ y ∈ ys, compare (spell x) (spell y) = compare x y) :
    compare (xs.map spell) (ys.map spell) = compare xs ys := by
  induction xs generalizing ys with
  | nil => cases ys <;> rfl
  | cons x xs ih =>
    cases ys with
    | nil => rfl
    | cons y ys =>
      rw [List.map_cons, List.map_cons, List.compare_cons_cons, List.compare_cons_cons,
        keeps x (List.mem_cons_self ..) y (List.mem_cons_self ..),
        ih fun x mem y mem' => keeps x (List.mem_cons_of_mem _ mem) y (List.mem_cons_of_mem _ mem')]

end

/-- Texts are compared character by character. -/
theorem compare_toList (s t : String) : compare s t = compare s.toList t.toList := by
  have smaller (xs ys : List Char) : compare xs ys = .lt ↔ xs < ys := by
    induction xs generalizing ys with
    | nil => cases ys <;> simp
    | cons x xs ih =>
      cases ys with
      | nil => simp
      | cons y ys =>
        have first : compare x y = .lt ↔ x < y := compareOfLessAndEq_eq_lt
        rw [List.compare_cons_cons, Ordering.then_eq_lt, List.cons_lt_cons_iff, ih,
          Std.compare_eq_iff_eq, first]
  have less (s t : String) : compare s t = .lt ↔ compare s.toList t.toList = .lt := by
    have before : compare s t = .lt ↔ s < t := compareOfLessAndEq_eq_lt
    rw [before, smaller]
    rfl
  rcases order : compare s t with _ | _ | _
  · exact ((less s t).1 order).symm
  · obtain rfl := Std.compare_eq_iff_eq.1 order
    exact Std.compare_self.symm
  · rw [Std.OrientedCmp.gt_iff_lt, less] at order
    exact (Std.OrientedCmp.gt_iff_lt.2 order).symm

variable {radix width n m : Nat}

/-- Numbers are compared by all digits but the last, and then by the last. -/
theorem compare_div_mod (radix n m : Nat) :
    compare n m = (compare (n / radix) (m / radix)).then (compare (n % radix) (m % radix)) := by
  have high := Nat.div_add_mod n radix
  have high' := Nat.div_add_mod m radix
  rcases Nat.lt_trichotomy (n / radix) (m / radix) with lt | eq | gt
  · rw [Nat.compare_eq_lt.2 lt, Nat.compare_eq_lt.2 (Nat.lt_of_div_lt_div lt)]
    rfl
  · rw [Nat.compare_eq_eq.2 eq, Ordering.eq_then]
    rw [eq] at high
    rcases Nat.lt_trichotomy (n % radix) (m % radix) with lt | same | gt
    · rw [Nat.compare_eq_lt.2 lt, Nat.compare_eq_lt.2 (by omega)]
    · rw [Nat.compare_eq_eq.2 same, Nat.compare_eq_eq.2 (by omega)]
    · rw [Nat.compare_eq_gt.2 gt, Nat.compare_eq_gt.2 (by omega)]
  · rw [Nat.compare_eq_gt.2 gt, Nat.compare_eq_gt.2 (Nat.lt_of_div_lt_div gt)]
    rfl

theorem compare_fixedDigits (radix : Nat) (small : n < radix ^ width) (small' : m < radix ^ width) :
    compare (fixedDigits radix width n) (fixedDigits radix width m) = compare n m := by
  induction width generalizing n m with
  | zero =>
    obtain rfl : n = 0 := by simpa using small
    obtain rfl : m = 0 := by simpa using small'
    rfl
  | succ width ih =>
    have high {n : Nat} (small : n < radix ^ (width + 1)) : n / radix < radix ^ width :=
      Nat.div_lt_of_lt_mul (by rwa [Nat.pow_succ'] at small)
    rw [fixedDigits, fixedDigits, compare_append (by simp), compare_singleton,
      ih (high small) (high small'), ← compare_div_mod]

theorem compare_toNat (b c : UInt8) : compare b c = compare b.toNat c.toNat := by
  change compareOfLessAndEq b c = compareOfLessAndEq b.toNat c.toNat
  simp only [compareOfLessAndEq, UInt8.lt_iff_toNat_lt, UInt8.toNat_inj]

theorem compare_bigEndian (small : n < 256 ^ width) (small' : m < 256 ^ width) :
    compare (bigEndian width n) (bigEndian width m) = compare n m := by
  rw [bigEndian, bigEndian, compare_map, compare_fixedDigits 256 small small']
  intro x mem y mem'
  have byte {d n : Nat} (mem : d ∈ fixedDigits 256 width n) : (UInt8.ofNat d).toNat = d := by
    rw [UInt8.toNat_ofNat']
    exact Nat.mod_eq_of_lt (lt_of_mem_fixedDigits (by decide) mem)
  rw [compare_toNat, byte mem, byte mem']

/-- In the order of characters the capitals stand behind the decimal digits. -/
theorem compare_upperDigit : ∀ x < 16, ∀ y < 16,
    compare (upperDigit x) (upperDigit y) = compare x y := by
  decide

theorem compare_upperHex (small : n < 16 ^ width) (small' : m < 16 ^ width) :
    compare (upperHex width n) (upperHex width m) = compare n m := by
  rw [upperHex, upperHex, compare_map, compare_fixedDigits 16 small small']
  intro x mem y mem'
  exact compare_upperDigit x (lt_of_mem_fixedDigits (by decide) mem) y
    (lt_of_mem_fixedDigits (by decide) mem')

end Text

namespace Dsuid

open Text

variable {a b : Dsuid}

inductive Obtained : Dsuid → Prop where
  | wrapped (uuid : BitVec 128) : Obtained (ofUuid uuid)
  | random (bits : BitVec 128) : Obtained (ofRandom bits)
  | ofNameMd5 (ns : Namespace) (name : String) : Obtained (ofNameMd5 ns name)
  | ofNameSha1 (ns : Namespace) (name : String) : Obtained (ofNameSha1 ns name)
  | minted (m : Minter) (millis : BitVec 64) : Obtained (m.mint millis).1
  | parsed {text : String} {d : Dsuid} (read : parse text = .ok d) : Obtained d

theorem Obtained.kind_eq {d : Dsuid} (obtained : Obtained d) : d.kind = .uuid := by
  cases obtained with
  | parsed read =>
    obtain ⟨-, -, rfl⟩ := ofDigits_eq_ok_iff.1 read
    rfl
  | _ => rfl

theorem compare_of_kind_eq (same : a.kind = b.kind) :
    compare a b = compare a.uuid.toNat b.uuid.toNat := by
  have whole : compare a b =
      (compare a.uuid.toNat b.uuid.toNat).then (compare a.kind.rank b.kind.rank) := rfl
  rw [whole, same, Std.compare_self, Ordering.then_eq]

/-- Values are compared by their bytes and then by their kinds. -/
theorem compare_eq_bytes (a b : Dsuid) : compare a b =
    (compare (bigEndian 16 a.uuid.toNat) (bigEndian 16 b.uuid.toNat)).then
      (compare a.kind.rank b.kind.rank) := by
  rw [compare_bigEndian a.uuid.isLt b.uuid.isLt]
  rfl

theorem compare_toBytes (a b : Dsuid) :
    compare a.toBytes b.toBytes = compare a.uuid.toNat b.uuid.toNat := by
  rw [toBytes, toBytes, compare_append (by simp [bigEndian]), Std.compare_self, Ordering.then_eq,
    compare_bigEndian a.uuid.isLt b.uuid.isLt]

theorem compare_text (a b : Dsuid) :
    compare a.text b.text = compare a.uuid.toNat b.uuid.toNat := by
  rw [compare_toList, text, text, String.toList_ofList, String.toList_ofList, digits, digits,
    compare_append (by simp [upperHex]), Std.compare_self, Ordering.then_eq,
    compare_upperHex a.uuid.isLt b.uuid.isLt]

/-- A value is ranked by its unique id and then by its kind. -/
theorem compare_eq_rank (a b : Dsuid) : compare a b = compare a.rank b.rank := by
  have parts (d : Dsuid) : d.rank / 3 = d.uuid.toNat ∧ d.rank % 3 = d.kind.rank := by
    have three : d.kind.rank < 3 := by cases d.kind <;> decide
    unfold rank
    omega
  rw [compare_div_mod 3, (parts a).1, (parts a).2, (parts b).1, (parts b).2]
  rfl

def byValue (a b : Dsuid) : Bool := (compare a b).isLE

def byText (a b : Dsuid) : Bool := (compare a.text b.text).isLE

/-- What a list is sorted by, if it is sorted by a key. -/
theorem pairwise_mergeSort_key {κ : Type} [Ord κ] [Std.TransOrd κ] (key : Dsuid → κ)
    (ids : List Dsuid) :
    (ids.mergeSort fun a b => (compare (key a) (key b)).isLE).Pairwise fun a b =>
      (compare (key a) (key b)).isLE = true := by
  apply List.pairwise_mergeSort
  · intro a b c first second
    exact Std.TransCmp.isLE_trans first second
  · intro a b
    have swapped : compare (key b) (key a) = (compare (key a) (key b)).swap :=
      Std.OrientedCmp.eq_swap
    rw [swapped]
    cases compare (key a) (key b) <;> rfl

/-- Two identifiers that do not come before each other are the same. -/
theorem eq_of_byValue (first : byValue a b = true) (second : byValue b a = true) : a = b := by
  rw [byValue, compare_eq_rank, Nat.isLE_compare] at first second
  exact rank_injective (Nat.le_antisymm first second)

theorem byText_eq_byValue (first : Obtained a) (second : Obtained b) :
    byText a b = byValue a b := by
  rw [byText, byValue, compare_text, compare_of_kind_eq (first.kind_eq.trans second.kind_eq.symm)]

/-- A list of identifiers has one sorted order, be it by value or by text. -/
theorem eq_of_sorted {ids sorted sorted' : List Dsuid} (obtained : ∀ d ∈ ids, Obtained d)
    (perm : sorted.Perm ids) (perm' : sorted'.Perm ids)
    (values : sorted.Pairwise fun a b => byValue a b = true)
    (texts : sorted'.Pairwise fun a b => byText a b = true) : sorted = sorted' := by
  have texts : sorted'.Pairwise fun a b => byValue a b = true := by
    refine texts.imp_of_mem fun {a b} mem mem' le => ?_
    rwa [byText_eq_byValue (obtained a (perm'.subset mem)) (obtained b (perm'.subset mem'))] at le
  apply List.Perm.eq_of_pairwise _ values texts (perm.trans perm'.symm)
  intro a b _ _ first second
  exact eq_of_byValue first second

/-- Identifiers are compared by the bytes of their unique ids and then by their kinds. However they
have come about, their binary forms and their texts are in the same order as they are, so that a
list of them is the same whether it is sorted by value or by text. -/
theorem order_of_texts :
    (∀ a b : Dsuid, compare a b =
      (compare (bigEndian 16 a.uuid.toNat) (bigEndian 16 b.uuid.toNat)).then
        (compare a.kind.rank b.kind.rank)) ∧
    (∀ a b, Obtained a → Obtained b →
      compare a.toBytes b.toBytes = compare a b ∧ compare a.text b.text = compare a b) ∧
    ∀ ids : List Dsuid, (∀ d ∈ ids, Obtained d) →
      ids.mergeSort byValue = ids.mergeSort byText ∧
      ∀ sorted sorted' : List Dsuid, sorted.Perm ids → sorted'.Perm ids →
        sorted.Pairwise (fun a b => byValue a b = true) →
        sorted'.Pairwise (fun a b => byText a b = true) → sorted = sorted' := by
  refine ⟨compare_eq_bytes, ?_, ?_⟩
  · intro a b first second
    have values := compare_of_kind_eq (first.kind_eq.trans second.kind_eq.symm)
    exact ⟨(compare_toBytes a b).trans values.symm, (compare_text a b).trans values.symm⟩
  · intro ids obtained
    have values : (ids.mergeSort byValue).Pairwise fun a b => byValue a b = true := by
      have ranked : byValue = fun a b => (compare a.rank b.rank).isLE := by
        funext a b
        rw [byValue, compare_eq_rank]
      rw [ranked]
      exact pairwise_mergeSort_key rank ids
    have texts : (ids.mergeSort byText).Pairwise fun a b => byText a b = true :=
      pairwise_mergeSort_key text ids
    constructor
    · exact eq_of_sorted obtained (List.mergeSort_perm ids _) (List.mergeSort_perm ids _) values
        texts
    · intro sorted sorted' perm perm' values texts
      exact eq_of_sorted obtained perm perm' values texts

/-- An identifier that is read in small digits, one wrapped and one minted, of which two differ
first in a digit and a letter. -/
theorem order_of_texts_nine_before_a :
    let bare := "6123a881016010000000f2ca0deb3707"
    let nine := ofUuid 0x9FFFFFFFFFFFFFFFFFFFFFFFFFFFFFFF#128
    let letter := (Minter.mint { hostId := 0 } 0xA0000000#64).1
    let ids := [letter, defaultHost, nine]
    parse bare = .ok defaultHost ∧ letter.text = "A0000000000010000000000000000000" ++ "00" ∧
      compare nine letter = .lt ∧ compare nine.toBytes letter.toBytes = .lt ∧
      compare nine.text letter.text = .lt ∧
      ids.mergeSort byValue = ids.mergeSort byText ∧
      ids.mergeSort byText = [defaultHost, nine, letter] := by
  intro bare nine letter ids
  have host : parse bare = .ok defaultHost := by decide +kernel
  have obtained : ∀ d ∈ ids, Obtained d := by
    simp only [ids, List.forall_mem_cons]
    exact ⟨.minted _ _, .parsed host, .wrapped _, by simp⟩
  obtain ⟨-, alike, sorts⟩ := order_of_texts
  obtain ⟨same, unique⟩ := sorts ids obtained
  obtain ⟨bytes, texts⟩ := alike nine letter (.wrapped _) (.minted _ _)
  have less : compare nine letter = .lt := by decide +kernel
  refine ⟨host, by decide +kernel, less, bytes.trans less, texts.trans less, same, ?_⟩
  exact (unique [defaultHost, nine, letter] _ (by decide +kernel) (List.mergeSort_perm ids _)
    (by decide +kernel) (pairwise_mergeSort_key text ids)).symm

end Dsuid

end DeviceConnector
