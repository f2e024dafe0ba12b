import DeviceConnector.Identifier.Text
import DeviceConnector.Proofs.Text.Reading
import Mathlib.Algebra.Group.Nat.Defs
/-!
# Identifiers come back from their texts

The canonical text of an identifier has no blanks and 34 digits, of which the first 32 write the
unique id. So it is read as the identifier with that unique id.
-/

namespace DeviceConnector

namespace Text

theorem digitsValue_concat (radix : Nat) (digits : List Nat) (d : Nat) :
    digitsValue radix (digits ++ [d]) = digitsValue radix digits * radix + d := by
  simp [digitsValue]

/-- Reading the written digits gives the number modulo what the width can hold. -/
theorem digitsValue_fixedDigits (radix width n : Nat) :
    digitsValue radix (fixedDigits radix width n) = n % radix ^ width := by
  induction width generalizing n with
  | zero => simp [fixedDigits, digitsValue, Nat.mod_one]
  | succ width ih =>
    rw [fixedDigits, digitsValue_concat, ih, Nat.pow_succ', Nat.mod_mul, Nat.mul_comm, Nat.add_comm]

theorem lt_of_mem_fixedDigits {radix width n d : Nat} (positive : 0 < radix)
    (mem : d ∈ fixedDigits radix width n) : d < radix := by
  induction width generalizing n with
  | zero => cases mem
  | succ width ih =>
    rw [fixedDigits, List.mem_append] at mem
    rcases mem with earlier | last
    · exact ih earlier
    · rw [List.mem_singleton.1 last]
      exact Nat.mod_lt n positive

/-- An uppercase digit is read as its value, and it is one byte long and no blank. -/
theorem upperDigit_spec : ∀ d < 16, hexValue? (upperDigit d) = some d ∧
    isBlank (upperDigit d) = false ∧ (upperDigit d).utf8Size = 1 := by
  decide

def WritesDigits (digit : Nat → Char) : Prop := ∀ d < 16, hexValue? (digit d) = some d

theorem writesDigits_upperDigit : WritesDigits upperDigit := by
  intro d small
  exact (upperDigit_spec d small).1

theorem WritesDigits.filterMap_fixedDigits {digit : Nat → Char} (writes : WritesDigits digit)
    (width n : Nat) :
    ((fixedDigits 16 width n).map digit).filterMap hexValue? = fixedDigits 16 width n := by
  induction width generalizing n with
  | zero => rfl
  | succ width ih =>
    have last := writes (n % 16) (Nat.mod_lt n (by decide))
    simp [fixedDigits, ih, last]

theorem filterMap_upperHex (width n : Nat) :
    (upperHex width n).filterMap hexValue? = fixedDigits 16 width n :=
  writesDigits_upperDigit.filterMap_fixedDigits width n

theorem byteLength_eq_length (text : List Char) :
    byteLength text = (text.flatMap String.utf8EncodeChar).length := by
  induction text with
  | nil => rfl
  | cons c text ih =>
    rw [List.flatMap_cons, List.length_append, ← ih, String.length_utf8EncodeChar]
    rfl

/-- Trimming takes the blanks from both ends of a text that has none within. -/
theorem trim_surrounded {text front back : List Char} (before : ∀ c ∈ front, isBlank c = true)
    (solid : ∀ c ∈ text, isBlank c = false) (behind : ∀ c ∈ back, isBlank c = true) :
    trim (front ++ text ++ back) = text := by
  refine IsTrimmed.trim_eq ⟨⟨front, back, rfl, before, behind⟩, ?_, ?_⟩
  · intro c head
    exact solid c (List.mem_of_head? head)
  · intro c last
    exact solid c (List.mem_of_getLast? last)

theorem trim_of_no_blank {text : List Char} (solid : ∀ c ∈ text, isBlank c = false) :
    trim text = text := by
  have bare : trim ([] ++ text ++ []) = text := trim_surrounded (by simp) solid (by simp)
  rwa [List.nil_append, List.append_nil] at bare

end Text

namespace Dsuid

open Text

theorem mem_digits {d : Dsuid} {c : Char} (mem : c ∈ d.digits) : ∃ n < 16, c = upperDigit n := by
  rw [digits, List.mem_append] at mem
  rcases mem with unique | tag
  · obtain ⟨n, mem, rfl⟩ := List.mem_map.1 unique
    exact ⟨n, lt_of_mem_fixedDigits (by decide) mem, rfl⟩
  · have zero : c = '0' := by simpa using tag
    exact ⟨0, by decide, zero⟩

theorem length_digits (d : Dsuid) : d.digits.length = 34 := by
  simp [digits, upperHex]

theorem take_digits (d : Dsuid) : d.digits.take 32 = upperHex 32 d.uuid.toNat := by
  rw [digits, List.take_left' (by simp [upperHex])]

theorem byteLength_digits (d : Dsuid) : byteLength d.digits = 34 := by
  have single (digits : List Char) (plain : ∀ c ∈ digits, c.utf8Size = 1) :
      byteLength digits = digits.length := by
    induction digits with
    | nil => rfl
    | cons c digits ih =>
      have first := plain c (List.mem_cons_self ..)
      have rest := ih fun c mem => plain c (List.mem_cons_of_mem _ mem)
      rw [byteLength] at rest ⊢
      rw [List.foldr_cons, rest, first, List.length_cons, Nat.add_comm]
  rw [single, length_digits]
  intro c mem
  obtain ⟨n, small, rfl⟩ := mem_digits mem
  exact (upperDigit_spec n small).2.2

/-- The text of an identifier names its unique id. -/
theorem parse?_text (d : Dsuid) : parse? d.text = some (ofUuid d.uuid) := by
  have trimmed : trim d.text.toList = d.digits := by
    rw [text, String.toList_ofList]
    refine trim_of_no_blank fun c mem => ?_
    obtain ⟨n, small, rfl⟩ := mem_digits mem
    exact (upperDigit_spec n small).2.1
  have hexadecimal : d.digits.all isHexDigit = true := by
    rw [List.all_eq_true]
    intro c mem
    obtain ⟨n, small, rfl⟩ := mem_digits mem
    simp [isHexDigit, (upperDigit_spec n small).1]
  have value : BitVec.ofNat 128 (digitsValue 16 ((d.digits.take 32).filterMap hexValue?)) =
      d.uuid := by
    rw [take_digits, filterMap_upperHex, digitsValue_fixedDigits]
    apply BitVec.eq_of_toNat_eq
    have bound := d.uuid.isLt
    rw [BitVec.toNat_ofNat]
    omega
  rw [parse?, parse, trimmed, ofDigits]
  simp [byteLength_digits, hexadecimal, value, Except.toOption]

end Dsuid

end DeviceConnector
