import DeviceConnector.Identifier.HardwareAddress
import DeviceConnector.Proofs.Identifier.Canonical
import Mathlib.Data.List.Forall2
import Mathlib.Data.Nat.Digits.Defs
/-!
# The texts that are read as hardware addresses

An address is written as six octets joined by colons, each a plus sign or none and hexadecimal
digits of a value that fits into a byte. As long as the count of the parts does not wrap, exactly
these texts are read, as the number with these octets. Every number of 48 bits is read from its
two-digit form.
-/

namespace DeviceConnector

namespace Text

variable {text : List Char} {n : Nat}

def hexadecimalValue (digits : List Char) : Nat :=
  Nat.ofDigits 16 (digits.filterMap hexValue?).reverse

theorem digitsValue_eq_ofDigits (radix : Nat) (digits : List Nat) :
    digitsValue radix digits = Nat.ofDigits radix digits.reverse := by
  induction digits using List.reverseRecOn with
  | nil => rfl
  | append_singleton digits d ih =>
    rw [digitsValue_concat, List.reverse_append, List.reverse_singleton, List.singleton_append,
      Nat.ofDigits_cons, ih, Nat.mul_comm, Nat.add_comm]

theorem digitValue?_sixteen (c : Char) : digitValue? 16 c = hexValue? c := by
  rw [digitValue?]
  cases value : hexValue? c with
  | none => rfl
  | some v => exact Option.filter_some_pos (decide_eq_true (hexValue?_lt value))

theorem isNumeral_sixteen_iff : IsNumeral 16 text n ↔
    text ≠ [] ∧ (∀ c ∈ text, isHexDigit c = true) ∧ hexadecimalValue text = n := by
  rw [hexadecimalValue, ← digitsValue_eq_ofDigits]
  constructor
  · rintro ⟨nonempty, digits, same, value⟩
    rw [funext digitValue?_sixteen] at same
    obtain ⟨hex, rfl⟩ := map_eq_map_some_iff.1 same
    exact ⟨nonempty, hex, value⟩
  · rintro ⟨nonempty, hex, value⟩
    refine ⟨nonempty, _, ?_, value⟩
    rw [funext digitValue?_sixteen]
    exact map_eq_map_some_iff.2 ⟨hex, rfl⟩

/-- Signs are no letters, so no other character has one of them for its capital. -/
theorem toUpper_eq_iff {c sign : Char} (unlettered : sign = ':' ∨ sign = '+') :
    c.toUpper = sign ↔ c = sign := by
  by_cases ascii : c.toNat < 128
  · have checked : ∀ n < 128, ((Char.ofNat n).toUpper = ':' ↔ Char.ofNat n = ':') ∧
        ((Char.ofNat n).toUpper = '+' ↔ Char.ofNat n = '+') := by
      decide +kernel
    have here := checked c.toNat ascii
    rw [Char.ofNat_toNat] at here
    rcases unlettered with rfl | rfl
    · exact here.1
    · exact here.2
  · rw [toUpper_of_not_ascii (Nat.not_lt.1 ascii)]

theorem splitOn_toUpper (text : List Char) :
    (text.map Char.toUpper).splitOn ':' = (text.splitOn ':').map (·.map Char.toUpper) := by
  induction text with
  | nil => rfl
  | cons c text ih =>
    rw [List.map_cons, List.splitOn_cons_eq_if_modifyHead, List.splitOn_cons_eq_if_modifyHead, ih]
    simp only [beq_iff_eq, toUpper_eq_iff (Or.inl rfl)]
    split
    · rfl
    · cases text.splitOn ':' <;> rfl

theorem dropPlus_toUpper (text : List Char) :
    dropPlus (text.map Char.toUpper) = (dropPlus text).map Char.toUpper := by
  cases text with
  | nil => rfl
  | cons c text =>
    by_cases plus : c = '+'
    · subst plus
      rfl
    · have plus' : c.toUpper ≠ '+' := mt (toUpper_eq_iff (Or.inr rfl)).1 plus
      unfold dropPlus
      simp [plus, plus']

theorem readUnsigned?_toUpper (radix limit : Nat) (text : List Char) :
    readUnsigned? radix limit (text.map Char.toUpper) = readUnsigned? radix limit text := by
  have digit : digitValue? radix ∘ Char.toUpper = digitValue? radix := by
    funext c
    rw [Function.comp_apply, digitValue?, digitValue?, hexValue?_toUpper]
  have digits (text : List Char) : readDigits? radix (text.map Char.toUpper) =
      readDigits? radix text := by
    rw [readDigits?, readDigits?, List.isEmpty_map, List.mapM_map, digit]
  rw [readUnsigned?, readUnsigned?, dropPlus_toUpper, digits]

end Text

namespace HardwareAddress

open Text

variable {text part : List Char} {parts : List (List Char)} {octets : List Nat} {octet v : Nat}

/-- The part is a plus sign or none and hexadecimal digits, any number of them, of a value
that fits into a byte. -/
inductive SpellsOctet : List Char → Nat → Prop where
  | intro {sign digits : List Char} (signed : sign = [] ∨ sign = ['+']) (nonempty : digits ≠ [])
      (hex : ∀ c ∈ digits, isHexDigit c = true) (small : hexadecimalValue digits ≤ 255) :
      SpellsOctet (sign ++ digits) (hexadecimalValue digits)

structure Spells (text : List Char) (octets : List Nat) : Prop where
  six : octets.length = 6
  joined : ∃ parts, text = [':'].intercalate parts ∧ List.Forall₂ SpellsOctet parts octets

def octetsValue (octets : List Nat) : Nat := Nat.ofDigits 256 octets.reverse

theorem spellsOctet_iff : SpellsOctet part octet ↔ readUnsigned? 16 255 part = some octet := by
  rw [readUnsigned?_eq_some_iff]
  simp only [isNumeral_sixteen_iff]
  constructor
  · rintro ⟨rfl | rfl, nonempty, hex, small⟩
    · exact ⟨small, Or.inl ⟨nonempty, hex, rfl⟩⟩
    · exact ⟨small, Or.inr ⟨_, rfl, nonempty, hex, rfl⟩⟩
  · rintro ⟨small, ⟨nonempty, hex, rfl⟩ | ⟨digits, rfl, nonempty, hex, rfl⟩⟩
    · exact .intro (Or.inl rfl) nonempty hex small
    · exact .intro (Or.inr rfl) nonempty hex small

theorem SpellsOctet.lt (spells : SpellsOctet part octet) : octet < 256 := by
  obtain ⟨-, -, -, small⟩ := spells
  exact Nat.lt_succ_of_le small

theorem SpellsOctet.colon_notMem (spells : SpellsOctet part octet) : ':' ∉ part := by
  obtain ⟨signed, -, hex, -⟩ := spells
  intro within
  rcases List.mem_append.1 within with sign | digit
  · rcases signed with rfl | rfl <;> simp at sign
  · cases hex ':' digit

theorem lt_of_spelled (spelled : List.Forall₂ SpellsOctet parts octets) :
    ∀ octet ∈ octets, octet < 256 := by
  have both := spelled.flip.imp fun _ _ spells => And.intro (SpellsOctet.lt spells) spells
  exact ((List.forall₂_and_left _ _).1 both).1

theorem exists_octet (spelled : List.Forall₂ SpellsOctet parts octets) :
    ∀ part ∈ parts, ∃ octet, SpellsOctet part octet := by
  have both := spelled.imp fun _ octet spells => And.intro (Exists.intro octet spells) spells
  exact ((List.forall₂_and_left _ _).1 both).1

/-- What is joined by colons in a text is what is between its colons. -/
theorem spells_iff :
    Spells text octets ↔
      octets.length = 6 ∧ List.Forall₂ SpellsOctet (text.splitOn ':') octets := by
  constructor
  · rintro ⟨six, parts, joined, spelled⟩
    have plain : ∀ part ∈ parts, ':' ∉ part := by
      intro part mem
      obtain ⟨octet, spells⟩ := exists_octet spelled part mem
      exact spells.colon_notMem
    have nonempty : parts ≠ [] := by
      rintro rfl
      cases spelled
      cases six
    rw [splitOn_eq_iff.2 ⟨joined, nonempty, plain⟩]
    exact ⟨six, spelled⟩
  · rintro ⟨six, spelled⟩
    exact ⟨six, _, (splitOn_eq_iff.1 rfl).1, spelled⟩

theorem Spells.count_colon (spells : Spells text octets) : text.count ':' = 5 := by
  obtain ⟨six, spelled⟩ := spells_iff.1 spells
  have lengths := spelled.length_eq
  rw [length_splitOn, six] at lengths
  exact Nat.add_right_cancel lengths

theorem mapM_readUnsigned? :
    parts.mapM (readUnsigned? 16 255) = some octets ↔ List.Forall₂ SpellsOctet parts octets := by
  rw [mapM_eq_some_iff, ← List.forall₂_eq_eq_eq, List.forall₂_map_left_iff,
    List.forall₂_map_right_iff]
  simp only [← spellsOctet_iff]

theorem foldlM_push (read : Octets) (parts : List (List Char)) :
    parts.foldlM (fun octets part => (readUnsigned? 16 255 part).map (Octets.push octets)) read =
      (parts.mapM (readUnsigned? 16 255)).map (List.foldl Octets.push read) := by
  induction parts generalizing read with
  | nil => rfl
  | cons part parts ih =>
    rw [List.foldlM_cons, List.mapM_cons]
    cases readUnsigned? 16 255 part with
    | none => rfl
    | some octet =>
      simp only [Option.map_some, Option.bind_eq_bind, Option.bind_some, ih]
      cases parts.mapM (readUnsigned? 16 255) <;> rfl

theorem shiftLeft_or_ofNat (n : Nat) (small : octet < 256) :
    BitVec.ofNat 64 n <<< 8 ||| BitVec.ofNat 64 octet = BitVec.ofNat 64 (n * 256 + octet) := by
  have kept : octet % 2 ^ 64 = octet := by omega
  have low : octet < 2 ^ 8 := small
  have shifted : (n % 2 ^ 64) <<< 8 % 2 ^ 64 = (n % 2 ^ 56) <<< 8 := by
    rw [Nat.shiftLeft_eq, Nat.shiftLeft_eq]
    omega
  apply BitVec.eq_of_toNat_eq
  rw [BitVec.toNat_or, BitVec.toNat_shiftLeft, BitVec.toNat_ofNat, BitVec.toNat_ofNat,
    BitVec.toNat_ofNat, kept, shifted, ← Nat.shiftLeft_add_eq_or_of_lt low, Nat.shiftLeft_eq]
  omega

/-- Octets beyond the eighth push the first ones out of the word. -/
theorem foldl_push (small : ∀ octet ∈ octets, octet < 256) :
    octets.foldl Octets.push {} =
      { value := BitVec.ofNat 64 (octetsValue octets)
        count := BitVec.ofNat 32 octets.length } := by
  simp only [octetsValue, ← digitsValue_eq_ofDigits]
  induction octets using List.reverseRecOn with
  | nil => rfl
  | append_singleton octets octet ih =>
    have before := ih fun octet mem => small octet (List.mem_append_left _ mem)
    have last := small octet (by simp)
    rw [List.foldl_append, before, List.foldl_cons, List.foldl_nil, Octets.push,
      shiftLeft_or_ofNat _ last, digitsValue_concat, List.length_append, List.length_singleton,
      BitVec.ofNat_add octets.length 1]
    rfl

/-- All parts are octets, of which the count and the value keep what their words can hold. -/
theorem parse?_eq_some_iff : parse? text = some v ↔
    ∃ octets, List.Forall₂ SpellsOctet (text.splitOn ':') octets ∧
      octets.length % 2 ^ 32 = 6 ∧ v = octetsValue octets % 2 ^ 64 := by
  have count (n : Nat) : BitVec.ofNat 32 n = 6 ↔ n % 2 ^ 32 = 6 := by
    rw [← BitVec.toNat_inj, BitVec.toNat_ofNat]
    rfl
  simp only [parse?, foldlM_push, Option.bind_map, Option.bind_eq_some_iff, mapM_readUnsigned?,
    Function.comp_apply, Option.ite_none_right_eq_some, Option.some_inj]
  apply exists_congr
  intro octets
  apply and_congr_right
  intro spelled
  rw [foldl_push (lt_of_spelled spelled), count, BitVec.toNat_ofNat, eq_comm (a := v)]

/-- The octets can be told from the number that has them. -/
theorem Spells.fixedDigits_octetsValue (spells : Spells text octets) :
    octetsValue octets < 2 ^ 48 ∧ fixedDigits 256 6 (octetsValue octets) = octets := by
  have small := lt_of_spelled (spells_iff.1 spells).2
  have bound := digitsValue_lt small
  have digits := fixedDigits_digitsValue small
  rw [octetsValue, ← digitsValue_eq_ofDigits]
  rw [spells.six] at bound digits
  exact ⟨bound, digits⟩

theorem Spells.parse?_eq (spells : Spells text octets) :
    parse? text = some (octetsValue octets) := by
  obtain ⟨six, spelled⟩ := spells_iff.1 spells
  have bound := spells.fixedDigits_octetsValue.1
  exact parse?_eq_some_iff.2 ⟨octets, spelled, by omega, by omega⟩

theorem parse?_eq_some_iff_spells (few : text.count ':' + 1 < 2 ^ 31) :
    parse? text = some v ↔ ∃ octets, Spells text octets ∧ v = octetsValue octets := by
  constructor
  · intro read
    obtain ⟨octets, spelled, six, rfl⟩ := parse?_eq_some_iff.1 read
    have length := spelled.length_eq
    rw [length_splitOn] at length
    have spells : Spells text octets := spells_iff.2 ⟨by omega, spelled⟩
    have bound := spells.fixedDigits_octetsValue.1
    exact ⟨octets, spells, by omega⟩
  · rintro ⟨octets, spells, rfl⟩
    exact spells.parse?_eq

theorem parse?_eq_none_of_count (few : text.count ':' + 1 < 2 ^ 31)
    (other : text.count ':' ≠ 5) : parse? text = none := by
  rw [Option.eq_none_iff_forall_ne_some]
  intro v read
  obtain ⟨octets, spells, -⟩ := (parse?_eq_some_iff_spells few).1 read
  exact other spells.count_colon

theorem parse?_eq_none_of_mem (mem : part ∈ text.splitOn ':')
    (foreign : ∀ octet, ¬ SpellsOctet part octet) : parse? text = none := by
  rw [Option.eq_none_iff_forall_ne_some]
  intro v read
  obtain ⟨octets, spelled, -⟩ := parse?_eq_some_iff.1 read
  obtain ⟨octet, spells⟩ := exists_octet spelled part mem
  exact foreign octet spells

theorem parse?_toUpper (text : List Char) : parse? (text.map Char.toUpper) = parse? text := by
  have reader : readUnsigned? 16 255 ∘ List.map Char.toUpper = readUnsigned? 16 255 :=
    funext (readUnsigned?_toUpper 16 255)
  rw [parse?, parse?, splitOn_toUpper, foldlM_push, foldlM_push, List.mapM_map, reader]

/-- The six octets of a number, the highest first, each in two digits and joined by colons. -/
def colonText (digit : Nat → Char) (v : Nat) : List Char :=
  [':'].intercalate ((fixedDigits 256 6 v).map fun octet => (fixedDigits 16 2 octet).map digit)

theorem writesDigits_lowerDigit : WritesDigits lowerDigit := by
  unfold WritesDigits
  decide

section

variable {digit : Nat → Char}

theorem spellsOctet_fixedDigits (writes : WritesDigits digit) (small : octet < 256) :
    SpellsOctet ((fixedDigits 16 2 octet).map digit) octet := by
  have value : hexadecimalValue ((fixedDigits 16 2 octet).map digit) = octet := by
    rw [hexadecimalValue, ← digitsValue_eq_ofDigits, writes.filterMap_fixedDigits,
      digitsValue_fixedDigits]
    exact Nat.mod_eq_of_lt small
  have hex : ∀ c ∈ (fixedDigits 16 2 octet).map digit, isHexDigit c = true := by
    intro c mem
    obtain ⟨d, within, rfl⟩ := List.mem_map.1 mem
    rw [isHexDigit, writes d (lt_of_mem_fixedDigits (by decide) within)]
    rfl
  have spells := SpellsOctet.intro (Or.inl rfl) (by simp [fixedDigits]) hex
    (value.trans_le (Nat.le_of_lt_succ small))
  rwa [List.nil_append, value] at spells

theorem parse?_colonText (writes : WritesDigits digit) (small : v < 2 ^ 48) :
    parse? (colonText digit v) = some v := by
  have spelled : List.Forall₂ SpellsOctet
      ((fixedDigits 256 6 v).map fun octet => (fixedDigits 16 2 octet).map digit)
      (fixedDigits 256 6 v) := by
    rw [List.forall₂_map_left_iff, List.forall₂_same]
    intro octet mem
    exact spellsOctet_fixedDigits writes (lt_of_mem_fixedDigits (by decide) mem)
  have value : octetsValue (fixedDigits 256 6 v) = v := by
    rw [octetsValue, ← digitsValue_eq_ofDigits, digitsValue_fixedDigits]
    exact Nat.mod_eq_of_lt small
  have spells : Spells (colonText digit v) (fixedDigits 256 6 v) :=
    ⟨length_fixedDigits .., _, rfl, spelled⟩
  rw [spells.parse?_eq, value]

end

/-- A text with no more parts than 32 bits with a sign can count is read as a hardware address
exactly if it spells six octets, and then as the number with these octets; with fewer parts than six
or with more it is not read. That number is below 2^48, and the octets can be told from it. Every
number below that is read from its two-digit form, in capitals or not. No text is read that has a
part which is no octet, however many parts there are. -/
theorem address_grammar :
    (∀ text v, text.count ':' + 1 < 2 ^ 31 →
      (parse? text = some v ↔ ∃ octets, Spells text octets ∧ v = octetsValue octets)) ∧
    (∀ text octets, Spells text octets →
      octetsValue octets < 2 ^ 48 ∧ fixedDigits 256 6 (octetsValue octets) = octets) ∧
    (∀ v < 2 ^ 48, parse? (colonText upperDigit v) = some v ∧
      parse? (colonText lowerDigit v) = some v ∧
      ∀ text, text.map Char.toUpper = colonText upperDigit v → parse? text = some v) ∧
    (∀ text, text.count ':' + 1 < 2 ^ 31 → text.count ':' ≠ 5 → parse? text = none) ∧
    ∀ text, (∃ part ∈ text.splitOn ':', ∀ octet, ¬ SpellsOctet part octet) →
      parse? text = none := by
  refine ⟨fun _ _ => parse?_eq_some_iff_spells, fun _ _ spells => spells.fixedDigits_octetsValue,
    ?_, fun _ => parse?_eq_none_of_count, ?_⟩
  · intro v small
    have capitals := parse?_colonText writesDigits_upperDigit small
    refine ⟨capitals, parse?_colonText writesDigits_lowerDigit small, ?_⟩
    intro text same
    rw [← parse?_toUpper, same, capitals]
  · rintro text ⟨part, mem, foreign⟩
    exact parse?_eq_none_of_mem mem foreign

/-- Octets with signs and zeros in front, the same number with two digits in either case for each,
texts with five parts and with seven, and one in which a part is empty. -/
theorem address_grammar_signed :
    let signed := "+00a:B:0Cc:00000fF:0:+7".toList
    Spells signed [0x0A, 0x0B, 0xCC, 0xFF, 0x00, 0x07] ∧
      parse? signed = some 0x0A0BCCFF0007 ∧
      fixedDigits 256 6 0x0A0BCCFF0007 = [0x0A, 0x0B, 0xCC, 0xFF, 0x00, 0x07] ∧
      parse? "0a:0B:Cc:fF:00:07".toList = some 0x0A0BCCFF0007 ∧
      parse? "0a:0B:Cc:fF:00".toList = none ∧ parse? "00:0a:0B:Cc:fF:00:07".toList = none ∧
      parse? "0a:0B::fF:00:07".toList = none := by
  intro signed
  obtain ⟨exact, kept, twoDigit, other, foreign⟩ := address_grammar
  have spells : Spells signed [0x0A, 0x0B, 0xCC, 0xFF, 0x00, 0x07] :=
    spells_iff.2 ⟨rfl, mapM_readUnsigned?.1 (by decide +kernel)⟩
  have read : parse? signed = some 0x0A0BCCFF0007 := (exact _ _ (by decide)).2 ⟨_, spells, rfl⟩
  refine ⟨spells, read, (kept _ _ spells).2, ?_, ?_, ?_, ?_⟩
  · exact (twoDigit 0x0A0BCCFF0007 (by decide)).2.2 _ (by decide +kernel)
  · exact other _ (by decide) (by decide)
  · exact other _ (by decide) (by decide)
  · refine foreign _ ⟨[], by decide, fun octet spells => ?_⟩
    cases spellsOctet_iff.1 spells

def zeros (n : Nat) : List Char := [':'].intercalate (List.replicate n ['0'])

theorem splitOn_zeros {n : Nat} (pos : 0 < n) :
    (zeros n).splitOn ':' = List.replicate n ['0'] := by
  refine splitOn_eq_iff.2 ⟨rfl, mt (List.replicate_eq_nil_iff _).1 pos.ne', ?_⟩
  intro part mem
  rw [List.eq_of_mem_replicate mem]
  decide

theorem spelled_zeros (n : Nat) :
    List.Forall₂ SpellsOctet (List.replicate n ['0']) (List.replicate n 0) := by
  induction n with
  | zero => exact .nil
  | succ n ih => exact .cons (spellsOctet_iff.2 (by decide)) ih

/-- So many octets that their count is six again are read, though they are not six. -/
theorem wrapped_count_read :
    (zeros (2 ^ 32 + 6)).count ':' + 1 = 2 ^ 32 + 6 ∧ parse? (zeros (2 ^ 32 + 6)) = some 0 ∧
      ¬ ∃ octets, Spells (zeros (2 ^ 32 + 6)) octets ∧ 0 = octetsValue octets := by
  have pos : 0 < 2 ^ 32 + 6 := by decide
  have count : (zeros (2 ^ 32 + 6)).count ':' + 1 = 2 ^ 32 + 6 := by
    rw [← length_splitOn, splitOn_zeros pos, List.length_replicate]
  have spelled := spelled_zeros (2 ^ 32 + 6)
  rw [← splitOn_zeros pos] at spelled
  refine ⟨count, parse?_eq_some_iff.2 ⟨_, spelled, ?_, ?_⟩, ?_⟩
  · rw [List.length_replicate]
    rfl
  · rw [octetsValue, List.reverse_replicate, Nat.ofDigits_replicate_zero]
    rfl
  · rintro ⟨octets, spells, -⟩
    have := spells.count_colon
    omega

end HardwareAddress

end DeviceConnector
