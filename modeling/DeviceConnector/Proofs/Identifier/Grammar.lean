import DeviceConnector.Proofs.Identifier.Text
import Mathlib.Data.List.Induction
/-!
# The texts that are read as identifiers

Reading takes exactly those texts that are 32 or 34 hexadecimal digits long after trimming, counted
in bytes. The reader of unique ids, which is handed the first 32 of them, accepts other texts as
well, but it gets nothing that it could refuse.
-/

namespace DeviceConnector

namespace Text

def hexByte? (b : UInt8) : Option Nat := hexValue? (Char.ofNat b.toNat)

theorem hexValue?_lt {c : Char} {n : Nat} (value : hexValue? c = some n) : n < 16 := by
  unfold hexValue? at value
  grind

theorem toNat_lt_of_isHexDigit {c : Char} (digit : isHexDigit c = true) : c.toNat < 128 := by
  unfold isHexDigit hexValue? at digit
  grind

theorem hexByte?_ofNat {n : Nat} (ascii : n < 128) :
    hexByte? (UInt8.ofNat n) = hexValue? (Char.ofNat n) := by
  have kept : (UInt8.ofNat n).toNat = n := by
    rw [UInt8.toNat_ofNat']
    omega
  rw [hexByte?, kept]

theorem hexByte?_high {n : Nat} (high : 128 ≤ n) (byte : n < 256) :
    hexByte? (UInt8.ofNat n) = none := by
  have kept : (UInt8.ofNat n).toNat = n := by
    rw [UInt8.toNat_ofNat']
    omega
  have plain : (Char.ofNat n).toNat = n := by
    rw [Char.ofNat, dif_pos (Or.inl (by omega))]
    rfl
  rw [hexByte?, kept, hexValue?, plain]
  grind

theorem utf8EncodeChar_of_ascii {c : Char} (ascii : c.toNat < 128) :
    String.utf8EncodeChar c = [UInt8.ofNat c.toNat] := by
  have small : c.val.toNat ≤ 127 := Nat.le_of_lt_succ ascii
  unfold String.utf8EncodeChar
  rw [if_pos small]
  rfl

/-- The first byte of a character beyond ASCII is no digit. -/
theorem hexByte?_of_not_ascii {c : Char} (wide : 128 ≤ c.toNat) :
    ∃ b ∈ String.utf8EncodeChar c, hexByte? b = none := by
  have large : ¬ c.val.toNat ≤ 127 := Nat.not_le.2 wide
  unfold String.utf8EncodeChar
  simp only [large, if_false]
  split
  · exact ⟨_, List.mem_cons_self .., hexByte?_high (by omega) (by omega)⟩
  · split
    · exact ⟨_, List.mem_cons_self .., hexByte?_high (by omega) (by omega)⟩
    · exact ⟨_, List.mem_cons_self .., hexByte?_high (by omega) (by omega)⟩

/-- A character is a digit exactly if all its bytes are. -/
theorem isHexDigit_iff (c : Char) :
    isHexDigit c = true ↔ ∀ b ∈ String.utf8EncodeChar c, (hexByte? b).isSome = true := by
  by_cases ascii : c.toNat < 128
  · rw [utf8EncodeChar_of_ascii ascii, List.forall_mem_singleton, hexByte?_ofNat ascii,
      Char.ofNat_toNat]
    rfl
  · obtain ⟨b, mem, none⟩ := hexByte?_of_not_ascii (Nat.not_lt.1 ascii)
    constructor
    · intro digit
      exact absurd (toNat_lt_of_isHexDigit digit) ascii
    · intro digits
      have some := digits b mem
      rw [none] at some
      cases some

theorem toUTF8_ofList (text : List Char) :
    (String.ofList text).toUTF8.data.toList = text.flatMap String.utf8EncodeChar := by
  rw [String.toUTF8, String.toByteArray_ofList]
  exact List.toList_data_toByteArray

theorem all_isHexDigit_iff (text : List Char) : text.all isHexDigit = true ↔
    ∀ b ∈ (String.ofList text).toUTF8.data.toList, (hexByte? b).isSome = true := by
  rw [toUTF8_ofList, List.all_eq_true]
  constructor
  · intro digits b mem
    obtain ⟨c, within, mem⟩ := List.mem_flatMap.1 mem
    exact (isHexDigit_iff c).1 (digits c within) b mem
  · intro digits c within
    exact (isHexDigit_iff c).2 fun b mem => digits b (List.mem_flatMap.2 ⟨c, within, mem⟩)

theorem length_toUTF8_ofList (text : List Char) :
    (String.ofList text).toUTF8.data.toList.length = byteLength text := by
  rw [toUTF8_ofList, byteLength_eq_length]

theorem all_isHexDigit_take {text : List Char} (count : Nat) (hex : text.all isHexDigit = true) :
    (text.take count).all isHexDigit = true := by
  rw [List.all_eq_true] at hex ⊢
  intro c mem
  exact hex c (List.mem_of_mem_take mem)

/-- A text of digits has one byte for each, of the same value. -/
theorem toUTF8_of_hex {text : List Char} (hex : text.all isHexDigit = true) :
    (String.ofList text).toUTF8.data.toList = text.map fun c => UInt8.ofNat c.toNat := by
  rw [toUTF8_ofList]
  induction text with
  | nil => rfl
  | cons c text ih =>
    rw [List.all_cons, Bool.and_eq_true] at hex
    rw [List.flatMap_cons, utf8EncodeChar_of_ascii (toNat_lt_of_isHexDigit hex.1), ih hex.2]
    rfl

theorem filterMap_hexByte? {text : List Char} (hex : text.all isHexDigit = true) :
    (text.map fun c => UInt8.ofNat c.toNat).filterMap hexByte? = text.filterMap hexValue? := by
  induction text with
  | nil => rfl
  | cons c text ih =>
    rw [List.all_cons, Bool.and_eq_true] at hex
    have same := hexByte?_ofNat (toNat_lt_of_isHexDigit hex.1)
    rw [Char.ofNat_toNat] at same
    rw [List.map_cons, List.filterMap_cons, List.filterMap_cons, same, ih hex.2]

theorem digitsValue_lt {radix : Nat} {digits : List Nat} (small : ∀ d ∈ digits, d < radix) :
    digitsValue radix digits < radix ^ digits.length := by
  induction digits using List.reverseRecOn with
  | nil => simp [digitsValue]
  | append_singleton digits d ih =>
    have before := ih fun d mem => small d (List.mem_append_left _ mem)
    have last := small d (by simp)
    rw [digitsValue_concat, List.length_append, List.length_singleton, Nat.pow_succ]
    calc digitsValue radix digits * radix + d
        < digitsValue radix digits * radix + radix := Nat.add_lt_add_left last _
      _ = (digitsValue radix digits + 1) * radix := (Nat.succ_mul ..).symm
      _ ≤ radix ^ digits.length * radix := Nat.mul_le_mul_right _ before

end Text

namespace Dsuid

open Text

variable {ε : Type} {bytes : List UInt8} {text : String}

def trimmedBytes (text : String) : List UInt8 :=
  (String.ofList (trim text.toList)).toUTF8.data.toList

structure IsDigits (bytes : List UInt8) : Prop where
  length : bytes.length = 32 ∨ bytes.length = 34
  digits : ∀ b ∈ bytes, (hexByte? b).isSome = true

theorem not_isDigits_of_length (ne : bytes.length ≠ 32) (ne' : bytes.length ≠ 34) :
    ¬ IsDigits bytes := by
  intro digits
  exact digits.length.elim ne ne'

theorem not_isDigits_of_mem {b : UInt8} (mem : b ∈ bytes) (foreign : hexByte? b = none) :
    ¬ IsDigits bytes := by
  intro digits
  have digit := digits.digits b mem
  rw [foreign] at digit
  cases digit

def uuidValue (bytes : List UInt8) : Nat := digitsValue 16 ((bytes.take 32).filterMap hexByte?)

theorem uuidValue_lt (bytes : List UInt8) : uuidValue bytes < 2 ^ 128 := by
  have small : ∀ d ∈ (bytes.take 32).filterMap hexByte?, d < 16 := by
    intro d mem
    obtain ⟨b, -, value⟩ := List.mem_filterMap.1 mem
    exact hexValue?_lt value
  have few : ((bytes.take 32).filterMap hexByte?).length ≤ 32 :=
    Nat.le_trans (List.length_filterMap_le ..) (List.length_take_le ..)
  calc uuidValue bytes
      < 16 ^ ((bytes.take 32).filterMap hexByte?).length := digitsValue_lt small
    _ ≤ 16 ^ 32 := Nat.pow_le_pow_right (by decide) few
    _ = 2 ^ 128 := by decide

theorem uuidValue_of_hex {text : List Char} (hex : text.all isHexDigit = true) :
    uuidValue (String.ofList text).toUTF8.data.toList =
      digitsValue 16 ((text.take 32).filterMap hexValue?) := by
  rw [uuidValue, toUTF8_of_hex hex, ← List.map_take,
    filterMap_hexByte? (all_isHexDigit_take 32 hex)]

/-- The three ways in which reading ends. -/
theorem parse_cases (text : String) :
    ((trimmedBytes text).length ≠ 32 ∧ (trimmedBytes text).length ≠ 34 ∧
      parse text = .error (.invalidLength (trimmedBytes text).length)) ∨
    (((trimmedBytes text).length = 32 ∨ (trimmedBytes text).length = 34) ∧
      (∃ b ∈ trimmedBytes text, hexByte? b = none) ∧
      parse text = .error (.invalidHex (String.ofList (trim text.toList)))) ∨
    (IsDigits (trimmedBytes text) ∧
      parse text = .ok (ofUuid (BitVec.ofNat 128 (uuidValue (trimmedBytes text))))) := by
  unfold parse ofDigits
  rw [← length_toUTF8_ofList]
  by_cases wrong : (trimmedBytes text).length ≠ 32 ∧ (trimmedBytes text).length ≠ 34
  · exact Or.inl ⟨wrong.1, wrong.2, if_pos wrong⟩
  · have length : (trimmedBytes text).length = 32 ∨ (trimmedBytes text).length = 34 := by omega
    by_cases hex : (trim text.toList).all isHexDigit = true
    · refine Or.inr (Or.inr ⟨⟨length, (all_isHexDigit_iff _).1 hex⟩, ?_⟩)
      rw [trimmedBytes, uuidValue_of_hex hex]
      exact (if_neg wrong).trans (if_pos hex)
    · refine Or.inr (Or.inl ⟨length, ?_, (if_neg wrong).trans (if_neg hex)⟩)
      by_contra all
      apply hex
      rw [all_isHexDigit_iff]
      intro b mem
      by_contra foreign
      exact all ⟨b, mem, Option.not_isSome_iff_eq_none.1 foreign⟩

theorem parse_eq_ok_iff (text : String) (d : Dsuid) : parse text = .ok d ↔
    IsDigits (trimmedBytes text) ∧ d.kind = .uuid ∧
      d.uuid.toNat = uuidValue (trimmedBytes text) := by
  rcases parse_cases text with ⟨ne, ne', eq⟩ | ⟨-, ⟨b, mem, foreign⟩, eq⟩ | ⟨digits, eq⟩
  · have refused := not_isDigits_of_length ne ne'
    simp [eq, refused]
  · have refused := not_isDigits_of_mem mem foreign
    simp [eq, refused]
  · have kept : (BitVec.ofNat 128 (uuidValue (trimmedBytes text))).toNat =
        uuidValue (trimmedBytes text) := Nat.mod_eq_of_lt (uuidValue_lt _)
    rw [eq]
    constructor
    · intro parsed
      obtain rfl := Except.ok.inj parsed
      exact ⟨digits, rfl, kept⟩
    · rintro ⟨-, kind, value⟩
      have number : BitVec.ofNat 128 (uuidValue (trimmedBytes text)) = d.uuid :=
        BitVec.eq_of_toNat_eq (kept.trans value.symm)
      rw [number, ofUuid, ← kind]

theorem parse_eq_invalidLength_iff (text : String) (length : Nat) :
    parse text = .error (.invalidLength length) ↔
      length = (trimmedBytes text).length ∧ length ≠ 32 ∧ length ≠ 34 := by
  rcases parse_cases text with ⟨ne, ne', eq⟩ | ⟨right, -, eq⟩ | ⟨digits, eq⟩
  · rw [eq]
    constructor
    · intro refused
      obtain rfl := DsuidError.invalidLength.inj (Except.error.inj refused)
      exact ⟨rfl, ne, ne'⟩
    · rintro ⟨rfl, -, -⟩
      rfl
  · simp only [eq, Except.error.injEq, reduceCtorEq, false_iff]
    omega
  · have right := digits.length
    simp only [eq, reduceCtorEq, false_iff]
    omega

theorem parse_eq_invalidHex_iff (text shown : String) :
    parse text = .error (.invalidHex shown) ↔
      shown = String.ofList (trim text.toList) ∧
      ((trimmedBytes text).length = 32 ∨ (trimmedBytes text).length = 34) ∧
      ∃ b ∈ trimmedBytes text, hexByte? b = none := by
  rcases parse_cases text with ⟨ne, ne', eq⟩ | ⟨right, foreign, eq⟩ | ⟨digits, eq⟩
  · simp [eq, ne, ne']
  · rw [eq]
    constructor
    · intro refused
      exact ⟨(DsuidError.invalidHex.inj (Except.error.inj refused)).symm, right, foreign⟩
    · rintro ⟨rfl, -, -⟩
      rfl
  · simp only [eq, reduceCtorEq, false_iff]
    rintro ⟨-, -, b, mem, foreign⟩
    exact not_isDigits_of_mem mem foreign digits

/-- A reader of unique ids takes 32 digits for the number that they write. -/
def ReadsDigits (readUuid : List UInt8 → Except ε (BitVec 128)) : Prop :=
  ∀ bytes, bytes.length = 32 → (∀ b ∈ bytes, (hexByte? b).isSome = true) →
    readUuid bytes = .ok (BitVec.ofNat 128 (digitsValue 16 (bytes.filterMap hexByte?)))

/-- The first bytes of a text, where they are whole characters. -/
def front? (bytes : List UInt8) (count : Nat) : Option (List UInt8) :=
  if count ≤ bytes.length ∧ ¬ (bytes[count]?.any fun b => 0x80 ≤ b && b < 0xC0) then
    some (bytes.take count)
  else none

/-- Read an identifier byte by byte, with a reader for the unique id inside that has failures of its
own. -/
def parseWith (readUuid : List UInt8 → Except ε (BitVec 128)) (text : String) :
    Except (DsuidError ⊕ ε) Dsuid :=
  let trimmed := String.ofList (trim text.toList)
  let bytes := trimmed.toUTF8.data.toList
  if bytes.length ≠ 32 ∧ bytes.length ≠ 34 then .error (.inl (.invalidLength bytes.length))
  else if bytes.all fun b => (hexByte? b).isSome then
    match front? bytes 32 with
    | none => .error (.inl (.invalidHex trimmed))
    | some inner =>
      match readUuid inner with
      | .ok uuid => .ok (ofUuid uuid)
      | .error e => .error (.inr e)
  else .error (.inl (.invalidHex trimmed))

theorem front?_of_digits (digits : IsDigits bytes) : front? bytes 32 = some (bytes.take 32) := by
  have within : 32 ≤ bytes.length := by
    rcases digits.length with eq | eq <;> omega
  have whole : ¬ (bytes[32]?.any fun b => 0x80 ≤ b && b < 0xC0) = true := by
    intro inside
    -- the byte behind the first 32 would be a digit and not an ASCII character
    obtain ⟨b, there, range⟩ := (Option.any_eq_true _ _).1 inside
    have digit := digits.digits b (List.mem_of_getElem? there)
    have high : 128 ≤ b.toNat := by
      rw [Bool.and_eq_true, decide_eq_true_eq] at range
      exact UInt8.le_iff_toNat_le.1 range.1
    have none := hexByte?_high high b.toNat_lt
    rw [UInt8.ofNat_toNat] at none
    rw [none] at digit
    cases digit
  exact if_pos ⟨within, whole⟩

theorem parseWith_eq {readUuid : List UInt8 → Except ε (BitVec 128)} (reads : ReadsDigits readUuid)
    (text : String) : parseWith readUuid text = (parse text).mapError Sum.inl := by
  unfold parseWith
  rcases parse_cases text with ⟨ne, ne', eq⟩ | ⟨length, ⟨b, mem, none⟩, eq⟩ | ⟨digits, eq⟩
  · rw [eq]
    exact if_pos ⟨ne, ne'⟩
  · have right : ¬ ((trimmedBytes text).length ≠ 32 ∧ (trimmedBytes text).length ≠ 34) := by omega
    have foreign : ¬ ((trimmedBytes text).all fun b => (hexByte? b).isSome) = true := by
      intro all
      have some := List.all_eq_true.1 all b mem
      rw [none] at some
      cases some
    rw [eq]
    exact (if_neg right).trans (if_neg foreign)
  · have right : ¬ ((trimmedBytes text).length ≠ 32 ∧ (trimmedBytes text).length ≠ 34) := by
      rcases digits.length with eq | eq <;> omega
    have all : ((trimmedBytes text).all fun b => (hexByte? b).isSome) = true :=
      List.all_eq_true.2 digits.digits
    have inner := reads ((trimmedBytes text).take 32)
      (by rcases digits.length with eq | eq <;> rw [List.length_take] <;> omega)
      fun b mem => digits.digits b (List.mem_of_mem_take mem)
    have found := front?_of_digits digits
    unfold trimmedBytes at right all inner found
    rw [eq]
    simp only [right, all, found, inner]
    rfl

/-- What the reader of unique ids refuses is refused before it. -/
theorem parseWith_ne_inr {readUuid : List UInt8 → Except ε (BitVec 128)}
    (reads : ReadsDigits readUuid) (text : String) (e : ε) :
    parseWith readUuid text ≠ .error (.inr e) := by
  intro passed
  rw [parseWith_eq reads text] at passed
  cases outcome : parse text with
  | ok d => simp [outcome, Except.mapError] at passed
  | error refusal => simp [outcome, Except.mapError] at passed

/-- A text is read as an identifier exactly if its trimmed bytes are 32 or 34 hexadecimal digits,
and then as the one whose unique id the first 32 write. It is refused for its length exactly if that
is another one, and for its digits in all other cases. A reader of unique ids that takes what 32
digits write makes no difference, and none of its failures is ever passed on. -/
theorem parse_grammar (text : String) :
    (∀ d, parse text = .ok d ↔ IsDigits (trimmedBytes text) ∧ d.kind = .uuid ∧
      d.uuid.toNat = uuidValue (trimmedBytes text)) ∧
    (∀ length, parse text = .error (.invalidLength length) ↔
      length = (trimmedBytes text).length ∧ length ≠ 32 ∧ length ≠ 34) ∧
    (∀ shown, parse text = .error (.invalidHex shown) ↔
      shown = String.ofList (trim text.toList) ∧
      ((trimmedBytes text).length = 32 ∨ (trimmedBytes text).length = 34) ∧
      ∃ b ∈ trimmedBytes text, hexByte? b = none) ∧
    ∀ (ε : Type) (readUuid : List UInt8 → Except ε (BitVec 128)), ReadsDigits readUuid →
      parseWith readUuid text = (parse text).mapError Sum.inl ∧
      ∀ e, parseWith readUuid text ≠ .error (.inr e) := by
  refine ⟨parse_eq_ok_iff text, parse_eq_invalidLength_iff text, parse_eq_invalidHex_iff text, ?_⟩
  intro ε readUuid reads
  exact ⟨parseWith_eq reads text, parseWith_ne_inr reads text⟩

def readGroups (bytes : List UInt8) : Except String (BitVec 128) :=
  let read (digits : List UInt8) :=
    if digits.all fun b => (hexByte? b).isSome then
      .ok (BitVec.ofNat 128 (digitsValue 16 (digits.filterMap hexByte?)))
    else .error "invalid character"
  if bytes.length = 32 then read bytes
  else if bytes.length = 36 ∧ [8, 13, 18, 23].all fun i => bytes[i]? == some 45 then
    read ((((bytes.eraseIdx 23).eraseIdx 18).eraseIdx 13).eraseIdx 8)
  else .error "invalid length"

theorem readsDigits_readGroups : ReadsDigits readGroups := by
  intro bytes length digits
  have all : (bytes.all fun b => (hexByte? b).isSome) = true := List.all_eq_true.2 digits
  simp [readGroups, length, all]

/-- A spelling with blanks, small digits and another tag is read with either reader. The text with
hyphens is refused for its length, though the reader of unique ids would have taken it. -/
theorem parse_grammar_default_host :
    let spelled := "\u2003\u00a06123a881016010000000f2ca0deb3707Ff\n"
    parse spelled = .ok defaultHost ∧ parseWith readGroups spelled = .ok defaultHost ∧
      parse defaultHost.uuidText = .error (.invalidLength 36) ∧
      readGroups (trimmedBytes defaultHost.uuidText) = .ok defaultHost.uuid := by
  intro spelled
  have all : ((trimmedBytes spelled).all fun b => (hexByte? b).isSome) = true := by
    decide +kernel
  have digits : IsDigits (trimmedBytes spelled) := ⟨by decide +kernel, List.all_eq_true.1 all⟩
  have parsed : parse spelled = .ok defaultHost :=
    ((parse_grammar spelled).1 defaultHost).2 ⟨digits, rfl, by decide +kernel⟩
  have same := ((parse_grammar spelled).2.2.2 String readGroups readsDigits_readGroups).1
  rw [parsed] at same
  have refused : parse defaultHost.uuidText = .error (.invalidLength 36) :=
    ((parse_grammar defaultHost.uuidText).2.1 36).2 (by decide +kernel)
  exact ⟨parsed, same, refused, by decide +kernel⟩

end Dsuid

end DeviceConnector
