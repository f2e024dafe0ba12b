import DeviceConnector.Proofs.Identifier.Grammar
/-!
# The canonical text of an identifier

Among the texts that are read as one identifier, the canonical one is the first 32 digits in
capitals and a zero tag. Identifiers can therefore be compared by their texts.
-/

namespace DeviceConnector

namespace Text

variable {text : List Char}

/-- Capitals, blanks and digits among the ASCII characters, checked one by one. -/
theorem hexValue?_of_ascii {c : Char} (ascii : c.toNat < 128) :
    hexValue? c.toUpper = hexValue? c ∧ (isHexDigit c = true → isBlank c = false) ∧
      ∀ v < 16, hexValue? c = some v → upperDigit v = c.toUpper := by
  have checked : ∀ n < 128, hexValue? (Char.ofNat n).toUpper = hexValue? (Char.ofNat n) ∧
      (isHexDigit (Char.ofNat n) = true → isBlank (Char.ofNat n) = false) ∧
      ∀ v < 16, hexValue? (Char.ofNat n) = some v → upperDigit v = (Char.ofNat n).toUpper := by
    decide +kernel
  have here := checked c.toNat ascii
  rwa [Char.ofNat_toNat] at here

theorem toUpper_of_not_ascii {c : Char} (wide : 128 ≤ c.toNat) : c.toUpper = c := by
  have beyond : ¬ (c.val ≥ 'a'.val ∧ c.val ≤ 'z'.val) := by
    rintro ⟨-, le⟩
    have small : c.toNat ≤ 122 := UInt32.le_iff_toNat_le.1 le
    omega
  unfold Char.toUpper
  rw [dif_neg beyond]

theorem hexValue?_toUpper (c : Char) : hexValue? c.toUpper = hexValue? c := by
  by_cases ascii : c.toNat < 128
  · exact (hexValue?_of_ascii ascii).1
  · rw [toUpper_of_not_ascii (Nat.not_lt.1 ascii)]

theorem upperDigit_of_hexValue? {c : Char} {v : Nat} (value : hexValue? c = some v) :
    upperDigit v = c.toUpper := by
  have digit : isHexDigit c = true := by rw [isHexDigit, value]; rfl
  exact (hexValue?_of_ascii (toNat_lt_of_isHexDigit digit)).2.2 v (hexValue?_lt value) value

theorem isBlank_of_isHexDigit {c : Char} (digit : isHexDigit c = true) : isBlank c = false :=
  (hexValue?_of_ascii (toNat_lt_of_isHexDigit digit)).2.1 digit

theorem map_upperDigit_filterMap (hex : text.all isHexDigit = true) :
    (text.filterMap hexValue?).length = text.length ∧
      (text.filterMap hexValue?).map upperDigit = text.map Char.toUpper := by
  induction text with
  | nil => exact ⟨rfl, rfl⟩
  | cons c text ih =>
    rw [List.all_cons, Bool.and_eq_true] at hex
    obtain ⟨v, value⟩ := Option.isSome_iff_exists.1 hex.1
    rw [List.filterMap_cons_some value, List.map_cons, List.map_cons, (ih hex.2).2,
      upperDigit_of_hexValue? value, List.length_cons, (ih hex.2).1]
    exact ⟨rfl, rfl⟩

theorem filterMap_hexValue?_toUpper (text : List Char) :
    (text.map Char.toUpper).filterMap hexValue? = text.filterMap hexValue? := by
  have same : hexValue? ∘ Char.toUpper = hexValue? := funext hexValue?_toUpper
  rw [List.filterMap_map, same]

theorem fixedDigits_digitsValue {radix : Nat} {digits : List Nat}
    (small : ∀ d ∈ digits, d < radix) :
    fixedDigits radix digits.length (digitsValue radix digits) = digits := by
  induction digits using List.reverseRecOn with
  | nil => rfl
  | append_singleton digits d ih =>
    have before := ih fun d mem => small d (List.mem_append_left _ mem)
    have last := small d (by simp)
    have high : (digitsValue radix digits * radix + d) / radix = digitsValue radix digits := by
      rw [Nat.mul_comm, Nat.mul_add_div (Nat.zero_lt_of_lt last), Nat.div_eq_of_lt last,
        Nat.add_zero]
    have low : (digitsValue radix digits * radix + d) % radix = d := by
      rw [Nat.mul_comm, Nat.mul_add_mod, Nat.mod_eq_of_lt last]
    rw [digitsValue_concat, List.length_append, List.length_singleton, fixedDigits, high, low,
      before]

/-- What a text of digits writes fits into as many digits, which are its capitals. -/
theorem upperHex_digitsValue (hex : text.all isHexDigit = true) :
    digitsValue 16 (text.filterMap hexValue?) < 16 ^ text.length ∧
      upperHex text.length (digitsValue 16 (text.filterMap hexValue?)) =
        text.map Char.toUpper := by
  obtain ⟨count, capitals⟩ := map_upperDigit_filterMap hex
  have small : ∀ v ∈ text.filterMap hexValue?, v < 16 := by
    intro v mem
    obtain ⟨c, -, value⟩ := List.mem_filterMap.1 mem
    exact hexValue?_lt value
  rw [← count]
  refine ⟨digitsValue_lt small, ?_⟩
  rw [upperHex, fixedDigits_digitsValue small, capitals]

/-- A number is written as its bytes are, two digits for each. -/
theorem upperHex_eq_flatMap (width n : Nat) :
    upperHex (2 * width) n = (bigEndian width n).flatMap fun b => upperHex 2 b.toNat := by
  induction width generalizing n with
  | zero => rfl
  | succ width ih =>
    have byte : (UInt8.ofNat (n % 256)).toNat = n % 256 := by
      rw [UInt8.toNat_ofNat']
      omega
    have high : n % 256 / 16 % 16 = n / 16 % 16 := by omega
    have low : n % 256 % 16 = n % 16 := by omega
    have rest : n / 16 / 16 = n / 256 := by omega
    have bytes :
        bigEndian (width + 1) n = bigEndian width (n / 256) ++ [UInt8.ofNat (n % 256)] := by
      simp [bigEndian, fixedDigits]
    rw [bytes, List.flatMap_append, ← ih, List.flatMap_singleton, byte]
    simp [upperHex, fixedDigits, Nat.mul_succ, high, low, rest]

end Text

namespace Dsuid

open Text

variable {d : Dsuid} {text : List Char}

/-- Characters that are read as an identifier, with the one that they are read as. -/
theorem ofDigits_eq_ok_iff : ofDigits text = .ok d ↔
    (text.length = 32 ∨ text.length = 34) ∧ text.all isHexDigit = true ∧
      d = ofUuid (BitVec.ofNat 128 (digitsValue 16 ((text.take 32).filterMap hexValue?))) := by
  have length (hex : text.all isHexDigit = true) : byteLength text = text.length := by
    rw [← length_toUTF8_ofList, toUTF8_of_hex hex, List.length_map]
  unfold ofDigits
  by_cases hex : text.all isHexDigit = true
  · rw [length hex]
    by_cases wrong : text.length ≠ 32 ∧ text.length ≠ 34
    · simp [wrong]
    · have right : text.length = 32 ∨ text.length = 34 := by omega
      simp only [wrong, right, hex, if_true, if_false, Except.ok.injEq, true_and]
      exact eq_comm
  · constructor
    · intro read
      simp only [hex] at read
      split at read <;> cases read
    · rintro ⟨-, digits, -⟩
      exact absurd digits hex

/-- Characters that write an identifier: 32 digits in either case, then two of a tag or none. -/
structure Spelling (d : Dsuid) (unique tag : List Char) : Prop where
  unique : unique.map Char.toUpper = d.digits.take 32
  tag : tag = [] ∨ tag.length = 2 ∧ tag.all isHexDigit = true

namespace Spelling

variable {u : BitVec 128} {unique tag : List Char}

theorem length_unique (spelling : Spelling d unique tag) : unique.length = 32 := by
  have same := congrArg List.length spelling.unique
  rwa [List.length_map, List.length_take, length_digits] at same

theorem values (spelling : Spelling d unique tag) :
    unique.filterMap hexValue? = fixedDigits 16 32 d.uuid.toNat := by
  rw [← filterMap_hexValue?_toUpper, spelling.unique, take_digits, filterMap_upperHex]

theorem isHexDigit (spelling : Spelling d unique tag) :
    (unique ++ tag).all Text.isHexDigit = true := by
  have front : unique.all Text.isHexDigit = true := by
    rw [List.all_eq_true]
    intro c mem
    have capital : c.toUpper ∈ d.digits := by
      apply List.mem_of_mem_take
      rw [← spelling.unique]
      exact List.mem_map_of_mem mem
    obtain ⟨n, small, eq⟩ := mem_digits capital
    rw [Text.isHexDigit, ← hexValue?_toUpper, eq, (upperDigit_spec n small).1]
    rfl
  rw [List.all_append, front]
  rcases spelling.tag with rfl | ⟨-, hex⟩
  · rfl
  · exact hex

/-- Every spelling is read as the identifier, and so it is with blanks around it. -/
theorem parse_eq {front back : List Char} (spelling : Spelling (ofUuid u) unique tag)
    (before : ∀ c ∈ front, isBlank c = true) (behind : ∀ c ∈ back, isBlank c = true) :
    parse (String.ofList (front ++ (unique ++ tag) ++ back)) = .ok (ofUuid u) := by
  have solid : ∀ c ∈ unique ++ tag, isBlank c = false := fun c mem =>
    isBlank_of_isHexDigit (List.all_eq_true.1 spelling.isHexDigit c mem)
  have length : (unique ++ tag).length = 32 ∨ (unique ++ tag).length = 34 := by
    rw [List.length_append, spelling.length_unique]
    rcases spelling.tag with rfl | ⟨two, -⟩
    · exact Or.inl rfl
    · exact Or.inr (by rw [two])
  have value : digitsValue 16 (((unique ++ tag).take 32).filterMap hexValue?) = u.toNat := by
    rw [List.take_left' spelling.length_unique, spelling.values, digitsValue_fixedDigits]
    exact Nat.mod_eq_of_lt u.isLt
  rw [parse, String.toList_ofList, trim_surrounded before solid behind, ofDigits_eq_ok_iff, value,
    BitVec.ofNat_toNat, BitVec.setWidth_eq]
  exact ⟨length, spelling.isHexDigit, rfl⟩

end Spelling

theorem parse_text (u : BitVec 128) : parse (ofUuid u).text = .ok (ofUuid u) := by
  have found := parse?_text (ofUuid u)
  unfold parse? at found
  cases read : parse (ofUuid u).text with
  | ok d =>
    rw [read] at found
    exact congrArg Except.ok (Option.some.inj found)
  | error refusal =>
    rw [read] at found
    cases found

theorem text_of_parse {s : String} (parsed : parse s = .ok d) :
    d.text = String.ofList (((trim s.toList).take 32).map Char.toUpper ++ ['0', '0']) := by
  obtain ⟨length, hex, rfl⟩ := ofDigits_eq_ok_iff.1 parsed
  have full : ((trim s.toList).take 32).length = 32 := by
    rw [List.length_take]
    omega
  obtain ⟨bound, written⟩ := upperHex_digitsValue (all_isHexDigit_take 32 hex)
  rw [full] at bound written
  rw [Dsuid.text, digits, ofUuid, BitVec.toNat_ofNat, Nat.mod_eq_of_lt (by simpa using bound),
    written]

theorem text_eq_flatMap (d : Dsuid) :
    d.text = String.ofList (d.toBytes.flatMap fun b => upperHex 2 b.toNat) := by
  rw [text, digits, toBytes, List.flatMap_append, ← upperHex_eq_flatMap]
  rfl

/-- Texts that are read are read alike exactly if the canonical texts are the same. -/
theorem eq_iff_text_eq {s₁ s₂ : String} {d₁ d₂ : Dsuid} (first : parse s₁ = .ok d₁)
    (second : parse s₂ = .ok d₂) : d₁ = d₂ ↔ d₁.text = d₂.text := by
  constructor
  · rintro rfl
    rfl
  · intro same
    obtain ⟨-, -, rfl⟩ := ofDigits_eq_ok_iff.1 first
    obtain ⟨-, -, rfl⟩ := ofDigits_eq_ok_iff.1 second
    -- both are read from the one text
    have read := parse_text (BitVec.ofNat 128 (digitsValue 16
      (((trim s₁.toList).take 32).filterMap hexValue?)))
    rw [same, parse_text] at read
    exact (Except.ok.inj read).symm

/-- The text of an identifier is the hexadecimal form of its 17 bytes and is read as it. So is every
other spelling of it, in either case, with any tag or none and with blanks around it. Whatever else
is read, its identifier is known by its text, which is written with the digits that were read. -/
theorem text_canonical :
    (∀ u : BitVec 128, (ofUuid u).toBytes.length = 17 ∧
      (ofUuid u).text = String.ofList ((ofUuid u).toBytes.flatMap fun b => upperHex 2 b.toNat) ∧
      parse (ofUuid u).text = .ok (ofUuid u) ∧
      ∀ front unique tag back, (∀ c ∈ front, isBlank c = true) → (∀ c ∈ back, isBlank c = true) →
        Spelling (ofUuid u) unique tag →
        parse (String.ofList (front ++ (unique ++ tag) ++ back)) = .ok (ofUuid u)) ∧
    (∀ s₁ s₂ d₁ d₂, parse s₁ = .ok d₁ → parse s₂ = .ok d₂ → (d₁ = d₂ ↔ d₁.text = d₂.text)) ∧
    ∀ s d, parse s = .ok d →
      d.text = String.ofList (((trim s.toList).take 32).map Char.toUpper ++ ['0', '0']) := by
  refine ⟨fun u => ⟨?_, text_eq_flatMap _, parse_text u, ?_⟩, ?_, ?_⟩
  · simp [toBytes, bigEndian]
  · intro front unique tag back before behind spelling
    exact spelling.parse_eq before behind
  · intro s₁ s₂ d₁ d₂ first second
    exact eq_iff_text_eq first second
  · intro s d parsed
    exact text_of_parse parsed

/-- The bare unique id in small digits, between blanks, is another text of the host's identifier. -/
theorem text_canonical_default_host :
    let bare := "\u3000\t6123a881016010000000f2ca0deb3707 "
    defaultHost.text = "6123A881016010000000F2CA0DEB370700" ∧
      parse bare = .ok defaultHost ∧ parse defaultHost.text = .ok defaultHost ∧
      (defaultHost = ofUuid 0 ↔ defaultHost.text = (ofUuid 0).text) ∧
      defaultHost.text =
        String.ofList (((trim bare.toList).take 32).map Char.toUpper ++ ['0', '0']) := by
  intro bare
  have spelling : Spelling defaultHost "6123a881016010000000f2ca0deb3707".toList [] :=
    ⟨by decide +kernel, Or.inl rfl⟩
  obtain ⟨canonical, alike, written⟩ := text_canonical
  obtain ⟨-, -, read, spelled⟩ := canonical defaultHost.uuid
  have parsed : parse bare = .ok defaultHost :=
    spelled ['\u3000', '\t'] "6123a881016010000000f2ca0deb3707".toList [] [' ']
      (List.all_eq_true.1 rfl) (List.all_eq_true.1 rfl) spelling
  have zero : parse (ofUuid 0).text = .ok (ofUuid 0) := (canonical 0).2.2.1
  exact ⟨by decide +kernel, parsed, read, alike _ _ _ _ parsed zero, written _ _ parsed⟩

end Dsuid

end DeviceConnector
