import DeviceConnector.Json.Record
import DeviceConnector.Proofs.Json.Syntax
/-!
# Writing and reading texts and numbers

A text is escaped when it is written and comes back when it is read, and so does a number of 32 bits
as a decimal literal. What is written is spelled as the format demands.
-/

namespace DeviceConnector.Json

/-- A control character is read back from the number that its escape writes. -/
theorem unescape_control : ∀ n < 32,
    hexWord? 0x30 0x30 (hexByte (n / 16)) (hexByte (n % 16)) = some n ∧
    isTrailSurrogate n = false ∧ isLeadSurrogate n = false ∧
    String.utf8EncodeChar (Char.ofNat n) = [UInt8.ofNat n] := by
  decide

theorem unescapeOnto_plain {b : UInt8} (plain : b ≠ 0x5C) (read rest : Bytes) :
    unescapeOnto read (b :: rest) = unescapeOnto (b :: read) rest := by
  rw [unescapeOnto.eq_def]
  split <;> simp_all

theorem unescapeOnto_escapeByte (b : UInt8) (read rest : Bytes) :
    unescapeOnto read (escapeByte b ++ rest) = unescapeOnto (b :: read) rest := by
  unfold escapeByte
  split
  · subst_vars; simp [unescapeOnto, escapeLetter?]
  split
  · subst_vars; simp [unescapeOnto, escapeLetter?]
  split
  · subst_vars; simp [unescapeOnto, escapeLetter?]
  split
  · subst_vars; simp [unescapeOnto, escapeLetter?]
  split
  · subst_vars; simp [unescapeOnto, escapeLetter?]
  split
  · subst_vars; simp [unescapeOnto, escapeLetter?]
  split
  · subst_vars; simp [unescapeOnto, escapeLetter?]
  split
  · rename_i low
    obtain ⟨word, trail, lead, encoded⟩ := unescape_control b.toNat low
    simp [unescapeOnto, word, trail, lead, pushCodePoint, encoded]
  · exact unescapeOnto_plain (by assumption) read rest

theorem unescapeOnto_escape (bytes read rest : Bytes) :
    unescapeOnto read (escape bytes ++ rest) = unescapeOnto (bytes.reverse ++ read) rest := by
  induction bytes generalizing read with
  | nil => rfl
  | cons b bytes ih =>
    have escaped : escape (b :: bytes) = escapeByte b ++ escape bytes := rfl
    rw [escaped, List.append_assoc, unescapeOnto_escapeByte, ih]
    simp

theorem unescape?_escape (bytes : Bytes) : unescape? (escape bytes) = some bytes := by
  have read := unescapeOnto_escape bytes [] []
  simpa [unescape?, unescapeOnto] using read

theorem toText?_ofText (text : String) : toText? (ofText text) = some text := by
  have decoded : String.fromUTF8? text.toUTF8 = some text := by
    rw [String.fromUTF8?, String.toUTF8_eq_toByteArray, dif_pos text.isValidUTF8]
    rfl
  rw [toText?, ofText, unescape?_escape, Option.bind_some, Array.toArray_toList]
  exact decoded

theorem within?_control : ∀ n < 32,
    [0x5C, 0x75, 0x30, 0x30, hexByte (n / 16), hexByte (n % 16)].foldlM StringPhase.within? .plain =
      some .plain := by
  decide

/-- An escaped byte takes a string from its plain phase back to it. -/
theorem foldlM_escapeByte (b : UInt8) :
    (escapeByte b).foldlM StringPhase.within? .plain = some .plain := by
  unfold escapeByte
  split
  · rfl
  split
  · rfl
  split
  · rfl
  split
  · rfl
  split
  · rfl
  split
  · rfl
  split
  · rfl
  split
  · rename_i low
    exact within?_control b.toNat low
  · rename_i quote backslash _ _ _ _ _ high
    simp [StringPhase.within?, StringPhase.next?, quote, backslash, high]

theorem isContent_escape (bytes : Bytes) : IsContent (escape bytes) := by
  unfold IsContent
  induction bytes with
  | nil => rfl
  | cons b bytes ih =>
    rw [escape, List.flatMap_cons, List.foldlM_append, foldlM_escapeByte]
    exact ih

def decimal (n : Nat) : Bytes := (Nat.toDigits 10 n).map fun c => UInt8.ofNat c.toNat

theorem digit_byte : ∀ d < 10, isDigit (UInt8.ofNat (48 + d)) = true ∧
    (UInt8.ofNat (48 + d)).toNat - 0x30 = d ∧
    (d ≠ 0 → NumberPhase.first? (UInt8.ofNat (48 + d)) = some .integer) := by
  decide

theorem decimal_of_lt {n : Nat} (small : n < 10) : decimal n = [UInt8.ofNat (48 + n)] := by
  rw [decimal, Nat.toDigits_of_lt_base small]
  simp [Nat.toNat_digitChar_of_lt_ten small]

theorem decimal_of_le {n : Nat} (large : 10 ≤ n) :
    decimal n = decimal (n / 10) ++ [UInt8.ofNat (48 + n % 10)] := by
  rw [decimal, Nat.toDigits_of_base_le (by decide) large]
  simp [decimal, Nat.toNat_digitChar_of_lt_ten (Nat.mod_lt n (by decide))]

theorem decimal_isDigit (n : Nat) : (decimal n).all isDigit = true := by
  induction n using Nat.strongRecOn with
  | ind n ih =>
    by_cases small : n < 10
    · rw [decimal_of_lt small]
      simpa using (digit_byte n small).1
    · have digit := (digit_byte (n % 10) (Nat.mod_lt n (by decide))).1
      rw [decimal_of_le (by omega), List.all_append, ih (n / 10) (by omega)]
      simpa using digit

theorem decimal_value (n : Nat) :
    (decimal n).foldl (fun n b => n * 10 + (b.toNat - 0x30)) 0 = n := by
  induction n using Nat.strongRecOn with
  | ind n ih =>
    by_cases small : n < 10
    · have value := (digit_byte n small).2.1
      rw [decimal_of_lt small, List.foldl_cons, List.foldl_nil, value]
      omega
    · have value := (digit_byte (n % 10) (Nat.mod_lt n (by decide))).2.1
      rw [decimal_of_le (by omega), List.foldl_append, ih (n / 10) (by omega), List.foldl_cons,
        List.foldl_nil, value]
      omega

theorem next?_integer {b : UInt8} (digit : isDigit b = true) :
    [b].foldlM NumberPhase.next? .integer = some .integer := by
  simp [NumberPhase.next?, digit]

theorem decimal_begins {n : Nat} (positive : 0 < n) :
    ∃ b rest, decimal n = b :: rest ∧ NumberPhase.first? b = some .integer ∧
      rest.foldlM NumberPhase.next? .integer = some .integer := by
  induction n using Nat.strongRecOn with
  | ind n ih =>
    by_cases small : n < 10
    · have first := (digit_byte n small).2.2 (by omega)
      exact ⟨_, [], decimal_of_lt small, first, rfl⟩
    · obtain ⟨b, rest, eq, first, phases⟩ := ih (n / 10) (by omega) (by omega)
      have digit := (digit_byte (n % 10) (Nat.mod_lt n (by decide))).1
      refine ⟨b, rest ++ [UInt8.ofNat (48 + n % 10)], ?_, first, ?_⟩
      · rw [decimal_of_le (by omega), eq, List.cons_append]
      · rw [List.foldlM_append, phases]
        exact next?_integer digit

theorem isNumber_decimal (n : Nat) : IsNumber (decimal n) := by
  by_cases zero : n = 0
  · subst zero
    exact ⟨0x30, [], .zero, .zero, rfl, rfl, rfl, rfl⟩
  · obtain ⟨b, rest, eq, first, phases⟩ := decimal_begins (Nat.pos_of_ne_zero zero)
    exact ⟨b, rest, .integer, .integer, eq, first, phases, rfl⟩

theorem Value.word?_ofNat (n : UInt32) : (Value.ofNat n.toNat).word? = some n := by
  have nonempty : (decimal n.toNat).isEmpty = false := by
    obtain ⟨b, rest, first, last, eq, -⟩ := isNumber_decimal n.toNat
    simp [eq]
  have word : Value.literalWord? (decimal n.toNat) = some n := by
    unfold Value.literalWord?
    rw [decimal_isDigit, decimal_value, nonempty]
    simp [n.toNat_lt]
  exact word

theorem Value.text?_ofText (text : String) : (Value.ofText text).text? = some text :=
  toText?_ofText text

theorem Value.isSpelled_ofText (text : String) : (Value.ofText text).IsSpelled :=
  isContent_escape _

theorem Value.isSpelled_ofNat (n : Nat) : (Value.ofNat n).IsSpelled :=
  isNumber_decimal n

end DeviceConnector.Json
