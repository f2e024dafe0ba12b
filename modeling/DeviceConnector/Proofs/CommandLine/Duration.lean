import DeviceConnector.CommandLine.Duration
import DeviceConnector.Proofs.Text.Reading
import Mathlib.Algebra.Group.Nat.Defs
/-!
# The texts that are read as durations

A duration is a plus sign or none, decimal digits and a unit or none, with nothing in between. It is
refused if its number is zero or does not fit into 64 bits, and so is every other text.
-/

namespace DeviceConnector.Duration

open Text

def units : List (List Char × Nat) := [(['m', 's'], 1), (['s'], 1000), ([], 1000)]

/-- The text is a number, with a plus sign in front or without, and directly after it a unit. -/
inductive Spells : List Char → Nat → Nat → Prop where
  | intro {sign digits suffix : List Char} {unit : Nat} (signed : sign = [] ∨ sign = ['+'])
      (nonempty : digits ≠ []) (decimal : ∀ c ∈ digits, c.isDigit = true)
      (listed : (suffix, unit) ∈ units) :
      Spells (sign ++ digits ++ suffix) (decimalValue digits) unit

variable {text : List Char} {value unit millis : Nat}

theorem exists_suffix {number : List Char} (split : splitUnit text = (number, unit)) :
    ∃ suffix, text = number ++ suffix ∧ (suffix, unit) ∈ units := by
  rw [← List.reverse_reverse text]
  unfold splitUnit at split
  split at split
  · rename_i number ends
    cases split
    exact ⟨['m', 's'], by simp [ends], by simp [units]⟩
  · rename_i number _ ends
    cases split
    exact ⟨['s'], by simp [ends], by simp [units]⟩
  · cases split
    exact ⟨[], by simp, by simp [units]⟩

/-- A unit is found behind a digit, since no digit belongs to a unit. -/
theorem splitUnit_append {front suffix : List Char} {last : Char} (digit : last.isDigit = true)
    (listed : (suffix, unit) ∈ units) :
    splitUnit (front ++ [last] ++ suffix) = (front ++ [last], unit) := by
  have other : last ≠ 'm' ∧ last ≠ 's' := by
    constructor <;> (rintro rfl; cases digit)
  simp only [units, List.mem_cons, List.not_mem_nil, or_false, Prod.mk.injEq] at listed
  unfold splitUnit
  rcases listed with ⟨rfl, rfl⟩ | ⟨rfl, rfl⟩ | ⟨rfl, rfl⟩
  · simp
  · simp [other]
  · simp [other]

def IsNumber (number : List Char) (value : Nat) : Prop :=
  IsNumeral 10 number value ∨ ∃ digits, number = '+' :: digits ∧ IsNumeral 10 digits value

theorem spells_iff : Spells text value unit ↔
    (splitUnit text).2 = unit ∧ IsNumber (splitUnit text).1 value := by
  constructor
  · rintro ⟨signed, nonempty, decimal, listed⟩
    rename_i sign digits suffix
    have numeral : IsNumeral 10 digits (decimalValue digits) :=
      isNumeral_ten_iff.2 ⟨nonempty, decimal, rfl⟩
    have split : splitUnit (sign ++ digits ++ suffix) = (sign ++ digits, unit) := by
      have digit := decimal _ (List.getLast_mem nonempty)
      rw [← List.dropLast_concat_getLast nonempty, ← List.append_assoc]
      exact splitUnit_append digit listed
    rw [split]
    refine ⟨rfl, ?_⟩
    rcases signed with rfl | rfl
    · exact Or.inl numeral
    · exact Or.inr ⟨digits, rfl, numeral⟩
  · cases split : splitUnit text with
    | mk number unit' =>
      obtain ⟨suffix, rfl, listed⟩ := exists_suffix split
      rintro ⟨rfl, numeral | ⟨digits, rfl, numeral⟩⟩
      · obtain ⟨nonempty, decimal, rfl⟩ := isNumeral_ten_iff.1 numeral
        exact .intro (Or.inl rfl) nonempty decimal listed
      · obtain ⟨nonempty, decimal, rfl⟩ := isNumeral_ten_iff.1 numeral
        exact .intro (Or.inr rfl) nonempty decimal listed

theorem readUnsigned?_splitUnit {limit : Nat} :
    readUnsigned? 10 limit (splitUnit text).1 = some value ↔
      value ≤ limit ∧ Spells text value (splitUnit text).2 := by
  rw [readUnsigned?_eq_some_iff, spells_iff, and_iff_right rfl, IsNumber]

theorem Spells.unique {value' unit' : Nat} (spells : Spells text value unit)
    (spells' : Spells text value' unit') : value = value' ∧ unit = unit' := by
  obtain ⟨rfl, -⟩ := spells_iff.1 spells
  obtain ⟨rfl, -⟩ := spells_iff.1 spells'
  have read := readUnsigned?_splitUnit.2 ⟨Nat.le_max_left value value', spells⟩
  rw [readUnsigned?_splitUnit.2 ⟨Nat.le_max_right value value', spells'⟩] at read
  exact ⟨(Option.some.inj read).symm, rfl⟩

theorem Spells.ne_nil (spells : Spells text value unit) : text ≠ [] := by
  obtain ⟨-, nonempty, -, -⟩ := spells
  simp [nonempty]

inductive Outcome (text : List Char) : Except Error Nat → Prop where
  | read {value unit : Nat} (spells : Spells text value unit) (positive : 1 ≤ value)
      (small : value ≤ 2 ^ 64 - 1) : Outcome text (.ok (value * unit))
  | empty (none : text = []) : Outcome text (.error .empty)
  | zero {unit : Nat} (spells : Spells text 0 unit) : Outcome text (.error .zero)
  | invalid (some : text ≠ [])
      (large : ∀ value unit, Spells text value unit → 2 ^ 64 - 1 < value) :
      Outcome text (.error (.invalid (String.ofList text)))

theorem outcome_ofTrimmed (text : List Char) : Outcome text (ofTrimmed text) := by
  by_cases none : text = []
  · subst none
    exact .empty rfl
  · have solid : text.isEmpty = false := by simpa using none
    cases number : readUnsigned? 10 (UInt64.size - 1) (splitUnit text).1 with
    | none =>
      simp only [ofTrimmed, solid, number, Bool.false_eq_true, if_false]
      refine .invalid none fun value unit spells => Nat.lt_of_not_le fun small => ?_
      obtain ⟨rfl, -⟩ := spells_iff.1 spells
      have read : readUnsigned? 10 (UInt64.size - 1) (splitUnit text).1 = some value :=
        readUnsigned?_splitUnit.2 ⟨small, spells⟩
      cases number.symm.trans read
    | some value =>
      obtain ⟨small, spells⟩ := readUnsigned?_splitUnit.1 number
      simp only [ofTrimmed, solid, number, Bool.false_eq_true, if_false]
      cases value with
      | zero => exact .zero spells
      | succ value => exact .read spells (Nat.succ_pos value) small

/-- No text has two outcomes, since it spells at most one number and unit. -/
theorem Outcome.unique {first second : Except Error Nat} (outcome : Outcome text first)
    (outcome' : Outcome text second) : first = second := by
  cases outcome with
  | read spells positive small =>
    cases outcome' with
    | read spells' =>
      obtain ⟨rfl, rfl⟩ := spells.unique spells'
      rfl
    | empty none => exact absurd none spells.ne_nil
    | zero spells' =>
      have := (spells.unique spells').1
      omega
    | invalid _ large =>
      have := large _ _ spells
      omega
  | empty none =>
    cases outcome' with
    | read spells => exact absurd none spells.ne_nil
    | empty => rfl
    | zero spells => exact absurd none spells.ne_nil
    | invalid some => exact absurd none some
  | zero spells =>
    cases outcome' with
    | read spells' positive =>
      have := (spells.unique spells').1
      omega
    | empty none => exact absurd none spells.ne_nil
    | zero => rfl
    | invalid _ large =>
      have := large _ _ spells
      omega
  | invalid some large =>
    cases outcome' with
    | read spells _ small =>
      have := large _ _ spells
      omega
    | empty none => exact absurd none some
    | zero spells =>
      have := large _ _ spells
      omega
    | invalid => rfl

theorem ofTrimmed_eq_iff {outcome : Except Error Nat} :
    ofTrimmed text = outcome ↔ Outcome text outcome := by
  constructor
  · rintro rfl
    exact outcome_ofTrimmed text
  · exact (outcome_ofTrimmed text).unique

theorem Outcome.seconds_le (outcome : Outcome text (.ok millis)) :
    millis / 1000 ≤ 2 ^ 64 - 1 := by
  cases outcome with
  | @read value unit spells _ small =>
    have short : unit ≤ 1000 := by
      obtain ⟨-, -, -, listed⟩ := spells
      simp only [units, List.mem_cons, List.not_mem_nil, or_false, Prod.mk.injEq] at listed
      omega
    calc value * unit / 1000
        ≤ value * 1000 / 1000 := Nat.div_le_div_right (Nat.mul_le_mul_left value short)
      _ = value := Nat.mul_div_cancel value (by decide)
      _ ≤ 2 ^ 64 - 1 := small

/-- A text is read as a duration exactly if, between the blanks around it, it spells a number from 1
up to the greatest of 64 bits and a unit: the duration is so many of these, its whole seconds fit
into 64 bits. Of every other text the command line is told what is wrong with it, with the code for
wrong usage. -/
theorem duration_grammar (s : String) :
    IsTrimmed s.toList (trim s.toList) ∧
    (∀ outcome, parse s = outcome ↔ Outcome (trim s.toList) outcome) ∧
    (∀ millis, parse s = .ok millis ↔ ∃ value unit, Spells (trim s.toList) value unit ∧
      1 ≤ value ∧ value ≤ 2 ^ 64 - 1 ∧ millis = value * unit) ∧
    (∀ millis, parse s = .ok millis → millis / 1000 ≤ 2 ^ 64 - 1) ∧
    Error.empty.toCommandError = ⟨64, "duration must not be empty"⟩ ∧
    Error.zero.toCommandError = ⟨64, "duration must be greater than zero"⟩ ∧
    ∀ shown, (Error.invalid shown).toCommandError = ⟨64, "invalid duration value: " ++ shown⟩ := by
  refine ⟨isTrimmed_trim _, fun _ => ofTrimmed_eq_iff, ?_, ?_, rfl, rfl, fun _ => rfl⟩
  · intro millis
    refine ofTrimmed_eq_iff.trans ⟨?_, ?_⟩
    · rintro ⟨spells, positive, small⟩
      exact ⟨_, _, spells, positive, small, rfl⟩
    · rintro ⟨value, unit, spells, positive, small, rfl⟩
      exact .read spells positive small
  · intro millis read
    exact (ofTrimmed_eq_iff.1 read).seconds_le

/-- The greatest number that is read is 2^64 - 1, here in seconds; the next one is not read. -/
theorem duration_grammar_limit :
    parse "\u2003+0150ms\n" = .ok 150 ∧ parse "+00s" = .error .zero ∧
    parse "18446744073709551615" = .ok 18446744073709551615000 ∧
    parse "18446744073709551616 " = .error (.invalid "18446744073709551616") := by
  have decimal {digits : List Char} (all : digits.all Char.isDigit = true) :
      ∀ c ∈ digits, c.isDigit = true := List.all_eq_true.1 all
  have signed : Spells (trim "\u2003+0150ms\n".toList) 150 1 :=
    @Spells.intro ['+'] ['0', '1', '5', '0'] ['m', 's'] 1 (Or.inr rfl) (by decide)
      (decimal (by decide)) (by simp [units])
  have zero : Spells (trim "+00s".toList) 0 1000 :=
    @Spells.intro ['+'] ['0', '0'] ['s'] 1000 (Or.inr rfl) (by decide) (decimal (by decide))
      (by simp [units])
  have greatest : Spells (trim "18446744073709551615".toList) (2 ^ 64 - 1) 1000 :=
    @Spells.intro [] "18446744073709551615".toList [] 1000 (Or.inl rfl) (by decide)
      (decimal (by decide)) (by simp [units])
  have next : Spells (trim "18446744073709551616 ".toList) (2 ^ 64) 1000 :=
    @Spells.intro [] "18446744073709551616".toList [] 1000 (Or.inl rfl) (by decide)
      (decimal (by decide)) (by simp [units])
  refine ⟨?_, ?_, ?_, ?_⟩
  · exact ((duration_grammar _).2.1 _).2 (.read signed (by decide) (by decide))
  · exact ((duration_grammar _).2.1 _).2 (.zero zero)
  · exact ((duration_grammar _).2.1 _).2 (.read greatest (by decide) (by decide))
  · refine ((duration_grammar _).2.1 _).2 (.invalid next.ne_nil fun value unit spells => ?_)
    have := (next.unique spells).1
    omega

end DeviceConnector.Duration
