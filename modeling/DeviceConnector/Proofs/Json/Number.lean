import DeviceConnector.Proofs.Json.Scalar
import DeviceConnector.Text.Radix
import Mathlib.Data.List.Basic
/-!
# Literals of numbers

A number is a minus sign or none, a whole part without a leading zero, and perhaps a fraction and an
exponent. The lexer takes the literals of this grammar and no others. A literal is read as a number
of 32 bits exactly if it is its whole part alone and the number fits.
-/

namespace DeviceConnector.Json

def AllDigits (bytes : Bytes) : Prop := ∀ b ∈ bytes, isDigit b = true

def AreDigits (bytes : Bytes) : Prop := bytes ≠ [] ∧ AllDigits bytes

/-- The digit zero alone, or digits of which the first is another one. -/
def IsPlain (bytes : Bytes) : Prop := AreDigits bytes ∧ (bytes.head? = some 0x30 → bytes = [0x30])

def Then (first second : Bytes → Prop) (bytes : Bytes) : Prop :=
  ∃ before after, bytes = before ++ after ∧ first before ∧ second after

def IsSign (bytes : Bytes) : Prop := bytes = [] ∨ bytes = [0x2B] ∨ bytes = [0x2D]

def IsFraction : Bytes → Prop
  | [] => True
  | b :: bytes => b = 0x2E ∧ AreDigits bytes

def IsExponent : Bytes → Prop
  | [] => True
  | b :: bytes => (b = 0x65 ∨ b = 0x45) ∧ Then IsSign AreDigits bytes

def IsTail : Bytes → Prop := Then IsFraction IsExponent

def IsUnsigned : Bytes → Prop := Then IsPlain IsTail

/-- What the grammar lets follow a number that has been read so far. -/
def NumberPhase.Rest : NumberPhase → Bytes → Prop
  | minus => IsUnsigned
  | zero => IsTail
  | integer => Then AllDigits IsTail
  | point => Then AreDigits IsExponent
  | fraction => Then AllDigits IsExponent
  | exponent => Then IsSign AreDigits
  | exponentSign => AreDigits
  | exponentDigits => AllDigits

variable {first second : Bytes → Prop} {b : UInt8} {bytes literal : Bytes}

theorem then_nil : Then first second [] ↔ first [] ∧ second [] := by
  simp [Then]

/-- The first byte belongs to the second kind if there are none of the first. -/
theorem then_cons : Then first second (b :: bytes) ↔
    (first [] ∧ second (b :: bytes)) ∨ Then (fun before => first (b :: before)) second bytes := by
  constructor
  · rintro ⟨_ | ⟨c, before⟩, after, split, begun, ended⟩
    · exact Or.inl ⟨begun, by rwa [split]⟩
    · cases split
      exact Or.inr ⟨before, after, rfl, begun, ended⟩
  · rintro (⟨begun, ended⟩ | ⟨before, after, rfl, begun, ended⟩)
    · exact ⟨[], _, rfl, begun, ended⟩
    · exact ⟨b :: before, after, rfl, begun, ended⟩

theorem then_and {p : Prop} :
    Then (fun before => p ∧ first before) second bytes ↔ p ∧ Then first second bytes := by
  constructor
  · rintro ⟨before, after, split, ⟨given, begun⟩, ended⟩
    exact ⟨given, before, after, split, begun, ended⟩
  · rintro ⟨given, before, after, split, begun, ended⟩
    exact ⟨before, after, split, ⟨given, begun⟩, ended⟩

theorem then_or {other : Bytes → Prop} :
    Then (fun before => first before ∨ other before) second bytes ↔
      Then first second bytes ∨ Then other second bytes := by
  constructor
  · rintro ⟨before, after, split, begun | begun, ended⟩
    · exact Or.inl ⟨before, after, split, begun, ended⟩
    · exact Or.inr ⟨before, after, split, begun, ended⟩
  · rintro (⟨before, after, split, begun, ended⟩ | ⟨before, after, split, begun, ended⟩)
    · exact ⟨before, after, split, Or.inl begun, ended⟩
    · exact ⟨before, after, split, Or.inr begun, ended⟩

theorem then_eq_nil : Then (· = []) second bytes ↔ second bytes := by
  simp [Then]

theorem allDigits_cons : AllDigits (b :: bytes) ↔ isDigit b = true ∧ AllDigits bytes :=
  List.forall_mem_cons

theorem areDigits_cons : AreDigits (b :: bytes) ↔ isDigit b = true ∧ AllDigits bytes := by
  rw [AreDigits, allDigits_cons, and_iff_right (List.cons_ne_nil b bytes)]

theorem isPlain_cons : IsPlain (b :: bytes) ↔
    (b = 0x30 ∧ bytes = []) ∨ ((isDigit b = true ∧ b ≠ 0x30) ∧ AllDigits bytes) := by
  by_cases zero : b = 0x30
  · subst zero
    have digit : isDigit 0x30 = true := by decide
    simp only [IsPlain, areDigits_cons, digit, List.head?_cons, List.cons.injEq, true_and,
      true_imp_iff, ne_eq, not_true_eq_false, and_false, false_and, or_false]
    exact ⟨fun plain => plain.2, fun alone => ⟨by simp [alone, AllDigits], alone⟩⟩
  · simp [IsPlain, areDigits_cons, zero]

theorem isSign_cons : IsSign (b :: bytes) ↔ (b = 0x2B ∨ b = 0x2D) ∧ bytes = [] := by
  simp [IsSign, or_and_right]

theorem then_allDigits_cons : Then AllDigits second (b :: bytes) ↔
    second (b :: bytes) ∨ (isDigit b = true ∧ Then AllDigits second bytes) := by
  simp only [then_cons, allDigits_cons, then_and]
  simp [AllDigits]

theorem then_areDigits_cons : Then AreDigits second (b :: bytes) ↔
    isDigit b = true ∧ Then AllDigits second bytes := by
  simp only [then_cons, areDigits_cons, then_and]
  simp [AreDigits]

theorem then_isPlain_cons : Then IsPlain second (b :: bytes) ↔
    (b = 0x30 ∧ second bytes) ∨
      ((isDigit b = true ∧ b ≠ 0x30) ∧ Then AllDigits second bytes) := by
  simp only [then_cons, isPlain_cons, then_or, then_and, then_eq_nil]
  simp [IsPlain, AreDigits]

theorem then_isSign_cons : Then IsSign second (b :: bytes) ↔
    second (b :: bytes) ∨ ((b = 0x2B ∨ b = 0x2D) ∧ second bytes) := by
  simp only [then_cons, isSign_cons, then_and, then_eq_nil]
  simp [IsSign]

theorem isTail_cons : IsTail (b :: bytes) ↔
    ((b = 0x65 ∨ b = 0x45) ∧ Then IsSign AreDigits bytes) ∨
      (b = 0x2E ∧ Then AreDigits IsExponent bytes) := by
  simp only [IsTail, then_cons, IsFraction, IsExponent, then_and, true_and]

theorem marks_of_digit (digit : isDigit b = true) :
    b ≠ 0x2E ∧ b ≠ 0x65 ∧ b ≠ 0x45 ∧ b ≠ 0x2B ∧ b ≠ 0x2D := by
  refine ⟨?_, ?_, ?_, ?_, ?_⟩ <;> (rintro rfl; exact absurd digit (by decide))

namespace NumberPhase

theorem rest_nil (phase : NumberPhase) : phase.Rest [] ↔ phase.isComplete = true := by
  cases phase <;>
    simp [Rest, IsUnsigned, IsTail, then_nil, IsPlain, AreDigits, AllDigits, IsFraction, IsExponent,
      isComplete]

/-- The lexer takes the bytes that the grammar lets follow, and goes on as the grammar does. -/
theorem rest_cons (phase : NumberPhase) :
    phase.Rest (b :: bytes) ↔ ∃ next, phase.next? b = some next ∧ next.Rest bytes := by
  have marks : isDigit b = true → _ := marks_of_digit
  cases phase with
  | minus =>
    rw [Rest, IsUnsigned, then_isPlain_cons]
    simp only [next?]
    split_ifs <;> simp_all [Rest]
  | zero =>
    rw [Rest, isTail_cons]
    simp only [next?]
    split_ifs <;> simp_all [Rest]
  | integer =>
    rw [Rest, then_allDigits_cons, isTail_cons]
    simp only [next?]
    split_ifs <;> simp_all [Rest]
  | point =>
    rw [Rest, then_areDigits_cons]
    simp only [next?]
    split_ifs <;> simp_all [Rest]
  | fraction =>
    rw [Rest, then_allDigits_cons, IsExponent]
    simp only [next?]
    split_ifs <;> simp_all [Rest]
  | exponent =>
    rw [Rest, then_isSign_cons, areDigits_cons]
    simp only [next?]
    split_ifs <;> simp_all [Rest]
  | exponentSign =>
    rw [Rest, areDigits_cons]
    simp only [next?]
    split_ifs <;> simp_all [Rest]
  | exponentDigits =>
    rw [Rest, allDigits_cons]
    simp only [next?]
    split_ifs <;> simp_all [Rest]

/-- The lexer takes from a phase to the end of a number what the grammar lets follow. -/
theorem ends_iff_rest (phase : NumberPhase) :
    (∃ last, bytes.foldlM next? phase = some last ∧ last.isComplete = true) ↔ phase.Rest bytes := by
  induction bytes generalizing phase with
  | nil => simp [rest_nil]
  | cons b bytes ih =>
    simp only [List.foldlM_cons, Option.bind_eq_bind, Option.bind_eq_some_iff, rest_cons, ← ih]
    constructor
    · rintro ⟨last, ⟨next, taken, phases⟩, complete⟩
      exact ⟨next, taken, last, phases, complete⟩
    · rintro ⟨next, taken, last, phases, complete⟩
      exact ⟨last, ⟨next, taken, phases⟩, complete⟩

end NumberPhase

theorem isNumber_cons : IsNumber (b :: bytes) ↔
    ∃ first, NumberPhase.first? b = some first ∧ first.Rest bytes := by
  constructor
  · rintro ⟨_, _, first, last, split, begins, phases, complete⟩
    cases split
    exact ⟨first, begins, (first.ends_iff_rest).1 ⟨last, phases, complete⟩⟩
  · rintro ⟨first, begins, rest⟩
    obtain ⟨last, phases, complete⟩ := (first.ends_iff_rest).2 rest
    exact ⟨b, bytes, first, last, rfl, begins, phases, complete⟩

/-- The literals of numbers are those of the grammar. -/
theorem isNumber_iff : IsNumber literal ↔
    IsUnsigned literal ∨ ∃ unsigned, literal = 0x2D :: unsigned ∧ IsUnsigned unsigned := by
  cases literal with
  | nil => simp [IsNumber, IsUnsigned, then_nil, IsPlain, AreDigits]
  | cons b bytes =>
    rw [isNumber_cons]
    by_cases minus : b = 0x2D
    · have signed : ¬ IsUnsigned (0x2D :: bytes) := by
        rw [IsUnsigned, then_isPlain_cons]
        simp [isDigit]
      simp [minus, signed, NumberPhase.first?, NumberPhase.Rest]
    · rw [NumberPhase.first?, if_neg minus, ← NumberPhase.rest_cons, NumberPhase.Rest]
      simp [minus]

def literalValue (literal : Bytes) : Nat :=
  Text.digitsValue 10 (literal.map fun b => b.toNat - 0x30)

/-- A number of digits alone is its whole part. -/
theorem isPlain_of_allDigits (number : IsNumber literal) (digits : AllDigits literal) :
    IsPlain literal := by
  have unsigned : IsUnsigned literal := by
    rcases isNumber_iff.1 number with unsigned | ⟨unsigned, rfl, -⟩
    · exact unsigned
    · exact absurd (digits 0x2D (by simp)) (by decide)
  obtain ⟨whole, tail, rfl, plain, rest⟩ := unsigned
  cases tail with
  | nil => rwa [List.append_nil]
  | cons b tail =>
    obtain ⟨point, small, capital, -⟩ := marks_of_digit (digits b (by simp))
    simp [isTail_cons, point, small, capital] at rest

theorem foldl_eq_literalValue (literal : Bytes) :
    literal.foldl (fun n b => n * 10 + (b.toNat - 0x30)) 0 = literalValue literal := by
  rw [literalValue, Text.digitsValue, List.foldl_map]

theorem isPlain_decimal (n : Nat) : IsPlain (decimal n) :=
  isPlain_of_allDigits (isNumber_decimal n) (List.all_eq_true.1 (decimal_isDigit n))

theorem literalValue_decimal (n : Nat) : literalValue (decimal n) = n := by
  rw [← foldl_eq_literalValue, decimal_value]

theorem literalWord?_eq_some_iff (number : IsNumber literal) {n : UInt32} :
    Value.literalWord? literal = some n ↔ IsPlain literal ∧ literalValue literal = n.toNat := by
  have accepted : ¬ (literal.isEmpty || !literal.all isDigit) = true ↔ IsPlain literal := by
    simp only [Bool.or_eq_true, List.isEmpty_iff, Bool.not_eq_true', not_or, Bool.not_eq_false,
      List.all_eq_true]
    exact ⟨fun ⟨_, digits⟩ => isPlain_of_allDigits number digits, fun plain => plain.1⟩
  rw [Value.literalWord?, foldl_eq_literalValue, Option.ite_none_left_eq_some, accepted,
    Option.ite_none_right_eq_some, Option.some_inj]
  refine and_congr_right fun _ => ⟨?_, ?_⟩
  · rintro ⟨small, rfl⟩
    rw [UInt32.toNat_ofNat', Nat.mod_eq_of_lt small]
  · intro same
    rw [same]
    exact ⟨n.toNat_lt, UInt32.ofNat_toNat⟩

/-- Nothing is wrapped: a literal whose number does not fit gives none. -/
theorem literalWord?_eq_none_iff (number : IsNumber literal) :
    Value.literalWord? literal = none ↔
      ¬ (IsPlain literal ∧ literalValue literal ≤ 4294967295) := by
  rw [Option.eq_none_iff_forall_ne_some, ← not_iff_not, not_not]
  simp only [ne_eq, not_forall, not_not, literalWord?_eq_some_iff number]
  constructor
  · rintro ⟨n, plain, written⟩
    have := n.toNat_lt
    exact ⟨plain, by omega⟩
  · rintro ⟨plain, small⟩
    refine ⟨UInt32.ofNat (literalValue literal), plain, ?_⟩
    rw [UInt32.toNat_ofNat_of_lt' (by rw [UInt32.size]; omega)]

end DeviceConnector.Json
