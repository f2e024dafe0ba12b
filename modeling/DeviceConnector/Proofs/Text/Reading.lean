import DeviceConnector.Text.Blank
import DeviceConnector.Text.Radix
/-!
# Reading numbers from texts

What trimming leaves of a text, what its parts between separators are, and which texts are read as
numbers without a minus sign.
-/

namespace DeviceConnector.Text

variable {text inner : List Char}

/-- The inner text has blanks around it, and none at its own ends. -/
structure IsTrimmed (text inner : List Char) : Prop where
  around : ∃ front back, text = front ++ inner ++ back ∧ (∀ c ∈ front, isBlank c = true) ∧
    ∀ c ∈ back, isBlank c = true
  head : ∀ c, inner.head? = some c → isBlank c = false
  last : ∀ c, inner.getLast? = some c → isBlank c = false

theorem dropWhile_isBlank {blanks rest : List Char} (blank : ∀ c ∈ blanks, isBlank c = true)
    (head : ∀ c, rest.head? = some c → isBlank c = false) :
    (blanks ++ rest).dropWhile isBlank = rest := by
  rw [List.dropWhile_append_of_pos blank]
  cases rest with
  | nil => rfl
  | cons c rest => simp [List.dropWhile, head c rfl]

theorem IsTrimmed.trim_eq (trimmed : IsTrimmed text inner) : trim text = inner := by
  obtain ⟨⟨front, back, rfl, before, behind⟩, head, last⟩ := trimmed
  have reversed : ∀ c ∈ back.reverse, isBlank c = true := by simpa using behind
  rw [trim, List.append_assoc]
  cases inner with
  | nil =>
    have nothing : (front ++ back ++ []).dropWhile isBlank = [] :=
      dropWhile_isBlank (fun c mem => (List.mem_append.1 mem).elim (before c) (behind c)) (by simp)
    rw [List.append_nil] at nothing
    rw [List.nil_append, nothing]
    rfl
  | cons c inner =>
    rw [dropWhile_isBlank before, List.reverse_append, dropWhile_isBlank reversed,
      List.reverse_reverse]
    · intro c here
      rw [List.head?_reverse] at here
      exact last c here
    · intro c here
      exact head c here

theorem exists_blanks (text : List Char) :
    ∃ blanks, text = blanks ++ text.dropWhile isBlank ∧ (∀ c ∈ blanks, isBlank c = true) ∧
      ∀ c, (text.dropWhile isBlank).head? = some c → isBlank c = false := by
  refine ⟨text.takeWhile isBlank, List.takeWhile_append_dropWhile.symm, ?_, ?_⟩
  · intro c mem
    exact List.all_eq_true.1 List.all_takeWhile c mem
  · intro c head
    have solid := List.head?_dropWhile_not isBlank text
    rwa [head] at solid

theorem isTrimmed_trim (text : List Char) : IsTrimmed text (trim text) := by
  obtain ⟨front, whole, before, head⟩ := exists_blanks text
  obtain ⟨back, rest, behind, last⟩ := exists_blanks (text.dropWhile isBlank).reverse
  have inner : text.dropWhile isBlank = trim text ++ back.reverse := by
    rw [trim, ← List.reverse_append, ← rest, List.reverse_reverse]
  refine ⟨⟨front, back.reverse, ?_, before, by simpa using behind⟩, ?_, ?_⟩
  · rw [List.append_assoc, ← inner]
    exact whole
  · intro c here
    apply head
    rw [inner, List.head?_append, here]
    rfl
  · intro c here
    apply last
    rwa [trim, List.getLast?_reverse] at here

theorem length_splitOn (separator : Char) (text : List Char) :
    (text.splitOn separator).length = text.count separator + 1 := by
  induction text with
  | nil => rfl
  | cons c text ih =>
    rw [List.splitOn_cons_eq_if_modifyHead]
    by_cases same : c = separator
    · rw [if_pos (beq_iff_eq.2 same), same, List.count_cons_self, List.length_cons, ih]
    · rw [if_neg (mt beq_iff_eq.1 same), List.count_cons_of_ne same, List.length_modifyHead, ih]

theorem notMem_of_mem_splitOn {separator : Char} {part : List Char}
    (mem : part ∈ text.splitOn separator) : separator ∉ part := by
  induction text generalizing part with
  | nil =>
    obtain rfl := List.mem_singleton.1 mem
    exact List.not_mem_nil
  | cons c text ih =>
    rw [List.splitOn_cons_eq_if_modifyHead] at mem
    by_cases same : c = separator
    · rw [if_pos (beq_iff_eq.2 same)] at mem
      rcases List.mem_cons.1 mem with rfl | later
      · exact List.not_mem_nil
      · exact ih later
    · rw [if_neg (mt beq_iff_eq.1 same)] at mem
      cases parts : text.splitOn separator with
      | nil => simp [parts] at mem
      | cons first parts =>
        rw [parts, List.modifyHead_cons] at mem
        rw [parts] at ih
        rcases List.mem_cons.1 mem with rfl | later
        · simp [Ne.symm same, ih (List.mem_cons_self ..)]
        · exact ih (List.mem_cons_of_mem _ later)

/-- A text is the joined list of its parts, and of no other list of parts without the separator. -/
theorem splitOn_eq_iff {separator : Char} {parts : List (List Char)} :
    text.splitOn separator = parts ↔
      text = [separator].intercalate parts ∧ parts ≠ [] ∧ ∀ part ∈ parts, separator ∉ part := by
  constructor
  · rintro rfl
    exact ⟨(List.intercalate_splitOn separator).symm, List.splitOn_ne_nil _ _,
      fun _ mem => notMem_of_mem_splitOn mem⟩
  · rintro ⟨rfl, nonempty, plain⟩
    exact List.splitOn_intercalate separator plain nonempty

variable {radix limit n : Nat}

structure IsNumeral (radix : Nat) (text : List Char) (n : Nat) : Prop where
  nonempty : text ≠ []
  digits : ∃ digits, text.map (digitValue? radix) = digits.map some ∧ digitsValue radix digits = n

theorem mapM_eq_some_iff {α β : Type} {f : α → Option β} {xs : List α} {ys : List β} :
    xs.mapM f = some ys ↔ xs.map f = ys.map some := by
  induction xs generalizing ys with
  | nil => cases ys <;> simp
  | cons x xs ih =>
    simp only [List.mapM_cons, Option.bind_eq_bind, Option.bind_eq_some_iff, ih, Option.pure_def,
      Option.some_inj]
    constructor
    · rintro ⟨y, first, rest, later, rfl⟩
      rw [List.map_cons, List.map_cons, first, later]
    · intro same
      cases ys with
      | nil => cases same
      | cons y ys =>
        rw [List.map_cons, List.map_cons, List.cons.injEq] at same
        exact ⟨y, same.1, ys, same.2, rfl⟩

/-- A function that gives something of every element gives the list of what it gives. -/
theorem map_eq_map_some_iff {α β : Type} {f : α → Option β} {xs : List α} {ys : List β} :
    xs.map f = ys.map some ↔ (∀ x ∈ xs, (f x).isSome = true) ∧ ys = xs.filterMap f := by
  induction xs generalizing ys with
  | nil => simp
  | cons x xs ih =>
    rw [List.forall_mem_cons]
    cases value : f x with
    | none => cases ys <;> simp [value]
    | some v =>
      cases ys with
      | nil => simp [value]
      | cons y ys => simp [value, ih, and_left_comm, eq_comm (a := v)]

theorem readDigits?_eq_some_iff : readDigits? radix text = some n ↔ IsNumeral radix text n := by
  rw [readDigits?, Option.ite_none_left_eq_some, Option.map_eq_some_iff]
  simp only [mapM_eq_some_iff, List.isEmpty_iff]
  constructor
  · rintro ⟨nonempty, digits⟩
    exact ⟨nonempty, digits⟩
  · rintro ⟨nonempty, digits⟩
    exact ⟨nonempty, digits⟩

/-- A plus sign is no digit, so it is dropped where it stands and nowhere else. -/
theorem isNumeral_dropPlus_iff : IsNumeral radix (dropPlus text) n ↔
    IsNumeral radix text n ∨ ∃ digits, text = '+' :: digits ∧ IsNumeral radix digits n := by
  have unsigned (digits : List Char) : ¬ IsNumeral radix ('+' :: digits) n := by
    rintro ⟨-, values, same, -⟩
    cases values with
    | nil => cases same
    | cons v values =>
      rw [List.map_cons, List.map_cons, List.cons.injEq] at same
      cases same.1
  unfold dropPlus
  split
  · simp [unsigned]
  · rename_i plain
    constructor
    · exact Or.inl
    · rintro (numeral | ⟨digits, rfl, -⟩)
      · exact numeral
      · exact absurd rfl (plain digits)

theorem readUnsigned?_eq_some_iff : readUnsigned? radix limit text = some n ↔
    n ≤ limit ∧ (IsNumeral radix text n ∨
      ∃ digits, text = '+' :: digits ∧ IsNumeral radix digits n) := by
  rw [readUnsigned?, Option.filter_eq_some_iff, readDigits?_eq_some_iff, isNumeral_dropPlus_iff,
    decide_eq_true_eq, and_comm]

theorem digitValue?_ten (c : Char) :
    digitValue? 10 c = if c.isDigit then some (c.toNat - '0'.toNat) else none := by
  have decimal : c.isDigit = true ↔ 48 ≤ c.toNat ∧ c.toNat ≤ 57 := by
    rw [Char.isDigit, Bool.and_eq_true, decide_eq_true_eq, decide_eq_true_eq]
    exact Iff.rfl
  by_cases digit : 48 ≤ c.toNat ∧ c.toNat ≤ 57
  · have small : c.toNat - 48 < 10 := by omega
    rw [if_pos (decimal.2 digit)]
    simp [digitValue?, hexValue?, digit, small]
  · rw [if_neg (mt decimal.1 digit), digitValue?, Option.filter_eq_none_iff]
    intro v value
    unfold hexValue? at value
    grind

theorem map_digitValue?_ten {digits : List Nat} :
    text.map (digitValue? 10) = digits.map some ↔
      (∀ c ∈ text, c.isDigit = true) ∧ digits = text.map fun c => c.toNat - '0'.toNat := by
  induction text generalizing digits with
  | nil => simp
  | cons c text ih =>
    cases digits with
    | nil => simp
    | cons d digits =>
      simp only [List.map_cons, List.cons.injEq, ih, List.forall_mem_cons, digitValue?_ten,
        Option.ite_none_right_eq_some, Option.some_inj, eq_comm (a := d)]
      exact and_and_and_comm

def decimalValue (digits : List Char) : Nat :=
  digitsValue 10 (digits.map fun c => c.toNat - '0'.toNat)

theorem isNumeral_ten_iff : IsNumeral 10 text n ↔
    text ≠ [] ∧ (∀ c ∈ text, c.isDigit = true) ∧ decimalValue text = n := by
  constructor
  · rintro ⟨nonempty, digits, same, value⟩
    obtain ⟨decimal, rfl⟩ := map_digitValue?_ten.1 same
    exact ⟨nonempty, decimal, value⟩
  · rintro ⟨nonempty, decimal, value⟩
    exact ⟨nonempty, _, map_digitValue?_ten.2 ⟨decimal, rfl⟩, value⟩

end DeviceConnector.Text
