import DeviceConnector.Proofs.Json.Scalar
import Mathlib.Logic.Basic
/-!
# A value is in its text

A value is parsed from nothing but its own tokens, and the text spells these out in order, with
blanks between them. So a text is at least as long as the value without blanks, and a string of the
value is at least as long as what it says.
-/

namespace DeviceConnector.Json

namespace Value

def itemLead (items : List Value) : List Token := items.flatMap fun v => v.tokens ++ [.comma]

def memberLead (members : List (Bytes × Value)) : List Token :=
  members.flatMap fun m => .string m.1 :: .colon :: (m.2.tokens ++ [.comma])

/-- Commas stand between items, so there is one after each but the last. -/
theorem itemTokens_concat (items : List Value) (last : Value) :
    itemTokens (items ++ [last]) = itemLead items ++ last.tokens := by
  induction items with
  | nil => simp [itemTokens, itemLead]
  | cons item items ih =>
    obtain ⟨next, rest, eq⟩ : ∃ next rest, items ++ [last] = next :: rest := by
      cases items <;> exact ⟨_, _, rfl⟩
    rw [List.cons_append, eq, itemTokens_cons_cons, ← eq, ih]
    simp [itemLead]

theorem memberTokens_concat (members : List (Bytes × Value)) (key : Bytes) (last : Value) :
    memberTokens (members ++ [(key, last)]) =
      memberLead members ++ .string key :: .colon :: last.tokens := by
  induction members with
  | nil => simp [memberTokens, memberLead]
  | cons member members ih =>
    obtain ⟨next, rest, eq⟩ : ∃ next rest, members ++ [(key, last)] = next :: rest := by
      cases members <;> exact ⟨_, _, rfl⟩
    obtain ⟨first, v⟩ := member
    rw [List.cons_append, eq, memberTokens_cons_cons, ← eq, ih]
    simp [memberLead]

end Value

/-- The tokens of an unfinished array or object, as far as they have been read. -/
def Context.tokens : Context → List Token
  | item before => .openBracket :: Value.itemLead before.reverse
  | member before key => .openBrace :: (Value.memberLead before.reverse ++ [.string key, .colon])

namespace Reader

def stackTokens (stack : List Context) : List Token := stack.reverse.flatMap Context.tokens

theorem stackTokens_cons (context : Context) (stack : List Context) :
    stackTokens (context :: stack) = stackTokens stack ++ context.tokens := by
  simp [stackTokens]

def tokens : Reader → List Token
  | value stack => stackTokens stack
  | items stack => stackTokens stack ++ [.openBracket]
  | members stack => stackTokens stack ++ [.openBrace]
  | key before stack => stackTokens stack ++ .openBrace :: Value.memberLead before.reverse
  | colon before content stack =>
    stackTokens stack ++ .openBrace :: (Value.memberLead before.reverse ++ [.string content])
  | after v stack => stackTokens stack ++ v.tokens

variable {reader after : Reader} {token : Token}

theorem tokens_start {stack : List Context} (started : start stack token = some after) :
    after.tokens = stackTokens stack ++ [token] := by
  cases token <;> cases started <;> rfl

/-- The reader takes one token after the other. -/
theorem tokens_step (stepped : reader.step token = some after) :
    after.tokens = reader.tokens ++ [token] := by
  unfold step at stepped
  split at stepped
  · exact tokens_start stepped
  · cases stepped
    simp [tokens, Value.tokens, Value.itemTokens]
  · rw [tokens_start stepped, stackTokens_cons]
    rfl
  · cases stepped
    simp [tokens, Value.tokens, Value.memberTokens]
  · cases stepped
    simp [tokens, Value.memberLead]
  · cases stepped
    simp [tokens]
  · cases stepped
    simp [tokens, stackTokens_cons, Context.tokens]
  · cases stepped
    simp [tokens, stackTokens_cons, Context.tokens, Value.itemLead]
  · cases stepped
    simp [tokens, stackTokens_cons, Context.tokens, Value.tokens, Value.itemTokens_concat]
  · cases stepped
    simp [tokens, stackTokens_cons, Context.tokens, Value.memberLead]
  · cases stepped
    simp [tokens, stackTokens_cons, Context.tokens, Value.tokens, Value.memberTokens_concat]
  · cases stepped

theorem tokens_foldlM {read : List Token} (fed : read.foldlM step reader = some after) :
    after.tokens = reader.tokens ++ read := by
  induction read generalizing reader with
  | nil =>
    cases fed
    exact (List.append_nil _).symm
  | cons token read ih =>
    rw [List.foldlM_cons] at fed
    obtain ⟨next, stepped, later⟩ := Option.bind_eq_some_iff.1 fed
    rw [ih later, tokens_step stepped, List.append_assoc]
    rfl

end Reader

/-- A value is read from its own tokens only. -/
theorem Value.tokens_of_ofTokens? {tokens : List Token} {v : Value}
    (read : ofTokens? tokens = some v) : v.tokens = tokens := by
  obtain ⟨last, fed, finished⟩ := Option.bind_eq_some_iff.1 read
  have taken := Reader.tokens_foldlM fed
  unfold Reader.finish? at finished
  split at finished
  · cases finished
    exact taken
  · cases finished

def Token.spell (tokens : List Token) : Bytes := tokens.flatMap spelling

namespace Lexer

def Within (lexer : Lexer) (bytes : Bytes) : Prop :=
  match lexer.state with
  | .between => (Token.spell lexer.tokens.reverse).Sublist bytes
  | .word token due => ∃ read, read ++ due = token.spelling ∧
      (Token.spell lexer.tokens.reverse ++ read).Sublist bytes
  | .number _ literal => (Token.spell lexer.tokens.reverse ++ literal.reverse).Sublist bytes
  | .string _ content =>
    (Token.spell lexer.tokens.reverse ++ 0x22 :: content.reverse).Sublist bytes

variable {lexer after : Lexer} {tokens : List Token} {bytes : Bytes} {b : UInt8}

theorem Within.taken {token : Token}
    (within : (Token.spell tokens.reverse ++ token.spelling).Sublist bytes) :
    Within ⟨token :: tokens, .between⟩ bytes := by
  simpa [Within, Token.spell] using within

inductive Begins (tokens : List Token) (b : UInt8) : Lexer → Prop where
  | blank : Begins tokens b ⟨tokens, .between⟩
  | mark (token : Token) (whole : token.spelling = [b]) :
      Begins tokens b ⟨token :: tokens, .between⟩
  | quote (same : b = 0x22) : Begins tokens b ⟨tokens, .string .plain []⟩
  | word (token : Token) (due : Bytes) (first : token.spelling = b :: due) :
      Begins tokens b ⟨tokens, .word token due⟩
  | number (phase : NumberPhase) : Begins tokens b ⟨tokens, .number phase [b]⟩

theorem begins_of_start (started : start tokens b = some after) : Begins tokens b after := by
  rw [start, ite_eq_iff] at started
  rcases started with ⟨-, began⟩ | ⟨-, started⟩
  · cases began
    exact .blank
  rw [ite_eq_iff] at started
  rcases started with ⟨quote, began⟩ | ⟨-, started⟩
  · cases began
    exact .quote quote
  -- six marks, then the first letters of three words
  iterate 6
    rw [ite_eq_iff] at started
    rcases started with ⟨rfl, began⟩ | ⟨-, started⟩
    · cases began
      exact .mark _ rfl
  iterate 3
    rw [ite_eq_iff] at started
    rcases started with ⟨rfl, began⟩ | ⟨-, started⟩
    · cases began
      exact .word _ _ rfl
  obtain ⟨phase, -, rfl⟩ := Option.map_eq_some_iff.1 started
  exact .number phase

theorem within_start (within : (Token.spell tokens.reverse).Sublist bytes)
    (started : start tokens b = some after) : after.Within (bytes ++ [b]) := by
  have further : (Token.spell tokens.reverse ++ [b]).Sublist (bytes ++ [b]) := within.append_right _
  cases begins_of_start started with
  | blank => exact within.trans (List.sublist_append_left ..)
  | mark token whole => exact .taken (whole ▸ further)
  | quote same => exact same ▸ further
  | word token due first => exact ⟨[b], first.symm, further⟩
  | number phase => exact further

theorem within_step (within : lexer.Within bytes) (stepped : lexer.step b = some after) :
    after.Within (bytes ++ [b]) := by
  obtain ⟨tokens, state⟩ := lexer
  have further {read : Bytes} (there : (Token.spell tokens.reverse ++ read).Sublist bytes) :
      (Token.spell tokens.reverse ++ (read ++ [b])).Sublist (bytes ++ [b]) := by
    rw [← List.append_assoc]
    exact there.append_right _
  cases state with
  | between => exact within_start within stepped
  | word token due =>
    obtain ⟨read, spelled, there⟩ := within
    cases due with
    | nil => cases stepped
    | cons c due =>
      simp only [step] at stepped
      split at stepped
      · rename_i same
        subst same
        have longer : read ++ [b] ++ due = token.spelling := by simpa using spelled
        split at stepped
        · rename_i last
          cases stepped
          rw [List.isEmpty_iff.1 last, List.append_nil] at longer
          exact .taken (longer ▸ further there)
        · cases stepped
          exact ⟨read ++ [b], longer, further there⟩
      · cases stepped
  | number phase literal =>
    simp only [step] at stepped
    split at stepped
    · cases stepped
      simpa [Within] using further within
    · split at stepped
      · have whole : Within ⟨.number literal.reverse :: tokens, .between⟩ bytes := .taken within
        exact within_start whole stepped
      · cases stepped
  | string phase content =>
    simp only [step] at stepped
    split at stepped
    · rename_i closed
      cases stepped
      obtain ⟨-, rfl⟩ : phase = .plain ∧ b = 0x22 := by simpa using closed
      exact .taken (further within)
    · obtain ⟨next, -, rfl⟩ := Option.map_eq_some_iff.1 stepped
      simpa [Within] using further within

theorem within_foldlM {more : Bytes} (within : lexer.Within bytes)
    (fed : more.foldlM step lexer = some after) : after.Within (bytes ++ more) := by
  induction more generalizing lexer bytes with
  | nil =>
    cases fed
    rw [List.append_nil]
    exact within
  | cons b more ih =>
    rw [List.foldlM_cons] at fed
    obtain ⟨next, stepped, later⟩ := Option.bind_eq_some_iff.1 fed
    rw [List.append_cons]
    exact ih (within_step within stepped) later

end Lexer

/-- A text spells out its tokens in order. -/
theorem Token.spell_sublist_of_list? {text : Bytes} {tokens : List Token}
    (read : list? text = some tokens) : (spell tokens).Sublist text := by
  obtain ⟨lexer, fed, finished⟩ := Option.bind_eq_some_iff.1 read
  have within : lexer.Within ([] ++ text) :=
    Lexer.within_foldlM (show Lexer.initial.Within [] from .slnil) fed
  rw [List.nil_append] at within
  obtain ⟨tokens, state⟩ := lexer
  cases state with
  | between =>
    cases finished
    exact within
  | number phase literal =>
    simp only [Lexer.finish?] at finished
    split at finished
    · cases finished
      exact Lexer.Within.taken within
    · cases finished
  | word | string => cases finished

/-- The compact text of a value is part of every text that the value is parsed from. -/
theorem Value.render_sublist_of_parse? {text : Bytes} {v : Value} (read : parse? text = some v) :
    v.render.Sublist text := by
  obtain ⟨tokens, listed, taken⟩ := Option.bind_eq_some_iff.1 read
  have spelled := Token.spell_sublist_of_list? listed
  rw [← tokens_of_ofTokens? taken] at spelled
  exact spelled

theorem length_pushCodePoint_le (n : Nat) (read : Bytes) :
    (pushCodePoint n read).length ≤ read.length + 4 := by
  have size := Char.utf8Size_le_four (Char.ofNat n)
  rw [pushCodePoint, List.length_append, List.length_reverse, String.length_utf8EncodeChar]
  omega

/-- No escape is shorter than what it stands for. -/
theorem length_unescapeOnto_le {read content bytes : Bytes}
    (resolved : unescapeOnto read content = some bytes) :
    bytes.length ≤ read.length + content.length := by
  fun_induction unescapeOnto read content with
  | case1 read =>
    cases resolved
    simp
  | case5 read a b c d n _ _ _ e f g h rest m _ _ ih =>
    have pushed := length_pushCodePoint_le (0x10000 + (n - 0xD800) * 0x400 + (m - 0xDC00)) read
    have rest := ih resolved
    simp only [List.length_cons]
    omega
  | case8 read a b c d rest n _ _ _ ih =>
    have pushed := length_pushCodePoint_le n read
    have rest := ih resolved
    simp only [List.length_cons]
    omega
  | case10 read letter rest _ b _ ih =>
    have rest := ih resolved
    simp only [List.length_cons] at rest ⊢
    omega
  | case12 read b rest _ _ _ ih =>
    have rest := ih resolved
    simp only [List.length_cons] at rest ⊢
    omega
  | _ => cases resolved

theorem utf8ByteSize_le_of_toText? {content : Bytes} {text : String}
    (read : toText? content = some text) : text.utf8ByteSize ≤ content.length := by
  obtain ⟨bytes, resolved, decoded⟩ := Option.bind_eq_some_iff.1 read
  have same : text.utf8ByteSize = bytes.length := by
    unfold String.fromUTF8? at decoded
    split at decoded
    · cases decoded
      rfl
    · cases decoded
  have shorter := length_unescapeOnto_le resolved
  rw [same]
  simpa using shorter

end DeviceConnector.Json
