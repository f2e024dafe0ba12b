import DeviceConnector.Json.Reader
/-!
# Writing and parsing values

A value whose numbers and strings are spelled as the format demands is parsed from each of its
texts, however blanks are strewn between its tokens. The lexer gives back the tokens that were
written, since a number is always followed by a byte that cannot continue it; the reader gives back
the value whose tokens they are.
-/

namespace DeviceConnector.Json

def IsNumber (literal : Bytes) : Prop :=
  ∃ b rest first last, literal = b :: rest ∧ NumberPhase.first? b = some first ∧
    rest.foldlM NumberPhase.next? first = some last ∧ last.isComplete = true

/-- The phase after one more byte of a string, the closing quote excluded. -/
def StringPhase.within? (phase : StringPhase) (b : UInt8) : Option StringPhase :=
  if phase = .plain && b = 0x22 then none else phase.next? b

def IsContent (content : Bytes) : Prop :=
  content.foldlM StringPhase.within? .plain = some .plain

mutual

def Value.IsSpelled : Value → Prop
  | .null => True
  | .bool _ => True
  | .number literal => IsNumber literal
  | .string content => IsContent content
  | .array items => Value.AreSpelled items
  | .object members => Value.MembersAreSpelled members

def Value.AreSpelled : List Value → Prop
  | [] => True
  | item :: items => item.IsSpelled ∧ Value.AreSpelled items

def Value.MembersAreSpelled : List (Bytes × Value) → Prop
  | [] => True
  | (key, value) :: members =>
    IsContent key ∧ value.IsSpelled ∧ Value.MembersAreSpelled members

end

namespace Value

theorem itemTokens_cons_cons (item next : Value) (items : List Value) :
    itemTokens (item :: next :: items) = item.tokens ++ .comma :: itemTokens (next :: items) := by
  simp [itemTokens]

theorem itemTokens_cons (item : Value) (items : List Value) :
    ∃ more, itemTokens (item :: items) = item.tokens ++ more := by
  cases items with
  | nil => exact ⟨[], by simp [itemTokens]⟩
  | cons next items => exact ⟨_, itemTokens_cons_cons item next items⟩

theorem memberTokens_cons_cons (key : Bytes) (value : Value) (next : Bytes × Value)
    (members : List (Bytes × Value)) :
    memberTokens ((key, value) :: next :: members) =
      .string key :: .colon :: (value.tokens ++ .comma :: memberTokens (next :: members)) := by
  simp [memberTokens]

theorem memberTokens_cons (key : Bytes) (value : Value) (members : List (Bytes × Value)) :
    ∃ more, memberTokens ((key, value) :: members) = .string key :: more := by
  cases members with
  | nil => exact ⟨_, rfl⟩
  | cons next members => exact ⟨_, memberTokens_cons_cons key value next members⟩

end Value

/-- The text spells out the tokens one after the other, with blanks around them as one likes. -/
inductive Laid : List Token → Bytes → Prop where
  | blanks {text : Bytes} (blank : text.all isBlank = true) : Laid [] text
  | token {lead text : Bytes} {token : Token} {tokens : List Token}
      (blank : lead.all isBlank = true) (rest : Laid tokens text) :
      Laid (token :: tokens) (lead ++ (token.spelling ++ text))

/-- The compact text has no blanks. -/
theorem laid_spellings (tokens : List Token) : Laid tokens (tokens.flatMap Token.spelling) := by
  induction tokens with
  | nil => exact .blanks rfl
  | cons token tokens ih => exact @Laid.token [] _ token tokens rfl ih

theorem Laid.append {first second : List Token} {text : Bytes}
    (laid : Laid (first ++ second) text) :
    ∃ before after, text = before ++ after ∧ Laid first before ∧ Laid second after := by
  induction first generalizing text with
  | nil => exact ⟨[], text, rfl, .blanks rfl, laid⟩
  | cons token first ih =>
    cases laid with
    | token blank rest =>
      obtain ⟨before, after, rfl, begun, ended⟩ := ih rest
      exact ⟨_, after, by simp, .token blank begun, ended⟩

namespace Lexer

/-- The lexer has read these tokens, newest first, the last of which may be a number that could
still go on. -/
def Holds (lexer : Lexer) (tokens : List Token) : Prop :=
  lexer = ⟨tokens, .between⟩ ∨
  ∃ before phase literal, phase.isComplete = true ∧ lexer = ⟨before, .number phase literal⟩ ∧
    tokens = .number literal.reverse :: before

variable {lexer : Lexer} {tokens : List Token}

theorem Holds.finish? (holds : lexer.Holds tokens) : lexer.finish? = some tokens.reverse := by
  rcases holds with rfl | ⟨before, phase, literal, complete, rfl, rfl⟩
  · rfl
  · simp [Lexer.finish?, complete]

/-- No number goes on with a comma, with a closing bracket or brace, or with a blank. -/
theorem Holds.step (holds : lexer.Holds tokens) {b : UInt8}
    (parting : b = 0x2C ∨ b = 0x5D ∨ b = 0x7D ∨ isBlank b = true) :
    lexer.step b = start tokens b := by
  rcases holds with rfl | ⟨before, phase, literal, complete, rfl, rfl⟩
  · rfl
  · have stops : phase.next? b = none := by
      simp only [isBlank, Bool.or_eq_true, decide_eq_true_eq] at parting
      rcases parting with rfl | rfl | rfl | ((rfl | rfl) | rfl) | rfl <;> cases phase <;> rfl
    simp [Lexer.step, stops, complete]

/-- A number begins with a minus sign or a digit, which begin nothing else. -/
theorem start_number {b : UInt8} {phase : NumberPhase}
    (begins : NumberPhase.first? b = some phase) :
    start tokens b = some ⟨tokens, .number phase [b]⟩ := by
  have range : b = 0x2D ∨ 0x30 ≤ b ∧ b ≤ 0x39 := by
    by_cases minus : b = 0x2D
    · exact Or.inl minus
    · right
      by_cases zero : b = 0x30
      · subst zero
        decide
      · simpa [NumberPhase.first?, NumberPhase.next?, minus, zero, isDigit] using
          congrArg Option.isSome begins
  have others : b ≠ 0x20 ∧ b ≠ 0x09 ∧ b ≠ 0x0A ∧ b ≠ 0x0D ∧ b ≠ 0x22 ∧ b ≠ 0x2C ∧ b ≠ 0x3A ∧
      b ≠ 0x5B ∧ b ≠ 0x5D ∧ b ≠ 0x7B ∧ b ≠ 0x7D ∧ b ≠ 0x6E ∧ b ≠ 0x74 ∧ b ≠ 0x66 := by
    simp only [ne_eq, ← UInt8.toNat_inj, UInt8.le_iff_toNat_le] at range ⊢
    simp at range ⊢
    omega
  simp [start, isBlank, others, begins]

theorem foldlM_number (literal : Bytes) {rest : Bytes} {phase last : NumberPhase}
    (phases : rest.foldlM NumberPhase.next? phase = some last) :
    rest.foldlM Lexer.step ⟨tokens, .number phase literal⟩ =
      some ⟨tokens, .number last (rest.reverse ++ literal)⟩ := by
  induction rest generalizing phase literal with
  | nil =>
    cases phases
    rfl
  | cons b rest ih =>
    rw [List.foldlM_cons] at phases
    obtain ⟨next, first, later⟩ := Option.bind_eq_some_iff.1 phases
    have step : Lexer.step ⟨tokens, .number phase literal⟩ b =
        some ⟨tokens, .number next (b :: literal)⟩ := by simp [Lexer.step, first]
    rw [List.foldlM_cons, step]
    simpa using ih (b :: literal) later

theorem foldlM_content (before : Bytes) {content : Bytes} {phase last : StringPhase}
    (phases : content.foldlM StringPhase.within? phase = some last) :
    content.foldlM Lexer.step ⟨tokens, .string phase before⟩ =
      some ⟨tokens, .string last (content.reverse ++ before)⟩ := by
  induction content generalizing phase before with
  | nil =>
    cases phases
    rfl
  | cons b content ih =>
    rw [List.foldlM_cons] at phases
    obtain ⟨next, first, later⟩ := Option.bind_eq_some_iff.1 phases
    have step : Lexer.step ⟨tokens, .string phase before⟩ b =
        some ⟨tokens, .string next (b :: before)⟩ := by
      unfold StringPhase.within? at first
      split at first
      · cases first
      · rename_i inside
        simp [Lexer.step, inside, first]
    rw [List.foldlM_cons, step]
    simpa using ih (b :: before) later

def read (lexer : Lexer) (text : Bytes) : Option Lexer := text.foldlM Lexer.step lexer

theorem read_append (lexer : Lexer) (text later : Bytes) :
    lexer.read (text ++ later) = (lexer.read text).bind (read · later) :=
  List.foldlM_append

theorem read_string {content : Bytes} (spelled : IsContent content) :
    read ⟨tokens, .between⟩ (Token.string content).spelling =
      some ⟨.string content :: tokens, .between⟩ := by
  have opened : Lexer.step ⟨tokens, .between⟩ 0x22 = some ⟨tokens, .string .plain []⟩ := rfl
  have closed (before : Bytes) : Lexer.step ⟨tokens, .string .plain before⟩ 0x22 =
      some ⟨.string before.reverse :: tokens, .between⟩ := rfl
  have inside : content.foldlM Lexer.step ⟨tokens, .string .plain []⟩ = _ :=
    foldlM_content [] spelled
  simp [read, Token.spelling, opened, inside, closed]

theorem read_number {literal : Bytes} (spelled : IsNumber literal) :
    ∃ lexer, read ⟨tokens, .between⟩ literal = some lexer ∧
      lexer.Holds (.number literal :: tokens) := by
  obtain ⟨b, rest, first, last, rfl, begins, phases, complete⟩ := spelled
  have begun : Lexer.step ⟨tokens, .between⟩ b = some ⟨tokens, .number first [b]⟩ :=
    start_number begins
  refine ⟨⟨tokens, .number last (rest.reverse ++ [b])⟩, ?_, ?_⟩
  · simp [read, begun, foldlM_number [b] phases]
  · exact Or.inr ⟨tokens, last, rest.reverse ++ [b], complete, rfl, by simp⟩

theorem start_blank {b : UInt8} (blank : isBlank b = true) :
    start tokens b = some ⟨tokens, .between⟩ := by
  rw [start, if_pos blank]

theorem read_blanks {lead : Bytes} (blank : lead.all isBlank = true) :
    read ⟨tokens, .between⟩ lead = some ⟨tokens, .between⟩ := by
  induction lead with
  | nil => rfl
  | cons b lead ih =>
    rw [List.all_cons, Bool.and_eq_true] at blank
    have first : Lexer.step ⟨tokens, .between⟩ b = some ⟨tokens, .between⟩ := start_blank blank.1
    rw [read, List.foldlM_cons, first]
    exact ih blank.2

theorem Holds.read_blanks {lead : Bytes} (holds : lexer.Holds tokens)
    (blank : lead.all isBlank = true) :
    ∃ next, lexer.read lead = some next ∧ next.Holds tokens := by
  cases lead with
  | nil => exact ⟨lexer, rfl, holds⟩
  | cons b lead =>
    rw [List.all_cons, Bool.and_eq_true] at blank
    have first : lexer.step b = some ⟨tokens, .between⟩ := by
      rw [holds.step (by simp [blank.1]), start_blank blank.1]
    refine ⟨⟨tokens, .between⟩, ?_, Or.inl rfl⟩
    rw [read, List.foldlM_cons, first]
    exact Lexer.read_blanks blank.2

variable {token : Token} {more : List Token} {text : Bytes}

/-- What comes before a token between tokens is blank. -/
theorem read_token {next : Lexer} (laid : Laid (token :: more) text)
    (taken : read ⟨tokens, .between⟩ token.spelling = some next) :
    ∃ rest, Laid more rest ∧ read ⟨tokens, .between⟩ text = next.read rest := by
  cases laid with
  | @token lead rest _ _ blank laid =>
    refine ⟨rest, laid, ?_⟩
    rw [read_append, read_blanks blank, Option.bind_some, read_append, taken, Option.bind_some]

theorem read_mark (laid : Laid (token :: more) text)
    (mark : token = .openBracket ∨ token = .openBrace ∨ token = .colon) :
    ∃ rest, Laid more rest ∧
      read ⟨tokens, .between⟩ text = read ⟨token :: tokens, .between⟩ rest := by
  apply read_token laid
  rcases mark with rfl | rfl | rfl <;> rfl

/-- A comma, a closing bracket or a closing brace ends a number if there is one. -/
theorem Holds.read_mark (holds : lexer.Holds tokens) (laid : Laid (token :: more) text)
    (mark : token = .comma ∨ token = .closeBracket ∨ token = .closeBrace) :
    ∃ rest, Laid more rest ∧ lexer.read text = read ⟨token :: tokens, .between⟩ rest := by
  cases laid with
  | @token lead rest _ _ blank laid =>
    obtain ⟨next, parted, holds⟩ := holds.read_blanks blank
    have taken : next.read token.spelling = some ⟨token :: tokens, .between⟩ := by
      rcases mark with rfl | rfl | rfl <;> simp [read, Token.spelling, holds.step, start, isBlank]
    refine ⟨rest, laid, ?_⟩
    rw [read_append, parted, Option.bind_some, read_append, taken, Option.bind_some]

theorem Holds.read_end (holds : lexer.Holds tokens) (laid : Laid [] text) :
    ∃ next, lexer.read text = some next ∧ next.Holds tokens := by
  cases laid with
  | blanks blank => exact holds.read_blanks blank

-- By recursion on the value, along with its items and members: whatever has been read before, the
-- lexer then holds the tokens of the value as well.
mutual

theorem read_value (v : Value) (spelled : v.IsSpelled) (tokens : List Token) {text : Bytes}
    (laid : Laid v.tokens text) :
    ∃ lexer, read ⟨tokens, .between⟩ text = some lexer ∧
      lexer.Holds (v.tokens.reverse ++ tokens) := by
  have scalar {token : Token} {next : Lexer} (laid : Laid [token] text)
      (taken : read ⟨tokens, .between⟩ token.spelling = some next)
      (holds : next.Holds (token :: tokens)) :
      ∃ lexer, read ⟨tokens, .between⟩ text = some lexer ∧ lexer.Holds (token :: tokens) := by
    obtain ⟨rest, ended, eq⟩ := read_token laid taken
    rw [eq]
    exact holds.read_end ended
  cases v with
  | null => exact scalar laid rfl (Or.inl rfl)
  | bool b => cases b <;> exact scalar laid rfl (Or.inl rfl)
  | number literal =>
    obtain ⟨next, taken, holds⟩ := read_number spelled
    exact scalar laid taken holds
  | string content => exact scalar laid (read_string spelled) (Or.inl rfl)
  | array items =>
    obtain ⟨rest, laid, opened⟩ := read_mark laid (by simp)
    obtain ⟨inner, close, rfl, inside, closing⟩ := laid.append
    obtain ⟨lexer, eq, holds⟩ := read_items items spelled (.openBracket :: tokens) inside
    obtain ⟨trail, ended, closed⟩ := holds.read_mark closing (by simp)
    obtain ⟨last, eq', holds⟩ := Holds.read_end (Or.inl rfl) ended
    refine ⟨last, ?_, by simpa [Value.tokens] using holds⟩
    rw [opened, read_append, eq, Option.bind_some, closed, eq']
  | object members =>
    obtain ⟨rest, laid, opened⟩ := read_mark laid (by simp)
    obtain ⟨inner, close, rfl, inside, closing⟩ := laid.append
    obtain ⟨lexer, eq, holds⟩ := read_members members spelled (.openBrace :: tokens) inside
    obtain ⟨trail, ended, closed⟩ := holds.read_mark closing (by simp)
    obtain ⟨last, eq', holds⟩ := Holds.read_end (Or.inl rfl) ended
    refine ⟨last, ?_, by simpa [Value.tokens] using holds⟩
    rw [opened, read_append, eq, Option.bind_some, closed, eq']

theorem read_items (items : List Value) (spelled : Value.AreSpelled items) (tokens : List Token)
    {text : Bytes} (laid : Laid (Value.itemTokens items) text) :
    ∃ lexer, read ⟨tokens, .between⟩ text = some lexer ∧
      lexer.Holds ((Value.itemTokens items).reverse ++ tokens) := by
  match items with
  | [] => exact Holds.read_end (Or.inl rfl) laid
  | [item] =>
    rw [Value.itemTokens, List.append_nil] at laid ⊢
    exact read_value item spelled.1 tokens laid
  | item :: next :: items =>
    rw [Value.itemTokens_cons_cons] at laid ⊢
    obtain ⟨first, later, rfl, inside, parting⟩ := laid.append
    obtain ⟨lexer, eq, holds⟩ := read_value item spelled.1 tokens inside
    obtain ⟨rest, laid, parted⟩ := holds.read_mark parting (by simp)
    obtain ⟨last, eq', holds⟩ := read_items (next :: items) spelled.2
      (.comma :: (item.tokens.reverse ++ tokens)) laid
    refine ⟨last, ?_, by simpa using holds⟩
    rw [read_append, eq, Option.bind_some, parted, eq']

theorem read_members (members : List (Bytes × Value)) (spelled : Value.MembersAreSpelled members)
    (tokens : List Token) {text : Bytes} (laid : Laid (Value.memberTokens members) text) :
    ∃ lexer, read ⟨tokens, .between⟩ text = some lexer ∧
      lexer.Holds ((Value.memberTokens members).reverse ++ tokens) := by
  match members with
  | [] => exact Holds.read_end (Or.inl rfl) laid
  | [(key, value)] =>
    rw [Value.memberTokens, List.append_nil] at laid ⊢
    obtain ⟨rest, laid, named⟩ := read_token laid (read_string spelled.1)
    obtain ⟨rest, laid, marked⟩ := read_mark laid (by simp)
    obtain ⟨lexer, eq, holds⟩ := read_value value spelled.2.1 (.colon :: .string key :: tokens) laid
    refine ⟨lexer, ?_, by simpa using holds⟩
    rw [named, marked, eq]
  | (key, value) :: next :: members =>
    rw [Value.memberTokens_cons_cons] at laid ⊢
    obtain ⟨rest, laid, named⟩ := read_token laid (read_string spelled.1)
    obtain ⟨rest, laid, marked⟩ := read_mark laid (by simp)
    obtain ⟨first, later, rfl, inside, parting⟩ := laid.append
    obtain ⟨lexer, eq, holds⟩ :=
      read_value value spelled.2.1 (.colon :: .string key :: tokens) inside
    obtain ⟨rest, laid, parted⟩ := holds.read_mark parting (by simp)
    obtain ⟨last, eq', holds⟩ := read_members (next :: members) spelled.2.2
      (.comma :: (value.tokens.reverse ++ .colon :: .string key :: tokens)) laid
    refine ⟨last, ?_, by simpa using holds⟩
    rw [named, marked, read_append, eq, Option.bind_some, parted, eq']

end

end Lexer

/-- The lexer gives back the tokens of a value from every text that spells them out. -/
theorem Token.list?_of_laid {v : Value} (spelled : v.IsSpelled) {text : Bytes}
    (laid : Laid v.tokens text) : Token.list? text = some v.tokens := by
  obtain ⟨lexer, read, holds⟩ := Lexer.read_value v spelled [] laid
  have fed : text.foldlM Lexer.step Lexer.initial = some lexer := read
  rw [Token.list?, fed, Option.bind_some, holds.finish?]
  simp

namespace Reader

def feed (reader : Reader) (tokens : List Token) : Option Reader :=
  tokens.foldlM Reader.step reader

theorem feed_cons (reader : Reader) (token : Token) (later : List Token) :
    reader.feed (token :: later) = (reader.step token).bind (feed · later) :=
  List.foldlM_cons

theorem feed_append (reader : Reader) (tokens later : List Token) :
    reader.feed (tokens ++ later) = (reader.feed tokens).bind (feed · later) :=
  List.foldlM_append

/-- What an opening bracket is followed by is the first item, unless it is the closing one. -/
theorem feed_opened (item : Value) (rest : List Value) (later : List Token)
    (stack : List Context) :
    (items stack).feed (Value.itemTokens (item :: rest) ++ later) =
      (value (.item [] :: stack)).feed (Value.itemTokens (item :: rest) ++ later) := by
  obtain ⟨more, eq⟩ := Value.itemTokens_cons item rest
  rw [eq, List.append_assoc]
  cases item <;> rfl

-- By recursion on the value, along with its items and members: whatever stack stands below, the
-- tokens of the value put it on top.
mutual

theorem feed_value (v : Value) (stack : List Context) :
    (value stack).feed v.tokens = some (after v stack) := by
  cases v with
  | null | bool | number | string => rfl
  | array list =>
    have opened : (value stack).step .openBracket = some (items stack) := rfl
    rw [Value.tokens, feed_cons, opened, Option.bind_some]
    match list with
    | [] => rfl
    | item :: rest =>
      rw [feed_opened]
      exact feed_items (item :: rest) [] stack (by simp)
  | object list =>
    have opened : (value stack).step .openBrace = some (members stack) := rfl
    rw [Value.tokens, feed_cons, opened, Option.bind_some]
    match list with
    | [] => rfl
    | (content, v) :: rest =>
      have first :
          (members stack).feed (Value.memberTokens ((content, v) :: rest) ++ [.closeBrace]) =
          (key [] stack).feed (Value.memberTokens ((content, v) :: rest) ++ [.closeBrace]) := by
        obtain ⟨more, eq⟩ := Value.memberTokens_cons content v rest
        rw [eq]
        rfl
      rw [first]
      exact feed_members ((content, v) :: rest) [] stack (by simp)

theorem feed_items (list before : List Value) (stack : List Context) (nonempty : list ≠ []) :
    (value (.item before :: stack)).feed (Value.itemTokens list ++ [.closeBracket]) =
      some (after (.array (before.reverse ++ list)) stack) := by
  match list with
  | [] => exact absurd rfl nonempty
  | [item] =>
    have closed : (after item (.item before :: stack)).step .closeBracket =
        some (after (.array (item :: before).reverse) stack) := rfl
    rw [Value.itemTokens, List.append_nil, feed_append, feed_value item, Option.bind_some,
      feed_cons, closed]
    simp [feed]
  | item :: next :: rest =>
    have parted : (after item (.item before :: stack)).step .comma =
        some (value (.item (item :: before) :: stack)) := rfl
    rw [Value.itemTokens_cons_cons, List.append_assoc, feed_append, feed_value item,
      Option.bind_some, List.cons_append, feed_cons, parted, Option.bind_some,
      feed_items (next :: rest) (item :: before) stack (by simp)]
    simp

theorem feed_members (list before : List (Bytes × Value)) (stack : List Context)
    (nonempty : list ≠ []) :
    (key before stack).feed (Value.memberTokens list ++ [.closeBrace]) =
      some (after (.object (before.reverse ++ list)) stack) := by
  match list with
  | [] => exact absurd rfl nonempty
  | [(content, v)] =>
    have named (later : List Token) : (key before stack).feed (.string content :: .colon :: later) =
        (value (.member before content :: stack)).feed later := rfl
    have closed : (after v (.member before content :: stack)).step .closeBrace =
        some (after (.object ((content, v) :: before).reverse) stack) := rfl
    rw [Value.memberTokens, List.append_nil, List.cons_append, List.cons_append, named, feed_append,
      feed_value v, Option.bind_some, feed_cons, closed]
    simp [feed]
  | (content, v) :: next :: rest =>
    have named (later : List Token) : (key before stack).feed (.string content :: .colon :: later) =
        (value (.member before content :: stack)).feed later := rfl
    have parted : (after v (.member before content :: stack)).step .comma =
        some (key ((content, v) :: before) stack) := rfl
    rw [Value.memberTokens_cons_cons, List.cons_append, List.cons_append, named, List.append_assoc,
      feed_append, feed_value v, Option.bind_some, List.cons_append, feed_cons, parted,
      Option.bind_some, feed_members (next :: rest) ((content, v) :: before) stack (by simp)]
    simp

end

end Reader

/-- The reader gives back every value from its tokens. -/
theorem Value.ofTokens?_tokens (v : Value) : Value.ofTokens? v.tokens = some v := by
  have read : v.tokens.foldlM Reader.step Reader.initial = some (.after v []) :=
    Reader.feed_value v []
  rw [Value.ofTokens?, read]
  rfl

/-- A value is parsed from each of its texts. -/
theorem Value.parse?_of_laid {v : Value} (spelled : v.IsSpelled) {text : Bytes}
    (laid : Laid v.tokens text) : Value.parse? text = some v := by
  rw [Value.parse?, Token.list?_of_laid spelled laid, Option.bind_some, Value.ofTokens?_tokens]

theorem Value.parse?_render {v : Value} (spelled : v.IsSpelled) : Value.parse? v.render = some v :=
  parse?_of_laid spelled (laid_spellings v.tokens)

end DeviceConnector.Json
