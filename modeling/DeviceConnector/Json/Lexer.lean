import DeviceConnector.Json.Basic
/-!
# From bytes to tokens

The lexer is a machine that takes one byte at a time. Blanks between tokens are space, tab, line
feed and carriage return. Inside a string every byte from 0x20 on stands, except that a backslash
must begin one of the nine escapes; numbers follow the JSON grammar.
-/

namespace DeviceConnector.Json

def isBlank (b : UInt8) : Bool := b = 0x20 || b = 0x09 || b = 0x0A || b = 0x0D

def isDigit (b : UInt8) : Bool := 0x30 ≤ b && b ≤ 0x39

def hexValue? (b : UInt8) : Option Nat :=
  if 0x30 ≤ b && b ≤ 0x39 then some (b.toNat - 0x30)
  else if 0x61 ≤ b && b ≤ 0x66 then some (b.toNat - 0x57)
  else if 0x41 ≤ b && b ≤ 0x46 then some (b.toNat - 0x37)
  else none

inductive NumberPhase where
  | minus
  | zero
  | integer
  | point
  | fraction
  | exponent
  | exponentSign
  | exponentDigits
  deriving DecidableEq, Repr

namespace NumberPhase

def isComplete : NumberPhase → Bool
  | zero | integer | fraction | exponentDigits => true
  | minus | point | exponent | exponentSign => false

def next? (phase : NumberPhase) (b : UInt8) : Option NumberPhase :=
  let digit := isDigit b
  let mark : Option NumberPhase := if b = 0x65 || b = 0x45 then some exponent else none
  match phase with
  | minus => if b = 0x30 then some zero else if digit then some integer else none
  | zero => if b = 0x2E then some point else mark
  | integer => if digit then some integer else if b = 0x2E then some point else mark
  | point => if digit then some fraction else none
  | fraction => if digit then some fraction else mark
  | exponent =>
    if digit then some exponentDigits
    else if b = 0x2B || b = 0x2D then some exponentSign else none
  | exponentSign | exponentDigits => if digit then some exponentDigits else none

def first? (b : UInt8) : Option NumberPhase :=
  if b = 0x2D then some minus else minus.next? b

end NumberPhase

inductive StringPhase where
  | plain
  | escape
  /-- So many hexadecimal digits of an escape are still due, and one more. -/
  | hex (more : Nat)
  deriving DecidableEq, Repr

namespace StringPhase

def next? (phase : StringPhase) (b : UInt8) : Option StringPhase :=
  match phase with
  | plain => if b = 0x5C then some escape else if b < 0x20 then none else some plain
  | escape =>
    if b = 0x75 then some (hex 3)
    else if b = 0x22 || b = 0x5C || b = 0x2F || b = 0x62 || b = 0x66 || b = 0x6E || b = 0x72 ||
      b = 0x74 then some plain
    else none
  | hex more =>
    if (hexValue? b).isSome then
      match more with
      | 0 => some plain
      | more + 1 => some (hex more)
    else none

end StringPhase

/-- Where the lexer stands. Bytes of an unfinished token are kept newest first. -/
inductive LexState where
  | between
  | word (token : Token) (due : Bytes)
  | number (phase : NumberPhase) (literal : Bytes)
  | string (phase : StringPhase) (content : Bytes)
  deriving DecidableEq, Repr

/-- The lexer: finished tokens, newest first, and where it stands. -/
structure Lexer where
  tokens : List Token
  state : LexState
  deriving DecidableEq, Repr

namespace Lexer

def initial : Lexer := ⟨[], .between⟩

def start (tokens : List Token) (b : UInt8) : Option Lexer :=
  if isBlank b then some ⟨tokens, .between⟩
  else if b = 0x22 then some ⟨tokens, .string .plain []⟩
  else if b = 0x2C then some ⟨.comma :: tokens, .between⟩
  else if b = 0x3A then some ⟨.colon :: tokens, .between⟩
  else if b = 0x5B then some ⟨.openBracket :: tokens, .between⟩
  else if b = 0x5D then some ⟨.closeBracket :: tokens, .between⟩
  else if b = 0x7B then some ⟨.openBrace :: tokens, .between⟩
  else if b = 0x7D then some ⟨.closeBrace :: tokens, .between⟩
  else if b = 0x6E then some ⟨tokens, .word .null [0x75, 0x6C, 0x6C]⟩
  else if b = 0x74 then some ⟨tokens, .word (.bool true) [0x72, 0x75, 0x65]⟩
  else if b = 0x66 then some ⟨tokens, .word (.bool false) [0x61, 0x6C, 0x73, 0x65]⟩
  else (NumberPhase.first? b).map fun phase => ⟨tokens, .number phase [b]⟩

def step (lexer : Lexer) (b : UInt8) : Option Lexer :=
  match lexer.state with
  | .between => start lexer.tokens b
  | .word token (c :: due) =>
    if b = c then
      if due.isEmpty then some ⟨token :: lexer.tokens, .between⟩
      else some ⟨lexer.tokens, .word token due⟩
    else none
  | .word _ [] => none
  | .number phase literal =>
    match phase.next? b with
    | some phase => some ⟨lexer.tokens, .number phase (b :: literal)⟩
    | none => if phase.isComplete then start (.number literal.reverse :: lexer.tokens) b else none
  | .string phase content =>
    if phase = .plain && b = 0x22 then some ⟨.string content.reverse :: lexer.tokens, .between⟩
    else (phase.next? b).map fun phase => ⟨lexer.tokens, .string phase (b :: content)⟩

def finish? (lexer : Lexer) : Option (List Token) :=
  match lexer.state with
  | .between => some lexer.tokens.reverse
  | .number phase literal =>
    if phase.isComplete then some (Token.number literal.reverse :: lexer.tokens).reverse else none
  | _ => none

end Lexer

def Token.list? (text : Bytes) : Option (List Token) :=
  (text.foldlM Lexer.step Lexer.initial).bind Lexer.finish?

end DeviceConnector.Json
