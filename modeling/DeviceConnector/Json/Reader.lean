import DeviceConnector.Json.Lexer
/-!
# From tokens to values

The reader is a machine with a stack of unfinished arrays and objects, so nesting has no limit. It
reads back the tokens of every value.
-/

namespace DeviceConnector.Json

/-- An unfinished array or object around the value being read; what is before it, newest first. -/
inductive Context where
  | item (before : List Value)
  | member (before : List (Bytes × Value)) (key : Bytes)

inductive Reader where
  | value (stack : List Context)
  | items (stack : List Context)
  | members (stack : List Context)
  | key (before : List (Bytes × Value)) (stack : List Context)
  | colon (before : List (Bytes × Value)) (key : Bytes) (stack : List Context)
  | after (value : Value) (stack : List Context)

namespace Reader

def initial : Reader := value []

def start (stack : List Context) : Token → Option Reader
  | .openBracket => some (items stack)
  | .openBrace => some (members stack)
  | .null => some (after .null stack)
  | .bool b => some (after (.bool b) stack)
  | .number literal => some (after (.number literal) stack)
  | .string content => some (after (.string content) stack)
  | _ => none

def step (reader : Reader) (token : Token) : Option Reader :=
  match reader, token with
  | value stack, token => start stack token
  | items stack, .closeBracket => some (after (.array []) stack)
  | items stack, token => start (.item [] :: stack) token
  | members stack, .closeBrace => some (after (.object []) stack)
  | members stack, .string content => some (colon [] content stack)
  | key before stack, .string content => some (colon before content stack)
  | colon before content stack, .colon => some (value (.member before content :: stack))
  | after v (.item before :: stack), .comma => some (value (.item (v :: before) :: stack))
  | after v (.item before :: stack), .closeBracket =>
    some (after (.array (v :: before).reverse) stack)
  | after v (.member before content :: stack), .comma => some (key ((content, v) :: before) stack)
  | after v (.member before content :: stack), .closeBrace =>
    some (after (.object ((content, v) :: before).reverse) stack)
  | _, _ => none

def finish? : Reader → Option Value
  | after v [] => some v
  | _ => none

end Reader

namespace Value

def ofTokens? (tokens : List Token) : Option Value :=
  (tokens.foldlM Reader.step Reader.initial).bind Reader.finish?

def parse? (text : Bytes) : Option Value := (Token.list? text).bind ofTokens?

end Value

end DeviceConnector.Json
