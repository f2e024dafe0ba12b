import DeviceConnector.Frame.Basic
/-!
# JSON values and tokens

A value keeps its strings and numbers as they are spelled: the bytes between the quotes, escapes
included, and the literal of a number. What a string or number means is decided only where it is
used, since a member that nobody asks for merely has to be well formed.
-/

namespace DeviceConnector.Json

/-- A JSON value, strings and numbers as they are spelled. -/
inductive Value where
  | null
  | bool (b : Bool)
  | number (literal : Bytes)
  | string (content : Bytes)
  | array (items : List Value)
  | object (members : List (Bytes × Value))
  deriving Repr, Inhabited

inductive Token where
  | openBracket
  | closeBracket
  | openBrace
  | closeBrace
  | colon
  | comma
  | null
  | bool (b : Bool)
  | number (literal : Bytes)
  | string (content : Bytes)
  deriving DecidableEq, Repr

namespace Token

def spelling : Token → Bytes
  | openBracket => [0x5B]
  | closeBracket => [0x5D]
  | openBrace => [0x7B]
  | closeBrace => [0x7D]
  | colon => [0x3A]
  | comma => [0x2C]
  | null => [0x6E, 0x75, 0x6C, 0x6C]
  | bool true => [0x74, 0x72, 0x75, 0x65]
  | bool false => [0x66, 0x61, 0x6C, 0x73, 0x65]
  | number literal => literal
  | string content => 0x22 :: (content ++ [0x22])

end Token

namespace Value

mutual

def tokens : Value → List Token
  | null => [.null]
  | bool b => [.bool b]
  | number literal => [.number literal]
  | string content => [.string content]
  | array items => .openBracket :: (itemTokens items ++ [.closeBracket])
  | object members => .openBrace :: (memberTokens members ++ [.closeBrace])

def itemTokens : List Value → List Token
  | [] => []
  | item :: items => item.tokens ++ (match items with
    | [] => []
    | items => .comma :: itemTokens items)

def memberTokens : List (Bytes × Value) → List Token
  | [] => []
  | (key, value) :: members =>
    .string key :: .colon :: (value.tokens ++ (match members with
      | [] => []
      | members => .comma :: memberTokens members))

end

def render (v : Value) : Bytes := v.tokens.flatMap Token.spelling

end Value

end DeviceConnector.Json
