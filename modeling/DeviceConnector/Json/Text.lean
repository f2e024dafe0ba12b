import DeviceConnector.Json.Lexer
/-!
# The text of a JSON string

Between its quotes a string is written with quotes, backslashes and control characters escaped and
all else as it is, in UTF-8. It is read with every escape of the format; surrogate escapes must come
in pairs, and the bytes that result must be valid UTF-8.
-/

namespace DeviceConnector.Json

def hexByte (n : Nat) : UInt8 := if n < 10 then UInt8.ofNat (0x30 + n) else UInt8.ofNat (0x57 + n)

def escapeByte (b : UInt8) : Bytes :=
  if b = 0x22 then [0x5C, 0x22]
  else if b = 0x5C then [0x5C, 0x5C]
  else if b = 0x08 then [0x5C, 0x62]
  else if b = 0x09 then [0x5C, 0x74]
  else if b = 0x0A then [0x5C, 0x6E]
  else if b = 0x0C then [0x5C, 0x66]
  else if b = 0x0D then [0x5C, 0x72]
  else if b < 0x20 then
    [0x5C, 0x75, 0x30, 0x30, hexByte (b.toNat / 16), hexByte (b.toNat % 16)]
  else [b]

def escape (bytes : Bytes) : Bytes := bytes.flatMap escapeByte

def escapeLetter? (b : UInt8) : Option UInt8 :=
  if b = 0x22 || b = 0x5C || b = 0x2F then some b
  else if b = 0x62 then some 0x08
  else if b = 0x66 then some 0x0C
  else if b = 0x6E then some 0x0A
  else if b = 0x72 then some 0x0D
  else if b = 0x74 then some 0x09
  else none

def hexWord? (a b c d : UInt8) : Option Nat := do
  return (((← hexValue? a) * 16 + (← hexValue? b)) * 16 + (← hexValue? c)) * 16 + (← hexValue? d)

def isLeadSurrogate (n : Nat) : Bool := 0xD800 ≤ n && n ≤ 0xDBFF

def isTrailSurrogate (n : Nat) : Bool := 0xDC00 ≤ n && n ≤ 0xDFFF

/-- The bytes of a code point, put in front of bytes that are kept newest first. -/
def pushCodePoint (n : Nat) (read : Bytes) : Bytes :=
  (String.utf8EncodeChar (Char.ofNat n)).reverse ++ read

/-- Resolve the escapes behind bytes already read, which are kept newest first. -/
def unescapeOnto (read : Bytes) : Bytes → Option Bytes
  | [] => some read.reverse
  | 0x5C :: 0x75 :: a :: b :: c :: d :: rest =>
    match hexWord? a b c d with
    | none => none
    | some n =>
      if isTrailSurrogate n then none
      else if isLeadSurrogate n then
        match rest with
        | 0x5C :: 0x75 :: e :: f :: g :: h :: rest =>
          match hexWord? e f g h with
          | none => none
          | some m =>
            if isTrailSurrogate m then
              unescapeOnto (pushCodePoint (0x10000 + (n - 0xD800) * 0x400 + (m - 0xDC00)) read) rest
            else none
        | _ => none
      else unescapeOnto (pushCodePoint n read) rest
  | 0x5C :: letter :: rest =>
    match escapeLetter? letter with
    | none => none
    | some b => unescapeOnto (b :: read) rest
  | b :: rest => if b = 0x5C then none else unescapeOnto (b :: read) rest

def unescape? (content : Bytes) : Option Bytes := unescapeOnto [] content

def ofText (text : String) : Bytes := escape text.toUTF8.data.toList

def toText? (content : Bytes) : Option String :=
  (unescape? content).bind fun bytes => String.fromUTF8? ⟨bytes.toArray⟩

end DeviceConnector.Json
