import DeviceConnector.Identifier.Basic
import DeviceConnector.Text.Blank
import DeviceConnector.Text.Radix
/-!
# Identifier texts

An identifier is written as 34 uppercase hexadecimal digits, the last two being the zero tag. It is
read in either case, with any tag or without one, and with blanks around it.
-/

namespace DeviceConnector

inductive DsuidError where
  | invalidLength (length : Nat)
  | invalidHex (text : String)
  deriving DecidableEq, Repr

namespace DsuidError

def message : DsuidError → String
  | invalidLength length =>
    "invalid dSUID length " ++ toString length ++ " (expected 32 or 34 hex characters)"
  | invalidHex text => "invalid dSUID '" ++ text ++ "': not a hexadecimal string"

end DsuidError

namespace Dsuid

open Text

def toBytes (d : Dsuid) : List UInt8 := bigEndian 16 d.uuid.toNat ++ [0]

def ofBytes (bytes : List UInt8) : Dsuid := ofUuid (BitVec.ofNat 128 (ofBigEndian bytes))

def digits (d : Dsuid) : List Char := upperHex 32 d.uuid.toNat ++ ['0', '0']

def text (d : Dsuid) : String := String.ofList d.digits

/-- The inner value in five lowercase groups joined by hyphens. -/
def uuidText (d : Dsuid) : String :=
  let hex := lowerHex 32 d.uuid.toNat
  let group (start length : Nat) := String.ofList ((hex.drop start).take length)
  "-".intercalate [group 0 8, group 8 4, group 12 4, group 16 4, group 20 12]

/-- Read an identifier from text that is already trimmed. The tag is checked, then ignored. -/
def ofDigits (text : List Char) : Except DsuidError Dsuid :=
  let length := byteLength text
  if length ≠ 32 ∧ length ≠ 34 then .error (.invalidLength length)
  else if text.all isHexDigit then
    .ok (ofUuid (BitVec.ofNat 128 (digitsValue 16 ((text.take 32).filterMap hexValue?))))
  else .error (.invalidHex (String.ofList text))

def parse (text : String) : Except DsuidError Dsuid := ofDigits (trim text.toList)

def parse? (text : String) : Option Dsuid := (parse text).toOption

end Dsuid

end DeviceConnector
