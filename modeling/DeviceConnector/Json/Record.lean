import DeviceConnector.Json.Reader
import DeviceConnector.Json.Text
/-!
# Records

A record is written as an object or as an array of its fields in the order of declaration. In an
object, unknown keys are ignored and a known key may occur once; in an array, fields may be missing
at the end but there may be none beyond the declared ones. A field that is absent or null has no
value.
-/

namespace DeviceConnector.Json.Value

def namedMembers? (members : List (Bytes × Value)) : Option (List (String × Value)) :=
  members.mapM fun (key, value) => (toText? key).map (·, value)

def record? (fields : List String) : Value → Option (String → Option Value)
  | array items =>
    if items.length ≤ fields.length then some fun name => (fields.zip items).lookup name else none
  | object members =>
    (namedMembers? members).bind fun members =>
      if fields.all fun name => (members.countP (·.1 == name)) ≤ 1 then
        some fun name => members.lookup name
      else none
  | _ => none

/-- A field that may be absent or null. -/
def optional {α : Type} (read : Value → Option α) : Option Value → Option (Option α)
  | none => some none
  | some null => some none
  | some value => (read value).map some

def text? : Value → Option String
  | string content => toText? content
  | _ => none

/-- The number that a plain decimal literal writes, if it fits into 32 bits. -/
def literalWord? (literal : Bytes) : Option UInt32 :=
  if literal.isEmpty || !literal.all isDigit then none
  else
    let n := literal.foldl (fun n b => n * 10 + (b.toNat - 0x30)) 0
    if n < UInt32.size then some (UInt32.ofNat n) else none

def word? : Value → Option UInt32
  | number literal => literalWord? literal
  | _ => none

def ofText (text : String) : Value := string (Json.ofText text)

def ofNat (n : Nat) : Value := number ((Nat.toDigits 10 n).map fun c => UInt8.ofNat c.toNat)

def ofFields (fields : List (String × Option Value)) : Value :=
  object (fields.filterMap fun (name, value) => value.map (Json.ofText name, ·))

end DeviceConnector.Json.Value
