/-!
# Numbers in a radix

Digits of radix ten and sixteen, read in either case and written in a fixed width. The readers
accept exactly a nonempty run of digits, with one leading plus sign where `readUnsigned?` is used.
-/

namespace DeviceConnector.Text

def hexValue? (c : Char) : Option Nat :=
  let n := c.toNat
  if 48 ≤ n ∧ n ≤ 57 then some (n - 48)
  else if 97 ≤ n ∧ n ≤ 102 then some (n - 87)
  else if 65 ≤ n ∧ n ≤ 70 then some (n - 55)
  else none

def isHexDigit (c : Char) : Bool := (hexValue? c).isSome

def digitValue? (radix : Nat) (c : Char) : Option Nat :=
  (hexValue? c).filter (· < radix)

/-- The number whose digits these are, most significant first. -/
def digitsValue (radix : Nat) (digits : List Nat) : Nat :=
  digits.foldl (fun n d => n * radix + d) 0

def readDigits? (radix : Nat) (text : List Char) : Option Nat :=
  if text.isEmpty then none else (text.mapM (digitValue? radix)).map (digitsValue radix)

def dropPlus : List Char → List Char
  | '+' :: rest => rest
  | text => text

/-- An optional plus sign and one or more digits, of value at most `limit`. -/
def readUnsigned? (radix limit : Nat) (text : List Char) : Option Nat :=
  (readDigits? radix (dropPlus text)).filter (· ≤ limit)

/-- The lowest `width` digits of a number, most significant first. -/
def fixedDigits (radix : Nat) : Nat → Nat → List Nat
  | 0, _ => []
  | width + 1, n => fixedDigits radix width (n / radix) ++ [n % radix]

def upperDigit (n : Nat) : Char :=
  if n < 10 then Char.ofNat (48 + n) else Char.ofNat (55 + n)

def lowerDigit (n : Nat) : Char :=
  if n < 10 then Char.ofNat (48 + n) else Char.ofNat (87 + n)

def upperHex (width n : Nat) : List Char := (fixedDigits 16 width n).map upperDigit

def lowerHex (width n : Nat) : List Char := (fixedDigits 16 width n).map lowerDigit

def bigEndian (width n : Nat) : List UInt8 := (fixedDigits 256 width n).map UInt8.ofNat

def ofBigEndian (bytes : List UInt8) : Nat := digitsValue 256 (bytes.map UInt8.toNat)

@[simp]
theorem length_fixedDigits (radix width n : Nat) : (fixedDigits radix width n).length = width := by
  induction width generalizing n with
  | zero => rfl
  | succ width ih => simp [fixedDigits, ih]

end DeviceConnector.Text
