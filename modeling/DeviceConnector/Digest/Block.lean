import DeviceConnector.Text.Radix
/-!
# Blocks

What MD5 and SHA-1 have in common: they stir blocks of 64 bytes, one after the other, into a few
words of 32 bits, after the message has been filled up to whole blocks. They differ in the order of
bytes.
-/

namespace DeviceConnector.Digest

def rotate (x amount : UInt32) : UInt32 := (x <<< amount) ||| (x >>> (32 - amount))

/-- A byte of the data, zero beyond its end. -/
def byteAt (data : ByteArray) (i : Nat) : UInt32 :=
  if h : i < data.size then data[i].toUInt32 else 0

def wordAt (data : ByteArray) (i : Nat) : UInt32 :=
  (byteAt data i <<< 24) ||| (byteAt data (i + 1) <<< 16) ||| (byteAt data (i + 2) <<< 8) |||
    byteAt data (i + 3)

def reversedWordAt (data : ByteArray) (i : Nat) : UInt32 :=
  byteAt data i ||| (byteAt data (i + 1) <<< 8) ||| (byteAt data (i + 2) <<< 16) |||
    (byteAt data (i + 3) <<< 24)

def littleEndian (width n : Nat) : List UInt8 := (Text.bigEndian width n).reverse

/-- The message, a one bit, and zeros up to a multiple of 64 bytes, of which the last eight are the
number of bits of the message, in a given order of bytes. -/
def padded (lengthBytes : Nat → List UInt8) (data : ByteArray) : ByteArray :=
  let zeros := (119 - data.size % 64) % 64
  data ++ ⟨(0x80 :: List.replicate zeros 0 ++ lengthBytes (8 * data.size)).toArray⟩

/-- Stir every block of the data, given by its position, into a state. -/
def absorb {σ : Type} (compress : ByteArray → σ → Nat → σ) (initial : σ) (data : ByteArray) : σ :=
  (List.range (data.size / 64)).foldl (fun s block => compress data s (64 * block)) initial

end DeviceConnector.Digest
