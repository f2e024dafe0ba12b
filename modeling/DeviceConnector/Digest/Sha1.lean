import DeviceConnector.Digest.Block
/-!
# SHA-1

The 20-byte digest behind name-based identifiers of version five.
-/

namespace DeviceConnector.Digest.Sha1

structure State where
  a : UInt32
  b : UInt32
  c : UInt32
  d : UInt32
  e : UInt32

def initial : State := ⟨0x67452301, 0xefcdab89, 0x98badcfe, 0x10325476, 0xc3d2e1f0⟩

/-- The eighty words of the block at a position: sixteen of the data, then mixtures of these. -/
def schedule (data : ByteArray) (start : Nat) : Array UInt32 :=
  let grow (words : Array UInt32) (i : Nat) : Array UInt32 :=
    let back (k : Nat) := words.getD (i - k) 0
    words.push (if i < 16 then wordAt data (start + 4 * i)
      else rotate (back 3 ^^^ back 8 ^^^ back 14 ^^^ back 16) 1)
  (List.range 80).foldl grow (Array.emptyWithCapacity 80)

def operation (words : Array UInt32) (s : State) (i : Nat) : State :=
  let (mix, constant) : UInt32 × UInt32 :=
    match i / 20 with
    | 0 => ((s.b &&& s.c) ||| (~~~s.b &&& s.d), 0x5a827999)
    | 1 => (s.b ^^^ s.c ^^^ s.d, 0x6ed9eba1)
    | 2 => ((s.b &&& s.c) ||| (s.b &&& s.d) ||| (s.c &&& s.d), 0x8f1bbcdc)
    | _ => (s.b ^^^ s.c ^^^ s.d, 0xca62c1d6)
  ⟨rotate s.a 5 + mix + s.e + constant + words.getD i 0, s.a, rotate s.b 30, s.c, s.d⟩

def compress (data : ByteArray) (s : State) (start : Nat) : State :=
  let words := schedule data start
  let t := (List.range 80).foldl (operation words) s
  ⟨s.a + t.a, s.b + t.b, s.c + t.c, s.d + t.d, s.e + t.e⟩

def digest (data : ByteArray) : List UInt8 :=
  let s := absorb compress initial (padded (Text.bigEndian 8) data)
  [s.a, s.b, s.c, s.d, s.e].flatMap fun word => Text.bigEndian 4 word.toNat

end DeviceConnector.Digest.Sha1
