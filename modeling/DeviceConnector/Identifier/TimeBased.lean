import DeviceConnector.Identifier.Basic
/-!
# Time-based identifiers

A minter holds a 48-bit host id and a clock sequence. The identifiers it gives out are distinct as
long as the clock does not go back and no millisecond is hit more than 65536 times.
-/

namespace DeviceConnector

structure Minter where
  hostId : BitVec 48
  /-- Greatest timestamp seen so far. -/
  latest : BitVec 64 := 0
  /-- Number of identifiers, modulo 2^16, since the clock last moved forward. -/
  sequence : BitVec 16 := 0
  deriving DecidableEq, Repr

namespace Minter

def ofHostId (hostId : BitVec 64) : Minter := { hostId := hostId.setWidth 48 }

/-- Minter whose host id is a hardware address scrambled with random bits, or random bits alone. -/
def ofHardwareAddress (address : Option Nat) (random : BitVec 128) : Minter :=
  let random := random.setWidth 48
  { hostId := match address with
      | some mac => BitVec.ofNat 48 mac ^^^ random
      | none => random }

/-- The clock after a reading: the sequence restarts when time moves forward, else it counts on. -/
def tick (m : Minter) (millis : BitVec 64) : Minter :=
  if m.latest < millis then { m with latest := millis, sequence := 0 }
  else { m with sequence := m.sequence + 1 }

/-- From the top: low 32 bits of the time, middle 16, version one, high 12, sequence, host id. -/
def layout (millis : BitVec 64) (sequence : BitVec 16) (hostId : BitVec 48) : BitVec 128 :=
  millis.extractLsb' 0 32 ++ millis.extractLsb' 32 16 ++ 1#4 ++ millis.extractLsb' 48 12 ++
    sequence ++ hostId

def mint (m : Minter) (millis : BitVec 64) : Dsuid × Minter :=
  let m := m.tick millis
  (Dsuid.ofUuid (layout millis m.sequence m.hostId), m)

def mintAll (m : Minter) : List (BitVec 64) → List Dsuid × Minter
  | [] => ([], m)
  | millis :: rest =>
    let (d, m) := m.mint millis
    let (ds, m) := m.mintAll rest
    (d :: ds, m)

end Minter

end DeviceConnector
