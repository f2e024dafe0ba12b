import DeviceConnector.Text.Blank
import DeviceConnector.Text.Radix
/-!
# Hardware addresses

The host id of a minter starts from the first network interface that has a usable address. The
choice depends on the set of interfaces and not on the order in which they are listed.
-/

namespace DeviceConnector.HardwareAddress

open Text

/-- What is kept of the octets that were read: a word that takes each of them in at its low end, and
their number. Both wrap. -/
structure Octets where
  value : BitVec 64 := 0
  count : BitVec 32 := 0

def Octets.push (octets : Octets) (octet : Nat) : Octets :=
  { value := octets.value <<< 8 ||| BitVec.ofNat 64 octet, count := octets.count + 1 }

/-- Octets joined by colons, each one or more hexadecimal digits of value at most 255. That they are
six is seen from their count. -/
def parse? (text : List Char) : Option Nat :=
  let read := (text.splitOn ':').foldlM
    (fun octets part => (readUnsigned? 16 255 part).map (Octets.push octets)) {}
  read.bind fun octets => if octets.count = 6 then some octets.value.toNat else none

structure Entry where
  name : List UInt8
  address : Option String
  deriving DecidableEq, Repr

namespace Entry

def loopback : List UInt8 := "lo".toUTF8.data.toList

def usable? (e : Entry) : Option Nat :=
  if e.name = loopback then none
  else e.address.bind fun text => (parse? (trim text.toList)).filter (· ≠ 0)

end Entry

/-- The address of the first entry that offers one, in the order of the bytes of the names. There
is none if the directory cannot be read. -/
def ofDirectory? (directory : Option (List Entry)) : Option Nat :=
  directory.bind fun entries =>
    (entries.mergeSort fun a b => decide (a.name ≤ b.name)).findSome? Entry.usable?

structure Interface where
  name : String
  address : Option String
  deriving DecidableEq, Repr

def Interface.entry (i : Interface) : Entry :=
  { name := i.name.toUTF8.data.toList, address := i.address }

def first? (interfaces : List Interface) : Option Nat :=
  ofDirectory? (some (interfaces.map Interface.entry))

end DeviceConnector.HardwareAddress
