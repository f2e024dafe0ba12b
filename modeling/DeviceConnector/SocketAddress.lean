import DeviceConnector.Text.Radix
/-!
# Socket addresses

An address to listen on: an IPv4 address, or an IPv6 address in brackets with an optional scope, and
a port. A reader takes something off the front of a text; a number is the longest run of digits.
Writing uses the shortest form.
-/

namespace DeviceConnector

open Text

structure Ipv4 where
  a : UInt8
  b : UInt8
  c : UInt8
  d : UInt8
  deriving DecidableEq, Repr

structure Ipv6 where
  groups : Vector UInt16 8
  deriving DecidableEq, Repr

inductive SocketAddress where
  | v4 (address : Ipv4) (port : UInt16)
  | v6 (address : Ipv6) (scope : UInt32) (port : UInt16)
  deriving DecidableEq, Repr

namespace SocketAddress

def takeChar (c : Char) : List Char → Option (Unit × List Char)
  | first :: rest => if first = c then some ((), rest) else none
  | [] => none

/-- A number of at most `limit`, written with all digits that follow. -/
def takeNumber (radix limit : Nat) (maxDigits : Option Nat) (zeroPrefix : Bool)
    (text : List Char) : Option (Nat × List Char) :=
  let isDigit (c : Char) := (digitValue? radix c).isSome
  let digits := text.takeWhile isDigit
  if maxDigits.any (· < digits.length) then none
  else if !zeroPrefix && digits.head? == some '0' && 1 < digits.length then none
  else
    ((readDigits? radix digits).filter (· ≤ limit)).map (·, text.dropWhile isDigit)

def takeOctet (text : List Char) : Option (UInt8 × List Char) :=
  (takeNumber 10 255 (some 3) false text).map fun (n, text) => (UInt8.ofNat n, text)

def takeIpv4 (text : List Char) : Option (Ipv4 × List Char) := do
  let (a, text) ← takeOctet text
  let (_, text) ← takeChar '.' text
  let (b, text) ← takeOctet text
  let (_, text) ← takeChar '.' text
  let (c, text) ← takeOctet text
  let (_, text) ← takeChar '.' text
  let (d, text) ← takeOctet text
  return (⟨a, b, c, d⟩, text)

def groupOf (high low : UInt8) : UInt16 := high.toUInt16 <<< 8 ||| low.toUInt16

/-- At most so many groups, separated by colons; the last two may be written as an IPv4 address.
Tells whether they were, and leaves the text from where no group follows. -/
def takeGroups (first : Bool) : Nat → List Char → List UInt16 × Bool × List Char
  | 0, text => ([], false, text)
  | more + 1, text =>
    let begun := if first then some ((), text) else takeChar ':' text
    let embedded := if more = 0 then none else begun.bind fun (_, text) => takeIpv4 text
    match embedded with
    | some (⟨a, b, c, d⟩, text) => ([groupOf a b, groupOf c d], true, text)
    | none =>
      match begun.bind fun (_, text) => takeNumber 16 65535 (some 4) true text with
      | some (group, text) =>
        let (groups, embedded, text) := takeGroups false more text
        (UInt16.ofNat group :: groups, embedded, text)
      | none => ([], false, text)

def ipv6? (groups : List UInt16) : Option Ipv6 :=
  if eight : groups.length = 8 then some ⟨⟨groups.toArray, by simpa using eight⟩⟩ else none

def takeIpv6 (text : List Char) : Option (Ipv6 × List Char) :=
  let (head, embedded, text) := takeGroups true 8 text
  if head.length = 8 then (ipv6? head).map (·, text)
  else if embedded then none
  else do
    let (_, text) ← takeChar ':' text
    let (_, text) ← takeChar ':' text
    let (tail, _, text) := takeGroups true (7 - head.length) text
    let zeros := List.replicate (8 - head.length - tail.length) 0
    (ipv6? (head ++ zeros ++ tail)).map (·, text)

def takePort (text : List Char) : Option (UInt16 × List Char) := do
  let (_, text) ← takeChar ':' text
  let (port, text) ← takeNumber 10 65535 none true text
  return (UInt16.ofNat port, text)

def takeScope (text : List Char) : Option (UInt32 × List Char) := do
  let (_, text) ← takeChar '%' text
  let (scope, text) ← takeNumber 10 (UInt32.size - 1) none true text
  return (UInt32.ofNat scope, text)

def takeV4 (text : List Char) : Option (SocketAddress × List Char) := do
  let (address, text) ← takeIpv4 text
  let (port, text) ← takePort text
  return (.v4 address port, text)

def takeV6 (text : List Char) : Option (SocketAddress × List Char) := do
  let (_, text) ← takeChar '[' text
  let (address, text) ← takeIpv6 text
  let (scope, text) := (takeScope text).getD (0, text)
  let (_, text) ← takeChar ']' text
  let (port, text) ← takePort text
  return (.v6 address scope port, text)

def parse? (text : String) : Option SocketAddress :=
  match (takeV4 text.toList).orElse fun _ => takeV6 text.toList with
  | some (address, []) => some address
  | _ => none

def ipv4Text (address : Ipv4) : String :=
  ".".intercalate ([address.a, address.b, address.c, address.d].map toString)

def groupText (group : UInt16) : String := String.ofList (Nat.toDigits 16 group.toNat)

def groupsText (groups : List UInt16) : String := ":".intercalate (groups.map groupText)

def longestZeros (position : Nat) : List UInt16 → Nat × Nat
  | [] => (position, 0)
  | group :: groups =>
    let run := ((group :: groups).takeWhile (· == 0)).length
    let later := longestZeros (position + 1) groups
    if later.2 ≤ run then (position, run) else later

/-- The shortest form: two colons for the first longest run of at least two zero groups. An IPv4
address that is mapped into the sixth version is written as such. -/
def ipv6Text (address : Ipv6) : String :=
  match address.groups.toList with
  | [0, 0, 0, 0, 0, 0xFFFF, high, low] =>
    let mapped : Ipv4 :=
      ⟨(high >>> 8).toUInt8, high.toUInt8, (low >>> 8).toUInt8, low.toUInt8⟩
    "::ffff:" ++ ipv4Text mapped
  | groups =>
    let (start, length) := longestZeros 0 groups
    if 1 < length then
      groupsText (groups.take start) ++ "::" ++ groupsText (groups.drop (start + length))
    else groupsText groups

def text : SocketAddress → String
  | v4 address port => ipv4Text address ++ ":" ++ toString port
  | v6 address scope port =>
    let scope := if scope = 0 then "" else "%" ++ toString scope
    "[" ++ ipv6Text address ++ scope ++ "]:" ++ toString port

end SocketAddress

end DeviceConnector
