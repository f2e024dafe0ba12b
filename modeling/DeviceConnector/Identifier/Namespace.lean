import DeviceConnector.Identifier.Basic
import DeviceConnector.Text.Radix
/-!
# Namespaces

The five well-known namespaces under which names are turned into identifiers.
-/

namespace DeviceConnector

inductive Namespace where
  /-- EnOcean device ids. -/
  | enOcean
  /-- GS1-128 product codes. -/
  | gs1128
  /-- IEEE MAC addresses. -/
  | ieeeMac
  /-- Controller (vdSM) instances. -/
  | vdsm
  /-- vDC instances. -/
  | vdc
  deriving DecidableEq, Repr

namespace Namespace

def all : List Namespace := [enOcean, gs1128, ieeeMac, vdsm, vdc]

def uuid : Namespace → BitVec 128
  | enOcean => 0x0ba94a7b7c924dabb8e35fe09e83d0f3#128
  | gs1128 => 0x8ca838d54c4047ccbafa37ac89658962#128
  | ieeeMac => 0xad01965053304582850662c7340b34e6#128
  | vdsm => 0x195de5c0902f4b71a706b43b80765e3d#128
  | vdc => 0x9888dd3db3454109b0882673306d0c65#128

def bytes (ns : Namespace) : List UInt8 := Text.bigEndian 16 ns.uuid.toNat

def name : Namespace → String
  | enOcean => "enocean"
  | gs1128 => "gs1-128"
  | ieeeMac => "ieee-mac"
  | vdsm => "vdsm"
  | vdc => "vdc"

/-- The spelling under which names are compared: ASCII lowercase, hyphens for underscores. -/
def normalize (text : String) : String :=
  text.map fun c => if c = '_' then '-' else c.toLower

def parse? (text : String) : Option Namespace :=
  all.find? (·.name == normalize text)

def unknownMessage (text : String) : String :=
  "unknown namespace '" ++ text ++
    "' (expected one of: enocean, gs1-128, ieee-mac, vdsm, vdc)"

end Namespace

end DeviceConnector
