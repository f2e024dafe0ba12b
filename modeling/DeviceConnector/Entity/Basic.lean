import DeviceConnector.Data.Table
import DeviceConnector.Message.Basic
/-!
# Entities

What a controller can address: the host itself, its vDCs and their devices. Two entities may carry
the same identifier, so each also has an identity of its own.
-/

namespace DeviceConnector

instance : Ranked Dsuid where
  rank := Dsuid.rank
  rank_injective := Dsuid.rank_injective

/-- Identity of an entity, which distinguishes it from others with the same identifier. -/
abbrev ObjectId := Nat

inductive EntityKind where
  | host
  | vdc
  | device
  deriving DecidableEq, Repr

def EntityKind.name : EntityKind → String
  | host => "vDChost"
  | vdc => "vDC"
  | device => "vdSD"

structure Vdc where
  object : ObjectId
  dsuid : Dsuid
  model : String
  deriving DecidableEq, Repr

inductive Entity where
  | host (object : ObjectId) (dsuid : Dsuid) (name : String)
  | device (object : ObjectId) (dsuid : Dsuid) (name : String)
  | vdc (vdc : Vdc)
  deriving DecidableEq, Repr

namespace Entity

def object : Entity → ObjectId
  | host object .. | device object .. => object
  | vdc v => v.object

def dsuid : Entity → Dsuid
  | host _ dsuid _ | device _ dsuid _ => dsuid
  | vdc v => v.dsuid

def name : Entity → String
  | host _ _ name | device _ _ name => name
  | vdc v => v.model

def kind : Entity → EntityKind
  | host .. => .host
  | device .. => .device
  | vdc _ => .vdc

def vdc? : Entity → Option Vdc
  | vdc v => some v
  | _ => none

def pong? (e : Entity) (request : Message) : Option Message :=
  request.ping.map fun _ => .pongOf e.dsuid

def farewell? (_ : Entity) (request : Message) : Option Message :=
  request.bye.map fun _ => .ofCode .ok request.id

end Entity

end DeviceConnector
