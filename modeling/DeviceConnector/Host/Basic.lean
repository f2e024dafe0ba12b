import DeviceConnector.Entity.Registry
import DeviceConnector.Host.Config
import DeviceConnector.Request
import DeviceConnector.Session
/-!
# The host

The state of a vDC host: its session and the link that carries it, the registry, the pending
requests and what is known of each vDC. What the host puts out is recorded in order: bodies queued
on links, byes told to entities, answers handed to the application.
-/

namespace DeviceConnector

/-- Outbound half of a connection: the id of the connection and the queue that its writer drains. -/
structure Link where
  id : Nat
  queue : Nat
  deriving DecidableEq, Repr

structure Queued where
  link : Link
  body : Bytes
  deriving DecidableEq, Repr

inductive Callback where
  /-- The vDC counts as connected once its announcement is accepted. -/
  | announcement (vdc : ObjectId)
  /-- The application is told, under a tag of its own. -/
  | application (tag : String)
  deriving DecidableEq, Repr

structure VdcState where
  /-- The controller has accepted its announcement. -/
  connected : Bool := false
  attached : Bool := false
  devices : Table Dsuid Entity := ∅

structure Host where
  config : HostConfig
  codec : BodyCodec
  session : Option Session := none
  /-- The link that carries the session. -/
  attached : Option Link := none
  registry : Registry
  pending : RequestTable Callback := ∅
  /-- A fresh session has asked for the announcement of all vDCs. -/
  announcePending : Bool := false
  /-- State of each vDC, by identity; one that is missing is as new. -/
  vdcStates : Table ObjectId VdcState := ∅
  /-- Current time in milliseconds. -/
  clock : Nat := 0
  /-- Number of identities given out so far. -/
  objects : Nat
  /-- Number of queues given out so far. -/
  queues : Nat := 0
  /-- Queues that nobody drains any more. -/
  closedQueues : List Nat := []
  outbox : List Queued := []
  /-- Entities that have been told of a bye, with the request. -/
  farewells : List (Entity × Message) := []
  answers : List (RequestTable.Answer String) := []

namespace Host

def new (config : HostConfig) (codec : BodyCodec := .json) : Host :=
  { config, codec, objects := 1
    registry := Registry.add ∅ (.host 0 config.hostDsuid config.name) }

def dsuid (h : Host) : Dsuid := h.config.hostDsuid

/-- A session exists and a link carries it. -/
def isConnected (h : Host) : Bool := h.session.isSome && h.attached.isSome

def newObject (h : Host) : ObjectId × Host := (h.objects, { h with objects := h.objects + 1 })

def openLink (h : Host) (id : Nat) : Link × Host :=
  (⟨id, h.queues⟩, { h with queues := h.queues + 1 })

def closeQueue (h : Host) (link : Link) : Host :=
  { h with closedQueues := link.queue :: h.closedQueues }

def isClosed (h : Host) (link : Link) : Bool := h.closedQueues.contains link.queue

def queuedOn (h : Host) (link : Link) : List Bytes :=
  (h.outbox.filter (·.link = link)).map (·.body)

def drained (h : Host) : Host := { h with outbox := [], farewells := [], answers := [] }

def vdcState (h : Host) (object : ObjectId) : VdcState := (h.vdcStates.find? object).getD {}

def updateVdc (h : Host) (object : ObjectId) (change : VdcState → VdcState) : Host :=
  { h with vdcStates := h.vdcStates.insert object (change (h.vdcState object)) }

def setConnected (h : Host) (object : ObjectId) (connected : Bool) : Host :=
  h.updateVdc object fun state => { state with connected }

end Host

end DeviceConnector
