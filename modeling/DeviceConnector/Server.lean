import DeviceConnector.Frame.Codec
import DeviceConnector.Host.Inbound
/-!
# Serving connections

A server gives every connection a link to the host. Bytes that arrive are collected until they make
whole frames, which the host then handles one by one. A connection is closed when its peer ends it,
when it stays idle for too long, when its bytes are no frames, or when a reply cannot be queued; its
link is then detached from the host.
-/

namespace DeviceConnector

structure Connection where
  link : Link
  /-- Bytes received that do not make a whole frame yet. -/
  received : Bytes := []
  /-- When the last frame was complete, or the connection began, in milliseconds. -/
  idleSince : Nat
  deriving DecidableEq, Repr

structure Server where
  host : Host
  connections : Table Nat Connection := ∅
  /-- Id of the next connection. -/
  nextId : Nat := 1

namespace Server

def new (config : HostConfig) (vdcs : List (Dsuid × String)) : Server where
  host := vdcs.foldl (fun h (dsuid, model) =>
    let (object, h) := h.newObject
    (h.addVdc ⟨object, dsuid, model⟩).2) (Host.new config)

inductive Event where
  | connected
  | received (id : Nat) (bytes : Bytes)
  /-- No more bytes will arrive over a connection. -/
  | ended (id : Nat)
  /-- What is queued on a connection cannot be written any more. -/
  | writerFailed (id : Nat)
  /-- Time passes: idle connections are closed. -/
  | idleCheck
  /-- Time passes: pending requests that are too old are dropped. -/
  | sweep
  | shutdown
  deriving DecidableEq, Repr

/-- Milliseconds between two sweeps. -/
def sweepInterval : Nat := 5000

def update (s : Server) (id : Nat) (connection : Connection) : Server :=
  { s with connections := s.connections.insert id connection }

def close (s : Server) (id : Nat) : Server :=
  { s with host := (s.host.detach id).2, connections := s.connections.erase id }

/-- Handle frames of a link one after the other, until a reply cannot be queued; tells whether all
of them were handled. -/
def processAll (h : Host) (link : Link) : List Bytes → Bool × Host
  | [] => (true, h)
  | body :: bodies =>
    match h.processFrame body link with
    | (.error _, h) => (false, h)
    | (.ok (), h) => processAll h link bodies

def connect (s : Server) (now : Nat) : Server :=
  let (link, host) := s.host.openLink s.nextId
  { s with host, nextId := s.nextId + 1 }.update s.nextId { link, idleSince := now }

def receive (s : Server) (id : Nat) (bytes : Bytes) (now : Nat) : Server :=
  match s.connections.find? id with
  | none => s
  | some connection =>
    let (bodies, received, refusal) := FrameCodec.unlimited.decodeAll (connection.received ++ bytes)
    let (handled, host) := processAll s.host connection.link bodies
    let s := { s with host }
    if handled && refusal.isNone then
      let idleSince := if bodies.isEmpty then connection.idleSince else now
      s.update id { connection with received, idleSince }
    else s.close id

def idle (s : Server) (now : Nat) : List Nat :=
  (s.connections.entries.filter fun (_, connection) =>
    s.host.config.idleTimeout ≤ now - connection.idleSince).map (·.1)

def handle (s : Server) (now : Nat) (event : Event) : Server :=
  let s := { s with host := { s.host with clock := now } }
  match event with
  | .connected => s.connect now
  | .received id bytes => s.receive id bytes now
  | .ended id => s.close id
  | .writerFailed id =>
    match s.connections.find? id with
    | none => s
    | some connection => { s with host := s.host.closeQueue connection.link }
  | .idleCheck => (s.idle now).foldl close s
  | .sweep => { s with host := s.host.evictExpired.2 }
  | .shutdown => s.connections.keys.foldl close s

def drain (s : Server) : List (Nat × Bytes) × Server :=
  (s.host.outbox.map fun queued => (queued.link.id, queued.body),
    { s with host := s.host.drained })

end Server

end DeviceConnector
