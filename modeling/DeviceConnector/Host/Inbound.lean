import DeviceConnector.Host.Vdcs
/-!
# What the host receives

A frame is handled in three steps: the message is handled and its reply composed, the reply is
queued on the link the frame came from, and announcements that a fresh session has asked for are
made. So a controller sees the answer to its hello before any announcement.
-/

namespace DeviceConnector.Host

/-- Handle a hello. When it is accepted, the link it came over carries the session from then on; a
fresh session asks for the announcement of all vDCs. -/
def receiveHello (h : Host) (request : Message) (via : Option Link) : Message × Host :=
  let (outcome, session) := Session.hello h.session request.id request.helloRequest
  let attached := via.orElse fun _ => h.attached
  let h := match outcome with
    | .established _ => { h with session, attached, announcePending := true }
    | .renewed _ => { h with session, attached }
    | _ => h
  match outcome.rejection? with
  | none => (.welcome h.dsuid request.id, h)
  | some code => (.ofCode code request.id, h)

def receivePing (h : Host) (request : Message) : Option Message :=
  (request.ping.bind EntityRef.target?).bind fun target =>
    (h.registry.find? target).bind fun e => e.pong? request

def tellBye (h : Host) (request : Message) (e : Entity) : Host :=
  let h := match e with
    | .vdc vdc => h.setConnected vdc.object false
    | _ => h
  { h with farewells := h.farewells ++ [(e, request)] }

/-- Handle a bye. Only the controller that holds the session can end it, and only over the link that
carries it; every registered entity is then told. -/
def receiveBye (h : Host) (request : Message) (via : Option Link) : Option Message × Host :=
  match request.bye.bind EntityRef.target? with
  | none => (none, h)
  | some peer =>
    if via.any fun link => h.attached.map (·.id) ≠ some link.id then (none, h)
    else
      match Session.bye h.session peer with
      | (false, _) => (none, h)
      | (true, session) =>
        let h := { h with session, attached := none }
        (some (.ofCode .ok request.id), h.registry.entities.foldl (tellBye · request) h)

/-- Handle a request to remove an entity. It is refused without a target and ignored with one. -/
def receiveRemove (request : Message) : Option Message :=
  match request.remove.bind EntityRef.target? with
  | none => some (.ofCode .missingData request.id)
  | some _ => none

def runCallback (h : Host) (answer : RequestTable.Answer Callback) : Host :=
  match answer.callback with
  | .announcement vdc => if answer.response.isOk then h.setConnected vdc true else h
  | .application tag => { h with answers := h.answers ++ [⟨tag, answer.response⟩] }

def receiveResponse (h : Host) (response : Message) : Bool × Host :=
  match h.pending.answer response with
  | (some answer, pending) => (true, { h with pending }.runCallback answer)
  | (none, pending) => (false, { h with pending })

def receive (h : Host) (m : Message) (link : Link) : Option Message × Host :=
  match m.type with
  | .requestHello =>
    let (reply, h) := h.receiveHello m (some link)
    (some reply, h)
  | .ping => (h.receivePing m, h)
  | .bye => h.receiveBye m (some link)
  | .remove => (receiveRemove m, h)
  | .genericResponse => (none, (h.receiveResponse m).2)
  | _ => (none, h)

/-- Handle the body of a frame. An empty one is ignored; one that is too large or cannot be decoded
is answered with an empty body, and so is one whose reply cannot be encoded. -/
def handleBody (h : Host) (body : Bytes) (link : Link) : Option Bytes × Host :=
  if body.isEmpty then (none, h)
  else if h.config.maxMessageSize < body.length then (some [], h)
  else
    match h.codec.decode body with
    | .error _ => (some [], h)
    | .ok m =>
      match h.receive m link with
      | (none, h) => (none, h)
      | (some reply, h) =>
        match h.codec.encode reply with
        | .ok encoded => (some encoded, h)
        | .error _ => (some [], h)

def queueReply (h : Host) (link : Link) : Option Bytes → Except HostError Host
  | none => .ok h
  | some reply => h.queue link reply

/-- Handle a frame: its body, then the reply, then announcements that are due. A reply that cannot
be queued ends the handling. -/
def processFrame (h : Host) (body : Bytes) (link : Link) : Except HostError Unit × Host :=
  let (reply, h) := h.handleBody body link
  match h.queueReply link reply with
  | .error e => (.error e, h)
  | .ok h => (.ok (), h.flushAnnouncements.2)

/-- A connection has ended. If it carried the session, the session ends and every registered vDC
counts as disconnected; tells whether it did. -/
def detach (h : Host) (linkId : Nat) : Bool × Host :=
  if h.attached.map (·.id) = some linkId then
    let (_, session) := Session.terminate h.session
    (true, { h with session, attached := none }.disconnectVdcs)
  else (false, h)

end DeviceConnector.Host
