import DeviceConnector.Host.Basic
/-!
# What the host sends

Messages that the host sends by itself go to the link that carries the session, requests wait for
their answer in the table of pending requests, notices do not.
-/

namespace DeviceConnector.Host

/-- Queue a body on a link. It fails when nobody drains the queue. -/
def queue (h : Host) (link : Link) (body : Bytes) : Except HostError Host :=
  if h.isClosed link then .error .notConnected
  else .ok { h with outbox := h.outbox ++ [⟨link, body⟩] }

def transmit (h : Host) (m : Message) : Except HostError Host :=
  match h.attached with
  | none => .error .notConnected
  | some link =>
    match h.codec.encode m with
    | .error e => .error (.body e)
    | .ok body =>
      if body.length ≤ h.config.maxMessageSize then h.queue link body
      else .error (.messageTooLarge body.length h.config.maxMessageSize)

def carrier : Carrier Host := ⟨isConnected, fun m h => h.transmit m⟩

def send (h : Host) (m : Message) (callback : Callback) : Except HostError MessageId × Host :=
  let (result, pending, h) := h.pending.send carrier h m callback h.clock
  (result, { h with pending })

def notify (h : Host) (m : Message) : Except HostError Host :=
  if h.isConnected then
    if m.isComplete then h.transmit m else .error (.incompleteMessage m.type.tag)
  else .error .notConnected

def allocateId (h : Host) : Except HostError MessageId × Host :=
  match Session.allocateId? h.session with
  | (some id, session) => (.ok id, { h with session })
  | (none, _) => (.error .noActiveSession, h)

/-- Drop the pending requests that have reached the configured age; tells how many. -/
def evictExpired (h : Host) : Nat × Host :=
  match h.config.requestMaxAge with
  | none => (0, h)
  | some age =>
    let (count, pending) := h.pending.evict age h.clock
    (count, { h with pending })

end DeviceConnector.Host
