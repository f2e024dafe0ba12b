import DeviceConnector.Message.Basic
/-!
# Sessions

A host talks to at most one controller. A session begins with an accepted hello, lasts through
renewed hellos of the same controller, and ends with its bye or when it is dropped. It hands out the
ids of outbound messages, which count from one and never are zero.
-/

namespace DeviceConnector

structure Session where
  peer : Dsuid
  /-- The id handed out last, zero before the first. -/
  lastId : MessageId := 0
  deriving DecidableEq, Repr

inductive HelloOutcome where
  | established (peer : Dsuid)
  | renewed (peer : Dsuid)
  | missingData
  | incompatibleApi
  | invalidPeer
  | busy (current : Dsuid)
  deriving DecidableEq, Repr

namespace HelloOutcome

def rejection? : HelloOutcome → Option ResultCode
  | established _ | renewed _ => none
  | missingData => some .missingData
  | incompatibleApi => some .incompatibleApi
  | invalidPeer => some .invalidValueType
  | busy _ => some .serviceNotAvailable

end HelloOutcome

namespace Session

def supportedApiVersion : UInt32 := 3

/-- The peer that a hello names, or why it is refused whatever the session. -/
def checkHello (id : Option MessageId) (request : Option HelloRequest) :
    Except HelloOutcome Dsuid :=
  match id, request.bind (·.dsuid) with
  | some _, some text =>
    match request.bind (·.apiVersion) with
    | some version =>
      if version ≤ supportedApiVersion then
        match Dsuid.parse? text with
        | some peer => .ok peer
        | none => .error .invalidPeer
      else .error .incompatibleApi
    | none => .error .incompatibleApi
  | _, _ => .error .missingData

/-- A hello that is refused whatever the session is refused for one of three reasons. -/
theorem checkHello_error {id : Option MessageId} {request : Option HelloRequest}
    {outcome : HelloOutcome} (refused : checkHello id request = .error outcome) :
    outcome = .missingData ∨ outcome = .incompatibleApi ∨ outcome = .invalidPeer := by
  unfold checkHello at refused
  grind

/-- A hello that is not refused has an id, a peer that can be read and a version that is spoken. -/
theorem checkHello_eq_ok_iff {id : Option MessageId} {request : Option HelloRequest}
    {peer : Dsuid} : checkHello id request = .ok peer ↔
      id.isSome = true ∧ ∃ text version, request = some ⟨some text, some version⟩ ∧
        version ≤ supportedApiVersion ∧ Dsuid.parse? text = some peer := by
  constructor
  · intro valid
    unfold checkHello at valid
    split at valid
    · rename_i text named
      split at valid
      · rename_i version versioned
        split at valid
        · rename_i spoken
          split at valid
          · rename_i parsed
            obtain rfl := Except.ok.inj valid
            obtain ⟨⟨dsuid, apiVersion⟩, rfl, rfl⟩ := Option.bind_eq_some_iff.1 named
            obtain rfl : apiVersion = some version := versioned
            exact ⟨rfl, text, version, rfl, spoken, parsed⟩
          · cases valid
        · cases valid
      · cases valid
    · cases valid
  · rintro ⟨named, text, version, rfl, spoken, parsed⟩
    obtain ⟨n, rfl⟩ := Option.isSome_iff_exists.1 named
    simp [checkHello, spoken, parsed]

/-- Apply a hello. A refusal leaves the session as it is, and so does a renewal. -/
def hello (session : Option Session) (id : Option MessageId) (request : Option HelloRequest) :
    HelloOutcome × Option Session :=
  match checkHello id request with
  | .error outcome => (outcome, session)
  | .ok peer =>
    match session with
    | none => (.established peer, some { peer })
    | some current =>
      if current.peer = peer then (.renewed peer, session) else (.busy current.peer, session)

def bye (session : Option Session) (peer : Dsuid) : Bool × Option Session :=
  match session with
  | some current => if current.peer = peer then (true, none) else (false, session)
  | none => (false, none)

def terminate (session : Option Session) : Option Dsuid × Option Session :=
  (session.map (·.peer), none)

/-- The id after another one: the next number, or one where that would be zero. -/
def nextId (id : MessageId) : MessageId := if id + 1 = 0 then 1 else id + 1

theorem nextId_ne_zero (id : MessageId) : nextId id ≠ 0 := by
  unfold nextId
  split
  · decide
  · assumption

def allocateId (session : Session) : MessageId × Session :=
  let id := nextId session.lastId
  (id, { session with lastId := id })

def allocateId? (session : Option Session) : Option MessageId × Option Session :=
  match session with
  | none => (none, none)
  | some session =>
    let (id, session) := session.allocateId
    (some id, some session)

end Session

end DeviceConnector
