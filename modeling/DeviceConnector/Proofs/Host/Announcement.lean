import DeviceConnector.Proofs.Host.Roster
import DeviceConnector.Proofs.Host.SessionLink
import DeviceConnector.Proofs.Message.Size
import DeviceConnector.Proofs.Session
/-!
# Announcements

A session is told of every accepted vDC once: of those there are when it begins, and of each that is
accepted later at that moment. The announcements bear the ids of the session in order. So the number
of announcements of an identifier is one or none, unless an accepted vDC has been withdrawn.
-/

namespace DeviceConnector

def BodyCodec.announcement? (codec : BodyCodec) (body : Bytes) : Option Message :=
  match codec.decode body with
  | .ok m => if m.type = .announceVdc then some m else none
  | .error _ => none

def Message.announces (m : Message) (dsuid : Dsuid) : Bool :=
  m.announce.bind EntityRef.target? = some dsuid

namespace BodyCodec

end BodyCodec

theorem Message.announces_announceOf {vdc dsuid : Dsuid} {id : MessageId}
    (derived : vdc.kind = .uuid) :
    (announceOf vdc id).announces dsuid = decide (vdc = dsuid) := by
  have own : Dsuid.ofUuid vdc.uuid = vdc := by
    cases vdc
    cases derived
    rfl
  have target : (EntityRef.ofDsuid vdc).target? = some vdc := by
    rw [EntityRef.ofDsuid, EntityRef.target?, Option.bind_some, vdc.parse?_text, own]
  simp [announces, announceOf, target]

namespace Host

variable {h : Host} {session : Session} {link : Link} {vdc : Vdc}

structure Ready (h : Host) (session : Session) (link : Link) : Prop where
  held : h.session = some session
  carried : h.attached = some link
  codec : h.codec = .json
  large : 256 ≤ h.config.maxMessageSize
  opened : h.isClosed link = false

/-- The announcements of vDCs, when so many have been made before in the session. -/
def announced (count : Nat) (vdcs : List Vdc) : List Message :=
  vdcs.mapIdx fun k vdc => .announceOf vdc.dsuid (Session.idAt (count + k + 1))

def announcing (link : Link) (count : Nat) (vdcs : List Vdc) : List Queued :=
  (announced count vdcs).map fun m => ⟨link, m.encode⟩

theorem announced_append (count : Nat) (vdcs later : List Vdc) :
    announced count (vdcs ++ later) =
      announced count vdcs ++ announced (count + vdcs.length) later := by
  have shift (k : Nat) : count + (k + vdcs.length) = count + vdcs.length + k := by omega
  simp only [announced, List.mapIdx_append, shift]

theorem countP_announced {count : Nat} {vdcs : List Vdc}
    (derived : ∀ vdc ∈ vdcs, vdc.dsuid.kind = .uuid) (dsuid : Dsuid) :
    (announced count vdcs).countP (·.announces dsuid) = (vdcs.map (·.dsuid)).count dsuid := by
  induction vdcs generalizing count with
  | nil => rfl
  | cons vdc vdcs ih =>
    have one : announced count (vdc :: vdcs) =
        .announceOf vdc.dsuid (Session.idAt (count + 1)) :: announced (count + 1) vdcs :=
      announced_append count [vdc] vdcs
    have rest : (announced (count + 1) vdcs).countP (·.announces dsuid) =
        (vdcs.map (·.dsuid)).count dsuid :=
      ih fun other mem => derived other (List.mem_cons_of_mem _ mem)
    have own := derived vdc (List.mem_cons_self ..)
    rw [one, List.countP_cons, rest, List.map_cons, List.count_cons,
      Message.announces_announceOf own]
    rfl

def told (h : Host) (peer : Dsuid) (link : Link) (count : Nat) (vdcs : List Vdc)
    (pending : RequestTable Callback) : Host :=
  { h with
    session := some { peer, lastId := Session.idAt (count + vdcs.length) }
    pending
    outbox := h.outbox ++ announcing link count vdcs }

def offered (h : Host) (vdcs : List Vdc) : List Vdc :=
  vdcs.filter fun vdc => (h.vdcState vdc.object).attached

theorem Ready.send {m : Message} {id : MessageId} (ready : h.Ready session link)
    (callback : Callback) (named : m.requestId? = some id) (complete : m.isComplete = true)
    (fits : m.encode.length ≤ 256) :
    (h.send m callback).2 = { h with
      pending := h.pending.insert id ⟨callback, h.clock⟩
      outbox := h.outbox ++ [⟨link, m.encode⟩] } := by
  obtain ⟨held, carried, codec, large, opened⟩ := ready
  have connected : h.isConnected = true := by simp [isConnected, held, carried]
  have sent : h.transmit m = .ok { h with outbox := h.outbox ++ [⟨link, m.encode⟩] } := by
    have small : m.encode.length ≤ h.config.maxMessageSize := Nat.le_trans fits large
    simp [transmit, carried, codec, BodyCodec.json, small, queue, opened]
  simp [Host.send, RequestTable.send, carrier, connected, named, complete, sent]

theorem announce_ready {count : Nat} (ready : h.Ready session link)
    (handed : session.lastId = Session.idAt count)
    (attached : (h.vdcState vdc.object).attached = true) :
    ∃ pending, (h.announce vdc).2 = h.told session.peer link count [vdc] pending := by
  have allocated : h.allocateId = (.ok (Session.idAt (count + 1)),
      { h with session := some { session with lastId := Session.idAt (count + 1) } }) := by
    simp [allocateId, Session.allocateId?, Session.allocateId, ready.held, handed, Session.idAt]
  have named : (Message.announceOf vdc.dsuid (Session.idAt (count + 1))).requestId? =
      some (Session.idAt (count + 1)) := by
    simp [Message.announceOf, Message.requestId?, Session.idAt_ne_zero]
  have complete : (Message.announceOf vdc.dsuid (Session.idAt (count + 1))).isComplete = true := by
    have id :
        (Message.announceOf vdc.dsuid (Session.idAt (count + 1))).requestId?.isSome = true := by
      rw [named]
      rfl
    rw [Message.isComplete]
    simp only [Message.announceOf] at id ⊢
    rw [id]
    rfl
  have fits := Message.length_encode_announceOf vdc.dsuid (Session.idAt (count + 1))
  have later : { h with session := some { session with
      lastId := Session.idAt (count + 1) } }.Ready { session with
        lastId := Session.idAt (count + 1) } link :=
    ⟨rfl, ready.carried, ready.codec, ready.large, ready.opened⟩
  rw [announce, if_pos attached, allocated]
  exact ⟨_, later.send (.announcement vdc.object) named complete (by omega)⟩

theorem announce_detached (detached : (h.vdcState vdc.object).attached = false) :
    (h.announce vdc).2 = h := by
  simp [announce, detached]

theorem told_append (h : Host) (peer : Dsuid) (link : Link) (count : Nat) (vdcs later : List Vdc)
    (pending pending' : RequestTable Callback) :
    (h.told peer link count vdcs pending).told peer link (count + vdcs.length) later pending' =
      h.told peer link count (vdcs ++ later) pending' := by
  simp [told, announcing, announced_append, Nat.add_assoc]

/-- Of vDCs that are announced one after the other the attached ones are, in order. -/
theorem announceAll_ready {count : Nat} (vdcs : List Vdc) (ready : h.Ready session link)
    (handed : session.lastId = Session.idAt count) :
    ∃ pending, (h.announceAll vdcs).2 =
      h.told session.peer link count (h.offered vdcs) pending := by
  induction vdcs generalizing h session count with
  | nil =>
    refine ⟨h.pending, ?_⟩
    simp [announceAll, offered, told, announcing, announced, ← handed, ← ready.held]
  | cons vdc vdcs ih =>
    have step : (h.announceAll (vdc :: vdcs)).2 = ((h.announce vdc).2.announceAll vdcs).2 := rfl
    rw [step]
    cases attached : (h.vdcState vdc.object).attached with
    | false =>
      have offered : h.offered (vdc :: vdcs) = h.offered vdcs :=
        List.filter_cons_of_neg (by simp [attached])
      rw [announce_detached attached, offered]
      exact ih ready handed
    | true =>
      obtain ⟨pending, announced⟩ := announce_ready ready handed attached
      have later : (h.told session.peer link count [vdc] pending).Ready
          { session with lastId := Session.idAt (count + 1) } link :=
        ⟨rfl, ready.carried, ready.codec, ready.large, ready.opened⟩
      obtain ⟨pending', eq⟩ := ih later rfl
      have offered : h.offered (vdc :: vdcs) = [vdc] ++ h.offered vdcs :=
        List.filter_cons_of_pos attached
      refine ⟨pending', ?_⟩
      rw [announced, eq, offered]
      exact told_append h session.peer link count [vdc] (h.offered vdcs) pending pending'

def Silent (bodies : List Queued) : Prop :=
  ∀ queued ∈ bodies, BodyCodec.json.announcement? queued.body = none

theorem Replies.type {m reply : Message} (replies : h.Replies m reply) :
    reply.type = .responseHello ∨ reply.type = .genericResponse ∨ reply.type = .pong := by
  cases replies with
  | welcome => exact Or.inl rfl
  | pong => exact Or.inr (Or.inr rfl)
  | refusal | farewell | missing => exact Or.inr (Or.inl rfl)

theorem flushAnnouncements_idle (idle : h.announcePending = false) :
    h.flushAnnouncements.2 = h := by
  simp [flushAnnouncements, idle]

theorem flushAnnouncements_due (due : h.announcePending = true) :
    h.flushAnnouncements.2 =
      ({ h with announcePending := false }.announceAll h.registry.vdcs).2 := by
  simp [flushAnnouncements, announceVdcs, due]

/-- Within a session a body leaves the announcements as they are due, and the session or none. -/
theorem Handling.within {body : Bytes} {after : Host} (effect : Handling h body link after)
    (held : h.session = some session) : after.announcePending = h.announcePending ∧
      (after.session = some session ∨ after.session = none) := by
  cases effect with
  | silent | renewed => exact ⟨rfl, Or.inl held⟩
  | established m peer reads type valid free => simp [held] at free
  | ended m =>
    obtain ⟨vdcStates, eq⟩ := dismissed_eq h m
    rw [eq]
    exact ⟨rfl, Or.inr rfl⟩
  | answered id request response =>
    obtain ⟨vdcStates, answers, eq⟩ := answered_eq h id request.callback response
    rw [eq]
    exact ⟨rfl, Or.inl held⟩

/-- A vDC that is added within a session announces itself. -/
theorem perform_addVdc_within {count : Nat} (ready : h.Ready session link)
    (handed : session.lastId = Session.idAt count)
    (free : h.registry.contains vdc.dsuid = false) :
    ∃ pending, h.perform (.addVdc vdc) =
      (h.admitted vdc).told session.peer link count [vdc] pending := by
  have connected : h.isConnected = true := by simp [isConnected, ready.held, ready.carried]
  have admitted : (h.admitted vdc).Ready session link :=
    ⟨ready.held, ready.carried, ready.codec, ready.large, ready.opened⟩
  have attached : ((h.admitted vdc).vdcState vdc.object).attached = true := by
    rw [vdcState_admitted, if_pos rfl]
  obtain ⟨pending, announced⟩ := announce_ready admitted handed attached
  refine ⟨pending, ?_⟩
  rw [perform, addVdc_eq, if_neg (by simp [free]), if_pos connected]
  exact announced

end Host

end DeviceConnector
