import DeviceConnector.Proofs.Host.Addressing
import DeviceConnector.Proofs.Host.Isolation
import DeviceConnector.Proofs.Message.RoundTrip
/-!
# What is replied

Whatever has been done to a host through its interface, its registry holds entities under their own
identifiers. From this it follows for every body which reply it gets, if any, what the reply says,
and that three kinds of messages apart nothing changes.
-/

namespace DeviceConnector.Host

variable {h h₁ h₂ : Host} {body reply : Bytes} {link : Link} {m answer : Message}

/-- What can be done to a host from outside: the operations as a whole, the steps of handling a
frame one by one, and what its parts offer. Its vDCs and pending requests can be given any other
state, so it does not matter what else uses them. -/
inductive Access (h : Host) : Host → Prop where
  | operation (op : Operation) : Access h (h.perform op)
  | handled (body : Bytes) (link : Link) : Access h (h.handleBody body link).2
  | hello (m : Message) (via : Option Link) : Access h (h.receiveHello m via).2
  | bye (m : Message) (via : Option Link) : Access h (h.receiveBye m via).2
  | response (m : Message) : Access h (h.receiveResponse m).2
  | flushed : Access h h.flushAnnouncements.2
  | announcedAll : Access h h.announceVdcs.2
  | announced (vdc : Vdc) : Access h (h.announce vdc).2
  | vanished (vdc : Vdc) (dsuid : Dsuid) : Access h (h.vanish vdc dsuid).2
  | allocated : Access h h.allocateId.2
  | vdcState (object : ObjectId) (change : VdcState → VdcState) :
      Access h (h.updateVdc object change)
  | pending (pending : RequestTable Callback) : Access h { h with pending }
  | registered (e : Entity) : Access h { h with registry := (h.registry.register e).2 }
  | registeredVdc (vdc : Vdc) : Access h (h.registerVdc vdc).2
  | unregistered (dsuid : Dsuid) : Access h { h with registry := h.registry.erase dsuid }
  | removed (dsuid : Dsuid) (e : Entity) :
      Access h { h with registry := (h.registry.removeIfSame dsuid e).2 }

inductive Reachable : Host → Prop where
  | new (config : HostConfig) : Reachable (Host.new config)
  | access {h h' : Host} : Reachable h → Access h h' → Reachable h'

structure Keeps (h₁ h₂ : Host) : Prop where
  codec : h₂.codec = h₁.codec
  entry : ∀ dsuid e, h₂.registry.find? dsuid = some e →
    h₁.registry.find? dsuid = some e ∨ e.dsuid = dsuid

theorem Keeps.of_eq (codec : h₂.codec = h₁.codec) (registry : h₂.registry = h₁.registry) :
    Keeps h₁ h₂ where
  codec := codec
  entry _ _ there := Or.inl (registry ▸ there)

theorem Keeps.of_foldl_add (entities : List Entity) (codec : h₂.codec = h₁.codec)
    (registry : h₂.registry = entities.foldl Registry.add h₁.registry) : Keeps h₁ h₂ where
  codec := codec
  entry dsuid e there := by
    rw [registry] at there
    exact (Registry.find?_foldl_add there).imp id And.right

theorem SentFrom.keeps (sent : SentFrom h₁ h₂) : Keeps h₁ h₂ :=
  .of_eq sent.sameWires.codec sent.registry

theorem receiveHello_eq (h : Host) (m : Message) (via : Option Link) :
    ∃ session attached announcePending,
      (h.receiveHello m via).2 = { h with session, attached, announcePending } := by
  unfold receiveHello
  rcases Session.hello h.session m.id m.helloRequest with ⟨outcome, session⟩
  cases outcome with
  | established | renewed => exact ⟨_, _, _, rfl⟩
  | missingData | incompatibleApi | invalidPeer | busy => exact ⟨_, _, _, rfl⟩

theorem receiveBye_eq (h : Host) (m : Message) (via : Option Link) :
    (h.receiveBye m via).2 = h ∨ (h.receiveBye m via).2 = h.dismissed m := by
  unfold receiveBye
  split
  · exact Or.inl rfl
  · split
    · exact Or.inl rfl
    · rename_i peer _ _
      cases held : h.session with
      | none => exact Or.inl rfl
      | some session =>
        by_cases same : session.peer = peer
        · simp [Session.bye, same, dismissed]
        · simp [Session.bye, same]

theorem perform_keeps (h : Host) (op : Operation) : Keeps h (h.perform op) := by
  have codec := (perform_setup h op).2
  by_cases enlists : Enlists op
  · cases op with
    | create => exact .of_eq codec rfl
    | addVdc vdc =>
      have registry := registry_addVdc h vdc
      split at registry
      · exact .of_foldl_add _ codec registry
      · exact .of_eq codec registry
    | addDevice vdc device =>
      have registry := registry_addDevice h vdc device
      split at registry
      · exact .of_foldl_add _ codec registry
      · exact .of_eq codec registry
    | removeDevice vdc dsuid =>
      rcases registry_removeDevice h vdc dsuid with same | ⟨device, -, -, removed⟩
      · exact .of_eq codec same
      · refine ⟨codec, fun other e there => Or.inl ?_⟩
        rw [perform, removed] at there
        exact (Registry.find?_removeIfSame.1 there).1
    | _ => exact enlists.elim
  · exact .of_eq codec (perform_sameRoster h enlists).registry

theorem Access.keeps (access : Access h₁ h₂) : Keeps h₁ h₂ := by
  cases access with
  | operation op => exact perform_keeps h₁ op
  | handled body link =>
    have rest := (handleBody_handling h₁ body link).rest
    exact .of_eq (by rw [rest]) (by rw [rest])
  | hello m via =>
    obtain ⟨session, attached, announcePending, eq⟩ := receiveHello_eq h₁ m via
    exact .of_eq (by rw [eq]) (by rw [eq])
  | bye m via =>
    obtain ⟨vdcStates, dismissed⟩ := dismissed_eq h₁ m
    rcases receiveBye_eq h₁ m via with eq | eq
    · exact .of_eq (by rw [eq]) (by rw [eq])
    · exact .of_eq (by rw [eq, dismissed]) (by rw [eq, dismissed])
  | response m =>
    rcases receiveResponse_cases h₁ m with eq | ⟨id, request, response, -, -, -, -, eq⟩
    · exact .of_eq (by rw [eq]) (by rw [eq])
    · obtain ⟨vdcStates, answers, answered⟩ := answered_eq h₁ id request.callback response
      exact .of_eq (by rw [eq, answered]) (by rw [eq, answered])
  | flushed =>
    have kept := (flushAnnouncements_sentFrom h₁).keeps
    exact ⟨kept.codec, kept.entry⟩
  | announcedAll => exact (announceAll_sentFrom h₁ h₁.registry.vdcs).keeps
  | announced vdc => exact (announce_sentFrom h₁ vdc).keeps
  | vanished vdc dsuid => exact (vanish_sentFrom h₁ vdc dsuid).keeps
  | allocated => exact (allocateId_sentFrom h₁).keeps
  | vdcState | pending => exact .of_eq rfl rfl
  | registered e => exact .of_foldl_add [e] rfl rfl
  | registeredVdc vdc =>
    by_cases taken : h₁.registry.contains vdc.dsuid = true
    · exact .of_eq rfl (by simp [registerVdc, Registry.registerVdc, taken])
    · refine .of_foldl_add (.vdc vdc :: h₁.devices vdc) rfl ?_
      simp [registerVdc, Registry.registerVdc, taken]
  | unregistered dsuid =>
    exact ⟨rfl, fun other e there => Or.inl (Table.find?_erase there).2⟩
  | removed dsuid e =>
    exact ⟨rfl, fun other found there => Or.inl (Registry.find?_removeIfSame.1 there).1⟩

structure Sound (h : Host) : Prop where
  codec : h.codec = .json
  own : ∀ dsuid e, h.registry.find? dsuid = some e → e.dsuid = dsuid

theorem Sound.reads (sound : Sound h) (fits : body.length ≤ h.config.maxMessageSize)
    (decodes : Message.decode body = .ok m) : h.Reads body m where
  nonempty := by
    rintro rfl
    cases decodes
  fits := fits
  decodes := by
    rw [sound.codec]
    exact decodes

theorem Sound.keeps (sound : Sound h₁) (keeps : Keeps h₁ h₂) : Sound h₂ where
  codec := keeps.codec.trans sound.codec
  own dsuid e there := (keeps.entry dsuid e there).elim (sound.own dsuid e) id

theorem Reachable.sound (reachable : Reachable h) : Sound h := by
  induction reachable with
  | new config =>
    refine ⟨rfl, fun dsuid e there => ?_⟩
    obtain ⟨rfl, rfl⟩ := find?_new.1 there
    rfl
  | access _ access sound => exact sound.keeps access.keeps

/-- A hello under an id that names a peer and a version which is spoken, while nobody else holds the
session. -/
structure Welcomes (h : Host) (m : Message) : Prop where
  hello : m.type = .requestHello
  named : m.id.isSome = true
  peer : ∃ text version peer, m.helloRequest = some ⟨some text, some version⟩ ∧
    version ≤ Session.supportedApiVersion ∧ Dsuid.parse? text = some peer ∧
    ∀ session, h.session = some session → session.peer = peer

structure Awaits (h : Host) (m : Message) : Prop where
  generic : m.type = .genericResponse
  waits : ∃ id response request, m.requestId? = some id ∧ m.response = some response ∧
    response.code.isSome = true ∧ h.pending.find? id = some request

/-- The messages that can change a host: hellos that are accepted, byes that end the session, and
responses that are waited for. -/
inductive Moves (h : Host) (m : Message) (link : Link) : Prop where
  | hello (welcomes : h.Welcomes m)
  | bye (type : m.type = .bye) (dismisses : h.Dismisses m link)
  | response (awaits : h.Awaits m)

inductive Serves (h : Host) (m : Message) (link : Link) : Prop where
  | hello (type : m.type = .requestHello)
  | ping (target : Dsuid) (e : Entity) (type : m.type = .ping)
      (names : m.ping.bind EntityRef.target? = some target)
      (found : h.registry.find? target = some e)
  | bye (type : m.type = .bye) (dismisses : h.Dismisses m link)
  | remove (type : m.type = .remove) (unnamed : m.remove.bind EntityRef.target? = none)

theorem receivePing_isSome_iff : (h.receivePing m).isSome = true ↔
    ∃ target e, m.ping.bind EntityRef.target? = some target ∧
      h.registry.find? target = some e := by
  constructor
  · intro replied
    obtain ⟨pong, replied⟩ := Option.isSome_iff_exists.1 replied
    obtain ⟨target, names, answered⟩ := Option.bind_eq_some_iff.1 replied
    obtain ⟨e, found, -⟩ := Option.bind_eq_some_iff.1 answered
    exact ⟨target, e, names, found⟩
  · rintro ⟨target, e, names, found⟩
    rw [Site.receivePing_of_found names found]
    rfl

theorem receiveRemove_isSome_iff : (receiveRemove m).isSome = true ↔
    m.remove.bind EntityRef.target? = none := by
  unfold receiveRemove
  split
  · rename_i unnamed
    simp [unnamed]
  · rename_i target names
    simp [names]

theorem receive_isSome_iff (h : Host) (m : Message) (link : Link) :
    (h.receive m link).1.isSome = true ↔ h.Serves m link := by
  constructor
  · intro replied
    unfold receive at replied
    split at replied
    · rename_i type
      exact .hello type
    · rename_i type
      obtain ⟨target, e, names, found⟩ := receivePing_isSome_iff.1 replied
      exact .ping target e type names found
    · rename_i type
      by_cases dismisses : h.Dismisses m link
      · exact .bye type dismisses
      · rw [receiveBye_of_not_dismisses dismisses] at replied
        cases replied
    · rename_i type
      exact .remove type (receiveRemove_isSome_iff.1 replied)
    · cases replied
    · cases replied
  · intro serves
    cases serves with
    | hello type => simp [receive, type]
    | ping target e type names found =>
      simpa [receive, type] using receivePing_isSome_iff.2 ⟨target, e, names, found⟩
    | bye type dismisses => simp [receive, type, receiveBye_of_dismisses dismisses]
    | remove type unnamed => simpa [receive, type] using receiveRemove_isSome_iff.2 unnamed

structure AnswerTo (m answer : Message) : Prop where
  complete : answer.isComplete = true
  pong_iff : answer.type = .pong ↔ m.type = .ping
  id : answer.id = if answer.type = .pong then none else m.id
  names : answer.type = .pong → ∃ target, m.ping.bind EntityRef.target? = some target ∧
    answer.pong = some ⟨some target.text⟩

theorem Replies.answerTo (sound : Sound h) (replies : h.Replies m answer) :
    AnswerTo m answer ∧ answer.type.isKnown = true := by
  cases replies with
  | welcome type | refusal code type | farewell peer type | missing type =>
    refine ⟨⟨rfl, ?_, rfl, ?_⟩, rfl⟩
    · rw [type]
      exact iff_of_false (by intro pong; cases pong) (by intro ping; cases ping)
    · intro pong
      cases pong
  | pong target e type names found =>
    refine ⟨⟨rfl, iff_of_true rfl type, rfl, fun _ => ⟨target, names, ?_⟩⟩, rfl⟩
    rw [← sound.own target e found]
    rfl

theorem Handling.unchanged {after : Host} (effect : Handling h body link after)
    (quiet : ∀ m, h.Reads body m → ¬ h.Moves m link) :
    after = h := by
  cases effect with
  | silent => rfl
  | established m peer reads type valid free =>
    obtain ⟨named, text, version, request, spoken, parsed⟩ := Session.checkHello_eq_ok_iff.1 valid
    have accepted : h.Welcomes m := by
      refine ⟨type, named, text, version, peer, request, spoken, parsed, ?_⟩
      intro session held
      cases free.symm.trans held
    exact absurd (.hello accepted) (quiet m reads)
  | renewed session renews =>
    obtain ⟨held, m, reads, type, valid⟩ := renews
    obtain ⟨named, text, version, request, spoken, parsed⟩ := Session.checkHello_eq_ok_iff.1 valid
    have accepted : h.Welcomes m := by
      refine ⟨type, named, text, version, session.peer, request, spoken, parsed, ?_⟩
      intro current same
      rw [Option.some.inj (held.symm.trans same)]
    exact absurd (.hello accepted) (quiet m reads)
  | ended m session carrier reads type names held carried same =>
    have dismisses : h.Dismisses m link := ⟨⟨session, held, names⟩, ⟨carrier, carried, same⟩⟩
    exact absurd (.bye type dismisses) (quiet m reads)
  | answered id request response answers =>
    obtain ⟨⟨m, reads, type, named, payload⟩, coded, waits⟩ := answers
    have awaited : h.Awaits m := ⟨type, id, response, request, named, payload, coded, waits⟩
    exact absurd (.response awaited) (quiet m reads)

theorem Sound.unread (sound : Sound h) (unreadable : h.config.maxMessageSize < body.length ∨
    ∃ e, Message.decode body = .error e) (m : Message) : ¬ h.Reads body m := by
  intro reads
  rcases unreadable with large | ⟨e, undecoded⟩
  · exact Nat.not_le.2 large reads.fits
  · have decodes := reads.decodes
    rw [sound.codec] at decodes
    cases undecoded.symm.trans decodes

/-- The reply to a body that is read is never empty, and is the answer to its message. -/
theorem reply_of_sound (sound : Sound h) (reads : h.Reads body m)
    (replied : (h.handleBody body link).1 = some reply) :
    reply ≠ [] ∧ ∃ answer, Message.decode reply = .ok answer ∧ AnswerTo m answer := by
  rw [reply_eq_of_reads sound.codec reads] at replied
  obtain ⟨answer, received, rfl⟩ := Option.map_eq_some_iff.1 replied
  obtain ⟨answers, known⟩ := (replies_of_receive received).answerTo sound
  exact ⟨answer.encode_ne_nil, answer, Message.decode_encode_of_known known, answers⟩

theorem reply_eq_nil_iff (sound : Sound h) : (h.handleBody body link).1 = some [] ↔
    body ≠ [] ∧ (h.config.maxMessageSize < body.length ∨
      ∃ e, Message.decode body = .error e) := by
  constructor
  · intro replied
    have nonempty : body ≠ [] := by
      rintro rfl
      cases replied
    refine ⟨nonempty, ?_⟩
    by_cases large : h.config.maxMessageSize < body.length
    · exact Or.inl large
    · cases decodes : Message.decode body with
      | error e => exact Or.inr ⟨e, rfl⟩
      | ok m =>
        have reads := sound.reads (Nat.not_lt.1 large) decodes
        exact absurd rfl (reply_of_sound sound reads replied).1
  · rintro ⟨nonempty, unreadable⟩
    rw [handleBody_unread (sound.unread unreadable), if_neg (by simpa using nonempty)]

/-- An empty body has no reply, and one that is too long or cannot be decoded has an empty one. Any
other body is replied to exactly if its message is a hello, names a registered entity in a ping,
ends the session or names nothing to be removed. The reply is a complete message under the same id,
or a pong without an id that names the entity in canonical text. Nothing changes but by a hello that
is accepted, a bye that ends the session and a response that is waited for. -/
theorem reply_contract (reachable : Reachable h) (body : Bytes) (link : Link) :
    (body = [] → (h.handleBody body link).1 = none) ∧
    ((h.handleBody body link).1 = some [] ↔ body ≠ [] ∧
      (h.config.maxMessageSize < body.length ∨ ∃ e, BodyCodec.json.decode body = .error e)) ∧
    (h.config.maxMessageSize < body.length ∨ (∃ e, BodyCodec.json.decode body = .error e) →
      (h.handleBody body link).2 = h) ∧
    ∀ m, body.length ≤ h.config.maxMessageSize → BodyCodec.json.decode body = .ok m →
      ((h.handleBody body link).1.isSome = true ↔ h.Serves m link) ∧
      (∀ reply, (h.handleBody body link).1 = some reply →
        ∃ answer, BodyCodec.json.decode reply = .ok answer ∧ AnswerTo m answer) ∧
      (¬ h.Moves m link → (h.handleBody body link).2 = h) := by
  have sound := reachable.sound
  refine ⟨?_, reply_eq_nil_iff sound, ?_, ?_⟩
  · rintro rfl
    rfl
  · intro unreadable
    apply handleBody_of_not_reads
    intro m reads
    rcases unreadable with large | ⟨e, undecoded⟩
    · exact absurd reads.fits (Nat.not_le.2 large)
    · have decodes := reads.decodes
      rw [sound.codec, undecoded] at decodes
      cases decodes
  · intro m fits decodes
    have reads := sound.reads fits decodes
    refine ⟨?_, fun reply replied => (reply_of_sound sound reads replied).2, fun quiet => ?_⟩
    · rw [reply_eq_of_reads sound.codec reads, Option.isSome_map]
      exact receive_isSome_iff h m link
    · refine (handleBody_handling h body link).unchanged fun other again => ?_
      obtain rfl := reads.unique again
      exact quiet

def spelledPing : Message :=
  { type := .ping, id := some 9, ping := some ⟨some "\u20036123a881016010000000f2ca0deb3707FF"⟩ }

/-- The pong has no id and names the host in canonical text, and nothing changes. -/
theorem reply_contract_spelled_ping :
    ∃ answer reply, (((Host.new {}).perform (.connect 7)).handleBody spelledPing.encode ⟨7, 0⟩) =
      (some reply, (Host.new {}).perform (.connect 7)) ∧
      BodyCodec.json.decode reply = .ok answer ∧ answer.id = none ∧
      answer.pong = some ⟨some "6123A881016010000000F2CA0DEB370700"⟩ := by
  have reachable : Reachable ((Host.new {}).perform (.connect 7)) :=
    .access (.new {}) (.operation (.connect 7))
  obtain ⟨-, -, -, read⟩ := reply_contract reachable spelledPing.encode ⟨7, 0⟩
  have heard : Message.decode spelledPing.encode = .ok spelledPing :=
    Message.decode_encode_of_known rfl
  obtain ⟨served, answered, unchanged⟩ := read spelledPing (by decide +kernel) heard
  have names : spelledPing.ping.bind EntityRef.target? = some Dsuid.defaultHost := by
    decide +kernel
  have serves : ((Host.new {}).perform (.connect 7)).Serves spelledPing ⟨7, 0⟩ :=
    .ping Dsuid.defaultHost (.host 0 Dsuid.defaultHost "default-vDC-Host") rfl names rfl
  obtain ⟨reply, replied⟩ := Option.isSome_iff_exists.1 (served.2 serves)
  obtain ⟨answer, decodes, answers⟩ := answered reply replied
  have pong := answers.pong_iff.2 rfl
  obtain ⟨target, named, text⟩ := answers.names pong
  obtain rfl := Option.some.inj (names.symm.trans named)
  refine ⟨answer, reply, Prod.ext replied (unchanged ?_), decodes, ?_, ?_⟩
  · rintro (welcomes | ⟨bye, -⟩ | awaits)
    · cases welcomes.hello
    · cases bye
    · cases awaits.generic
  · rw [answers.id, if_pos pong]
  · rw [text]
    decide +kernel

end DeviceConnector.Host
