import DeviceConnector.Proofs.Host.Effect
/-!
# What a frame can do

Handling a body either leaves the host as it is or has one of four effects: a session is
established, renewed or ended, or a pending request is answered. Each takes a message of its own
that the host can read, and this is the only way in which a frame changes a host before its reply is
queued.
-/

namespace DeviceConnector.Host

variable {h : Host} {body : Bytes} {link : Link} {m : Message}

def dismissed (h : Host) (m : Message) : Host :=
  h.registry.entities.foldl (tellBye · m) { h with session := none, attached := none }

def answered (h : Host) (id : MessageId) (callback : Callback) (response : GenericResponse) :
    Host :=
  { h with pending := h.pending.erase id }.runCallback ⟨callback, response⟩

structure Renews (h : Host) (body : Bytes) (session : Session) : Prop where
  held : h.session = some session
  hello : ∃ m, h.Reads body m ∧ m.type = .requestHello ∧
    Session.checkHello m.id m.helloRequest = .ok session.peer

structure Answers (h : Host) (body : Bytes) (id : MessageId) (request : PendingRequest Callback)
    (response : GenericResponse) : Prop where
  message : ∃ m, h.Reads body m ∧ m.type = .genericResponse ∧ m.requestId? = some id ∧
    m.response = some response
  coded : response.code.isSome = true
  waits : h.pending.find? id = some request

inductive Handling (h : Host) (body : Bytes) (link : Link) : Host → Prop where
  | silent : Handling h body link h
  | established (m : Message) (peer : Dsuid) (reads : h.Reads body m)
      (type : m.type = .requestHello)
      (valid : Session.checkHello m.id m.helloRequest = .ok peer) (free : h.session = none) :
      Handling h body link
        { h with session := some { peer }, attached := some link, announcePending := true }
  | renewed (session : Session) (renews : h.Renews body session) :
      Handling h body link { h with attached := some link }
  | ended (m : Message) (session : Session) (carrier : Link) (reads : h.Reads body m)
      (type : m.type = .bye) (names : m.bye.bind EntityRef.target? = some session.peer)
      (held : h.session = some session) (carried : h.attached = some carrier)
      (same : carrier.id = link.id) :
      Handling h body link (h.dismissed m)
  | answered (id : MessageId) (request : PendingRequest Callback) (response : GenericResponse)
      (answers : h.Answers body id request response) :
      Handling h body link (h.answered id request.callback response)

inductive Replies (h : Host) (m : Message) : Message → Prop where
  | welcome (type : m.type = .requestHello) : Replies h m (.welcome h.dsuid m.id)
  | refusal (code : ResultCode) (type : m.type = .requestHello) : Replies h m (.ofCode code m.id)
  | pong (target : Dsuid) (e : Entity) (type : m.type = .ping)
      (names : m.ping.bind EntityRef.target? = some target)
      (found : h.registry.find? target = some e) : Replies h m (.pongOf e.dsuid)
  | farewell (peer : Dsuid) (type : m.type = .bye)
      (names : m.bye.bind EntityRef.target? = some peer) : Replies h m (.ofCode .ok m.id)
  | missing (type : m.type = .remove) : Replies h m (.ofCode .missingData m.id)

theorem receiveHello_cases (h : Host) (m : Message) (link : Link) :
    (h.receiveHello m (some link)).2 = h ∨
    (∃ peer, Session.checkHello m.id m.helloRequest = .ok peer ∧ h.session = none ∧
      (h.receiveHello m (some link)).2 =
        { h with session := some { peer }, attached := some link, announcePending := true }) ∨
    (∃ session, Session.checkHello m.id m.helloRequest = .ok session.peer ∧
      h.session = some session ∧
      (h.receiveHello m (some link)).2 = { h with attached := some link }) := by
  cases check : Session.checkHello m.id m.helloRequest with
  | error outcome =>
    left
    rcases Session.checkHello_error check with rfl | rfl | rfl <;>
      simp [receiveHello, Session.hello, check, HelloOutcome.rejection?]
  | ok peer =>
    cases held : h.session with
    | none =>
      refine Or.inr (Or.inl ⟨peer, rfl, rfl, ?_⟩)
      simp [receiveHello, Session.hello, check, held, HelloOutcome.rejection?]
    | some session =>
      by_cases same : session.peer = peer
      · refine Or.inr (Or.inr ⟨session, by rw [same], rfl, ?_⟩)
        simp [receiveHello, Session.hello, check, held, same, HelloOutcome.rejection?]
      · left
        simp [receiveHello, Session.hello, check, held, same, HelloOutcome.rejection?]

/-- A bye that names the peer of the session, over the link that carries it. -/
structure Dismisses (h : Host) (m : Message) (link : Link) : Prop where
  peer : ∃ session, h.session = some session ∧ m.bye.bind EntityRef.target? = some session.peer
  carried : ∃ carrier, h.attached = some carrier ∧ carrier.id = link.id

theorem receiveBye_of_dismisses (dismisses : h.Dismisses m link) :
    h.receiveBye m (some link) = (some (.ofCode .ok m.id), h.dismissed m) := by
  obtain ⟨⟨session, held, named⟩, ⟨carrier, carried, same⟩⟩ := dismisses
  simp [receiveBye, named, carried, same, Session.bye, held, dismissed]

theorem receiveBye_of_not_dismisses (other : ¬ h.Dismisses m link) :
    h.receiveBye m (some link) = (none, h) := by
  cases named : m.bye.bind EntityRef.target? with
  | none => simp [receiveBye, named]
  | some peer =>
    by_cases here : h.attached.map (·.id) = some link.id
    · cases held : h.session with
      | none => simp [receiveBye, named, here, Session.bye, held]
      | some session =>
        have stranger : ¬ session.peer = peer := by
          rintro rfl
          exact other ⟨⟨session, held, named⟩, Option.map_eq_some_iff.1 here⟩
        simp [receiveBye, named, here, Session.bye, held, stranger]
    · have stray : ∀ carrier, h.attached = some carrier → ¬ carrier.id = link.id := by
        intro carrier carried same
        exact here (by simp [carried, same])
      simp only [receiveBye, named]
      rw [if_pos (by simpa using stray)]

theorem receiveBye_cases (h : Host) (m : Message) (link : Link) :
    (h.receiveBye m (some link)).2 = h ∨
    ∃ session carrier, m.bye.bind EntityRef.target? = some session.peer ∧
      h.session = some session ∧ h.attached = some carrier ∧ carrier.id = link.id ∧
      (h.receiveBye m (some link)).2 = h.dismissed m := by
  by_cases dismisses : h.Dismisses m link
  · have eq := receiveBye_of_dismisses dismisses
    obtain ⟨⟨session, held, named⟩, ⟨carrier, carried, same⟩⟩ := dismisses
    exact Or.inr ⟨session, carrier, named, held, carried, same, by rw [eq]⟩
  · rw [receiveBye_of_not_dismisses dismisses]
    exact Or.inl rfl

theorem receiveResponse_cases (h : Host) (m : Message) :
    (h.receiveResponse m).2 = h ∨
    ∃ id request response, m.requestId? = some id ∧ m.response = some response ∧
      response.code.isSome = true ∧ h.pending.find? id = some request ∧
      (h.receiveResponse m).2 = h.answered id request.callback response := by
  rcases RequestTable.answer_cases h.pending m with
    ⟨id, request, response, responds, carried, waits, eq⟩ | ⟨-, eq⟩
  · have named := RequestTable.requestId?_eq_some.2 ⟨responds.named, responds.nonzero⟩
    obtain ⟨response', carried', coded⟩ := responds.coded
    obtain rfl := Option.some.inj (carried.symm.trans carried')
    refine Or.inr ⟨id, request, response, named, carried, coded, waits, ?_⟩
    simp only [receiveResponse, eq, answered]
  · left
    simp only [receiveResponse, eq]

theorem receive_handling (reads : h.Reads body m) : Handling h body link (h.receive m link).2 := by
  unfold receive
  split
  · rename_i type
    rcases receiveHello_cases h m link with eq | ⟨peer, valid, free, eq⟩ |
      ⟨session, valid, held, eq⟩
    · simp only [eq]; exact .silent
    · simp only [eq]; exact .established m peer reads type valid free
    · simp only [eq]; exact .renewed session ⟨held, m, reads, type, valid⟩
  · exact .silent
  · rename_i type
    rcases receiveBye_cases h m link with eq | ⟨session, carrier, named, held, carried, same, eq⟩
    · simp only [eq]; exact .silent
    · simp only [eq]; exact .ended m session carrier reads type named held carried same
  · exact .silent
  · rename_i type
    rcases receiveResponse_cases h m with eq | ⟨id, request, response, named, payload, coded,
      waits, eq⟩
    · simp only [eq]; exact .silent
    · simp only [eq]
      exact .answered id request response ⟨⟨m, reads, type, named, payload⟩, coded, waits⟩
  · exact .silent

/-- The end of a session by a bye is told to every registered entity, in order. -/
theorem dismissed_eq (h : Host) (m : Message) : ∃ vdcStates,
    h.dismissed m = { h with
      session := none, attached := none, vdcStates
      farewells := h.farewells ++ h.registry.entities.map (·, m) } := by
  unfold dismissed
  have told (entities : List Entity) : ∀ h : Host, ∃ vdcStates,
      entities.foldl (tellBye · m) h =
        { h with vdcStates, farewells := h.farewells ++ entities.map (·, m) } := by
    induction entities with
    | nil =>
      intro h
      refine ⟨h.vdcStates, ?_⟩
      rw [List.foldl_nil, List.map_nil, List.append_nil]
    | cons e entities ih =>
      intro h
      obtain ⟨vdcStates, eq⟩ := ih (h.tellBye m e)
      refine ⟨vdcStates, ?_⟩
      rw [List.foldl_cons, eq, List.map_cons, List.append_cons]
      cases e <;> rfl
  exact told _ _

theorem answered_eq (h : Host) (id : MessageId) (callback : Callback)
    (response : GenericResponse) : ∃ vdcStates answers,
    h.answered id callback response =
      { h with pending := h.pending.erase id, vdcStates, answers } := by
  unfold answered runCallback
  split
  · split <;> exact ⟨_, _, rfl⟩
  · exact ⟨_, _, rfl⟩

/-- What handling a body can change at all. -/
theorem Handling.rest {after : Host} (effect : Handling h body link after) :
    after = { h with
      session := after.session, attached := after.attached, pending := after.pending,
      announcePending := after.announcePending, vdcStates := after.vdcStates,
      farewells := after.farewells, answers := after.answers } := by
  cases effect with
  | silent | established | renewed => rfl
  | ended m =>
    obtain ⟨vdcStates, eq⟩ := dismissed_eq h m
    rw [eq]
  | answered id request response =>
    obtain ⟨vdcStates, answers, eq⟩ := answered_eq h id request.callback response
    rw [eq]

theorem Handling.registry {after : Host} (effect : Handling h body link after) :
    after.registry = h.registry := by
  rw [effect.rest]

/-- A body that is read is handled as the message that it is, and the reply is written. A reply that
cannot be written is empty. -/
theorem handleBody_eq (reads : h.Reads body m) : h.handleBody body link =
    ((h.receive m link).1.map fun reply => (h.codec.encode reply).toOption.getD [],
      (h.receive m link).2) := by
  have nonempty : body.isEmpty = false := by simp [reads.nonempty]
  have fits : ¬ h.config.maxMessageSize < body.length := Nat.not_lt.2 reads.fits
  have codec : (h.receive m link).2.codec = h.codec := by rw [(receive_handling reads).rest]
  unfold handleBody
  rw [if_neg (by simp [nonempty]), if_neg fits, reads.decodes]
  dsimp only
  rcases received : h.receive m link with ⟨_ | reply, after⟩
  · rfl
  · rw [received] at codec
    dsimp only at codec ⊢
    rw [codec]
    cases written : h.codec.encode reply <;> simp [written, Except.toOption]

/-- Any other body is dropped, with an empty reply unless it is empty itself. -/
theorem handleBody_unread (unread : ∀ m, ¬ h.Reads body m) :
    h.handleBody body link = (if body.isEmpty then none else some [], h) := by
  unfold handleBody
  by_cases empty : body.isEmpty = true
  · rw [if_pos empty, if_pos empty]
  rw [if_neg empty, if_neg empty]
  split
  · rfl
  rename_i fits
  cases decodes : h.codec.decode body with
  | error e => rfl
  | ok m => exact absurd ⟨by simpa using empty, Nat.not_lt.1 fits, decodes⟩ (unread m)

theorem handleBody_of_reads (reads : h.Reads body m) :
    (h.handleBody body link).2 = (h.receive m link).2 := by
  rw [handleBody_eq reads]

theorem Answers.handleBody {id : MessageId} {request : PendingRequest Callback}
    {response : GenericResponse} (answers : h.Answers body id request response) :
    (h.handleBody body link).2 = h.answered id request.callback response := by
  obtain ⟨⟨m, reads, type, named, payload⟩, coded, waits⟩ := answers
  rw [handleBody_of_reads reads]
  simp [receive, type, receiveResponse, RequestTable.answer, named, payload, coded, waits, answered]

theorem handleBody_of_not_reads (unread : ∀ m, ¬ h.Reads body m) :
    (h.handleBody body link).2 = h := by
  rw [handleBody_unread unread]

theorem handleBody_handling (h : Host) (body : Bytes) (link : Link) :
    Handling h body link (h.handleBody body link).2 := by
  by_cases read : ∃ m, h.Reads body m
  · obtain ⟨m, reads⟩ := read
    rw [handleBody_of_reads reads]
    exact receive_handling reads
  · rw [handleBody_of_not_reads (fun m reads => read ⟨m, reads⟩)]
    exact .silent

/-- Sending apart, a frame does what its body does, and it may settle announcements that are due. -/
theorem processFrame_sentFrom (h : Host) (body : Bytes) (link : Link) :
    ∃ due, SentFrom { (h.handleBody body link).2 with announcePending := due }
      (h.processFrame body link).2 := by
  unfold processFrame
  rcases h.handleBody body link with ⟨reply, after⟩
  dsimp only
  cases queued : after.queueReply link reply with
  | error e => exact ⟨after.announcePending, SentFrom.refl after⟩
  | ok settled =>
    exact ⟨false, ((queueReply_sentFrom queued).withDue false).trans
      (flushAnnouncements_sentFrom settled)⟩

structure SameWires (h₁ h₂ : Host) : Prop where
  config : h₂.config = h₁.config
  codec : h₂.codec = h₁.codec
  queues : h₂.queues = h₁.queues
  closedQueues : h₂.closedQueues = h₁.closedQueues

theorem SameWires.trans {h₁ h₂ h₃ : Host} (first : SameWires h₁ h₂) (second : SameWires h₂ h₃) :
    SameWires h₁ h₃ where
  config := second.config.trans first.config
  codec := second.codec.trans first.codec
  queues := second.queues.trans first.queues
  closedQueues := second.closedQueues.trans first.closedQueues

theorem SentFrom.sameWires {h₁ h₂ : Host} (sent : SentFrom h₁ h₂) : SameWires h₁ h₂ := by
  rw [sent.rest]
  exact ⟨rfl, rfl, rfl, rfl⟩

def Rewires : Operation → Prop
  | .connect _ | .closeQueue _ => True
  | _ => False

theorem perform_sameWires (h : Host) {op : Operation} (wired : ¬ Rewires op) :
    SameWires h (h.perform op) := by
  cases op with
  | connect | closeQueue => exact absurd trivial wired
  | create | wait => exact ⟨rfl, rfl, rfl, rfl⟩
  | frame link body =>
    obtain ⟨due, sent⟩ := processFrame_sentFrom h body link
    have wires := sent.sameWires
    rw [(handleBody_handling h body link).rest] at wires
    exact ⟨wires.config, wires.codec, wires.queues, wires.closedQueues⟩
  | detach id =>
    rcases detach_cases h id with ⟨eq, -⟩ | ⟨-, eq⟩
    · simp only [perform, eq]
      exact ⟨rfl, rfl, rfl, rfl⟩
    · obtain ⟨vdcStates, same⟩ := disconnectVdcs_eq { h with session := none, attached := none }
      simp only [perform, eq, same]
      exact ⟨rfl, rfl, rfl, rfl⟩
  | addVdc vdc =>
    rcases addVdc_sentFrom h vdc with ⟨-, eq⟩ | ⟨-, -, sent⟩
    · simp only [perform, eq]
      exact ⟨rfl, rfl, rfl, rfl⟩
    · have wires := sent.sameWires
      exact ⟨wires.config, wires.codec, wires.queues, wires.closedQueues⟩
  | addDevice vdc device =>
    simp only [perform]
    rcases addDevice_cases h vdc device with eq | eq | eq
    all_goals rw [eq]; exact ⟨rfl, rfl, rfl, rfl⟩
  | removeDevice vdc dsuid =>
    rcases removeDevice_cases h vdc dsuid with eq | ⟨device, h', registry, -, sent, -, eq⟩
    · simp only [perform, eq]
      exact ⟨rfl, rfl, rfl, rfl⟩
    · have wires := sent.sameWires
      simp only [perform, eq]
      exact ⟨wires.config, wires.codec, wires.queues, wires.closedQueues⟩
  | send m tag => exact (send_sentFrom h m (.application tag)).sameWires
  | notify m =>
    simp only [perform]
    cases sent : h.notify m with
    | error e => exact ⟨rfl, rfl, rfl, rfl⟩
    | ok h' => exact (notify_sentFrom sent).sameWires
  | evict =>
    obtain ⟨pending, eq⟩ := evictExpired_eq h
    simp only [perform, eq]
    exact ⟨rfl, rfl, rfl, rfl⟩

/-- No operation changes the configuration or the codec. -/
theorem perform_setup (h : Host) (op : Operation) :
    (h.perform op).config = h.config ∧ (h.perform op).codec = h.codec := by
  by_cases rewires : Rewires op
  · cases op with
    | connect | closeQueue => exact ⟨rfl, rfl⟩
    | _ => exact rewires.elim
  · have wires := perform_sameWires h rewires
    exact ⟨wires.config, wires.codec⟩

theorem run_setup (h : Host) (operations : List Operation) :
    (h.run operations).config = h.config ∧ (h.run operations).codec = h.codec := by
  induction operations generalizing h with
  | nil => exact ⟨rfl, rfl⟩
  | cons op operations ih =>
    obtain ⟨config, codec⟩ := perform_setup h op
    obtain ⟨config', codec'⟩ := ih (h.perform op)
    exact ⟨config'.trans config, codec'.trans codec⟩

theorem perform_reads (op : Operation) (reads : h.Reads body m) : (h.perform op).Reads body m := by
  obtain ⟨config, codec⟩ := perform_setup h op
  exact ⟨reads.nonempty, config ▸ reads.fits, codec ▸ reads.decodes⟩

theorem run_reads (operations : List Operation) (reads : h.Reads body m) :
    (h.run operations).Reads body m := by
  induction operations generalizing h with
  | nil => exact reads
  | cons op operations ih => exact ih (perform_reads op reads)

theorem receiveHello_reply (h : Host) (m : Message) (via : Option Link) :
    (h.receiveHello m via).1 = .welcome h.dsuid m.id ∨
    ∃ code, (h.receiveHello m via).1 = .ofCode code m.id := by
  unfold receiveHello
  rcases Session.hello h.session m.id m.helloRequest with ⟨outcome, session⟩
  cases outcome with
  | established | renewed => exact Or.inl rfl
  | missingData | incompatibleApi | invalidPeer | busy => exact Or.inr ⟨_, rfl⟩

theorem replies_of_receive {reply : Message} (replied : (h.receive m link).1 = some reply) :
    h.Replies m reply := by
  unfold receive at replied
  split at replied
  · rename_i type
    obtain rfl := Option.some.inj replied
    rcases receiveHello_reply h m (some link) with eq | ⟨code, eq⟩
    · exact eq ▸ .welcome type
    · exact eq ▸ .refusal code type
  · rename_i type
    obtain ⟨target, names, answered⟩ := Option.bind_eq_some_iff.1 replied
    obtain ⟨e, found, ponged⟩ := Option.bind_eq_some_iff.1 answered
    obtain ⟨ping, -, rfl⟩ := Option.map_eq_some_iff.1 ponged
    exact .pong target e type names found
  · rename_i type
    by_cases dismisses : h.Dismisses m link
    · rw [receiveBye_of_dismisses dismisses] at replied
      obtain rfl := Option.some.inj replied
      obtain ⟨⟨session, -, names⟩, -⟩ := dismisses
      exact .farewell session.peer type names
    · rw [receiveBye_of_not_dismisses dismisses] at replied
      cases replied
  · rename_i type
    unfold receiveRemove at replied
    split at replied
    · obtain rfl := Option.some.inj replied
      exact .missing type
    · cases replied
  · cases replied
  · cases replied

theorem reply_eq_of_reads (json : h.codec = .json) (reads : h.Reads body m) :
    (h.handleBody body link).1 = (h.receive m link).1.map Message.encode := by
  rw [handleBody_eq reads, json]
  rfl

/-- The reply to a body is empty or the answer to the message that it is. -/
theorem reply_cases {reply : Bytes} (replied : (h.handleBody body link).1 = some reply) :
    reply = [] ∨ ∃ m answer, h.Reads body m ∧ h.Replies m answer ∧
      h.codec.encode answer = .ok reply := by
  by_cases read : ∃ m, h.Reads body m
  · obtain ⟨m, reads⟩ := read
    rw [handleBody_eq reads] at replied
    obtain ⟨answer, received, rfl⟩ := Option.map_eq_some_iff.1 replied
    cases written : h.codec.encode answer with
    | error e => exact Or.inl rfl
    | ok encoded => exact Or.inr ⟨m, answer, reads, replies_of_receive received, written⟩
  · rw [handleBody_unread fun m reads => read ⟨m, reads⟩] at replied
    left
    split at replied
    · cases replied
    · exact (Option.some.inj replied).symm

end DeviceConnector.Host
