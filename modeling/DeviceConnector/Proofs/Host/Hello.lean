import DeviceConnector.Proofs.Host.Handling
/-!
# What a hello does

A hello is looked at four times: whether it is complete, whether its version is spoken, whether its
peer can be read and whether somebody else holds the session. The first fault decides the answer and
nothing changes. Without a fault the peer holds the session over the link the hello came over, with
the count that it had before or, in a new session, from the beginning.
-/

namespace DeviceConnector

namespace Host

structure Introduces (m : Message) (text : String) (version : Option UInt32) : Prop where
  named : m.id.isSome = true
  payload : m.helloRequest = some ⟨some text, version⟩

/-- The faults of a hello with their codes. Each is looked for only where the ones before are
absent. -/
inductive Refuses (h : Host) (m : Message) : ResultCode → Prop where
  | missingData (lacks : m.helloRequest = none ∨ m.id = none ∨
      ∃ version, m.helloRequest = some ⟨none, version⟩) : Refuses h m .missingData
  | incompatibleApi (text : String) (version : Option UInt32)
      (introduces : Introduces m text version)
      (unspoken : ∀ number, version = some number → 3 < number) : Refuses h m .incompatibleApi
  | invalidPeer (text : String) (number : UInt32) (introduces : Introduces m text (some number))
      (spoken : number ≤ 3) (garbled : Dsuid.parse? text = none) : Refuses h m .invalidValueType
  | busy (text : String) (number : UInt32) (peer : Dsuid) (session : Session)
      (introduces : Introduces m text (some number)) (spoken : number ≤ 3)
      (parsed : Dsuid.parse? text = some peer) (held : h.session = some session)
      (other : session.peer ≠ peer) : Refuses h m .serviceNotAvailable

/-- The hello has no fault: it names a peer, and nobody else holds the session. -/
structure Admits (h : Host) (m : Message) (peer : Dsuid) : Prop where
  readable : ∃ text number, Introduces m text (some number) ∧ number ≤ 3 ∧
    Dsuid.parse? text = some peer
  free : ∀ session, h.session = some session → session.peer = peer

def joined (h : Host) (peer : Dsuid) (link : Link) : Host :=
  match h.session with
  | none => { h with session := some { peer }, attached := some link, announcePending := true }
  | some _ => { h with attached := some link }

variable {h : Host} {m : Message} {link : Link} {code : ResultCode} {peer : Dsuid}

theorem exists_introduces (complete : ¬ (m.helloRequest = none ∨ m.id = none ∨
    ∃ version, m.helloRequest = some ⟨none, version⟩)) :
    ∃ text version, Introduces m text version := by
  rw [not_or, not_or] at complete
  obtain ⟨carried, named, whole⟩ := complete
  obtain ⟨⟨dsuid, version⟩, payload⟩ := Option.ne_none_iff_exists'.1 carried
  cases dsuid with
  | none => exact absurd ⟨version, payload⟩ whole
  | some text => exact ⟨text, version, Option.isSome_iff_ne_none.2 named, payload⟩

/-- A hello has a fault or names a peer that can hold the session. -/
theorem refuses_or_admits (h : Host) (m : Message) :
    (∃ code, h.Refuses m code) ∨ ∃ peer, h.Admits m peer := by
  by_cases lacks : m.helloRequest = none ∨ m.id = none ∨
      ∃ version, m.helloRequest = some ⟨none, version⟩
  · exact Or.inl ⟨_, .missingData lacks⟩
  obtain ⟨text, version, introduces⟩ := exists_introduces lacks
  by_cases unspoken : ∀ number, version = some number → 3 < number
  · exact Or.inl ⟨_, .incompatibleApi text version introduces unspoken⟩
  obtain ⟨number, rfl, spoken⟩ : ∃ number, version = some number ∧ number ≤ 3 := by
    simpa using unspoken
  cases parsed : Dsuid.parse? text with
  | none => exact Or.inl ⟨_, .invalidPeer text number introduces spoken parsed⟩
  | some peer =>
    by_cases free : ∀ session, h.session = some session → session.peer = peer
    · exact Or.inr ⟨peer, ⟨text, number, introduces, spoken, parsed⟩, free⟩
    · simp only [not_forall] at free
      obtain ⟨session, held, other⟩ := free
      exact Or.inl ⟨_, .busy text number peer session introduces spoken parsed held other⟩

/-- A hello that is refused whatever the session is answered with the code, and nothing changes. -/
theorem receiveHello_of_checkHello_error {outcome : HelloOutcome} (via : Option Link)
    (check : Session.checkHello m.id m.helloRequest = .error outcome)
    (rejected : outcome.rejection? = some code) :
    h.receiveHello m via = (.ofCode code m.id, h) := by
  rcases Session.checkHello_error check with rfl | rfl | rfl
  all_goals
    obtain rfl := Option.some.inj rejected
    simp [receiveHello, Session.hello, check, HelloOutcome.rejection?]

theorem Introduces.checkHello {text : String} {number : UInt32}
    (introduces : Introduces m text (some number)) (spoken : number ≤ 3) :
    Session.checkHello m.id m.helloRequest =
      match Dsuid.parse? text with
      | some peer => .ok peer
      | none => .error .invalidPeer := by
  obtain ⟨id, named⟩ := Option.isSome_iff_exists.1 introduces.named
  simp only [Session.checkHello, named, introduces.payload, Option.bind_some]
  exact if_pos spoken

/-- A hello with a fault is answered with the code of the fault, and nothing changes. -/
theorem receiveHello_of_refuses (refuses : h.Refuses m code) (via : Option Link) :
    h.receiveHello m via = (.ofCode code m.id, h) := by
  cases refuses with
  | missingData lacks =>
    have check : Session.checkHello m.id m.helloRequest = .error .missingData := by
      rcases lacks with lacks | lacks | ⟨version, lacks⟩
      · simp [Session.checkHello, lacks]
      · simp [Session.checkHello, lacks]
      · simp [Session.checkHello, lacks]
    exact receiveHello_of_checkHello_error via check rfl
  | incompatibleApi text version introduces unspoken =>
    obtain ⟨id, named⟩ := Option.isSome_iff_exists.1 introduces.named
    have check : Session.checkHello m.id m.helloRequest = .error .incompatibleApi := by
      cases version with
      | none => simp [Session.checkHello, named, introduces.payload]
      | some number =>
        have above : ¬ number ≤ 3 := UInt32.not_le.2 (unspoken number rfl)
        simp [Session.checkHello, named, introduces.payload, Session.supportedApiVersion, above]
    exact receiveHello_of_checkHello_error via check rfl
  | invalidPeer text number introduces spoken garbled =>
    have check := introduces.checkHello spoken
    rw [garbled] at check
    exact receiveHello_of_checkHello_error via check rfl
  | busy text number peer session introduces spoken parsed held other =>
    have check := introduces.checkHello spoken
    rw [parsed] at check
    simp [receiveHello, Session.hello, check, held, other, HelloOutcome.rejection?]

/-- A hello without a fault is welcomed, and its peer holds the session over its link. -/
theorem receiveHello_of_admits (admits : h.Admits m peer) (link : Link) :
    h.receiveHello m (some link) = (.welcome h.dsuid m.id, h.joined peer link) := by
  obtain ⟨⟨text, number, introduces, spoken, parsed⟩, free⟩ := admits
  have check := introduces.checkHello spoken
  rw [parsed] at check
  cases held : h.session with
  | none => simp [receiveHello, Session.hello, check, held, joined, HelloOutcome.rejection?, dsuid]
  | some session =>
    have same := free session held
    simp [receiveHello, Session.hello, check, held, same, joined, HelloOutcome.rejection?, dsuid]

/-- A hello is refused with the code of its first fault, and then nothing changes. Otherwise it is
welcomed in the name of the host, and its peer holds the session over its link: a new session, which
counts from the beginning and asks for announcements, or the one that it has, as it is. The answer
carries the id of the hello, and the body of a frame has the same effect as the hello that it is. -/
theorem hello_all_or_nothing (h : Host) (m : Message) (link : Link) :
    (∀ code, (h.receiveHello m (some link)).1 = .ofCode code m.id ↔ h.Refuses m code) ∧
    (∀ code, h.Refuses m code → (h.receiveHello m (some link)).2 = h) ∧
    ((∀ code, ¬ h.Refuses m code) → ∃ text number peer, Introduces m text (some number) ∧
      number ≤ 3 ∧ Dsuid.parse? text = some peer ∧
      (h.receiveHello m (some link)).1 = .welcome h.dsuid m.id ∧
      (h.session = none → (h.receiveHello m (some link)).2 =
        { h with session := some ⟨peer, 0⟩, attached := some link, announcePending := true }) ∧
      ∀ session, h.session = some session → session.peer = peer ∧
        (h.receiveHello m (some link)).2 = { h with attached := some link }) ∧
    (h.receiveHello m (some link)).1.id = m.id ∧
    ∀ body, h.Reads body m → m.type = .requestHello → h.handleBody body link =
      (some ((h.codec.encode (h.receiveHello m (some link)).1).toOption.getD []),
        (h.receiveHello m (some link)).2) := by
  refine ⟨fun code => ⟨fun answer => ?_, fun refuses => ?_⟩, fun code refuses => ?_,
    fun faultless => ?_, ?_, fun body reads type => ?_⟩
  · rcases refuses_or_admits h m with ⟨other, refuses⟩ | ⟨peer, admits⟩
    · rw [receiveHello_of_refuses refuses] at answer
      have same := congrArg (·.response.bind (·.code)) answer
      obtain rfl : other = code := Option.some.inj same
      exact refuses
    · rw [receiveHello_of_admits admits] at answer
      cases congrArg Message.type answer
  · rw [receiveHello_of_refuses refuses]
  · rw [receiveHello_of_refuses refuses]
  · rcases refuses_or_admits h m with ⟨code, refuses⟩ | ⟨peer, admits⟩
    · exact absurd refuses (faultless code)
    · have received := receiveHello_of_admits admits link
      obtain ⟨⟨text, number, introduces, spoken, parsed⟩, free⟩ := admits
      refine ⟨text, number, peer, introduces, spoken, parsed, by rw [received], fun none => ?_,
        fun session held => ⟨free session held, ?_⟩⟩
      · rw [received, joined, none]
      · rw [received, joined, held]
  · rcases refuses_or_admits h m with ⟨code, refuses⟩ | ⟨peer, admits⟩
    · rw [receiveHello_of_refuses refuses]
      rfl
    · rw [receiveHello_of_admits admits]
      rfl
  · rw [handleBody_eq reads]
    simp only [receive, type, Option.map_some]

end Host

end DeviceConnector
