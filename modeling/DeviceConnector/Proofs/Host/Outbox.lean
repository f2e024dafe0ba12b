import DeviceConnector.Proofs.Host.Handling
/-!
# What operations queue

An operation queues at most one reply, on the link that its frame came over. Whatever else it queues
the host kind by itself: announcements, notices and requests, and these go to the link that carries
the session. Without a session there are none.
-/

namespace DeviceConnector.Host

variable {h h₁ h₂ h₃ : Host} {link : Link} {peer : Dsuid} {m : Message} {op : Operation}

structure Carries (h : Host) (link : Link) (peer : Dsuid) : Prop where
  held : h.peer = some peer
  attached : h.attached = some link

theorem carries_of_connected (connected : h.isConnected = true)
    (attached : h.attached = some link) : ∃ peer, h.Carries link peer := by
  have exists_session : h.session.isSome = true := by
    rw [isConnected, Bool.and_eq_true] at connected
    exact connected.1
  obtain ⟨session, held⟩ := Option.isSome_iff_exists.1 exists_session
  refine ⟨session.peer, ?_, attached⟩
  rw [peer, held]
  rfl

theorem Undisturbed.symm (same : Undisturbed h₁ h₂) : Undisturbed h₂ h₁ where
  peer := same.peer.symm
  attached := same.attached.symm
  connected object := (same.connected object).symm

theorem Undisturbed.carries (same : Undisturbed h₁ h₂) (carries : h₁.Carries link peer) :
    h₂.Carries link peer :=
  ⟨same.peer.trans carries.held, same.attached.trans carries.attached⟩

def Spoken (h : Host) (kind : Message → Prop) (bodies : List Queued) : Prop :=
  ∀ queued ∈ bodies, (∃ peer, h.Carries queued.link peer) ∧
    ∃ m, kind m ∧ h.codec.encode m = .ok queued.body

variable {kind wider : Message → Prop} {bodies later : List Queued}

theorem spoken_nil : h.Spoken kind [] := by
  intro queued mem
  cases mem

theorem spoken_singleton {body : Bytes} (connected : h.isConnected = true)
    (attached : h.attached = some link) (own : kind m) (encoded : h.codec.encode m = .ok body) :
    h.Spoken kind [⟨link, body⟩] := by
  intro queued mem
  obtain rfl := List.mem_singleton.1 mem
  exact ⟨carries_of_connected connected attached, m, own, encoded⟩

theorem Spoken.append (first : h.Spoken kind bodies) (second : h.Spoken kind later) :
    h.Spoken kind (bodies ++ later) := by
  intro queued mem
  rcases List.mem_append.1 mem with mem | mem
  · exact first queued mem
  · exact second queued mem

theorem Spoken.mono (spoken : h.Spoken kind bodies) (weaker : ∀ m, kind m → wider m) :
    h.Spoken wider bodies := by
  intro queued mem
  obtain ⟨carries, m, own, encoded⟩ := spoken queued mem
  exact ⟨carries, m, weaker m own, encoded⟩

theorem Spoken.congr (spoken : h₁.Spoken kind bodies) (same : Undisturbed h₁ h₂)
    (codec : h₂.codec = h₁.codec) : h₂.Spoken kind bodies := by
  intro queued mem
  obtain ⟨⟨peer, carries⟩, m, own, encoded⟩ := spoken queued mem
  refine ⟨⟨peer, same.carries carries⟩, m, own, ?_⟩
  rw [codec]
  exact encoded

/-- A message of a kind, and not above the limit if it can be written. -/
structure Fitting (h : Host) (kind : Message → Prop) (m : Message) : Prop where
  own : kind m
  fits : ∀ body, h.codec.encode m = .ok body → body.length ≤ h.config.maxMessageSize

theorem fitting_of_encode {body : Bytes} (own : kind m) (encoded : h.codec.encode m = .ok body)
    (fits : body.length ≤ h.config.maxMessageSize) : h.Fitting kind m := by
  refine ⟨own, fun other same => ?_⟩
  obtain rfl := Except.ok.inj (encoded.symm.trans same)
  exact fits

theorem Fitting.mono (fitting : h₂.Fitting kind m) (wires : SameWires h₁ h₂)
    (weaker : ∀ m, kind m → wider m) : h₁.Fitting wider m :=
  ⟨weaker m fitting.own, wires.config ▸ wires.codec ▸ fitting.fits⟩

/-- What is said is within the limit. -/
theorem Spoken.length_le (spoken : h₂.Spoken (h₁.Fitting kind) bodies)
    (codec : h₂.codec = h₁.codec) {queued : Queued} (mem : queued ∈ bodies) :
    queued.body.length ≤ h₁.config.maxMessageSize := by
  obtain ⟨-, m, fitting, encoded⟩ := spoken queued mem
  exact fitting.fits queued.body (codec ▸ encoded)

structure SaidFrom (kind : Message → Prop) (h₁ h₂ : Host) : Prop extends SentFrom h₁ h₂ where
  said : ∃ bodies, h₂.outbox = h₁.outbox ++ bodies ∧ h₁.Spoken kind bodies

theorem SaidFrom.silent (sent : SentFrom h₁ h₂) (same : h₂.outbox = h₁.outbox) :
    SaidFrom kind h₁ h₂ := by
  refine ⟨sent, [], ?_, spoken_nil⟩
  rw [same, List.append_nil]

theorem SaidFrom.mono (said : SaidFrom kind h₁ h₂) (weaker : ∀ m, kind m → wider m) :
    SaidFrom wider h₁ h₂ := by
  obtain ⟨sent, bodies, eq, spoken⟩ := said
  exact ⟨sent, bodies, eq, spoken.mono weaker⟩

theorem SaidFrom.trans (first : SaidFrom kind h₁ h₂) (second : SaidFrom kind h₂ h₃) :
    SaidFrom kind h₁ h₃ := by
  obtain ⟨sent, bodies, eq, spoken⟩ := first
  obtain ⟨sent', later, eq', spoken'⟩ := second
  refine ⟨sent.trans sent', bodies ++ later, ?_, ?_⟩
  · rw [eq', eq, List.append_assoc]
  · apply spoken.append
    exact spoken'.congr sent.undisturbed.symm sent.sameWires.codec.symm

theorem SaidFrom.fitting (said : SaidFrom (h₂.Fitting kind) h₂ h₃) (wires : SameWires h₁ h₂)
    (weaker : ∀ m, kind m → wider m) : SaidFrom (h₁.Fitting wider) h₂ h₃ :=
  said.mono fun _ fitting => fitting.mono wires weaker

theorem transmit_saidFrom (connected : h₁.isConnected = true) (ok : h₁.transmit m = .ok h₂) :
    SaidFrom (h₁.Fitting (· = m)) h₁ h₂ := by
  obtain ⟨link, body, attached, encoded, fits, -, rfl⟩ := transmit_ok ok
  exact ⟨transmit_sentFrom ok, [⟨link, body⟩], rfl,
    spoken_singleton connected attached (fitting_of_encode rfl encoded fits) encoded⟩

theorem notify_saidFrom (ok : h₁.notify m = .ok h₂) : SaidFrom (h₁.Fitting (· = m)) h₁ h₂ := by
  unfold notify at ok
  split at ok
  · rename_i connected
    split at ok
    · exact transmit_saidFrom connected ok
    · cases ok
  · cases ok

theorem send_saidFrom (h : Host) (m : Message) (callback : Callback) :
    SaidFrom (h.Fitting (· = m)) h (h.send m callback).2 := by
  have sent := send_sentFrom h m callback
  rcases send_cases h m callback with
    ⟨id, link, body, -, connected, attached, encoded, fits, eq⟩ | ⟨e, pending, eq⟩
  · rw [eq] at sent ⊢
    exact ⟨sent, [⟨link, body⟩], rfl,
      spoken_singleton connected attached (fitting_of_encode rfl encoded fits) encoded⟩
  · rw [eq] at sent ⊢
    exact .silent sent rfl

theorem allocateId_outbox (h : Host) : h.allocateId.2.outbox = h.outbox := by
  unfold allocateId
  split <;> rfl

def Announces (vdc : Vdc) (m : Message) : Prop := ∃ id, m = .announceOf vdc.dsuid id

theorem announce_saidFrom (h : Host) (vdc : Vdc) :
    SaidFrom (h.Fitting (Announces vdc)) h (h.announce vdc).2 := by
  unfold announce
  split
  · have allocated : SaidFrom (h.Fitting (Announces vdc)) h h.allocateId.2 :=
      .silent (allocateId_sentFrom h) (allocateId_outbox h)
    split
    · rename_i eq
      rw [eq] at allocated
      exact allocated
    · rename_i id h' eq
      rw [eq] at allocated
      apply allocated.trans
      apply (send_saidFrom h' _ _).fitting allocated.sameWires
      intro m same
      exact ⟨id, same⟩
  · exact .silent (.refl h) rfl

theorem announceAll_saidFrom (h : Host) (vdcs : List Vdc) :
    SaidFrom (h.Fitting fun m => ∃ vdc ∈ vdcs, Announces vdc m) h (h.announceAll vdcs).2 := by
  induction vdcs generalizing h with
  | nil => exact .silent (.refl h) rfl
  | cons vdc vdcs ih =>
    have first : SaidFrom (h.Fitting fun m => ∃ other ∈ vdc :: vdcs, Announces other m) h
        (h.announce vdc).2 := by
      apply (announce_saidFrom h vdc).fitting (SentFrom.refl h).sameWires
      intro m own
      exact ⟨vdc, List.mem_cons_self .., own⟩
    apply first.trans
    apply (ih _).fitting first.sameWires
    rintro m ⟨other, mem, own⟩
    exact ⟨other, List.mem_cons_of_mem _ mem, own⟩

theorem flushAnnouncements_saidFrom (h : Host) :
    SaidFrom (h.Fitting fun m => ∃ vdc ∈ h.registry.vdcs, Announces vdc m)
      { h with announcePending := false } h.flushAnnouncements.2 := by
  have sent := flushAnnouncements_sentFrom h
  unfold flushAnnouncements announceVdcs at sent ⊢
  split
  · exact (announceAll_saidFrom _ _).fitting ⟨rfl, rfl, rfl, rfl⟩ fun _ own => own
  · rename_i idle
    rw [if_neg idle] at sent
    exact .silent sent rfl

theorem vanish_saidFrom (h : Host) (vdc : Vdc) (dsuid : Dsuid) :
    SaidFrom (h.Fitting (· = .vanishOf dsuid)) h (h.vanish vdc dsuid).2 := by
  simp only [vanish]
  split
  · cases sent : h.notify (.vanishOf dsuid) with
    | ok h' => exact notify_saidFrom sent
    | error e => exact .silent (.refl h) rfl
  · exact .silent (.refl h) rfl

def replyTo (h : Host) : Operation → List Queued
  | .frame link body =>
    if h.isClosed link then [] else (h.handleBody body link).1.toList.map (⟨link, ·⟩)
  | _ => []

def unprompted (h : Host) (op : Operation) : List Queued :=
  (h.perform op).outbox.drop (h.outbox ++ h.replyTo op).length

/-- An operation gives the host this to say. -/
def Utters (h : Host) (m : Message) : Operation → Prop
  | .frame .. => ∃ vdc ∈ h.registry.vdcs, Announces vdc m
  | .addVdc vdc => Announces vdc m
  | .removeDevice _ dsuid => m = .vanishOf dsuid
  | .send m' _ | .notify m' => m = m'
  | _ => False

theorem unprompted_eq {bodies : List Queued}
    (eq : (h.perform op).outbox = h.outbox ++ h.replyTo op ++ bodies) :
    h.unprompted op = bodies := by
  rw [unprompted, eq, List.drop_left]

theorem queueReply_ok {reply : Option Bytes} (ok : h₁.queueReply link reply = .ok h₂) :
    h₂ = { h₁ with outbox := h₁.outbox ++ reply.toList.map (⟨link, ·⟩) } ∧
    (reply = none ∨ h₁.isClosed link = false) := by
  cases reply with
  | none =>
    cases ok
    simp
  | some body =>
    simp only [queueReply, queue] at ok
    split at ok
    · cases ok
    · rename_i opened
      cases ok
      exact ⟨rfl, Or.inr (by simpa using opened)⟩

theorem queueReply_error {reply : Option Bytes} {e : HostError}
    (failed : h.queueReply link reply = .error e) : h.isClosed link = true := by
  cases reply with
  | none => cases failed
  | some body =>
    simp only [queueReply, queue] at failed
    split at failed
    · assumption
    · cases failed

/-- Once the reply has been queued the outbox has grown by it. -/
theorem settled_outbox {body : Bytes} {settled : Host}
    (queued : (h.handleBody body link).2.queueReply link (h.handleBody body link).1 = .ok settled) :
    settled.outbox = h.outbox ++ h.replyTo (.frame link body) := by
  have effect := handleBody_handling h body link
  have outbox : (h.handleBody body link).2.outbox = h.outbox := by rw [effect.rest]
  have closed : (h.handleBody body link).2.isClosed link = h.isClosed link := by
    rw [effect.rest]
    rfl
  obtain ⟨eq, taken⟩ := queueReply_ok queued
  rw [eq, ← outbox, replyTo, ← closed]
  rcases taken with none | opened
  · simp [none]
  · simp [opened]

theorem outbox_frame (h : Host) (link : Link) (body : Bytes) :
    ∃ bodies, (h.perform (.frame link body)).outbox =
        h.outbox ++ h.replyTo (.frame link body) ++ bodies ∧
      (h.perform (.frame link body)).Spoken (h.Fitting (h.Utters · (.frame link body))) bodies := by
  have effect := handleBody_handling h body link
  cases queued : (h.handleBody body link).2.queueReply link (h.handleBody body link).1 with
  | error e =>
    have closed : (h.handleBody body link).2.isClosed link = h.isClosed link := by
      rw [effect.rest]
      rfl
    have shut := closed.symm.trans (queueReply_error queued)
    have outbox : (h.handleBody body link).2.outbox = h.outbox := by rw [effect.rest]
    refine ⟨[], ?_, spoken_nil⟩
    simpa only [perform, processFrame, queued, replyTo, if_pos shut, List.append_nil] using outbox
  | ok settled =>
    obtain ⟨sent, bodies, said, spoken⟩ := flushAnnouncements_saidFrom settled
    have registry : settled.registry = h.registry := by
      rw [(queueReply_ok queued).1]
      exact effect.registry
    have wires : SameWires h settled := by
      rw [(queueReply_ok queued).1, effect.rest]
      exact ⟨rfl, rfl, rfl, rfl⟩
    simp only [perform, processFrame, queued, Utters]
    refine ⟨bodies, ?_, ?_⟩
    · rw [← settled_outbox queued]
      exact said
    · rw [← registry]
      apply (spoken.congr sent.undisturbed sent.sameWires.codec).mono
      intro m fitting
      exact fitting.mono wires fun _ own => own

theorem SaidFrom.since (said : SaidFrom kind h₁ h₂) (same : Undisturbed h h₁)
    (codec : h₁.codec = h.codec) (outbox : h₁.outbox = h.outbox) :
    ∃ bodies, h₂.outbox = h.outbox ++ bodies ∧ h.Spoken kind bodies := by
  obtain ⟨-, bodies, eq, spoken⟩ := said
  exact ⟨bodies, outbox ▸ eq, spoken.congr same.symm codec.symm⟩

theorem outbox_detach (h : Host) (id : Nat) : (h.perform (.detach id)).outbox = h.outbox := by
  rw [perform]
  rcases detach_cases h id with ⟨eq, -⟩ | ⟨-, eq⟩
  · rw [eq]
  · obtain ⟨vdcStates, same⟩ := disconnectVdcs_eq { h with session := none, attached := none }
    rw [eq, same]

theorem outbox_quiet (h : Host) (quiet : ¬ IsTraffic op) :
    ∃ bodies, (h.perform op).outbox = h.outbox ++ bodies ∧
      h.Spoken (h.Fitting (h.Utters · op)) bodies := by
  have unchanged {after : Host} (same : after.outbox = h.outbox) :
      ∃ bodies, after.outbox = h.outbox ++ bodies ∧ h.Spoken (h.Fitting (h.Utters · op)) bodies :=
    ⟨[], by rw [same, List.append_nil], spoken_nil⟩
  cases op with
  | frame | detach => exact absurd trivial quiet
  | connect | closeQueue | create | wait => exact unchanged rfl
  | addVdc vdc =>
    have wires : SameWires h (h.admitted vdc) := ⟨rfl, rfl, rfl, rfl⟩
    have admitted : SaidFrom (h.Fitting (Announces vdc)) (h.admitted vdc) (h.admitted vdc) :=
      .silent (.refl _) rfl
    simp only [perform, addVdc_eq]
    split
    · exact unchanged rfl
    · apply SaidFrom.since _ (admitted_undisturbed h vdc) rfl rfl
      dsimp only
      split
      · exact (announce_saidFrom _ vdc).fitting wires fun _ own => own
      · exact admitted
  | addDevice vdc device =>
    apply unchanged
    rw [perform]
    rcases addDevice_cases h vdc device with eq | eq | eq
    · rw [eq]
    · rw [eq, holding, updateVdc]
    · rw [eq, holding, updateVdc]
  | removeDevice vdc dsuid =>
    rw [perform]
    cases found : h.device? vdc dsuid with
    | none =>
      rw [removeDevice_of_missing found]
      exact unchanged rfl
    | some device =>
      rw [removeDevice_eq found]
      have wires : SameWires h (h.without vdc dsuid) := ⟨rfl, rfl, rfl, rfl⟩
      apply ((vanish_saidFrom _ vdc dsuid).fitting wires _).since (without_undisturbed h vdc dsuid)
        rfl rfl
      exact fun _ own => own
  | send m tag =>
    exact (send_saidFrom h m (.application tag)).since (.refl h) rfl rfl
  | notify m =>
    rw [perform]
    cases sent : h.notify m with
    | error e => exact unchanged rfl
    | ok h' => exact (notify_saidFrom sent).since (.refl h) rfl rfl
  | evict =>
    obtain ⟨pending, eq⟩ := evictExpired_eq h
    apply unchanged
    rw [perform, eq]

/-- Only frames are replied to. -/
theorem replyTo_of_quiet (h : Host) (quiet : ¬ IsTraffic op) : h.replyTo op = [] := by
  cases op with
  | frame | detach => exact absurd trivial quiet
  | _ => rfl

/-- An operation queues a reply, and besides only what it gives the host to say, within the limit
and on the link that then carries the session. -/
theorem outbox_perform_fitting (h : Host) (op : Operation) :
    (h.perform op).outbox = h.outbox ++ h.replyTo op ++ h.unprompted op ∧
    (h.perform op).Spoken (h.Fitting (h.Utters · op)) (h.unprompted op) := by
  by_cases traffic : IsTraffic op
  · cases op with
    | frame link body =>
      obtain ⟨bodies, eq, spoken⟩ := outbox_frame h link body
      rw [unprompted_eq eq]
      exact ⟨eq, spoken⟩
    | detach id =>
      have unreplied : h.replyTo (.detach id) = [] := rfl
      have eq : (h.perform (.detach id)).outbox =
          h.outbox ++ h.replyTo (.detach id) ++ [] := by
        rw [outbox_detach, unreplied, List.append_nil, List.append_nil]
      rw [unprompted_eq eq]
      exact ⟨eq, spoken_nil⟩
    | _ => exact traffic.elim
  · obtain ⟨bodies, eq, spoken⟩ := outbox_quiet h traffic
    rw [← List.append_nil h.outbox, ← replyTo_of_quiet h traffic] at eq
    rw [unprompted_eq eq]
    exact ⟨eq, spoken.congr (perform_undisturbed traffic) (perform_setup h op).2⟩

theorem outbox_perform (h : Host) (op : Operation) :
    (h.perform op).outbox = h.outbox ++ h.replyTo op ++ h.unprompted op ∧
    (h.perform op).Spoken (h.Utters · op) (h.unprompted op) := by
  obtain ⟨eq, spoken⟩ := outbox_perform_fitting h op
  exact ⟨eq, spoken.mono fun _ fitting => fitting.own⟩

/-- Without a session an operation queues nothing but a reply. -/
theorem unprompted_of_free (free : (h.perform op).peer = none) : h.unprompted op = [] := by
  obtain ⟨-, spoken⟩ := outbox_perform h op
  rw [List.eq_nil_iff_forall_not_mem]
  intro queued mem
  obtain ⟨⟨peer, carries⟩, -⟩ := spoken queued mem
  cases free.symm.trans carries.held

end DeviceConnector.Host
