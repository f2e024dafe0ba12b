import DeviceConnector.Proofs.Host.Isolation
import DeviceConnector.Proofs.Host.Outbox
import DeviceConnector.Proofs.Host.SessionLink
/-!
# Where bodies go

Only an accepted hello brings the session to a link, so a link that does not carry it is sent
replies to its own frames and nothing else until then. A controller that is turned away is told of
nothing before a hello of its own is accepted.
-/

namespace DeviceConnector

namespace Host

variable {h : Host} {link other previous : Link} {peer current : Dsuid} {outcome : HelloOutcome}
  {op : Operation}

inductive Hears (h : Host) (link : Link) (peer : Dsuid) (outcome : HelloOutcome) :
    Operation → Prop where
  | hello (body : Bytes) (m : Message) (reads : h.Reads body m) (type : m.type = .requestHello)
      (valid : Session.checkHello m.id m.helloRequest = .ok peer)
      (decided : (Session.hello h.session m.id m.helloRequest).1 = outcome) :
      Hears h link peer outcome (.frame link body)

def Accepts (h : Host) (link : Link) (peer : Dsuid) (op : Operation) : Prop :=
  h.Hears link peer (.established peer) op ∨ h.Hears link peer (.renewed peer) op

theorem Hears.unique {peer' : Dsuid} {outcome' : HelloOutcome}
    (hears : h.Hears link peer outcome op) (again : h.Hears other peer' outcome' op) :
    outcome = outcome' := by
  cases hears with
  | hello body m reads type valid decided =>
    cases again with
    | hello _ m' reads' _ _ decided' =>
      obtain rfl := reads.unique reads'
      exact decided.symm.trans decided'

theorem Accepts.traffic (accepts : h.Accepts link peer op) : IsTraffic op := by
  rcases accepts with hears | hears
  · cases hears
    trivial
  · cases hears
    trivial

theorem Hears.not_accepts (hears : h.Hears link peer (.busy current) op) (other : Link)
    (peer' : Dsuid) : ¬ h.Accepts other peer' op := by
  rintro (established | renewed)
  · cases hears.unique established
  · cases hears.unique renewed

theorem Hears.busy (hears : h.Hears link peer (.busy current) op) :
    h.peer = some current ∧ current ≠ peer := by
  cases hears with
  | hello body m reads type valid decided =>
    cases held : h.session with
    | none => simp [Session.hello, valid, held] at decided
    | some session =>
      by_cases same : session.peer = peer
      · simp [Session.hello, valid, held, same] at decided
      · have named : session.peer = current := by
          simpa [Session.hello, valid, held, same] using decided
        subst named
        exact ⟨by simp [Host.peer, held], same⟩

theorem Hears.renewed (hears : h.Hears link peer (.renewed peer) op) :
    (h.perform op).attached = some link := by
  cases hears with
  | hello body m reads type valid decided =>
    obtain ⟨-, attached⟩ := frame_peer h link body
    rw [attached, handleBody_of_reads reads]
    simp only [receive, type, receiveHello, decided, HelloOutcome.rejection?]
    rfl

/-- A body leaves session and link alone, or ends the session, or is an accepted hello. -/
theorem Handling.holder {after : Host} {body : Bytes} (effect : Handling h body link after) :
    after.peer = h.peer ∧ after.attached = h.attached ∨
    after.peer = none ∧ after.attached = none ∨
    ∃ peer, h.Accepts link peer (.frame link body) ∧ after.Carries link peer := by
  cases effect with
  | silent => exact Or.inl ⟨rfl, rfl⟩
  | established m peer reads type valid free =>
    have decided : (Session.hello h.session m.id m.helloRequest).1 = .established peer := by
      simp [Session.hello, valid, free]
    exact Or.inr (Or.inr ⟨peer, Or.inl ⟨body, m, reads, type, valid, decided⟩, rfl, rfl⟩)
  | renewed session renews =>
    obtain ⟨held, m, reads, type, valid⟩ := renews
    have decided : (Session.hello h.session m.id m.helloRequest).1 = .renewed session.peer := by
      simp [Session.hello, valid, held]
    have kept : h.peer = some session.peer := by simp [Host.peer, held]
    exact Or.inr (Or.inr ⟨session.peer, Or.inr ⟨body, m, reads, type, valid, decided⟩, kept, rfl⟩)
  | ended m => exact Or.inr (Or.inl (dismissed_peer h m))
  | answered id request response =>
    exact Or.inl (answered_peer h id request.callback response)

theorem holder_perform (h : Host) (op : Operation) :
    (h.perform op).peer = h.peer ∧ (h.perform op).attached = h.attached ∨
    (h.perform op).peer = none ∧ (h.perform op).attached = none ∨
    ∃ link peer, h.Accepts link peer op ∧ (h.perform op).Carries link peer := by
  by_cases traffic : IsTraffic op
  · cases op with
    | frame link body =>
      obtain ⟨samePeer, sameLink⟩ := frame_peer h link body
      rcases (handleBody_handling h body link).holder with ⟨kept, stays⟩ | ⟨free, loose⟩ |
        ⟨peer, accepts, carries⟩
      · exact Or.inl ⟨samePeer.trans kept, sameLink.trans stays⟩
      · exact Or.inr (Or.inl ⟨samePeer.trans free, sameLink.trans loose⟩)
      · refine Or.inr (Or.inr ⟨link, peer, accepts, ?_, ?_⟩)
        · exact samePeer.trans carries.held
        · exact sameLink.trans carries.attached
    | detach id =>
      rcases detach_peer h id with ⟨eq, -⟩ | ⟨free, loose, -⟩
      · exact Or.inl ⟨congrArg Host.peer eq, congrArg Host.attached eq⟩
      · exact Or.inr (Or.inl ⟨free, loose⟩)
    | _ => exact traffic.elim
  · have same := perform_undisturbed (h := h) traffic
    exact Or.inl ⟨same.peer, same.attached⟩

theorem attached_perform (away : h.attached ≠ some link)
    (refused : ∀ peer, ¬ h.Accepts link peer op) : (h.perform op).attached ≠ some link := by
  intro arrived
  rcases holder_perform h op with ⟨-, stays⟩ | ⟨-, loose⟩ | ⟨target, peer, accepts, carries⟩
  · exact away (stays.symm.trans arrived)
  · cases loose.symm.trans arrived
  · obtain rfl := Option.some.inj (carries.attached.symm.trans arrived)
    exact refused peer accepts

theorem peer_perform (others : h.peer ≠ some peer)
    (refused : ∀ link, ¬ h.Accepts link peer op) : (h.perform op).peer ≠ some peer := by
  intro held
  rcases holder_perform h op with ⟨kept, -⟩ | ⟨free, -⟩ | ⟨link, target, accepts, carries⟩
  · exact others (kept.symm.trans held)
  · cases free.symm.trans held
  · obtain rfl := Option.some.inj (carries.held.symm.trans held)
    exact refused link accepts

/-- The session leaves the link: it is renewed over another one, ended by its peer's bye, or ends
with the link. -/
inductive Leaves (h : Host) (previous : Link) : Operation → Prop where
  | renewed {op : Operation} (link : Link) (peer : Dsuid)
      (hears : h.Hears link peer (.renewed peer) op) (elsewhere : link ≠ previous) :
      Leaves h previous op
  | bye (link : Link) (body : Bytes) (m : Message) (session : Session) (reads : h.Reads body m)
      (type : m.type = .bye) (names : m.bye.bind EntityRef.target? = some session.peer)
      (held : h.session = some session) (same : previous.id = link.id) :
      Leaves h previous (.frame link body)
  | detached : Leaves h previous (.detach previous.id)

theorem Leaves.away (leaves : h.Leaves previous op) (attached : h.attached = some previous) :
    (h.perform op).attached ≠ some previous := by
  cases leaves with
  | renewed link peer hears elsewhere =>
    rw [hears.renewed]
    intro same
    exact elsewhere (Option.some.inj same)
  | bye link body m session reads type names held same =>
    obtain ⟨-, loose⟩ := frame_peer h link body
    rw [handleBody_bye reads type names held attached same, (dismissed_peer h m).2] at loose
    intro still
    cases loose.symm.trans still
  | detached =>
    rcases detach_peer h previous.id with ⟨-, stray⟩ | ⟨-, loose, -⟩
    · exact absurd rfl (stray previous attached)
    · intro still
      cases loose.symm.trans still

def repliesOn (h : Host) (link : Link) (op : Operation) : List Bytes :=
  ((h.replyTo op).filter (·.link = link)).map (·.body)

theorem queuedOn_perform (away : (h.perform op).attached ≠ some link) :
    (h.perform op).queuedOn link = h.queuedOn link ++ h.repliesOn link op := by
  obtain ⟨eq, spoken⟩ := outbox_perform h op
  have elsewhere : (h.unprompted op).filter (·.link = link) = [] := by
    rw [List.filter_eq_nil_iff]
    intro queued mem here
    obtain ⟨⟨peer, carries⟩, -⟩ := spoken queued mem
    apply away
    rw [carries.attached, of_decide_eq_true here]
  unfold queuedOn repliesOn
  rw [eq, List.filter_append, List.filter_append, elsewhere, List.append_nil, List.map_append]

structure Addressed (h : Host) (op : Operation) : Prop where
  queued : (h.perform op).outbox = h.outbox ++ h.replyTo op ++ h.unprompted op
  /-- A frame is replied to once at most, on its own link. -/
  reply : h.replyTo op = [] ∨ ∃ link body reply, op = .frame link body ∧
    (h.handleBody body link).1 = some reply ∧ h.replyTo op = [⟨link, reply⟩]
  /-- The rest is for the controller that holds the session by then. -/
  spoken : (h.perform op).Spoken (h.Utters · op) (h.unprompted op)
  /-- Apart from frames and the end of connections, that is the one that holds it already. -/
  quiet : ¬ IsTraffic op → h.replyTo op = [] ∧ h.Spoken (h.Utters · op) (h.unprompted op) ∧
    (h.session = none → (h.perform op).outbox = h.outbox)

theorem replyTo_cases (h : Host) (op : Operation) :
    h.replyTo op = [] ∨ ∃ link body reply, op = .frame link body ∧
      (h.handleBody body link).1 = some reply ∧ h.replyTo op = [⟨link, reply⟩] := by
  cases op with
  | frame link body =>
    simp only [replyTo]
    split
    · exact Or.inl rfl
    · cases handled : (h.handleBody body link).1 with
      | none => exact Or.inl rfl
      | some reply => exact Or.inr ⟨link, body, reply, rfl, handled, rfl⟩
  | _ => exact Or.inl rfl

theorem addressed (h : Host) (op : Operation) : h.Addressed op where
  queued := (outbox_perform h op).1
  reply := replyTo_cases h op
  spoken := (outbox_perform h op).2
  quiet := by
    intro quiet
    obtain ⟨eq, spoken⟩ := outbox_perform h op
    have same := perform_undisturbed (h := h) quiet
    have unreplied := replyTo_of_quiet h quiet
    refine ⟨unreplied, spoken.congr same.symm (perform_setup h op).2.symm, ?_⟩
    intro free
    have silent : h.unprompted op = [] :=
      unprompted_of_free (same.peer.trans (peer_eq_none.2 free))
    rw [eq, unreplied, silent, List.append_nil, List.append_nil]

end Host

namespace Site

open Host

variable {s : Site} {link : Link} {peer current : Dsuid} {op : Operation}
  {operations : List Operation}

def Unadmitted (link : Link) (s : Site) (op : Operation) : Prop :=
  ∀ peer, ¬ s.host.Accepts link peer op

def Unwelcome (peer : Dsuid) (s : Site) (op : Operation) : Prop :=
  ∀ link, ¬ s.host.Accepts link peer op

def repliesOver (link : Link) : Site → List Operation → List Bytes
  | _, [] => []
  | s, op :: operations => s.host.repliesOn link op ++ repliesOver link (s.next op) operations

theorem queuedOn_run (away : s.host.attached ≠ some link)
    (unadmitted : Obeys (Unadmitted link) s operations) :
    (s.run operations).host.queuedOn link =
      s.host.queuedOn link ++ repliesOver link s operations := by
  induction operations generalizing s with
  | nil => exact (List.append_nil _).symm
  | cons op operations ih =>
    obtain ⟨refused, unadmitted⟩ := unadmitted
    have still : (s.next op).host.attached ≠ some link := attached_perform away refused
    have later := ih still unadmitted
    rw [next_host, queuedOn_perform still, List.append_assoc] at later
    exact later

theorem queuedOn_run_cons (away : (s.next op).host.attached ≠ some link)
    (unadmitted : Obeys (Unadmitted link) (s.next op) operations) :
    (s.run (op :: operations)).host.queuedOn link =
      s.host.queuedOn link ++ repliesOver link s (op :: operations) := by
  have later := queuedOn_run away unadmitted
  rw [next_host, queuedOn_perform away, List.append_assoc] at later
  exact later

theorem Execution.peer_ne {t : Site} (path : Execution (Unwelcome peer) s t)
    (others : s.host.peer ≠ some peer) : t.host.peer ≠ some peer :=
  path.preserves others fun _ _ => peer_perform

/-- As long as no hello of a controller is accepted, what the host says by itself is for others. -/
theorem unprompted_elsewhere {count : Nat} {later : Operation}
    (others : s.host.peer ≠ some peer) (unwelcome : Obeys (Unwelcome peer) s operations)
    (here : operations[count]? = some later) :
    ∀ queued ∈ (s.after operations count).host.unprompted later,
      ∃ other ≠ peer, (s.after operations (count + 1)).host.Carries queued.link other := by
  intro queued mem
  obtain ⟨⟨other, carries⟩, -⟩ :=
    (outbox_perform (s.after operations count).host later).2 queued mem
  rw [← next_host, ← after_succ here] at carries
  refine ⟨other, ?_, carries⟩
  rintro rfl
  exact (unwelcome.execution (count + 1)).peer_ne others carries.held

/-- An operation queues at most a reply, on the link of its frame, and messages of the host on the
link that carries the session. A link that the session has left is sent nothing but replies until a
hello over it is accepted, and so is one over which a controller is turned away; that controller is
told of nothing until a hello of its own is accepted. -/
theorem outbound_confined (s : Site) :
    (∀ op, s.host.Addressed op) ∧
    (∀ previous op operations, s.host.attached = some previous → s.host.Leaves previous op →
      Obeys (Unadmitted previous) (s.next op) operations →
      (s.run (op :: operations)).host.queuedOn previous =
        s.host.queuedOn previous ++ repliesOver previous s (op :: operations)) ∧
    (∀ link peer current op operations, s.host.Hears link peer (.busy current) op →
      s.host.peer = some current ∧ current ≠ peer ∧
      (s.host.attached ≠ some link → Obeys (Unadmitted link) (s.next op) operations →
        (s.run (op :: operations)).host.queuedOn link =
          s.host.queuedOn link ++ repliesOver link s (op :: operations)) ∧
      (Obeys (Unwelcome peer) (s.next op) operations →
        ∀ (count : Nat) later, (op :: operations)[count]? = some later →
          ∀ queued ∈ (s.after (op :: operations) count).host.unprompted later,
            ∃ other ≠ peer,
              (s.after (op :: operations) (count + 1)).host.Carries queued.link other)) := by
  refine ⟨fun op => addressed s.host op, ?_, ?_⟩
  · intro previous op operations attached leaves unadmitted
    exact queuedOn_run_cons (leaves.away attached) unadmitted
  · intro link peer current op operations hears
    obtain ⟨held, different⟩ := hears.busy
    have others : s.host.peer ≠ some peer := by
      rw [held]
      intro same
      exact different (Option.some.inj same)
    refine ⟨held, different, ?_, ?_⟩
    · intro away unadmitted
      apply queuedOn_run_cons _ unadmitted
      exact attached_perform away fun peer' => hears.not_accepts link peer'
    · intro unwelcome count later here
      exact unprompted_elsewhere others ⟨fun other => hears.not_accepts other peer, unwelcome⟩ here

def overOne : Site := (initial {} .json).run announcedOverOne

def moved : Operation := .frame ⟨2, 1⟩ (Message.helloOf (.ofUuid 1) 3 2).encode

def turnedAway : Operation := .frame ⟨1, 0⟩ (Message.helloOf (.ofUuid 4) 3 1).encode

def afterMove : List Operation :=
  [turnedAway, .create .vdc (.ofUuid 3) "blinds", .addVdc ⟨2, .ofUuid 3, "blinds"⟩]

theorem overOne_reads {m : Message} (reads : (Host.new {} .json).Reads m.encode m) :
    overOne.host.Reads m.encode m := by
  rw [overOne, run_host]
  exact run_reads announcedOverOne reads

theorem moved_hears : overOne.host.Hears ⟨2, 1⟩ (.ofUuid 1) (.renewed (.ofUuid 1)) moved := by
  have reads : overOne.host.Reads _ (.helloOf (.ofUuid 1) 3 2) :=
    overOne_reads ⟨by decide +kernel, by decide +kernel, rfl⟩
  exact ⟨_, _, reads, rfl, rfl, by decide +kernel⟩

theorem turnedAway_hears : (overOne.next moved).host.Hears ⟨1, 0⟩ (.ofUuid 4) (.busy (.ofUuid 1))
    turnedAway := by
  have reads : overOne.host.Reads _ (.helloOf (.ofUuid 4) 3 1) :=
    overOne_reads ⟨by decide +kernel, by decide +kernel, rfl⟩
  rw [next_host]
  have later := perform_reads moved reads
  exact ⟨_, _, later, rfl, rfl, by decide +kernel⟩

/-- The first connection is sent the refusal and no more; the announcement goes over the second. -/
theorem outbound_confined_moved :
    overOne.host.attached = some ⟨1, 0⟩ ∧ overOne.host.Leaves ⟨1, 0⟩ moved ∧
    (overOne.run (moved :: afterMove)).host.queuedOn ⟨1, 0⟩ =
      overOne.host.queuedOn ⟨1, 0⟩ ++
        [(Message.ofCode .serviceNotAvailable (some 1)).encode] ∧
    ((overOne.next moved).after afterMove 2).host.unprompted (.addVdc ⟨2, .ofUuid 3, "blinds"⟩) =
      [⟨⟨2, 1⟩, (Message.announceOf (.ofUuid 3) 2).encode⟩] ∧
    ∃ other ≠ Dsuid.ofUuid 4,
      ((overOne.next moved).after afterMove 3).host.Carries ⟨2, 1⟩ other := by
  have attached : overOne.host.attached = some ⟨1, 0⟩ := by decide +kernel
  have leaves : overOne.host.Leaves ⟨1, 0⟩ moved := .renewed ⟨2, 1⟩ _ moved_hears (by decide)
  have unadmitted : Obeys (Unadmitted ⟨1, 0⟩) (overOne.next moved) afterMove :=
    ⟨turnedAway_hears.not_accepts ⟨1, 0⟩, fun _ => Accepts.traffic, fun _ => Accepts.traffic,
      trivial⟩
  have replies : repliesOver ⟨1, 0⟩ overOne (moved :: afterMove) =
      [(Message.ofCode .serviceNotAvailable (some 1)).encode] := by decide +kernel
  have announced : ((overOne.next moved).after afterMove 2).host.unprompted
      (.addVdc ⟨2, .ofUuid 3, "blinds"⟩) =
        [⟨⟨2, 1⟩, (Message.announceOf (.ofUuid 3) 2).encode⟩] := by decide +kernel
  obtain ⟨-, left, -⟩ := outbound_confined overOne
  have first := left ⟨1, 0⟩ moved afterMove attached leaves unadmitted
  rw [replies] at first
  obtain ⟨-, -, turned⟩ := outbound_confined (overOne.next moved)
  obtain ⟨-, -, -, elsewhere⟩ :=
    turned ⟨1, 0⟩ (.ofUuid 4) (.ofUuid 1) turnedAway afterMove.tail turnedAway_hears
  have second := elsewhere ⟨fun _ => Accepts.traffic, fun _ => Accepts.traffic, trivial⟩ 2 _ rfl
    ⟨⟨2, 1⟩, (Message.announceOf (.ofUuid 3) 2).encode⟩
  exact ⟨attached, leaves, first, announced, second (announced ▸ List.mem_singleton_self _)⟩

end Site

end DeviceConnector
