import DeviceConnector.Proofs.Host.Handling
import DeviceConnector.Proofs.Host.Site
/-!
# The session and its link

A host keeps the session and the link that carries it in two fields. Over open connections with ids
of their own the two never drift apart: there is a session exactly while a link is attached, and
that link is open. A session keeps its peer, and it ends by the peer's bye over the attached link or
with that link, so a host without connections is free for any controller.
-/

namespace DeviceConnector

namespace Host

variable {h h' : Host} {body : Bytes} {link : Link}

theorem dismissed_peer (h : Host) (m : Message) :
    (h.dismissed m).peer = none ∧ (h.dismissed m).attached = none := by
  obtain ⟨vdcStates, eq⟩ := dismissed_eq h m
  rw [eq]
  exact ⟨rfl, rfl⟩

theorem answered_peer (h : Host) (id : MessageId) (callback : Callback)
    (response : GenericResponse) :
    (h.answered id callback response).peer = h.peer ∧
    (h.answered id callback response).attached = h.attached := by
  obtain ⟨vdcStates, answers, eq⟩ := answered_eq h id callback response
  rw [eq]
  exact ⟨rfl, rfl⟩

/-- What ends the session of a peer: its bye over the attached link, or the end of that link. -/
def Ends (h : Host) (peer : Dsuid) : Operation → Prop
  | .frame link body => h.attached = some link ∧
      ∃ m, h.Reads body m ∧ m.type = .bye ∧ m.bye.bind EntityRef.target? = some peer
  | .detach id => ∃ link, h.attached = some link ∧ link.id = id
  | _ => False

theorem detach_peer (h : Host) (id : Nat) :
    (h.detach id).2 = h ∧ (∀ link, h.attached = some link → link.id ≠ id) ∨
    (h.detach id).2.peer = none ∧ (h.detach id).2.attached = none ∧
      ∃ link, h.attached = some link ∧ link.id = id := by
  rcases detach_cases h id with unchanged | ⟨own, eq⟩
  · exact Or.inl unchanged
  · obtain ⟨vdcStates, same⟩ := disconnectVdcs_eq { h with session := none, attached := none }
    rw [eq, same]
    exact Or.inr ⟨rfl, rfl, own⟩

theorem frame_peer (h : Host) (link : Link) (body : Bytes) :
    (h.perform (.frame link body)).peer = (h.handleBody body link).2.peer ∧
    (h.perform (.frame link body)).attached = (h.handleBody body link).2.attached := by
  obtain ⟨due, sent⟩ := processFrame_sentFrom h body link
  exact ⟨sent.peer, sent.attached⟩

/-- A body keeps session and link together, and attaches no link but its own. -/
theorem Handling.carried {after : Host} (effect : Handling h body link after)
    (carried : h.peer = none ↔ h.attached = none) :
    (after.peer = none ↔ after.attached = none) ∧
    ∀ l, after.attached = some l → l = link ∨ h.attached = some l := by
  cases effect with
  | silent => exact ⟨carried, fun l attached => Or.inr attached⟩
  | established => exact ⟨by simp [peer], fun l attached => Or.inl (by simpa using attached.symm)⟩
  | renewed session renews =>
    exact ⟨by simp [peer, renews.held], fun l attached => Or.inl (by simpa using attached.symm)⟩
  | ended m =>
    obtain ⟨free, loose⟩ := dismissed_peer h m
    exact ⟨by simp [free, loose], by simp [loose]⟩
  | answered id request response =>
    obtain ⟨peer, attached⟩ := answered_peer h id request.callback response
    rw [peer, attached]
    exact ⟨carried, fun l attached => Or.inr attached⟩

/-- A body ends a session only as a bye of its peer over the link with the attached one's id, and
otherwise leaves it to its peer. -/
theorem Handling.held {after : Host} (effect : Handling h body link after) {session : Session}
    (held : h.session = some session) :
    after.peer = some session.peer ∨
    after.peer = none ∧ ∃ m carrier, h.Reads body m ∧ m.type = .bye ∧
      m.bye.bind EntityRef.target? = some session.peer ∧ h.attached = some carrier ∧
      carrier.id = link.id := by
  have kept : h.peer = some session.peer := by simp [peer, held]
  cases effect with
  | silent => exact Or.inl kept
  | established m peer reads type valid free => simp [held] at free
  | renewed => exact Or.inl kept
  | ended m session' carrier reads type named held' carried same =>
    obtain rfl : session = session' := by simpa [held] using held'
    exact Or.inr ⟨(dismissed_peer h m).1, m, carrier, reads, type, named, carried, same⟩
  | answered id request response =>
    exact Or.inl ((answered_peer h id request.callback response).1.trans kept)

theorem handleBody_bye {session : Session} {carrier : Link} {m : Message} (reads : h.Reads body m)
    (type : m.type = .bye) (named : m.bye.bind EntityRef.target? = some session.peer)
    (held : h.session = some session) (carried : h.attached = some carrier)
    (same : carrier.id = link.id) : (h.handleBody body link).2 = h.dismissed m := by
  have dismisses : h.Dismisses m link := ⟨⟨session, held, named⟩, ⟨carrier, carried, same⟩⟩
  rw [handleBody_of_reads reads]
  simp only [receive, type, receiveBye_of_dismisses dismisses]

theorem handleBody_hello {peer : Dsuid} {m : Message} (reads : h.Reads body m)
    (type : m.type = .requestHello) (valid : Session.checkHello m.id m.helloRequest = .ok peer)
    (free : h.session = none) : (h.handleBody body link).2 =
      { h with session := some { peer }, attached := some link, announcePending := true } := by
  rw [handleBody_of_reads reads]
  simp [receive, type, receiveHello, Session.hello, valid, free, HelloOutcome.rejection?]

end Host

namespace Site

open Host

variable {s : Site} {op : Operation}

structure Carried (s : Site) : Prop where
  together : s.host.peer = none ↔ s.host.attached = none
  opened : ∀ link, s.host.attached = some link → link ∈ s.links

theorem carried_initial (config : HostConfig) (codec : BodyCodec) :
    Carried (initial config codec) := by
  constructor <;> simp [initial, Host.new, Host.peer]

theorem carried_of_quiet (h : Carried s) (quiet : ¬ IsTraffic op)
    (links : ∀ link ∈ s.links, link ∈ (s.next op).links) : Carried (s.next op) := by
  obtain ⟨peer, attached, -⟩ := perform_undisturbed (h := s.host) quiet
  constructor
  · rw [next_host, peer, attached]
    exact h.together
  · intro link carries
    rw [next_host, attached] at carries
    exact links link (h.opened link carries)

theorem carried_step (h : Carried s)
    (opened : ∀ link body, op = .frame link body → link ∈ s.links) :
    Carried (s.next op) := by
  cases op with
  | connect id => exact carried_of_quiet h (fun traffic => traffic) fun _ => List.mem_cons_of_mem _
  | frame link body =>
    obtain ⟨peer, attached⟩ := frame_peer s.host link body
    obtain ⟨together, own⟩ := (handleBody_handling s.host body link).carried h.together
    constructor
    · exact (peer ▸ attached ▸ together :)
    · intro l carries
      rcases own l (attached ▸ carries) with rfl | carries
      · exact opened l body rfl
      · exact h.opened l carries
  | detach id =>
    constructor
    · rcases detach_peer s.host id with ⟨eq, -⟩ | ⟨free, loose, -⟩
      · exact (eq ▸ h.together :)
      · exact iff_of_true free loose
    · intro l carries
      rcases detach_peer s.host id with ⟨eq, other⟩ | ⟨-, loose, -⟩
      · have carries : s.host.attached = some l := eq ▸ carries
        exact List.mem_filter.2 ⟨h.opened l carries, by simpa using other l carries⟩
      · cases loose.symm.trans carries
  | closeQueue | create | addVdc | addDevice | removeDevice | send | notify | evict | wait =>
    exact carried_of_quiet h (fun traffic => traffic) fun _ mem => mem

structure Coherent (s : Site) : Prop extends Carried s where
  distinct : ∀ a ∈ s.links, ∀ b ∈ s.links, a.id = b.id → a = b

theorem distinct_step (h : Coherent s) (wired : Wired s op) :
    ∀ a ∈ (s.next op).links, ∀ b ∈ (s.next op).links, a.id = b.id → a = b := by
  intro a ha b hb same
  cases op with
  | connect id =>
    rcases List.mem_cons.1 ha with rfl | ha
    · rcases List.mem_cons.1 hb with rfl | hb
      · rfl
      · exact absurd same.symm (wired b hb)
    · rcases List.mem_cons.1 hb with rfl | hb
      · exact absurd same (wired a ha)
      · exact h.distinct a ha b hb same
  | detach id => exact h.distinct a (List.mem_filter.1 ha).1 b (List.mem_filter.1 hb).1 same
  | frame | closeQueue | create | addVdc | addDevice | removeDevice | send | notify | evict
  | wait => exact h.distinct a ha b hb same

theorem coherent_step (h : Coherent s) (wired : Wired s op) : Coherent (s.next op) where
  toCarried := carried_step h.toCarried fun link body eq => by subst eq; exact wired
  distinct := distinct_step h wired

theorem reachable_coherent {config : HostConfig} {codec : BodyCodec}
    (reachable : Reachable Wired config codec s) : Coherent s :=
  reachable_induction ⟨carried_initial config codec, by simp [initial]⟩ (fun _ _ => coherent_step)
    reachable

/-- A session ends by what ends it and by nothing else, and meanwhile it keeps its peer. -/
theorem session_step (h : Coherent s) (wired : Wired s op) {session : Session}
    (held : s.host.session = some session) :
    (Ends s.host session.peer op →
      (s.next op).host.session = none ∧ (s.next op).host.attached = none) ∧
    (¬ Ends s.host session.peer op → (s.next op).host.peer = some session.peer) := by
  have kept : s.host.peer = some session.peer := by simp [Host.peer, held]
  by_cases traffic : IsTraffic op
  · cases op with
    | frame link body =>
      obtain ⟨peer, attached⟩ := frame_peer s.host link body
      constructor
      · rintro ⟨carried, m, reads, type, named⟩
        have effect := handleBody_bye reads type named held carried rfl
        obtain ⟨free, loose⟩ := dismissed_peer s.host m
        rw [effect] at peer attached
        exact ⟨peer_eq_none.1 (peer.trans free), attached.trans loose⟩
      · intro lasting
        rcases (handleBody_handling s.host body link).held held with same |
          ⟨-, m, carrier, reads, type, named, carried, same⟩
        · exact peer.trans same
        · obtain rfl := h.distinct carrier (h.opened carrier carried) link wired same
          exact absurd ⟨carried, m, reads, type, named⟩ lasting
    | detach id =>
      rcases detach_peer s.host id with ⟨eq, other⟩ | ⟨free, loose, own⟩
      · constructor
        · rintro ⟨link, carried, same⟩
          exact absurd same (other link carried)
        · intro _
          exact (congrArg Host.peer eq).trans kept
      · exact ⟨fun _ => ⟨peer_eq_none.1 free, loose⟩, fun lasting => absurd own lasting⟩
    | _ => exact traffic.elim
  · refine ⟨fun ends => ?_, fun _ => (perform_undisturbed traffic).peer.trans kept⟩
    cases op with
    | frame | detach => exact absurd trivial traffic
    | _ => exact ends.elim

/-- Session and link never drift apart: a session exists exactly while a link is attached, and that
link is open; a session keeps its peer until the peer's bye over the attached link or the end of
that link ends it; and without open connections the host takes any controller on a new link. -/
theorem session_bound_to_link {config : HostConfig} {codec : BodyCodec}
    (reachable : Reachable Wired config codec s) :
    (s.host.session.isSome ↔ s.host.attached.isSome) ∧
    (∀ link, s.host.attached = some link → link ∈ s.links) ∧
    (∀ session op, s.host.session = some session → Wired s op →
      ((s.next op).host.session = none ↔ Ends s.host session.peer op) ∧
      (¬ Ends s.host session.peer op →
        ∃ later, (s.next op).host.session = some later ∧ later.peer = session.peer)) ∧
    (s.links = [] → s.host.session = none ∧
      ∀ id body m peer, s.host.Reads body m → m.type = .requestHello →
        Session.checkHello m.id m.helloRequest = .ok peer →
        (Session.hello s.host.session m.id m.helloRequest).1 = .established peer ∧
        ∃ session, ((s.next (.connect id)).next
            (.frame (s.host.openLink id).1 body)).host.session = some session ∧
          session.peer = peer ∧
          ((s.next (.connect id)).next (.frame (s.host.openLink id).1 body)).host.attached =
            some (s.host.openLink id).1) := by
  have coherent := reachable_coherent reachable
  refine ⟨?_, coherent.opened, ?_, ?_⟩
  · have carried := coherent.together
    rw [peer_eq_none] at carried
    rw [Option.isSome_iff_ne_none, Option.isSome_iff_ne_none]
    exact not_congr carried
  · intro session op held wired
    obtain ⟨ending, lasting⟩ := session_step coherent wired held
    refine ⟨⟨fun gone => ?_, fun ends => (ending ends).1⟩, fun lasts => ?_⟩
    · by_cases ends : Ends s.host session.peer op
      · exact ends
      · have kept := lasting ends
        rw [peer_eq_none.2 gone] at kept
        cases kept
    · exact Option.map_eq_some_iff.1 (lasting lasts)
  · intro none_open
    have loose : s.host.attached = none := by
      cases attached : s.host.attached with
      | none => rfl
      | some link => simpa [none_open] using coherent.opened link attached
    have free : s.host.session = none := peer_eq_none.1 (coherent.together.2 loose)
    refine ⟨free, fun id body m peer reads type valid => ?_⟩
    refine ⟨by simp [Session.hello, valid, free], ?_⟩
    have reads' : (s.host.openLink id).2.Reads body m :=
      ⟨reads.nonempty, reads.fits, reads.decodes⟩
    obtain ⟨same, attached⟩ := frame_peer (s.host.openLink id).2 (s.host.openLink id).1 body
    rw [handleBody_hello reads' type valid free] at same attached
    obtain ⟨session, held, named⟩ := Option.map_eq_some_iff.1 same
    exact ⟨session, held, named, attached⟩

def renewal : List Operation :=
  [.connect 1, .frame ⟨1, 0⟩ (Message.helloOf (.ofUuid 1) 3 1).encode,
    .connect 2, .frame ⟨2, 1⟩ (Message.helloOf (.ofUuid 1) 3 2).encode, .detach 1,
    .frame ⟨2, 1⟩ (Message.helloOf (.ofUuid 2) 3 1).encode, .detach 2]

theorem session_bound_to_link_renewal :
    Reachable Wired {} .json ((initial {} .json).run renewal) ∧
    ((initial {} .json).run renewal).host.session = none ∧
    ∃ session, ((((initial {} .json).run renewal).next (.connect 3)).next
        (.frame ⟨3, 2⟩ (Message.helloOf (.ofUuid 2) 3 1).encode)).host.session = some session ∧
      session.peer = .ofUuid 2 := by
  have reachable : Reachable Wired {} .json ((initial {} .json).run renewal) :=
    Execution.run (.refl _) (by decide +kernel)
  obtain ⟨-, -, -, free⟩ := session_bound_to_link reachable
  obtain ⟨gone, fresh⟩ := free (by decide +kernel)
  have reads : ((initial {} .json).run renewal).host.Reads
      (Message.helloOf (.ofUuid 2) 3 1).encode (Message.helloOf (.ofUuid 2) 3 1) := by
    rw [run_host]
    exact run_reads renewal ⟨by decide +kernel, by decide +kernel, rfl⟩
  obtain ⟨-, session, held, named, -⟩ := fresh 3 _ _ (.ofUuid 2) reads rfl rfl
  have link : (((initial {} .json).run renewal).host.openLink 3).1 = ⟨3, 2⟩ := by decide +kernel
  rw [link] at held
  exact ⟨reachable, gone, session, held, named⟩

end Site

end DeviceConnector
