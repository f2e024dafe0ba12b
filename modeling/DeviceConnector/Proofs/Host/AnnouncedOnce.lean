import DeviceConnector.Proofs.Host.Announcement
/-!
# A vDC is announced once in a session

The host remembers neither what it has announced nor to whom: a fresh session is told of the
registered vDCs, and a vDC that is accepted later announces itself. The vDCs that a session has been
told of are a list that only these two events extend, and the queued announcements are those of the
list, under the ids of the session.
-/

namespace DeviceConnector.Site

open Host

variable {s : Site} {op : Operation} {session : Session} {due : List Vdc} {link : Link}
  {body : Bytes}

/-- Frames arrive over open connections, the queue of an open connection is drained, and the
application leaves sending to the host. -/
def Orderly (s : Site) : Operation → Prop
  | .frame link _ => link ∈ s.links
  | .closeQueue link => link.queue < s.host.queues ∧ ∀ l ∈ s.links, l.queue ≠ link.queue
  | .send .. | .notify _ => False
  | op => Honest s op

instance (s : Site) : ∀ op, Decidable (Orderly s op)
  | .frame link _ => inferInstanceAs (Decidable (link ∈ s.links))
  | .closeQueue link => inferInstanceAs (Decidable
    (link.queue < s.host.queues ∧ ∀ l ∈ s.links, l.queue ≠ link.queue))
  | .send .. | .notify _ => isFalse id
  | .connect id => inferInstanceAs (Decidable (Honest s (.connect id)))
  | .detach id => inferInstanceAs (Decidable (Honest s (.detach id)))
  | .create kind dsuid name => inferInstanceAs (Decidable (Honest s (.create kind dsuid name)))
  | .addVdc vdc => inferInstanceAs (Decidable (Honest s (.addVdc vdc)))
  | .addDevice vdc device => inferInstanceAs (Decidable (Honest s (.addDevice vdc device)))
  | .removeDevice vdc dsuid => inferInstanceAs (Decidable (Honest s (.removeDevice vdc dsuid)))
  | .evict => inferInstanceAs (Decidable (Honest s .evict))
  | .wait time => inferInstanceAs (Decidable (Honest s (.wait time)))

theorem Orderly.honest (orderly : Orderly s op) : Honest s op := by
  cases op with
  | create | addVdc | addDevice | removeDevice => exact orderly
  | _ => trivial

structure Served (s : Site) : Prop where
  codec : s.host.codec = .json
  large : 256 ≤ s.host.config.maxMessageSize
  closed : ∀ queue ∈ s.host.closedQueues, queue < s.host.queues
  numbered : ∀ link ∈ s.links, link.queue < s.host.queues
  drained : ∀ link ∈ s.links, link.queue ∉ s.host.closedQueues

theorem Served.isClosed (h : Served s) (opened : link ∈ s.links) :
    s.host.isClosed link = false := by
  simpa [Host.isClosed] using h.drained link opened

def announcements (s : Site) : List Message :=
  (s.host.outbox.drop s.mark).filterMap fun queued => s.host.codec.announcement? queued.body

/-- The session has been told of vDCs, in this order, and of nothing else. -/
structure Told (s : Site) (session : Session) (due : List Vdc) : Prop where
  bound : s.mark ≤ s.host.outbox.length
  announcements : s.announcements = announced 0 due
  handed : session.lastId = Session.idAt due.length
  accepted : ∀ vdc ∈ due, vdc ∈ s.accepted
  once : ∀ vdc ∈ s.accepted, s.Lasting vdc.dsuid → (due.map (·.dsuid)).count vdc.dsuid = 1
  most : ∀ dsuid, (due.map (·.dsuid)).count dsuid ≤ (s.accepted.map (·.dsuid)).count dsuid

theorem lasting_of_next {dsuid : Dsuid} (lasting : (s.next op).Lasting dsuid) : s.Lasting dsuid :=
  fun gone mem => lasting gone (mem_withdrawn_next mem op)

theorem filterMap_silent {bodies : List Queued} (silent : Silent bodies) :
    bodies.filterMap (BodyCodec.json.announcement? ·.body) = [] :=
  List.filterMap_eq_nil_iff.2 silent

/-- In a session the announcements grow by those that are queued. -/
theorem announcements_next {more : List Queued} (served : Served s)
    (held : s.host.session = some session) (bound : s.mark ≤ s.host.outbox.length)
    (queued : (s.next op).host.outbox = s.host.outbox ++ more) :
    (s.next op).announcements =
      s.announcements ++ more.filterMap (BodyCodec.json.announcement? ·.body) := by
  have mark : (s.next op).mark = s.mark := by simp [next, held]
  have codec : (s.next op).host.codec = .json := by
    rw [next_host, (perform_setup s.host op).2, served.codec]
  rw [announcements, announcements, mark, codec, queued, served.codec,
    List.drop_append_of_le_length bound, List.filterMap_append]

/-- A session that goes on in silence is told of nothing new. -/
theorem Told.silent {more : List Queued} (told : Told s session due)
    (served : Served s) (held : s.host.session = some session)
    (queued : (s.next op).host.outbox = s.host.outbox ++ more) (silent : Silent more)
    (accepted : (s.next op).accepted = s.accepted) : Told (s.next op) session due where
  bound := by
    have mark : (s.next op).mark = s.mark := by simp [next, held]
    rw [mark, queued, List.length_append]
    exact Nat.le_add_right_of_le told.bound
  announcements := by
    rw [announcements_next served held told.bound queued, filterMap_silent silent, List.append_nil]
    exact told.announcements
  handed := told.handed
  accepted vdc mem := by
    rw [accepted]
    exact told.accepted vdc mem
  once vdc mem lasting := by
    rw [accepted] at mem
    exact told.once vdc mem (lasting_of_next lasting)
  most dsuid := by
    rw [accepted]
    exact told.most dsuid

theorem Told.countP (told : Told s session due) (roster : Roster s) (dsuid : Dsuid) :
    s.announcements.countP (·.announces dsuid) = (due.map (·.dsuid)).count dsuid := by
  rw [told.announcements]
  exact countP_announced (fun vdc mem =>
    roster.uuids vdc (roster.accepted vdc (told.accepted vdc mem))) dsuid

end DeviceConnector.Site
