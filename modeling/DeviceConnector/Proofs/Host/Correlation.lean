import DeviceConnector.Proofs.Host.Outbox
import DeviceConnector.Proofs.Host.VdcConnection
/-!
# A response belongs to the last request

Every session hands out the same ids again, and requests of earlier sessions may still wait for an
answer. But a request that is transmitted takes the place of what waited under its id, so whatever
waits under an id is the request that was transmitted last under it, in any session. A response
never reaches an older one.
-/

namespace DeviceConnector

structure SentRequest where
  message : Message
  callback : Callback
  deriving DecidableEq, Repr

namespace SentRequest

def latest? (log : List SentRequest) (id : MessageId) : Option SentRequest :=
  log.reverse.find? (·.message.requestId? = some id)

variable {log : List SentRequest} {request : SentRequest} {id : MessageId}

theorem latest?_append (log more : List SentRequest) (id : MessageId) :
    latest? (log ++ more) id = (latest? more id).or (latest? log id) := by
  simp [latest?, List.find?_append]

theorem latest?_singleton_self (named : request.message.requestId? = some id) :
    latest? [request] id = some request := by
  simp [latest?, named]

theorem latest?_singleton_of_ne (other : request.message.requestId? ≠ some id) :
    latest? [request] id = none := by
  simp [latest?, other]

theorem mem_of_latest? (last : latest? log id = some request) : request ∈ log :=
  List.mem_reverse.1 (List.mem_of_find?_eq_some last)

theorem named_of_latest? (last : latest? log id = some request) :
    request.message.requestId? = some id := by
  simpa using List.find?_some last

/-- A request that is to connect a vDC announces it. -/
def Genuine (request : SentRequest) : Prop :=
  ∀ object, request.callback = .announcement object →
    ∃ (vdc : Vdc) (id : MessageId), vdc.object = object ∧
      request.message = .announceOf vdc.dsuid id

end SentRequest

namespace Host

open SentRequest

variable {h h₁ h₂ h₃ : Host} {log more : List SentRequest} {op : Operation} {link : Link}
  {body : Bytes} {m : Message} {callback : Callback}

def sentBy (h : Host) (m : Message) (callback : Callback) : List SentRequest :=
  match (h.send m callback).1 with
  | .ok _ => [⟨m, callback⟩]
  | .error _ => []

def announcedBy (h : Host) (vdc : Vdc) : List SentRequest :=
  if (h.vdcState vdc.object).attached then
    match h.allocateId with
    | (.ok id, h) => h.sentBy (.announceOf vdc.dsuid id) (.announcement vdc.object)
    | (.error _, _) => []
  else []

def announcedByAll (h : Host) : List Vdc → List SentRequest
  | [] => []
  | vdc :: vdcs => h.announcedBy vdc ++ (h.announce vdc).2.announcedByAll vdcs

def flushedBy (h : Host) : List SentRequest :=
  if h.announcePending then
    { h with announcePending := false }.announcedByAll h.registry.vdcs
  else []

def requests (h : Host) : Operation → List SentRequest
  | .frame link body =>
    let (reply, h) := h.handleBody body link
    match h.queueReply link reply with
    | .ok h => h.flushedBy
    | .error _ => []
  | .addVdc vdc =>
    if h.registry.contains vdc.dsuid then []
    else if h.isConnected then (h.admitted vdc).announcedBy vdc else []
  | .send m tag => h.sentBy m (.application tag)
  | _ => []

def requestsOf (h : Host) : List Operation → List SentRequest
  | [] => []
  | op :: operations => h.requests op ++ (h.perform op).requestsOf operations

/-- What waits in the second host is the last of these requests under its id, or there is none of
them under its id and it has waited in the first host. -/
def Follows (h₁ h₂ : Host) (log : List SentRequest) : Prop :=
  ∀ id request, h₂.pending.find? id = some request →
    (∃ sent, latest? log id = some sent ∧ sent.callback = request.callback) ∨
    latest? log id = none ∧ h₁.pending.find? id = some request

theorem Follows.silent
    (fewer : ∀ id request, h₂.pending.find? id = some request →
      h₁.pending.find? id = some request) : Follows h₁ h₂ [] :=
  fun id request found => Or.inr ⟨rfl, fewer id request found⟩

theorem Follows.of_pending_eq (same : h₂.pending = h₁.pending) : Follows h₁ h₂ [] :=
  .silent fun _ _ found => same ▸ found

theorem Follows.trans (first : Follows h₁ h₂ log) (second : Follows h₂ h₃ more) :
    Follows h₁ h₃ (log ++ more) := by
  intro id request found
  rw [latest?_append]
  rcases second id request found with ⟨sent, last, own⟩ | ⟨none, before⟩
  · exact Or.inl ⟨sent, by rw [last, Option.some_or], own⟩
  · rw [none, Option.none_or]
    exact first id request before

structure Transmits (h₁ h₂ : Host) (log : List SentRequest) : Prop where
  follows : Follows h₁ h₂ log
  queued : ∃ bodies, h₂.outbox = h₁.outbox ++ bodies ∧
    bodies.map (Except.ok ·.body) = log.map (h₁.codec.encode ·.message)
  codec : h₂.codec = h₁.codec

theorem Transmits.silent (pending : h₂.pending = h₁.pending) (outbox : h₂.outbox = h₁.outbox)
    (codec : h₂.codec = h₁.codec) : Transmits h₁ h₂ [] where
  follows := .of_pending_eq pending
  queued := ⟨[], by rw [outbox, List.append_nil], rfl⟩
  codec := codec

theorem Transmits.trans (first : Transmits h₁ h₂ log) (second : Transmits h₂ h₃ more) :
    Transmits h₁ h₃ (log ++ more) := by
  obtain ⟨bodies, eq, own⟩ := first.queued
  obtain ⟨later, eq', own'⟩ := second.queued
  refine ⟨first.follows.trans second.follows, ⟨bodies ++ later, ?_, ?_⟩,
    second.codec.trans first.codec⟩
  · rw [eq', eq, List.append_assoc]
  · rw [List.map_append, List.map_append, own, own', first.codec]

theorem send_transmits (h : Host) (m : Message) (callback : Callback) :
    Transmits h (h.send m callback).2 (h.sentBy m callback) := by
  unfold sentBy
  rcases RequestTable.send_cases h.pending carrier h m callback h.clock with
    ⟨id, h', admits, sent, eq⟩ | ⟨id, e, admits, -, eq⟩ | ⟨-, e, eq⟩
  · obtain ⟨link, body, -, encoded, -, -, rfl⟩ := transmit_ok sent
    have done : h.send m callback = (.ok id, { h with
        pending := h.pending.insert id ⟨callback, h.clock⟩
        outbox := h.outbox ++ [⟨link, body⟩] }) := by simp only [send, eq]
    have named := RequestTable.requestId?_eq_some.2 ⟨admits.named, admits.nonzero⟩
    rw [done]
    refine ⟨?_, ⟨[⟨link, body⟩], rfl, by simp [encoded]⟩, rfl⟩
    -- the request displaces what waited under its id and nothing else
    intro other request found
    dsimp only at found ⊢
    by_cases same : other = id
    · subst same
      rw [Table.find?_insert_self] at found
      obtain rfl := Option.some.inj found
      exact Or.inl ⟨⟨m, callback⟩, latest?_singleton_self named, rfl⟩
    · rw [Table.find?_insert_of_ne _ same] at found
      have stray : m.requestId? ≠ some other := by
        rw [named]
        simpa using Ne.symm same
      exact Or.inr ⟨latest?_singleton_of_ne stray, found⟩
  · have done : h.send m callback = (.error e, { h with
        pending := (h.pending.insert id ⟨callback, h.clock⟩).erase id }) := by simp only [send, eq]
    rw [done]
    refine ⟨.silent ?_, ⟨[], (List.append_nil _).symm, rfl⟩, rfl⟩
    intro other request found
    obtain ⟨ne, kept⟩ := Table.find?_erase found
    rwa [Table.find?_insert_of_ne _ ne] at kept
  · have done : h.send m callback = (.error e, h) := by simp only [send, eq]
    rw [done]
    exact .silent rfl rfl rfl

theorem allocateId_transmits (h : Host) : Transmits h h.allocateId.2 [] := by
  unfold allocateId
  split <;> exact .silent rfl rfl rfl

theorem announce_transmits (h : Host) (vdc : Vdc) :
    Transmits h (h.announce vdc).2 (h.announcedBy vdc) := by
  have allocated := allocateId_transmits h
  unfold announcedBy announce
  split_ifs with attached
  · rcases eq : h.allocateId with ⟨e | id, after⟩
    all_goals rw [eq] at allocated
    · exact allocated
    · exact allocated.trans (send_transmits after _ _)
  · exact .silent rfl rfl rfl

theorem announceAll_transmits (h : Host) (vdcs : List Vdc) :
    Transmits h (h.announceAll vdcs).2 (h.announcedByAll vdcs) := by
  induction vdcs generalizing h with
  | nil => exact .silent rfl rfl rfl
  | cons vdc vdcs ih => exact (announce_transmits h vdc).trans (ih _)

theorem flushAnnouncements_transmits (h : Host) :
    Transmits h h.flushAnnouncements.2 h.flushedBy := by
  unfold flushAnnouncements flushedBy announceVdcs
  split_ifs with due
  · have settled : Transmits h { h with announcePending := false } [] := .silent rfl rfl rfl
    exact settled.trans (announceAll_transmits _ _)
  · exact .silent rfl rfl rfl

theorem Handling.follows {after : Host} (effect : Handling h body link after) :
    Follows h after [] := by
  cases effect with
  | silent | established | renewed => exact .of_pending_eq rfl
  | ended m =>
    obtain ⟨vdcStates, eq⟩ := dismissed_eq h m
    exact .of_pending_eq (by rw [eq])
  | answered id request response =>
    obtain ⟨vdcStates, answers, eq⟩ := answered_eq h id request.callback response
    rw [eq]
    exact .silent fun _ _ found => (Table.find?_erase found).2

theorem notify_pending (sent : h₁.notify m = .ok h₂) : h₂.pending = h₁.pending := by
  unfold notify at sent
  split_ifs at sent
  obtain ⟨link, body, -, -, -, -, rfl⟩ := transmit_ok sent
  rfl

theorem vanish_pending (h : Host) (vdc : Vdc) (dsuid : Dsuid) :
    (h.vanish vdc dsuid).2.pending = h.pending := by
  simp only [vanish]
  split_ifs
  · cases sent : h.notify (.vanishOf dsuid) with
    | ok h' => exact notify_pending sent
    | error e => rfl
  · rfl

theorem addVdc_transmits (h : Host) (vdc : Vdc) :
    Transmits h (h.addVdc vdc).2 (h.requests (.addVdc vdc)) := by
  rw [addVdc_eq, requests]
  have admitted : Transmits h (h.admitted vdc) [] := .silent rfl rfl rfl
  split_ifs with taken connected
  · exact .silent rfl rfl rfl
  · exact admitted.trans (announce_transmits _ vdc)
  · exact admitted

def Notifies : Operation → Prop
  | .removeDevice .. | .notify _ => True
  | _ => False

/-- Queueing the reply, an operation only takes requests out of the table; then it transmits its
own. -/
theorem perform_transmits (h : Host) (quiet : ¬ Notifies op) :
    ∃ before, before.outbox = h.outbox ++ h.replyTo op ∧ before.codec = h.codec ∧
      Follows h before [] ∧ Transmits before (h.perform op) (h.requests op) := by
  have unreplied {other : Operation} (none : h.replyTo other = [])
      (sent : Transmits h (h.perform other) (h.requests other)) :
      ∃ before, before.outbox = h.outbox ++ h.replyTo other ∧ before.codec = h.codec ∧
        Follows h before [] ∧ Transmits before (h.perform other) (h.requests other) :=
    ⟨h, by rw [none, List.append_nil], rfl, .of_pending_eq rfl, sent⟩
  cases op with
  | removeDevice | notify => exact absurd trivial quiet
  | connect | closeQueue | create | wait => exact unreplied rfl (.silent rfl rfl rfl)
  | addVdc vdc => exact unreplied rfl (addVdc_transmits h vdc)
  | send m tag => exact unreplied rfl (send_transmits h m (.application tag))
  | addDevice vdc device =>
    apply unreplied rfl
    change Transmits h (h.addDevice vdc device).2 []
    rcases addDevice_cases h vdc device with eq | eq | eq
    all_goals rw [eq]; exact .silent rfl rfl rfl
  | detach id =>
    apply unreplied rfl
    change Transmits h (h.detach id).2 []
    rcases detach_cases h id with ⟨eq, -⟩ | ⟨-, eq⟩
    · rw [eq]
      exact .silent rfl rfl rfl
    · obtain ⟨vdcStates, same⟩ := disconnectVdcs_eq { h with session := none, attached := none }
      rw [eq, same]
      exact .silent rfl rfl rfl
  | evict =>
    apply unreplied rfl
    change Transmits h h.evictExpired.2 []
    unfold evictExpired
    split
    · exact .silent rfl rfl rfl
    · exact ⟨.silent fun _ _ found => (Table.find?_filter.1 found).1,
        ⟨[], (List.append_nil _).symm, rfl⟩, rfl⟩
  | frame link body =>
    have effect := handleBody_handling h body link
    cases queued : (h.handleBody body link).2.queueReply link (h.handleBody body link).1 with
    | error e =>
      have shut : h.isClosed link = true := by
        have closed := queueReply_error queued
        rwa [effect.rest] at closed
      have idle : Transmits (h.handleBody body link).2 (h.perform (.frame link body))
          (h.requests (.frame link body)) := by
        simpa only [perform, processFrame, requests, queued] using .silent rfl rfl rfl
      refine ⟨_, ?_, ?_, effect.follows, idle⟩
      · rw [replyTo, if_pos shut, List.append_nil, effect.rest]
      · rw [effect.rest]
    | ok settled =>
      have replied : Follows (h.handleBody body link).2 settled [] :=
        .of_pending_eq (by rw [(queueReply_ok queued).1])
      have flushed : Transmits settled (h.perform (.frame link body))
          (h.requests (.frame link body)) := by
        simpa only [perform, processFrame, requests, queued] using
          flushAnnouncements_transmits settled
      refine ⟨settled, settled_outbox queued, ?_, effect.follows.trans replied, flushed⟩
      rw [(queueReply_ok queued).1, effect.rest]

/-- What waits after an operation is the last request that it transmits under the id, or has waited
before it. -/
theorem perform_follows (h : Host) (op : Operation) :
    Follows h (h.perform op) (h.requests op) := by
  by_cases notifies : Notifies op
  · cases op with
    | removeDevice vdc dsuid =>
      apply Follows.of_pending_eq
      rw [perform]
      cases found : h.device? vdc dsuid with
      | none => rw [removeDevice_of_missing found]
      | some device =>
        rw [removeDevice_eq found]
        exact vanish_pending _ vdc dsuid
    | notify m =>
      apply Follows.of_pending_eq
      rw [perform]
      cases sent : h.notify m with
      | error e => rfl
      | ok h' => exact notify_pending sent
    | _ => exact notifies.elim
  · obtain ⟨before, -, -, kept, sent⟩ := perform_transmits h notifies
    exact kept.trans sent.follows

/-- The requests are what an operation queues, replies and notices apart. -/
theorem unprompted_requests (h : Host) (quiet : ¬ Notifies op) :
    (h.unprompted op).map (Except.ok ·.body) = (h.requests op).map (h.codec.encode ·.message) := by
  obtain ⟨before, outbox, codec, -, sent⟩ := perform_transmits h quiet
  obtain ⟨bodies, eq, own⟩ := sent.queued
  rw [unprompted_eq (by rw [eq, outbox]), own, codec]

theorem run_follows (h : Host) (operations : List Operation) :
    Follows h (h.run operations) (h.requestsOf operations) := by
  induction operations generalizing h with
  | nil => exact .of_pending_eq rfl
  | cons op operations ih => exact (perform_follows h op).trans (ih _)

theorem sentBy_genuine (genuine : Genuine ⟨m, callback⟩) :
    ∀ sent ∈ h.sentBy m callback, Genuine sent := by
  intro sent mem
  unfold sentBy at mem
  split at mem
  · obtain rfl := List.mem_singleton.1 mem
    exact genuine
  · cases mem

theorem announcedBy_genuine (h : Host) (vdc : Vdc) : ∀ sent ∈ h.announcedBy vdc, Genuine sent := by
  intro sent mem
  unfold announcedBy at mem
  split_ifs at mem
  · split at mem
    · rename_i id after allocated
      refine sentBy_genuine ?_ sent mem
      rintro object same
      obtain rfl : vdc.object = object := Callback.announcement.inj same
      exact ⟨vdc, id, rfl, rfl⟩
    · cases mem
  · cases mem

theorem announcedByAll_genuine (h : Host) (vdcs : List Vdc) :
    ∀ sent ∈ h.announcedByAll vdcs, Genuine sent := by
  induction vdcs generalizing h with
  | nil => simp [announcedByAll]
  | cons vdc vdcs ih =>
    intro sent mem
    rcases List.mem_append.1 mem with mem | mem
    · exact announcedBy_genuine h vdc sent mem
    · exact ih _ sent mem

theorem requests_genuine (h : Host) (op : Operation) : ∀ sent ∈ h.requests op, Genuine sent := by
  intro sent mem
  cases op with
  | frame link body =>
    simp only [requests] at mem
    split at mem
    · unfold flushedBy at mem
      split_ifs at mem
      · exact announcedByAll_genuine _ _ sent mem
      · cases mem
    · cases mem
  | addVdc vdc =>
    simp only [requests] at mem
    split_ifs at mem
    · cases mem
    · exact announcedBy_genuine _ vdc sent mem
    · cases mem
  | send m tag =>
    refine sentBy_genuine ?_ sent mem
    intro object same
    cases same
  | _ => cases mem

theorem requestsOf_genuine (h : Host) (operations : List Operation) :
    ∀ sent ∈ h.requestsOf operations, Genuine sent := by
  induction operations generalizing h with
  | nil => simp [requestsOf]
  | cons op operations ih =>
    intro sent mem
    rcases List.mem_append.1 mem with mem | mem
    · exact requests_genuine h op sent mem
    · exact ih _ sent mem

/-- A response changes what is known of a vDC only by the callback that it runs. -/
theorem response_connected (reads : h.Reads body m) (type : m.type = .genericResponse)
    (object : ObjectId) :
    (h.perform (.frame link body)).isVdcConnected object = true ↔
      h.isVdcConnected object = true ∨ ∃ answer, (h.pending.answer m).1 = some answer ∧
        answer.callback = .announcement object ∧ answer.response.isOk = true := by
  obtain ⟨due, sent⟩ := processFrame_sentFrom h body link
  have settled : (h.perform (.frame link body)).isVdcConnected object =
      (h.handleBody body link).2.isVdcConnected object := sent.undisturbed.connected object
  rw [settled, handleBody_of_reads reads]
  simp only [receive, type, receiveResponse]
  rcases RequestTable.answer_cases h.pending m with
    ⟨id, request, response, -, -, -, eq⟩ | ⟨-, eq⟩
  · have answered := answered_connected h id request.callback response object
    rw [eq]
    simpa [Host.answered] using answered
  · simp [eq]

/-- The message confirms the announcement of a vDC: the request under its id still waits, and the
one that was transmitted last under it, whenever that was, is the announcement of the vDC. -/
structure Confirms (h : Host) (log : List SentRequest) (m : Message) (vdc : Vdc) (id : MessageId) :
    Prop where
  named : m.id = some id
  nonzero : id ≠ 0
  positive : ∃ response, m.response = some response ∧ response.code = some .ok
  waits : h.pending.contains id = true
  latest : latest? log id = some ⟨.announceOf vdc.dsuid id, .announcement vdc.object⟩

/-- Only requests of the log wait, each the last under its id, and its announcements are genuine. -/
structure Tracks (h : Host) (log : List SentRequest) : Prop where
  last : ∀ id request, h.pending.find? id = some request →
    ∃ sent, latest? log id = some sent ∧ sent.callback = request.callback
  genuine : ∀ sent ∈ log, Genuine sent

theorem run_tracks (config : HostConfig) (codec : BodyCodec) (operations : List Operation) :
    ((Host.new config codec).run operations).Tracks
      ((Host.new config codec).requestsOf operations) where
  last id request waits := by
    rcases run_follows (Host.new config codec) operations id request waits with last | ⟨-, before⟩
    · exact last
    · cases before
  genuine := requestsOf_genuine _ operations

/-- What a response runs is what the request asks for that was transmitted last under its id. -/
theorem Tracks.answer_latest (tracks : h.Tracks log) {answer : RequestTable.Answer Callback}
    (ran : (h.pending.answer m).1 = some answer) :
    ∃ id sent, m.id = some id ∧ latest? log id = some sent ∧ sent.callback = answer.callback := by
  rcases RequestTable.answer_cases h.pending m with
    ⟨id, request, response, responds, -, waits, eq⟩ | ⟨-, eq⟩
  · rw [eq] at ran
    obtain rfl := Option.some.inj ran
    obtain ⟨sent, last, own⟩ := tracks.last id request waits
    exact ⟨id, sent, responds.named, last, own⟩
  · rw [eq] at ran
    cases ran

theorem Tracks.confirms_iff (tracks : h.Tracks log) (object : ObjectId) :
    (∃ answer, (h.pending.answer m).1 = some answer ∧
      answer.callback = .announcement object ∧ answer.response.isOk = true) ↔
    ∃ vdc id, vdc.object = object ∧ h.Confirms log m vdc id := by
  constructor
  · rintro ⟨answer, ran, own, positive⟩
    rcases RequestTable.answer_cases h.pending m with
      ⟨id, request, response, responds, carried, waits, eq⟩ | ⟨-, eq⟩
    · rw [eq] at ran
      obtain rfl := Option.some.inj ran
      obtain ⟨⟨message, callback⟩, last, same⟩ := tracks.last id request waits
      obtain rfl : callback = .announcement object := same.trans own
      obtain ⟨vdc, id', rfl, announces⟩ := tracks.genuine _ (mem_of_latest? last) object rfl
      obtain rfl : message = .announceOf vdc.dsuid id' := announces
      obtain rfl : id' = id :=
        Option.some.inj (RequestTable.requestId?_eq_some.1 (named_of_latest? last)).1
      exact ⟨vdc, id', rfl, responds.named, responds.nonzero,
        ⟨response, carried, by simpa [GenericResponse.isOk] using positive⟩,
        by rw [Table.contains, waits]; rfl, last⟩
    · rw [eq] at ran
      cases ran
  · rintro ⟨vdc, id, rfl, named, nonzero, ⟨response, carried, positive⟩, waits, latest⟩
    obtain ⟨request, found⟩ := Option.isSome_iff_exists.1 waits
    obtain ⟨sent, last, own⟩ := tracks.last id request found
    obtain rfl := Option.some.inj (latest.symm.trans last)
    have responds : RequestTable.Responds m id :=
      ⟨named, nonzero, response, carried, by rw [positive]; rfl⟩
    rcases RequestTable.answer_cases h.pending m with
      ⟨id', request', response', responds', carried', found', eq⟩ | ⟨missing, -⟩
    · obtain rfl := responds.id_eq responds'
      obtain rfl := Option.some.inj (found.symm.trans found')
      obtain rfl := Option.some.inj (carried.symm.trans carried')
      exact ⟨_, by rw [eq], own.symm, by simp [GenericResponse.isOk, positive]⟩
    · cases (missing id responds).symm.trans found

theorem Confirms.object_eq {vdc other : Vdc} {id id' : MessageId}
    (confirms : h.Confirms log m vdc id) (again : h.Confirms log m other id') :
    vdc.object = other.object := by
  obtain rfl := Option.some.inj (confirms.named.symm.trans again.named)
  have same := Option.some.inj (confirms.latest.symm.trans again.latest)
  simp only [SentRequest.mk.injEq, Callback.announcement.injEq] at same
  exact same.2

/-- A response connects the vDC whose announcement it confirms and no other, and it disconnects
none. What it runs belongs to the request that was transmitted last under its id, in all the
sessions so far, and these requests are what has been queued besides replies and notices. -/
theorem response_connects_iff (config : HostConfig) (codec : BodyCodec)
    (operations : List Operation) (link : Link) (body : Bytes) (m : Message)
    (reads : ((Host.new config codec).run operations).Reads body m)
    (type : m.type = .genericResponse) :
    let h := (Host.new config codec).run operations
    let log := (Host.new config codec).requestsOf operations
    let after := h.perform (.frame link body)
    (∀ object, h.isVdcConnected object = true → after.isVdcConnected object = true) ∧
    (∀ object, after.isVdcConnected object ≠ h.isVdcConnected object ↔
      h.isVdcConnected object = false ∧ ∃ vdc id, vdc.object = object ∧ h.Confirms log m vdc id) ∧
    (∀ object other, after.isVdcConnected object ≠ h.isVdcConnected object →
      after.isVdcConnected other ≠ h.isVdcConnected other → object = other) ∧
    (∀ answer, (h.pending.answer m).1 = some answer → ∃ id sent,
      m.id = some id ∧ latest? log id = some sent ∧ sent.callback = answer.callback) ∧
    ∀ before op later, operations = before ++ op :: later → ¬ Notifies op →
      (((Host.new config codec).run before).unprompted op).map (Except.ok ·.body) =
        (((Host.new config codec).run before).requests op).map (codec.encode ·.message) := by
  intro h log after
  have tracks : h.Tracks log := run_tracks config codec operations
  have effect (object : ObjectId) : after.isVdcConnected object = true ↔
      h.isVdcConnected object = true ∨ ∃ vdc id, vdc.object = object ∧ h.Confirms log m vdc id := by
    rw [← tracks.confirms_iff]
    exact response_connected reads type object
  have changes (object : ObjectId) : after.isVdcConnected object ≠ h.isVdcConnected object ↔
      h.isVdcConnected object = false ∧
        ∃ vdc id, vdc.object = object ∧ h.Confirms log m vdc id := by
    cases before : h.isVdcConnected object with
    | true => simp [(effect object).2 (Or.inl before)]
    | false => simpa [before] using effect object
  refine ⟨fun object before => (effect object).2 (Or.inl before), changes, ?_, ?_, ?_⟩
  · intro object other changed changed'
    obtain ⟨-, vdc, id, rfl, confirms⟩ := (changes object).1 changed
    obtain ⟨-, vdc', id', rfl, confirms'⟩ := (changes other).1 changed'
    exact confirms.object_eq confirms'
  · intro answer ran
    exact tracks.answer_latest ran
  · intro before op later _ quiet
    have same : ((Host.new config codec).run before).codec = codec :=
      (run_setup (Host.new config codec) before).2
    rw [unprompted_requests _ quiet, same]

def reannounced : List Operation :=
  [.create .vdc (.ofUuid 3) "shades", .addVdc ⟨1, .ofUuid 3, "shades"⟩, .connect 1,
    .frame ⟨1, 0⟩ (Message.helloOf (.ofUuid 1) 3 1).encode, .detach 1,
    .create .vdc (.ofUuid 2) "lamps", .addVdc ⟨2, .ofUuid 2, "lamps"⟩, .connect 2,
    .frame ⟨2, 1⟩ (Message.helloOf (.ofUuid 1) 3 1).encode]

/-- The answer under the id of both announcements connects the vDC of the later one. -/
theorem response_connects_iff_reannounced :
    ((Host.new {} .json).run reannounced).Reads (Message.ofCode .ok (some 1)).encode
      (Message.ofCode .ok (some 1)) ∧
    (Host.new {} .json).requestsOf reannounced =
      [⟨.announceOf (.ofUuid 3) 1, .announcement 1⟩, ⟨.announceOf (.ofUuid 2) 1, .announcement 2⟩,
        ⟨.announceOf (.ofUuid 3) 2, .announcement 1⟩] ∧
    (((Host.new {} .json).run reannounced).perform
      (.frame ⟨2, 1⟩ (Message.ofCode .ok (some 1)).encode)).isVdcConnected 2 = true ∧
    (((Host.new {} .json).run reannounced).perform
      (.frame ⟨2, 1⟩ (Message.ofCode .ok (some 1)).encode)).isVdcConnected 1 = false := by
  have fresh : (Host.new {} .json).Reads (Message.ofCode .ok (some 1)).encode
      (Message.ofCode .ok (some 1)) :=
    ⟨by decide +kernel, by decide +kernel, by decide +kernel⟩
  have reads := run_reads reannounced fresh
  have log : (Host.new {} .json).requestsOf reannounced =
      [⟨.announceOf (.ofUuid 3) 1, .announcement 1⟩, ⟨.announceOf (.ofUuid 2) 1, .announcement 2⟩,
        ⟨.announceOf (.ofUuid 3) 2, .announcement 1⟩] := by decide +kernel
  have last : latest? ((Host.new {} .json).requestsOf reannounced) 1 =
      some ⟨.announceOf (.ofUuid 2) 1, .announcement 2⟩ := by
    rw [log]
    decide
  obtain ⟨waits, lamps, shades⟩ : ((Host.new {} .json).run reannounced).pending.contains 1 = true ∧
      ((Host.new {} .json).run reannounced).isVdcConnected 2 = false ∧
      ((Host.new {} .json).run reannounced).isVdcConnected 1 = false := by decide +kernel
  obtain ⟨-, changes, -⟩ := response_connects_iff {} .json reannounced ⟨2, 1⟩ _ _ reads rfl
  refine ⟨reads, log, ?_, ?_⟩
  · have changed := (changes 2).2 ⟨lamps, ⟨2, .ofUuid 2, "lamps"⟩, 1, rfl,
      rfl, by decide, ⟨_, rfl, rfl⟩, waits, last⟩
    simpa [lamps] using changed
  · rw [← shades]
    by_contra changed
    obtain ⟨-, vdc, id, own, confirms⟩ := (changes 1).1 changed
    obtain rfl : 1 = id := Option.some.inj confirms.named
    have same := Option.some.inj (last.symm.trans confirms.latest)
    simp [own] at same

end Host

end DeviceConnector
