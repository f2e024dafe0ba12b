import DeviceConnector.Proofs.Host.Announcement
import DeviceConnector.Proofs.Host.Limit
/-!
# Frames handled side by side

Frames over different links can be handled side by side, each in its three steps. That a fresh
session has asked for announcements is noted once for all links, so the last step of any frame makes
them, and a vDC that is added announces itself at once. Either can come before the answer to the
hello; nothing else can.
-/

namespace DeviceConnector

inductive Stage where
  /-- Its body has been handled; the reply is still to be queued. -/
  | handled (reply : Option Bytes)
  /-- The reply has been queued; announcements that are due are still to be made. -/
  | replied
  deriving DecidableEq, Repr

/-- A host with the frames that are being handled, one over each link at most. -/
structure Calls where
  host : Host
  stage : Link → Option Stage := fun _ => none

namespace Calls

inductive Step where
  | handle (link : Link) (body : Bytes)
  | reply (link : Link)
  | flush (link : Link)
  | addVdc (vdc : Vdc)
  deriving DecidableEq, Repr

def enter (s : Calls) (link : Link) (stage : Option Stage) (host : Host) : Calls where
  host
  stage other := if other = link then stage else s.stage other

def next (s : Calls) : Step → Calls
  | .handle link body =>
    let handled := s.host.handleBody body link
    s.enter link (some (.handled handled.1)) handled.2
  | .reply link =>
    match s.stage link with
    | some (.handled reply) =>
      match s.host.queueReply link reply with
      | .ok host => s.enter link (some .replied) host
      | .error _ => s.enter link none s.host
    | _ => s
  | .flush link => s.enter link none s.host.flushAnnouncements.2
  | .addVdc vdc => { s with host := (s.host.addVdc vdc).2 }

/-- The steps of a frame follow one another, and its link is open. -/
def Ordered (s : Calls) : Step → Prop
  | .handle link _ => s.stage link = none ∧ s.host.isClosed link = false
  | .reply link => ∃ reply, s.stage link = some (.handled reply)
  | .flush link => s.stage link = some .replied
  | .addVdc _ => True

instance (s : Calls) : ∀ step, Decidable (s.Ordered step)
  | .handle link _ =>
    inferInstanceAs (Decidable (s.stage link = none ∧ s.host.isClosed link = false))
  | .reply link =>
    match stage : s.stage link with
    | some (.handled reply) => isTrue ⟨reply, stage⟩
    | some .replied | none => isFalse fun ⟨_, handled⟩ => by cases stage.symm.trans handled
  | .flush link => inferInstanceAs (Decidable (s.stage link = some .replied))
  | .addVdc _ => isTrue trivial

def run (s : Calls) (steps : List Step) : Calls := steps.foldl next s

theorem run_concat (s : Calls) (steps : List Step) (step : Step) :
    s.run (steps ++ [step]) = (s.run steps).next step :=
  List.foldl_append ..

def Obeyed (s : Calls) : List Step → Prop
  | [] => True
  | step :: steps => s.Ordered step ∧ (s.next step).Obeyed steps

instance decidableObeyed : ∀ (s : Calls) (steps : List Step), Decidable (s.Obeyed steps)
  | _, [] => isTrue trivial
  | s, step :: steps =>
    have := decidableObeyed (s.next step) steps
    inferInstanceAs (Decidable (s.Ordered step ∧ (s.next step).Obeyed steps))

variable {s : Calls} {link : Link} {body : Bytes} {step : Step} {steps : List Step}

/-- One after the other, the three steps are the handling of a frame. -/
theorem run_frame (opened : s.host.isClosed link = false) :
    (s.run [.handle link body, .reply link, .flush link]).host =
      (s.host.processFrame body link).2 := by
  have closed : (s.host.handleBody body link).2.isClosed link = false := by
    rw [(Host.handleBody_handling s.host body link).rest]
    exact opened
  simp only [run, List.foldl_cons, List.foldl_nil, next, enter, if_true, Host.processFrame]
  cases queued :
    (s.host.handleBody body link).2.queueReply link (s.host.handleBody body link).1 with
  | error e => cases (Host.queueReply_error queued).symm.trans closed
  | ok host => rfl

theorem next_sameWires (s : Calls) (step : Step) : Host.SameWires s.host (s.next step).host := by
  cases step with
  | handle link body =>
    have rest := (Host.handleBody_handling s.host body link).rest
    simp only [next, enter]
    rw [rest]
    exact ⟨rfl, rfl, rfl, rfl⟩
  | reply link =>
    simp only [next]
    split
    · split
      · rename_i queued
        exact (Host.queueReply_sentFrom queued).sameWires
      · exact ⟨rfl, rfl, rfl, rfl⟩
    · exact ⟨rfl, rfl, rfl, rfl⟩
  | flush link =>
    have wires := (Host.flushAnnouncements_sentFrom s.host).sameWires
    exact ⟨wires.config, wires.codec, wires.queues, wires.closedQueues⟩
  | addVdc vdc =>
    have quiet : ¬ Host.Rewires (.addVdc vdc) := id
    exact Host.perform_sameWires s.host quiet

/-- A frame whose reply is still to be queued waits for that, whatever else happens. -/
theorem stage_next {reply : Option Bytes} (waiting : s.stage link = some (.handled reply))
    (ordered : s.Ordered step) (other : step ≠ .reply link) :
    (s.next step).stage link = some (.handled reply) := by
  have elsewhere {target : Link} {stage : Option Stage} {host : Host} (apart : link ≠ target) :
      (s.enter target stage host).stage link = some (.handled reply) := by
    rw [enter]
    exact (if_neg apart).trans waiting
  cases step with
  | handle target body =>
    apply elsewhere
    rintro rfl
    cases waiting.symm.trans ordered.1
  | reply target =>
    have apart : link ≠ target := fun same => other (by rw [same])
    simp only [next]
    split
    · split
      · exact elsewhere apart
      · exact elsewhere apart
    · exact waiting
  | flush target =>
    apply elsewhere
    rintro rfl
    cases waiting.symm.trans ordered
  | addVdc vdc => exact waiting

/-- The step announces something over the link: it makes the announcements that are due, wherever
they come from, or it adds a vDC, while the link carries the session. -/
def Overtakes (s : Calls) (link : Link) : Step → Prop
  | .flush _ => s.host.announcePending = true ∧ (∃ peer, s.host.Carries link peer) ∧
      ∃ vdc ∈ s.host.registry.vdcs, (s.host.vdcState vdc.object).attached = true
  | .addVdc vdc => (∃ peer, s.host.Carries link peer) ∧
      s.host.registry.contains vdc.dsuid = false
  | _ => False

def Overtaken (s : Calls) (link : Link) : List Step → Prop
  | [] => False
  | step :: steps => s.Overtakes link step ∨ (s.next step).Overtaken link steps

end Calls

namespace Host

variable {h h₁ h₂ h₃ : Host} {link : Link} {bodies : List Queued} {vdcs : List Vdc}
  {cause later : Prop}

theorem queuedOn_append (eq : h₂.outbox = h₁.outbox ++ bodies) (link : Link) :
    h₂.queuedOn link = h₁.queuedOn link ++ (bodies.filter (·.link = link)).map (·.body) := by
  rw [queuedOn, eq, List.filter_append, List.map_append]
  rfl

/-- The queue of the link grows by announcements from one state to the other, if at all. It grows
only with a cause, and if announcements fit and the link is open, a cause is enough. -/
def Grows (h₁ h₂ : Host) (link : Link) (cause : Prop) : Prop :=
  ∃ announcements, h₂.queuedOn link = h₁.queuedOn link ++ announcements ∧
    (∀ body ∈ announcements, ∃ vdc id, body = (Message.announceOf vdc id).encode) ∧
    (announcements ≠ [] → cause) ∧
    (256 ≤ h₁.config.maxMessageSize → h₁.isClosed link = false → cause → announcements ≠ [])

theorem Grows.nothing (same : h₂.queuedOn link = h₁.queuedOn link) (none : ¬ cause) :
    Grows h₁ h₂ link cause := by
  refine ⟨[], by rw [same, List.append_nil], ?_, fun some => absurd rfl some, ?_⟩
  · intro body mem
    cases mem
  · intro _ _ given
    exact absurd given none

theorem Grows.trans (first : Grows h₁ h₂ link cause) (second : Grows h₂ h₃ link later)
    (wires : SameWires h₁ h₂) : Grows h₁ h₃ link (cause ∨ later) := by
  obtain ⟨more, eq, announce, caused, enough⟩ := first
  obtain ⟨rest, eq', announce', caused', enough'⟩ := second
  refine ⟨more ++ rest, ?_, ?_, ?_, ?_⟩
  · rw [eq', eq, List.append_assoc]
  · intro body mem
    rcases List.mem_append.1 mem with mem | mem
    · exact announce body mem
    · exact announce' body mem
  · intro some
    by_cases none : more = []
    · rw [none, List.nil_append] at some
      exact Or.inr (caused' some)
    · exact Or.inl (caused none)
  · intro large opened given
    have opened' : h₂.isClosed link = false := by
      rw [isClosed, wires.closedQueues]
      exact opened
    rcases given with given | given
    · simp [enough large opened given]
    · simp [enough' (wires.config ▸ large) opened' given]

/-- What is announced on a link goes there because the link carries the session. -/
theorem Spoken.announcements {kind : Message → Prop} (spoken : h.Spoken kind bodies) (link : Link)
    (json : h.codec = .json) (announces : ∀ m, kind m → ∃ vdc, Announces vdc m) :
    (∀ body ∈ (bodies.filter (·.link = link)).map (·.body),
      ∃ vdc id, body = (Message.announceOf vdc id).encode) ∧
    ((bodies.filter (·.link = link)).map (·.body) ≠ [] → ∃ peer, h.Carries link peer) := by
  constructor
  · intro body mem
    obtain ⟨queued, chosen, rfl⟩ := List.mem_map.1 mem
    obtain ⟨-, m, own, encoded⟩ := spoken queued (List.mem_of_mem_filter chosen)
    obtain ⟨vdc, id, rfl⟩ := announces m own
    rw [json] at encoded
    exact ⟨vdc.dsuid, id, (Except.ok.inj encoded).symm⟩
  · intro some
    obtain ⟨body, mem⟩ := List.exists_mem_of_ne_nil _ some
    obtain ⟨queued, chosen, -⟩ := List.mem_map.1 mem
    obtain ⟨there, here⟩ := List.mem_filter.1 chosen
    obtain rfl : queued.link = link := of_decide_eq_true here
    exact (spoken queued there).1

theorem announcing_ne_nil (count : Nat) (some : vdcs ≠ []) :
    ((announcing link count vdcs).filter (·.link = link)).map (·.body) ≠ [] := by
  have own : (announcing link count vdcs).filter (·.link = link) = announcing link count vdcs := by
    rw [List.filter_eq_self]
    intro queued mem
    obtain ⟨m, -, rfl⟩ := List.mem_map.1 mem
    exact decide_eq_true rfl
  rw [own]
  simp [announcing, announced, some]

theorem announceAll_detached
    (detached : ∀ vdc ∈ vdcs, (h.vdcState vdc.object).attached = false) :
    (h.announceAll vdcs).2 = h := by
  induction vdcs with
  | nil => rfl
  | cons vdc vdcs ih =>
    have step : (h.announceAll (vdc :: vdcs)).2 = ((h.announce vdc).2.announceAll vdcs).2 := rfl
    rw [step, announce_detached (detached vdc (List.mem_cons_self ..))]
    exact ih fun other mem => detached other (List.mem_cons_of_mem _ mem)

theorem Carries.ready {peer : Dsuid} (carries : h.Carries link peer) (json : h.codec = .json)
    (large : 256 ≤ h.config.maxMessageSize) (opened : h.isClosed link = false) :
    ∃ session count, h.Ready session link ∧ session.lastId = Session.idAt count := by
  obtain ⟨session, held, -⟩ := Option.map_eq_some_iff.1 carries.held
  obtain ⟨count, handed⟩ := Session.exists_idAt session.lastId
  exact ⟨session, count, ⟨held, carries.attached, json, large, opened⟩, handed⟩

/-- Announcements that are due are made over the link that carries the session. -/
theorem grows_flushAnnouncements (json : h.codec = .json) (link : Link) :
    Grows h h.flushAnnouncements.2 link (h.announcePending = true ∧
      (∃ peer, h.Carries link peer) ∧
      ∃ vdc ∈ h.registry.vdcs, (h.vdcState vdc.object).attached = true) := by
  cases due : h.announcePending with
  | false =>
    rw [flushAnnouncements_idle due]
    exact .nothing rfl (by simp)
  | true =>
    by_cases some : ∃ vdc ∈ h.registry.vdcs, (h.vdcState vdc.object).attached = true
    · obtain ⟨-, bodies, eq, spoken⟩ := flushAnnouncements_saidFrom h
      obtain ⟨announce, carried⟩ := spoken.announcements link json
        fun m fitting => fitting.own.imp fun _ => And.right
      refine ⟨_, queuedOn_append eq link, announce, ?_, ?_⟩
      · intro queued
        obtain ⟨peer, carries⟩ := carried queued
        exact ⟨rfl, ⟨peer, carries.held, carries.attached⟩, some⟩
      · rintro large opened ⟨-, ⟨peer, carries⟩, vdc, registered, attached⟩
        obtain ⟨session, count, ready, handed⟩ := carries.ready json large opened
        have before : { h with announcePending := false }.Ready session link :=
          ⟨ready.held, ready.carried, ready.codec, ready.large, ready.opened⟩
        obtain ⟨pending, all⟩ := announceAll_ready h.registry.vdcs before handed
        rw [flushAnnouncements_due due, all] at eq
        obtain rfl : announcing link count (h.offered h.registry.vdcs) = bodies :=
          List.append_cancel_left eq
        apply announcing_ne_nil
        exact List.ne_nil_of_mem (List.mem_filter.2 ⟨registered, attached⟩)
    · have detached : ∀ vdc ∈ h.registry.vdcs,
          ({ h with announcePending := false }.vdcState vdc.object).attached = false := by
        intro vdc registered
        rw [Bool.eq_false_iff]
        exact fun attached => some ⟨vdc, registered, attached⟩
      rw [flushAnnouncements_due due, announceAll_detached detached]
      exact .nothing rfl fun given => some given.2.2

/-- A vDC that is added is announced over the link that carries the session. -/
theorem grows_addVdc (json : h.codec = .json) (link : Link) (vdc : Vdc) :
    Grows h (h.addVdc vdc).2 link
      ((∃ peer, h.Carries link peer) ∧ h.registry.contains vdc.dsuid = false) := by
  cases free : h.registry.contains vdc.dsuid with
  | true =>
    rw [addVdc_eq, if_pos free]
    exact .nothing rfl (by simp)
  | false =>
    have quiet : ¬ IsTraffic (.addVdc vdc) := id
    obtain ⟨bodies, eq, spoken⟩ := outbox_quiet h quiet
    obtain ⟨announce, carried⟩ := spoken.announcements link json
      fun m fitting => ⟨vdc, fitting.own⟩
    refine ⟨_, queuedOn_append eq link, announce, fun queued => ⟨carried queued, rfl⟩, ?_⟩
    rintro large opened ⟨⟨peer, carries⟩, -⟩
    obtain ⟨session, count, ready, handed⟩ := carries.ready json large opened
    obtain ⟨pending, within⟩ := perform_addVdc_within ready handed free
    rw [within] at eq
    obtain rfl : announcing link count [vdc] = bodies := List.append_cancel_left eq
    exact announcing_ne_nil count (List.cons_ne_nil _ _)

end Host

namespace Calls

variable {s : Calls} {link : Link} {body : Bytes} {m : Message} {peer : Dsuid}
  {step : Step} {steps : List Step}

theorem grows_next (json : s.host.codec = .json) (other : step ≠ .reply link) :
    Host.Grows s.host (s.next step).host link (s.Overtakes link step) := by
  cases step with
  | handle target body =>
    have rest := (Host.handleBody_handling s.host body target).rest
    refine .nothing ?_ id
    simp only [next, enter]
    rw [rest]
    rfl
  | reply target =>
    refine .nothing ?_ id
    simp only [next]
    split
    · rename_i reply _
      split
      · rename_i host queued
        obtain ⟨eq, -⟩ := Host.queueReply_ok queued
        have outbox : host.outbox = s.host.outbox ++ reply.toList.map (⟨target, ·⟩) := by rw [eq]
        have apart : target ≠ link := fun same => other (by rw [same])
        have none : (reply.toList.map (Queued.mk target)).filter (·.link = link) = [] := by
          simp [apart]
        have grown := Host.queuedOn_append outbox link
        rw [none, List.map_nil, List.append_nil] at grown
        exact grown
      · rfl
    · rfl
  | flush target => exact Host.grows_flushAnnouncements json link
  | addVdc vdc => exact Host.grows_addVdc json link vdc

theorem grows_run (json : s.host.codec = .json) (waiting : .reply link ∉ steps) :
    Host.Grows s.host (s.run steps).host link (s.Overtaken link steps) := by
  induction steps generalizing s with
  | nil => exact .nothing rfl id
  | cons step steps ih =>
    have wires := next_sameWires s step
    have first := grows_next json fun same => waiting (same ▸ List.mem_cons_self ..)
    have rest := ih (s := s.next step) (wires.codec.trans json)
      fun mem => waiting (List.mem_cons_of_mem _ mem)
    exact first.trans rest wires

theorem stage_run {reply : Option Bytes} (stage : s.stage link = some (.handled reply))
    (ordered : s.Obeyed steps) (waiting : .reply link ∉ steps) :
    (s.run steps).stage link = some (.handled reply) := by
  induction steps generalizing s with
  | nil => exact stage
  | cons step steps ih =>
    have other : step ≠ .reply link := fun same => waiting (same ▸ List.mem_cons_self ..)
    exact ih (stage_next stage ordered.1 other) ordered.2
      fun mem => waiting (List.mem_cons_of_mem _ mem)

theorem run_sameWires (s : Calls) (steps : List Step) :
    Host.SameWires s.host (s.run steps).host := by
  induction steps generalizing s with
  | nil => exact ⟨rfl, rfl, rfl, rfl⟩
  | cons step steps ih => exact (next_sameWires s step).trans (ih (s.next step))

end Calls

structure Host.Begins (h : Host) (body : Bytes) (m : Message) (peer : Dsuid) : Prop where
  free : h.session = none
  reads : h.Reads body m
  type : m.type = .requestHello
  valid : Session.checkHello m.id m.helloRequest = .ok peer

namespace Calls

variable {s : Calls} {link : Link} {body : Bytes} {m : Message} {peer : Dsuid}
  {step : Step} {steps : List Step}

theorem stage_of_begins (json : s.host.codec = .json) (begins : s.host.Begins body m peer) :
    (s.next (.handle link body)).stage link =
      some (.handled (some (Message.welcome s.host.dsuid m.id).encode)) := by
  have answered : (s.host.receive m link).1 = some (.welcome s.host.dsuid m.id) := by
    simp [Host.receive, begins.type, Host.receiveHello, Session.hello, begins.valid, begins.free,
      HelloOutcome.rejection?]
    rfl
  have replied := Host.reply_of_reads json begins.reads answered
  simp only [next, enter, if_true, replied]

theorem queuedOn_reply {reply : Bytes} (stage : s.stage link = some (.handled (some reply)))
    (opened : s.host.isClosed link = false) :
    (s.next (.reply link)).host.queuedOn link = s.host.queuedOn link ++ [reply] := by
  have outbox : (s.next (.reply link)).host.outbox = s.host.outbox ++ [⟨link, reply⟩] := by
    simp [next, stage, Host.queueReply, Host.queue, opened, enter]
  have grown := Host.queuedOn_append outbox link
  simpa using grown

/-- Between the handling of a hello that begins a session and the queueing of its answer, nothing
but announcements comes onto the link, and none does unless a step overtakes the answer: the last
step of another frame, or a vDC that is added. If announcements fit, such a step is enough. -/
theorem answer_first_iff (s : Calls) (link : Link) (body : Bytes) (m : Message) (peer : Dsuid)
    (between : List Step) (json : s.host.codec = .json) (opened : s.host.isClosed link = false)
    (begins : s.host.Begins body m peer)
    (ordered : s.Obeyed (.handle link body :: between)) (waiting : .reply link ∉ between) :
    ∃ announcements,
      (s.run (.handle link body :: between)).host.queuedOn link =
        s.host.queuedOn link ++ announcements ∧
      ((s.run (.handle link body :: between)).next (.reply link)).host.queuedOn link =
        s.host.queuedOn link ++ announcements ++
          [(Message.welcome s.host.dsuid m.id).encode] ∧
      (∀ queued ∈ announcements, ∃ vdc id, queued = (Message.announceOf vdc id).encode) ∧
      (¬ (s.next (.handle link body)).Overtaken link between → announcements = []) ∧
      (256 ≤ s.host.config.maxMessageSize → (s.next (.handle link body)).Overtaken link between →
        announcements ≠ []) := by
  have wires := next_sameWires s (.handle link body)
  have first : Host.Grows s.host (s.next (.handle link body)).host link False :=
    grows_next json (by simp)
  obtain ⟨announcements, eq, announce, caused, enough⟩ :=
    first.trans (grows_run (wires.codec.trans json) waiting) wires
  refine ⟨announcements, eq, ?_, announce, ?_, ?_⟩
  · have stage := stage_run (stage_of_begins json begins) ordered.2 waiting
    have opened' : (s.run (.handle link body :: between)).host.isClosed link = false := by
      rw [Host.isClosed, (run_sameWires s _).closedQueues]
      exact opened
    rw [← eq]
    exact queuedOn_reply stage opened'
  · intro alone
    apply Decidable.byContradiction
    intro some
    exact alone ((caused some).resolve_left id)
  · intro large overtaken
    exact enough large opened (Or.inr overtaken)

def twoLinks : Calls where
  host := (Host.new {} .json).run [.create .vdc (.ofUuid 2) "lamps",
    .addVdc ⟨1, .ofUuid 2, "lamps"⟩, .connect 1, .connect 2]

theorem twoLinks_begins : twoLinks.host.Begins (Message.helloOf (.ofUuid 1) 3 1).encode
    (.helloOf (.ofUuid 1) 3 1) (.ofUuid 1) where
  free := by decide +kernel
  reads := Host.run_reads _ ⟨by decide +kernel, by decide +kernel, rfl⟩
  type := rfl
  valid := by decide +kernel

/-- An empty frame over the second connection makes the announcement that the hello over the first
one has asked for, before the answer is queued. -/
theorem announced_before_answer :
    twoLinks.Obeyed [.handle ⟨1, 0⟩ (Message.helloOf (.ofUuid 1) 3 1).encode,
      .handle ⟨2, 1⟩ [], .reply ⟨2, 1⟩, .flush ⟨2, 1⟩, .reply ⟨1, 0⟩] ∧
    twoLinks.host.Begins (Message.helloOf (.ofUuid 1) 3 1).encode (.helloOf (.ofUuid 1) 3 1)
      (.ofUuid 1) ∧
    (twoLinks.run [.handle ⟨1, 0⟩ (Message.helloOf (.ofUuid 1) 3 1).encode,
      .handle ⟨2, 1⟩ [], .reply ⟨2, 1⟩, .flush ⟨2, 1⟩, .reply ⟨1, 0⟩]).host.queuedOn ⟨1, 0⟩ =
        [(Message.announceOf (.ofUuid 2) 1).encode,
          (Message.welcome twoLinks.host.dsuid (some 1)).encode] := by
  exact ⟨by decide +kernel, twoLinks_begins, by decide +kernel⟩

/-- A vDC that is added overtakes the answer as well; the first two steps of another frame
do not. -/
theorem answer_first_iff_two_links :
    (twoLinks.run [.handle ⟨1, 0⟩ (Message.helloOf (.ofUuid 1) 3 1).encode,
      .handle ⟨2, 1⟩ [], .reply ⟨2, 1⟩, .reply ⟨1, 0⟩]).host.queuedOn ⟨1, 0⟩ =
        [(Message.welcome twoLinks.host.dsuid (some 1)).encode] ∧
    (twoLinks.run [.handle ⟨1, 0⟩ (Message.helloOf (.ofUuid 1) 3 1).encode,
      .addVdc ⟨2, .ofUuid 3, "blinds"⟩]).host.queuedOn ⟨1, 0⟩ ≠ [] := by
  have untouched : twoLinks.host.queuedOn ⟨1, 0⟩ = [] := by decide +kernel
  obtain ⟨announcements, -, queued, -, alone, -⟩ := answer_first_iff twoLinks ⟨1, 0⟩ _ _ _
    [.handle ⟨2, 1⟩ [], .reply ⟨2, 1⟩] rfl rfl twoLinks_begins (by decide +kernel) (by decide)
  obtain ⟨early, queued', -, -, -, enough⟩ := answer_first_iff twoLinks ⟨1, 0⟩ _ _ _
    [.addVdc ⟨2, .ofUuid 3, "blinds"⟩] rfl rfl twoLinks_begins (by decide +kernel) (by decide)
  rw [untouched] at queued queued'
  constructor
  · have none : announcements = [] := alone (by rintro (early | early | early) <;> exact early)
    have last := run_concat twoLinks [.handle ⟨1, 0⟩ (Message.helloOf (.ofUuid 1) 3 1).encode,
      .handle ⟨2, 1⟩ [], .reply ⟨2, 1⟩] (.reply ⟨1, 0⟩)
    rw [none, ← last] at queued
    exact queued
  · have free : (twoLinks.next (.handle ⟨1, 0⟩
        (Message.helloOf (.ofUuid 1) 3 1).encode)).host.registry.contains (.ofUuid 3) = false := by
      decide +kernel
    have overtakes : (twoLinks.next (.handle ⟨1, 0⟩
        (Message.helloOf (.ofUuid 1) 3 1).encode)).Overtakes ⟨1, 0⟩
          (.addVdc ⟨2, .ofUuid 3, "blinds"⟩) :=
      ⟨⟨.ofUuid 1, by decide +kernel, by decide +kernel⟩, free⟩
    rw [queued']
    exact enough (by decide) (Or.inl overtakes)

end Calls

end DeviceConnector
