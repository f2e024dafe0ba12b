import DeviceConnector.Proofs.Frame.Limit
import DeviceConnector.Proofs.Host.Confinement
import DeviceConnector.Proofs.Host.Limit
/-!
# From the queue to the other end

The command line accepts no size limit that a header cannot declare, and replies are shorter than
any header can. So the writer of a connection never stops for the size of a body, and what the host
has queued arrives in the same order and can be read, however the stream is cut up.
-/

namespace DeviceConnector

namespace CommandLine

theorem bind_eq_ok {ε α β : Type} {x : Except ε α} {f : α → Except ε β} {b : β}
    (ok : x >>= f = .ok b) : ∃ a, x = .ok a ∧ f a = .ok b := by
  cases x with
  | error e => cases ok
  | ok a => exact ⟨a, rfl, ok⟩

/-- The size limit of an accepted configuration is the one asked for, and a header can
declare it. -/
theorem limit_of_hostConfig {arguments : ServeArguments} {config : HostConfig}
    (accepted : hostConfig arguments = .ok config) :
    config.maxMessageSize = arguments.maxMessageSize ∧
    1 ≤ config.maxMessageSize ∧ config.maxMessageSize ≤ Frame.maxBody := by
  unfold hostConfig at accepted
  by_cases refused : arguments.maxMessageSize = 0 ∨ Frame.maxBody < arguments.maxMessageSize
  · simp only [if_pos refused] at accepted
    exfalso
    -- with or without an identifier, the limit is refused next
    repeat' split at accepted
    all_goals
      obtain ⟨dsuid, -, rest⟩ := bind_eq_ok accepted
      obtain ⟨_, thrown, -⟩ := bind_eq_ok rest
      cases thrown
  · have same : config.maxMessageSize = arguments.maxMessageSize := by
      simp only [if_neg refused, pure_bind] at accepted
      repeat' split at accepted
      all_goals
        first
        | obtain ⟨dsuid, thrown, -⟩ := bind_eq_ok accepted
          cases thrown
        | obtain ⟨idleTimeout, -, rest⟩ := bind_eq_ok accepted
          obtain ⟨requestMaxAge, -, rest⟩ := bind_eq_ok rest
          cases rest
          rfl
    omega

end CommandLine

namespace Host

variable {queued : Queued} {config : HostConfig} {operations : List Operation}

/-- Whatever is queued is empty or the body of a message. -/
theorem written_of_queued (mem : queued ∈ ((Host.new config .json).run operations).outbox) :
    queued.body = [] ∨ ∃ m : Message, queued.body = m.encode := by
  rcases origin_of_queued mem with there | ⟨before, op, later, -, replied | said⟩
  · cases there
  · obtain ⟨-, codec⟩ := run_setup (Host.new config .json) before
    rcases replyTo_cases ((Host.new config .json).run before) op with
      none | ⟨link, body, reply, -, handled, eq⟩
    · rw [none] at replied
      cases replied
    · rw [eq] at replied
      obtain rfl := List.mem_singleton.1 replied
      rcases reply_cases handled with empty | ⟨m, answer, -, -, encoded⟩
      · exact Or.inl empty
      · rw [codec] at encoded
        exact Or.inr ⟨answer, (Except.ok.inj encoded).symm⟩
  · obtain ⟨-, codec⟩ := run_setup (Host.new config .json) before
    obtain ⟨-, m, -, encoded⟩ :=
      (outbox_perform ((Host.new config .json).run before) op).2 queued said
    rw [(perform_setup _ op).2, codec] at encoded
    exact Or.inr ⟨m, (Except.ok.inj encoded).symm⟩

theorem length_le_of_queued (limited : config.maxMessageSize ≤ Frame.maxBody)
    (mem : queued ∈ ((Host.new config .json).run operations).outbox) :
    queued.body.length ≤ Frame.maxBody := by
  rcases curt_or_within mem with curt | within
  · exact Nat.le_trans curt.short (by decide)
  · exact Nat.le_trans within limited

theorem mem_queuedOn {h : Host} {link : Link} {body : Bytes} :
    body ∈ h.queuedOn link ↔ ⟨link, body⟩ ∈ h.outbox := by
  simp only [queuedOn, List.mem_map, List.mem_filter, decide_eq_true_eq]
  constructor
  · rintro ⟨queued, ⟨mem, rfl⟩, rfl⟩
    exact mem
  · intro mem
    exact ⟨⟨link, body⟩, ⟨mem, rfl⟩, rfl⟩

/-- Whatever a host from the command line queues on a link, the writer of the connection takes it,
and a reader at the other end gets it in the same order, in whatever chunks the stream arrives. What
it gets is empty or a message. -/
theorem queued_delivered (arguments : CommandLine.ServeArguments) (config : HostConfig)
    (accepted : CommandLine.hostConfig arguments = .ok config) (operations : List Operation)
    (link : Link) :
    (∀ body ∈ ((Host.new config .json).run operations).queuedOn link,
      (∀ written, ∃ stream, FrameCodec.unlimited.encode body written = .ok stream) ∧
      (body ≠ [] → ∃ m, BodyCodec.json.decode body = .ok m)) ∧
    ∃ stream,
      FrameCodec.unlimited.encodeAll (((Host.new config .json).run operations).queuedOn link) [] =
        .ok stream ∧
      ∀ chunks : List Bytes, chunks.flatten = stream →
        Frame.receive [] chunks = (((Host.new config .json).run operations).queuedOn link, []) := by
  obtain ⟨-, -, limited⟩ := CommandLine.limit_of_hostConfig accepted
  have fits : ∀ body ∈ ((Host.new config .json).run operations).queuedOn link,
      body.length ≤ Frame.maxBody := by
    intro body mem
    exact length_le_of_queued limited (mem_queuedOn.1 mem)
  refine ⟨fun body mem => ⟨fun written => ?_, fun nonempty => ?_⟩, _,
    FrameCodec.encodeAll_eq_ok_iff.2 ⟨fits, rfl⟩, fun chunks arrived => ?_⟩
  · exact ⟨_, FrameCodec.encode_of_within (fits body mem)⟩
  · rcases written_of_queued (mem_queuedOn.1 mem) with empty | ⟨m, eq⟩
    · exact absurd empty nonempty
    · obtain rfl : body = m.encode := eq
      exact ⟨_, Message.decode_encode m⟩
  · rw [Frame.receive_eq_decodeAll chunks (Or.inr rfl), arrived]
    exact Frame.decodeAll_wires_eq fits

/-- A reply above the limit arrives byte by byte. -/
theorem queued_delivered_narrow :
    CommandLine.hostConfig narrow = .ok { maxMessageSize := 64 } ∧
    ((Host.new { maxMessageSize := 64 } .json).run (heard bareRemove)).queuedOn ⟨1, 0⟩ =
      [(Message.ofCode .missingData none).encode] ∧
    ∃ stream, FrameCodec.unlimited.encodeAll [(Message.ofCode .missingData none).encode] [] =
        .ok stream ∧ stream.length = 121 ∧
      Frame.receive [] (stream.map fun b => [b]) =
        ([(Message.ofCode .missingData none).encode], []) := by
  have accepted : CommandLine.hostConfig narrow = .ok { maxMessageSize := 64 } := by rfl
  have queued : ((Host.new { maxMessageSize := 64 } .json).run (heard bareRemove)).queuedOn ⟨1, 0⟩ =
      [(Message.ofCode .missingData none).encode] := by decide +kernel
  obtain ⟨-, stream, encoded, read⟩ := queued_delivered narrow _ accepted (heard bareRemove) ⟨1, 0⟩
  rw [queued] at encoded read
  have size : stream.length = 121 := by
    obtain ⟨-, rfl⟩ := FrameCodec.encodeAll_eq_ok_iff.1 encoded
    decide +kernel
  refine ⟨accepted, queued, stream, encoded, size, read _ ?_⟩
  rw [← List.flatMap_def, List.flatMap_singleton']

end Host

end DeviceConnector
