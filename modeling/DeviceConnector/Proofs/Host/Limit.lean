import DeviceConnector.CommandLine.Command
import DeviceConnector.Proofs.Host.Outbox
import DeviceConnector.Proofs.Message.Size
/-!
# How large queued bodies are

What the host says by itself is never above its size limit. Replies do not heed the limit: they are
short, but a limit can be shorter. So a host keeps to its limit throughout if the limit has room for
every reply, or if it lets no message in that is replied to.
-/

namespace DeviceConnector.Host

variable {h : Host} {m answer : Message} {op : Operation} {queued : Queued}

/-- Every answer has at most 156 bytes. -/
theorem Replies.length_le (replies : h.Replies m answer) : answer.encode.length ≤ 156 := by
  cases replies with
  | welcome => exact Nat.le_trans (Message.length_encode_welcome _ _) (by decide)
  | pong target e => rw [Message.length_encode_pongOf]; decide
  | refusal | farewell | missing => exact Message.length_encode_ofCode _ _

/-- No body of less than twenty bytes has an answer. -/
theorem Replies.twenty_le {body : Bytes} (replies : h.Replies m answer)
    (read : Message.decode body = .ok m) : 20 ≤ body.length := by
  have tag := Message.length_tag_le_of_decode read
  cases replies with
  | welcome type | refusal code type =>
    have size : m.type.tag.utf8ByteSize = 18 := by rw [type]; rfl
    omega
  | missing type =>
    have size : m.type.tag.utf8ByteSize = 16 := by rw [type]; rfl
    omega
  | pong target e type names =>
    have room := Message.length_target_le_of_decode read (Or.inl names)
    omega
  | farewell peer type names =>
    have room := Message.length_target_le_of_decode read (Or.inr names)
    omega

structure Curt (h : Host) (body : Bytes) : Prop where
  short : body.length ≤ 156
  /-- A host that lets only very small bodies in replies with empty ones. -/
  empty : h.config.maxMessageSize < 20 → body = []

theorem curt_of_reply {link : Link} {body reply : Bytes} (codec : h.codec = .json)
    (replied : (h.handleBody body link).1 = some reply) : h.Curt reply := by
  rcases reply_cases replied with rfl | ⟨m, answer, reads, replies, encoded⟩
  · exact ⟨Nat.zero_le _, fun _ => rfl⟩
  · have decodes := reads.decodes
    rw [codec] at encoded decodes
    obtain rfl := Except.ok.inj encoded
    refine ⟨replies.length_le, fun small => ?_⟩
    have room := replies.twenty_le decodes
    have fits := reads.fits
    omega

theorem replyTo_curt (codec : h.codec = .json) (mem : queued ∈ h.replyTo op) :
    h.Curt queued.body := by
  cases op with
  | frame link body =>
    simp only [replyTo] at mem
    split at mem
    · cases mem
    · obtain ⟨reply, replied, rfl⟩ := List.mem_map.1 mem
      exact curt_of_reply codec (Option.mem_toList.1 replied)
  | _ => cases mem

theorem unprompted_within (mem : queued ∈ h.unprompted op) :
    queued.body.length ≤ h.config.maxMessageSize :=
  (outbox_perform_fitting h op).2.length_le (perform_setup h op).2 mem

/-- What is queued after a run was there before or has been queued by one of the operations. -/
theorem origin_of_queued {operations : List Operation} (mem : queued ∈ (h.run operations).outbox) :
    queued ∈ h.outbox ∨ ∃ before op later, operations = before ++ op :: later ∧
      (queued ∈ (h.run before).replyTo op ∨ queued ∈ (h.run before).unprompted op) := by
  induction operations generalizing h with
  | nil => exact Or.inl mem
  | cons op operations ih =>
    rcases ih mem with there | ⟨before, other, later, rfl, origin⟩
    · rw [(outbox_perform h op).1, List.mem_append, List.mem_append] at there
      rcases there with (there | replied) | said
      · exact Or.inl there
      · exact Or.inr ⟨[], op, operations, rfl, Or.inl replied⟩
      · exact Or.inr ⟨[], op, operations, rfl, Or.inr said⟩
    · exact Or.inr ⟨op :: before, other, later, rfl, origin⟩

/-- What a host with JSON bodies has queued is short or within the limit. -/
theorem curt_or_within {config : HostConfig} {operations : List Operation}
    (mem : queued ∈ ((Host.new config .json).run operations).outbox) :
    (Host.new config .json).Curt queued.body ∨
      queued.body.length ≤ config.maxMessageSize := by
  rcases origin_of_queued mem with there | ⟨before, op, later, -, replied | said⟩
  · cases there
  · obtain ⟨sameConfig, sameCodec⟩ := run_setup (Host.new config .json) before
    have curt := replyTo_curt sameCodec replied
    exact Or.inl ⟨curt.short, sameConfig ▸ curt.empty⟩
  · obtain ⟨sameConfig, -⟩ := run_setup (Host.new config .json) before
    have within := unprompted_within said
    rw [sameConfig] at within
    exact Or.inr within

/-- The shortest body that is answered: a request to remove nothing. -/
def bareRemove : Bytes := "[\"vdsm_send_remove\"]".toUTF8.data.toList

/-- A short body with a long answer: a hello without a version. -/
def vagueHello : Bytes := "[\"vdsm_request_hello\",4294967295,[\"\"]]".toUTF8.data.toList

theorem decode_bareRemove : Message.decode bareRemove = .ok (.bare .remove) := by
  decide +kernel

theorem decode_vagueHello : Message.decode vagueHello =
    .ok { type := .requestHello, id := some 4294967295, helloRequest := some { dsuid := "" } } := by
  decide +kernel

theorem reply_of_reads {body : Bytes} {link : Link} (codec : h.codec = .json)
    (reads : h.Reads body m) (answered : (h.receive m link).1 = some answer) :
    (h.handleBody body link).1 = some answer.encode := by
  rw [reply_eq_of_reads codec reads, answered]
  rfl

def heard (body : Bytes) : List Operation := [.connect 1, .frame ⟨1, 0⟩ body]

theorem answer_queued {config : HostConfig} {body : Bytes}
    (fits : body.length ≤ config.maxMessageSize) (nonempty : body ≠ [])
    (decodes : Message.decode body = .ok m)
    (answered : (((Host.new config .json).openLink 1).2.receive m ⟨1, 0⟩).1 = some answer) :
    ⟨⟨1, 0⟩, answer.encode⟩ ∈ ((Host.new config .json).run (heard body)).outbox := by
  have replied : (((Host.new config .json).openLink 1).2.handleBody body ⟨1, 0⟩).1 =
      some answer.encode := reply_of_reads rfl ⟨nonempty, fits, decodes⟩ answered
  have queued : ⟨⟨1, 0⟩, answer.encode⟩ ∈
      ((Host.new config .json).openLink 1).2.replyTo (.frame ⟨1, 0⟩ body) := by
    simp only [replyTo, replied]
    exact List.mem_singleton_self _
  have all := (outbox_perform ((Host.new config .json).openLink 1).2 (.frame ⟨1, 0⟩ body)).1
  have run : (Host.new config .json).run (heard body) =
      ((Host.new config .json).openLink 1).2.perform (.frame ⟨1, 0⟩ body) := rfl
  rw [run, all]
  exact List.mem_append_left _ (List.mem_append_right _ queued)

/-- A limit that lets an answered body in but has no room for every answer is not kept to. -/
theorem above_limit (config : HostConfig) (large : 20 ≤ config.maxMessageSize)
    (small : config.maxMessageSize < 156) :
    ∃ operations, ∃ queued ∈ ((Host.new config .json).run operations).outbox,
      config.maxMessageSize < queued.body.length := by
  by_cases tiny : config.maxMessageSize < 119
  · have size : bareRemove.length = 20 := by decide +kernel
    have long : (Message.ofCode .missingData none).encode.length = 119 := by decide +kernel
    refine ⟨heard bareRemove, _, answer_queued (by omega) (by decide) decode_bareRemove rfl, ?_⟩
    exact Nat.lt_of_lt_of_eq tiny long.symm
  · have size : vagueHello.length = 38 := by decide +kernel
    have long : (Message.ofCode .incompatibleApi (some 4294967295)).encode.length = 156 := by
      decide +kernel
    refine ⟨heard vagueHello, _, answer_queued (by omega) (by decide) decode_vagueHello rfl, ?_⟩
    exact Nat.lt_of_lt_of_eq small long.symm

/-- What a host says by itself is within its limit and a reply has at most 156 bytes. All that is
queued is within the limit, whatever happens, exactly if the limit has room for every reply or lets
only bodies in that are too small to be answered. -/
theorem within_limit_iff (config : HostConfig) :
    (∀ operations op,
      (∀ queued ∈ ((Host.new config .json).run operations).unprompted op,
        queued.body.length ≤ config.maxMessageSize) ∧
      ∀ queued ∈ ((Host.new config .json).run operations).replyTo op,
        queued.body.length ≤ 156) ∧
    ((∀ operations, ∀ queued ∈ ((Host.new config .json).run operations).outbox,
        queued.body.length ≤ config.maxMessageSize) ↔
      config.maxMessageSize < 20 ∨ 156 ≤ config.maxMessageSize) := by
  refine ⟨fun operations op => ⟨?_, ?_⟩, ?_, ?_⟩
  · intro queued said
    have within := unprompted_within said
    rwa [(run_setup (Host.new config .json) operations).1] at within
  · intro queued replied
    exact (replyTo_curt (run_setup (Host.new config .json) operations).2 replied).short
  · intro within
    apply Decidable.byContradiction
    intro between
    obtain ⟨operations, queued, mem, above⟩ := above_limit config (by omega) (by omega)
    exact Nat.not_lt.2 (within operations queued mem) above
  · intro room operations queued mem
    rcases curt_or_within mem with curt | within
    · rcases room with tiny | wide
      · rw [curt.empty tiny]
        exact Nat.zero_le _
      · exact Nat.le_trans curt.short wide
    · exact within

def narrow : CommandLine.ServeArguments where
  listen := .v4 ⟨0, 0, 0, 0⟩ 0
  dsuid := none
  name := "default-vDC-Host"
  demoVdc := false
  maxMessageSize := 64
  idleTimeout := "3600s"
  requestMaxAge := "30s"

/-- A body of 27 bytes is let in and answered with 119. -/
theorem reply_above_limit :
    CommandLine.hostConfig narrow = .ok { maxMessageSize := 64 } ∧
    (Message.bare .remove).encode.length = 27 ∧
    ((Host.new { maxMessageSize := 64 } .json).run (heard (Message.bare .remove).encode)).outbox =
      [⟨⟨1, 0⟩, (Message.ofCode .missingData none).encode⟩] ∧
    ¬ (Message.ofCode .missingData none).encode.length ≤ 64 := by
  refine ⟨by rfl, ?_⟩
  decide +kernel

end DeviceConnector.Host
