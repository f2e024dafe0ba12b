import DeviceConnector.Frame.Basic
/-!
# Streams of frames

The bytes of a stream are whole frames and an unfinished rest in exactly one way, and a reader takes
them off in this way, whatever the chunks in which the stream arrives. So it takes off the bodies
that were written, each as soon as the last byte of its frame is there.
-/

namespace DeviceConnector.Frame

variable {body rest buffer written stream : Bytes} {bodies : List Bytes}

def wire (body : Bytes) : Bytes := header body.length ++ body

theorem declared_le (high low : UInt8) : high.toNat * 256 + low.toNat ≤ maxBody := by
  have := high.toNat_lt
  have := low.toNat_lt
  unfold maxBody
  omega

theorem header_of_bytes (high low : UInt8) :
    header (high.toNat * 256 + low.toNat) = [high, low] := by
  have below := low.toNat_lt
  have first : UInt8.ofNat ((high.toNat * 256 + low.toNat) / 256) = high := by
    rw [show (high.toNat * 256 + low.toNat) / 256 = high.toNat by omega, UInt8.ofNat_toNat]
  have second : UInt8.ofNat (high.toNat * 256 + low.toNat) = low := by
    rw [← UInt8.toNat_inj, UInt8.toNat_ofNat']
    omega
  rw [header, first, second]

/-- A frame is taken off a buffer exactly if the buffer begins with it. -/
theorem decode?_eq_some_iff :
    decode? buffer = some (body, rest) ↔ body.length ≤ maxBody ∧ buffer = wire body ++ rest := by
  constructor
  · intro taken
    match buffer with
    | [] | [_] => simp [decode?] at taken
    | high :: low :: bytes =>
      simp only [decode?] at taken
      split at taken
      · rename_i whole
        simp only [Option.some.injEq, Prod.mk.injEq] at taken
        obtain ⟨rfl, rfl⟩ := taken
        refine ⟨whole.symm ▸ declared_le high low, ?_⟩
        rw [wire, whole, header_of_bytes]
        simp
      · cases taken
  · rintro ⟨fits, rfl⟩
    rw [wire, List.append_assoc]
    exact decode?_header body rest fits

theorem decode?_append (taken : decode? buffer = some (body, rest)) (more : Bytes) :
    decode? (buffer ++ more) = some (body, rest ++ more) := by
  obtain ⟨fits, rfl⟩ := decode?_eq_some_iff.1 taken
  exact decode?_eq_some_iff.2 ⟨fits, List.append_assoc ..⟩

theorem decodeOnto_of_none (unfinished : decode? buffer = none) (bodies : List Bytes) :
    decodeOnto bodies buffer = (bodies.reverse, buffer) := by
  rw [decodeOnto]
  split
  · rfl
  · rename_i taken
    cases unfinished.symm.trans taken

theorem decodeOnto_of_some (taken : decode? buffer = some (body, rest)) (bodies : List Bytes) :
    decodeOnto bodies buffer = decodeOnto (body :: bodies) rest := by
  rw [decodeOnto]
  split
  · rename_i unfinished
    cases taken.symm.trans unfinished
  · rename_i same
    cases taken.symm.trans same
    rfl

theorem decodeOnto_eq (bodies : List Bytes) (buffer : Bytes) :
    decodeOnto bodies buffer = (bodies.reverse ++ (decodeAll buffer).1, (decodeAll buffer).2) := by
  induction size : buffer.length using Nat.strongRecOn generalizing bodies buffer with
  | _ size ih =>
    cases taken : decode? buffer with
    | none =>
      rw [decodeAll, decodeOnto_of_none taken, decodeOnto_of_none taken, List.reverse_nil,
        List.append_nil]
    | some frame =>
      obtain ⟨body, rest⟩ := frame
      have shorter := size ▸ length_lt_of_decode? taken
      rw [decodeAll, decodeOnto_of_some taken, decodeOnto_of_some taken,
        ih _ shorter (body :: bodies) rest rfl, ih _ shorter [body] rest rfl]
      simp

theorem decodeAll_of_none (unfinished : decode? buffer = none) : decodeAll buffer = ([], buffer) :=
  decodeOnto_of_none unfinished []

theorem decodeAll_of_some (taken : decode? buffer = some (body, rest)) :
    decodeAll buffer = (body :: (decodeAll rest).1, (decodeAll rest).2) :=
  (decodeOnto_of_some taken []).trans (decodeOnto_eq [body] rest)

theorem decodeAll_nil : decodeAll [] = ([], []) := decodeAll_of_none rfl

theorem decode?_decodeAll (buffer : Bytes) : decode? (decodeAll buffer).2 = none := by
  induction size : buffer.length using Nat.strongRecOn generalizing buffer with
  | _ size ih =>
    cases taken : decode? buffer with
    | none =>
      rw [decodeAll_of_none taken]
      exact taken
    | some frame =>
      rw [decodeAll_of_some taken]
      exact ih _ (size ▸ length_lt_of_decode? taken) _ rfl

theorem decodeAll_wire (fits : body.length ≤ maxBody) (rest : Bytes) :
    decodeAll (wire body ++ rest) = (body :: (decodeAll rest).1, (decodeAll rest).2) :=
  decodeAll_of_some (decode?_eq_some_iff.2 ⟨fits, rfl⟩)

/-- What was left of the first part is read again in front of the second. -/
theorem decodeAll_append (first second : Bytes) :
    decodeAll (first ++ second) =
      ((decodeAll first).1 ++ (decodeAll ((decodeAll first).2 ++ second)).1,
        (decodeAll ((decodeAll first).2 ++ second)).2) := by
  induction size : first.length using Nat.strongRecOn generalizing first with
  | _ size ih =>
    cases taken : decode? first with
    | none => rw [decodeAll_of_none taken, List.nil_append]
    | some frame =>
      obtain ⟨body, rest⟩ := frame
      rw [decodeAll_of_some taken, decodeAll_of_some (decode?_append taken second),
        ih _ (size ▸ length_lt_of_decode? taken) rest rfl, List.cons_append]

theorem receive_eq_decodeAll (chunks : List Bytes)
    (read : chunks ≠ [] ∨ decode? buffer = none) :
    receive buffer chunks = decodeAll (buffer ++ chunks.flatten) := by
  induction chunks generalizing buffer with
  | nil =>
    have unfinished := read.resolve_left (· rfl)
    rw [List.flatten_nil, List.append_nil, decodeAll_of_none unfinished]
    rfl
  | cons chunk chunks ih =>
    have later := ih (Or.inr (decode?_decodeAll (buffer ++ chunk)))
    rw [List.flatten_cons, ← List.append_assoc, decodeAll_append, ← later]
    rfl

def wires (bodies : List Bytes) : Bytes := bodies.flatMap wire

theorem wires_append (bodies later : List Bytes) :
    wires (bodies ++ later) = wires bodies ++ wires later :=
  List.flatMap_append

/-- A writer that appends the frame of an item within a limit and fails on one above it writes the
frames of all items, as long as none is above it. -/
theorem foldlM_eq_ok_iff {α : Type} {write : Bytes → α → Except FrameError Bytes}
    {bodyOf : α → Bytes} {limit : Nat}
    (appends : ∀ item written, (bodyOf item).length ≤ limit →
      write written item = .ok (written ++ wire (bodyOf item)))
    (fails : ∀ item written, limit < (bodyOf item).length → ∃ e, write written item = .error e)
    {items : List α} :
    items.foldlM write written = .ok stream ↔
      (∀ item ∈ items, (bodyOf item).length ≤ limit) ∧
      stream = written ++ wires (items.map bodyOf) := by
  induction items generalizing written with
  | nil => simp [wires, pure, Except.pure, eq_comm]
  | cons item items ih =>
    rw [List.foldlM_cons]
    by_cases within : (bodyOf item).length ≤ limit
    · rw [appends item written within]
      apply ih.trans
      simp [within, wires]
    · obtain ⟨e, failed⟩ := fails item written (Nat.not_le.1 within)
      rw [failed]
      constructor
      · intro ok
        cases ok
      · rintro ⟨all, -⟩
        exact absurd (all item (List.mem_cons_self ..)) within

def encodeAll (bodies : List (Option Bytes)) (written : Bytes) : Except FrameError Bytes :=
  bodies.foldlM (fun written body => encode body written) written

theorem encodeAll_eq_ok_iff {bodies : List (Option Bytes)} :
    encodeAll bodies written = .ok stream ↔
      (∀ body ∈ bodies, (body.getD []).length ≤ maxBody) ∧
      stream = written ++ wires (bodies.map (·.getD [])) := by
  apply foldlM_eq_ok_iff
  · intro body written fits
    exact if_pos fits
  · intro body written above
    exact ⟨_, if_neg (Nat.not_le.2 above)⟩

theorem encodeAll_some_eq_ok_iff :
    encodeAll (bodies.map some) [] = .ok stream ↔
      (∀ body ∈ bodies, body.length ≤ maxBody) ∧ stream = wires bodies := by
  rw [encodeAll_eq_ok_iff, List.forall_mem_map, List.map_map, List.nil_append]
  simp only [Option.getD_some, Function.comp_def, List.map_id']

theorem decodeAll_wires (fits : ∀ body ∈ bodies, body.length ≤ maxBody) (rest : Bytes) :
    decodeAll (wires bodies ++ rest) = (bodies ++ (decodeAll rest).1, (decodeAll rest).2) := by
  induction bodies with
  | nil => rfl
  | cons body bodies ih =>
    have later := ih fun other mem => fits other (List.mem_cons_of_mem _ mem)
    rw [wires, List.flatMap_cons, ← wires, List.append_assoc,
      decodeAll_wire (fits body (List.mem_cons_self ..)), later]
    rfl

theorem decodeAll_wires_eq (fits : ∀ body ∈ bodies, body.length ≤ maxBody) :
    decodeAll (wires bodies) = (bodies, []) := by
  have all := decodeAll_wires fits []
  rwa [decodeAll_nil, List.append_nil, List.append_nil] at all

theorem wires_decodeAll (buffer : Bytes) :
    (∀ body ∈ (decodeAll buffer).1, body.length ≤ maxBody) ∧
    wires (decodeAll buffer).1 ++ (decodeAll buffer).2 = buffer := by
  induction size : buffer.length using Nat.strongRecOn generalizing buffer with
  | _ size ih =>
    cases taken : decode? buffer with
    | none =>
      rw [decodeAll_of_none taken]
      exact ⟨by simp, rfl⟩
    | some frame =>
      obtain ⟨body, rest⟩ := frame
      obtain ⟨fits, same⟩ := ih _ (size ▸ length_lt_of_decode? taken) rest rfl
      obtain ⟨bound, front⟩ := decode?_eq_some_iff.1 taken
      rw [decodeAll_of_some taken]
      refine ⟨List.forall_mem_cons.2 ⟨bound, fits⟩, ?_⟩
      rw [wires, List.flatMap_cons, ← wires, List.append_assoc, same, front]

/-- The only way to see a buffer as whole frames and an unfinished rest is the one in which they are
taken off, and nothing more can be taken off the rest. -/
theorem decodeAll_exact (buffer : Bytes) :
    (∀ bodies rest, decodeAll buffer = (bodies, rest) ↔
      (∃ written, encodeAll (bodies.map some) [] = .ok written ∧ written ++ rest = buffer) ∧
      decode? rest = none) ∧
    decodeAll (decodeAll buffer).2 = ([], (decodeAll buffer).2) := by
  refine ⟨fun bodies rest => ⟨fun taken => ?_, ?_⟩, decodeAll_of_none (decode?_decodeAll buffer)⟩
  · obtain ⟨fits, same⟩ := wires_decodeAll buffer
    have unfinished := decode?_decodeAll buffer
    rw [taken] at fits same unfinished
    exact ⟨⟨wires bodies, encodeAll_some_eq_ok_iff.2 ⟨fits, rfl⟩, same⟩, unfinished⟩
  · rintro ⟨⟨written, encoded, rfl⟩, unfinished⟩
    obtain ⟨fits, rfl⟩ := encodeAll_some_eq_ok_iff.1 encoded
    rw [decodeAll_wires fits, decodeAll_of_none unfinished, List.append_nil]

/-- Of a stream that has arrived in part, the frames that have arrived in full are taken off. -/
theorem decodeAll_of_part {received : Bytes} (fits : ∀ body ∈ bodies, body.length ≤ maxBody)
    (arrived : received <+: wires bodies) :
    (decodeAll received).1 <+: bodies ∧
    ∀ count ≤ bodies.length,
      wires (bodies.take count) <+: received ↔ count ≤ (decodeAll received).1.length := by
  obtain ⟨outstanding, whole⟩ := arrived
  have all := decodeAll_wires_eq fits
  rw [← whole, decodeAll_append, Prod.mk.injEq] at all
  have front : (decodeAll received).1 <+: bodies := ⟨_, all.1⟩
  refine ⟨front, fun count bound => ⟨?_, fun taken => ?_⟩⟩
  · rintro ⟨later, same⟩
    rw [← same, decodeAll_wires fun body mem => fits body (List.mem_of_mem_take mem),
      List.length_append, List.length_take_of_le bound]
    exact Nat.le_add_right ..
  · have among : bodies.take count <+: (decodeAll received).1 :=
      List.prefix_of_prefix_length_le (List.take_prefix ..) front
        (by rwa [List.length_take_of_le bound])
    obtain ⟨later, same⟩ := among
    rw [← (wires_decodeAll received).2, ← same, wires_append, List.append_assoc]
    exact List.prefix_append ..

/-- It does not matter how a stream is cut into chunks. If the frames of bodies arrive, a body is
taken off as soon as its frame is there in full, and in the end all of them and nothing else. -/
theorem chunking_immaterial (chunks : List Bytes) :
    (∀ buffer, chunks ≠ [] ∨ decode? buffer = none →
      receive buffer chunks = decodeAll (buffer ++ chunks.flatten)) ∧
    ∀ bodies : List (Option Bytes), (∀ body ∈ bodies, (body.getD []).length ≤ maxBody) →
      ∃ stream, encodeAll bodies [] = .ok stream ∧
        (chunks.flatten <+: stream →
          (receive [] chunks).1 <+: bodies.map (·.getD []) ∧
          ∀ count ≤ bodies.length, ∃ written, encodeAll (bodies.take count) [] = .ok written ∧
            (written <+: chunks.flatten ↔ count ≤ (receive [] chunks).1.length)) ∧
        (chunks.flatten = stream → receive [] chunks = (bodies.map (·.getD []), [])) := by
  refine ⟨fun buffer read => receive_eq_decodeAll chunks read, fun bodies fits => ?_⟩
  have fits' : ∀ body ∈ bodies.map (·.getD []), body.length ≤ maxBody := List.forall_mem_map.2 fits
  have read : receive [] chunks = decodeAll chunks.flatten :=
    receive_eq_decodeAll chunks (Or.inr rfl)
  refine ⟨wires (bodies.map (·.getD [])), encodeAll_eq_ok_iff.2 ⟨fits, rfl⟩, ?_, ?_⟩
  · intro arrived
    obtain ⟨front, complete⟩ := decodeAll_of_part fits' arrived
    rw [read]
    refine ⟨front, fun count bound => ⟨wires ((bodies.take count).map (·.getD [])),
      encodeAll_eq_ok_iff.2 ⟨fun body mem => fits body (List.mem_of_mem_take mem), rfl⟩, ?_⟩⟩
    rw [List.map_take]
    exact complete count (by simpa using bound)
  · intro arrived
    rw [read, arrived, decodeAll_wires_eq fits']

/-- Three bodies, one of them absent, arrive in chunks that cut a header and a body in two. -/
theorem chunking_immaterial_three :
    receive [] [[0], [3, 1], [], [2, 3, 0], [0, 0], [1, 4]] = ([[1, 2, 3], [], [4]], []) := by
  obtain ⟨-, written⟩ := chunking_immaterial [[0], [3, 1], [], [2, 3, 0], [0, 0], [1, 4]]
  obtain ⟨stream, encoded, -, whole⟩ := written [some [1, 2, 3], none, some [4]] (by decide)
  have bytes : encodeAll [some [1, 2, 3], none, some [4]] [] =
      .ok [0, 3, 1, 2, 3, 0, 0, 0, 1, 4] := rfl
  obtain rfl := Except.ok.inj (bytes.symm.trans encoded)
  exact whole rfl

end DeviceConnector.Frame
