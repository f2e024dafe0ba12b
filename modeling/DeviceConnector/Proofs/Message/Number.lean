import DeviceConnector.Proofs.Json.Number
import DeviceConnector.Proofs.Message.Variant
/-!
# Numbers in messages

The id of a message and the API version of a hello are numbers of 32 bits. In a body that is read
otherwise, exactly the plain decimal literals of such numbers are read, each as the number that it
writes; with any other literal the body is not read at all.
-/

namespace DeviceConnector

open Json (Value)

theorem HelloRequest.ofJson?_gap {put : Value → Value}
    (gap : Value.Gap HelloRequest.fields "api_version" put) {v : Value} {request : HelloRequest}
    (read : ofJson? (put v) = some request) (v' : Value) :
    ofJson? (put v') = (Value.optional Value.word? (some v')).map fun version =>
      { request with apiVersion := version } := by
  obtain ⟨rest, whole⟩ := gap.exists_rest (by decide) (by decide)
  rw [ofJson?, whole v] at read
  rw [ofJson?, whole v']
  cases rest with
  | none => cases read
  | some field =>
    simp only [Option.map_some, Option.bind_eq_bind, Option.bind_some, Option.bind_eq_some_iff,
      Function.update_apply, String.reduceEq, if_false, if_true] at read ⊢
    obtain ⟨dsuid, named, version, -, same⟩ := read
    cases same
    rw [named]
    cases Value.optional Value.word? (some v') <;> rfl

namespace Message

variable {put : Value → Value} {v : Value} {m : Message}

/-- A message is read field by field, so all its fields but one are given without that one. -/
theorem exists_field {name : String} (gap : Value.Gap fields name put) (declared : name ∈ fields)
    (read : ofJson? (put v) = some m) :
    ∃ field, TakenFrom (Function.update field name (some v)) m ∧
      ∀ v', (put v').record? fields = some (Function.update field name (some v')) := by
  obtain ⟨rest, whole⟩ := gap.exists_rest (by decide) declared
  obtain ⟨_, record, taken⟩ := ofJson?_eq_some_iff.1 read
  rw [whole v] at record
  obtain ⟨field, rfl, rfl⟩ := Option.map_eq_some_iff.1 record
  exact ⟨field, taken, whole⟩

theorem ofJson?_id_gap (gap : Value.Gap fields "message_id" put) (read : ofJson? (put v) = some m)
    (v' : Value) : ofJson? (put v') =
      (Value.optional Value.word? (some v')).map fun id => { m with id } := by
  obtain ⟨field, taken, record⟩ := exists_field gap (by decide) read
  obtain ⟨type, -, hello, welcome, ping, pong, bye, remove, response, announce, vanish⟩ := taken
  simp only [Function.update_apply, String.reduceEq, if_false] at *
  rw [ofJson?, record]
  simp only [Option.bind_eq_bind, Option.bind_some, Function.update_apply, String.reduceEq,
    if_false, if_true, type, hello, welcome, ping, pong, bye, remove, response, announce, vanish]
  cases Value.optional Value.word? (some v') <;> rfl

theorem ofJson?_hello_gap (gap : Value.Gap fields "vdsm_request_hello" put)
    (read : ofJson? (put v) = some m) (v' : Value) : ofJson? (put v') =
      (Value.optional HelloRequest.ofJson? (some v')).map fun helloRequest =>
        { m with helloRequest } := by
  obtain ⟨field, taken, record⟩ := exists_field gap (by decide) read
  obtain ⟨type, id, -, welcome, ping, pong, bye, remove, response, announce, vanish⟩ := taken
  simp only [Function.update_apply, String.reduceEq, if_false] at *
  rw [ofJson?, record]
  simp only [Option.bind_eq_bind, Option.bind_some, Function.update_apply, String.reduceEq,
    if_false, if_true, type, id, welcome, ping, pong, bye, remove, response, announce, vanish]
  cases Value.optional HelloRequest.ofJson? (some v') <;> rfl

inductive NumberPlace where
  | id
  | apiVersion

inductive NumberGap : NumberPlace → (Value → Value) → Prop where
  | id {put : Value → Value} (gap : Value.Gap fields "message_id" put) : NumberGap .id put
  | apiVersion {put inner : Value → Value} (outer : Value.Gap fields "vdsm_request_hello" put)
      (gap : Value.Gap HelloRequest.fields "api_version" inner) :
      NumberGap .apiVersion fun v => put (inner v)

def number? (m : Message) : NumberPlace → Option UInt32
  | .id => m.id
  | .apiVersion => m.helloRequest.bind (·.apiVersion)

def withNumber (m : Message) (n : UInt32) : NumberPlace → Message
  | .id => { m with id := some n }
  | .apiVersion =>
    { m with
      helloRequest := m.helloRequest.map fun request => { request with apiVersion := some n } }

variable {place : NumberPlace} {literal : Bytes}

theorem NumberGap.isSpelled (gap : NumberGap place put) (spelled : (put v).IsSpelled)
    (number : Json.IsNumber literal) : (put (.number literal)).IsSpelled := by
  cases gap with
  | id gap =>
    obtain ⟨_, spelled_iff⟩ := gap.isSpelled_iff
    exact (spelled_iff _).2 ⟨((spelled_iff v).1 spelled).1, number⟩
  | apiVersion outer gap =>
    obtain ⟨_, outer_iff⟩ := outer.isSpelled_iff
    obtain ⟨_, spelled_iff⟩ := gap.isSpelled_iff
    obtain ⟨around, inside⟩ := (outer_iff _).1 spelled
    exact (outer_iff _).2 ⟨around, (spelled_iff _).2 ⟨((spelled_iff v).1 inside).1, number⟩⟩

/-- Whether a message is read depends on the literal alone, and so does the number in its place. -/
theorem NumberGap.ofJson? (gap : NumberGap place put) (read : Message.ofJson? (put v) = some m)
    (literal : Bytes) : (∀ n, (m.withNumber n place).number? place = some n) ∧
      Message.ofJson? (put (.number literal)) =
        (Value.literalWord? literal).map fun n => m.withNumber n place := by
  have word : Value.optional Value.word? (some (.number literal)) =
      (Value.literalWord? literal).map some := rfl
  cases gap with
  | id gap =>
    refine ⟨fun n => rfl, ?_⟩
    rw [ofJson?_id_gap gap read, word, Option.map_map]
    rfl
  | @apiVersion put inner outer gap =>
    have given (v : Value) : inner v ≠ .null := by cases gap <;> simp
    obtain ⟨hello, greeted, same⟩ := Option.map_eq_some_iff.1
      ((ofJson?_hello_gap outer read (inner v)).symm.trans read)
    rw [Value.optional_some _ (given v)] at greeted
    obtain ⟨request, asked, rfl⟩ := Option.map_eq_some_iff.1 greeted
    have helloRequest : m.helloRequest = some request := by rw [← same]
    refine ⟨fun n => by simp [withNumber, number?, helloRequest], ?_⟩
    rw [ofJson?_hello_gap outer read, Value.optional_some _ (given _),
      HelloRequest.ofJson?_gap gap asked, word, Option.map_map, Option.map_map, Option.map_map]
    congr 1
    funext n
    simp [withNumber, helloRequest]

/-- Let a message be read from a body. With the literal of a number as its id, or as the API version
of its hello, it is read from each of the resulting texts, if the literal is a plain decimal integer
of 32 bits, as the same message with that number; otherwise none of these texts is read. -/
theorem decode_number (gap : NumberGap place put) {base : Bytes} (isText : (put v).IsText base)
    (read : BodyCodec.json.decode base = .ok m) (number : Json.IsNumber literal) :
    (put (.number literal)).IsText (put (.number literal)).render ∧
    ∀ text, (put (.number literal)).IsText text →
      ((∃ m', BodyCodec.json.decode text = .ok m') ↔
        Json.IsPlain literal ∧ Json.literalValue literal ≤ 4294967295) ∧
      (∀ m', BodyCodec.json.decode text = .ok m' → ∃ n : UInt32,
        n.toNat = Json.literalValue literal ∧ m'.number? place = some n ∧
          m' = m.withNumber n place) ∧
      (¬ (Json.IsPlain literal ∧ Json.literalValue literal ≤ 4294967295) →
        BodyCodec.json.decode text = .error .json) := by
  have spelled := gap.isSpelled isText.1 number
  have taken := (decode_eq_ok_iff_of_isText isText).1 read
  obtain ⟨held, value⟩ := gap.ofJson? taken literal
  refine ⟨⟨spelled, Json.laid_spellings _⟩, fun text isText' => ?_⟩
  have decoded : BodyCodec.json.decode text = _ := decode_of_isText isText'
  rw [value] at decoded
  cases word : Value.literalWord? literal with
  | some n =>
    obtain ⟨plain, written⟩ := (Json.literalWord?_eq_some_iff number).1 word
    have fits : Json.IsPlain literal ∧ Json.literalValue literal ≤ 4294967295 := by
      by_contra other
      rw [(Json.literalWord?_eq_none_iff number).2 other] at word
      cases word
    rw [word] at decoded
    refine ⟨iff_of_true ⟨_, decoded⟩ fits, ?_, fun other => absurd fits other⟩
    intro m' read'
    cases decoded.symm.trans read'
    exact ⟨n, written.symm, held n, rfl⟩
  | none =>
    have other := (Json.literalWord?_eq_none_iff number).1 word
    rw [word] at decoded
    have unread (m' : Message) : BodyCodec.json.decode text ≠ .ok m' := by
      intro read'
      cases decoded.symm.trans read'
    exact ⟨iff_of_false (fun ⟨m', read'⟩ => unread m' read') other,
      fun m' read' => absurd read' (unread m'), fun _ => decoded⟩

def helloOver (payload : Value) : Value :=
  .object ([(Json.ofText "type", .ofText "vdsm_request_hello")] ++
    (Json.ofText "vdsm_request_hello", payload) :: [])

def helloWith (version : Value) : Value := helloOver (.array ([.ofText "0"] ++ version :: []))

theorem numberGap_helloWith : NumberGap .apiVersion helloWith := by
  have inner : Value.Gap HelloRequest.fields "api_version"
      fun version => .array ([.ofText "0"] ++ version :: []) := .placed _ _ rfl
  have outer : Value.Gap fields "vdsm_request_hello" helloOver :=
    .keyed _ (Json.toText?_ofText _) _
  have gap := NumberGap.apiVersion outer inner
  exact gap

/-- The last number that fits, the first that does not, and one with a fraction. -/
theorem decode_number_limit :
    (∃ m, BodyCodec.json.decode (helloWith (.ofNat 4294967295)).render = .ok m ∧
      m.number? .apiVersion = some 4294967295) ∧
    BodyCodec.json.decode (helloWith (.ofNat 4294967296)).render = .error .json ∧
    BodyCodec.json.decode (helloWith (.number [0x31, 0x2E, 0x30])).render = .error .json := by
  have key (name : String) : Json.IsContent (Json.ofText name) := Json.isContent_escape _
  have compact : (helloWith .null).IsText (helloWith .null).render :=
    ⟨by simp [helloWith, helloOver, Value.IsSpelled, Value.AreSpelled, Value.MembersAreSpelled, key,
      Value.isSpelled_ofText], Json.laid_spellings _⟩
  have read : BodyCodec.json.decode (helloWith .null).render =
      .ok { type := .requestHello, helloRequest := some ⟨some "0", none⟩ } := by rfl
  have point : Json.IsNumber [0x31, 0x2E, 0x30] := ⟨_, _, _, _, rfl, rfl, rfl, rfl⟩
  obtain ⟨least, fits⟩ := decode_number numberGap_helloWith compact read
    (Json.isNumber_decimal 4294967295)
  obtain ⟨wider, wide⟩ := decode_number numberGap_helloWith compact read
    (Json.isNumber_decimal 4294967296)
  obtain ⟨pointed, parted⟩ := decode_number numberGap_helloWith compact read point
  refine ⟨?_, (wide _ wider).2.2 ?_, (parted _ pointed).2.2 ?_⟩
  · obtain ⟨accepted, holds, -⟩ := fits _ least
    have value : Json.literalValue (Json.decimal 4294967295) = 4294967295 :=
      Json.literalValue_decimal _
    obtain ⟨m, taken⟩ := accepted.2 ⟨Json.isPlain_decimal _, Nat.le_of_eq value⟩
    obtain ⟨n, written, held, -⟩ := holds m taken
    rw [value] at written
    have limit : n = 4294967295 := UInt32.toNat_inj.1 written
    exact ⟨m, taken, by rw [held, limit]⟩
  · rintro ⟨-, small⟩
    rw [Json.literalValue_decimal] at small
    omega
  · rintro ⟨⟨⟨-, digits⟩, -⟩, -⟩
    exact absurd (digits 0x2E (by simp)) (by decide)

end Message

end DeviceConnector
