import DeviceConnector.Proofs.Json.Record
import DeviceConnector.Proofs.Message.RoundTrip
/-!
# Texts that say the same

A message is read from the members that it knows. Their order, the blanks between the tokens of a
text and what stands under other keys make no difference, in the message or in one of its payloads.
-/

namespace DeviceConnector

open Json (Value Laid)

def Json.Value.IsText (v : Value) (text : Bytes) : Prop := v.IsSpelled ∧ Laid v.tokens text

namespace Message

open Json.Value (Edit Given Agree occurrences)

def payloads : List (String × List String) :=
  [("vdsm_request_hello", HelloRequest.fields), ("vdc_response_hello", EntityRef.fields),
    ("vdsm_send_ping", EntityRef.fields), ("vdc_send_pong", EntityRef.fields),
    ("vdsm_send_bye", EntityRef.fields), ("vdsm_send_remove", EntityRef.fields),
    ("generic_response", GenericResponse.fields), ("vdc_send_announce_vdc", EntityRef.fields),
    ("vdc_send_vanish", EntityRef.fields)]

/-- The members of two payloads with these fields differ in their order and in what stands under
other keys. -/
def PayloadVariant (kinds : List String) : List (Bytes × Value) → List (Bytes × Value) → Prop :=
  Relation.EqvGen (Edit kinds fun _ _ _ => False)

def Alike (name : String) (v v' : Value) : Prop :=
  ∃ kinds members members', payloads.lookup name = some kinds ∧ v = .object members ∧
    v' = .object members' ∧ PayloadVariant kinds members members'

/-- The members of two messages differ in their order, in what stands under other keys and in the
same way within their payloads. -/
def Variant : List (Bytes × Value) → List (Bytes × Value) → Prop :=
  Relation.EqvGen (Edit fields Alike)

def RepeatsKey (fields : List String) (members : List (Bytes × Value)) : Prop :=
  ∃ name ∈ fields, 2 ≤ occurrences members name

/-- One of the known members of the message or of a payload is given more than once. -/
def Repeats (members : List (Bytes × Value)) : Prop :=
  RepeatsKey fields members ∨
    ∃ key name kinds inner, (key, .object inner) ∈ members ∧ Json.toText? key = some name ∧
      payloads.lookup name = some kinds ∧ RepeatsKey kinds inner

variable {kinds : List String} {members members' : List (Bytes × Value)} {name : String}

/-- What every step leaves alone is left alone by them all. -/
theorem eq_of_eqvGen {α β : Type} {r : α → α → Prop} (f : α → β) (step : ∀ a b, r a b → f a = f b)
    {a b : α} (related : Relation.EqvGen r a b) : f a = f b := by
  induction related with
  | rel a b edit => exact step a b edit
  | refl a => rfl
  | symm a b _ ih => exact ih.symm
  | trans a b c _ _ ih ih' => exact ih.trans ih'

/-- The reader takes nothing but these fields of a record. -/
def Reads {α : Type} (kinds : List String) (read : Value → Option α) : Prop :=
  ∃ take : (String → Option Value) → Option α, (∀ v, read v = (v.record? kinds).bind take) ∧
    ∀ field field', (∀ name ∈ kinds, field name = field' name) → take field = take field'

theorem reads_entityRef : Reads EntityRef.fields EntityRef.ofJson? := by
  refine ⟨_, fun _ => rfl, fun field field' same => ?_⟩
  rw [same "dSUID" (by decide)]

theorem reads_helloRequest : Reads HelloRequest.fields HelloRequest.ofJson? := by
  refine ⟨_, fun _ => rfl, fun field field' same => ?_⟩
  rw [same "dSUID" (by decide), same "api_version" (by decide)]

theorem reads_genericResponse : Reads GenericResponse.fields GenericResponse.ofJson? := by
  refine ⟨_, fun _ => rfl, fun field field' same => ?_⟩
  rw [same "code" (by decide), same "description" (by decide)]

section

variable {α : Type} {read : Value → Option α}

theorem Reads.variant (reads : Reads kinds read) (variant : PayloadVariant kinds members members') :
    read (.object members) = read (.object members') := by
  obtain ⟨take, taken, only⟩ := reads
  refine eq_of_eqvGen (fun members => read (.object members)) (fun _ _ edit => ?_) variant
  rw [taken, taken]
  refine edit.agree.bind_eq fun field field' given => only field field' fun name mem => ?_
  rcases given name mem with same | ⟨_, _, -, -, alike⟩
  · exact same
  · exact alike.elim

theorem Reads.repeated (reads : Reads kinds read) (repeated : RepeatsKey kinds members) :
    read (.object members) = none := by
  obtain ⟨take, taken, -⟩ := reads
  obtain ⟨name, declared, twice⟩ := repeated
  rw [taken, Value.record?_object_of_repeated declared twice, Option.bind_none]

theorem Reads.optional (reads : Reads kinds read) (listed : payloads.lookup name = some kinds)
    {value value' : Option Value} (given : Given Alike name value value') :
    Value.optional read value = Value.optional read value' := by
  rcases given with same | ⟨v, v', rfl, rfl, kinds', members, members', listed', rfl, rfl, variant⟩
  · rw [same]
  · obtain rfl : kinds = kinds' := Option.some_inj.1 (listed.symm.trans listed')
    rw [Value.optional_some read (by simp), Value.optional_some read (by simp),
      reads.variant variant]

end

theorem eq_of_given (unlisted : payloads.lookup name = none) {value value' : Option Value}
    (given : Given Alike name value value') : value = value' := by
  rcases given with same | ⟨v, v', -, -, kinds, _, _, listed, -⟩
  · exact same
  · rw [unlisted] at listed
    cases listed

theorem ofJson?_agree {v v' : Value}
    (agree : Agree fields Alike (v.record? fields) (v'.record? fields)) :
    ofJson? v = ofJson? v' := by
  refine agree.bind_eq fun field field' given => ?_
  have plain (name : String) (mem : name ∈ fields) (unlisted : payloads.lookup name = none) :
      field name = field' name := eq_of_given unlisted (given name mem)
  have payload {α : Type} {read : Value → Option α} {kinds : List String} (reads : Reads kinds read)
      (name : String) (mem : name ∈ fields) (listed : payloads.lookup name = some kinds) :
      Value.optional read (field name) = Value.optional read (field' name) :=
    reads.optional listed (given name mem)
  have entity (name : String) := payload reads_entityRef name
  dsimp only
  rw [plain "type" (by decide) rfl, plain "message_id" (by decide) rfl,
    payload reads_helloRequest "vdsm_request_hello" (by decide) rfl,
    entity "vdc_response_hello" (by decide) rfl, entity "vdsm_send_ping" (by decide) rfl,
    entity "vdc_send_pong" (by decide) rfl, entity "vdsm_send_bye" (by decide) rfl,
    entity "vdsm_send_remove" (by decide) rfl,
    payload reads_genericResponse "generic_response" (by decide) rfl,
    entity "vdc_send_announce_vdc" (by decide) rfl, entity "vdc_send_vanish" (by decide) rfl]

theorem ofJson?_variant (variant : Variant members members') :
    ofJson? (.object members) = ofJson? (.object members') :=
  eq_of_eqvGen (fun members => ofJson? (.object members)) (fun _ _ edit => ofJson?_agree edit.agree)
    variant

/-- Every payload of a message that is read is read as well. -/
theorem TakenFrom.payload {field : String → Option Value} {m : Message} (taken : TakenFrom field m)
    (listed : payloads.lookup name = some kinds) :
    name ∈ fields ∧ ∃ (α : Type) (read : Value → Option α) (a : Option α), Reads kinds read ∧
      Value.optional read (field name) = some a := by
  obtain ⟨before, after, split, -⟩ := List.lookup_eq_some_iff.1 listed
  have mem : (name, kinds) ∈ payloads := by simp [split]
  -- the fields are of three types, so there is no one reader for them all
  simp only [payloads, List.mem_cons, List.not_mem_nil, or_false, Prod.mk.injEq] at mem
  rcases mem with ⟨rfl, rfl⟩ | ⟨rfl, rfl⟩ | ⟨rfl, rfl⟩ | ⟨rfl, rfl⟩ | ⟨rfl, rfl⟩ | ⟨rfl, rfl⟩ |
    ⟨rfl, rfl⟩ | ⟨rfl, rfl⟩ | ⟨rfl, rfl⟩
  · exact ⟨by decide, _, _, _, reads_helloRequest, taken.helloRequest⟩
  · exact ⟨by decide, _, _, _, reads_entityRef, taken.helloResponse⟩
  · exact ⟨by decide, _, _, _, reads_entityRef, taken.ping⟩
  · exact ⟨by decide, _, _, _, reads_entityRef, taken.pong⟩
  · exact ⟨by decide, _, _, _, reads_entityRef, taken.bye⟩
  · exact ⟨by decide, _, _, _, reads_entityRef, taken.remove⟩
  · exact ⟨by decide, _, _, _, reads_genericResponse, taken.response⟩
  · exact ⟨by decide, _, _, _, reads_entityRef, taken.announce⟩
  · exact ⟨by decide, _, _, _, reads_entityRef, taken.vanish⟩

theorem ofJson?_of_repeats (repeats : Repeats members) : ofJson? (.object members) = none := by
  rw [Option.eq_none_iff_forall_ne_some]
  intro m read
  obtain ⟨field, record, taken⟩ := ofJson?_eq_some_iff.1 read
  rcases repeats with ⟨name, declared, twice⟩ |
    ⟨key, name, kinds, inner, mem, said, listed, repeated⟩
  · rw [Value.record?_object_of_repeated declared twice] at record
    cases record
  · obtain ⟨declared, α, reader, a, reads, given⟩ := taken.payload listed
    rw [Value.field_of_mem record declared mem said, Value.optional_some reader (by simp),
      reads.repeated repeated] at given
    cases given

theorem decode_of_isText {text : Bytes} {v : Value} (isText : v.IsText text) :
    decode text = (ofJson? v).elim (.error .json) .ok := by
  have parsed := Value.parse?_of_laid isText.1 isText.2
  have nonempty : text.isEmpty = false := by
    cases text with
    | nil => cases parsed
    | cons => rfl
  rw [decode, nonempty, parsed, Option.bind_some]
  cases ofJson? v <;> rfl

theorem decode_eq_ok_iff_of_isText {text : Bytes} {v : Value} (isText : v.IsText text)
    {m : Message} : decode text = .ok m ↔ ofJson? v = some m := by
  rw [decode_of_isText isText]
  cases ofJson? v <;> simp

/-- Texts of a message that differ only in the order of its known members, in blanks and in unknown
members are all read as the same message, or none of them is read. None is if a known member of the
message or of one of its payloads is there twice. -/
theorem decode_variant {text text' : Bytes} (variant : Variant members members')
    (isText : (Value.object members).IsText text) (isText' : (Value.object members').IsText text') :
    ((∃ m, BodyCodec.json.decode text = .ok m ∧ BodyCodec.json.decode text' = .ok m) ∨
      (BodyCodec.json.decode text = .error .json ∧ BodyCodec.json.decode text' = .error .json)) ∧
    (Repeats members → BodyCodec.json.decode text' = .error .json) := by
  have read : BodyCodec.json.decode text = _ := decode_of_isText isText
  have read' : BodyCodec.json.decode text' = _ := decode_of_isText isText'
  rw [← ofJson?_variant variant] at read'
  constructor
  · cases taken : ofJson? (.object members) with
    | some m =>
      rw [taken] at read read'
      exact Or.inl ⟨m, read, read'⟩
    | none =>
      rw [taken] at read read'
      exact Or.inr ⟨read, read'⟩
  · intro repeats
    rw [read', ofJson?_of_repeats repeats]
    rfl

def pinging (payload : List (Bytes × Value)) : List (Bytes × Value) :=
  [(Json.ofText "type", .ofText "vdsm_send_ping"), (Json.ofText "vdsm_send_ping", .object payload)]

def pinged : Bytes × Value := (Json.ofText "dSUID", .ofText "0")

def extra : Bytes × Value :=
  (Json.ofText "extra", .array [.object [], .number [0x31, 0x65, 0x35]])

def strewn : List (Bytes × Value) :=
  [(Json.ofText "vdsm_send_ping", .object [extra, pinged]), extra,
    (Json.ofText "type", .ofText "vdsm_send_ping")]

def twice : List (Bytes × Value) := [pinged, (pinged.1, .null)]

def spaced (v : Value) : Bytes := v.tokens.flatMap (fun token => 0x20 :: token.spelling) ++ [0x0A]

theorem laid_spaced (v : Value) : Laid v.tokens (spaced v) := by
  unfold spaced
  induction v.tokens with
  | nil => exact .blanks rfl
  | cons token tokens ih => simpa using @Laid.token [0x20] _ token tokens rfl ih

theorem variant_strewn : Variant (pinging [pinged]) strewn := by
  have named (name : String) : Json.toText? (Json.ofText name) = some name :=
    Json.toText?_ofText name
  have inner : PayloadVariant EntityRef.fields [pinged] [extra, pinged] :=
    .rel _ _ (.insert (named "extra") (by decide) _ _)
  have alike : Alike "vdsm_send_ping" (.object [pinged]) (.object [extra, pinged]) :=
    ⟨_, _, _, rfl, rfl, rfl, inner⟩
  refine .trans _ _ _ (.rel _ _ (.permute (.swap ..))) ?_
  refine .trans _ _ _ (.rel _ _ (.replace (named _) alike _)) ?_
  refine .trans _ _ _ (.rel _ _ (.insert (named "extra") (by decide) extra.2 _)) ?_
  exact .rel _ _ (.permute (.swap ..))

theorem decode_variant_strewn :
    Variant (pinging [pinged]) strewn ∧ Repeats (pinging twice) ∧
    BodyCodec.json.decode (spaced (.object strewn)) =
      .ok { type := .ping, ping := some ⟨some "0"⟩ } ∧
    BodyCodec.json.decode (spaced (.object (pinging twice))) = .error .json := by
  have number : Json.IsNumber [0x31, 0x65, 0x35] := ⟨_, _, _, _, rfl, rfl, rfl, rfl⟩
  have key (name : String) : Json.IsContent (Json.ofText name) := Json.isContent_escape _
  have compact : (Value.object (pinging [pinged])).IsText (Value.render _) :=
    ⟨by simp [pinging, pinged, Value.IsSpelled, Value.MembersAreSpelled, key,
      Value.isSpelled_ofText], Json.laid_spellings _⟩
  have wide : (Value.object strewn).IsText _ :=
    ⟨by simp [strewn, pinged, extra, Value.IsSpelled, Value.AreSpelled, Value.MembersAreSpelled,
      key, Value.isSpelled_ofText, number], laid_spaced _⟩
  have doubled : (Value.object (pinging twice)).IsText _ :=
    ⟨by simp [pinging, twice, pinged, Value.IsSpelled, Value.MembersAreSpelled, key,
      Value.isSpelled_ofText], laid_spaced _⟩
  have repeats : Repeats (pinging twice) :=
    Or.inr ⟨_, "vdsm_send_ping", _, _, List.mem_cons_of_mem _ (List.mem_cons_self ..),
      Json.toText?_ofText _, rfl, "dSUID", by decide, by decide +kernel⟩
  have read : BodyCodec.json.decode (Value.object (pinging [pinged])).render =
      .ok { type := .ping, ping := some ⟨some "0"⟩ } := by rfl
  refine ⟨variant_strewn, repeats, ?_, (decode_variant (.refl _) doubled doubled).2 repeats⟩
  obtain ⟨⟨m, taken, same⟩ | ⟨failed, -⟩, -⟩ := decode_variant variant_strewn compact wide
  · rw [read] at taken
    cases taken
    exact same
  · rw [read] at failed
    cases failed

end Message

end DeviceConnector
