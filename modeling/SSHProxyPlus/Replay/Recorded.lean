import SSHProxyPlus.Replay.Effects
import SSHProxyPlus.Session.Event

/-! The events that the proxy records, as a page reads them. -/
namespace SSHProxyPlus
open Go Browser

def directionIncoming : Bytes := lit "incoming"
def directionOutgoing : Bytes := lit "outgoing"
def requestExec : Bytes := lit "exec"

namespace SessionEvent
variable (e : SessionEvent)

/-- `json.Marshal` at the proxy, `JSON.parse` and `new TerminalEvent` in the page. -/
def received : Option TerminalEvent :=
  (parse (runes (codec.marshal e))).bind TerminalEvent.construct

theorem ofJson_integer (n : Int) :
    Value.ofJson (.num (.ofInt n)) = some (.number (roundDouble n)) := by
  simp [Value.ofJson, Number.ofInt, parseInt_itoa]

theorem fields_values : ∀ f ∈ fields, Value.ofJson (f.encode e) ≠ none := by
  simp only [fields, List.forall_mem_cons, field, stringCodec, intCodec, dataCodec, bytesCodec,
    uint32Codec, unsignedCodec, ofJson_integer]
  simp [Value.ofJson]

variable {e} {event : TerminalEvent}

/-- Every event is received; a property is there unless the encoder dropped the field, and there
are no others. -/
theorem received_properties (e : SessionEvent) : ∃ event, e.received = some event ∧
    (∀ f ∈ fields, event f.name = fieldProperty f e) ∧
    ∀ key ∉ fields.map StructField.name, event key = none := by
  have parsed : parse (runes (codec.marshal e)) = some (codec.encode e) := by
    rw [Codec.marshal, marshalText, runes_utf8, parse_render]
  have distinct : (fields.map StructField.name).Nodup := by decide +kernel
  obtain ⟨event, read, named, others⟩ := readMembers_members distinct (fields_values e) Object.empty
  have getter : "time_offset".toList ∉ (StructField.members fields e).map Prod.fst := by
    intro member
    obtain ⟨entry, among, same⟩ := List.mem_map.mp member
    obtain ⟨f, inside, kept⟩ := List.mem_filterMap.mp among
    have name : f.name = "time_offset".toList := by
      split at kept
      · cases kept
      · rw [← same, ← Option.some.inj kept]
    have absent : "time_offset".toList ∉ fields.map StructField.name := by decide +kernel
    exact absent (name ▸ List.mem_map_of_mem inside)
  refine ⟨event, ?_, fun f member => ?_, others⟩
  · rw [received, parsed, Option.bind_some, codec, structCodec, visible_fields,
      TerminalEvent.construct, if_neg getter, read]
  · rw [named f member, Object.empty, Option.or_none]

theorem received_field (received : e.received = some event) (i : Fin fields.length) :
    event (fields.get i).name = fieldProperty (fields.get i) e := by
  obtain ⟨other, same, properties, -⟩ := received_properties e
  obtain rfl := Option.some.inj (same.symm.trans received)
  exact properties _ (List.get_mem fields i)

/-- Nothing is recorded that makes a session live. -/
theorem received_live (received : e.received = some event) : event.get "live" = none := by
  obtain ⟨other, same, -, others⟩ := received_properties e
  obtain rfl := Option.some.inj (same.symm.trans received)
  exact others _ (by decide +kernel)

theorem received_omitted (received : e.received = some event) (i : Fin fields.length)
    (omits : (fields.get i).omitEmpty = true) : event (fields.get i).name =
      if (fields.get i).empty e then none else Value.ofJson ((fields.get i).encode e) := by
  rw [received_field received, fieldProperty, omits, Bool.true_and]

theorem received_type (received : e.received = some event) :
    event.get "type" = some (.text (runes e.type)) := received_field received ⟨0, by decide⟩

theorem received_offset (received : e.received = some event) :
    event.timeOffset =
      if e.timeOffset = 0 then none else some (.number (roundDouble e.timeOffset.toInt)) := by
  refine (received_omitted received ⟨5, by decide⟩ (by decide)).trans ?_
  change (if (e.timeOffset == 0) = true then none else
    Value.ofJson (.num (.ofInt e.timeOffset.toInt))) = _
  simp only [beq_iff_eq, ofJson_integer]

/-- A text or a byte slice is missing if it is empty. -/
theorem received_text (received : e.received = some event) (i : Fin fields.length) {bytes : Bytes}
    {text : List Char} (omits : (fields.get i).omitEmpty = true)
    (empty : (fields.get i).empty e = bytes.isEmpty)
    (value : Value.ofJson ((fields.get i).encode e) = some (.text text)) :
    event (fields.get i).name = if bytes = [] then none else some (.text text) := by
  rw [received_omitted received i omits, empty, value]
  simp only [List.isEmpty_iff]

theorem received_direction (received : e.received = some event) :
    event.get "direction" =
      if e.direction = [] then none else some (.text (runes e.direction)) :=
  received_text received ⟨6, by decide⟩ (by decide) rfl rfl

theorem received_data (received : e.received = some event) :
    event.get "data" = if e.data = [] then none else some (.text (base64Encode e.data)) :=
  received_text received ⟨8, by decide⟩ (by decide) rfl rfl

theorem received_requestType (received : e.received = some event) :
    event.get "request_type" =
      if e.requestType = [] then none else some (.text (runes e.requestType)) :=
  received_text received ⟨17, by decide⟩ (by decide) rfl rfl

theorem received_requestPayload (received : e.received = some event) :
    event.get "request_payload" =
      if e.requestPayload = [] then none else some (.text (base64Encode e.requestPayload)) :=
  received_text received ⟨18, by decide⟩ (by decide) rfl rfl

theorem runes_nil : runes [] = [] := rfl

/-- A property is some plain text exactly if the field is. -/
theorem has_field {key text : String} {bytes : Bytes} (plain : '\uFFFD' ∉ text.toList)
    (solid : text.toList ≠ [])
    (property : event.get key = if bytes = [] then none else some (.text (runes bytes))) :
    event.has key text = true ↔ bytes = lit text := by
  rw [Object.has_iff, property, lit, ← runes_eq_iff plain]
  by_cases empty : bytes = []
  · simp [empty, runes_nil, Ne.symm solid]
  · simp [empty]

theorem received_has_type (received : e.received = some event) {text : String}
    (plain : '\uFFFD' ∉ text.toList) : event.has "type" text = true ↔ e.type = lit text := by
  rw [Object.has_iff, received_type received, lit, ← runes_eq_iff plain]
  simp

theorem received_incoming (received : e.received = some event) : event.incoming = true ↔
    e.type = eventMessage ∧ e.direction = directionIncoming := by
  rw [TerminalEvent.incoming, Bool.and_eq_true_iff, received_has_type received (by decide),
    has_field (by decide) (by decide) (received_direction received)]
  rfl

theorem received_outgoing (received : e.received = some event) : event.outgoing = true ↔
    e.type = eventMessage ∧ e.direction = directionOutgoing := by
  rw [TerminalEvent.outgoing, Bool.and_eq_true_iff, received_has_type received (by decide),
    has_field (by decide) (by decide) (received_direction received)]
  rfl

theorem received_execRequest (received : e.received = some event) : event.execRequest = true ↔
    e.type = eventNewRequest ∧ e.requestType = requestExec := by
  rw [TerminalEvent.execRequest, Bool.and_eq_true_iff, received_has_type received (by decide),
    has_field (by decide) (by decide) (received_requestType received)]
  rfl

/-- What was dropped can not be decoded; the rest is what was recorded. -/
theorem atobProperty_bytes {property : Option Value} {bytes : Bytes}
    (same : property = if bytes = [] then none else some (.text (base64Encode bytes))) :
    atobProperty property = if bytes = [] then none else some (binaryText bytes) := by
  rw [same]
  by_cases empty : bytes = []
  · rw [if_pos empty, if_pos empty, atobProperty_none]
  · rw [if_neg empty, if_neg empty]
    exact atob_encode bytes

variable (e)

/-- The text a message from the server is to add to the output, with its line ends written in
some way. -/
def outputText (lines : List Char → List Char) : List Char :=
  if e.type = eventMessage ∧ e.direction = directionIncoming then lines (binaryText e.data) else []

/-- What a message to the server, or a request to run a command, is to add to the input. -/
def inputText : List Char :=
  if e.type = eventMessage ∧ e.direction = directionOutgoing then
    if e.data = [0] then [] else binaryText e.data
  else if e.type = eventNewRequest ∧ e.requestType = requestExec then
    binaryText (e.requestPayload.drop 4)
  else []

/-- A page that comes to the event reads all of it: nothing is thrown, each buffer has the text
that belongs to it, and the offset is a number. -/
def ReadWith (lines : List Char → List Char) : Prop :=
  ∃ event, e.received = some event ∧ event.timeOffset = some (.number e.timeOffset.toInt) ∧
    ∀ (reader : TerminalReader) index, reader.events[index]? = some event →
      ∃ after, reader.actionEvent index = .ok after ∧
        after.terminalBuffer = reader.terminalBuffer ++ e.outputText lines ∧
        after.keystrokeBuffer = reader.keystrokeBuffer ++ e.inputText

/-- Nothing that a page needs is left out by the encoder. -/
structure Complete : Prop where
  data : e.type = eventMessage → e.direction = directionIncoming ∨ e.direction = directionOutgoing →
    e.data ≠ []
  payload : e.type = eventNewRequest → e.requestType = requestExec → e.requestPayload ≠ []
  offset : e.timeOffset ≠ 0
  exact : roundDouble e.timeOffset.toInt = e.timeOffset.toInt

variable {e}

theorem binaryText_nul {bytes : Bytes} : binaryText bytes = ['\x00'] ↔ bytes = [0] :=
  List.map_injective_iff.mpr byteChar_injective |>.eq_iff (b := [0])

theorem received_rendered (received : e.received = some event) :
    event.rendered = e.outputText normalizeNewlines := by
  unfold TerminalEvent.rendered outputText
  simp only [received_incoming received, atobProperty_bytes (received_data received)]
  refine if_congr Iff.rfl ?_ rfl
  by_cases empty : e.data = []
  · rw [if_pos empty, empty]
    rfl
  · rw [if_neg empty]
    rfl

theorem received_typed (received : e.received = some event) : event.typed = e.inputText := by
  unfold TerminalEvent.typed inputText
  simp only [received_outgoing received, received_execRequest received,
    atobProperty_bytes (received_data received),
    atobProperty_bytes (received_requestPayload received)]
  refine if_congr Iff.rfl ?_ (if_congr Iff.rfl ?_ rfl)
  · by_cases empty : e.data = []
    · rw [if_pos empty, empty]
      rfl
    · rw [if_neg empty]
      simp only [ne_eq, binaryText_nul, ite_not]
  · by_cases empty : e.requestPayload = []
    · rw [if_pos empty, empty]
      rfl
    · rw [if_neg empty]
      exact List.map_drop.symm

theorem received_decodable (received : e.received = some event) : event.Decodable ↔
    (e.type = eventMessage → e.direction = directionIncoming ∨ e.direction = directionOutgoing →
      e.data ≠ []) ∧
    (e.type = eventNewRequest → e.requestType = requestExec → e.requestPayload ≠ []) := by
  unfold TerminalEvent.Decodable
  rw [received_incoming received, received_outgoing received, received_execRequest received,
    atobProperty_bytes (received_data received),
    atobProperty_bytes (received_requestPayload received)]
  have present : ∀ bytes : Bytes,
      (if bytes = [] then none else some (binaryText bytes)) ≠ none ↔ bytes ≠ [] := by
    intro bytes
    split <;> simp_all
  rw [present, present, ← and_or_left]
  simp only [and_imp]

theorem readWith_iff (lines : List Char → List Char) : e.ReadWith lines ↔
    e.Complete ∧ e.outputText lines = e.outputText normalizeNewlines := by
  obtain ⟨event, received, -⟩ := received_properties e
  have offset := received_offset received
  constructor
  · rintro ⟨other, same, number, acts⟩
    obtain rfl := Option.some.inj (same.symm.trans received)
    obtain ⟨after, acted, output, -⟩ := acts { events := [other] } 0 rfl
    rw [TerminalReader.actionEvent_eq rfl] at acted
    split at acted
    · next decodable =>
      obtain rfl := Except.ok.inj acted
      obtain ⟨data, payload⟩ := (received_decodable received).mp decodable
      rw [number] at offset
      split at offset
      · cases offset
      · next nonzero =>
        refine ⟨⟨data, payload, nonzero, ?_⟩, ?_⟩
        · exact (Value.number.inj (Option.some.inj offset)).symm
        · rw [← received_rendered received]
          exact output.symm
    · cases acted
  · rintro ⟨⟨data, payload, nonzero, exact'⟩, output⟩
    refine ⟨event, received, ?_, fun reader index found => ?_⟩
    · rw [offset, if_neg nonzero, exact']
    · have decodable := (received_decodable received).mpr ⟨data, payload⟩
      refine ⟨_, TerminalReader.actionEvent_acted found decodable, ?_, ?_⟩
      · rw [output, ← received_rendered received]
        rfl
      · rw [← received_typed received]
        rfl

/-- The delay between two events is a number exactly if both have an offset other than zero. -/
theorem received_delay {other : SessionEvent} {event next : TerminalEvent}
    (received : e.received = some event) (following : other.received = some next) :
    TerminalEvent.delay next event ≠ none ↔ e.timeOffset ≠ 0 ∧ other.timeOffset ≠ 0 := by
  rw [TerminalEvent.delay, received_offset received, received_offset following]
  by_cases zero : e.timeOffset = 0 <;> by_cases later : other.timeOffset = 0 <;> simp [zero, later]

/-- A page reads an event exactly if nothing it needs was left out. For the text to be that of
the bytes themselves their line ends have to be as the terminal takes them. -/
theorem read_iff_complete (e : SessionEvent) :
    (e.ReadWith normalizeNewlines ↔ e.Complete) ∧
    (e.ReadWith id ↔ e.Complete ∧
      (e.type = eventMessage → e.direction = directionIncoming →
        normalizeNewlines (binaryText e.data) = binaryText e.data)) ∧
    ∀ (other : SessionEvent) event next, e.received = some event → other.received = some next →
      (TerminalEvent.delay next event ≠ none ↔ e.timeOffset ≠ 0 ∧ other.timeOffset ≠ 0) := by
  refine ⟨(readWith_iff _).trans (and_iff_left rfl), (readWith_iff _).trans ?_,
    fun other event next => received_delay⟩
  refine and_congr_right fun _ => ?_
  unfold outputText
  split
  · next message => exact ⟨fun same _ _ => same.symm, fun same => (same message.1 message.2).symm⟩
  · next silent =>
    exact ⟨fun _ type direction => absurd ⟨type, direction⟩ silent, fun _ => rfl⟩

end SessionEvent

/-- What a filter leaves of a chunk may be nothing. -/
def emptyChunkEvent : SessionEvent :=
  { type := eventMessage, direction := directionIncoming, timeOffset := 1 }

theorem empty_chunk_unread : ¬ ∀ e : SessionEvent, e.ReadWith normalizeNewlines := by
  intro claim
  obtain ⟨complete, -⟩ := (SessionEvent.readWith_iff _).mp (claim emptyChunkEvent)
  exact complete.data rfl (.inl rfl) rfl

end SSHProxyPlus
