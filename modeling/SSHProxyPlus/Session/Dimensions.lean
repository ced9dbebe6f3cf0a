import SSHProxyPlus.Session.Requests

/-! The dimensions of a client's terminal: what a request encodes, and what the session takes
them to be. -/
namespace SSHProxyPlus
open Go

/-- The `string` of the SSH protocol. -/
def sshString (s : Bytes) : Bytes := uint32Bytes (UInt32.ofNat s.length) ++ s

/-- A request for a terminal. Its strings are short enough for their lengths to be encoded. -/
structure PtyRequest where
  term : Bytes
  columns : UInt32
  rows : UInt32
  width : UInt32
  height : UInt32
  modes : Bytes
  termFits : term.length < 2 ^ 32
  modesFit : modes.length < 2 ^ 32

namespace PtyRequest
variable (pty : PtyRequest)

def size : Bytes := uint32Bytes pty.columns ++ uint32Bytes pty.rows

def payload : Bytes :=
  sshString pty.term ++ (pty.size ++ (uint32Bytes pty.width ++ (uint32Bytes pty.height ++
    sshString pty.modes)))

/-- The length of the terminal's name fits into a byte, or else the name itself spells the
dimensions where they are looked for. -/
def Readable : Prop :=
  pty.term.length < 256 ∨ (pty.term.drop (pty.term.length % 256)).take 8 = pty.size

end PtyRequest

def windowChange (columns rows width height : UInt32) : Bytes :=
  uint32Bytes columns ++ uint32Bytes rows ++ (uint32Bytes width ++ uint32Bytes height)

/-- Once the request is forwarded the session has these dimensions. -/
def RequestSession.Sets (state : RequestSession) (channelID : Int64) (request : Request)
    (outcome : RequestOutcome) (columns rows : UInt32) : Prop :=
  ∃ forwarded, state.forwardRequest channelID request outcome = .ok forwarded ∧
    (forwarded.state.termCols, forwarded.state.termRows) = (columns, rows)

variable {state : RequestSession} {channelID : Int64} {request : Request}
  {outcome : RequestOutcome} {columns rows : UInt32}

theorem RequestSession.sets_iff {w h : UInt32}
    (read : request.dimensions = .ok (some (w, h))) :
    state.Sets channelID request outcome columns rows ↔
      uint32Bytes w ++ uint32Bytes h = uint32Bytes columns ++ uint32Bytes rows := by
  obtain ⟨forwarded, returned, -, set⟩ :=
    state.forwardRequest_returns channelID request outcome
  have size : (forwarded.state.termCols, forwarded.state.termRows) = (w, h) := set _ read
  constructor
  · rintro ⟨other, returned', asked⟩
    obtain rfl := Except.ok.inj (returned.symm.trans returned')
    obtain ⟨rfl, rfl⟩ := Prod.mk.inj (size.symm.trans asked)
    rfl
  · intro same
    obtain ⟨wide, high⟩ := List.append_inj same rfl
    refine ⟨forwarded, returned, ?_⟩
    rw [size, uint32Bytes_injective wide, uint32Bytes_injective high]

namespace PtyRequest
variable (pty : PtyRequest)

/-- Of a name's length, its last byte. -/
theorem payload_last : pty.payload[3]? = some (UInt8.ofNat pty.term.length) := by
  have fits := pty.termFits
  have whole : (UInt32.ofNat pty.term.length).toNat = pty.term.length :=
    UInt32.toNat_ofNat_of_lt' fits
  simp only [payload, sshString, uint32Bytes, List.cons_append, List.getElem?_cons_succ,
    List.getElem?_cons_zero, whole]

theorem length_payload : pty.payload.length = 28 - 4 + pty.term.length + pty.modes.length := by
  simp only [payload, sshString, size, List.length_append, length_uint32Bytes]
  omega

/-- What follows the length, after some bytes of the name. -/
theorem payload_drop (n : Nat) : pty.payload.drop (n + 4) =
    (pty.term ++ (pty.size ++ (uint32Bytes pty.width ++ (uint32Bytes pty.height ++
      sshString pty.modes)))).drop n := by
  rw [Nat.add_comm, ← List.drop_drop]
  rfl

theorem dimensions_read (wantReply : Bool) : ∃ w h,
    ({ requestType := lit "pty-req", wantReply, payload := pty.payload } : Request).dimensions =
      .ok (some (w, h)) ∧
    uint32Bytes w ++ uint32Bytes h =
      (pty.payload.drop (pty.term.length % 256 + 4)).take 8 := by
  have length := pty.length_payload
  have last : byteAt pty.payload 3 = .ok (UInt8.ofNat pty.term.length) := by
    rw [byteAt, pty.payload_last]
  have named : (UInt8.ofNat pty.term.length).toNat = pty.term.length % 256 := by
    rw [UInt8.toNat_ofNat']
  have short : pty.term.length % 256 ≤ pty.term.length := Nat.mod_le _ _
  have enough : 8 ≤ (pty.payload.drop (pty.term.length % 256 + 4)).length := by
    rw [List.length_drop]
    omega
  obtain ⟨w, h, parsed, spelt⟩ := parseDims_ok enough
  refine ⟨w, h, ?_, spelt⟩
  unfold Request.dimensions
  rw [if_pos rfl, if_pos (by omega : pty.payload.length > 4), last]
  simp only [bind, Except.bind, named]
  rw [if_pos (by omega), sliceFrom_ok (by omega)]
  simp only [parsed]
  rfl

/-- The bytes that are read for the dimensions are the right ones where the name is short, or
happens to spell them. -/
theorem readable_iff : pty.Readable ↔
    (pty.payload.drop (pty.term.length % 256 + 4)).take 8 = pty.size := by
  rw [payload_drop]
  unfold Readable
  have size : pty.size.length = 8 := rfl
  by_cases short : pty.term.length < 256
  · rw [Nat.mod_eq_of_lt short, List.drop_left]
    refine iff_of_true (.inl short) ?_
    exact List.take_left' size
  · have inside : pty.term.length % 256 + 8 ≤ pty.term.length := by
      have := Nat.mod_lt pty.term.length (by decide : 0 < 256)
      omega
    have left : 8 ≤ (pty.term.drop (pty.term.length % 256)).length := by
      rw [List.length_drop]
      omega
    rw [List.drop_append_of_le_length (by omega), List.take_append_of_le_length left]
    constructor
    · intro readable
      exact readable.resolve_left short
    · exact .inr

theorem sets_iff_readable (wantReply : Bool) :
    state.Sets channelID { requestType := lit "pty-req", wantReply, payload := pty.payload } outcome
      pty.columns pty.rows ↔ pty.Readable := by
  obtain ⟨w, h, read, spelt⟩ := pty.dimensions_read wantReply
  rw [RequestSession.sets_iff read, spelt, readable_iff]
  rfl

end PtyRequest

theorem windowChange_sets (wantReply : Bool) (width height : UInt32) :
    state.Sets channelID { requestType := lit "window-change", wantReply
                           payload := windowChange columns rows width height } outcome
      columns rows := by
  have long : 8 ≤ (windowChange columns rows width height).length := by
    simp [windowChange, length_uint32Bytes]
  obtain ⟨w, h, parsed, spelt⟩ := parseDims_ok long
  have read : ({ requestType := lit "window-change", wantReply
                 payload := windowChange columns rows width height } : Request).dimensions =
      .ok (some (w, h)) := by
    have other : lit "window-change" ≠ lit "pty-req" := by decide
    unfold Request.dimensions
    rw [if_neg other, if_pos ⟨rfl, long⟩, parsed]
    rfl
  rw [RequestSession.sets_iff read, spelt]
  rfl

/-- No payload is read out of range; a change of the window is taken as it is encoded; and a
request for a terminal is exactly where the length of its name fits into a byte, or its name
spells the dimensions too. -/
theorem dimensions_decoded_iff (state : RequestSession) (channelID : Int64) (wantReply : Bool)
    (outcome : RequestOutcome) :
    (∀ requestType payload, ∃ forwarded,
      state.forwardRequest channelID ⟨requestType, wantReply, payload⟩ outcome = .ok forwarded) ∧
    (∀ columns rows width height, state.Sets channelID
      ⟨lit "window-change", wantReply, windowChange columns rows width height⟩ outcome
        columns rows) ∧
    ∀ pty : PtyRequest, state.Sets channelID ⟨lit "pty-req", wantReply, pty.payload⟩ outcome
      pty.columns pty.rows ↔ pty.Readable := by
  refine ⟨?_, ?_, ?_⟩
  · intro requestType payload
    obtain ⟨forwarded, returned, -⟩ :=
      state.forwardRequest_returns channelID ⟨requestType, wantReply, payload⟩ outcome
    exact ⟨forwarded, returned⟩
  · intro columns rows width height
    exact windowChange_sets wantReply width height
  · intro pty
    exact pty.sets_iff_readable wantReply

/-- A terminal whose name takes 256 bytes. -/
def longName : PtyRequest where
  term := List.replicate 256 120
  columns := 80
  rows := 24
  width := 0
  height := 0
  modes := []
  termFits := by
    rw [List.length_replicate]
    decide
  modesFit := by decide

theorem longName_misread : ¬∀ (state : RequestSession) (channelID : Int64) (wantReply : Bool)
    (outcome : RequestOutcome) (pty : PtyRequest),
    state.Sets channelID ⟨lit "pty-req", wantReply, pty.payload⟩ outcome pty.columns pty.rows := by
  intro claim
  have sets := claim { session := {} } 0 false ⟨0, 0, ⟨true, [], none⟩, none⟩ longName
  rcases (longName.sets_iff_readable false).mp sets with short | spelt
  · have length : longName.term.length = 256 := List.length_replicate
    omega
  · exact absurd spelt (by decide +kernel)

end SSHProxyPlus
