import SSHProxyPlus.Go.Struct

/-! The events of a session, as they are recorded and written. -/
namespace SSHProxyPlus
open Go

def eventSessionStart : Bytes := lit "session-start"
def eventSessionStop : Bytes := lit "session-stop"
def eventNewRequest : Bytes := lit "new-request"
def eventNewChannel : Bytes := lit "new-channel"
def eventWindowResize : Bytes := lit "window-resize"
def eventMessage : Bytes := lit "new-message"

structure SessionEvent where
  type : Bytes := []
  key : Bytes := []
  startTime : Int64 := 0
  stopTime : Int64 := 0
  length : Int64 := 0
  timeOffset : Int64 := 0
  direction : Bytes := []
  size : Int64 := 0
  data : Bytes := []
  clientHost : Bytes := []
  servHost : Bytes := []
  username : Bytes := []
  password : Bytes := []
  termRows : UInt32 := 0
  termCols : UInt32 := 0
  channelType : Bytes := []
  channelData : Bytes := []
  requestType : Bytes := []
  requestPayload : Bytes := []
  channelID : Int64 := 0
  requestID : Int64 := 0
deriving DecidableEq

namespace SessionEvent

def fields : List (StructField SessionEvent) := [
  field "Type" (some "type") stringCodec type fun x e => { e with type := x },
  field "Key" (some "key,omitempty") stringCodec key fun x e => { e with key := x },
  field "StartTime" (some "start,omitempty") intCodec startTime fun x e => { e with startTime := x },
  field "StopTime" (some "stop,omitempty") intCodec stopTime fun x e => { e with stopTime := x },
  field "Length" (some "length,omitempty") intCodec length fun x e => { e with length := x },
  field "TimeOffset" (some "offset,omitempty") intCodec timeOffset
    fun x e => { e with timeOffset := x },
  field "Direction" (some "direction,omitempty") stringCodec direction
    fun x e => { e with direction := x },
  field "Size" (some "size,omitempty") intCodec size fun x e => { e with size := x },
  field "Data" (some "data,omitempty") dataCodec data fun x e => { e with data := x },
  field "ClientHost" (some "client_host,omitempty") stringCodec clientHost
    fun x e => { e with clientHost := x },
  field "ServHost" (some "server_host,omitempty") stringCodec servHost
    fun x e => { e with servHost := x },
  field "Username" (some "username,omitempty") stringCodec username
    fun x e => { e with username := x },
  field "Password" (some "password,omitempty") stringCodec password
    fun x e => { e with password := x },
  field "TermRows" (some "term_rows,omitempty") uint32Codec termRows
    fun x e => { e with termRows := x },
  field "TermCols" (some "term_cols,omitempty") uint32Codec termCols
    fun x e => { e with termCols := x },
  field "ChannelType" (some "channel_type,omitempty") stringCodec channelType
    fun x e => { e with channelType := x },
  field "ChannelData" (some "channel_data,omitempty") dataCodec channelData
    fun x e => { e with channelData := x },
  field "RequestType" (some "request_type,omitempty") stringCodec requestType
    fun x e => { e with requestType := x },
  field "RequestPayload" (some "request_payload,omitempty") dataCodec requestPayload
    fun x e => { e with requestPayload := x },
  field "ChannelID" (some "channel_id,omitempty") intCodec channelID
    fun x e => { e with channelID := x },
  field "RequestID" (some "request_id,omitempty") intCodec requestID
    fun x e => { e with requestID := x }]

def codec : Codec SessionEvent := structCodec {} fields

/-- The strings of an event; `json` writes any other byte of them as a replacement character. -/
def ValidStrings (e : SessionEvent) : Prop :=
  ValidUTF8 e.type ∧ ValidUTF8 e.key ∧ ValidUTF8 e.direction ∧ ValidUTF8 e.clientHost ∧
    ValidUTF8 e.servHost ∧ ValidUTF8 e.username ∧ ValidUTF8 e.password ∧
    ValidUTF8 e.channelType ∧ ValidUTF8 e.requestType

/-- The event as its encoding shows it. -/
def repaired (e : SessionEvent) : SessionEvent :=
  { e with
    type := utf8 (runes e.type)
    key := utf8 (runes e.key)
    direction := utf8 (runes e.direction)
    clientHost := utf8 (runes e.clientHost)
    servHost := utf8 (runes e.servHost)
    username := utf8 (runes e.username)
    password := utf8 (runes e.password)
    channelType := utf8 (runes e.channelType)
    requestType := utf8 (runes e.requestType) }

theorem visible_fields : StructField.visible fields = fields := by rfl

theorem codec_readsAs (e : SessionEvent) : codec.ReadsAs e e.repaired := by
  refine structCodec_readsAs visible_fields (by decide +kernel) ?_
  rw [fields, StructField.readBack_text, StructField.readBack_text, StructField.readBack_int,
    StructField.readBack_int, StructField.readBack_int, StructField.readBack_int,
    StructField.readBack_text, StructField.readBack_int, StructField.readBack_data,
    StructField.readBack_text, StructField.readBack_text, StructField.readBack_text,
    StructField.readBack_text, StructField.readBack_uint32, StructField.readBack_uint32,
    StructField.readBack_text, StructField.readBack_data, StructField.readBack_text,
    StructField.readBack_data, StructField.readBack_int, StructField.readBack_int]
  all_goals rfl

theorem repaired_eq_iff (e : SessionEvent) : e.repaired = e ↔ e.ValidStrings := by
  constructor
  · intro same
    exact ⟨congrArg type same, congrArg key same, congrArg direction same, congrArg clientHost same,
      congrArg servHost same, congrArg username same, congrArg password same,
      congrArg channelType same, congrArg requestType same⟩
  · rintro ⟨h1, h2, h3, h4, h5, h6, h7, h8, h9⟩
    unfold ValidUTF8 at h1 h2 h3 h4 h5 h6 h7 h8 h9
    rw [repaired, h1, h2, h3, h4, h5, h6, h7, h8, h9]

end SessionEvent
end SSHProxyPlus
