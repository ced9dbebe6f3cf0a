import SSHProxyPlus.Proxy.User

/-! Signed messages for the controller: what `Sign` puts on the wire and what
`Verify` makes of it. -/
namespace SSHProxyPlus
open Go

structure ControllerMessage where
  messageType : Bytes := []
  proxyData : Option Bytes := none
  proxyID : UInt64 := 0
  viewerSecret : Bytes := []
  sessionKey : Bytes := []
  username : Bytes := []
  password : Bytes := []
  filterKey : Bytes := []
  callbackKey : Bytes := []
  callbackURL : Bytes := []
  proxyUser : Option ProxyUser := none
  findString : Option Bytes := none
  replaceString : Option Bytes := none

structure ControllerHMAC where
  message : Bytes
  hmac : Bytes

namespace ControllerMessage

def messageTypeField : StructField ControllerMessage :=
  field "MessageType" none stringCodec messageType fun x m => { m with messageType := x }

def proxyDataField : StructField ControllerMessage :=
  field "ProxyData" (some "ProxyData,omitempty") bytesCodec proxyData
    fun x m => { m with proxyData := x }

/-- The tags as the source has them: from `ProxyID` on, the first component of each
is `omitempty` itself. -/
def fields : List (StructField ControllerMessage) := [
  messageTypeField,
  proxyDataField,
  field "ProxyID" (some "omitempty") uint64Codec proxyID fun x m => { m with proxyID := x },
  field "ViewerSecret" (some "omitempty") stringCodec viewerSecret
    fun x m => { m with viewerSecret := x },
  field "SessionKey" (some "omitempty") stringCodec sessionKey fun x m => { m with sessionKey := x },
  field "Username" (some "omitempty") stringCodec username fun x m => { m with username := x },
  field "Password" (some "omitempty") stringCodec password fun x m => { m with password := x },
  field "FilterKey" (some "omitempty") stringCodec filterKey fun x m => { m with filterKey := x },
  field "CallbackKey" (some "omitempty") stringCodec callbackKey
    fun x m => { m with callbackKey := x },
  field "CallbackURL" (some "omitempty") stringCodec callbackURL
    fun x m => { m with callbackURL := x },
  field "ProxyUser" (some "omitempty") (pointerCodec ProxyUser.codec) proxyUser
    fun x m => { m with proxyUser := x },
  field "FindString" (some "omitempty") bytesCodec findString fun x m => { m with findString := x },
  field "ReplaceString" (some "omitempty") bytesCodec replaceString
    fun x m => { m with replaceString := x }]

def codec : Codec ControllerMessage := structCodec {} fields

/-- `json.Marshal` fails on no value of these types. -/
def sign (mac : Bytes → Bytes → Bytes) (message : ControllerMessage) (key : Bytes) :
    Except Bytes ControllerHMAC :=
  let messageData := codec.marshal message
  .ok ⟨messageData, mac key messageData⟩

end ControllerMessage

/-- Why `Verify` rejects: its own check, or an error of the decoder. -/
inductive VerifyError where
  | hmacDoesNotMatch
  | unmarshal
deriving DecidableEq

def ControllerHMAC.verify (mac : Bytes → Bytes → Bytes) (messageWrapper : ControllerHMAC)
    (key : Bytes) : Except VerifyError ControllerMessage :=
  if messageWrapper.hmac = mac key messageWrapper.message then
    match ControllerMessage.codec.unmarshal messageWrapper.message {} with
    | some message => .ok message
    | none => .error .unmarshal
  else .error .hmacDoesNotMatch

namespace ControllerMessage

/-- Eleven fields share the name `omitempty`, so none of them is visible. -/
theorem visible_fields : StructField.visible fields = [messageTypeField, proxyDataField] := by rfl

/-- The message that arrives when `m` is signed. -/
def received (m : ControllerMessage) : ControllerMessage where
  messageType := utf8 (runes m.messageType)
  proxyData := if m.proxyData = some [] then none else m.proxyData

theorem messageTypeField_reads (m acc : ControllerMessage) :
    messageTypeField.decode (messageTypeField.encode m) acc =
      some { acc with messageType := utf8 (runes m.messageType) } := rfl

theorem proxyDataField_reads (m acc : ControllerMessage) :
    proxyDataField.decode (proxyDataField.encode m) acc =
      some { acc with proxyData := m.proxyData } := by
  have reads := bytesCodec_reads m.proxyData
  cases data : m.proxyData with
  | none => simp [proxyDataField, field, data, bytesCodec]
  | some bytes => simp [proxyDataField, field, data, bytesCodec, base64Decode_encode]

theorem decode_encode (m : ControllerMessage) :
    codec.decode (codec.encode m) {} = some m.received := by
  have kept : messageTypeField.omitEmpty = false := rfl
  have dropped : (proxyDataField.omitEmpty && proxyDataField.empty m) = (m.proxyData.getD [] == []) :=
    rfl
  rw [codec, structCodec_decode_encode _ _ _ (by rw [visible_fields]; decide), visible_fields]
  simp only [StructField.readBack, messageTypeField_reads, proxyDataField_reads, kept, dropped,
    Bool.false_and, Bool.false_eq_true, if_false, Option.bind_some, received]
  rcases m.proxyData with _ | _ | ⟨b, bytes⟩ <;> rfl

theorem verify_sign {mac : Bytes → Bytes → Bytes} {m : ControllerMessage} {key : Bytes}
    {w : ControllerHMAC} (signed : m.sign mac key = .ok w) :
    w.verify mac key = .ok m.received := by
  have wrapper := Except.ok.inj signed
  have decoded : codec.unmarshal (codec.marshal m) {} = some m.received := by
    rw [Codec.marshal, marshalText, Codec.unmarshal_render, decode_encode]
  subst wrapper
  simp only [ControllerHMAC.verify, decoded, if_true]

def ValidStrings (m : ControllerMessage) : Prop :=
  ValidUTF8 m.messageType ∧ ValidUTF8 m.viewerSecret ∧ ValidUTF8 m.sessionKey ∧
    ValidUTF8 m.username ∧ ValidUTF8 m.password ∧ ValidUTF8 m.filterKey ∧
    ValidUTF8 m.callbackKey ∧ ValidUTF8 m.callbackURL ∧
    ∀ user, m.proxyUser = some user → user.ValidStrings

/-- Every field whose tag names it `omitempty` has its zero value. -/
def Bare (m : ControllerMessage) : Prop :=
  m.proxyID = 0 ∧ m.viewerSecret = [] ∧ m.sessionKey = [] ∧ m.username = [] ∧ m.password = [] ∧
    m.filterKey = [] ∧ m.callbackKey = [] ∧ m.callbackURL = [] ∧ m.proxyUser = none ∧
    m.findString = none ∧ m.replaceString = none

theorem received_bare (m : ControllerMessage) : m.received.Bare :=
  ⟨rfl, rfl, rfl, rfl, rfl, rfl, rfl, rfl, rfl, rfl, rfl⟩

theorem received_eq_iff (m : ControllerMessage) :
    m.received = m ↔ ValidUTF8 m.messageType ∧ m.proxyData ≠ some [] ∧ m.Bare := by
  constructor
  · intro same
    have messageType : utf8 (runes m.messageType) = m.messageType :=
      congrArg ControllerMessage.messageType same
    have proxyData : (if m.proxyData = some [] then none else m.proxyData) = m.proxyData :=
      congrArg ControllerMessage.proxyData same
    refine ⟨messageType, fun empty => ?_, same ▸ received_bare m⟩
    rw [if_pos empty, empty] at proxyData
    contradiction
  · rintro ⟨valid, nonempty, bare⟩
    obtain ⟨messageType, proxyData, proxyID, viewerSecret, sessionKey, username, password,
      filterKey, callbackKey, callbackURL, proxyUser, findString, replaceString⟩ := m
    obtain ⟨rfl, rfl, rfl, rfl, rfl, rfl, rfl, rfl, rfl, rfl, rfl⟩ := bare
    simp only [received, if_neg nonempty, mk.injEq, and_true]
    exact valid

/-- A message survives signing and verifying exactly when it carries nothing beyond
its type and some proxy data; every other field is lost on the way. -/
theorem verify_sign_iff (mac : Bytes → Bytes → Bytes) (m : ControllerMessage) (key : Bytes) :
    (∀ w, m.sign mac key = .ok w → w.verify mac key = .ok m) ↔
      ValidUTF8 m.messageType ∧ m.proxyData ≠ some [] ∧ m.Bare := by
  rw [← received_eq_iff]
  constructor
  · intro same
    let w : ControllerHMAC := ⟨codec.marshal m, mac key (codec.marshal m)⟩
    have arrives : w.verify mac key = .ok m.received := verify_sign rfl
    exact Except.ok.inj (arrives.symm.trans (same w rfl))
  · intro same w signed
    rw [verify_sign signed, same]

/-- A command to stop proxy 1 arrives as a command to stop proxy 0. -/
theorem verify_sign_forgets_proxyID :
    ¬ ∀ (mac : Bytes → Bytes → Bytes) (m : ControllerMessage) (key : Bytes) (w : ControllerHMAC),
      m.ValidStrings → m.sign mac key = .ok w → w.verify mac key = .ok m := by
  intro claim
  have valid : ValidStrings { messageType := lit "stop-proxy", proxyID := 1 } := by
    refine ⟨validUTF8_utf8 _, ?_, ?_, ?_, ?_, ?_, ?_, ?_, ?_⟩
    iterate 7 exact validUTF8_utf8 []
    intro user absent
    contradiction
  have same := claim (fun _ _ => []) { messageType := lit "stop-proxy", proxyID := 1 } [] _ valid rfl
  rw [verify_sign rfl] at same
  have ids := congrArg ControllerMessage.proxyID (Except.ok.inj same)
  exact absurd ids (by decide)

end ControllerMessage
end SSHProxyPlus
