import SSHProxyPlus.Browser.Value
import SSHProxyPlus.Page.Player
import SSHProxyPlus.Web.ViewerSessions

/-! What goes between the page and the web server: the messages of a request, and the list of
sessions in a reply. -/
namespace Browser

def Value.asText : Value → Option (List Char)
  | .text value => some value
  | _ => none

end Browser

namespace SSHProxyPlus
open Go Browser

/-- A session in a list, as `JSON.parse` gives it. The server always tells key and length. -/
def SessionEntry.construct : Json → Option SessionEntry
  | .obj members => do
      let object ← readMembers members Object.empty
      match object.get "key", object.get "length" with
      | some (.text key), some (.number length) =>
          some {
            key
            active := (object.get "active").any Value.truthy
            length
            filename := (object.get "filename").bind Value.asText
            displayText := (object.get "display_text").bind Value.asText
            secret := (object.get "secret").bind Value.asText }
      | _, _ => none
  | _ => none

/-- `JSON.parse` of a reply to a list request; where it throws the reply is passed over. -/
def SocketReply.sessions : SocketReply → Option (List SessionEntry)
  | .text data =>
      match parse (runes data) with
      | some (.arr items) => items.mapM SessionEntry.construct
      | _ => none
  | .binary _ => none

namespace PageRequest

/-- What is sent once the socket is open. -/
def messages : PageRequest → List Bytes
  | .list viewerKey _ _ true => [lit "viewer-list", utf8 viewerKey]
  | .list _ _ _ false => [lit "list-active"]
  | .query => [lit "list-active"]
  | .play session true =>
      [lit "viewer-get", utf8 (session.secret.getD "undefined".toList), utf8 session.key]
  | .play session false => [lit "get", utf8 session.key]
  | .getJSON _ => []

end PageRequest

namespace SessionInfo
variable (info : SessionInfo)

/-- The session as the page sees it. -/
def entry : SessionEntry where
  key := runes info.key
  active := info.active
  length := roundDouble info.length.toInt
  secret := if info.secret = [] then none else some (runes info.secret)

theorem visible_fields : StructField.visible fields = fields := by rfl

theorem ofJson_int (n : Int64) :
    Value.ofJson (intCodec.encode n) = some (.number (roundDouble n.toInt)) := by
  simp [intCodec, Value.ofJson, Number.ofInt, parseInt_itoa]

theorem fields_values : ∀ f ∈ fields, Value.ofJson (f.encode info) ≠ none := by
  simp only [fields, List.forall_mem_cons, field, ofJson_int]
  simp [stringCodec, boolCodec, Value.ofJson]

theorem construct_encode : SessionEntry.construct (codec.encode info) = some info.entry := by
  have distinct : (fields.map StructField.name).Nodup := by decide +kernel
  obtain ⟨object, read, named, others⟩ :=
    readMembers_members distinct (fields_values info) Object.empty
  have property (i : Fin fields.length) :
      object (fields.get i).name = fieldProperty (fields.get i) info := by
    rw [named _ (List.get_mem fields i), Object.empty, Option.or_none]
  have key : object.get "key" = some (.text (runes info.key)) := property ⟨0, by decide⟩
  have active : object.get "active" = some (.flag info.active) := property ⟨1, by decide⟩
  have length : object.get "length" = some (.number (roundDouble info.length.toInt)) :=
    (property ⟨3, by decide⟩).trans (ofJson_int info.length)
  have filename : object.get "filename" = none := others _ (by decide +kernel)
  have display : object.get "display_text" = none := others _ (by decide +kernel)
  have secret : object.get "secret" =
      if info.secret.isEmpty then none else some (.text (runes info.secret)) := property ⟨5, by decide⟩
  have read : readMembers (StructField.members fields info) Object.empty = some object := read
  have secretText : (object.get "secret").bind Value.asText =
      if info.secret = [] then none else some (runes info.secret) := by
    rw [secret]
    by_cases blank : info.secret = []
    · simp [blank]
    · simp [blank, Value.asText]
  rw [codec, structCodec, visible_fields, SessionEntry.construct, read]
  simp only [Option.bind_eq_bind, Option.bind_some, key, length, active, filename, display, secretText]
  rfl

/-- A list that the server sends is the list that the page gets. -/
theorem sessions_reply (infos : List SessionInfo) :
    (sessionInfoReply infos).sessions = some (infos.map entry) := by
  have parsed : parse (runes ((sliceCodec codec).marshal infos)) =
      some (.arr (infos.map codec.encode)) := by
    rw [Codec.marshal, marshalText, runes_utf8, parse_render]
    rfl
  have each : (infos.map codec.encode).mapM SessionEntry.construct = some (infos.map entry) := by
    clear parsed
    induction infos with
    | nil => rfl
    | cons info infos ih =>
      rw [List.map_cons, List.mapM_cons, construct_encode, ih]
      rfl
  rw [sessionInfoReply, SocketReply.sessions, parsed]
  exact each

end SessionInfo
end SSHProxyPlus
