import SSHProxyPlus.Go.Decoding
import SSHProxyPlus.Go.Slice

/-! A `ProxyUser` and the key it is stored under. -/
namespace SSHProxyPlus
open Go

/-- Filters and callbacks are pointers: two are equal when they are one object. -/
abbrev FilterRef := Nat
abbrev CallbackRef := Nat

structure ProxyUser where
  username : Bytes := []
  password : Bytes := []
  remoteHost : Bytes := []
  remoteUsername : Bytes := []
  remotePassword : Bytes := []
  eventCallbacks : List CallbackRef := []
  channelFilters : List FilterRef := []
deriving DecidableEq

def buildProxyUserKey (user pass : Bytes) : Bytes := user ++ lit ":" ++ pass

namespace ProxyUser

/-- Sessions are filed under the username alone. -/
def getKey (user : ProxyUser) : Bytes := buildProxyUserKey user.username []

/-- The index of the new callback comes back. -/
def addEventCallback (user : ProxyUser) (callback : CallbackRef) : ProxyUser × Nat :=
  ({ user with eventCallbacks := user.eventCallbacks ++ [callback] }, user.eventCallbacks.length)

/-- A nil pointer is no element of the list. -/
def removeEventCallback (user : ProxyUser) : Option CallbackRef → Except Panic ProxyUser
  | some callback => do
      let eventCallbacks ← swapRemove user.eventCallbacks callback
      return { user with eventCallbacks }
  | none => return user

def addChannelFilter (user : ProxyUser) (function : FilterRef) : ProxyUser × Nat :=
  ({ user with channelFilters := user.channelFilters ++ [function] }, user.channelFilters.length)

def removeChannelFilter (user : ProxyUser) (function : FilterRef) : Except Panic ProxyUser := do
  let channelFilters ← swapRemove user.channelFilters function
  return { user with channelFilters }

/-- `EventCallbacks` has the tag `-` and `channelFilters` is not exported, so
neither is ever encoded. -/
def fields : List (StructField ProxyUser) := [
  field "Username" none stringCodec username fun x u => { u with username := x },
  field "Password" none stringCodec password fun x u => { u with password := x },
  field "RemoteHost" none stringCodec remoteHost fun x u => { u with remoteHost := x },
  field "RemoteUsername" none stringCodec remoteUsername fun x u => { u with remoteUsername := x },
  field "RemotePassword" none stringCodec remotePassword fun x u => { u with remotePassword := x }]

def codec : Codec ProxyUser := structCodec {} fields

/-- What `encoding/json` keeps of a user. -/
def configured (user : ProxyUser) : ProxyUser :=
  { user with eventCallbacks := [], channelFilters := [] }

def ValidStrings (user : ProxyUser) : Prop :=
  ValidUTF8 user.username ∧ ValidUTF8 user.password ∧ ValidUTF8 user.remoteHost ∧
    ValidUTF8 user.remoteUsername ∧ ValidUTF8 user.remotePassword

/-- A user as it comes out of a decoder. -/
structure Decoded (user : ProxyUser) : Prop where
  strings : user.ValidStrings
  eventCallbacks : user.eventCallbacks = []
  channelFilters : user.channelFilters = []

theorem codec_yields : codec.Yields Decoded := by
  have empty : ValidUTF8 [] := validUTF8_utf8 []
  have start : Decoded {} := ⟨⟨empty, empty, empty, empty, empty⟩, rfl, rfl⟩
  refine structCodec_yields start ?_
  simp only [fields, List.forall_mem_cons]
  have sets : ∀ {goName : String} {get : ProxyUser → Bytes} {set : Bytes → ProxyUser → ProxyUser},
      (∀ a, Decoded a → ValidUTF8 (get a)) → (∀ x a, Decoded a → ValidUTF8 x → Decoded (set x a)) →
      ∀ v a b, Decoded a → (field goName none stringCodec get set).decode v a = some b → Decoded b :=
    fun gets => field_yields stringCodec_yields gets
  refine ⟨sets ?_ ?_, sets ?_ ?_, sets ?_ ?_, sets ?_ ?_, sets ?_ ?_,
    fun f none => absurd none List.not_mem_nil⟩
  · exact fun a valid => valid.strings.1
  · exact fun x a ⟨⟨_, h2, h3, h4, h5⟩, c, f⟩ valid => ⟨⟨valid, h2, h3, h4, h5⟩, c, f⟩
  · exact fun a valid => valid.strings.2.1
  · exact fun x a ⟨⟨h1, _, h3, h4, h5⟩, c, f⟩ valid => ⟨⟨h1, valid, h3, h4, h5⟩, c, f⟩
  · exact fun a valid => valid.strings.2.2.1
  · exact fun x a ⟨⟨h1, h2, _, h4, h5⟩, c, f⟩ valid => ⟨⟨h1, h2, valid, h4, h5⟩, c, f⟩
  · exact fun a valid => valid.strings.2.2.2.1
  · exact fun x a ⟨⟨h1, h2, h3, _, h5⟩, c, f⟩ valid => ⟨⟨h1, h2, h3, valid, h5⟩, c, f⟩
  · exact fun a valid => valid.strings.2.2.2.2
  · exact fun x a ⟨⟨h1, h2, h3, h4, _⟩, c, f⟩ valid => ⟨⟨h1, h2, h3, h4, valid⟩, c, f⟩

end ProxyUser

theorem buildProxyUserKey_blank_injective {u v : Bytes}
    (same : buildProxyUserKey u [] = buildProxyUserKey v []) : u = v := by
  simpa [buildProxyUserKey] using same

end SSHProxyPlus
