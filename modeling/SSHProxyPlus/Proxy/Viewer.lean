import SSHProxyPlus.Go.Nil
import SSHProxyPlus.Proxy.User

/-! Viewers: who may look at the sessions of one user, and with which secret. -/
namespace SSHProxyPlus
open Go

def sessionViewerTypeSingle : Int64 := 0
def sessionViewerTypeList : Int64 := 1
def sessionViewerSecretLen : Nat := 64
def sessionViewerExpiration : Int64 := -1

structure ProxySessionViewer where
  viewerType : Int64 := 0
  secret : Bytes := []
  /-- The viewer's `proxy` pointer: set to the proxy that holds the viewer, nil before. -/
  linked : Bool := false
  user : Option ProxyUser := none
  sessionKey : Bytes := []
  expiration : Int64 := 0
deriving DecidableEq

def secretLetters : Bytes :=
  lit "0123456789ABCDEFGHIJKLMNOPQRSTUVWXYZabcdefghijklmnopqrstuvwxyz-_."

/-- Each character is one draw of the random source, which may fail. -/
def generateRandomString (n : Nat) (draw : Nat → Option (Fin secretLetters.length)) :
    Option Bytes :=
  (List.range n).mapM fun i => (draw i).map fun num => secretLetters.get num

/-- The random source, draw by draw. -/
abbrev RandomSource := Nat → Option (Fin secretLetters.length)

def createNewSessionViewer (viewerType : Int64) (user : ProxyUser) (draw : RandomSource) :
    Except Panic ProxySessionViewer :=
  match generateRandomString sessionViewerSecretLen draw with
  | some secret => .ok {
      viewerType, secret, user := some user, linked := true, expiration := sessionViewerExpiration }
  | none => .error (.raised (lit "error creating secret"))

theorem createNewSessionViewer_ok {viewerType : Int64} {user : ProxyUser} {draw : RandomSource}
    {viewer : ProxySessionViewer} (created : createNewSessionViewer viewerType user draw = .ok viewer) :
    ∃ secret, generateRandomString sessionViewerSecretLen draw = some secret ∧ viewer = {
      viewerType, secret, user := some user, linked := true, expiration := sessionViewerExpiration } := by
  unfold createNewSessionViewer at created
  cases random : generateRandomString sessionViewerSecretLen draw with
  | none =>
    rw [random] at created
    contradiction
  | some secret =>
    rw [random] at created
    exact ⟨secret, rfl, (Except.ok.inj created).symm⟩

namespace ProxySessionViewer

def typeIsSingle (viewer : ProxySessionViewer) : Bool := viewer.viewerType == sessionViewerTypeSingle

def typeIsList (viewer : ProxySessionViewer) : Bool := viewer.viewerType == sessionViewerTypeList

def isExpired (_ : ProxySessionViewer) : Bool := false

/-- `proxy` and `expiration` are not exported. -/
def fields : List (StructField ProxySessionViewer) := [
  field "ViewerType" none intCodec viewerType fun x v => { v with viewerType := x },
  field "Secret" none stringCodec secret fun x v => { v with secret := x },
  field "User" none (pointerCodec ProxyUser.codec) user fun x v => { v with user := x },
  field "SessionKey" none stringCodec sessionKey fun x v => { v with sessionKey := x }]

def codec : Codec ProxySessionViewer := structCodec {} fields

/-- A viewer as it comes out of a decoder. -/
structure Decoded (viewer : ProxySessionViewer) : Prop where
  secret : ValidUTF8 viewer.secret
  user : ∀ user, viewer.user = some user → user.Decoded
  sessionKey : ValidUTF8 viewer.sessionKey

theorem codec_yields : codec.Yields Decoded := by
  have empty : ValidUTF8 [] := validUTF8_utf8 []
  have start : Decoded {} := ⟨empty, fun user absent => by contradiction, empty⟩
  refine structCodec_yields start ?_
  simp only [fields, List.forall_mem_cons]
  refine ⟨field_keeps ?_, field_yields stringCodec_yields ?_ ?_,
    field_yields (pointerCodec_yields ProxyUser.codec_yields) ?_ ?_,
    field_yields stringCodec_yields ?_ ?_, fun f none => absurd none List.not_mem_nil⟩
  · exact fun x a ⟨s, u, k⟩ => ⟨s, u, k⟩
  · exact fun a valid => valid.secret
  · exact fun x a ⟨_, u, k⟩ valid => ⟨valid, u, k⟩
  · exact fun a valid => valid.user
  · exact fun x a ⟨s, _, k⟩ valid => ⟨s, valid, k⟩
  · exact fun a valid => valid.sessionKey
  · exact fun x a ⟨s, u, _⟩ valid => ⟨s, u, valid⟩

end ProxySessionViewer
end SSHProxyPlus
