import SSHProxyPlus.Proxy.Viewer
import SSHProxyPlus.Session.Context

/-! A proxy: its users, its sessions and its viewers. Fallible calls return the
error they report as a value; a panic ends the call. -/
namespace SSHProxyPlus
open Go

/-- Interfaces of which only the nil value matters. -/
abbrev Signer := Nat
abbrev Logger := Nat

inductive Listener where
  | accepting
  | closed
deriving DecidableEq

abbrev UserTable := MapVar Bytes (Option ProxyUser)
abbrev ViewerTable := MapVar Bytes (Option ProxySessionViewer)

structure ProxyContext where
  running : Bool := false
  listener : Option Listener := none
  defaultRemotePort : Int64 := 0
  defaultRemoteIP : Bytes := []
  listenIP : Bytes := []
  listenPort : Int64 := 0
  privateKey : Option Signer := none
  log : Option Logger := none
  sessionFolder : Bytes := []
  tlsCert : Bytes := []
  tlsKey : Bytes := []
  overridePassword : Bytes := []
  overrideUser : Bytes := []
  webListenPort : Int64 := 0
  serverVersion : Bytes := []
  users : UserTable := none
  userSessions : MapVar Bytes (GoMap Bytes SessionRef) := none
  allSessions : MapVar Bytes SessionRef := none
  requireValidPassword : Bool := false
  active : Bool := false
  publicAccess : Bool := false
  viewers : ViewerTable := none
  baseURI : Bytes := []

/-- `log.Default()`. -/
def defaultLogger : Logger := 0

def makeNewProxy (signer : Option Signer) : ProxyContext where
  log := some defaultLogger
  users := some ∅
  userSessions := some ∅
  allSessions := some ∅
  viewers := some ∅
  defaultRemotePort := 22
  defaultRemoteIP := lit "127.0.0.1"
  listenIP := lit "0.0.0.0"
  listenPort := 2222
  sessionFolder := lit "html/sessions"
  webListenPort := 8080
  serverVersion := lit "SSH-2.0-OpenSSH_7.9p1 Raspbian-10"
  publicAccess := true
  privateKey := signer

def notAValidUser : Bytes := lit "not a valid user"
def proxyUserDoesNotExist : Bytes := lit "That ProxyUser does not exist"

namespace ProxyContext

def addSessionToUserList (proxy : ProxyContext) (ref : SessionRef) (session : SessionContext) :
    Except Panic ProxyContext := do
  let owner ← deref session.user
  let user := owner.getKey
  let userSessions ← match proxy.userSessions.find user with
    | some _ => pure proxy.userSessions
    | none => proxy.userSessions.assign user ∅
  let sessions := (userSessions.find user).getD ∅
  let filed ← userSessions.assign user (sessions.insert session.getID ref)
  return { proxy with userSessions := filed }

def activate (proxy : ProxyContext) : ProxyContext := { proxy with active := true }

def deactivate (proxy : ProxyContext) : ProxyContext := { proxy with active := false }

/-- The user, and whether it was found under a blank password. -/
def getProxyUser (proxy : ProxyContext) (username password : Bytes) (cloneUser : Bool) :
    Except Panic (Except Bytes (Option ProxyUser × Bool)) :=
  match proxy.users.find (buildProxyUserKey username password) with
  | some val =>
      if cloneUser then do
        let user ← deref val
        return .ok (some user, false)
      else return .ok (val, false)
  | none =>
      match proxy.users.find (buildProxyUserKey username []) with
      | some val => do
          let user ← deref val
          if user.password = [] then return .ok (some user, true)
          else return .error notAValidUser
      | none => return .error notAValidUser

def addProxyUser (proxy : ProxyContext) (user : ProxyUser) : Except Panic (ProxyContext × Bytes) := do
  let key := buildProxyUserKey user.username user.password
  let users ← proxy.users.assign key (some user)
  return ({ proxy with users }, key)

/-- The error is `none` where the source's is nil. -/
def removeProxyUser (proxy : ProxyContext) (username password : Bytes) :
    ProxyContext × Option Bytes :=
  let key := buildProxyUserKey username password
  match proxy.users.find key with
  | some _ => ({ proxy with users := proxy.users.delete key }, none)
  | none => (proxy, some proxyUserDoesNotExist)

def getDefaultRemoteHost (proxy : ProxyContext) : Bytes :=
  proxy.defaultRemoteIP ++ lit ":" ++ utf8 (itoa proxy.defaultRemotePort.toInt)

/-- Whom `AuthenticateUser` falls back on. -/
def defaultUser (proxy : ProxyContext) (username password : Bytes) : ProxyUser where
  username := username
  password := password
  remoteHost := proxy.getDefaultRemoteHost
  remoteUsername := if proxy.overrideUser ≠ [] then proxy.overrideUser else username
  remotePassword := if proxy.overridePassword ≠ [] then proxy.overridePassword else password

def authenticateUser (proxy : ProxyContext) (username password : Bytes) :
    Except Panic (Except Bytes (Option ProxyUser)) :=
  if 0 < proxy.users.size then do
    match ← proxy.getProxyUser username password true with
    | .error err =>
        if proxy.requireValidPassword then return .error err
        else return .ok (some (proxy.defaultUser username password))
    | .ok (user, passwordBlank) => do
        if passwordBlank then
          let _ ← deref proxy.log
        return .ok user
  else return .ok (some (proxy.defaultUser username password))

/-- A user is found under the pair asked for, or else under the name with a blank password. -/
theorem getProxyUser_cases {proxy : ProxyContext} {username password : Bytes}
    {cloneUser blank : Bool} {found : Option ProxyUser}
    (given : proxy.getProxyUser username password cloneUser = .ok (.ok (found, blank))) :
    (proxy.users.find (buildProxyUserKey username password) = some found ∧ blank = false ∧
      (cloneUser = true → found ≠ none)) ∨
    (proxy.users.find (buildProxyUserKey username password) = none ∧ blank = true ∧
      ∃ user, found = some user ∧ user.password = [] ∧
        proxy.users.find (buildProxyUserKey username []) = some (some user)) := by
  unfold getProxyUser at given
  cases exactly : proxy.users.find (buildProxyUserKey username password) with
  | some val =>
    left
    simp only [exactly] at given
    cases cloneUser with
    | false =>
      obtain ⟨rfl, rfl⟩ := Prod.mk.inj (Except.ok.inj (Except.ok.inj given))
      exact ⟨rfl, rfl, fun h => absurd h Bool.false_ne_true⟩
    | true =>
      cases val with
      | none => contradiction
      | some user =>
        obtain ⟨rfl, rfl⟩ := Prod.mk.inj (Except.ok.inj (Except.ok.inj given))
        exact ⟨rfl, rfl, fun _ => Option.some_ne_none user⟩
  | none =>
    right
    simp only [exactly] at given
    cases blankly : proxy.users.find (buildProxyUserKey username []) with
    | none =>
      rw [blankly] at given
      exact absurd (Except.ok.inj given) (by simp)
    | some val =>
      cases val with
      | none =>
        rw [blankly] at given
        contradiction
      | some user =>
        simp only [blankly, deref_some, bind, Except.bind] at given
        split at given
        · next noPassword =>
          obtain ⟨rfl, rfl⟩ := Prod.mk.inj (Except.ok.inj (Except.ok.inj given))
          exact ⟨rfl, rfl, user, rfl, noPassword, rfl⟩
        · exact absurd (Except.ok.inj given) (by simp)

theorem getProxyUser_clone {proxy : ProxyContext} {username password : Bytes} {blank : Bool}
    {found : Option ProxyUser}
    (given : proxy.getProxyUser username password true = .ok (.ok (found, blank))) :
    ∃ user key, found = some user ∧ proxy.users.find key = some (some user) := by
  rcases getProxyUser_cases given with ⟨exactly, _, notNil⟩ | ⟨_, _, user, rfl, _, blankly⟩
  · obtain ⟨user, rfl⟩ := Option.ne_none_iff_exists'.mp (notNil rfl)
    exact ⟨user, _, rfl, exactly⟩
  · exact ⟨user, _, rfl, blankly⟩

/-- Whoever is let in is the default user or one of the table. -/
theorem authenticateUser_cases {proxy : ProxyContext} {username password : Bytes}
    {entered : Option ProxyUser}
    (given : proxy.authenticateUser username password = .ok (.ok entered)) :
    ∃ user, entered = some user ∧
      (user = proxy.defaultUser username password ∨
        ∃ key, proxy.users.find key = some (some user)) := by
  unfold authenticateUser at given
  split at given
  · obtain ⟨result, looked, given⟩ := of_bind_ok given
    split at given
    · split at given
      · exact absurd (Except.ok.inj given) (by simp)
      · exact ⟨_, (Except.ok.inj (Except.ok.inj given)).symm, Or.inl rfl⟩
    · next found blank =>
      obtain ⟨user, key, rfl, stored⟩ := getProxyUser_clone looked
      refine ⟨user, ?_, Or.inr ⟨key, stored⟩⟩
      split at given
      · obtain ⟨logger, -, given⟩ := of_bind_ok given
        exact (Except.ok.inj (Except.ok.inj given)).symm
      · exact (Except.ok.inj (Except.ok.inj given)).symm
  · exact ⟨_, (Except.ok.inj (Except.ok.inj given)).symm, Or.inl rfl⟩

/-- What `Initialize` fills in before it visits the viewers. -/
def withDefaults (proxy : ProxyContext) (defaultSigner : Option Signer) : ProxyContext :=
  { proxy with
    log := proxy.log.or (some defaultLogger)
    users := proxy.users.or (some ∅)
    userSessions := proxy.userSessions.or (some ∅)
    allSessions := proxy.allSessions.or (some ∅)
    viewers := proxy.viewers.or (some ∅)
    privateKey := proxy.privateKey.or defaultSigner }

/-- Writing through the pointer a viewer is stored as. -/
def updateViewer (proxy : ProxyContext) (key : Bytes) (viewer : ProxySessionViewer) :
    ProxyContext :=
  { proxy with viewers := proxy.viewers.map fun entries => entries.insert key (some viewer) }

/-- One turn of `Initialize`'s loop: a viewer is linked to the user its own would be
found as, and its own is registered where there is none. -/
def linkViewer (proxy : ProxyContext) (key : Bytes) : Except Panic ProxyContext :=
  match proxy.viewers.find key with
  | none => return proxy
  | some pointer => do
      let viewer ← deref pointer
      match viewer.user with
      | none => return proxy.updateViewer key { viewer with linked := true }
      | some user =>
          match ← proxy.getProxyUser user.username user.password false with
          | .ok (some found, _) =>
              return proxy.updateViewer key { viewer with linked := true, user := some found }
          | _ => do
              let (proxy, _) ← proxy.addProxyUser user
              return proxy.updateViewer key { viewer with linked := true }

/-- Removing a user leaves the others as they are. -/
theorem removeProxyUser_changes (proxy : ProxyContext) (username password : Bytes) :
    ∃ users, (proxy.removeProxyUser username password).1 = { proxy with users } ∧
      ∀ key val, users.find key = some val → proxy.users.find key = some val := by
  simp only [removeProxyUser]
  cases found : proxy.users.find (buildProxyUserKey username password) with
  | none => exact ⟨proxy.users, rfl, fun key val stored => stored⟩
  | some val =>
    refine ⟨_, rfl, fun key other stored => ?_⟩
    cases made : proxy.users with
    | none =>
      rw [made] at found
      exact absurd found (by simp [MapVar.find, MapVar.content])
    | some entries =>
      rw [made, MapVar.delete_some, MapVar.find_some] at stored
      by_cases same : key = buildProxyUserKey username password
      · rw [same, Finmap.lookup_erase] at stored
        contradiction
      · rw [Finmap.lookup_erase_ne same] at stored
        exact stored

/-- What one turn can do. -/
theorem linkViewer_cases {proxy next : ProxyContext} {key : Bytes}
    (linked : proxy.linkViewer key = .ok next) :
    (proxy.viewers.find key = none ∧ next = proxy) ∨
    ∃ viewer, proxy.viewers.find key = some (some viewer) ∧
      ((viewer.user = none ∧ next = proxy.updateViewer key { viewer with linked := true }) ∨
      ∃ user, viewer.user = some user ∧
        ((∃ found blank,
            proxy.getProxyUser user.username user.password false = .ok (.ok (some found, blank)) ∧
            next = proxy.updateViewer key { viewer with linked := true, user := some found }) ∨
        ∃ result registered userKey,
            proxy.getProxyUser user.username user.password false = .ok result ∧
            (∀ found blank, result ≠ .ok (some found, blank)) ∧
            proxy.addProxyUser user = .ok (registered, userKey) ∧
            next = registered.updateViewer key { viewer with linked := true })) := by
  unfold linkViewer at linked
  split at linked
  · next absent => exact Or.inl ⟨absent, (Except.ok.inj linked).symm⟩
  · next pointer stored =>
    obtain ⟨viewer, followed, rest⟩ := of_bind_ok linked
    obtain rfl := deref_ok followed
    refine Or.inr ⟨viewer, stored, ?_⟩
    split at rest
    · next nobody => exact Or.inl ⟨nobody, (Except.ok.inj rest).symm⟩
    · next user owner =>
      refine Or.inr ⟨user, owner, ?_⟩
      obtain ⟨result, looked, rest⟩ := of_bind_ok rest
      split at rest
      · next found blank => exact Or.inl ⟨found, blank, looked, (Except.ok.inj rest).symm⟩
      · next missing =>
        obtain ⟨⟨registered, userKey⟩, added, done⟩ := of_bind_ok rest
        exact Or.inr ⟨result, registered, userKey, looked, missing, added,
          (Except.ok.inj done).symm⟩

theorem addProxyUser_cases {proxy next : ProxyContext} {user : ProxyUser} {key : Bytes}
    (added : proxy.addProxyUser user = .ok (next, key)) :
    ∃ entries, proxy.users = some entries ∧ key = buildProxyUserKey user.username user.password ∧
      next = { proxy with users := some (entries.insert key (some user)) } := by
  unfold addProxyUser at added
  cases made : proxy.users with
  | none =>
    rw [made] at added
    contradiction
  | some entries =>
    rw [made] at added
    have same := Except.ok.inj added
    obtain ⟨rfl, rfl⟩ := Prod.mk.inj same
    exact ⟨entries, rfl, rfl, rfl⟩

/-- Linking changes nothing but the users and the viewers. -/
theorem linkViewer_changes {proxy next : ProxyContext} {key : Bytes}
    (linked : proxy.linkViewer key = .ok next) :
    ∃ users viewers, next = { proxy with users, viewers } := by
  rcases linkViewer_cases linked with ⟨_, rfl⟩ | ⟨viewer, _, ⟨_, rfl⟩ | ⟨user, _, found | missing⟩⟩
  · exact ⟨next.users, next.viewers, rfl⟩
  · exact ⟨_, _, rfl⟩
  · obtain ⟨_, _, _, rfl⟩ := found
    exact ⟨_, _, rfl⟩
  · obtain ⟨_, registered, userKey, _, _, added, rfl⟩ := missing
    obtain ⟨entries, _, _, rfl⟩ := addProxyUser_cases added
    exact ⟨_, _, rfl⟩

def initializeProxy (proxy : ProxyContext) (defaultSigner : Option Signer)
    (order : RangeOrder Bytes) : Except Panic ProxyContext :=
  (order.over proxy.viewers.content).foldlM linkViewer (proxy.withDefaults defaultSigner)

theorem initializeProxy_changes {proxy next : ProxyContext} {defaultSigner : Option Signer}
    {order : RangeOrder Bytes} (made : proxy.initializeProxy defaultSigner order = .ok next) :
    ∃ users viewers, next = { proxy.withDefaults defaultSigner with users, viewers } := by
  refine foldlM_keeps (fun p => ∃ users viewers,
    p = { proxy.withDefaults defaultSigner with users, viewers }) ?_ ⟨_, _, rfl⟩ made
  rintro before key after ⟨users, viewers, rfl⟩ linked
  obtain ⟨users, viewers, rfl⟩ := linkViewer_changes linked
  exact ⟨users, viewers, rfl⟩

/-- Of the fields, `Log` has the tag `-`; `running`, `listener`, `private_key`,
`userSessions`, `allSessions` and `active` are not exported. -/
def fields : List (StructField ProxyContext) := [
  field "DefaultRemotePort" none intCodec defaultRemotePort
    fun x p => { p with defaultRemotePort := x },
  field "DefaultRemoteIP" none stringCodec defaultRemoteIP
    fun x p => { p with defaultRemoteIP := x },
  field "ListenIP" none stringCodec listenIP fun x p => { p with listenIP := x },
  field "ListenPort" none intCodec listenPort fun x p => { p with listenPort := x },
  field "SessionFolder" none stringCodec sessionFolder fun x p => { p with sessionFolder := x },
  field "TLSCert" none stringCodec tlsCert fun x p => { p with tlsCert := x },
  field "TLSKey" none stringCodec tlsKey fun x p => { p with tlsKey := x },
  field "OverridePassword" none stringCodec overridePassword
    fun x p => { p with overridePassword := x },
  field "OverrideUser" none stringCodec overrideUser fun x p => { p with overrideUser := x },
  field "WebListenPort" none intCodec webListenPort fun x p => { p with webListenPort := x },
  field "ServerVersion" none stringCodec serverVersion fun x p => { p with serverVersion := x },
  field "Users" none (mapCodec stringKey (pointerCodec ProxyUser.codec)) users
    fun x p => { p with users := x },
  field "RequireValidPassword" none boolCodec requireValidPassword
    fun x p => { p with requireValidPassword := x },
  field "PublicAccess" none boolCodec publicAccess fun x p => { p with publicAccess := x },
  field "Viewers" none (mapCodec stringKey (pointerCodec ProxySessionViewer.codec)) viewers
    fun x p => { p with viewers := x },
  field "BaseURI" none stringCodec baseURI fun x p => { p with baseURI := x }]

def codec : Codec ProxyContext := structCodec {} fields

/-- The strings that are encoded as they are. -/
structure ValidStrings (proxy : ProxyContext) : Prop where
  defaultRemoteIP : ValidUTF8 proxy.defaultRemoteIP
  listenIP : ValidUTF8 proxy.listenIP
  sessionFolder : ValidUTF8 proxy.sessionFolder
  tlsCert : ValidUTF8 proxy.tlsCert
  tlsKey : ValidUTF8 proxy.tlsKey
  overridePassword : ValidUTF8 proxy.overridePassword
  overrideUser : ValidUTF8 proxy.overrideUser
  serverVersion : ValidUTF8 proxy.serverVersion
  baseURI : ValidUTF8 proxy.baseURI

/-- A proxy as it comes out of a decoder: what is not exported is as it was. -/
structure Decoded (proxy : ProxyContext) : Prop where
  running : proxy.running = false
  listener : proxy.listener = none
  privateKey : proxy.privateKey = none
  log : proxy.log = none
  userSessions : proxy.userSessions = none
  allSessions : proxy.allSessions = none
  active : proxy.active = false
  strings : proxy.ValidStrings
  users : ∀ key val, proxy.users.find key = some val →
    ValidUTF8 key ∧ ∀ user, val = some user → user.Decoded
  viewers : ∀ key val, proxy.viewers.find key = some val →
    ValidUTF8 key ∧ ∀ viewer, val = some viewer → viewer.Decoded

theorem codec_yields : codec.Yields Decoded := by
  have keys : ∀ text key, stringKey.read text = some key → ValidUTF8 key :=
    fun text key read => Option.some.inj read ▸ validUTF8_utf8 text
  have users := mapCodec_yields keys (pointerCodec_yields ProxyUser.codec_yields)
  have viewers := mapCodec_yields keys (pointerCodec_yields ProxySessionViewer.codec_yields)
  have empty : ValidUTF8 [] := validUTF8_utf8 []
  have start : Decoded {} := ⟨rfl, rfl, rfl, rfl, rfl, rfl, rfl,
    ⟨empty, empty, empty, empty, empty, empty, empty, empty, empty⟩, users.zero, viewers.zero⟩
  refine structCodec_yields start ?_
  have text : ∀ {goName : String} {get : ProxyContext → Bytes}
      {set : Bytes → ProxyContext → ProxyContext},
      (∀ a : ProxyContext, a.ValidStrings → ValidUTF8 (get a)) →
      (∀ x a, Decoded a → ValidUTF8 x → Decoded (set x a)) → ∀ v a b, Decoded a →
        (field goName none stringCodec get set).decode v a = some b → Decoded b :=
    fun gets => field_yields stringCodec_yields fun a decoded => gets a decoded.strings
  simp only [fields, List.forall_mem_cons]
  refine ⟨field_keeps ?_, text (fun _ => ValidStrings.defaultRemoteIP) ?_,
    text (fun _ => ValidStrings.listenIP) ?_, field_keeps ?_,
    text (fun _ => ValidStrings.sessionFolder) ?_, text (fun _ => ValidStrings.tlsCert) ?_,
    text (fun _ => ValidStrings.tlsKey) ?_, text (fun _ => ValidStrings.overridePassword) ?_,
    text (fun _ => ValidStrings.overrideUser) ?_, field_keeps ?_,
    text (fun _ => ValidStrings.serverVersion) ?_,
    field_yields users (fun a decoded => decoded.users) ?_, field_keeps ?_, field_keeps ?_,
    field_yields viewers (fun a decoded => decoded.viewers) ?_,
    text (fun _ => ValidStrings.baseURI) ?_, fun f none => absurd none List.not_mem_nil⟩
  · exact fun x a decoded => { decoded with strings := { decoded.strings with } }
  · exact fun x a decoded valid =>
      { decoded with strings := { decoded.strings with defaultRemoteIP := valid } }
  · exact fun x a decoded valid =>
      { decoded with strings := { decoded.strings with listenIP := valid } }
  · exact fun x a decoded => { decoded with strings := { decoded.strings with } }
  · exact fun x a decoded valid =>
      { decoded with strings := { decoded.strings with sessionFolder := valid } }
  · exact fun x a decoded valid =>
      { decoded with strings := { decoded.strings with tlsCert := valid } }
  · exact fun x a decoded valid =>
      { decoded with strings := { decoded.strings with tlsKey := valid } }
  · exact fun x a decoded valid =>
      { decoded with strings := { decoded.strings with overridePassword := valid } }
  · exact fun x a decoded valid =>
      { decoded with strings := { decoded.strings with overrideUser := valid } }
  · exact fun x a decoded => { decoded with strings := { decoded.strings with } }
  · exact fun x a decoded valid =>
      { decoded with strings := { decoded.strings with serverVersion := valid } }
  · exact fun x a decoded valid =>
      { decoded with strings := { decoded.strings with }, users := valid }
  · exact fun x a decoded => { decoded with strings := { decoded.strings with } }
  · exact fun x a decoded => { decoded with strings := { decoded.strings with } }
  · exact fun x a decoded valid =>
      { decoded with strings := { decoded.strings with }, viewers := valid }
  · exact fun x a decoded valid =>
      { decoded with strings := { decoded.strings with baseURI := valid } }

theorem unmarshal_decoded {data : Bytes} {proxy : ProxyContext}
    (decoded : codec.unmarshal data {} = some proxy) : proxy.Decoded :=
  codec_yields.unmarshal codec_yields.zero decoded

end ProxyContext

/-- `none` where `json.Unmarshal` fails. -/
def makeProxyFromJSON (data : Bytes) (signer : Option Signer) (order : RangeOrder Bytes) :
    Except Panic (Option ProxyContext) :=
  match ProxyContext.codec.unmarshal data {} with
  | some proxy => do
      let proxy ← proxy.initializeProxy signer order
      return some proxy
  | none => return none

theorem makeProxyFromJSON_cases {data : Bytes} {signer : Option Signer} {order : RangeOrder Bytes}
    {proxy : ProxyContext} (made : makeProxyFromJSON data signer order = .ok (some proxy)) :
    ∃ decoded, ProxyContext.codec.unmarshal data {} = some decoded ∧
      decoded.initializeProxy signer order = .ok proxy := by
  unfold makeProxyFromJSON at made
  split at made
  · next decoded read =>
    obtain ⟨ready, done, made⟩ := of_bind_ok made
    obtain rfl := Option.some.inj (Except.ok.inj made)
    exact ⟨decoded, read, done⟩
  · exact absurd (Except.ok.inj made) (Option.some_ne_none proxy).symm

namespace ProxyContext

def addSessionViewer (proxy : ProxyContext) (viewer : ProxySessionViewer) :
    Except Panic ProxyContext := do
  let viewers ← proxy.viewers.assign viewer.secret (some viewer)
  return { proxy with viewers }

/-- The viewer is `none` where the source returns nil; the error comes with it. -/
def makeSessionViewerForUser (proxy : ProxyContext) (username password : Bytes)
    (draw : RandomSource) :
    Except Panic (ProxyContext × Except Bytes ProxySessionViewer) := do
  match ← proxy.getProxyUser username password true with
  | .ok (some user, _) => do
      let viewer ← createNewSessionViewer sessionViewerTypeList user draw
      let proxy ← proxy.addSessionViewer viewer
      return (proxy, .ok viewer)
  | .ok (none, _) => return (proxy, .error notAValidUser)
  | .error err => return (proxy, .error err)

def makeSessionViewerForSession (proxy : ProxyContext) (userKey password session : Bytes)
    (draw : RandomSource) :
    Except Panic (ProxyContext × Except Bytes ProxySessionViewer) := do
  match ← proxy.getProxyUser userKey password true with
  | .ok (some user, _) => do
      let created ← createNewSessionViewer sessionViewerTypeSingle user draw
      let viewer := { created with sessionKey := session }
      let proxy ← proxy.addSessionViewer viewer
      return (proxy, .ok viewer)
  | .ok (none, _) => return (proxy, .error notAValidUser)
  | .error err => return (proxy, .error err)

theorem addSessionViewer_ok {proxy next : ProxyContext} {viewer : ProxySessionViewer}
    (added : proxy.addSessionViewer viewer = .ok next) :
    ∃ entries, proxy.viewers = some entries ∧
      next = { proxy with viewers := some (entries.insert viewer.secret (some viewer)) } := by
  obtain ⟨viewers, assigned, done⟩ := of_bind_ok added
  obtain ⟨entries, made, rfl⟩ := MapVar.assign_ok assigned
  exact ⟨entries, made, (Except.ok.inj done).symm⟩

/-- Either there is no such user and nothing changes, or the viewer is for a registered user
and is stored under its secret. -/
theorem makeSessionViewerForUser_cases {proxy next : ProxyContext} {username password : Bytes}
    {draw : RandomSource} {result : Except Bytes ProxySessionViewer}
    (made : proxy.makeSessionViewerForUser username password draw = .ok (next, result)) :
    (next = proxy ∧ ∃ err, result = .error err) ∨
    ∃ user key viewer, proxy.users.find key = some (some user) ∧ viewer.user = some user ∧
      viewer.typeIsSingle = false ∧ viewer.linked = true ∧ result = .ok viewer ∧
      proxy.addSessionViewer viewer = .ok next := by
  obtain ⟨found, looked, made⟩ := of_bind_ok made
  split at made
  · next user blank =>
    obtain ⟨viewer, created, made⟩ := of_bind_ok made
    obtain ⟨added, stored, made⟩ := of_bind_ok made
    obtain ⟨rfl, rfl⟩ := Prod.mk.inj (Except.ok.inj made)
    obtain ⟨owner, key, same, registered⟩ := getProxyUser_clone looked
    obtain rfl := Option.some.inj same
    obtain ⟨secret, -, rfl⟩ := createNewSessionViewer_ok created
    exact Or.inr ⟨user, key, _, registered, rfl, rfl, rfl, rfl, stored⟩
  · obtain ⟨rfl, rfl⟩ := Prod.mk.inj (Except.ok.inj made)
    exact Or.inl ⟨rfl, _, rfl⟩
  · obtain ⟨rfl, rfl⟩ := Prod.mk.inj (Except.ok.inj made)
    exact Or.inl ⟨rfl, _, rfl⟩

theorem makeSessionViewerForSession_cases {proxy next : ProxyContext}
    {userKey password session : Bytes} {draw : RandomSource}
    {result : Except Bytes ProxySessionViewer}
    (made : proxy.makeSessionViewerForSession userKey password session draw = .ok (next, result)) :
    (next = proxy ∧ ∃ err, result = .error err) ∨
    ∃ user key viewer, proxy.users.find key = some (some user) ∧ viewer.user = some user ∧
      viewer.typeIsSingle = true ∧ viewer.sessionKey = session ∧ viewer.linked = true ∧
      result = .ok viewer ∧ proxy.addSessionViewer viewer = .ok next := by
  obtain ⟨found, looked, made⟩ := of_bind_ok made
  split at made
  · next user blank =>
    obtain ⟨viewer, created, made⟩ := of_bind_ok made
    obtain ⟨added, stored, made⟩ := of_bind_ok made
    obtain ⟨rfl, rfl⟩ := Prod.mk.inj (Except.ok.inj made)
    obtain ⟨owner, key, same, registered⟩ := getProxyUser_clone looked
    obtain rfl := Option.some.inj same
    obtain ⟨secret, -, rfl⟩ := createNewSessionViewer_ok created
    exact Or.inr ⟨user, key, _, registered, rfl, rfl, rfl, rfl, rfl, stored⟩
  · obtain ⟨rfl, rfl⟩ := Prod.mk.inj (Except.ok.inj made)
    exact Or.inl ⟨rfl, _, rfl⟩
  · obtain ⟨rfl, rfl⟩ := Prod.mk.inj (Except.ok.inj made)
    exact Or.inl ⟨rfl, _, rfl⟩

theorem addSessionToUserList_eq {proxy : ProxyContext} {ref : SessionRef}
    {session : SessionContext} {user : ProxyUser} {entries : GoMap Bytes (GoMap Bytes SessionRef)}
    (owner : session.user = some user) (made : proxy.userSessions = some entries) :
    proxy.addSessionToUserList ref session =
      .ok { proxy with userSessions := some (entries.insert user.getKey
        (((entries.lookup user.getKey).getD ∅).insert session.getID ref)) } := by
  simp only [addSessionToUserList, owner, made, deref_some, MapVar.find_some, bind, Except.bind]
  cases listed : entries.lookup user.getKey with
  | some sessions => simp [listed, pure, Except.pure]
  | none => simp [pure, Except.pure]

theorem addSessionToUserList_ok {proxy next : ProxyContext} {ref : SessionRef}
    {session : SessionContext} (added : proxy.addSessionToUserList ref session = .ok next) :
    ∃ user entries, session.user = some user ∧ proxy.userSessions = some entries ∧
      next = { proxy with userSessions := some (entries.insert user.getKey
        (((entries.lookup user.getKey).getD ∅).insert session.getID ref)) } := by
  obtain ⟨user, owner, rest⟩ := of_bind_ok added
  have owned := deref_ok owner
  cases made : proxy.userSessions with
  | none =>
    simp only [made] at rest
    contradiction
  | some entries =>
    exact ⟨user, entries, owned, rfl,
      Except.ok.inj (added.symm.trans (addSessionToUserList_eq owned made))⟩

def removeSessionViewer (proxy : ProxyContext) (key : Bytes) : ProxyContext :=
  { proxy with viewers := proxy.viewers.delete key }

/-- One turn of `RemoveExpiredSessions`; a nil viewer is not dereferenced, since
`isExpired` reads no field. -/
def removeIfExpired (proxy : ProxyContext) (key : Bytes) : ProxyContext :=
  match proxy.viewers.find key with
  | some (some viewer) => if viewer.isExpired then proxy.removeSessionViewer key else proxy
  | _ => proxy

def removeExpiredSessions (proxy : ProxyContext) (order : RangeOrder Bytes) : ProxyContext :=
  (order.over proxy.viewers.content).foldl removeIfExpired proxy

/-- A nil viewer that is stored is returned like one that is not. -/
def getSessionViewer (proxy : ProxyContext) (key : Bytes) :
    ProxyContext × Option ProxySessionViewer :=
  match proxy.viewers.find key with
  | some (some viewer) =>
      if viewer.isExpired then (proxy.removeSessionViewer key, none) else (proxy, some viewer)
  | _ => (proxy, none)

end ProxyContext
end SSHProxyPlus
