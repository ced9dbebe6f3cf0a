import SSHProxyPlus.Proxy.Saving

/-! `Initialize` with its pointers. It stores pointers to users and follows them, but writes to
no user, so that what lies behind them is a parameter here. -/
namespace SSHProxyPlus
open Go

/-- Where a user lies. The decoder makes one object for each entry of `Users`, and one for the
user of each entry of `Viewers`. -/
inductive UserRef where
  | entry (key : Bytes)
  | owner (key : Bytes)
deriving DecidableEq

abbrev UserMemory := UserRef → ProxyUser

abbrev ProxyAddress := Nat

structure ViewerObject where
  viewerType : Int64 := 0
  secret : Bytes := []
  proxy : Option ProxyAddress := none
  user : Option UserRef := none
  sessionKey : Bytes := []
  expiration : Int64 := 0

/-- A proxy whose tables hold pointers; its other fields are those of `context`. -/
structure ProxyObject where
  context : ProxyContext
  users : MapVar Bytes (Option UserRef)
  viewers : MapVar Bytes (Option ViewerObject)

namespace ProxyObject

/-- `GetProxyUser` where no clone is asked for. -/
def getProxyUser (memory : UserMemory) (object : ProxyObject) (username password : Bytes) :
    Except Panic (Except Bytes (Option UserRef × Bool)) :=
  match object.users.find (buildProxyUserKey username password) with
  | some val => return .ok (val, false)
  | none =>
      match object.users.find (buildProxyUserKey username []) with
      | some val => do
          let ref ← deref val
          if (memory ref).password = [] then return .ok (some ref, true)
          else return .error notAValidUser
      | none => return .error notAValidUser

def addProxyUser (memory : UserMemory) (object : ProxyObject) (ref : UserRef) :
    Except Panic (ProxyObject × Bytes) := do
  let key := buildProxyUserKey (memory ref).username (memory ref).password
  let users ← object.users.assign key (some ref)
  return ({ object with users }, key)

def withDefaults (object : ProxyObject) (defaultSigner : Option Signer) : ProxyObject where
  context := object.context.withDefaults defaultSigner
  users := object.users.or (some ∅)
  viewers := object.viewers.or (some ∅)

/-- Writing through the pointer a viewer is stored as. -/
def updateViewer (object : ProxyObject) (key : Bytes) (viewer : ViewerObject) : ProxyObject :=
  { object with viewers := object.viewers.map fun entries => entries.insert key (some viewer) }

/-- One turn of `Initialize`'s loop, in the proxy that lies at `self`. -/
def linkViewer (memory : UserMemory) (self : ProxyAddress) (object : ProxyObject) (key : Bytes) :
    Except Panic ProxyObject :=
  match object.viewers.find key with
  | none => return object
  | some pointer => do
      let viewer ← deref pointer
      match viewer.user with
      | none => return object.updateViewer key { viewer with proxy := some self }
      | some ref =>
          match ← object.getProxyUser memory (memory ref).username (memory ref).password with
          | .ok (some found, _) =>
              return object.updateViewer key
                { viewer with proxy := some self, user := some found }
          | _ => do
              let (object, _) ← object.addProxyUser memory ref
              return object.updateViewer key { viewer with proxy := some self }

def initializeProxy (memory : UserMemory) (self : ProxyAddress) (object : ProxyObject)
    (defaultSigner : Option Signer) (order : RangeOrder Bytes) : Except Panic ProxyObject :=
  (order.over object.viewers.content).foldlM (linkViewer memory self)
    (object.withDefaults defaultSigner)

end ProxyObject

section Forget
variable (memory : UserMemory) (self : ProxyAddress)

/-- The viewer with its user in place of the pointer. -/
def ViewerObject.forget (viewer : ViewerObject) : ProxySessionViewer where
  viewerType := viewer.viewerType
  secret := viewer.secret
  linked := viewer.proxy == some self
  user := viewer.user.map memory
  sessionKey := viewer.sessionKey
  expiration := viewer.expiration

def ProxyObject.forget (object : ProxyObject) : ProxyContext :=
  { object.context with
    users := object.users.map (mapValues fun _ => Option.map memory)
    viewers := object.viewers.map
      (mapValues fun _ => Option.map (ViewerObject.forget memory self)) }

namespace ProxyObject
variable {memory self} {object : ProxyObject} {key : Bytes}

theorem forget_users_find (key : Bytes) : (object.forget memory self).users.find key =
    (object.users.find key).map (Option.map memory) := by
  cases made : object.users with
  | none => simp [forget, made]
  | some entries => simp [forget, made]

theorem forget_viewers_find (key : Bytes) : (object.forget memory self).viewers.find key =
    (object.viewers.find key).map (Option.map (ViewerObject.forget memory self)) := by
  cases made : object.viewers with
  | none => simp [forget, made]
  | some entries => simp [forget, made]

theorem forget_updateViewer (viewer : ViewerObject) :
    (object.updateViewer key viewer).forget memory self =
      (object.forget memory self).updateViewer key (viewer.forget memory self) := by
  cases made : object.viewers with
  | none => simp [forget, updateViewer, ProxyContext.updateViewer, made]
  | some entries =>
    simp [forget, updateViewer, ProxyContext.updateViewer, made, mapValues_insert]

theorem forget_getProxyUser (username password : Bytes) :
    (object.forget memory self).getProxyUser username password false =
      (object.getProxyUser memory username password).map
        (Except.map (Prod.map (Option.map memory) id)) := by
  unfold ProxyContext.getProxyUser getProxyUser
  rw [forget_users_find, forget_users_find]
  cases object.users.find (buildProxyUserKey username password) with
  | some val => rfl
  | none =>
    cases object.users.find (buildProxyUserKey username []) with
    | none => rfl
    | some val =>
      cases val with
      | none => rfl
      | some ref =>
        simp only [Option.map_none, Option.map_some, deref_some, bind, Except.bind]
        split
        · rfl
        · rfl

theorem forget_addProxyUser (ref : UserRef) :
    (object.forget memory self).addProxyUser (memory ref) =
      (object.addProxyUser memory ref).map (Prod.map (ProxyObject.forget memory self) id) := by
  cases made : object.users with
  | none => simp [ProxyContext.addProxyUser, addProxyUser, forget, made, MapVar.assign, bind,
      Except.bind, Except.map]
  | some entries => simp [ProxyContext.addProxyUser, addProxyUser, forget, made, mapValues_insert,
      bind, Except.bind, pure, Except.pure, Except.map]

/-- A turn does to the values what it does to the objects. -/
theorem forget_linkViewer (object : ProxyObject) (key : Bytes) :
    (object.forget memory self).linkViewer key =
      (object.linkViewer memory self key).map (ProxyObject.forget memory self) := by
  unfold ProxyContext.linkViewer linkViewer
  rw [forget_viewers_find]
  cases object.viewers.find key with
  | none => rfl
  | some pointer =>
    cases pointer with
    | none => rfl
    | some viewer =>
      obtain ⟨viewerType, secret, holder, owner, sessionKey, expiration⟩ := viewer
      cases owner with
      | none =>
        simp [ViewerObject.forget, bind, Except.bind, pure, Except.pure, Except.map,
          forget_updateViewer]
      | some ref =>
        simp only [Option.map_some, deref_some, bind, Except.bind, ViewerObject.forget,
          forget_getProxyUser]
        let linked : ViewerObject :=
          ⟨viewerType, secret, some self, some ref, sessionKey, expiration⟩
        -- Nobody was found, or a nil user was.
        have registered : ((object.forget memory self).addProxyUser (memory ref)).bind
            (fun pair => .ok (pair.1.updateViewer key (linked.forget memory self))) =
            ((object.addProxyUser memory ref).bind
              fun pair => .ok (pair.1.updateViewer key linked)).map
                (ProxyObject.forget memory self) := by
          rw [forget_addProxyUser]
          cases object.addProxyUser memory ref with
          | error panic => rfl
          | ok pair => simp [Except.bind, Except.map, forget_updateViewer]
        simp only [ViewerObject.forget, linked, beq_self_eq_true, Option.map_some] at registered
        cases object.getProxyUser memory (memory ref).username (memory ref).password with
        | error panic => rfl
        | ok result =>
          rcases result with err | ⟨_ | found, blank⟩
          · exact registered
          · exact registered
          · simp [Except.map, pure, Except.pure, forget_updateViewer, ViewerObject.forget]

theorem forget_withDefaults (defaultSigner : Option Signer) :
    (object.withDefaults defaultSigner).forget memory self =
      (object.forget memory self).withDefaults defaultSigner := by
  cases users : object.users <;> cases viewers : object.viewers <;>
    simp [forget, withDefaults, ProxyContext.withDefaults, users, viewers]

/-- Initializing the objects is initializing what they hold. -/
theorem forget_initializeProxy (object : ProxyObject) (defaultSigner : Option Signer)
    (order : RangeOrder Bytes) :
    (object.forget memory self).initializeProxy defaultSigner order =
      (object.initializeProxy memory self defaultSigner order).map
        (ProxyObject.forget memory self) := by
  unfold ProxyContext.initializeProxy initializeProxy
  have visited : order.over (object.forget memory self).viewers.content =
      order.over object.viewers.content := by
    cases made : object.viewers with
    | none => simp [forget, made, RangeOrder.over]
    | some entries => simp [forget, made, RangeOrder.over]
  rw [visited, ← forget_withDefaults]
  exact foldlM_image (ProxyObject.forget memory self) forget_linkViewer _ _

end ProxyObject
end Forget

/-- The users that the decoder has made. -/
def ProxyContext.memory (decoded : ProxyContext) : UserMemory
  | .entry key => ((decoded.users.find key).join).getD {}
  | .owner key => (((decoded.viewers.find key).join).bind fun viewer => viewer.user).getD {}

def ProxySessionViewer.allocated (key : Bytes) (viewer : ProxySessionViewer) : ViewerObject where
  viewerType := viewer.viewerType
  secret := viewer.secret
  user := viewer.user.map fun _ => .owner key
  sessionKey := viewer.sessionKey
  expiration := viewer.expiration

/-- A decoded proxy with its pointers: no two of them are the same. -/
def ProxyContext.allocated (decoded : ProxyContext) : ProxyObject where
  context := decoded
  users := decoded.users.map (mapValues fun key => Option.map fun _ => .entry key)
  viewers :=
    decoded.viewers.map (mapValues fun key => Option.map (ProxySessionViewer.allocated key))

namespace ProxyContext
variable {decoded : ProxyContext}

/-- The decoder never sets the field `proxy` of a viewer. -/
def Unlinked (proxy : ProxyContext) : Prop :=
  ∀ key viewer, proxy.viewers.find key = some (some viewer) → viewer.linked = false

theorem codec_unlinked : codec.Yields Unlinked := by
  have viewer : ProxySessionViewer.codec.Yields fun viewer => viewer.linked = false := by
    refine structCodec_yields rfl ?_
    simp only [ProxySessionViewer.fields, List.forall_mem_cons]
    refine ⟨field_keeps ?_, field_keeps ?_, field_keeps ?_, field_keeps ?_,
      fun f none => absurd none List.not_mem_nil⟩
    · exact fun x a unlinked => unlinked
    · exact fun x a unlinked => unlinked
    · exact fun x a unlinked => unlinked
    · exact fun x a unlinked => unlinked
  have keys : ∀ text key, stringKey.read text = some key → True := fun _ _ _ => trivial
  have viewers := mapCodec_yields keys (pointerCodec_yields viewer)
  have start : Unlinked {} := fun key viewer stored => by
    rw [show ({} : ProxyContext).viewers = none from rfl, MapVar.find_none] at stored
    contradiction
  refine structCodec_yields start ?_
  simp only [fields, List.forall_mem_cons]
  refine ⟨field_keeps ?_, field_keeps ?_, field_keeps ?_, field_keeps ?_, field_keeps ?_,
    field_keeps ?_, field_keeps ?_, field_keeps ?_, field_keeps ?_, field_keeps ?_,
    field_keeps ?_, field_keeps ?_, field_keeps ?_, field_keeps ?_, field_yields viewers ?_ ?_,
    field_keeps ?_, fun f none => absurd none List.not_mem_nil⟩
  case refine_15 =>
    intro proxy unlinked key val stored
    exact ⟨trivial, fun viewer same => unlinked key viewer (same ▸ stored)⟩
  case refine_16 =>
    intro table proxy _ valid key viewer stored
    exact (valid key _ stored).2 viewer rfl
  all_goals exact fun _ _ unlinked => unlinked

theorem unmarshal_unlinked {data : Bytes} (read : codec.unmarshal data {} = some decoded) :
    decoded.Unlinked := codec_unlinked.unmarshal codec_unlinked.zero read

theorem allocated_users_find (key : Bytes) : decoded.allocated.users.find key =
    (decoded.users.find key).map (Option.map fun _ => .entry key) := by
  cases made : decoded.users with
  | none => simp [allocated, made]
  | some entries => simp [allocated, made]

theorem allocated_viewers_find (key : Bytes) : decoded.allocated.viewers.find key =
    (decoded.viewers.find key).map (Option.map (ProxySessionViewer.allocated key)) := by
  cases made : decoded.viewers with
  | none => simp [allocated, made]
  | some entries => simp [allocated, made]

/-- Behind the pointers of a decoded proxy lies what was decoded. -/
theorem allocated_forget (unlinked : decoded.Unlinked) (self : ProxyAddress) :
    decoded.allocated.forget decoded.memory self = decoded := by
  have users : (decoded.allocated.forget decoded.memory self).users = decoded.users := by
    cases made : decoded.users with
    | none => simp [ProxyObject.forget, allocated, made]
    | some entries =>
      simp only [ProxyObject.forget, allocated, made, Option.map_some, Option.some.injEq]
      refine Finmap.ext_lookup fun key => ?_
      rw [lookup_mapValues, lookup_mapValues]
      rcases stored : entries.lookup key with _ | _ | user
      · rfl
      · rfl
      · simp [memory, made, stored]
  have viewers : (decoded.allocated.forget decoded.memory self).viewers = decoded.viewers := by
    cases made : decoded.viewers with
    | none => simp [ProxyObject.forget, allocated, made]
    | some entries =>
      simp only [ProxyObject.forget, allocated, made, Option.map_some, Option.some.injEq]
      refine Finmap.ext_lookup fun key => ?_
      rw [lookup_mapValues, lookup_mapValues]
      rcases stored : entries.lookup key with _ | _ | viewer
      · rfl
      · rfl
      · have free : viewer.linked = false := unlinked key viewer (by rw [made]; exact stored)
        obtain ⟨viewerType, secret, linked, owner, sessionKey, expiration⟩ := viewer
        obtain rfl := free
        cases owner with
        | none => simp [ProxySessionViewer.allocated, ViewerObject.forget]
        | some user =>
          simp [ProxySessionViewer.allocated, ViewerObject.forget, memory, made, stored]
  calc decoded.allocated.forget decoded.memory self
      = { decoded with
          users := (decoded.allocated.forget decoded.memory self).users
          viewers := (decoded.allocated.forget decoded.memory self).viewers } := rfl
    _ = decoded := by rw [users, viewers]

end ProxyContext
end SSHProxyPlus
