import SSHProxyPlus.Go.Replace
import SSHProxyPlus.Proxy.Sessions

/-! The controller: its proxies, and the filters and callbacks it has handed out. An
operation returns the error it reports as a value; a panic ends the call. -/
namespace SSHProxyPlus
open Go

/-- A filter that a control message asks for. -/
structure ChannelFilterFunc where
  findString : Bytes
  replaceString : Bytes

def ChannelFilterFunc.fn (function : ChannelFilterFunc) (inData : Bytes) : Bytes :=
  replaceAll function.findString function.replaceString inData

/-- A callback that a control message asks for; one that was decoded is empty. -/
structure EventCallback where
  events : List Bytes := []
  findString : Bytes := []
  callbackURL : Bytes := []

/-- The pointers to callbacks that decoding makes; they are in no user's list. -/
def decodedCallback : CallbackRef := 0

structure ProxyController where
  proxies : MapVar UInt64 (Option ProxyContext) := none
  proxyCounter : UInt64 := 0
  presharedKey : Bytes := []
  socketType : UInt16 := 0
  socketHost : Bytes := []
  tlsKey : Bytes := []
  tlsCert : Bytes := []
  webHost : Bytes := []
  webStaticDir : Bytes := []
  baseURI : Bytes := []
  log : Option Logger := none
  defaultSigner : Option Signer := none
  channelFilters : MapVar Bytes FilterRef := none
  eventCallbacks : MapVar Bytes (Option CallbackRef) := none

/-- A goroutine that is to run `StartProxy` on a proxy, with the key it will serve. -/
structure Launch where
  /-- Where the controller has the proxy, until it is destroyed or another takes its place. -/
  proxyID : Option UInt64
  privateKey : Option Signer

/-- The proxy that was stored under that ID is no longer. -/
def Launch.leave (proxyID : UInt64) (goroutine : Launch) : Launch :=
  if goroutine.proxyID = some proxyID then { goroutine with proxyID := none } else goroutine

/-- What the world contributes when a controller is set up: the orders of its `range`
loops, and the signer that is generated where there is none. -/
structure Setup where
  proxyOrder : RangeOrder UInt64
  viewerOrder : UInt64 → RangeOrder Bytes
  generated : Option Signer

def cannotFindProxy (proxyID : UInt64) : Bytes :=
  lit "Cannot find proxy with ID: " ++ utf8 (decimal proxyID.toNat)

def noProxyExists (proxyID : UInt64) : Bytes :=
  lit "No proxy with this ID exists: " ++ utf8 (decimal proxyID.toNat)

def couldNotFindFilterKey : Bytes := lit "could not find channel filter key"

def couldNotFindViewer : Bytes := lit "Could not find viewer with that key."

/-- The loop that lengthens a key until it is not registered. It takes at most one turn for
each key there is. -/
def unusedKey {V : Type} (registry : GoMap Bytes V) : Nat → Bytes → Bytes
  | 0, key => key
  | turns + 1, key => if key ∈ registry then unusedKey registry turns (key ++ lit ".") else key

/-- A key still registered after some turns means that more keys than turns are at least as
long as the first. -/
theorem unusedKey_registered {V : Type} {registry : GoMap Bytes V} {turns : Nat} {key : Bytes}
    (registered : unusedKey registry turns key ∈ registry) :
    turns < (registry.keys.filter fun k => key.length ≤ k.length).card := by
  induction turns generalizing key with
  | zero =>
    have here : key ∈ registry.keys.filter fun k => key.length ≤ k.length :=
      Finset.mem_filter.mpr ⟨Finmap.mem_keys.mpr registered, Nat.le_refl _⟩
    exact Finset.card_pos.mpr ⟨key, here⟩
  | succ turns ih =>
    unfold unusedKey at registered
    split at registered
    · next present =>
      refine Nat.lt_of_le_of_lt (Nat.succ_le_of_lt (ih registered)) (Finset.card_lt_card ?_)
      have longer : (key ++ lit ".").length = key.length + 1 := List.length_append
      rw [longer]
      refine Finset.ssubset_iff_subset_ne.mpr ⟨fun k member => ?_, fun same => ?_⟩
      · obtain ⟨inside, long⟩ := Finset.mem_filter.mp member
        exact Finset.mem_filter.mpr ⟨inside, Nat.le_of_succ_le long⟩
      · have here : key ∈ registry.keys.filter fun k => key.length ≤ k.length :=
          Finset.mem_filter.mpr ⟨Finmap.mem_keys.mpr present, Nat.le_refl _⟩
        rw [← same] at here
        exact Nat.not_succ_le_self _ (Finset.mem_filter.mp here).2
    · next absent => exact absurd registered absent

/-- The loop has ended by then: the key it gives is free. -/
theorem unusedKey_free {V : Type} (registry : GoMap Bytes V) (key : Bytes) :
    unusedKey registry registry.keys.card key ∉ registry := fun registered =>
  Nat.lt_irrefl _ (Nat.lt_of_lt_of_le (unusedKey_registered registered)
    (Finset.card_le_card (Finset.filter_subset _ _)))

/-- `fmt.Sprintf("<kind>-proxy%v-%s-%s-%v", …)`. -/
def hookKey (kind : Bytes) (proxyID : UInt64) (username password : Bytes) (index : Nat) : Bytes :=
  kind ++ lit "-proxy" ++ utf8 (decimal proxyID.toNat) ++ lit "-" ++ username ++ lit "-" ++
    password ++ lit "-" ++ utf8 (decimal index)

namespace ProxyContext

/-- Writing through the pointer `GetProxyUser` returned: the entry it found is the one of
the pair, or else the one with a blank password. -/
def updateFoundUser (proxy : ProxyContext) (username password : Bytes) (blank : Bool)
    (user : ProxyUser) : ProxyContext :=
  let key := buildProxyUserKey username (if blank then [] else password)
  { proxy with users := proxy.users.map fun entries => entries.insert key (some user) }

end ProxyContext

namespace ProxyController

/-- Writing through the pointer a proxy is stored as. -/
def updateProxy (controller : ProxyController) (proxyID : UInt64) (proxy : ProxyContext) :
    ProxyController :=
  { controller with
    proxies := controller.proxies.map fun entries => entries.insert proxyID (some proxy) }

def getProxy (controller : ProxyController) (proxyID : UInt64) :
    Option ProxyContext × Option Bytes :=
  match controller.proxies.find proxyID with
  | some val => (val, none)
  | none => (none, some (cannotFindProxy proxyID))

def addExistingProxy (controller : ProxyController) (proxy : ProxyContext) :
    Except Panic (ProxyController × UInt64) := do
  let proxyID := controller.proxyCounter
  let proxies ← controller.proxies.assign proxyID (some proxy)
  return ({ controller with proxies, proxyCounter := proxyID + 1 }, proxyID)

def addProxy (controller : ProxyController) (proxy : ProxyContext) :
    Except Panic (ProxyController × UInt64) := do
  let (controller, proxyID) ← controller.addExistingProxy proxy
  return (controller.updateProxy proxyID { proxy with log := controller.log }, proxyID)

def createProxy (controller : ProxyController) : Except Panic (ProxyController × UInt64) :=
  controller.addProxy (makeNewProxy controller.defaultSigner)

/-- No ID where the data does not decode. -/
def addProxyFromJSON (controller : ProxyController) (data : Bytes) (order : RangeOrder Bytes) :
    Except Panic (ProxyController × Option UInt64) := do
  match ← makeProxyFromJSON data controller.defaultSigner order with
  | some proxy => do
      let (controller, proxyID) ← controller.addProxy proxy
      return (controller, some proxyID)
  | none => return (controller, none)

def destroyProxy (controller : ProxyController) (sessions : SessionHeap) (proxyID : UInt64)
    (order : RangeOrder Bytes) (now : Time) :
    Except Panic (ProxyController × SessionHeap × Option Bytes) :=
  match controller.proxies.find proxyID with
  | some val => do
      let proxy ← deref val
      let removed := { controller with proxies := controller.proxies.delete proxyID }
      if proxy.running then do
        let (_, sessions) ← proxy.stop sessions order now
        return (removed, sessions, none)
      else return (removed, sessions, none)
  | none => return (controller, sessions, some (noProxyExists proxyID))

/-- An operation on the proxy of that ID, where there is one. -/
def withProxy (controller : ProxyController) (proxyID : UInt64)
    (f : ProxyContext → ProxyContext) : ProxyController × Option Bytes :=
  match controller.getProxy proxyID with
  | (some proxy, err) => (controller.updateProxy proxyID (f proxy), err)
  | (none, err) => (controller, err)

def activateProxy (controller : ProxyController) (proxyID : UInt64) :
    ProxyController × Option Bytes := controller.withProxy proxyID ProxyContext.activate

def deactivateProxy (controller : ProxyController) (proxyID : UInt64) :
    ProxyController × Option Bytes := controller.withProxy proxyID ProxyContext.deactivate

def addUserToProxy (controller : ProxyController) (proxyID : UInt64) (user : ProxyUser) :
    Except Panic (ProxyController × Option Bytes × Bytes) :=
  match controller.getProxy proxyID with
  | (some proxy, err) => do
      let (proxy, key) ← proxy.addProxyUser user
      return (controller.updateProxy proxyID proxy, err, key)
  | (none, err) => return (controller, err, [])

def removeUserFromProxy (controller : ProxyController) (proxyID : UInt64)
    (username password : Bytes) : ProxyController × Option Bytes :=
  match controller.getProxy proxyID with
  | (some proxy, _) =>
      let (proxy, err) := proxy.removeProxyUser username password
      (controller.updateProxy proxyID proxy, err)
  | (none, err) => (controller, err)

/-- The goroutine it launches. -/
def startProxy (controller : ProxyController) (proxyID : UInt64) :
    Option Launch × Option Bytes :=
  match controller.getProxy proxyID with
  | (some proxy, err) => (some ⟨some proxyID, proxy.privateKey⟩, err)
  | (none, err) => (none, err)

def stopProxy (controller : ProxyController) (sessions : SessionHeap) (proxyID : UInt64)
    (order : RangeOrder Bytes) (now : Time) :
    Except Panic (ProxyController × SessionHeap × Option Bytes) :=
  match controller.getProxy proxyID with
  | (some proxy, err) => do
      let (proxy, sessions) ← proxy.stop sessions order now
      return (controller.updateProxy proxyID proxy, sessions, err)
  | (none, err) => return (controller, sessions, err)

def addEventCallbackToUser (controller : ProxyController) (proxyID : UInt64)
    (username password : Bytes) (callback : CallbackRef) :
    Except Panic (ProxyController × Option Bytes × Bytes) :=
  match controller.getProxy proxyID with
  | (some proxy, _) => do
      match ← proxy.getProxyUser username password false with
      | .ok (found, blank) => do
          let (user, index) := (← deref found).addEventCallback callback
          let registry := controller.eventCallbacks.content
          let key := unusedKey registry registry.keys.card
            (hookKey (lit "callback") proxyID username password index)
          let eventCallbacks ← controller.eventCallbacks.assign key (some callback)
          let updated := controller.updateProxy proxyID
            (proxy.updateFoundUser username password blank user)
          return ({ updated with eventCallbacks }, none, key)
      | .error err => return (controller, some err, [])
  | (none, err) => return (controller, err, [])

def removeEventCallbackFromUser (controller : ProxyController) (proxyID : UInt64)
    (username password : Bytes) (callback : Option CallbackRef) :
    Except Panic (ProxyController × Option Bytes) :=
  match controller.getProxy proxyID with
  | (some proxy, _) => do
      match ← proxy.getProxyUser username password false with
      | .ok (found, blank) => do
          let user ← (← deref found).removeEventCallback callback
          return (controller.updateProxy proxyID
            (proxy.updateFoundUser username password blank user), none)
      | .error err => return (controller, some err)
  | (none, _) => return (controller, none)

/-- The key is forgotten whether or not the user was found. -/
def removeEventCallbackFromUserByKey (controller : ProxyController) (proxyID : UInt64)
    (username password key : Bytes) : Except Panic (ProxyController × Option Bytes) :=
  match controller.eventCallbacks.find key with
  | some callback => do
      let (controller, err) ←
        controller.removeEventCallbackFromUser proxyID username password callback
      return ({ controller with eventCallbacks := controller.eventCallbacks.delete key }, err)
  | none => return (controller, some couldNotFindFilterKey)

def addChannelFilterToUser (controller : ProxyController) (proxyID : UInt64)
    (username password : Bytes) (function : FilterRef) :
    Except Panic (ProxyController × Option Bytes × Bytes) :=
  match controller.getProxy proxyID with
  | (some proxy, _) => do
      match ← proxy.getProxyUser username password false with
      | .ok (found, blank) => do
          let (user, index) := (← deref found).addChannelFilter function
          let registry := controller.channelFilters.content
          let key := unusedKey registry registry.keys.card
            (hookKey (lit "filter") proxyID username password index)
          let channelFilters ← controller.channelFilters.assign key function
          let updated := controller.updateProxy proxyID
            (proxy.updateFoundUser username password blank user)
          return ({ updated with channelFilters }, none, key)
      | .error err => return (controller, some err, [])
  | (none, err) => return (controller, err, [])

def removeChannelFilterFromUser (controller : ProxyController) (proxyID : UInt64)
    (username password : Bytes) (function : FilterRef) :
    Except Panic (ProxyController × Option Bytes) :=
  match controller.getProxy proxyID with
  | (some proxy, _) => do
      match ← proxy.getProxyUser username password false with
      | .ok (found, blank) => do
          let user ← (← deref found).removeChannelFilter function
          return (controller.updateProxy proxyID
            (proxy.updateFoundUser username password blank user), none)
      | .error err => return (controller, some err)
  | (none, _) => return (controller, none)

def removeChannelFilterFromUserByKey (controller : ProxyController) (proxyID : UInt64)
    (username password key : Bytes) : Except Panic (ProxyController × Option Bytes) :=
  match controller.channelFilters.find key with
  | some function => do
      let (controller, err) ←
        controller.removeChannelFilterFromUser proxyID username password function
      return ({ controller with channelFilters := controller.channelFilters.delete key }, err)
  | none => return (controller, some couldNotFindFilterKey)

/-- The viewers of a proxy, in the order a `range` over them takes. -/
def getProxyViewers (controller : ProxyController) (proxyID : UInt64) (order : RangeOrder Bytes) :
    Except Panic (ProxyController × Except Bytes (List (Option ProxySessionViewer))) :=
  match controller.getProxy proxyID with
  | (_, some err) => return (controller, .error err)
  | (found, none) => do
      let proxy := (← deref found).removeExpiredSessions order
      let viewers := proxy.viewers.content
      return (controller.updateProxy proxyID proxy, .ok ((order.over viewers).filterMap viewers.lookup))

def getProxyViewerByViewerKey (controller : ProxyController) (proxyID : UInt64)
    (viewerKey : Bytes) : Except Panic (ProxyController × Except Bytes ProxySessionViewer) :=
  match controller.getProxy proxyID with
  | (_, some err) => return (controller, .error err)
  | (found, none) => do
      let proxy ← deref found
      match proxy.getSessionViewer viewerKey with
      | (proxy, some viewer) => return (controller.updateProxy proxyID proxy, .ok viewer)
      | (proxy, none) => return (controller.updateProxy proxyID proxy, .error couldNotFindViewer)

/-- The first viewer that passes a test, and no later one is tried. -/
def firstViewer (test : ProxySessionViewer → Except Panic Bool) :
    List (Option ProxySessionViewer) → Except Panic (Option ProxySessionViewer)
  | [] => return none
  | pointer :: rest => do
      let viewer ← deref pointer
      if ← test viewer then return some viewer
      else firstViewer test rest

def matchingViewers (test : ProxySessionViewer → Except Panic Bool) :
    List (Option ProxySessionViewer) → Except Panic (List ProxySessionViewer)
  | [] => return []
  | pointer :: rest => do
      let viewer ← deref pointer
      let passes ← test viewer
      let more ← matchingViewers test rest
      return if passes then viewer :: more else more

def hasSessionKey (sessionKey : Bytes) (viewer : ProxySessionViewer) : Except Panic Bool :=
  return sessionKey == viewer.sessionKey

def hasUsername (username : Bytes) (viewer : ProxySessionViewer) : Except Panic Bool := do
  let user ← deref viewer.user
  return username == user.username

def getProxyViewer (test : ProxySessionViewer → Except Panic Bool) (controller : ProxyController)
    (proxyID : UInt64) (order : RangeOrder Bytes) :
    Except Panic (ProxyController × Except Bytes (Option ProxySessionViewer)) := do
  match ← controller.getProxyViewers proxyID order with
  | (controller, .ok viewers) => do
      let viewer ← firstViewer test viewers
      return (controller, .ok viewer)
  | (controller, .error err) => return (controller, .error err)

def getProxyViewerBySessionKey (controller : ProxyController) (proxyID : UInt64)
    (sessionKey : Bytes) (order : RangeOrder Bytes) :
    Except Panic (ProxyController × Except Bytes (Option ProxySessionViewer)) :=
  getProxyViewer (hasSessionKey sessionKey) controller proxyID order

def getProxyViewerByUsername (controller : ProxyController) (proxyID : UInt64)
    (username : Bytes) (order : RangeOrder Bytes) :
    Except Panic (ProxyController × Except Bytes (Option ProxySessionViewer)) :=
  getProxyViewer (hasUsername username) controller proxyID order

def getMatchingViewers (test : ProxySessionViewer → Except Panic Bool)
    (controller : ProxyController) (proxyID : UInt64) (order : RangeOrder Bytes) :
    Except Panic (ProxyController × Except Bytes (List ProxySessionViewer)) := do
  match ← controller.getProxyViewers proxyID order with
  | (controller, .ok viewers) => do
      let chosen ← matchingViewers test viewers
      return (controller, .ok chosen)
  | (controller, .error err) => return (controller, .error err)

def getProxyViewersBySessionKey (controller : ProxyController) (proxyID : UInt64)
    (sessionKey : Bytes) (order : RangeOrder Bytes) :
    Except Panic (ProxyController × Except Bytes (List ProxySessionViewer)) :=
  getMatchingViewers (hasSessionKey sessionKey) controller proxyID order

def getProxyViewersByUsername (controller : ProxyController) (proxyID : UInt64)
    (username : Bytes) (order : RangeOrder Bytes) :
    Except Panic (ProxyController × Except Bytes (List ProxySessionViewer)) :=
  getMatchingViewers (hasUsername username) controller proxyID order

/-- Nil viewers are listed as they are. -/
def getProxyViewersAsList (controller : ProxyController) (proxyID : UInt64)
    (order : RangeOrder Bytes) :
    Except Panic (ProxyController × Except Bytes (List (Option ProxySessionViewer))) :=
  controller.getProxyViewers proxyID order

/-- The result of a call that makes a viewer on the proxy of that ID, where there is one. -/
def createViewer (controller : ProxyController) (proxyID : UInt64)
    (make : ProxyContext → Except Panic (ProxyContext × Except Bytes ProxySessionViewer)) :
    Except Panic (ProxyController × Except Bytes (Option ProxySessionViewer)) :=
  match controller.getProxy proxyID with
  | (some proxy, _) => do
      let (proxy, result) ← make proxy
      return (controller.updateProxy proxyID proxy, result.map some)
  | (none, some err) => return (controller, .error err)
  | (none, none) => return (controller, .ok none)

def createSessionViewer (controller : ProxyController) (proxyID : UInt64)
    (username password sessionKey : Bytes) (draw : RandomSource) :
    Except Panic (ProxyController × Except Bytes (Option ProxySessionViewer)) :=
  controller.createViewer proxyID fun proxy =>
    proxy.makeSessionViewerForSession username password sessionKey draw

def createUserSessionViewer (controller : ProxyController) (proxyID : UInt64)
    (username password : Bytes) (draw : RandomSource) :
    Except Panic (ProxyController × Except Bytes (Option ProxySessionViewer)) :=
  controller.createViewer proxyID fun proxy =>
    proxy.makeSessionViewerForUser username password draw

/-- One turn of a loop over the proxies that writes through their pointers. -/
def updateOne (f : UInt64 → ProxyContext → Except Panic ProxyContext)
    (controller : ProxyController) (proxyID : UInt64) : Except Panic ProxyController :=
  match controller.proxies.find proxyID with
  | some val => do
      let proxy ← f proxyID (← deref val)
      return controller.updateProxy proxyID proxy
  | none => return controller

def updateEach (controller : ProxyController) (order : RangeOrder UInt64)
    (f : UInt64 → ProxyContext → Except Panic ProxyContext) : Except Panic ProxyController :=
  (order.over controller.proxies.content).foldlM (updateOne f) controller

def updateProxiesWithCurrentLogger (controller : ProxyController) (overwrite : Bool)
    (order : RangeOrder UInt64) : Except Panic ProxyController :=
  controller.updateEach order fun _ proxy =>
    return if proxy.log.isNone || overwrite then { proxy with log := controller.log } else proxy

def useNewLogger (controller : ProxyController) (logger : Option Logger)
    (order : RangeOrder UInt64) : Except Panic ProxyController :=
  { controller with log := logger }.updateProxiesWithCurrentLogger true order

/-- `Initialize` begins with a logger. -/
def ensureLogger (controller : ProxyController) (order : RangeOrder UInt64) :
    Except Panic ProxyController :=
  if controller.log.isNone then controller.useNewLogger (some defaultLogger) order
  else return controller

/-- What `Initialize` fills in before it visits the proxies. -/
def withDefaults (controller : ProxyController) (generated : Option Signer) : ProxyController :=
  { controller with
    channelFilters := controller.channelFilters.or (some ∅)
    eventCallbacks := controller.eventCallbacks.or (some ∅)
    proxies := controller.proxies.or (some ∅)
    defaultSigner := controller.defaultSigner.or generated }

def initializeController (controller : ProxyController) (setup : Setup) :
    Except Panic ProxyController := do
  let logged ← controller.ensureLogger setup.proxyOrder
  let filled := logged.withDefaults setup.generated
  let visited ← filled.updateEach setup.proxyOrder fun proxyID proxy =>
    proxy.initializeProxy filled.defaultSigner (setup.viewerOrder proxyID)
  visited.updateProxiesWithCurrentLogger false setup.proxyOrder

def callbackCodec : Codec (Option CallbackRef) := pointerCodec (structCodec decodedCallback [])

/-- `Log` and `DefaultSigner` have the tag `-`; the rest of what is left out is not
exported. -/
def fields : List (StructField ProxyController) := [
  field "Proxies" none (mapCodec uint64Key (pointerCodec ProxyContext.codec)) proxies
    fun x c => { c with proxies := x },
  field "ProxyCounter" none uint64Codec proxyCounter fun x c => { c with proxyCounter := x },
  field "PresharedKey" none stringCodec presharedKey fun x c => { c with presharedKey := x },
  field "SocketType" none uint16Codec socketType fun x c => { c with socketType := x },
  field "SocketHost" none stringCodec socketHost fun x c => { c with socketHost := x },
  field "TLSKey" none stringCodec tlsKey fun x c => { c with tlsKey := x },
  field "TLSCert" none stringCodec tlsCert fun x c => { c with tlsCert := x },
  field "WebHost" none stringCodec webHost fun x c => { c with webHost := x },
  field "WebStaticDir" none stringCodec webStaticDir fun x c => { c with webStaticDir := x },
  field "BaseURI" none stringCodec baseURI fun x c => { c with baseURI := x },
  field "EventCallbacks" none (mapCodec stringKey callbackCodec) eventCallbacks
    fun x c => { c with eventCallbacks := x }]

def codec : Codec ProxyController := structCodec {} fields

/-- `json.MarshalIndent` with four blanks; it fails on no value of these types. -/
def exportControllerAsJSON (controller : ProxyController) : Bytes :=
  utf8 (render (Layout.indented 4) 0 (codec.encode controller))

end ProxyController

/-- From the bytes of the file; `none` where they do not decode. -/
def loadControllerConfigFromFile (data : Bytes) (signer : Option Signer) (setup : Setup) :
    Except Panic (Option ProxyController) :=
  match ProxyController.codec.unmarshal data {} with
  | some controller => do
      let ready ← { controller with
        defaultSigner := signer.or controller.defaultSigner }.initializeController setup
      return some ready
  | none => return none

end SSHProxyPlus
