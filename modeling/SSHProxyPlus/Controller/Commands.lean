import SSHProxyPlus.Controller.Message
import SSHProxyPlus.Controller.State

/-! Executing control messages: one command at a time, each with a reply. -/
namespace SSHProxyPlus
open Go

/-- The message types there are. -/
inductive Command where
  | createProxy
  | startProxy
  | stopProxy
  | destroyProxy
  | activateProxy
  | deactivateProxy
  | listProxies
  | getProxyInfo
  | getProxyViewer
  | getProxyViewers
  | newProxyViewer
  | addProxyUser
  | removeProxyUser
  | addChannelFilter
  | removeChannelFilter
  | addUserCallback
  | removeUserCallback

def Command.read (messageType : Bytes) : Option Command :=
  if messageType = lit "create-proxy" then some .createProxy
  else if messageType = lit "start-proxy" then some .startProxy
  else if messageType = lit "stop-proxy" then some .stopProxy
  else if messageType = lit "destroy-proxy" then some .destroyProxy
  else if messageType = lit "activate-proxy" then some .activateProxy
  else if messageType = lit "deactivate-proxy" then some .deactivateProxy
  else if messageType = lit "list-proxies" then some .listProxies
  else if messageType = lit "get-proxy-info" then some .getProxyInfo
  else if messageType = lit "get-proxy-viewer" then some .getProxyViewer
  else if messageType = lit "get-proxy-viewers" then some .getProxyViewers
  else if messageType = lit "new-proxy-viewer" then some .newProxyViewer
  else if messageType = lit "add-proxy-user" then some .addProxyUser
  else if messageType = lit "remove-proxy-user" then some .removeProxyUser
  else if messageType = lit "add-channel-filter" then some .addChannelFilter
  else if messageType = lit "remove-channel-filter" then some .removeChannelFilter
  else if messageType = lit "add-user-callback" then some .addUserCallback
  else if messageType = lit "remove-user-callback" then some .removeUserCallback
  else none

/-- A value of the reply, by its Go type. -/
inductive ReplyValue where
  | text (value : Bytes)
  | id (value : UInt64)
  | data (value : Bytes)

def ReplyValue.encode : ReplyValue → Json
  | .text value => stringCodec.encode value
  | .id value => uint64Codec.encode value
  | .data value => dataCodec.encode value

abbrev Reply := GoMap Bytes ReplyValue

/-- `json.Marshal` sorts the keys. -/
def Reply.marshal (reply : Reply) : Bytes :=
  utf8 (marshalText (.obj (((sortedOrder byteRank).over reply).filterMap fun key =>
    (reply.lookup key).map fun value => (runes key, value.encode))))

def Reply.put (reply : Reply) (key : String) (value : ReplyValue) : Reply :=
  reply.insert (lit key) value

def Reply.putError (reply : Reply) : Option Bytes → Reply
  | some err => reply.put "Error" (.text err)
  | none => reply

/-- The controller, the objects its pointers point at, and the goroutines that were launched
and have not run yet. -/
structure ControllerState where
  controller : ProxyController
  sessions : SessionHeap := []
  filters : List ChannelFilterFunc := []
  callbacks : List EventCallback := [{}]
  starting : List Launch := []

/-- What the world contributes to the execution of one message: the orders of `range`
loops, the random source, the clock, and the texts of decoding errors. -/
structure World where
  viewerOrder : RangeOrder Bytes
  sessionOrder : RangeOrder Bytes
  draw : RandomSource
  now : Time
  decodeError : Bytes → Bytes

def viewerPointerCodec : Codec (Option ProxySessionViewer) := pointerCodec ProxySessionViewer.codec

def marshalViewer (viewer : Option ProxySessionViewer) : Bytes := viewerPointerCodec.marshal viewer

def marshalViewers (viewers : List (Option ProxySessionViewer)) : Bytes :=
  utf8 (marshalText (.arr (viewers.map viewerPointerCodec.encode)))

def marshalProxies (proxies : MapVar UInt64 (Option ProxyContext)) : Bytes :=
  (mapCodec uint64Key (pointerCodec ProxyContext.codec)).marshal proxies

/-- What a command leaves: the state, the reply so far and the error. -/
abbrev Outcome := ControllerState × Reply × Option Bytes

namespace ControllerMessage
variable (message : ControllerMessage) (s : ControllerState) (world : World) (reply : Reply)

def createProxy : Except Panic Outcome :=
  match message.proxyData with
  | some data => do
      match ← s.controller.addProxyFromJSON data world.viewerOrder with
      | (controller, some newProxyID) =>
          let starting := s.starting.map (Launch.leave newProxyID)
          return ({ s with controller, starting }, reply.put "ProxyID" (.id newProxyID), none)
      | (controller, none) => return ({ s with controller }, reply, some (world.decodeError data))
  | none => return (s, reply, some (lit "No ProxyData provided"))

def startProxy : Except Panic Outcome :=
  let (launched, err) := s.controller.startProxy message.proxyID
  return ({ s with starting := s.starting ++ launched.toList }, reply, err)

def stopProxy : Except Panic Outcome := do
  let (controller, sessions, err) ←
    s.controller.stopProxy s.sessions message.proxyID world.sessionOrder world.now
  return ({ s with controller, sessions }, reply, err)

def destroyProxy : Except Panic Outcome := do
  let (controller, sessions, err) ←
    s.controller.destroyProxy s.sessions message.proxyID world.sessionOrder world.now
  let starting :=
    if err = none then s.starting.map (Launch.leave message.proxyID) else s.starting
  return ({ s with controller, sessions, starting }, reply, err)

def activateProxy : Except Panic Outcome :=
  let (controller, err) := s.controller.activateProxy message.proxyID
  return ({ s with controller }, reply, err)

def deactivateProxy : Except Panic Outcome :=
  let (controller, err) := s.controller.deactivateProxy message.proxyID
  return ({ s with controller }, reply, err)

def listProxies : Except Panic Outcome :=
  return (s, reply.put "Proxies" (.data (marshalProxies s.controller.proxies)), none)

def getProxyInfo : Except Panic Outcome :=
  match s.controller.getProxy message.proxyID with
  | (some proxy, _) =>
      return (s, reply.put "Proxy" (.data (ProxyContext.codec.marshal proxy)), none)
  | (none, err) => return (s, reply, err)

/-- The reply to a command that looks for one viewer. -/
def replyViewer (controller : ProxyController) :
    Except Bytes (Option ProxySessionViewer) → Outcome
  | .ok viewer => ({ s with controller }, reply.put "Viewer" (.data (marshalViewer viewer)), none)
  | .error err => ({ s with controller }, reply, some err)

def replyViewers (controller : ProxyController) :
    Except Bytes (List (Option ProxySessionViewer)) → Outcome
  | .ok viewers => ({ s with controller }, reply.put "Viewers" (.data (marshalViewers viewers)), none)
  | .error err => ({ s with controller }, reply, some err)

def getProxyViewer : Except Panic Outcome :=
  if message.viewerSecret ≠ [] then do
    let (controller, result) ←
      s.controller.getProxyViewerByViewerKey message.proxyID message.viewerSecret
    return replyViewer s reply controller (result.map some)
  else if message.sessionKey ≠ [] then do
    let (controller, result) ← s.controller.getProxyViewerBySessionKey message.proxyID
      message.sessionKey world.viewerOrder
    return replyViewer s reply controller result
  else if message.username ≠ [] then do
    let (controller, result) ← s.controller.getProxyViewerByUsername message.proxyID
      message.username world.viewerOrder
    return replyViewer s reply controller result
  else return (s, reply, some (lit "no viewer secret, session key, nor username provided"))

def getProxyViewers : Except Panic Outcome :=
  if message.sessionKey ≠ [] then do
    let (controller, result) ← s.controller.getProxyViewersBySessionKey message.proxyID
      message.sessionKey world.viewerOrder
    return replyViewers s reply controller (result.map (List.map some))
  else if message.username ≠ [] then do
    let (controller, result) ← s.controller.getProxyViewersByUsername message.proxyID
      message.username world.viewerOrder
    return replyViewers s reply controller (result.map (List.map some))
  else do
    let (controller, result) ←
      s.controller.getProxyViewersAsList message.proxyID world.viewerOrder
    return replyViewers s reply controller result

def newProxyViewer : Except Panic Outcome :=
  if message.username ≠ [] then
    if message.sessionKey ≠ [] then do
      let (controller, result) ← s.controller.createSessionViewer message.proxyID message.username
        message.password message.sessionKey world.draw
      return replyViewer s reply controller result
    else do
      let (controller, result) ← s.controller.createUserSessionViewer message.proxyID
        message.username message.password world.draw
      return replyViewer s reply controller result
  else return (s, reply, some (lit "No Username nor SessionKey provided"))

def addProxyUser : Except Panic Outcome :=
  match message.proxyUser with
  | some user => do
      let (controller, err, key) ← s.controller.addUserToProxy message.proxyID user
      if err.isNone then return ({ s with controller }, reply.put "UserKey" (.text key), none)
      else return ({ s with controller }, reply, err)
  | none => return (s, reply, some (lit "No ProxyUser provided"))

def removeProxyUser : Except Panic Outcome :=
  if message.username ≠ [] then
    let (controller, err) :=
      s.controller.removeUserFromProxy message.proxyID message.username message.password
    return ({ s with controller }, reply, err)
  else return (s, reply, none)

/-- The key is in the reply whether or not there is an error. -/
def addChannelFilter : Except Panic Outcome :=
  match message.findString, message.replaceString with
  | some findString, some replaceString =>
      if message.username ≠ [] then do
        let (controller, err, key) ← s.controller.addChannelFilterToUser message.proxyID
          message.username message.password s.filters.length
        let filters := s.filters ++ [{ findString, replaceString }]
        return ({ s with controller, filters }, reply.put "FilterKey" (.text key), err)
      else return (s, reply, some (lit "Missing Username, FindString or ReplaceString"))
  | _, _ => return (s, reply, some (lit "Missing Username, FindString or ReplaceString"))

def removeChannelFilter : Except Panic Outcome :=
  if message.filterKey ≠ [] ∧ message.username ≠ [] then do
    let (controller, err) ← s.controller.removeChannelFilterFromUserByKey message.proxyID
      message.username message.password message.filterKey
    return ({ s with controller }, reply, err)
  else return (s, reply, some (lit "Missing Username or FilterKey"))

def addUserCallback : Except Panic Outcome :=
  match message.findString with
  | some findString =>
      if message.callbackURL ≠ [] ∧ message.username ≠ [] then do
        let (controller, err, key) ← s.controller.addEventCallbackToUser message.proxyID
          message.username message.password s.callbacks.length
        let callback : EventCallback :=
          { events := [eventMessage], findString, callbackURL := message.callbackURL }
        return ({ s with controller, callbacks := s.callbacks ++ [callback] },
          reply.put "CallbackKey" (.text key), err)
      else return (s, reply, some (lit "Missing Username, FindString, or CallbackURL "))
  | none => return (s, reply, some (lit "Missing Username, FindString, or CallbackURL "))

def removeUserCallback : Except Panic Outcome :=
  if message.callbackKey ≠ [] ∧ message.username ≠ [] then do
    let (controller, err) ← s.controller.removeEventCallbackFromUserByKey message.proxyID
      message.username message.password message.callbackKey
    return ({ s with controller }, reply, err)
  else return (s, reply, some (lit "Missing Username or CallbackKey"))

/-- The `switch` over the message type. -/
def dispatch : Except Panic Outcome :=
  match Command.read message.messageType with
  | some .createProxy => message.createProxy s world reply
  | some .startProxy => message.startProxy s reply
  | some .stopProxy => message.stopProxy s world reply
  | some .destroyProxy => message.destroyProxy s world reply
  | some .activateProxy => message.activateProxy s reply
  | some .deactivateProxy => message.deactivateProxy s reply
  | some .listProxies => listProxies s reply
  | some .getProxyInfo => message.getProxyInfo s reply
  | some .getProxyViewer => message.getProxyViewer s world reply
  | some .getProxyViewers => message.getProxyViewers s world reply
  | some .newProxyViewer => message.newProxyViewer s world reply
  | some .addProxyUser => message.addProxyUser s reply
  | some .removeProxyUser => message.removeProxyUser s reply
  | some .addChannelFilter => message.addChannelFilter s reply
  | some .removeChannelFilter => message.removeChannelFilter s reply
  | some .addUserCallback => message.addUserCallback s reply
  | some .removeUserCallback => message.removeUserCallback s reply
  | none => return (s, reply, some (lit "unsupported message type"))

/-- The state after the command, and the bytes of the reply. -/
def handleMessage : Except Panic (ControllerState × Bytes) := do
  let reply := Reply.put ∅ "MessageType" (.text (message.messageType ++ lit "-reply"))
  let (s, reply, err) ← message.dispatch s world reply
  return (s, (reply.putError err).marshal)

end ControllerMessage
end SSHProxyPlus
