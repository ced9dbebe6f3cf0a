import SSHProxyPlus.Transition.Reactive
import SSHProxyPlus.Web.SessionInfo

/-! A websocket client and its handler, which at each step reads a message or looks at the
sessions. -/
namespace SSHProxyPlus
open Go

inductive SocketReply where
  | text (data : Bytes)
  | binary (data : Bytes)

/-- Which of the handler's reads the next message of the client is for. -/
inductive Awaiting where
  | command
  /-- In `viewer-get`, or in `viewer-list`. -/
  | viewerKey (get : Bool)
  | viewerSession (viewer : ProxySessionViewer)
  | activeSession

inductive HandlerStep where
  | reading (awaiting : Awaiting)
  | playing (session : SessionRef) (playback : Playback)
  /-- A panic has ended the handler. -/
  | closed

/-- Where the handler stands, and the messages it has not read. -/
abbrev HandlerState := HandlerStep × List Bytes

def sessionInfoReply (infos : List SessionInfo) : SocketReply :=
  .text ((sliceCodec SessionInfo.codec).marshal infos)

def publicQueryDisabled : Bytes := lit "public query disabled"
def couldNotFindSession : Bytes := lit "could not find session"
def unsupportedMessageType : Bytes := lit "unsupported message type"

namespace ProxyContext
variable (proxy : ProxyContext) (seen : Observation)

def answerList (activeOnly : Bool) : HandlerStep × List SocketReply :=
  if proxy.publicAccess then
    match proxy.getAllSessionInfo seen activeOnly with
    | .ok infos => (.reading .command, [sessionInfoReply infos])
    | .error _ => (.closed, [])
  else (.reading .command, [.text publicQueryDisabled])

def socketCommand (message : Bytes) : HandlerStep × List SocketReply :=
  if message = lit "list-active" then proxy.answerList seen true
  else if message = lit "list-all" then proxy.answerList seen false
  else if message = lit "viewer-get" then (.reading (.viewerKey true), [])
  else if message = lit "viewer-list" then (.reading (.viewerKey false), [])
  else if message = lit "get" then (.reading .activeSession, [])
  else (.reading .command, [.binary unsupportedMessageType])

/-- `playSession`, or the reply that there is no such session. -/
def playFound (found : Option SessionRef) : HandlerStep × List SocketReply :=
  match found with
  | some session => (.playing session {}, [])
  | none => (.reading .command, [.text couldNotFindSession])

def sessionViewerSocketList (viewer : ProxySessionViewer) : HandlerStep × List SocketReply :=
  match proxy.getUserSessionInfo seen viewer with
  | .ok infos => (.reading .command, [sessionInfoReply infos])
  | .error _ => (.closed, [])

def sessionViewerSocketGet (viewer : ProxySessionViewer) (sessionKey : Bytes) :
    HandlerStep × List SocketReply :=
  match viewer.getSessions (proxy.withSessions seen) seen.heap seen.order with
  | .ok (viewerSessions, _) => playFound (viewerSessions.lookup sessionKey)
  | .error _ => (.closed, [])

def getActiveSession (session : Bytes) : HandlerStep × List SocketReply :=
  playFound ((proxy.withSessions seen).allSessions.find session)

/-- What the handler does with a message. -/
def receive (message : Bytes) : Awaiting → HandlerStep × List SocketReply
  | .command => proxy.socketCommand seen message
  | .viewerKey get =>
      match (proxy.getSessionViewer message).2 with
      | none => (.reading .command, [])
      | some viewer =>
          if get then (.reading (.viewerSession viewer), [])
          else proxy.sessionViewerSocketList seen viewer
  | .viewerSession viewer => proxy.sessionViewerSocketGet seen viewer message
  | .activeSession => proxy.getActiveSession seen message

end ProxyContext

/-- Each turn of the write loop sends the event it is at. -/
def Playback.written (playback : Playback) : List SocketReply :=
  match playback.step with
  | .sending _ _ =>
      playback.sent.getLast?.toList.map fun event => .text (SessionEvent.codec.marshal event)
  | _ => []

def playOn (seen : Observation) (session : SessionRef) (playback : Playback) (messages : List Bytes) :
    HandlerState × List SocketReply :=
  let events := (seen.heap.session session).events
  let stays := ((.playing session playback, messages), [])
  match playback.step with
  | .returned => ((.reading .command, messages), [])
  | .panicked _ => ((.closed, messages), [])
  | .waiting =>
      match seen.signal.bind playback.receiveSignal with
      | some next => ((.playing session next, messages), [])
      | none => stays
  | .sending _ _ =>
      match messages with
      | [] => stays
      | message :: rest =>
          match playback.advance events (some message) with
          | some next => ((.playing session next, rest), next.written)
          | none => stays
  | _ =>
      match playback.advance events none with
      | some next => ((.playing session next, messages), next.written)
      | none => stays

/-- The handler of a client that stays connected when it has nothing more to say. -/
def ProxyContext.socketHandler (proxy : ProxyContext) :
    Transition.Reactive HandlerState Observation SocketReply where
  react
    | (.reading awaiting, message :: rest), seen =>
        let (next, out) := proxy.receive seen message awaiting
        ((next, rest), out)
    | (.playing session playback, messages), seen => playOn seen session playback messages
    | state, _ => (state, [])

end SSHProxyPlus
