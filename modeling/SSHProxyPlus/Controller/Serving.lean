import SSHProxyPlus.Controller.State
import SSHProxyPlus.Proxy.Sessions
import SSHProxyPlus.Transition.Sequential

/-! A proxy that is started, stopped and destroyed while its accept loop serves clients. Each
goroutine and each call goes on by one statement, or one section under the controller's mutex,
at a time. -/
namespace SSHProxyPlus
open Go Transition

/-- Listeners are told apart by the order in which they were opened. -/
abbrev ListenerRef := Nat

/-- What is next in a call of the controller's `StartProxy`, and then in the goroutine that it
launches. -/
inductive Starting where
  | getting
  | launching
  | listening
  | storing (listener : ListenerRef)
  | activating (listener : ListenerRef)
  | testing (listener : ListenerRef)
  | accepting (listener : ListenerRef)
  | registering (listener : ListenerRef) (sessKey clientHost : Bytes)
  | handshaking (listener : ListenerRef) (sessKey : Bytes)
  | handing (listener : ListenerRef)
  | done

/-- What is next in a call of the controller's `StopProxy`, or of its `DestroyProxy`. -/
inductive Stopping where
  | getting
  | locking
  | checking
  | deactivating (destroys : Bool)
  | closing (destroys : Bool)
  | ranging (destroys : Bool)
  | ending (destroys : Bool) (due : Finset Bytes) (seen : List Bytes)
  | deleting
  | returning (err : Option Bytes)
  | returned (err : Option Bytes)

/-- The proxy of one ID, with all that goes on around it. In place of the proxy's own field,
`listener` is the listener it points at; `registered` says whether the ID is still in the
controller's table, and `locked` whether a `DestroyProxy` holds the mutex. -/
structure ServedProxy where
  proxyID : UInt64
  proxy : ProxyContext
  listener : Option ListenerRef := none
  listeners : List Listener := []
  sessions : SessionHeap := []
  registered : Bool := true
  locked : Bool := false
  starts : List Starting := []
  stops : List Stopping := []
  crashed : Bool := false

/-- How a starting goroutine goes on: by itself, or by what the world has for it. -/
inductive StartEvent where
  | goOn
  | listened (err : Option Bytes)
  | accepted (client : Option (Bytes × Bytes))
  | password (username password : Bytes) (now : Time)
  | failed

inductive StopEvent where
  | goOn
  | visited (key : Bytes) (now : Time)

inductive ServingAction where
  | startProxy
  | stopProxy
  | destroyProxy
  | start (index : Nat) (event : StartEvent)
  | stop (index : Nat) (event : StopEvent)
  | sessionEnds (session : SessionRef) (now : Time)

namespace ServedProxy

def opened (server : ServedProxy) (listener : ListenerRef) : Bool :=
  server.listeners[listener]? == some .accepting

def runStart (server : ServedProxy) :
    Starting → StartEvent → Option (Except Panic (Starting × ServedProxy))
  | .getting, .goOn =>
      if server.locked then none
      else some (.ok (if server.registered then .launching else .done, server))
  | .launching, .goOn => some (.ok (.listening, server))
  | .listening, .listened err => some do
      let _ ← deref server.proxy.log
      let _ ← deref server.proxy.privateKey
      match err with
      | some err => throw (.raised err)
      | none => return (.storing server.listeners.length,
          { server with listeners := server.listeners ++ [.accepting] })
  | .storing listener, .goOn => some (.ok (.activating listener, { server with listener }))
  | .activating listener, .goOn =>
      some (.ok (.testing listener, { server with proxy.running := true }))
  | .testing listener, .goOn =>
      some (.ok (if server.proxy.running then .accepting listener else .done, server))
  | .accepting listener, .accepted none => some (.ok (.testing listener, server))
  | .accepting listener, .accepted (some (sessKey, clientHost)) =>
      if server.opened listener then some (.ok (.registering listener sessKey clientHost, server))
      else none
  | .registering listener sessKey clientHost, .goOn => some do
      let (proxy, sessions) ← server.proxy.acceptConnection server.sessions sessKey clientHost
      return (.handshaking listener sessKey, { server with proxy, sessions })
  | .handshaking listener sessKey, .password username password now => some do
      let (sessions, refused) ←
        server.proxy.passwordCallback server.sessions sessKey username password now
      return (if refused.isSome then .handshaking listener sessKey else .handing listener,
        { server with sessions })
  | .handshaking listener _, .failed => some (.ok (.testing listener, server))
  | .handing listener, .goOn => some (.ok (.testing listener, server))
  | _, _ => none

/-- One turn of the `range` loop of `Stop`. -/
def endSession (server : ServedProxy) (key : Bytes) (now : Time) : Except Panic ServedProxy := do
  let sessions := server.proxy.allSessions.content
  let ended ← ProxyContext.endAt server.proxy.sessionFolder now sessions server.sessions key
  return { server with sessions := ended }

/-- The loop visits every key that was there when it began and has not been deleted since; of
those that have come since it may visit some. -/
def runStop (server : ServedProxy) :
    Stopping → StopEvent → Option (Except Panic (Stopping × ServedProxy))
  | .getting, .goOn =>
      if server.locked then none
      else if server.registered then some (.ok (.deactivating false, server))
      else some (.ok (.returning (some (cannotFindProxy server.proxyID)), server))
  | .locking, .goOn =>
      if server.locked then none
      else if server.registered then some (.ok (.checking, { server with locked := true }))
      else some (.ok (.returning (some (noProxyExists server.proxyID)), server))
  | .checking, .goOn =>
      some (.ok (if server.proxy.running then .deactivating true else .deleting, server))
  | .deactivating destroys, .goOn =>
      some (.ok (.closing destroys, { server with proxy.running := false }))
  | .closing destroys, .goOn => some do
      let listener ← deref server.listener
      return (.ranging destroys,
        { server with listeners := server.listeners.set listener .closed })
  | .ranging destroys, .goOn =>
      some (.ok (.ending destroys server.proxy.allSessions.content.keys [], server))
  | .ending destroys due seen, .visited key now =>
      if key ∈ server.proxy.allSessions.content ∧ key ∉ seen then some do
        let ended ← server.endSession key now
        return (.ending destroys due (seen ++ [key]), ended)
      else none
  | .ending destroys due seen, .goOn =>
      if ∀ key ∈ due, key ∈ server.proxy.allSessions.content → key ∈ seen then
        some (.ok (if destroys then .deleting else .returning none, server))
      else none
  | .deleting, .goOn =>
      some (.ok (.returning none, { server with registered := false, locked := false }))
  | .returning err, .goOn => some (.ok (.returned err, server))
  | _, _ => none

/-- A panic ends the process. -/
def settle (server : ServedProxy) (go : α → ServedProxy) : Except Panic α → ServedProxy
  | .ok a => go a
  | .error _ => { server with crashed := true }

def perform (server : ServedProxy) (action : ServingAction) : Option ServedProxy :=
  if server.crashed then none
  else match action with
  | .startProxy => some { server with starts := server.starts ++ [.getting] }
  | .stopProxy => some { server with stops := server.stops ++ [.getting] }
  | .destroyProxy => some { server with stops := server.stops ++ [.locking] }
  | .start index event => do
      let starting ← server.starts[index]?
      let ran ← server.runStart starting event
      return server.settle (fun (starting, next) =>
        { next with starts := server.starts.set index starting }) ran
  | .stop index event => do
      let stopping ← server.stops[index]?
      let ran ← server.runStop stopping event
      return server.settle (fun (stopping, next) =>
        { next with stops := server.stops.set index stopping }) ran
  | .sessionEnds session now =>
      some (server.settle (fun ended =>
          { server with sessions := server.sessions.set session ended })
        ((server.sessions.session session).endSession server.proxy.sessionFolder now))

/-- The runs of a proxy that has been made, or initialized, and not yet started, in which every
step is `Admitted`. -/
def runs (Admitted : ServedProxy → ServingAction → Prop) : System ServedProxy ServingAction where
  init server := ∃ proxyID proxy, proxy.running = false ∧ proxy.allSessions = some ∅ ∧
    server = { proxyID, proxy }
  step server action next := Admitted server action ∧ server.perform action = some next

end ServedProxy

end SSHProxyPlus
