import SSHProxyPlus.Controller.Runs
import SSHProxyPlus.Controller.Socket
import SSHProxyPlus.Transition.Sequential

/-! A plain or TLS control socket while it serves: the accept loop, the handlers of its
clients, and a `Stop` from elsewhere. Each goes on by one statement, or one section under the
client mutex, at a time. -/
namespace SSHProxyPlus
open Go Transition

/-- Connections are told apart by the order in which they were accepted. -/
abbrev ConnRef := Nat

structure ProxyControllerSocketTCP where
  active : Bool := false
  clients : List ConnRef := []

/-- What is next in a call of `Stop`. -/
inductive StopCall where
  | checking | deactivating | closing | returning | returned

/-- What is next in `ListenAndServe` once its listener is open. -/
inductive AcceptLoop where
  | activating
  | testing
  | accepting
  | registering (client : ConnRef)
  | spawning (client : ConnRef)
  | leaving (stop : StopCall)

/-- What is next in the goroutine of a client's handler. -/
inductive Handling where
  | reading
  | handling (data : Bytes)
  | replying (data : Bytes)
  | closing
  | done

structure ClientConnection where
  incoming : Conn
  closed : Bool := false
  handler : Option Handling := none

/-- All that takes part, with `stop` the call of `Stop` if there has been one. -/
structure SocketServer where
  controller : ControllerState
  socket : ProxyControllerSocketTCP := {}
  loop : AcceptLoop := .activating
  connections : List ClientConnection := []
  stop : Option StopCall := none
  crashed : Bool := false

inductive SocketAction where
  | serve
  | accept (incoming : Conn)
  | acceptFails
  | stop
  | arrives (client : ConnRef) (segment : Bytes)
  | read (client : ConnRef)
  | hangUp (client : ConnRef)
  | handle (client : ConnRef) (world : World)
  | reply (client : ConnRef) (sent : Bool)
  | close (client : ConnRef)

namespace SocketServer

def closeAll (connections : List ClientConnection) (clients : List ConnRef) : List ClientConnection :=
  connections.mapIdx fun ref conn =>
    if ref ∈ clients then { conn with closed := true } else conn

def setHandler (server : SocketServer) (client : ConnRef) (handler : Handling) : SocketServer :=
  { server with
    connections := server.connections.modify client
      fun conn => { conn with handler := some handler } }

/-- The next step of a call of `Stop`. -/
def runStop (server : SocketServer) : StopCall → Option (SocketServer × StopCall)
  | .checking => some (server, if server.socket.active then .deactivating else .returning)
  | .deactivating => some ({ server with socket.active := false }, .closing)
  | .closing =>
      some ({ server with
        connections := closeAll server.connections server.socket.clients
        socket.clients := [] }, .returning)
  | .returning => some (server, .returned)
  | .returned => none

/-- The next step of `ListenAndServe`, but for what `Accept` gives. -/
def runLoop (server : SocketServer) : Option SocketServer :=
  match server.loop with
  | .activating => some { server with socket.active := true, loop := .testing }
  | .testing =>
      some { server with loop := if server.socket.active then .accepting else .leaving .checking }
  | .accepting => none
  | .registering client =>
      some { server with
        socket.clients := server.socket.clients ++ [client], loop := .spawning client }
  | .spawning client => some { server.setHandler client .reading with loop := .testing }
  | .leaving call => (server.runStop call).map fun (server, call) =>
      { server with loop := .leaving call }

/-- A client is closed by its handler only if `Stop` has not closed it. -/
def clientClose (server : SocketServer) (client : ConnRef) : SocketServer :=
  if client ∈ server.socket.clients then
    { server with
      socket.clients := server.socket.clients.erase client
      connections := server.connections.modify client fun conn => { conn with closed := true } }
  else server

/-- Where the handler of a client stands. -/
def handler (server : SocketServer) (client : ConnRef) : Option Handling :=
  server.connections[client]? >>= ClientConnection.handler

/-- `ReadLine`: on a connection that was closed it fails, else it waits for a line. -/
def readLine (server : SocketServer) (client : ConnRef) : Option SocketServer :=
  match server.connections[client]? with
  | none => none
  | some conn =>
      if conn.closed then some (server.setHandler client .closing)
      else (ProxyControllerSocketTCPClient.readLine conn.incoming).map fun (data, rest) =>
        { server with
          connections := server.connections.modify client
            fun conn => { conn with incoming := rest, handler := some (.handling data) } }

variable (mac : Bytes → Bytes → Bytes)

/-- What a step does; a panic in one of the handlers ends all of it. -/
def perform (server : SocketServer) : SocketAction → Option SocketServer
  | action =>
      if server.crashed then none
      else match action with
      | .serve => server.runLoop
      | .accept incoming =>
          match server.loop with
          | .accepting => some { server with
              connections := server.connections ++ [{ incoming }]
              loop := .registering server.connections.length }
          | _ => none
      | .acceptFails =>
          match server.loop with
          | .accepting => some { server with loop := .leaving .checking }
          | _ => none
      | .stop => (server.runStop (server.stop.getD .checking)).map fun (server, call) =>
          { server with stop := some call }
      | .arrives client segment =>
          some { server with
            connections := server.connections.modify client
              fun conn => { conn with incoming := conn.incoming ++ [segment] } }
      | .read client =>
          match server.handler client with
          | some .reading => server.readLine client
          | _ => none
      | .hangUp client =>
          match server.handler client with
          | some .reading => some (server.setHandler client .closing)
          | _ => none
      | .handle client world =>
          match server.handler client with
          | some (.handling data) =>
              match server.controller.handleLine mac world data with
              | .ok (controller, data) =>
                  some { server.setHandler client (.replying data) with controller }
              | .error _ => some { server with crashed := true }
          | _ => none
      | .reply client sent =>
          match server.handler client with
          | some (.replying _) =>
              some (server.setHandler client (if sent then .reading else .closing))
          | _ => none
      | .close client =>
          match server.handler client with
          | some .closing => some ((server.clientClose client).setHandler client .done)
          | _ => none

/-- The runs of a socket that has been told to listen. -/
def runs : System SocketServer SocketAction where
  init server := ∃ controller, server = { controller }
  step server action next := server.perform mac action = some next

/-- The accept loop is waiting for a client, or will come to it as things stand. -/
def Accepts (server : SocketServer) : Prop :=
  match server.loop with
  | .activating | .accepting => True
  | .testing | .registering _ | .spawning _ => server.socket.active = true
  | .leaving _ => False

variable {mac} {server next : SocketServer} {action : SocketAction}

/-- The accept loop stands where it stood, nobody has come in and nothing was activated. -/
structure Still (server next : SocketServer) : Prop where
  loop : next.loop = server.loop
  active : next.socket.active = true → server.socket.active = true
  connections : next.connections.length = server.connections.length

theorem Still.accepts (still : Still server next) (accepts : next.Accepts) : server.Accepts := by
  unfold Accepts at accepts ⊢
  rw [still.loop] at accepts
  split at accepts
  · trivial
  · trivial
  · exact still.active accepts
  · exact still.active accepts
  · exact still.active accepts
  · exact accepts

theorem setHandler_still (server : SocketServer) (client : ConnRef) (handler : Handling) :
    Still server (server.setHandler client handler) :=
  ⟨rfl, id, List.length_modify ..⟩

theorem runStop_still {call call' : StopCall} (ran : server.runStop call = some (next, call')) :
    Still server next := by
  cases call with
  | checking => obtain ⟨rfl, -⟩ := Prod.mk.inj (Option.some.inj ran); exact ⟨rfl, id, rfl⟩
  | deactivating =>
    obtain ⟨rfl, -⟩ := Prod.mk.inj (Option.some.inj ran)
    exact ⟨rfl, fun active => absurd active Bool.false_ne_true, rfl⟩
  | closing =>
    obtain ⟨rfl, -⟩ := Prod.mk.inj (Option.some.inj ran)
    exact ⟨rfl, id, List.length_mapIdx⟩
  | returning => obtain ⟨rfl, -⟩ := Prod.mk.inj (Option.some.inj ran); exact ⟨rfl, id, rfl⟩
  | returned => contradiction

/-- A loop that will not accept anybody does not come to do so. -/
theorem runLoop_refuses (refuses : ¬ server.Accepts) (ran : server.runLoop = some next) :
    ¬ next.Accepts ∧ next.connections.length = server.connections.length := by
  unfold Accepts at refuses
  unfold runLoop at ran
  cases stands : server.loop with
  | activating => simp [stands] at refuses
  | testing =>
    simp only [stands] at refuses ran
    obtain rfl := Option.some.inj ran
    rw [if_neg refuses]
    exact ⟨id, rfl⟩
  | accepting => simp [stands] at refuses
  | registering client =>
    simp only [stands] at refuses ran
    obtain rfl := Option.some.inj ran
    exact ⟨refuses, rfl⟩
  | spawning client =>
    simp only [stands] at refuses ran
    obtain rfl := Option.some.inj ran
    exact ⟨refuses, List.length_modify ..⟩
  | leaving call =>
    simp only [stands] at ran
    obtain ⟨⟨left, call'⟩, stopped, rfl⟩ := Option.map_eq_some_iff.mp ran
    exact ⟨id, (runStop_still stopped).connections⟩

theorem readLine_still {client : ConnRef} (ran : server.readLine client = some next) :
    Still server next := by
  unfold readLine at ran
  split at ran
  · contradiction
  · split at ran
    · exact Option.some.inj ran ▸ setHandler_still server client .closing
    · obtain ⟨⟨data, rest⟩, -, rfl⟩ := Option.map_eq_some_iff.mp ran
      exact ⟨rfl, id, List.length_modify ..⟩

/-- Nothing that does not belong to the accept loop changes where it stands. -/
theorem perform_still (others : action ≠ .serve ∧ action ≠ .acceptFails ∧
    ∀ incoming, action ≠ .accept incoming) (performed : server.perform mac action = some next) :
    Still server next := by
  unfold perform at performed
  split at performed
  · contradiction
  cases action with
  | serve => exact absurd rfl others.1
  | accept incoming => exact absurd rfl (others.2.2 incoming)
  | acceptFails => exact absurd rfl others.2.1
  | stop =>
    obtain ⟨⟨stopped, call⟩, ran, rfl⟩ := Option.map_eq_some_iff.mp performed
    have still := runStop_still ran
    exact ⟨still.loop, still.active, still.connections⟩
  | arrives client segment =>
    obtain rfl := Option.some.inj performed
    exact ⟨rfl, id, List.length_modify ..⟩
  | read client =>
    dsimp only at performed
    split at performed
    · exact readLine_still performed
    · contradiction
  | hangUp client =>
    dsimp only at performed
    split at performed
    · exact Option.some.inj performed ▸ setHandler_still server client .closing
    · contradiction
  | handle client world =>
    dsimp only at performed
    split at performed
    · split at performed
      · next controller data ran =>
        obtain rfl := Option.some.inj performed
        have still := setHandler_still server client (.replying data)
        exact ⟨still.loop, still.active, still.connections⟩
      · exact Option.some.inj performed ▸ ⟨rfl, id, rfl⟩
    · contradiction
  | reply client sent =>
    dsimp only at performed
    split at performed
    · exact Option.some.inj performed ▸ setHandler_still server client _
    · contradiction
  | close client =>
    dsimp only at performed
    split at performed
    · obtain rfl := Option.some.inj performed
      have still := setHandler_still (server.clientClose client) client .done
      have closed : Still server (server.clientClose client) := by
        unfold clientClose
        split
        · exact ⟨rfl, id, List.length_modify ..⟩
        · exact ⟨rfl, id, rfl⟩
      exact ⟨still.loop.trans closed.loop, fun active => closed.active (still.active active),
        still.connections.trans closed.connections⟩
    · contradiction

/-- Where nobody will be accepted, nobody is in the next step either. -/
theorem perform_refuses (refuses : ¬ server.Accepts)
    (performed : server.perform mac action = some next) :
    ¬ next.Accepts ∧ next.connections.length = server.connections.length := by
  by_cases others : action ≠ .serve ∧ action ≠ .acceptFails ∧ ∀ incoming, action ≠ .accept incoming
  · have still := perform_still others performed
    exact ⟨fun accepts => refuses (still.accepts accepts), still.connections⟩
  unfold perform at performed
  split at performed
  · contradiction
  cases action with
  | serve => exact runLoop_refuses refuses performed
  | accept incoming =>
    unfold Accepts at refuses
    cases stands : server.loop <;> simp [stands] at refuses performed
  | acceptFails =>
    unfold Accepts at refuses
    cases stands : server.loop <;> simp [stands] at refuses performed
  | _ => simp at others

/-- A line is handled for a client only after it was accepted. -/
theorem handle_accepted {client : ConnRef} {world : World}
    (performed : server.perform mac (.handle client world) = some next) :
    client < server.connections.length := by
  unfold perform at performed
  split at performed
  · contradiction
  dsimp only at performed
  split at performed
  · next handled =>
    obtain ⟨conn, found, -⟩ := Option.bind_eq_some_iff.mp handled
    exact (List.getElem?_eq_some_iff.mp found).1
  · contradiction

/-- From then on, only clients that were there have lines handled. -/
theorem follows_refuses {later : List SocketAction} (refuses : ¬ server.Accepts)
    (follows : Follows (runs mac).step server later next) {client : ConnRef} {world : World}
    (handled : .handle client world ∈ later) : client < server.connections.length := by
  induction later generalizing server with
  | nil => contradiction
  | cons action later ih =>
    obtain ⟨mid, performed, rest⟩ := follows
    obtain ⟨still, same⟩ := perform_refuses refuses performed
    rcases List.mem_cons.mp handled with rfl | inside
    · exact handle_accepted performed
    · exact same ▸ ih still rest inside

theorem perform_alive (alive : server.crashed = false) (performed : server.runLoop = some next) :
    (runs mac).step server .serve next := by
  change server.perform mac .serve = some next
  simpa [perform, alive] using performed

/-- The loop's way to `Accept`. -/
theorem testing_accepting (alive : server.crashed = false) (stands : server.loop = .testing)
    (active : server.socket.active = true) :
    Follows (runs mac).step server [.serve] { server with loop := .accepting } :=
  ⟨_, perform_alive alive (by simp [runLoop, stands, active]), rfl⟩

theorem spawning_accepting {client : ConnRef} (alive : server.crashed = false)
    (stands : server.loop = .spawning client) (active : server.socket.active = true) :
    Follows (runs mac).step server [.serve, .serve]
      { server.setHandler client .reading with loop := .accepting } := by
  refine ⟨{ server.setHandler client .reading with loop := .testing }, ?_,
    testing_accepting alive rfl active⟩
  exact perform_alive alive (by simp [runLoop, stands])

theorem registering_accepting {client : ConnRef} (alive : server.crashed = false)
    (stands : server.loop = .registering client) (active : server.socket.active = true) :
    Follows (runs mac).step server [.serve, .serve, .serve]
      { server.setHandler client .reading with
        socket.clients := server.socket.clients ++ [client], loop := .accepting } := by
  refine ⟨{ server with
    socket.clients := server.socket.clients ++ [client], loop := .spawning client }, ?_,
    spawning_accepting alive rfl active⟩
  exact perform_alive alive (by simp [runLoop, stands])

/-- A loop that will accept somebody comes to it. -/
theorem accepts_accepting (alive : server.crashed = false) (accepts : server.Accepts) :
    ∃ actions next, Follows (runs mac).step server actions next ∧ next.loop = .accepting ∧
      next.crashed = false ∧ next.connections.length = server.connections.length := by
  unfold Accepts at accepts
  cases stands : server.loop with
  | activating =>
    refine ⟨[.serve, .serve], _, ⟨{ server with socket.active := true, loop := .testing }, ?_,
      testing_accepting alive rfl rfl⟩, rfl, alive, rfl⟩
    exact perform_alive alive (by simp [runLoop, stands])
  | testing =>
    simp only [stands] at accepts
    exact ⟨_, _, testing_accepting alive stands accepts, rfl, alive, rfl⟩
  | accepting => exact ⟨[], server, rfl, stands, alive, rfl⟩
  | registering client =>
    simp only [stands] at accepts
    exact ⟨_, _, registering_accepting alive stands accepts, rfl, alive, List.length_modify ..⟩
  | spawning client =>
    simp only [stands] at accepts
    exact ⟨_, _, spawning_accepting alive stands accepts, rfl, alive, List.length_modify ..⟩
  | leaving call => simp [stands] at accepts

theorem readLine_newline : ∃ data rest,
    ProxyControllerSocketTCPClient.readLine [[newline]] = some (data, rest) := by
  cases got : ProxyControllerSocketTCPClient.readLine [[newline]] with
  | some pair => exact ⟨pair.1, pair.2, rfl⟩
  | none =>
    have absent := readBytes_none (Option.map_eq_none_iff.mp got)
    exact absurd (List.mem_singleton_self newline) absent

/-- Whoever is accepted can have a line handled. -/
theorem accepting_handles (alive : server.crashed = false) (stands : server.loop = .accepting) :
    ∃ actions next, Follows (runs mac).step server actions next ∧
      .handle server.connections.length sortedWorld ∈ actions := by
  obtain ⟨data, rest, read⟩ := readLine_newline
  let client := server.connections.length
  let accepted : SocketServer := { server with
    connections := server.connections ++ [{ incoming := [[newline]] }]
    loop := .registering client }
  let registered : SocketServer := { accepted with
    socket.clients := server.socket.clients ++ [client], loop := .spawning client }
  let spawned : SocketServer := { registered.setHandler client .reading with loop := .testing }
  let given : SocketServer := { spawned with
    connections := spawned.connections.modify client
      fun conn => { conn with incoming := rest, handler := some (.handling data) } }
  have reading : spawned.connections[client]? = some ⟨[[newline]], false, some .reading⟩ := by
    simp [spawned, setHandler, registered, accepted, client]
  have handling : given.handler client = some (.handling data) := by
    simp [handler, given, reading]
  have accepts : (runs mac).step server (.accept [[newline]]) accepted := by
    simp [runs, perform, alive, stands, accepted, client]
  have registers : (runs mac).step accepted .serve registered := perform_alive alive rfl
  have spawns : (runs mac).step registered .serve spawned := perform_alive alive rfl
  have reads : (runs mac).step spawned (.read client) given := by
    have waits : spawned.handler client = some .reading := by simp [handler, reading]
    have living : spawned.crashed = false := alive
    simp [runs, perform, living, waits, readLine, reading, read, given]
  have handles : ∃ next, (runs mac).step given (.handle client sortedWorld) next := by
    have living : given.crashed = false := alive
    cases ran : given.controller.handleLine mac sortedWorld data with
    | ok result => exact ⟨_, by simp [runs, perform, living, handling, ran]; rfl⟩
    | error panic => exact ⟨_, by simp [runs, perform, living, handling, ran]; rfl⟩
  obtain ⟨last, handles⟩ := handles
  exact ⟨[.accept [[newline]], .serve, .serve, .read client, .handle client sortedWorld], last,
    ⟨_, accepts, _, registers, _, spawns, _, reads, _, handles, rfl⟩, by simp [client]⟩

/-- After `Stop` has returned no line is handled for anybody who comes in later, if and only if
it returned when the accept loop was not to accept anybody any more. -/
theorem handles_nothing_stopped_iff {stopped : SocketServer}
    (returning : server.stop = some .returning)
    (returns : server.perform mac .stop = some stopped) :
    (∀ later next, Follows (runs mac).step stopped later next → ∀ client world,
      .handle client world ∈ later → client < stopped.connections.length) ↔ ¬ server.Accepts := by
  cases alive : server.crashed with
  | true => simp [perform, alive] at returns
  | false =>
    obtain rfl : { server with stop := some .returned } = stopped := by
      simpa [perform, alive, returning, runStop] using returns
    constructor
    · intro nothing accepts
      obtain ⟨before, waiting, came, stands, living, same⟩ :=
        @accepts_accepting mac { server with stop := some .returned } alive accepts
      obtain ⟨after, last, went, handled⟩ := @accepting_handles mac waiting living stands
      have late := nothing _ last (follows_append.mpr ⟨waiting, came, went⟩) _ _
        (List.mem_append_right before handled)
      exact Nat.lt_irrefl _ (same ▸ late)
    · intro refuses later next follows client world handled
      have refuses' : ¬ Accepts { server with stop := some .returned } := refuses
      exact follows_refuses refuses' follows handled

/-- A socket of a controller without proxies. -/
def freshServer : SocketServer := { controller := { controller := emptyController } }

/-- `Stop` comes when the loop is about to test whether it is active. -/
theorem handles_nothing_stopped_iff_testing : ∃ stopped,
    Follows (runs fun _ _ => []).step freshServer [.serve, .stop, .stop, .stop, .stop] stopped ∧
    ∀ later next, Follows (runs fun _ _ => []).step stopped later next → ∀ client world,
      .handle client world ∈ later → client < stopped.connections.length := by
  let returning : SocketServer := { freshServer with loop := .testing, stop := some .returning }
  have ran : Follows (runs fun _ _ => []).step freshServer [.serve, .stop, .stop, .stop]
      returning := ⟨_, rfl, _, rfl, _, rfl, _, rfl, rfl⟩
  have returns : returning.perform (fun _ _ => []) .stop =
      some { returning with stop := some .returned } := rfl
  have refuses : ¬ returning.Accepts := Bool.false_ne_true
  exact ⟨_, ran.snoc returns, (handles_nothing_stopped_iff rfl returns).mpr refuses⟩

/-- `Stop` comes when the loop waits in `Accept`: it serves one more client. -/
theorem accepts_after_stop : ∃ stopped later next,
    Follows (runs fun _ _ => []).step freshServer [.serve, .serve, .stop, .stop, .stop, .stop]
      stopped ∧
    stopped.stop = some .returned ∧ Follows (runs fun _ _ => []).step stopped later next ∧
    ∃ client world, .handle client world ∈ later ∧ ¬ client < stopped.connections.length := by
  let stopped : SocketServer := { freshServer with loop := .accepting, stop := some .returned }
  have ran : Follows (runs fun _ _ => []).step freshServer
      [.serve, .serve, .stop, .stop, .stop, .stop] stopped :=
    ⟨_, rfl, _, rfl, _, rfl, _, rfl, _, rfl, _, rfl, rfl⟩
  obtain ⟨later, next, went, handled⟩ := @accepting_handles (fun _ _ => []) stopped rfl rfl
  exact ⟨stopped, later, next, ran, rfl, went, _, _, handled, Nat.lt_irrefl _⟩

end SocketServer
end SSHProxyPlus
