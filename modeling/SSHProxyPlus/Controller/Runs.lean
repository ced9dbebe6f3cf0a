import SSHProxyPlus.Controller.Safety
import SSHProxyPlus.Controller.Startup
import SSHProxyPlus.Transition.System

/-! Runs of a controller: control messages one after the other, and between them what
the proxies that run and their clients do. -/
namespace SSHProxyPlus
open Go

/-- What happens to a controller besides control messages. -/
inductive Happening where
  /-- A goroutine that was launched gets to run, and listening fails or not. -/
  | started (index : Nat) (listenError : Option Bytes)
  | accepted (proxyID : UInt64) (sessKey clientHost : Bytes)
  | loggedIn (proxyID : UInt64) (sessKey username password : Bytes) (now : Time)
  | tracked (proxyID : UInt64) (session : SessionRef)
  | recorded (session : SessionRef) (event : SessionEvent) (now : Time)
  | ended (proxyID : UInt64) (session : SessionRef) (now : Time)

namespace ControllerState

/-- Something done on the proxy of that ID, where there is one. -/
def onProxy (s : ControllerState) (proxyID : UInt64)
    (f : ProxyContext → Except Panic (ProxyContext × SessionHeap)) :
    Except Panic ControllerState :=
  match s.controller.proxies.find proxyID with
  | some (some proxy) => do
      let (proxy, sessions) ← f proxy
      return { s with controller := s.controller.updateProxy proxyID proxy, sessions }
  | _ => return s

/-- A proxy that was destroyed or displaced in the meantime is started all the same; nobody can
address it any more. -/
def launch (s : ControllerState) (goroutine : Launch) (listenError : Option Bytes) :
    Except Panic ControllerState :=
  match goroutine.proxyID with
  | some proxyID =>
      s.onProxy proxyID fun proxy => do
        let proxy ← proxy.startProxy listenError
        return (proxy, s.sessions)
  | none => do
      let _ ← (makeNewProxy goroutine.privateKey).startProxy listenError
      return s

def happen (s : ControllerState) : Happening → Except Panic ControllerState
  | .started index listenError =>
      match s.starting[index]? with
      | some goroutine =>
          { s with starting := s.starting.eraseIdx index }.launch goroutine listenError
      | none => return s
  | .accepted proxyID sessKey clientHost =>
      s.onProxy proxyID fun proxy => proxy.acceptConnection s.sessions sessKey clientHost
  | .loggedIn proxyID sessKey username password now =>
      s.onProxy proxyID fun proxy => do
        let (sessions, _) ← proxy.passwordCallback s.sessions sessKey username password now
        return (proxy, sessions)
  | .tracked proxyID session =>
      s.onProxy proxyID fun proxy => do
        let proxy ← proxy.addSessionToUserList session (s.sessions.session session)
        return (proxy, s.sessions)
  | .recorded session event now => do
      let recorded ← (s.sessions.session session).handleEvent event now
      return { s with sessions := s.sessions.set session recorded }
  | .ended proxyID session now =>
      s.onProxy proxyID fun proxy => do
        let ended ← (s.sessions.session session).endSession proxy.sessionFolder now
        return (proxy, s.sessions.set session ended)

variable {s next : ControllerState}

theorem Good.onProxy (good : s.Good) {proxyID : UInt64}
    {f : ProxyContext → Except Panic (ProxyContext × SessionHeap)}
    (keeps : ∀ proxy : ProxyContext, proxy.Proper s.filters.length s.callbacks.length →
      ∀ result, f proxy = .ok result → result.1.Proper s.filters.length s.callbacks.length ∧
        ∀ session ∈ result.2, session.Endable)
    (ran : s.onProxy proxyID f = .ok next) : next.Good := by
  unfold ControllerState.onProxy at ran
  split at ran
  · next proxy found =>
    obtain ⟨result, done, updated⟩ := of_bind_ok ran
    obtain rfl := Except.ok.inj updated
    obtain ⟨held, same, proper⟩ := good.controller.proxies _ _ found
    obtain rfl := Option.some.inj same
    have kept := keeps proxy proper result done
    exact ⟨good.controller.updateProxy kept.1, kept.2⟩
  · exact Except.ok.inj ran ▸ good

theorem Good.launch (good : s.Good) {goroutine : Launch} {listenError : Option Bytes}
    (ran : s.launch goroutine listenError = .ok next) : next.Good := by
  unfold ControllerState.launch at ran
  split at ran
  · refine good.onProxy (fun proxy proper result started => ?_) ran
    obtain ⟨listening, done, updated⟩ := of_bind_ok started
    obtain rfl := Except.ok.inj updated
    obtain ⟨_, _, rest⟩ := of_bind_ok done
    obtain ⟨_, _, rest⟩ := of_bind_ok rest
    cases listenError with
    | some err => contradiction
    | none =>
      obtain rfl := Except.ok.inj rest
      exact ⟨{ proper with listening := fun _ => Option.some_ne_none _ }, good.sessions⟩
  · obtain ⟨_, _, updated⟩ := of_bind_ok ran
    exact Except.ok.inj updated ▸ good

theorem Good.happen (good : s.Good) {happening : Happening}
    (ran : s.happen happening = .ok next) : next.Good := by
  cases happening with
  | started index listenError =>
    simp only [ControllerState.happen] at ran
    split at ran
    · have left : Good { s with starting := s.starting.eraseIdx index } :=
        ⟨good.controller, good.sessions⟩
      exact left.launch ran
    · exact Except.ok.inj ran ▸ good
  | accepted proxyID sessKey clientHost =>
    refine good.onProxy (fun proxy proper result accepted => ?_) ran
    obtain ⟨kept, -, rest⟩ := of_bind_ok accepted
    obtain ⟨allSessions, filed, done⟩ := of_bind_ok rest
    obtain rfl := Except.ok.inj done
    obtain ⟨entries, -, rfl⟩ := MapVar.assign_ok filed
    refine ⟨{ proper with allSessions := Option.some_ne_none _ }, fun session member => ?_⟩
    rcases List.mem_append.mp member with old | new
    · exact good.sessions session old
    · exact List.mem_singleton.mp new ▸ SessionContext.endable_of_inactive rfl
  | loggedIn proxyID sessKey username password now =>
    refine good.onProxy (fun proxy proper result called => ?_) ran
    obtain ⟨⟨sessions, refused⟩, answered, done⟩ := of_bind_ok called
    obtain rfl := Except.ok.inj done
    refine ⟨proper, ?_⟩
    rcases ProxyContext.passwordCallback_ok answered with rfl | ⟨user, ref, _, _, rfl⟩
    · exact good.sessions
    · exact Transition.each_set good.sessions (fun _ => ⟨Option.some_ne_none user, rfl⟩)
  | tracked proxyID session =>
    refine good.onProxy (fun proxy proper result filed => ?_) ran
    obtain ⟨tracked, added, done⟩ := of_bind_ok filed
    obtain rfl := Except.ok.inj done
    obtain ⟨_, _, _, _, rfl⟩ := ProxyContext.addSessionToUserList_ok added
    exact ⟨{ proper with userSessions := Option.some_ne_none _ }, good.sessions⟩
  | recorded session event now =>
    obtain ⟨recorded, handled, done⟩ := of_bind_ok ran
    obtain rfl := Except.ok.inj done
    obtain ⟨_, _, added⟩ := of_bind_ok handled
    obtain rfl := Except.ok.inj added
    have still : ((s.sessions.session session).addEvent event now).Endable :=
      endable_session good.sessions session
    exact ⟨good.controller, Transition.each_set good.sessions still⟩
  | ended proxyID session now =>
    refine good.onProxy (fun proxy proper result stopped => ?_) ran
    obtain ⟨ended, done, updated⟩ := of_bind_ok stopped
    obtain rfl := Except.ok.inj updated
    have inactive := ((endable_session good.sessions session).endSession _ now).value done
    exact ⟨proper, Transition.each_set good.sessions (SessionContext.endable_of_inactive inactive)⟩

end ControllerState

/-- A controller ready for use: set up by `Initialize`, or loaded from a file. -/
def ProxyController.SetUp (ready : ProxyController) : Prop :=
  (∃ (controller : ProxyController) (setup : Setup), controller.Idle ∧
      controller.initializeController setup = .ok ready) ∨
    ∃ data signer setup, loadControllerConfigFromFile data signer setup = .ok (some ready)

theorem ProxyController.SetUp.proper {ready : ProxyController} {filters callbacks : Nat}
    (setUp : ready.SetUp) : ready.Proper filters callbacks := by
  rcases setUp with ⟨controller, setup, idle, ran⟩ | ⟨data, signer, setup, loaded⟩
  · exact ProxyController.initializeController_proper idle ran
  · obtain ⟨decoded, read, ran⟩ := loadControllerConfigFromFile_ok loaded
    have idle : ProxyController.Idle
        { decoded with defaultSigner := signer.or decoded.defaultSigner } :=
      fun proxyID proxy found => ProxyController.unmarshal_idle read proxyID proxy found
    exact ProxyController.initializeController_proper idle ran

inductive Action where
  | command (message : ControllerMessage) (world : World)
  | happening (happening : Happening)

/-- The runs in which every control message is `Admitted`. -/
def controllerRuns (Admitted : ControllerMessage → ControllerState → World → Prop) :
    Transition.System ControllerState Action where
  init s := ∃ ready, ready.SetUp ∧ s = { controller := ready }
  step s action next :=
    match action with
    | .command message world =>
        Admitted message s world ∧ ∃ reply, message.handleMessage s world = .ok (next, reply)
    | .happening happening => s.happen happening = .ok next

theorem reachable_good {s : ControllerState}
    (reached : (controllerRuns ControllerMessage.Safe).Reachable s) : s.Good := by
  refine reached.invariant ?_ ?_
  · rintro _ ⟨ready, setUp, rfl⟩
    exact ⟨setUp.proper, fun session none => absurd none List.not_mem_nil⟩
  · intro s action next good taken
    cases action with
    | command message world =>
      obtain ⟨safe, reply, ran⟩ := taken
      exact ((ControllerMessage.handleMessage_answers good safe).value ran).1
    | happening happening => exact good.happen taken

/-- As long as all messages are safe, every safe message is executed and answered, whatever
came before. The goroutine that a start message launches returns from listening on every
proxy that has a key, unless listening itself fails. -/
theorem safe_messages_answered {s : ControllerState}
    (reached : (controllerRuns ControllerMessage.Safe).Reachable s) :
    (∀ (message : ControllerMessage) (world : World), message.Safe s world →
      Returns (message.handleMessage s world) fun result => message.IsReply result.2) ∧
    ∀ proxyID proxy listenError, s.controller.proxies.find proxyID = some (some proxy) →
      (Returns (proxy.startProxy listenError) (fun started => started.running = true) ↔
        listenError = none ∧ proxy.privateKey ≠ none) := by
  have good := reachable_good reached
  refine ⟨fun message world safe => ?_, fun proxyID proxy listenError found => ?_⟩
  · exact (ControllerMessage.handleMessage_answers good safe).mono fun _ kept => kept.2
  · obtain ⟨held, same, proper⟩ := good.controller.proxies _ _ found
    obtain rfl := Option.some.inj same
    constructor
    · rintro ⟨started, ran, -⟩
      obtain ⟨_, _, rest⟩ := of_bind_ok ran
      obtain ⟨key, followed, rest⟩ := of_bind_ok rest
      refine ⟨?_, by simp [deref_ok followed]⟩
      cases listenError with
      | none => rfl
      | some err => contradiction
    · rintro ⟨rfl, keyed⟩
      exact (returns_deref proper.log).bind fun _ _ => (returns_deref keyed).bind fun _ _ =>
        returns_pure rfl

def sortedSetup : Setup where
  proxyOrder := sortedOrder uint64Key.rank
  viewerOrder _ := sortedOrder byteRank
  generated := some 0

def sortedWorld : World where
  viewerOrder := sortedOrder byteRank
  sessionOrder := sortedOrder byteRank
  draw _ := some ⟨0, by decide⟩
  now := 0
  decodeError data := data

/-- What `Initialize` makes of a controller without proxies. -/
def emptyController : ProxyController where
  proxies := some ∅
  log := some defaultLogger
  defaultSigner := some 0
  channelFilters := some ∅
  eventCallbacks := some ∅

theorem emptyController_setUp : emptyController.SetUp := by
  refine Or.inl ⟨{}, sortedSetup, fun proxyID proxy found => ?_, ?_⟩
  · rw [show ({} : ProxyController).proxies = none from rfl, MapVar.find_none] at found
    contradiction
  · simp [ProxyController.initializeController, ProxyController.ensureLogger,
      ProxyController.useNewLogger, ProxyController.updateProxiesWithCurrentLogger,
      ProxyController.updateEach, ProxyController.withDefaults, RangeOrder.over_empty, bind,
      Except.bind, pure, Except.pure, emptyController, sortedSetup]

def createProxyMessage : ControllerMessage :=
  { messageType := lit "create-proxy", proxyData := some (lit "{}") }

def stopProxyMessage : ControllerMessage := { messageType := lit "stop-proxy" }

/-- The proxy that the data `{}` describes, as the controller keeps it. -/
def plainProxy : ProxyContext :=
  { ProxyContext.withDefaults {} (some 0) with log := some defaultLogger }

def onePlainProxy : ProxyController :=
  { emptyController with
    proxies := some ((∅ : GoMap UInt64 (Option ProxyContext)).insert 0 (some plainProxy))
    proxyCounter := 1 }

theorem createProxyMessage_creates : ∃ reply,
    createProxyMessage.handleMessage { controller := emptyController } sortedWorld =
      .ok ({ controller := onePlainProxy }, reply) := by
  have decoded : ProxyContext.codec.unmarshal (lit "{}") {} = some {} := rfl
  have read : Command.read (lit "create-proxy") = some .createProxy := rfl
  simp [ControllerMessage.handleMessage, ControllerMessage.dispatch, createProxyMessage, read,
    ControllerMessage.createProxy, ProxyController.addProxyFromJSON, makeProxyFromJSON, decoded,
    ProxyContext.initializeProxy, RangeOrder.over_empty, bind, Except.bind, pure, Except.pure,
    ProxyController.addProxy, ProxyController.addExistingProxy, emptyController, onePlainProxy,
    plainProxy, ProxyController.updateProxy]

def startProxyMessage : ControllerMessage := { messageType := lit "start-proxy" }

def startedPlainProxy : ProxyContext :=
  { plainProxy with listener := some .accepting, running := true }

def startedController : ProxyController := onePlainProxy.updateProxy 0 startedPlainProxy

/-- With the session of its first client. -/
def servingPlainProxy : ProxyContext :=
  { startedPlainProxy with
    allSessions := some ((∅ : GoMap Bytes SessionRef).insert (lit "10.0.0.1:50000") 0) }

def servingController : ProxyController := startedController.updateProxy 0 servingPlainProxy

theorem startProxyMessage_launches : ∃ reply,
    startProxyMessage.handleMessage { controller := onePlainProxy } sortedWorld =
      .ok ({ controller := onePlainProxy, starting := [⟨some 0, some 0⟩] }, reply) := by
  have read : Command.read (lit "start-proxy") = some .startProxy := rfl
  simp [ControllerMessage.handleMessage, ControllerMessage.dispatch, startProxyMessage, read,
    ControllerMessage.startProxy, ProxyController.startProxy, ProxyController.getProxy,
    onePlainProxy, plainProxy, ProxyContext.withDefaults, bind, Except.bind, pure, Except.pure]

/-- A proxy is created and started, and a client connects. -/
theorem servingController_reachable : (controllerRuns ControllerMessage.Safe).Reachable
    { controller := servingController, sessions := [{ clientHost := lit "10.0.0.1" }] } := by
  obtain ⟨reply, created⟩ := createProxyMessage_creates
  obtain ⟨started, launched⟩ := startProxyMessage_launches
  have safe : createProxyMessage.Safe { controller := emptyController } sortedWorld := by
    intro data proxy given decoded key
    obtain rfl := Option.some.inj given
    obtain rfl := Option.some.inj decoded
    exact ⟨nofun, nofun⟩
  have begins : (controllerRuns ControllerMessage.Safe).Reachable { controller := emptyController } :=
    .start ⟨emptyController, emptyController_setUp, rfl⟩
  have made : (controllerRuns ControllerMessage.Safe).Reachable { controller := onePlainProxy } :=
    begins.next (a := .command createProxyMessage sortedWorld) ⟨safe, reply, created⟩
  have launching : (controllerRuns ControllerMessage.Safe).Reachable
      { controller := onePlainProxy, starting := [⟨some 0, some 0⟩] } :=
    made.next (a := .command startProxyMessage sortedWorld) ⟨trivial, started, launched⟩
  have listening : (controllerRuns ControllerMessage.Safe).Reachable
      { controller := startedController } := launching.next (a := .happening (.started 0 none)) rfl
  exact listening.next (a := .happening (.accepted 0 (lit "10.0.0.1:50000") (lit "10.0.0.1"))) rfl

def listProxiesMessage : ControllerMessage := { messageType := lit "list-proxies" }

/-- It is stopped, and that is answered as the next message is. -/
theorem safe_messages_answered_stop : ∃ s stopped reply,
    (controllerRuns ControllerMessage.Safe).Reachable s ∧ s.sessions.length = 1 ∧
      stopProxyMessage.handleMessage s sortedWorld = .ok (stopped, reply) ∧
      stopProxyMessage.IsReply reply ∧
      Returns (listProxiesMessage.handleMessage stopped sortedWorld) fun result =>
        listProxiesMessage.IsReply result.2 := by
  let serving : ControllerState :=
    { controller := servingController, sessions := [{ clientHost := lit "10.0.0.1" }] }
  have listening : stopProxyMessage.Safe serving sortedWorld := by
    intro proxy found
    obtain rfl := Option.some.inj (Option.some.inj found)
    nofun
  obtain ⟨⟨stopped, reply⟩, answered, isReply⟩ :=
    (safe_messages_answered servingController_reachable).1 stopProxyMessage sortedWorld listening
  have later : (controllerRuns ControllerMessage.Safe).Reachable stopped :=
    servingController_reachable.next (a := .command stopProxyMessage sortedWorld)
      ⟨listening, reply, answered⟩
  exact ⟨_, stopped, reply, servingController_reachable, rfl, answered, isReply,
    (safe_messages_answered later).1 listProxiesMessage sortedWorld trivial⟩
/-- A proxy that was created and never started has no listener to close. -/
theorem stopProxyMessage_panics :
    ¬ ∀ s, (controllerRuns fun _ _ _ => True).Reachable s →
      ∀ (message : ControllerMessage) (world : World),
        Returns (message.handleMessage s world) fun result => message.IsReply result.2 := by
  intro answered
  obtain ⟨reply, created⟩ := createProxyMessage_creates
  have reached : (controllerRuns fun _ _ _ => True).Reachable { controller := onePlainProxy } :=
    .next (.start ⟨emptyController, emptyController_setUp, rfl⟩)
      (show (controllerRuns fun _ _ _ => True).step _ (.command createProxyMessage sortedWorld) _
        from ⟨trivial, reply, created⟩)
  obtain ⟨result, stopped, -⟩ := answered _ reached stopProxyMessage sortedWorld
  have read : Command.read (lit "stop-proxy") = some .stopProxy := rfl
  have panics : stopProxyMessage.handleMessage { controller := onePlainProxy } sortedWorld =
      .error .nilPointer := by
    simp [ControllerMessage.handleMessage, ControllerMessage.dispatch, stopProxyMessage, read,
      ControllerMessage.stopProxy, ProxyController.stopProxy, ProxyController.getProxy,
      onePlainProxy, plainProxy, ProxyContext.stop, ProxyContext.withDefaults, deref, bind,
      Except.bind]
  rw [panics] at stopped
  contradiction

end SSHProxyPlus
