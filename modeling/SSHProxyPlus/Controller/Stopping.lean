import SSHProxyPlus.Controller.Serving

/-! When a proxy that was stopped stays stopped: what a stop relies on when it closes the
listener, and what can still come after it has returned. -/
namespace SSHProxyPlus
open Go Transition

/-- The proxy can be served: there is somewhere to log to, and a key. -/
def ProxyContext.CanListen (proxy : ProxyContext) : Prop :=
  proxy.log ≠ none ∧ proxy.privateKey ≠ none

/-- Somebody can log in. -/
def ProxyContext.Admits (proxy : ProxyContext) : Prop :=
  proxy.log ≠ none ∧ ∃ username password user,
    proxy.authenticateUser username password = .ok (.ok user)

namespace ServedProxy

def Active (server : ServedProxy) (session : SessionRef) : Prop :=
  (server.sessions.session session).active = true

/-- A client of these addresses would take the place of an active session in the table. -/
def Replaces (server : ServedProxy) (sessKey : Bytes) : Prop :=
  ∃ key, (key = sessKey ∨ key = sessKey ++ lit "_old") ∧
    ∃ session, server.proxy.allSessions.find key = some session ∧ server.Active session

end ServedProxy

/-- A start that has not come to listen yet and can, or a client that has been accepted and can
still be let in, or take the place of another. -/
def Starting.Pending (server : ServedProxy) : Starting → Prop
  | .getting => server.locked = false ∧ server.registered = true ∧ server.proxy.CanListen
  | .launching | .listening => server.proxy.CanListen
  | .registering _ sessKey _ => server.proxy.Admits ∨ server.Replaces sessKey
  | .handshaking _ _ => server.proxy.Admits
  | _ => False

namespace ServedProxy

/-- No listener is open and no session is active. -/
structure Stopped (server : ServedProxy) : Prop where
  closed : ∀ listener ∈ server.listeners, listener = .closed
  inactive : ∀ session, ¬ server.Active session

/-- And nothing is under way that changes that. -/
structure Quiet (server : ServedProxy) : Prop extends Stopped server where
  idle : ∀ starting ∈ server.starts, ¬ starting.Pending server

/-- It will be quiet when the sessions under the keys that are left have been ended. -/
structure Winding (server : ServedProxy) (left : Bytes → Prop) : Prop where
  closed : ∀ listener ∈ server.listeners, listener = .closed
  idle : ∀ starting ∈ server.starts, ¬ starting.Pending server
  due : ∀ session, server.Active session →
    ∃ key, left key ∧ server.proxy.allSessions.find key = some session

theorem winding_done {server : ServedProxy} : server.Winding (fun _ => False) ↔ server.Quiet :=
  ⟨fun winding => ⟨⟨winding.closed, fun session active =>
    (winding.due session active).elim fun _ none => none.1⟩, winding.idle⟩,
    fun quiet => ⟨quiet.closed, quiet.idle, fun session active =>
      absurd active (quiet.inactive session)⟩⟩

/-- Sessions are where the table says, and those of clients that are logging in are in it. -/
structure Consistent (server : ServedProxy) : Prop where
  made : server.proxy.allSessions ≠ none
  valid : ∀ key ref, server.proxy.allSessions.find key = some ref → ref < server.sessions.length
  known : ∀ listener key, .handshaking listener key ∈ server.starts →
    server.proxy.allSessions.find key ≠ none

theorem endSession_inactive {session ended : SessionContext} {sessionFolder : Bytes} {now : Time}
    (ran : session.endSession sessionFolder now = .ok ended) : ended.active = false := by
  unfold SessionContext.endSession at ran
  cases active : session.active with
  | false =>
    rw [active] at ran
    exact Except.ok.inj ran ▸ active
  | true =>
    rw [active] at ran
    obtain ⟨recorded, handled, rest⟩ := of_bind_ok ran
    obtain ⟨_, -, done⟩ := of_bind_ok rest
    obtain ⟨_, -, added⟩ := of_bind_ok handled
    obtain rfl := Except.ok.inj added
    obtain rfl := Except.ok.inj done
    unfold SessionContext.finalizeLog
    split <;> rfl

variable {server next : ServedProxy} {left : Bytes → Prop}

/-- A step that opens nothing and lets nobody in. -/
structure Calms (server next : ServedProxy) : Prop where
  proxy : ∃ running, next.proxy = { server.proxy with running }
  starts : next.starts = server.starts
  stops : next.stops = server.stops
  listeners : ∀ listener ∈ next.listeners, listener ∈ server.listeners ∨ listener = .closed
  length : next.sessions.length = server.sessions.length
  active : ∀ session, next.Active session → server.Active session
  pending : next.locked = false ∧ next.registered = true →
    server.locked = false ∧ server.registered = true

theorem Calms.refl (server : ServedProxy) : Calms server server :=
  ⟨⟨_, rfl⟩, rfl, rfl, fun _ => Or.inl, rfl, fun _ => id, id⟩

theorem Calms.awaits (calms : Calms server next) {starting : Starting}
    (pending : starting.Pending next) : starting.Pending server := by
  obtain ⟨running, same⟩ := calms.proxy
  have can : next.proxy.CanListen → server.proxy.CanListen := by rw [same]; exact id
  have admits : next.proxy.Admits → server.proxy.Admits := by rw [same]; exact id
  have table : next.proxy.allSessions = server.proxy.allSessions := by rw [same]
  cases starting with
  | getting =>
    obtain ⟨free, there, listens⟩ := pending
    obtain ⟨free', there'⟩ := calms.pending ⟨free, there⟩
    exact ⟨free', there', can listens⟩
  | launching => exact can pending
  | listening => exact can pending
  | registering listener sessKey clientHost =>
    refine pending.imp admits fun ⟨key, near, session, found, active⟩ => ?_
    exact ⟨key, near, session, table ▸ found, calms.active session active⟩
  | handshaking listener sessKey => exact admits pending
  | storing listener => exact pending
  | activating listener => exact pending
  | testing listener => exact pending
  | accepting listener => exact pending
  | handing listener => exact pending
  | done => exact pending

theorem Calms.winding (calms : Calms server next) (winding : server.Winding left) :
    next.Winding left where
  closed listener member := (calms.listeners listener member).elim (winding.closed listener) id
  idle starting member pending :=
    winding.idle starting (calms.starts ▸ member) (calms.awaits pending)
  due session active := by
    obtain ⟨running, same⟩ := calms.proxy
    rw [same]
    exact winding.due session (calms.active session active)

theorem Calms.consistent (calms : Calms server next) (consistent : server.Consistent) :
    next.Consistent := by
  obtain ⟨running, same⟩ := calms.proxy
  refine ⟨?_, ?_, ?_⟩
  · rw [same]
    exact consistent.made
  · rw [same, calms.length]
    exact consistent.valid
  · rw [same, calms.starts]
    exact consistent.known

/-- Ending a session leaves at most the others active. -/
theorem active_set {sessions : SessionHeap} {ref ref' : SessionRef} {ended : SessionContext}
    (inactive : ended.active = false)
    (active : (SessionHeap.session (sessions.set ref ended) ref').active = true) :
    (sessions.session ref').active = true ∧ (ref < sessions.length → ref ≠ ref') := by
  rw [session_set] at active
  split at active
  · rw [inactive] at active
    contradiction
  · next other => exact ⟨active, fun within same => other ⟨same, within⟩⟩

theorem ended_calms {session : SessionRef} {ended : SessionContext} {sessionFolder : Bytes}
    {now : Time}
    (ran : (server.sessions.session session).endSession sessionFolder now = .ok ended) :
    Calms server { server with sessions := server.sessions.set session ended } where
  proxy := ⟨_, rfl⟩
  starts := rfl
  stops := rfl
  listeners _ := Or.inl
  length := List.length_set
  active _ active := (active_set (endSession_inactive ran) active).1
  pending := id

/-- A turn of the loop ends what is under its key. -/
theorem endSession_ends {key : Bytes} {now : Time} (consistent : server.Consistent)
    (visited : server.endSession key now = .ok next) : Calms server next ∧
      ∀ session, next.Active session → server.proxy.allSessions.find key ≠ some session := by
  obtain ⟨heap, ran, done⟩ := of_bind_ok visited
  obtain rfl := Except.ok.inj done
  unfold ProxyContext.endAt at ran
  cases found : server.proxy.allSessions.content.lookup key with
  | none =>
    rw [found] at ran
    obtain rfl := Except.ok.inj ran
    refine ⟨.refl server, fun session _ here => ?_⟩
    exact absurd (found.symm.trans here) (Option.some_ne_none session).symm
  | some ref =>
    rw [found] at ran
    obtain ⟨ended, stopped, done⟩ := of_bind_ok ran
    obtain rfl := Except.ok.inj done
    refine ⟨ended_calms stopped, fun session active here => ?_⟩
    have same : ref = session := Option.some.inj (found.symm.trans here)
    have within := consistent.valid key ref found
    exact (active_set (endSession_inactive stopped) active).2 within same

/-- Whatever a stop does calms. -/
theorem runStop_calms {stopping stopping' : Stopping} {event : StopEvent}
    (consistent : server.Consistent)
    (ran : server.runStop stopping event = some (.ok (stopping', next))) : Calms server next := by
  unfold runStop at ran
  split at ran
  · split at ran
    · contradiction
    · split at ran
      · obtain ⟨-, rfl⟩ := Prod.mk.inj (Except.ok.inj (Option.some.inj ran))
        exact .refl server
      · obtain ⟨-, rfl⟩ := Prod.mk.inj (Except.ok.inj (Option.some.inj ran))
        exact .refl server
  · split at ran
    · contradiction
    · split at ran
      · obtain ⟨-, rfl⟩ := Prod.mk.inj (Except.ok.inj (Option.some.inj ran))
        exact ⟨⟨_, rfl⟩, rfl, rfl, fun _ => Or.inl, rfl, fun _ => id,
          fun free => absurd free.1.symm Bool.false_ne_true⟩
      · obtain ⟨-, rfl⟩ := Prod.mk.inj (Except.ok.inj (Option.some.inj ran))
        exact .refl server
  · obtain ⟨-, rfl⟩ := Prod.mk.inj (Except.ok.inj (Option.some.inj ran))
    exact .refl server
  · obtain ⟨-, rfl⟩ := Prod.mk.inj (Except.ok.inj (Option.some.inj ran))
    exact ⟨⟨false, rfl⟩, rfl, rfl, fun _ => Or.inl, rfl, fun _ => id, id⟩
  · obtain ⟨listener, -, done⟩ := of_bind_ok (Option.some.inj ran)
    obtain ⟨-, rfl⟩ := Prod.mk.inj (Except.ok.inj done)
    exact ⟨⟨_, rfl⟩, rfl, rfl, fun _ => List.mem_or_eq_of_mem_set, rfl, fun _ => id, id⟩
  · obtain ⟨-, rfl⟩ := Prod.mk.inj (Except.ok.inj (Option.some.inj ran))
    exact .refl server
  · split at ran
    · obtain ⟨ended, visited, done⟩ := of_bind_ok (Option.some.inj ran)
      obtain ⟨-, rfl⟩ := Prod.mk.inj (Except.ok.inj done)
      exact (endSession_ends consistent visited).1
    · contradiction
  · split at ran
    · obtain ⟨-, rfl⟩ := Prod.mk.inj (Except.ok.inj (Option.some.inj ran))
      exact .refl server
    · contradiction
  · obtain ⟨-, rfl⟩ := Prod.mk.inj (Except.ok.inj (Option.some.inj ran))
    exact ⟨⟨_, rfl⟩, rfl, rfl, fun _ => Or.inl, rfl, fun _ => id,
      fun free => absurd free.2 Bool.false_ne_true⟩
  · obtain ⟨-, rfl⟩ := Prod.mk.inj (Except.ok.inj (Option.some.inj ran))
    exact .refl server
  · contradiction

/-- What one step of a start can be: it changes little, opens a listener, takes a connection,
or asks for the password of a client. -/
inductive StartStep (server : ServedProxy) : Starting → Starting → ServedProxy → Prop where
  | calm {starting starting' : Starting} {next : ServedProxy} (calms : Calms server next)
      (fresh : ∀ listener key, starting' ≠ .handshaking listener key)
      (awaits : starting'.Pending server → starting.Pending server ∨
        ∃ listener ∈ server.listeners, listener ≠ .closed) :
      StartStep server starting starting' next
  | listens (can : server.proxy.CanListen) :
      StartStep server .listening (.storing server.listeners.length)
        { server with listeners := server.listeners ++ [.accepting] }
  | registers {listener : ListenerRef} {sessKey clientHost : Bytes} {proxy : ProxyContext}
      {sessions : SessionHeap}
      (ran : server.proxy.acceptConnection server.sessions sessKey clientHost =
        .ok (proxy, sessions)) :
      StartStep server (.registering listener sessKey clientHost) (.handshaking listener sessKey)
        { server with proxy, sessions }
  | asks {listener : ListenerRef} {sessKey username password : Bytes} {now : Time}
      {sessions : SessionHeap} {refused : Option Bytes}
      (ran : server.proxy.passwordCallback server.sessions sessKey username password now =
        .ok (sessions, refused)) :
      StartStep server (.handshaking listener sessKey)
        (if refused.isSome then .handshaking listener sessKey else .handing listener)
        { server with sessions }

theorem runStart_step {starting starting' : Starting} {event : StartEvent}
    (ran : server.runStart starting event = some (.ok (starting', next))) :
    StartStep server starting starting' next := by
  unfold runStart at ran
  split at ran
  · split at ran
    · contradiction
    · next free =>
      obtain ⟨rfl, rfl⟩ := Prod.mk.inj (Except.ok.inj (Option.some.inj ran))
      split
      · next there =>
        exact .calm (.refl server) (fun _ _ => Starting.noConfusion) fun can =>
          Or.inl ⟨Bool.eq_false_iff.mpr free, there, can⟩
      · exact .calm (.refl server) (fun _ _ => Starting.noConfusion) False.elim
  · obtain ⟨rfl, rfl⟩ := Prod.mk.inj (Except.ok.inj (Option.some.inj ran))
    exact .calm (.refl server) (fun _ _ => Starting.noConfusion) Or.inl
  · next err =>
    obtain ⟨logger, logs, rest⟩ := of_bind_ok (Option.some.inj ran)
    obtain ⟨key, keyed, rest⟩ := of_bind_ok rest
    have can : server.proxy.CanListen :=
      ⟨(deref_ok logs).trans_ne (Option.some_ne_none logger),
        (deref_ok keyed).trans_ne (Option.some_ne_none key)⟩
    cases err with
    | some err => contradiction
    | none =>
      obtain ⟨rfl, rfl⟩ := Prod.mk.inj (Except.ok.inj rest)
      exact .listens can
  · obtain ⟨rfl, rfl⟩ := Prod.mk.inj (Except.ok.inj (Option.some.inj ran))
    exact .calm ⟨⟨_, rfl⟩, rfl, rfl, fun _ => Or.inl, rfl, fun _ => id, id⟩
      (fun _ _ => Starting.noConfusion) False.elim
  · obtain ⟨rfl, rfl⟩ := Prod.mk.inj (Except.ok.inj (Option.some.inj ran))
    exact .calm ⟨⟨true, rfl⟩, rfl, rfl, fun _ => Or.inl, rfl, fun _ => id, id⟩
      (fun _ _ => Starting.noConfusion) False.elim
  · obtain ⟨rfl, rfl⟩ := Prod.mk.inj (Except.ok.inj (Option.some.inj ran))
    split
    · exact .calm (.refl server) (fun _ _ => Starting.noConfusion) False.elim
    · exact .calm (.refl server) (fun _ _ => Starting.noConfusion) False.elim
  · obtain ⟨rfl, rfl⟩ := Prod.mk.inj (Except.ok.inj (Option.some.inj ran))
    exact .calm (.refl server) (fun _ _ => Starting.noConfusion) False.elim
  · split at ran
    · next opened =>
      obtain ⟨rfl, rfl⟩ := Prod.mk.inj (Except.ok.inj (Option.some.inj ran))
      refine .calm (.refl server) (fun _ _ => Starting.noConfusion) fun _ => Or.inr ?_
      exact ⟨.accepting, List.mem_of_getElem? (eq_of_beq opened), Listener.noConfusion⟩
    · contradiction
  · obtain ⟨⟨proxy, sessions⟩, registered, done⟩ := of_bind_ok (Option.some.inj ran)
    obtain ⟨rfl, rfl⟩ := Prod.mk.inj (Except.ok.inj done)
    exact .registers registered
  · obtain ⟨⟨sessions, refused⟩, asked, done⟩ := of_bind_ok (Option.some.inj ran)
    obtain ⟨rfl, rfl⟩ := Prod.mk.inj (Except.ok.inj done)
    exact .asks asked
  · obtain ⟨rfl, rfl⟩ := Prod.mk.inj (Except.ok.inj (Option.some.inj ran))
    exact .calm (.refl server) (fun _ _ => Starting.noConfusion) False.elim
  · obtain ⟨rfl, rfl⟩ := Prod.mk.inj (Except.ok.inj (Option.some.inj ran))
    exact .calm (.refl server) (fun _ _ => Starting.noConfusion) False.elim
  · contradiction

theorem StartStep.stops {starting starting' : Starting}
    (step : StartStep server starting starting' next) : next.stops = server.stops := by
  cases step with
  | calm calms fresh awaits => exact calms.stops
  | listens can => rfl
  | registers ran => rfl
  | asks ran => rfl

/-- A client that takes nobody's place leaves the active sessions where they are. -/
theorem registers_keeps {sessKey clientHost : Bytes} {allSessions : MapVar Bytes SessionRef}
    (finds : ∀ key, allSessions.find key =
      if key = sessKey then some server.sessions.length
      else if key = sessKey ++ lit "_old" ∧ (server.proxy.allSessions.find sessKey).isSome then
        server.proxy.allSessions.find sessKey
      else server.proxy.allSessions.find key)
    (apart : ¬ server.Replaces sessKey) {session : SessionRef} {key : Bytes}
    (active : (SessionHeap.session (server.sessions ++ [{ clientHost := clientHost }])
      session).active = true) :
    server.Active session ∧ (allSessions.find key = some session ↔
      server.proxy.allSessions.find key = some session) := by
  rw [session_append] at active
  split at active
  · contradiction
  next old =>
  refine ⟨active, ?_⟩
  have elsewhere : ∀ key, key = sessKey ∨ key = sessKey ++ lit "_old" →
      server.proxy.allSessions.find key ≠ some session :=
    fun key near found => apart ⟨key, near, session, found, active⟩
  rw [finds]
  split
  · next here =>
    refine iff_of_false (fun same => old (Option.some.inj same).symm) ?_
    exact elsewhere key (Or.inl here)
  · split
    · next there =>
      exact iff_of_false (elsewhere sessKey (Or.inl rfl)) (elsewhere key (Or.inr there.1))
    · rfl

/-- A step of a start keeps the table and the sessions consistent. -/
theorem StartStep.consistent {starting starting' : Starting} {index : Nat}
    (step : StartStep server starting starting' next) (consistent : server.Consistent)
    (stands : server.starts[index]? = some starting) :
    Consistent { next with starts := server.starts.set index starting' } := by
  have member : starting ∈ server.starts := List.mem_of_getElem? stands
  cases step with
  | calm calms fresh awaits =>
    obtain ⟨made, valid, -⟩ := calms.consistent consistent
    refine ⟨made, valid, fun listener key inside => ?_⟩
    obtain ⟨running, same⟩ := calms.proxy
    change next.proxy.allSessions.find key ≠ none
    rw [same]
    rcases List.mem_or_eq_of_mem_set inside with there | new
    · exact consistent.known listener key there
    · exact absurd new.symm (fresh listener key)
  | listens can =>
    refine ⟨consistent.made, consistent.valid, fun listener key inside => ?_⟩
    rcases List.mem_or_eq_of_mem_set inside with there | new
    · exact consistent.known listener key there
    · contradiction
  | registers ran =>
    rename_i listener sessKey clientHost proxy sessions
    obtain ⟨allSessions, same, made, finds⟩ :=
      (ProxyContext.acceptConnection_returns consistent.made _ _ _).value ran
    obtain ⟨rfl, rfl⟩ := Prod.mk.inj same
    refine ⟨made, fun key ref found => ?_, fun listener key inside => ?_⟩
    · have older := fun key => Nat.lt_succ_of_lt ∘ consistent.valid key ref
      change allSessions.find key = some ref at found
      rw [List.length_append, List.length_singleton]
      rw [finds] at found
      split at found
      · exact Option.some.inj found ▸ Nat.lt_succ_self _
      · split at found
        · exact older sessKey found
        · exact older key found
    · change allSessions.find key ≠ none
      rw [finds]
      rcases List.mem_or_eq_of_mem_set inside with there | new
      · split
        · exact Option.some_ne_none _
        · split
          · next moved => exact Option.isSome_iff_ne_none.mp moved.2
          · exact consistent.known listener key there
      · rw [if_pos (Starting.handshaking.inj new).2]
        exact Option.some_ne_none _
  | asks ran =>
    rename_i listener sessKey username password now sessions refused
    have length : sessions.length = server.sessions.length := by
      rcases ProxyContext.passwordCallback_ok ran with rfl | ⟨user, ref, -, -, rfl⟩
      · rfl
      · exact List.length_set
    refine ⟨consistent.made, length ▸ consistent.valid, fun listener' key inside => ?_⟩
    rcases List.mem_or_eq_of_mem_set inside with there | new
    · exact consistent.known listener' key there
    · split at new
      · obtain ⟨rfl, rfl⟩ := Starting.handshaking.inj new
        exact consistent.known _ key member
      · contradiction

/-- Nor does it disturb a proxy that is winding down. -/
theorem StartStep.winding {starting starting' : Starting} {index : Nat}
    (step : StartStep server starting starting' next) (made : server.proxy.allSessions ≠ none)
    (winding : server.Winding left) (stands : server.starts[index]? = some starting) :
    Winding { next with starts := server.starts.set index starting' } left := by
  have idle := winding.idle starting (List.mem_of_getElem? stands)
  cases step with
  | calm calms fresh awaits =>
    obtain ⟨closed, -, due⟩ := calms.winding winding
    refine ⟨closed, ?_, due⟩
    refine each_set (fun other inside pending => ?_) ?_
    · exact winding.idle other inside (calms.awaits pending)
    intro pending
    rcases awaits (calms.awaits pending) with pending | ⟨listener, inside, opened⟩
    · exact idle pending
    · exact opened (winding.closed listener inside)
  | listens can => exact absurd can idle
  | registers ran =>
    rename_i listener sessKey clientHost proxy sessions
    obtain ⟨allSessions, same, -, finds⟩ :=
      (ProxyContext.acceptConnection_returns made _ _ _).value ran
    obtain ⟨rfl, rfl⟩ := Prod.mk.inj same
    obtain ⟨bars, apart⟩ := not_or.mp idle
    refine ⟨winding.closed, ?_, fun session active => ?_⟩
    · refine each_set (fun other inside pending => winding.idle other inside ?_) bars
      cases other with
      | registering listener' sessKey' clientHost' =>
        refine pending.imp id fun ⟨key, near, session, found, active⟩ => ?_
        obtain ⟨active', same⟩ := registers_keeps finds apart active
        exact ⟨key, near, session, same.mp found, active'⟩
      | _ => exact pending
    · obtain ⟨active', -⟩ := @registers_keeps _ _ _ _ finds apart _ sessKey active
      obtain ⟨key, remains, found⟩ := winding.due session active'
      exact ⟨key, remains, (registers_keeps finds apart active).2.mpr found⟩
  | asks ran =>
    rcases ProxyContext.passwordCallback_ok ran with rfl | ⟨user, ref, admitted, -, rfl⟩
    · refine ⟨winding.closed, ?_, winding.due⟩
      refine each_set winding.idle ?_
      split
      · exact idle
      · exact id
    · obtain ⟨_, logs, -⟩ := of_bind_ok ran
      exact absurd ⟨(deref_ok logs).trans_ne (Option.some_ne_none _), _, _, _, admitted⟩ idle

/-- What a stop relies on when it closes the listener: no other is open, nothing is under way,
and the active sessions are in the table. -/
structure Settled (server : ServedProxy) : Prop where
  only : ∀ listener, server.opened listener = true → server.listener = some listener
  idle : ∀ starting ∈ server.starts, ¬ starting.Pending server
  tabled : ∀ session, server.Active session →
    ∃ key, server.proxy.allSessions.find key = some session

end ServedProxy

namespace Stopping

/-- The stop has closed the listener, or has left the proxy as it found it. -/
def UnderWay : Stopping → Prop
  | .ranging _ | .ending _ _ _ | .deleting | .returning none => True
  | _ => False

/-- How far a stop that is under way has come. -/
def Kept (server : ServedProxy) : Stopping → Prop
  | .ranging _ => server.Winding fun _ => True
  | .ending _ due seen => server.Winding fun key => key ∈ due ∧ key ∉ seen
  | .deleting | .returning none => server.Winding fun _ => False
  | _ => True

/-- What a stop relies on at its next step. -/
def Relies (server : ServedProxy) : Stopping → Prop
  | .checking => server.proxy.running = true ∨ server.Quiet
  | .closing _ => server.Settled
  | _ => True

variable {server next : ServedProxy} {stopping stopping' : Stopping} {event : StopEvent}

theorem Kept.mono (kept : stopping.Kept server)
    (keeps : ∀ left, server.Winding left → next.Winding left) : stopping.Kept next := by
  unfold Kept at kept ⊢
  split at kept
  · exact keeps _ kept
  · exact keeps _ kept
  · exact keeps _ kept
  · exact keeps _ kept
  · trivial

theorem kept_of_not_underWay (idle : ¬ stopping.UnderWay) : stopping.Kept server := by
  unfold UnderWay at idle
  unfold Kept
  split <;> simp_all

end Stopping

namespace ServedProxy
variable {server next : ServedProxy}

theorem Settled.closes {listener : ListenerRef} (settled : server.Settled)
    (here : server.listener = some listener) :
    Winding { server with listeners := server.listeners.set listener .closed } fun _ => True where
  closed other member := by
    obtain ⟨index, found⟩ := List.mem_iff_getElem?.mp member
    change (server.listeners.set listener .closed)[index]? = some other at found
    cases other with
    | closed => rfl
    | accepting =>
      rw [List.getElem?_set] at found
      split at found
      · split at found <;> contradiction
      · next apart =>
        have opened : server.opened index = true := by simp [opened, found]
        exact absurd (Option.some.inj (here.symm.trans (settled.only index opened))) apart
  idle starting member pending := by
    refine settled.idle starting member ?_
    cases starting <;> exact pending
  due session active := by
    obtain ⟨key, found⟩ := settled.tabled session active
    exact ⟨key, trivial, found⟩

/-- A stop gets on with it. -/
theorem runStop_kept {stopping stopping' : Stopping} {event : StopEvent}
    (consistent : server.Consistent) (kept : stopping.Kept server) (relies : stopping.Relies server)
    (ran : server.runStop stopping event = some (.ok (stopping', next))) : stopping'.Kept next := by
  have calms := runStop_calms consistent ran
  unfold runStop at ran
  split at ran
  · split at ran
    · contradiction
    · split at ran
      · obtain ⟨rfl, rfl⟩ := Prod.mk.inj (Except.ok.inj (Option.some.inj ran))
        trivial
      · obtain ⟨rfl, rfl⟩ := Prod.mk.inj (Except.ok.inj (Option.some.inj ran))
        trivial
  · split at ran
    · contradiction
    · split at ran
      · obtain ⟨rfl, rfl⟩ := Prod.mk.inj (Except.ok.inj (Option.some.inj ran))
        trivial
      · obtain ⟨rfl, rfl⟩ := Prod.mk.inj (Except.ok.inj (Option.some.inj ran))
        trivial
  · obtain ⟨rfl, rfl⟩ := Prod.mk.inj (Except.ok.inj (Option.some.inj ran))
    split
    · trivial
    · next stands =>
      exact winding_done.mpr (relies.resolve_left stands)
  · obtain ⟨rfl, rfl⟩ := Prod.mk.inj (Except.ok.inj (Option.some.inj ran))
    trivial
  · obtain ⟨listener, here, done⟩ := of_bind_ok (Option.some.inj ran)
    obtain ⟨rfl, rfl⟩ := Prod.mk.inj (Except.ok.inj done)
    exact Settled.closes relies (deref_ok here)
  · obtain ⟨rfl, rfl⟩ := Prod.mk.inj (Except.ok.inj (Option.some.inj ran))
    obtain ⟨closed, idle, due⟩ := kept
    refine ⟨closed, idle, fun session active => ?_⟩
    obtain ⟨key, -, found⟩ := due session active
    refine ⟨key, ⟨?_, List.not_mem_nil⟩, found⟩
    exact Finmap.mem_keys.mpr (Finmap.mem_of_lookup_eq_some found)
  · split at ran
    · obtain ⟨ended, visited, done⟩ := of_bind_ok (Option.some.inj ran)
      obtain ⟨rfl, rfl⟩ := Prod.mk.inj (Except.ok.inj done)
      obtain ⟨closed, idle, due⟩ := calms.winding kept
      refine ⟨closed, idle, fun session active => ?_⟩
      obtain ⟨key', ⟨inside, unseen⟩, found⟩ := due session active
      refine ⟨key', ⟨inside, fun seen' => ?_⟩, found⟩
      rcases List.mem_append.mp seen' with earlier | now'
      · exact unseen earlier
      · obtain ⟨running, same⟩ := calms.proxy
        rw [same, List.mem_singleton.mp now'] at found
        exact (endSession_ends consistent visited).2 session active found
    · contradiction
  · split at ran
    · next visited =>
      obtain ⟨rfl, rfl⟩ := Prod.mk.inj (Except.ok.inj (Option.some.inj ran))
      obtain ⟨closed, idle, due⟩ := kept
      have quiet : server.Winding fun _ => False := by
        refine ⟨closed, idle, fun session active => ?_⟩
        obtain ⟨key, ⟨inside, unseen⟩, found⟩ := due session active
        exact absurd (visited key inside (Finmap.mem_of_lookup_eq_some found)) unseen
      split <;> exact quiet
    · contradiction
  · obtain ⟨rfl, rfl⟩ := Prod.mk.inj (Except.ok.inj (Option.some.inj ran))
    exact calms.winding kept
  · obtain ⟨rfl, rfl⟩ := Prod.mk.inj (Except.ok.inj (Option.some.inj ran))
    trivial
  · contradiction

/-- No start that can find the proxy is issued while a stop is under way, and at each step a stop
has what it relies on. -/
def Undisturbed (server : ServedProxy) : ServingAction → Prop
  | .startProxy =>
      (∃ stopping ∈ server.stops, stopping.UnderWay) → ¬ Starting.getting.Pending server
  | .stop index _ => ∀ stopping, server.stops[index]? = some stopping → stopping.Relies server
  | _ => True

/-- What holds after a step, whatever it is. -/
theorem perform_cases {action : ServingAction} {P : ServedProxy → Prop}
    (performed : server.perform action = some next)
    (crash : P { server with crashed := true })
    (startProxy : action = .startProxy → P { server with starts := server.starts ++ [.getting] })
    (called : ∀ stopping, ¬ Stopping.UnderWay stopping →
      P { server with stops := server.stops ++ [stopping] })
    (start : ∀ index starting starting' stepped, server.starts[index]? = some starting →
      StartStep server starting starting' stepped →
      P { stepped with starts := server.starts.set index starting' })
    (stop : ∀ index event stopping stopping' stepped, action = .stop index event →
      server.stops[index]? = some stopping →
      server.runStop stopping event = some (.ok (stopping', stepped)) →
      P { stepped with stops := server.stops.set index stopping' })
    (ended : ∀ sessions, Calms server { server with sessions } → P { server with sessions }) :
    P next := by
  unfold perform at performed
  split at performed
  · contradiction
  cases action with
  | startProxy => exact Option.some.inj performed ▸ startProxy rfl
  | stopProxy => exact Option.some.inj performed ▸ called .getting id
  | destroyProxy => exact Option.some.inj performed ▸ called .locking id
  | start index event =>
    obtain ⟨starting, stands, rest⟩ := Option.bind_eq_some_iff.mp performed
    obtain ⟨ran, stepped, done⟩ := Option.bind_eq_some_iff.mp rest
    obtain rfl := Option.some.inj done
    cases ran with
    | error panic => exact crash
    | ok result => exact start index starting _ _ stands (runStart_step stepped)
  | stop index event =>
    obtain ⟨stopping, stands, rest⟩ := Option.bind_eq_some_iff.mp performed
    obtain ⟨ran, stepped, done⟩ := Option.bind_eq_some_iff.mp rest
    obtain rfl := Option.some.inj done
    cases ran with
    | error panic => exact crash
    | ok result => exact stop index event stopping _ _ rfl stands stepped
  | sessionEnds session now =>
    obtain rfl := Option.some.inj performed
    cases ran : (server.sessions.session session).endSession server.proxy.sessionFolder now with
    | error panic => exact crash
    | ok ended' => exact ended _ (ended_calms ran)

theorem perform_consistent {action : ServingAction} (consistent : server.Consistent)
    (performed : server.perform action = some next) : next.Consistent := by
  refine perform_cases performed ⟨consistent.made, consistent.valid, consistent.known⟩ (fun _ => ?_)
    (fun _ _ => ⟨consistent.made, consistent.valid, consistent.known⟩)
    (fun index starting starting' stepped stands step => step.consistent consistent stands)
    (fun index event stopping stopping' stepped _ stands ran => ?_)
    (fun sessions calms => calms.consistent consistent)
  · refine ⟨consistent.made, consistent.valid, fun listener key member => ?_⟩
    rcases List.mem_append.mp member with there | new
    · exact consistent.known listener key there
    · exact absurd (List.mem_singleton.mp new) Starting.noConfusion
  · obtain ⟨made, valid, known⟩ := (runStop_calms consistent ran).consistent consistent
    exact ⟨made, valid, known⟩

/-- A proxy that is winding down goes on with it, as long as nobody starts it. -/
theorem perform_winding {action : ServingAction} {left : Bytes → Prop}
    (consistent : server.Consistent) (winding : server.Winding left)
    (barred : action = .startProxy → ¬ Starting.getting.Pending server)
    (performed : server.perform action = some next) : next.Winding left := by
  refine @perform_cases server next action (fun server => server.Winding left) performed
    ⟨winding.closed, winding.idle, winding.due⟩ (fun issued => ?_)
    (fun _ _ => ⟨winding.closed, winding.idle, winding.due⟩)
    (fun index starting starting' stepped stands step => step.winding consistent.made winding stands)
    (fun index event stopping stopping' stepped _ stands ran => ?_)
    (fun sessions calms => calms.winding winding)
  · refine ⟨winding.closed, fun starting member pending => ?_, winding.due⟩
    rcases List.mem_append.mp member with there | new
    · refine winding.idle starting there ?_
      cases starting <;> exact pending
    · exact barred issued (List.mem_singleton.mp new ▸ pending)
  · obtain ⟨closed, idle, due⟩ := (runStop_calms consistent ran).winding winding
    refine ⟨closed, fun starting member pending => idle starting member ?_, due⟩
    cases starting <;> exact pending

/-- Every stop that is under way has come as far as it should have. -/
theorem perform_kept {action : ServingAction} (consistent : server.Consistent)
    (kept : ∀ stopping ∈ server.stops, stopping.Kept server)
    (undisturbed : server.Undisturbed action) (performed : server.perform action = some next) :
    ∀ stopping ∈ next.stops, stopping.Kept next := by
  have others : ∀ stopping ∈ server.stops, stopping.Kept next := by
    intro stopping member
    by_cases underWay : stopping.UnderWay
    · refine (kept stopping member).mono fun left winding =>
        perform_winding consistent winding ?_ performed
      rintro rfl
      exact undisturbed ⟨stopping, member, underWay⟩
    · exact Stopping.kept_of_not_underWay underWay
  have news : ∀ stopping ∈ next.stops, stopping ∈ server.stops ∨ stopping.Kept next := by
    refine @perform_cases server next action
      (fun next => ∀ stopping ∈ next.stops, stopping ∈ server.stops ∨ stopping.Kept next) performed
      (fun _ => Or.inl) (fun _ _ => Or.inl) (fun stopping idle other member => ?_)
      (fun index starting starting' stepped stands step other member => ?_)
      (fun index event stopping stopping' stepped same stands ran other member => ?_)
      (fun _ _ _ => Or.inl)
    · rcases List.mem_append.mp member with there | new
      · exact Or.inl there
      · obtain rfl := List.mem_singleton.mp new
        exact Or.inr (Stopping.kept_of_not_underWay idle)
    · exact Or.inl (step.stops ▸ member)
    · rcases List.mem_or_eq_of_mem_set member with there | rfl
      · exact Or.inl there
      · subst same
        have here := kept stopping (List.mem_of_getElem? stands)
        have come := runStop_kept consistent here (undisturbed stopping stands) ran
        exact Or.inr (come.mono fun left winding => ⟨winding.closed, fun starting member pending =>
          winding.idle starting member (by cases starting <;> exact pending), winding.due⟩)
  exact fun stopping member => (news stopping member).elim (others stopping) id

variable {Admitted : ServedProxy → ServingAction → Prop}

theorem consistent_reachable (reached : (runs Admitted).Reachable server) : server.Consistent := by
  induction reached with
  | start initial =>
    obtain ⟨proxyID, proxy, -, stored, rfl⟩ := initial
    refine ⟨by simp [stored], fun key ref found => ?_, fun _ _ => nofun⟩
    simp [stored] at found
  | next before step ih => exact perform_consistent ih step.2

theorem kept_reachable (reached : (runs Undisturbed).Reachable server) :
    ∀ stopping ∈ server.stops, stopping.Kept server := by
  induction reached with
  | start initial =>
    obtain ⟨proxyID, proxy, -, -, rfl⟩ := initial
    exact fun _ => nofun
  | next before step ih => exact perform_kept (consistent_reachable before) ih step.1 step.2

/-- Once quiet, it stays quiet until somebody starts the proxy again. -/
theorem follows_quiet {later : List ServingAction} (consistent : server.Consistent)
    (quiet : server.Quiet) (follows : Follows (runs Admitted).step server later next)
    (alone : .startProxy ∉ later) : next.Quiet := by
  induction later generalizing server with
  | nil => exact follows ▸ quiet
  | cons action later ih =>
    obtain ⟨mid, step, rest⟩ := follows
    obtain ⟨other, later'⟩ := List.ne_and_not_mem_of_not_mem_cons alone
    refine ih (perform_consistent consistent step.2) (winding_done.mp ?_) rest later'
    exact perform_winding consistent (winding_done.mpr quiet) (fun same => absurd same.symm other)
      step.2

/-- The proxy can come to be started, or a session of it active, with nobody starting it again. -/
def Stirs (server : ServedProxy) : Prop :=
  ∃ later next, Follows (runs fun _ _ => True).step server later next ∧ .startProxy ∉ later ∧ ¬ next.Stopped

theorem stirs_now (unstopped : ¬ server.Stopped) : server.Stirs :=
  ⟨[], server, rfl, List.not_mem_nil, unstopped⟩

variable {index : Nat} {starting starting' : Starting} {event : StartEvent}

/-- What a start can do next, and what follows from there. -/
theorem stirs_start (alive : server.crashed = false) (stands : server.starts[index]? = some starting)
    (ran : server.runStart starting event = some (.ok (starting', next)))
    (stirs : Stirs { next with starts := server.starts.set index starting' }) : server.Stirs := by
  obtain ⟨later, last, follows, others, unstopped⟩ := stirs
  refine ⟨.start index event :: later, last, ⟨_, ?_, follows⟩, ?_, unstopped⟩
  · exact ⟨trivial, by simp [perform, alive, stands, ran, settle]⟩
  · simpa using others

theorem stirs_listening (alive : server.crashed = false)
    (stands : server.starts[index]? = some .listening) (can : server.proxy.CanListen) :
    server.Stirs := by
  obtain ⟨logger, logs⟩ := Option.ne_none_iff_exists'.mp can.1
  obtain ⟨key, keyed⟩ := Option.ne_none_iff_exists'.mp can.2
  have ran : server.runStart .listening (.listened none) =
      some (.ok (.storing server.listeners.length,
        { server with listeners := server.listeners ++ [.accepting] })) := by
    simp only [runStart, logs, keyed, deref_some, bind, Except.bind]
    rfl
  refine stirs_start alive stands ran (stirs_now fun stopped => ?_)
  have closed := stopped.closed .accepting (List.mem_append_right _ (List.mem_singleton_self _))
  contradiction

theorem stirs_launching (alive : server.crashed = false)
    (stands : server.starts[index]? = some .launching) (can : server.proxy.CanListen) :
    server.Stirs := by
  have ran : server.runStart .launching .goOn = some (.ok (.listening, server)) := rfl
  have after : (server.starts.set index .listening)[index]? = some .listening :=
    List.getElem?_set_self (List.getElem?_eq_some_iff.mp stands).1
  exact stirs_start alive stands ran (stirs_listening alive after can)

theorem stirs_handshaking {listener : ListenerRef} {sessKey : Bytes}
    (consistent : server.Consistent) (alive : server.crashed = false)
    (stands : server.starts[index]? = some (.handshaking listener sessKey))
    (admits : server.proxy.Admits) : server.Stirs := by
  obtain ⟨logs, username, password, user, authenticated⟩ := admits
  obtain ⟨logger, logs⟩ := Option.ne_none_iff_exists'.mp logs
  obtain ⟨ref, found⟩ := Option.ne_none_iff_exists'.mp
    (consistent.known listener sessKey (List.mem_of_getElem? stands))
  let entered := ProxyContext.loggedIn (server.sessions.session ref) sessKey username password user 0
  have ran : server.runStart (.handshaking listener sessKey) (.password username password 0) =
      some (.ok (.handing listener, { server with sessions := server.sessions.set ref entered })) := by
    simp only [runStart, ProxyContext.passwordCallback, logs, authenticated, found, deref_some, bind,
      Except.bind]
    rfl
  refine stirs_start alive stands ran (stirs_now fun stopped => stopped.inactive ref ?_)
  unfold Active
  dsimp only
  rw [session_set, if_pos ⟨rfl, consistent.valid sessKey ref found⟩]
  rfl

theorem stirs_registering {listener : ListenerRef} {sessKey clientHost : Bytes}
    (consistent : server.Consistent) (alive : server.crashed = false)
    (stands : server.starts[index]? = some (.registering listener sessKey clientHost))
    (admits : server.proxy.Admits) : server.Stirs := by
  obtain ⟨_, accepted, allSessions, rfl, -⟩ :=
    ProxyContext.acceptConnection_returns consistent.made server.sessions sessKey clientHost
  have ran : server.runStart (.registering listener sessKey clientHost) .goOn =
      some (.ok (.handshaking listener sessKey, { server with
        proxy := { server.proxy with allSessions }
        sessions := server.sessions ++ [{ clientHost := clientHost }] })) := by
    simp only [runStart, accepted, bind, Except.bind]
    rfl
  have after : (server.starts.set index (.handshaking listener sessKey))[index]? =
      some (.handshaking listener sessKey) :=
    List.getElem?_set_self (List.getElem?_eq_some_iff.mp stands).1
  exact stirs_start alive stands ran (stirs_handshaking
    ((runStart_step ran).consistent consistent stands) alive after admits)

/-- Whatever is not quiet can stir. -/
theorem stirs_of_not_quiet (consistent : server.Consistent) (alive : server.crashed = false)
    (loud : ¬ server.Quiet) : server.Stirs := by
  by_contra still
  refine loud ⟨?_, fun starting member pending => still ?_⟩
  · by_contra unstopped
    exact still (stirs_now unstopped)
  · obtain ⟨index, stands⟩ := List.mem_iff_getElem?.mp member
    cases starting with
    | getting =>
      obtain ⟨free, there, can⟩ := pending
      have ran : server.runStart .getting .goOn = some (.ok (.launching, server)) := by
        simp [runStart, free, there]
      have after : (server.starts.set index .launching)[index]? = some .launching :=
        List.getElem?_set_self (List.getElem?_eq_some_iff.mp stands).1
      exact stirs_start alive stands ran (stirs_launching alive after can)
    | launching => exact stirs_launching alive stands pending
    | listening => exact stirs_listening alive stands pending
    | registering listener sessKey clientHost =>
      rcases pending with admits | ⟨_, _, session, _, active⟩
      · exact stirs_registering consistent alive stands admits
      · exact stirs_now fun stopped => stopped.inactive session active
    | handshaking listener sessKey => exact stirs_handshaking consistent alive stands pending
    | storing listener => exact pending.elim
    | activating listener => exact pending.elim
    | testing listener => exact pending.elim
    | accepting listener => exact pending.elim
    | handing listener => exact pending.elim
    | done => exact pending.elim

/-- When a stop returns. -/
theorem returns_same {index : Nat} {stopped : ServedProxy}
    (returning : server.stops[index]? = some (.returning none))
    (returns : server.perform (.stop index .goOn) = some stopped) : server.crashed = false ∧
      stopped = { server with stops := server.stops.set index (.returned none) } := by
  unfold perform at returns
  split at returns
  · contradiction
  · next alive =>
    simp only [returning] at returns
    exact ⟨Bool.eq_false_iff.mpr alive, (Option.some.inj returns).symm⟩

theorem quiet_returned {stops : List Stopping} :
    Quiet { server with stops } ↔ server.Quiet := by
  have same (starting : Starting) :
      starting.Pending { server with stops } ↔ starting.Pending server := by
    cases starting <;> rfl
  exact ⟨fun quiet => ⟨⟨quiet.closed, quiet.inactive⟩, fun starting member pending =>
    quiet.idle starting member ((same starting).mpr pending)⟩,
    fun quiet => ⟨⟨quiet.closed, quiet.inactive⟩, fun starting member pending =>
    quiet.idle starting member ((same starting).mp pending)⟩⟩

/-- From when a stop has returned, the proxy stays as it is until somebody starts it again, if and
only if it returned when all was quiet. -/
theorem returned_stays_iff {stopped : ServedProxy} {index : Nat}
    (reached : (runs fun _ _ => True).Reachable server)
    (returning : server.stops[index]? = some (.returning none))
    (returns : server.perform (.stop index .goOn) = some stopped) :
    (∀ later next, Follows (runs fun _ _ => True).step stopped later next → .startProxy ∉ later →
      next.Stopped) ↔ server.Quiet := by
  obtain ⟨alive, rfl⟩ := returns_same returning returns
  have consistent := consistent_reachable (reached.next ⟨trivial, returns⟩)
  constructor
  · intro stays
    by_contra loud
    obtain ⟨later, next, follows, alone, unstopped⟩ :=
      stirs_of_not_quiet consistent alive fun quiet => loud (quiet_returned.mp quiet)
    exact unstopped (stays later next follows alone)
  · intro quiet later next follows alone
    exact (follows_quiet consistent (quiet_returned.mpr quiet) follows alone).toStopped

/-- Where every stop has what it relies on, and nobody starts the proxy meanwhile, it stays stopped
after each of them until somebody starts it again. -/
theorem undisturbed_stays_stopped {stopped next : ServedProxy} {index : Nat}
    {later : List ServingAction} (reached : (runs Undisturbed).Reachable server)
    (returning : server.stops[index]? = some (.returning none))
    (returns : server.perform (.stop index .goOn) = some stopped)
    (follows : Follows (runs fun _ _ => True).step stopped later next)
    (alone : .startProxy ∉ later) : next.Stopped := by
  obtain ⟨-, rfl⟩ := returns_same returning returns
  have kept := kept_reachable reached _ (List.mem_of_getElem? returning)
  have quiet : server.Quiet := winding_done.mp kept
  have consistent := perform_consistent (consistent_reachable reached) returns
  exact (follows_quiet consistent (quiet_returned.mpr quiet) follows alone).toStopped

/-- A proxy that was just made. -/
def freshProxy : ServedProxy := { proxyID := 0, proxy := makeNewProxy (some 0) }

theorem freshProxy_reachable {Admitted : ServedProxy → ServingAction → Prop} :
    (runs Admitted).Reachable freshProxy :=
  .start ⟨0, makeNewProxy (some 0), rfl, rfl, rfl⟩

/-- Whether a start has nobody on the way in, and cannot come to listen any more. -/
def calm : Starting → Bool
  | .getting | .launching | .listening | .registering .. | .handshaking .. => false
  | _ => true

theorem calm_idle {starting : Starting} (calms : calm starting = true) :
    ¬ starting.Pending server := by
  cases starting with
  | getting | launching | listening | registering | handshaking => contradiction
  | storing | activating | testing | accepting | handing | done => exact id

/-- Whether a stop may close the listener now. -/
def settledNow (server : ServedProxy) : Bool :=
  (List.range server.listeners.length).all (fun listener =>
      !server.opened listener || server.listener == some listener) &&
    (server.starts.all calm && (List.range server.sessions.length).all fun session =>
      !(server.sessions.session session).active ||
        decide (∃ key ∈ server.proxy.allSessions.content.keys,
          server.proxy.allSessions.find key = some session))

theorem settled_of_now (settles : server.settledNow = true) : server.Settled := by
  unfold settledNow at settles
  simp only [Bool.and_eq_true, List.all_eq_true, List.mem_range, Bool.or_eq_true,
    Bool.not_eq_true', beq_iff_eq, decide_eq_true_eq] at settles
  obtain ⟨only, idle, tabled⟩ := settles
  refine ⟨fun listener opened => ?_, fun starting member => calm_idle (idle starting member),
    fun session active => ?_⟩
  · have within : listener < server.listeners.length := by
      by_contra beyond
      rw [ServedProxy.opened, List.getElem?_eq_none (Nat.le_of_not_lt beyond)] at opened
      contradiction
    exact (only listener within).resolve_left fun closed =>
      Bool.false_ne_true (closed.symm.trans opened)
  · have within : session < server.sessions.length := by
      by_contra beyond
      rw [Active, SessionHeap.session, List.getD_eq_getElem?_getD,
        List.getElem?_eq_none (Nat.le_of_not_lt beyond)] at active
      exact Bool.false_ne_true active
    obtain ⟨key, -, found⟩ := (tabled session within).resolve_left fun inactive =>
      Bool.false_ne_true (inactive.symm.trans active)
    exact ⟨key, found⟩

/-- Whether a step meets the condition, for all that is needed here. -/
def admitted (server : ServedProxy) : ServingAction → Bool
  | .startProxy => server.stops.isEmpty
  | .stop index _ =>
      match server.stops[index]? with
      | some .checking => false
      | some (.closing _) => server.settledNow
      | _ => true
  | _ => true

theorem undisturbed_of_admitted {action : ServingAction} (admits : server.admitted action = true) :
    server.Undisturbed action := by
  cases action with
  | startProxy =>
    rintro ⟨stopping, member, -⟩
    rw [List.isEmpty_iff.mp admits] at member
    contradiction
  | stop index event =>
    intro stopping stands
    simp only [admitted, stands] at admits
    cases stopping with
    | checking => contradiction
    | closing destroys => exact settled_of_now admits
    | getting | locking | deactivating | ranging | ending | deleting | returning | returned =>
      trivial
  | stopProxy | destroyProxy | start | sessionEnds => trivial

/-- A proxy comes to listen, and a client logs in; then it is stopped, up to the return. -/
def servedActions : List ServingAction :=
  [.startProxy, .start 0 .goOn, .start 0 .goOn, .start 0 (.listened none), .start 0 .goOn,
    .start 0 .goOn, .start 0 .goOn,
    .start 0 (.accepted (some (lit "10.0.0.7:50000", lit "10.0.0.7"))), .start 0 .goOn,
    .start 0 (.password (lit "a") (lit "b") 5000000000), .start 0 .goOn, .start 0 .goOn,
    .stopProxy, .stop 0 .goOn, .stop 0 .goOn, .stop 0 .goOn, .stop 0 .goOn,
    .stop 0 (.visited (lit "10.0.0.7:50000") 9000000000), .stop 0 .goOn]

/-- Whether the one stop is about to return, after it has ended the one session. -/
def stopReturns (server : ServedProxy) : Bool :=
  match server.stops with
  | [.returning none] => !server.crashed &&
      server.sessions.map (fun session => (session.active, session.stopTime)) ==
        [(false, 9000000000)]
  | _ => false

/-- A proxy that serves a client is stopped. -/
theorem undisturbed_stays_stopped_serving : ∃ server stopped : ServedProxy,
    (runs Undisturbed).Reachable server ∧ server.stopReturns = true ∧
    server.perform (.stop 0 .goOn) = some stopped ∧
    ∀ later next, Follows (runs fun _ _ => True).step stopped later next → .startProxy ∉ later →
      next.Stopped := by
  have steps : ∀ server action next, admitted server action = true →
      server.perform action = some next → (runs Undisturbed).step server action next :=
    fun _ _ _ admits done => ⟨undisturbed_of_admitted admits, done⟩
  obtain ⟨server, reached, returns⟩ := reachable_of_runAll admitted servedActions stopReturns steps
    freshProxy_reachable (by decide +kernel)
  have same := returns
  unfold stopReturns at same
  split at same
  · next stops =>
    rw [Bool.and_eq_true, Bool.not_eq_true'] at same
    have stands : server.stops[0]? = some (.returning none) := by rw [stops]; rfl
    have performed : server.perform (.stop 0 .goOn) =
        some { server with stops := server.stops.set 0 (.returned none) } := by
      rw [perform, if_neg (by rw [same.1]; exact Bool.false_ne_true)]
      simp only [stands]
      rfl
    exact ⟨server, _, reached, returns, performed, fun later next follows alone =>
      undisturbed_stays_stopped reached stands performed follows alone⟩
  · contradiction

/-- A proxy is destroyed before the goroutine that starts it has come to listen. -/
theorem destroyed_listens : ∃ stopped later next,
    (runs fun _ _ => True).Reachable stopped ∧ stopped.stops = [.returned none] ∧
    Follows (runs fun _ _ => True).step stopped later next ∧ .startProxy ∉ later ∧
    next.listeners = [.accepting] := by
  have destroyed : Follows (runs fun _ _ => True).step freshProxy
      [.startProxy, .start 0 .goOn, .destroyProxy, .stop 0 .goOn, .stop 0 .goOn, .stop 0 .goOn,
        .stop 0 .goOn] _ :=
    ⟨_, ⟨trivial, rfl⟩, _, ⟨trivial, rfl⟩, _, ⟨trivial, rfl⟩, _, ⟨trivial, rfl⟩, _,
      ⟨trivial, rfl⟩, _, ⟨trivial, rfl⟩, _, ⟨trivial, rfl⟩, rfl⟩
  refine ⟨_, [.start 0 .goOn, .start 0 (.listened none)], _,
    freshProxy_reachable.follows destroyed, rfl, ⟨_, ⟨trivial, rfl⟩, _, ⟨trivial, rfl⟩, rfl⟩, ?_, rfl⟩
  simp

end ServedProxy
end SSHProxyPlus
