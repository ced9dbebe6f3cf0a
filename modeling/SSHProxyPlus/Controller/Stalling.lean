import Mathlib.Logic.Relation
import SSHProxyPlus.Go.Map
import SSHProxyPlus.Session.Locking
import SSHProxyPlus.Transition.Sequential

/-! A controller over its proxies' sessions: who waits for whom, and when nobody waits for a viewer
that waits for its client, so that whoever waits does so for one that goes on. -/
namespace SSHProxyPlus
open Go Transition

/-- What is next in an operation of the controller. -/
inductive ControllerCall where
  /-- A call of `GetProxy`, with which `StopProxy` begins as well. -/
  | getting (proxyID : UInt64) (stops : Bool)
  /-- A call of `DestroyProxy`. -/
  | locking (proxyID : UInt64)
  | checking (proxyID : UInt64) (proxy : Nat)
  /-- In the loop of `Stop`, which a `DestroyProxy` has called or not. -/
  | ranging (proxy : Nat) (destroys : Option UInt64)
  /-- In a call of `End`, which is a thread of the session. -/
  | ending (proxy session thread : Nat) (destroys : Option UInt64)
  | deleting (proxyID : UInt64)
  | returned

structure HostedProxy where
  running : Bool := false
  sessions : List LiveSession := []

/-- All proxies that have been added, and where the controller's table has those that it still
knows. -/
structure HostingController where
  proxies : List HostedProxy := []
  table : GoMap UInt64 Nat := ∅
  locked : Bool := false
  calls : List ControllerCall := []

inductive HostingAction where
  | addExistingProxy (proxyID : UInt64)
  | startProxy (proxy : Nat)
  | logIn (proxy : Nat) (sessionFolder : Bytes) (session : SessionContext) (files : Files)
      (connected : Option ConnectedClient)
  | session (proxy session : Nat) (action : LiveAction)
  | getProxy (proxyID : UInt64)
  | stopProxy (proxyID : UInt64)
  | destroyProxy (proxyID : UInt64)
  | goOn (call : Nat) (visited : Option Nat)

namespace HostingController

def sessionAt (hosting : HostingController) (proxy session : Nat) : Option LiveSession := do
  let hosted ← hosting.proxies[proxy]?
  hosted.sessions[session]?

def setSession (hosting : HostingController) (proxy session : Nat) (live : LiveSession) :
    HostingController :=
  { hosting with proxies := hosting.proxies.modify proxy fun hosted =>
      { hosted with sessions := hosted.sessions.set session live } }

def setRunning (hosting : HostingController) (proxy : Nat) (running : Bool) : HostingController :=
  { hosting with proxies := hosting.proxies.modify proxy fun hosted => { hosted with running } }

/-- The next step of a call. The map of sessions changes under the loop of `Stop`, so nothing is
assumed about which sessions it visits, or how often. -/
def goOn (hosting : HostingController) (visited : Option Nat) :
    ControllerCall → Option (ControllerCall × HostingController)
  | .getting proxyID stops =>
      if hosting.locked then none
      else match hosting.table.lookup proxyID with
        | some proxy =>
            if stops then some (.ranging proxy none, hosting.setRunning proxy false)
            else some (.returned, hosting)
        | none => some (.returned, hosting)
  | .locking proxyID =>
      if hosting.locked then none
      else match hosting.table.lookup proxyID with
        | some proxy => some (.checking proxyID proxy, { hosting with locked := true })
        | none => some (.returned, hosting)
  | .checking proxyID proxy => do
      let hosted ← hosting.proxies[proxy]?
      if hosted.running then
        return (.ranging proxy (some proxyID), hosting.setRunning proxy false)
      else return (.deleting proxyID, hosting)
  | .ranging proxy destroys =>
      match visited, destroys with
      | some session, destroys => do
          let live ← hosting.sessionAt proxy session
          let stopped ← live.perform .stop
          return (.ending proxy session live.threads.length destroys,
            hosting.setSession proxy session stopped)
      | none, some proxyID => some (.deleting proxyID, hosting)
      | none, none => some (.returned, hosting)
  | .ending proxy session thread destroys => do
      let live ← hosting.sessionAt proxy session
      match live.threads[thread]? with
      | some [] => return (.ranging proxy destroys, hosting)
      | _ => none
  | .deleting proxyID =>
      some (.returned, { hosting with table := hosting.table.erase proxyID, locked := false })
  | .returned => none

def perform (hosting : HostingController) : HostingAction → Option HostingController
  | .addExistingProxy proxyID =>
      if hosting.locked then none
      else some { hosting with
        proxies := hosting.proxies ++ [{}]
        table := hosting.table.insert proxyID hosting.proxies.length }
  | .startProxy proxy => some (hosting.setRunning proxy true)
  | .logIn proxy sessionFolder session files connected =>
      if session.active ∧ session.events.isEmpty then
        some { hosting with proxies := hosting.proxies.modify proxy fun hosted =>
          { hosted with sessions :=
              hosted.sessions ++ [.loggedIn sessionFolder session files connected] } }
      else none
  | .session proxy session action => do
      let live ← hosting.sessionAt proxy session
      let next ← live.perform action
      return hosting.setSession proxy session next
  | .getProxy proxyID => some { hosting with calls := hosting.calls ++ [.getting proxyID false] }
  | .stopProxy proxyID => some { hosting with calls := hosting.calls ++ [.getting proxyID true] }
  | .destroyProxy proxyID => some { hosting with calls := hosting.calls ++ [.locking proxyID] }
  | .goOn index visited => do
      let call ← hosting.calls[index]?
      let (call, next) ← hosting.goOn visited call
      return { next with calls := hosting.calls.set index call }

/-- The runs of a controller without proxies in which every step is `Admitted`. -/
def runs (Admitted : HostingController → HostingAction → Prop) :
    System HostingController HostingAction where
  init hosting := hosting = {}
  step hosting action next := Admitted hosting action ∧ hosting.perform action = some next

end HostingController

/-- Who may have to wait: a thread of a session, or an operation of the controller. -/
inductive Waiter where
  | thread (proxy session thread : Nat)
  | call (index : Nat)

namespace ControllerCall

/-- About to take the controller's mutex. -/
def atLock : ControllerCall → Bool
  | .getting _ _ | .locking _ => true
  | _ => false

/-- A `DestroyProxy` holds the controller's mutex until it has deleted the proxy. -/
def holds : ControllerCall → Bool
  | .checking _ _ | .deleting _ => true
  | .ranging _ destroys | .ending _ _ _ destroys => destroys.isSome
  | _ => false

end ControllerCall

namespace HostingController
open LiveSession

/-- For a lock that another holds, or for a call that is a thread of a session. -/
inductive WaitsFor (hosting : HostingController) : Waiter → Waiter → Prop where
  | sessionMutex {proxy session i j : Nat} {live : LiveSession} {statement : Statement}
      {rest other : List Statement} (here : hosting.sessionAt proxy session = some live)
      (locked : live.locked = true) (stands : live.threads[i]? = some (statement :: rest))
      (waits : statement.atLock = true) (there : live.threads[j]? = some other)
      (holds : .unlock ∈ other) :
      WaitsFor hosting (.thread proxy session i) (.thread proxy session j)
  | controllerMutex {i j : Nat} {call other : ControllerCall} (locked : hosting.locked = true)
      (stands : hosting.calls[i]? = some call) (waits : call.atLock = true)
      (there : hosting.calls[j]? = some other) (holds : other.holds = true) :
      WaitsFor hosting (.call i) (.call j)
  | endOfSession {i proxy session thread : Nat} {destroys : Option UInt64}
      (stands : hosting.calls[i]? = some (.ending proxy session thread destroys)) :
      WaitsFor hosting (.call i) (.thread proxy session thread)

/-- A thread that waits for a viewer that waits for its client. -/
def Awaits (hosting : HostingController) (waiter : Waiter) : Prop :=
  ∃ proxy session thread live, waiter = .thread proxy session thread ∧
    hosting.sessionAt proxy session = some live ∧ live.Awaits thread

/-- Waits for such a viewer, itself or through those it waits for. -/
def Stalled (hosting : HostingController) (waiter : Waiter) : Prop :=
  ∃ other, Relation.ReflTransGen hosting.WaitsFor waiter other ∧ hosting.Awaits other

/-- No session is hurried. -/
def Unhurried (hosting : HostingController) : HostingAction → Prop
  | .session proxy session action =>
      ∀ live, hosting.sessionAt proxy session = some live → live.Unhurried action
  | _ => True

/-- There is something left to do. -/
def Unfinished (hosting : HostingController) : Waiter → Prop
  | .thread proxy session i => ∃ live statement rest,
      hosting.sessionAt proxy session = some live ∧ live.threads[i]? = some (statement :: rest)
  | .call i => ∃ call, hosting.calls[i]? = some call ∧ call ≠ .returned

/-- The next step can be taken now. -/
def GoesOn (hosting : HostingController) : Waiter → Prop
  | .thread proxy session i => ∀ now, ∃ next,
      hosting.perform (.session proxy session (.run i now)) = some next
  | .call i => ∃ visited next, hosting.perform (.goOn i visited) = some next

variable {hosting next : HostingController} {action : HostingAction}

def EachSession (hosting : HostingController) (P : LiveSession → Prop) : Prop :=
  ∀ hosted ∈ hosting.proxies, ∀ live ∈ hosted.sessions, P live

theorem EachSession.at {P : LiveSession → Prop} (each : hosting.EachSession P) {proxy session : Nat}
    {live : LiveSession} (here : hosting.sessionAt proxy session = some live) : P live := by
  unfold sessionAt at here
  obtain ⟨hosted, there, inside⟩ := Option.bind_eq_some_iff.mp here
  exact each hosted (List.mem_of_getElem? there) live (List.mem_of_getElem? inside)

/-- A change to one proxy that is right for its sessions. -/
theorem EachSession.modify {P : LiveSession → Prop} (each : hosting.EachSession P) {proxy : Nat}
    {change : HostedProxy → HostedProxy}
    (changed : ∀ hosted, (∀ live ∈ hosted.sessions, P live) →
      ∀ live ∈ (change hosted).sessions, P live) :
    EachSession { hosting with proxies := hosting.proxies.modify proxy change } P := by
  intro hosted member
  obtain ⟨i, inside, rfl⟩ := List.mem_iff_getElem.mp member
  rw [List.getElem_modify]
  split
  · exact changed _ (each _ (List.getElem_mem _))
  · exact each _ (List.getElem_mem _)

theorem EachSession.setSession {P : LiveSession → Prop} (each : hosting.EachSession P)
    {proxy session : Nat} {live : LiveSession} (holds : P live) :
    (hosting.setSession proxy session live).EachSession P := by
  exact each.modify fun _ all => each_set all holds

theorem EachSession.setRunning {P : LiveSession → Prop} (each : hosting.EachSession P)
    (proxy : Nat) (running : Bool) : (hosting.setRunning proxy running).EachSession P :=
  each.modify fun _ all => all

/-- A call of the controller does nothing to a session but end it. -/
theorem EachSession.goOn {P : LiveSession → Prop} (each : hosting.EachSession P)
    (stops : ∀ live stopped, P live → live.perform .stop = some stopped → P stopped)
    {visited : Option Nat} {call moved : ControllerCall}
    (went : hosting.goOn visited call = some (moved, next)) : next.EachSession P := by
  cases call with
  | getting proxyID stopping =>
    obtain ⟨-, went⟩ := Option.ite_none_left_eq_some.mp went
    split at went
    · split at went
      · obtain ⟨-, rfl⟩ := went
        exact each.setRunning _ false
      · obtain ⟨-, rfl⟩ := went
        exact each
    · obtain ⟨-, rfl⟩ := went
      exact each
  | locking proxyID =>
    obtain ⟨-, went⟩ := Option.ite_none_left_eq_some.mp went
    split at went
    · obtain ⟨-, rfl⟩ := went
      exact each
    · obtain ⟨-, rfl⟩ := went
      exact each
  | checking proxyID proxy =>
    obtain ⟨hosted, -, went⟩ := Option.bind_eq_some_iff.mp went
    split at went
    · obtain ⟨-, rfl⟩ := went
      exact each.setRunning proxy false
    · obtain ⟨-, rfl⟩ := went
      exact each
  | ranging proxy destroys =>
    simp only [HostingController.goOn] at went
    split at went
    · obtain ⟨live, here, went⟩ := Option.bind_eq_some_iff.mp went
      obtain ⟨stopped, ended, went⟩ := Option.bind_eq_some_iff.mp went
      obtain ⟨-, rfl⟩ := went
      exact each.setSession (stops live stopped (each.at here) ended)
    · obtain ⟨-, rfl⟩ := went
      exact each
    · obtain ⟨-, rfl⟩ := went
      exact each
  | ending proxy session thread destroys =>
    obtain ⟨live, -, went⟩ := Option.bind_eq_some_iff.mp went
    split at went
    · obtain ⟨-, rfl⟩ := went
      exact each
    · contradiction
  | deleting proxyID =>
    obtain ⟨-, rfl⟩ := went
    exact each
  | returned => contradiction

theorem sessionAt_setSession {proxy session : Nat} {live : LiveSession}
    (here : hosting.sessionAt proxy session = some live) (moved : LiveSession) :
    (hosting.setSession proxy session moved).sessionAt proxy session = some moved := by
  obtain ⟨hosted, there, inside⟩ := Option.bind_eq_some_iff.mp here
  simp only [sessionAt, HostingController.setSession, Option.bind_eq_bind]
  rw [List.getElem?_modify_eq, there]
  exact List.getElem?_set_self (List.getElem?_eq_some_iff.mp inside).1

/-- What each session has when it begins and keeps with every step, each session always has. -/
theorem EachSession.perform {P : LiveSession → Prop} (each : hosting.EachSession P)
    (begins : ∀ sessionFolder session files connected,
      P (.loggedIn sessionFolder session files connected))
    (stops : ∀ live stopped, P live → live.perform .stop = some stopped → P stopped)
    (acts : ∀ proxy session act live moved, action = .session proxy session act →
      hosting.sessionAt proxy session = some live → P live → live.perform act = some moved → P moved)
    (performed : hosting.perform action = some next) : next.EachSession P := by
  cases action with
  | addExistingProxy proxyID =>
    obtain ⟨-, same⟩ := Option.ite_none_left_eq_some.mp performed
    obtain rfl := Option.some.inj same
    exact List.forall_mem_append.mpr ⟨each, List.forall_mem_singleton.mpr fun _ none => nomatch none⟩
  | startProxy proxy => exact Option.some.inj performed ▸ each.setRunning proxy true
  | logIn proxy sessionFolder session files connected =>
    obtain ⟨-, same⟩ := Option.ite_none_right_eq_some.mp performed
    obtain rfl := Option.some.inj same
    exact each.modify fun hosted all => List.forall_mem_append.mpr
      ⟨all, List.forall_mem_singleton.mpr (begins sessionFolder session files connected)⟩
  | session proxy session act =>
    obtain ⟨live, here, performed⟩ := Option.bind_eq_some_iff.mp performed
    obtain ⟨moved, acted, same⟩ := Option.bind_eq_some_iff.mp performed
    obtain rfl := Option.some.inj same
    exact each.setSession (acts proxy session act live moved rfl here (each.at here) acted)
  | getProxy proxyID => exact Option.some.inj performed ▸ each
  | stopProxy proxyID => exact Option.some.inj performed ▸ each
  | destroyProxy proxyID => exact Option.some.inj performed ▸ each
  | goOn index visited =>
    obtain ⟨call, -, performed⟩ := Option.bind_eq_some_iff.mp performed
    obtain ⟨⟨moved, changed⟩, went, same⟩ := Option.bind_eq_some_iff.mp performed
    have kept : changed.EachSession P := each.goOn stops went
    obtain rfl := Option.some.inj same
    exact kept

/-- What a call refers to is there. -/
def Sound (hosting : HostingController) : ControllerCall → Prop
  | .checking _ proxy => proxy < hosting.proxies.length
  | .ending proxy session thread _ => ∃ live,
      hosting.sessionAt proxy session = some live ∧ thread < live.threads.length
  | _ => True

structure Attached (hosting : HostingController) : Prop where
  table : ∀ proxyID proxy, hosting.table.lookup proxyID = some proxy → proxy < hosting.proxies.length
  calls : ∀ call ∈ hosting.calls, hosting.Sound call
  held : hosting.locked = true → ∃ call ∈ hosting.calls, call.holds = true

/-- Proxies and sessions stay, and threads that have been started do. -/
structure Grown (hosting next : HostingController) : Prop where
  proxies : hosting.proxies.length ≤ next.proxies.length
  sessions : ∀ proxy session live, hosting.sessionAt proxy session = some live →
    ∃ grown, next.sessionAt proxy session = some grown ∧ live.threads.length ≤ grown.threads.length

theorem Grown.same (same : next.proxies = hosting.proxies) : Grown hosting next := by
  refine ⟨Nat.le_of_eq (congrArg _ same.symm), fun proxy session live here => ⟨live, ?_, le_rfl⟩⟩
  unfold sessionAt at here ⊢
  rwa [same]

theorem Grown.modify {proxy : Nat} {change : HostedProxy → HostedProxy}
    (same : next.proxies = hosting.proxies.modify proxy change)
    (kept : ∀ hosted (session : Nat) live, hosting.proxies[proxy]? = some hosted →
      hosted.sessions[session]? = some live → ∃ grown : LiveSession,
        (change hosted).sessions[session]? = some grown ∧
          live.threads.length ≤ grown.threads.length) : Grown hosting next := by
  refine ⟨by rw [same, List.length_modify], fun other session live here => ?_⟩
  obtain ⟨hosted, there, inside⟩ := Option.bind_eq_some_iff.mp here
  by_cases own : proxy = other
  · subst own
    obtain ⟨grown, still, longer⟩ := kept hosted session live there inside
    refine ⟨grown, ?_, longer⟩
    simp only [sessionAt, Option.bind_eq_bind]
    rw [same, List.getElem?_modify_eq, there]
    exact still
  · refine ⟨live, ?_, le_rfl⟩
    simp only [sessionAt, Option.bind_eq_bind]
    rw [same, List.getElem?_modify_ne _ _ own, there]
    exact inside

theorem Grown.setRunning (hosting : HostingController) (proxy : Nat) (running : Bool) :
    Grown hosting (hosting.setRunning proxy running) :=
  .modify rfl fun _ _ live _ inside => ⟨live, inside, le_rfl⟩

theorem Grown.setSession {proxy session : Nat} {live moved : LiveSession}
    (here : hosting.sessionAt proxy session = some live)
    (longer : live.threads.length ≤ moved.threads.length) :
    Grown hosting (hosting.setSession proxy session moved) := by
  refine .modify rfl fun hosted other live' there inside => ?_
  by_cases own : session = other
  · subst own
    have same : some live' = some live := by
      rw [← inside, ← here, sessionAt, there]
      rfl
    obtain rfl := Option.some.inj same
    exact ⟨moved, List.getElem?_set_self (List.getElem?_eq_some_iff.mp inside).1, longer⟩
  · exact ⟨live', by rw [List.getElem?_set_ne own, inside], le_rfl⟩

theorem Sound.grown {call : ControllerCall} (sound : hosting.Sound call)
    (grown : Grown hosting next) : next.Sound call := by
  cases call with
  | checking => exact Nat.lt_of_lt_of_le sound grown.proxies
  | ending =>
    obtain ⟨live, here, inside⟩ := sound
    obtain ⟨later, there, longer⟩ := grown.sessions _ _ live here
    exact ⟨later, there, Nat.lt_of_lt_of_le inside longer⟩
  | _ => trivial

/-- What a call does to the controller, and where it comes to. -/
structure Went (hosting changed : HostingController) (call moved : ControllerCall) : Prop where
  grown : Grown hosting changed
  table : ∀ proxyID proxy,
    changed.table.lookup proxyID = some proxy → hosting.table.lookup proxyID = some proxy
  sound : changed.Sound moved
  held : changed.locked = true → moved.holds = true ∨ hosting.locked = true ∧ call.holds = false

theorem Attached.went (attached : hosting.Attached) {visited : Option Nat}
    {call moved : ControllerCall} (sound : hosting.Sound call)
    (went : hosting.goOn visited call = some (moved, next)) : Went hosting next call moved := by
  cases call with
  | getting proxyID stops =>
    obtain ⟨free, went⟩ := Option.ite_none_left_eq_some.mp went
    split at went
    · split at went
      · obtain ⟨rfl, rfl⟩ := went
        exact ⟨.setRunning hosting _ false, fun _ _ => id, trivial, fun locked => absurd locked free⟩
      · obtain ⟨rfl, rfl⟩ := went
        exact ⟨.same rfl, fun _ _ => id, trivial, fun locked => absurd locked free⟩
    · obtain ⟨rfl, rfl⟩ := went
      exact ⟨.same rfl, fun _ _ => id, trivial, fun locked => absurd locked free⟩
  | locking proxyID =>
    obtain ⟨free, went⟩ := Option.ite_none_left_eq_some.mp went
    split at went
    · next proxy found =>
      obtain ⟨rfl, rfl⟩ := went
      exact ⟨.same rfl, fun _ _ => id, attached.table proxyID proxy found, fun _ => .inl rfl⟩
    · obtain ⟨rfl, rfl⟩ := went
      exact ⟨.same rfl, fun _ _ => id, trivial, fun locked => absurd locked free⟩
  | checking proxyID proxy =>
    obtain ⟨hosted, -, went⟩ := Option.bind_eq_some_iff.mp went
    split at went
    · obtain ⟨rfl, rfl⟩ := went
      exact ⟨.setRunning hosting _ false, fun _ _ => id, trivial, fun _ => .inl rfl⟩
    · obtain ⟨rfl, rfl⟩ := went
      exact ⟨.same rfl, fun _ _ => id, trivial, fun _ => .inl rfl⟩
  | ranging proxy destroys =>
    simp only [HostingController.goOn] at went
    split at went
    · next session =>
      obtain ⟨live, here, went⟩ := Option.bind_eq_some_iff.mp went
      obtain ⟨stopped, ended, went⟩ := Option.bind_eq_some_iff.mp went
      obtain ⟨rfl, rfl⟩ := went
      obtain rfl := Option.some.inj ended
      have longer : live.threads.length < (live.threads ++ [[Statement.endSession]]).length := by simp
      refine ⟨.setSession here (Nat.le_of_lt longer), fun _ _ => id,
        ⟨_, sessionAt_setSession here _, longer⟩, fun locked => ?_⟩
      cases destroys with
      | none => exact .inr ⟨locked, rfl⟩
      | some proxyID => exact .inl rfl
    · obtain ⟨rfl, rfl⟩ := went
      exact ⟨.same rfl, fun _ _ => id, trivial, fun _ => .inl rfl⟩
    · obtain ⟨rfl, rfl⟩ := went
      exact ⟨.same rfl, fun _ _ => id, trivial, fun locked => .inr ⟨locked, rfl⟩⟩
  | ending proxy session thread destroys =>
    obtain ⟨live, -, went⟩ := Option.bind_eq_some_iff.mp went
    split at went
    · obtain ⟨rfl, rfl⟩ := went
      refine ⟨.same rfl, fun _ _ => id, trivial, fun locked => ?_⟩
      cases destroys with
      | none => exact .inr ⟨locked, rfl⟩
      | some proxyID => exact .inl rfl
    · contradiction
  | deleting proxyID =>
    obtain ⟨rfl, rfl⟩ := went
    refine ⟨.same rfl, fun other proxy found => ?_, trivial, nofun⟩
    by_cases own : other = proxyID
    · subst own
      exact nomatch (Finmap.lookup_erase ..).symm.trans found
    · exact (Finmap.lookup_erase_ne own).symm.trans found
  | returned => contradiction

theorem Attached.goOn (attached : hosting.Attached) {index : Nat} {visited : Option Nat}
    {call moved : ControllerCall} (stands : hosting.calls[index]? = some call)
    (went : hosting.goOn visited call = some (moved, next)) :
    Attached { next with calls := hosting.calls.set index moved } := by
  have sound := attached.calls call (List.mem_of_getElem? stands)
  obtain ⟨grown, table, arrived, held⟩ := attached.went sound went
  have all : Grown hosting { next with calls := hosting.calls.set index moved } :=
    ⟨grown.proxies, grown.sessions⟩
  refine ⟨fun proxyID proxy found => ?_, ?_, fun locked => ?_⟩
  · exact Nat.lt_of_lt_of_le (attached.table proxyID proxy (table proxyID proxy found)) grown.proxies
  · exact each_set (fun other member => (attached.calls other member).grown all)
      (arrived.grown (.same rfl))
  · obtain holds | ⟨locked, released⟩ := held locked
    · exact ⟨moved, List.mem_set (List.getElem?_eq_some_iff.mp stands).1 _, holds⟩
    · obtain ⟨other, member, holds⟩ := attached.held locked
      obtain ⟨j, there⟩ := List.getElem?_of_mem member
      have apart : index ≠ j := by
        rintro rfl
        obtain rfl := Option.some.inj (stands.symm.trans there)
        exact nomatch released.symm.trans holds
      exact ⟨other, List.mem_of_getElem? ((List.getElem?_set_ne apart).trans there), holds⟩

/-- What is added leaves the calls as they are. -/
theorem Attached.grows (attached : hosting.Attached) (grown : Grown hosting next)
    (table : ∀ proxyID proxy, next.table.lookup proxyID = some proxy →
      hosting.table.lookup proxyID = some proxy ∨ proxy < next.proxies.length)
    (calls : next.calls = hosting.calls) (locked : next.locked = hosting.locked) : next.Attached := by
  refine ⟨fun proxyID proxy found => ?_, ?_, ?_⟩
  · obtain before | inside := table proxyID proxy found
    · exact Nat.lt_of_lt_of_le (attached.table proxyID proxy before) grown.proxies
    · exact inside
  · exact calls ▸ fun call member => (attached.calls call member).grown grown
  · rw [calls, locked]
    exact attached.held

theorem Attached.calling (attached : hosting.Attached) {call : ControllerCall}
    (sound : hosting.Sound call) : Attached { hosting with calls := hosting.calls ++ [call] } where
  table := attached.table
  calls := List.forall_mem_append.mpr ⟨attached.calls, List.forall_mem_singleton.mpr sound⟩
  held locked := (attached.held locked).imp fun _ ⟨member, holds⟩ =>
    ⟨List.mem_append_left _ member, holds⟩

theorem Attached.perform (attached : hosting.Attached)
    (performed : hosting.perform action = some next) : next.Attached := by
  cases action with
  | addExistingProxy proxyID =>
    obtain ⟨-, same⟩ := Option.ite_none_left_eq_some.mp performed
    obtain rfl := Option.some.inj same
    refine attached.grows ⟨by simp, fun proxy session live here => ⟨live, ?_, le_rfl⟩⟩
      (fun other proxy found => ?_) rfl rfl
    · obtain ⟨hosted, there, inside⟩ := Option.bind_eq_some_iff.mp here
      exact Option.bind_eq_some_iff.mpr ⟨hosted, getElem?_append_kept there, inside⟩
    · by_cases own : other = proxyID
      · subst own
        obtain rfl := Option.some.inj ((Finmap.lookup_insert _).symm.trans found)
        exact .inr (by simp)
      · exact .inl ((Finmap.lookup_insert_of_ne _ own).symm.trans found)
  | startProxy proxy =>
    obtain rfl := Option.some.inj performed
    exact attached.grows (.setRunning hosting proxy true) (fun _ _ => .inl) rfl rfl
  | logIn proxy sessionFolder session files connected =>
    obtain ⟨-, same⟩ := Option.ite_none_right_eq_some.mp performed
    obtain rfl := Option.some.inj same
    exact attached.grows (.modify rfl fun hosted other live _ inside =>
      ⟨live, getElem?_append_kept inside, le_rfl⟩) (fun _ _ => .inl) rfl rfl
  | session proxy session act =>
    obtain ⟨live, here, performed⟩ := Option.bind_eq_some_iff.mp performed
    obtain ⟨moved, acted, same⟩ := Option.bind_eq_some_iff.mp performed
    obtain rfl := Option.some.inj same
    exact attached.grows (.setSession here (LiveSession.perform_threads acted)) (fun _ _ => .inl)
      rfl rfl
  | getProxy proxyID => exact Option.some.inj performed ▸ attached.calling trivial
  | stopProxy proxyID => exact Option.some.inj performed ▸ attached.calling trivial
  | destroyProxy proxyID => exact Option.some.inj performed ▸ attached.calling trivial
  | goOn index visited =>
    obtain ⟨call, stands, performed⟩ := Option.bind_eq_some_iff.mp performed
    obtain ⟨⟨moved, changed⟩, went, same⟩ := Option.bind_eq_some_iff.mp performed
    obtain rfl := Option.some.inj same
    exact attached.goOn stands went

/-- A thread goes on, or waits for the mutex that another has, which goes on. -/
theorem thread_leads (inTurn : hosting.EachSession InTurn) (guarded : hosting.EachSession Guarded)
    {proxy session i : Nat} {live : LiveSession} {statement : Statement} {rest : List Statement}
    (here : hosting.sessionAt proxy session = some live)
    (there : live.threads[i]? = some (statement :: rest)) :
    ∃ other, Relation.ReflTransGen hosting.WaitsFor (.thread proxy session i) other ∧
      hosting.GoesOn other := by
  have goes {j : Nat} {statement : Statement} {rest : List Statement}
      (there : live.threads[j]? = some (statement :: rest))
      (free : statement.atLock = true → live.locked = false) :
      hosting.GoesOn (.thread proxy session j) := by
    intro now
    obtain ⟨moved, ran⟩ := (inTurn.at here).runs_on (guarded.at here) there free now
    simp only [HostingController.perform, here, ran, Option.bind_eq_bind, Option.bind_some]
    exact ⟨_, rfl⟩
  by_cases free : statement.atLock = true → live.locked = false
  · exact ⟨_, .refl, goes there free⟩
  · obtain ⟨waits, locked⟩ := Classical.not_imp.mp free
    have locked := Bool.eq_true_of_not_eq_false locked
    obtain ⟨j, other, later, holder, unlock, ready⟩ := (guarded.at here).holder locked
    refine ⟨.thread proxy session j, .single ?_, goes holder fun taking => ?_⟩
    · exact .sessionMutex here locked there waits holder unlock
    · exact nomatch ready.symm.trans taking

/-- A call that does not wait for the controller's mutex goes on, or waits for a call of `End`. -/
theorem call_leads (attached : hosting.Attached) (inTurn : hosting.EachSession InTurn)
    (guarded : hosting.EachSession Guarded) {i : Nat} {call : ControllerCall}
    (stands : hosting.calls[i]? = some call) (free : call.atLock = true → hosting.locked = false)
    (unfinished : call ≠ .returned) :
    ∃ other, Relation.ReflTransGen hosting.WaitsFor (.call i) other ∧ hosting.GoesOn other := by
  have goes (visited : Option Nat) (went : ∃ result, hosting.goOn visited call = some result) :
      hosting.GoesOn (.call i) := by
    obtain ⟨result, went⟩ := went
    refine ⟨visited, ?_⟩
    simp only [HostingController.perform, stands, went, Option.bind_eq_bind, Option.bind_some]
    exact ⟨_, rfl⟩
  have sound := attached.calls call (List.mem_of_getElem? stands)
  cases call with
  | getting proxyID stops =>
    refine ⟨_, .refl, goes none ?_⟩
    rw [HostingController.goOn, free rfl]
    cases hosting.table.lookup proxyID <;> cases stops <;> exact ⟨_, rfl⟩
  | locking proxyID =>
    refine ⟨_, .refl, goes none ?_⟩
    rw [HostingController.goOn, free rfl]
    cases hosting.table.lookup proxyID <;> exact ⟨_, rfl⟩
  | checking proxyID proxy =>
    refine ⟨_, .refl, goes none ?_⟩
    rw [HostingController.goOn, List.getElem?_eq_getElem sound]
    cases running : hosting.proxies[proxy].running <;> simp [running]
  | ranging proxy destroys =>
    refine ⟨_, .refl, goes none ?_⟩
    cases destroys <;> exact ⟨_, rfl⟩
  | ending proxy session thread destroys =>
    obtain ⟨live, here, inside⟩ := sound
    have there := List.getElem?_eq_getElem inside
    cases body : live.threads[thread] with
    | nil =>
      refine ⟨_, .refl, goes none ?_⟩
      rw [body] at there
      simp only [HostingController.goOn, here, there, Option.bind_eq_bind, Option.bind_some]
      exact ⟨_, rfl⟩
    | cons statement rest =>
      rw [body] at there
      obtain ⟨other, leads, goesOn⟩ := thread_leads inTurn guarded here there
      exact ⟨other, .head (.endOfSession stands) leads, goesOn⟩
  | deleting proxyID => exact ⟨_, .refl, goes none ⟨_, rfl⟩⟩
  | returned => contradiction

/-- Whoever has something left to do goes on, or waits for one that does. -/
theorem Attached.leads (attached : hosting.Attached) (inTurn : hosting.EachSession InTurn)
    (guarded : hosting.EachSession Guarded) {waiter : Waiter}
    (unfinished : hosting.Unfinished waiter) :
    ∃ other, Relation.ReflTransGen hosting.WaitsFor waiter other ∧ hosting.GoesOn other := by
  cases waiter with
  | thread proxy session i =>
    obtain ⟨live, statement, rest, here, there⟩ := unfinished
    exact thread_leads inTurn guarded here there
  | call i =>
    obtain ⟨call, stands, unfinished⟩ := unfinished
    by_cases free : call.atLock = true → hosting.locked = false
    · exact call_leads attached inTurn guarded stands free unfinished
    · obtain ⟨waits, locked⟩ := Classical.not_imp.mp free
      have locked := Bool.eq_true_of_not_eq_false locked
      obtain ⟨holder, member, holds⟩ := attached.held locked
      obtain ⟨j, there⟩ := List.getElem?_of_mem member
      have ready : holder.atLock = true → hosting.locked = false := by
        cases holder <;> first | contradiction | exact fun taking => nomatch taking
      have busy : holder ≠ .returned := by
        rintro rfl
        contradiction
      obtain ⟨other, leads, goesOn⟩ := call_leads attached inTurn guarded there ready busy
      exact ⟨other, .head (.controllerMutex locked stands waits there holds) leads, goesOn⟩

/-- Where no session is hurried, nobody is stalled by a viewer that waits for its client: whoever
waits does so for one that can take its next step. -/
theorem unhurried_unstalled (reached : (runs Unhurried).Reachable hosting) (waiter : Waiter) :
    ¬ hosting.Stalled waiter ∧ (hosting.Unfinished waiter →
      ∃ other, Relation.ReflTransGen hosting.WaitsFor waiter other ∧ hosting.GoesOn other) := by
  have sound : hosting.Attached ∧ hosting.EachSession InTurn ∧ hosting.EachSession Guarded := by
    induction reached with
    | start first =>
      subst first
      exact ⟨⟨nofun, List.forall_mem_nil _, nofun⟩, List.forall_mem_nil _, List.forall_mem_nil _⟩
    | next _ step ih =>
      obtain ⟨attached, inTurn, guarded⟩ := ih
      refine ⟨attached.perform step.2, inTurn.perform loggedIn_inTurn ?_ ?_ step.2,
        guarded.perform loggedIn_guarded ?_ ?_ step.2⟩
      · intro live stopped inTurn ended
        have unhurried : live.Unhurried .stop := trivial
        exact inTurn.perform unhurried ended
      · rintro proxy session act live moved rfl here inTurn acted
        exact inTurn.perform (step.1 live here) acted
      · exact fun live stopped guarded ended => guarded.perform ended
      · exact fun _ _ _ _ _ _ _ guarded acted => guarded.perform acted
  obtain ⟨attached, inTurn, guarded⟩ := sound
  refine ⟨?_, attached.leads inTurn guarded⟩
  rintro ⟨-, -, proxy, session, thread, live, rfl, here, awaits⟩
  exact (inTurn.at here).free thread awaits

/-- A controller with one proxy, which has the ID 1 and one session. -/
def hostingOne (live : LiveSession) (running locked : Bool) (calls : List ControllerCall) :
    HostingController :=
  { proxies := [⟨running, [live]⟩], table := (∅ : GoMap UInt64 Nat).insert 1 0, locked, calls }

theorem hostingOne_session {Admitted : HostingController → HostingAction → Prop}
    {running locked : Bool} {calls : List ControllerCall} {live moved : LiveSession}
    {act : LiveAction}
    (admitted : Admitted (hostingOne live running locked calls) (.session 0 0 act))
    (performed : live.perform act = some moved) :
    (runs Admitted).step (hostingOne live running locked calls) (.session 0 0 act)
      (hostingOne moved running locked calls) := by
  refine ⟨admitted, ?_⟩
  show (live.perform act).bind (fun next => some ((hostingOne live running locked calls).setSession
      0 0 next)) = some (hostingOne moved running locked calls)
  rw [performed]
  rfl

/-- The steps of the one session. -/
theorem follows_session {Admitted : HostingController → HostingAction → Prop}
    {AdmittedHere : LiveSession → LiveAction → Prop} {running locked : Bool}
    {calls : List ControllerCall} {live moved : LiveSession} {acts : List LiveAction}
    (admits : ∀ live act, AdmittedHere live act →
      Admitted (hostingOne live running locked calls) (.session 0 0 act))
    (follows : Follows (fun live act moved => AdmittedHere live act ∧ live.perform act = some moved)
      live acts moved) :
    Follows (runs Admitted).step (hostingOne live running locked calls)
      (acts.map (.session 0 0)) (hostingOne moved running locked calls) :=
  follows.map (f := fun live => hostingOne live running locked calls)
    (g := HostingAction.session 0 0)
    fun live act _ step => hostingOne_session (admits live act step.1) step.2

theorem unhurried_one {running locked : Bool} {calls : List ControllerCall} (live : LiveSession)
    (act : LiveAction) (unhurried : live.Unhurried act) :
    (hostingOne live running locked calls).Unhurried (.session 0 0 act) := by
  intro live' here
  obtain rfl := Option.some.inj here
  exact unhurried

theorem reachable_mono {Admitted Admitted' : HostingController → HostingAction → Prop}
    (weaker : ∀ hosting action, Admitted hosting action → Admitted' hosting action)
    (reached : (runs Admitted).Reachable hosting) : (runs Admitted').Reachable hosting := by
  induction reached with
  | start first => exact .start first
  | next _ step ih => exact ih.next ⟨weaker _ _ step.1, step.2⟩

def freshLog : LoggedSession := { session := freshSession, files := ∅, path := [], isOpen := false }

def waitingViewer : Viewing := { playback := { step := .waiting }, registered := true }

def stampedStop : SessionEvent := { stopEvent with timeOffset := freshSession.getTimeOffset 0 }

/-- The log once the stop event is in it. -/
def announcedLog : LoggedSession := (recorded (inactive freshLog)).logEvent stampedStop

def writingViewer : Viewing := ⟨{ step := .sending [] 1, sent := [stampedStop] }, true⟩

/-- `DestroyProxy` ends a session that has a viewer, `GetProxy` waits for it, and the viewer writes
the stop event to its client. -/
theorem announcing_reachable : (runs Unhurried).Reachable (hostingOne
    (watched announcedLog writingViewer [.signalClients .sessionEnd, .finalizeLog]) false true
    [.ending 0 0 1 (some 1), .getting 1 false]) := by
  let first := loggedIn (lit "logs") freshSession ∅ none
  let ended : LiveSession :=
    { first with threads := [Statement.handleClientConn none, [.endSession]] }
  let ends : List Statement := [.signalClients .sessionEnd, .finalizeLog]
  let header : SliceHeader := { array := 1, length := 1 }
  let stopped := recorded (inactive freshLog)
  let signalled : Viewing := ⟨{ step := .signalled }, true⟩
  have begins : (runs Unhurried).Reachable {} := .start rfl
  have hosted : Follows (runs Unhurried).step {}
      [.addExistingProxy 1, .startProxy 0, .logIn 0 (lit "logs") freshSession ∅ none,
        .destroyProxy 1, .goOn 0 none, .goOn 0 none, .goOn 0 (some 0), .getProxy 1]
      (hostingOne ended false true [.ending 0 0 1 (some 1), .getting 1 false]) :=
    ⟨{ proxies := [{}], table := (∅ : GoMap UInt64 Nat).insert 1 0 }, ⟨trivial, rfl⟩,
      { proxies := [⟨true, []⟩], table := (∅ : GoMap UInt64 Nat).insert 1 0 }, ⟨trivial, rfl⟩,
      hostingOne first true false [], ⟨trivial, rfl⟩,
      hostingOne first true false [.locking 1], ⟨trivial, rfl⟩,
      hostingOne first true true [.checking 1 0], ⟨trivial, rfl⟩,
      hostingOne first false true [.ranging 0 (some 1)], ⟨trivial, rfl⟩,
      hostingOne ended false true [.ending 0 0 1 (some 1)], ⟨trivial, rfl⟩,
      hostingOne ended false true [.ending 0 0 1 (some 1), .getting 1 false], ⟨trivial, rfl⟩, rfl⟩
  have out : ∀ (viewing : Viewing) (logged : LoggedSession) (thread : List Statement),
      Statement.goesOver thread = none → ∀ other ∈ (watched logged viewing thread).threads,
        Statement.goesOver other = none := by
    intro viewing logged thread none
    exact List.forall_mem_cons.mpr ⟨rfl, List.forall_mem_singleton.mpr none⟩
  have joined : Follows (fun live act moved => live.Unhurried act ∧ live.perform act = some moved)
      ended [.playSession, .view 0 none 0, .view 0 none 0, .view 0 none 0]
      (watched freshLog waitingViewer [.endSession]) :=
    ⟨watched freshLog {} [.endSession], ⟨trivial, rfl⟩,
      watched freshLog ⟨{ step := .unregistered 0 }, false⟩ [.endSession],
      ⟨unhurried_view (out {} freshLog _ rfl), rfl⟩,
      watched freshLog ⟨{ step := .measured 0 }, true⟩ [.endSession],
      ⟨unhurried_view (out _ freshLog _ rfl), rfl⟩,
      watched freshLog waitingViewer [.endSession],
      ⟨unhurried_view (out _ freshLog _ rfl), rfl⟩, rfl⟩
  have announced : Follows (fun live act moved => live.Unhurried act ∧ live.perform act = some moved)
      (watched freshLog waitingViewer [.endSession])
      (List.replicate 8 (.run 1 0) ++ [.view 0 none 0, .view 0 none 0])
      (watched announcedLog writingViewer ends) :=
    ⟨watched freshLog waitingViewer [.deactivate],
      ⟨unhurried_run rfl fun _ => Statement.noConfusion, rfl⟩,
      watched (inactive freshLog) waitingViewer (.handleEvent stopEvent :: ends),
      ⟨unhurried_run rfl fun _ => Statement.noConfusion, rfl⟩,
      watched stopped waitingViewer (.logEvent 0 :: .signalClients .newMessage :: ends),
      ⟨unhurried_run rfl fun _ => Statement.noConfusion, rfl⟩,
      watched announcedLog waitingViewer (.signalClients .newMessage :: ends),
      ⟨unhurried_run rfl fun _ => Statement.noConfusion, rfl⟩,
      watched announcedLog waitingViewer (.ranging .newMessage header 0 :: ends),
      ⟨fun _ _ _ => ⟨out _ _ _ rfl, List.forall_mem_singleton.mpr fun _ => rfl⟩, rfl⟩,
      watched announcedLog waitingViewer (.sending .newMessage header 0 0 :: ends),
      ⟨unhurried_run rfl fun _ => Statement.noConfusion, rfl⟩,
      watched announcedLog signalled (.ranging .newMessage header 1 :: ends),
      ⟨unhurried_run rfl fun _ => Statement.noConfusion, rfl⟩,
      watched announcedLog signalled ends, ⟨unhurried_run rfl fun _ => Statement.noConfusion, rfl⟩,
      watched announcedLog ⟨{ step := .measured 1 }, true⟩ ends,
      ⟨unhurried_view (out _ _ _ rfl), rfl⟩,
      watched announcedLog writingViewer ends, ⟨unhurried_view (out _ _ _ rfl), rfl⟩, rfl⟩
  exact ((begins.follows hosted).follows (follows_session unhurried_one joined)).follows
    (follows_session unhurried_one announced)

/-- A viewer waits for its client, and nobody waits for it, though `GetProxy` waits. -/
theorem unhurried_unstalled_announcing : ∃ hosting, (runs Unhurried).Reachable hosting ∧
    hosting.calls = [.ending 0 0 1 (some 1), .getting 1 false] ∧
    (∃ live viewing, hosting.sessionAt 0 0 = some live ∧ live.viewers = [viewing] ∧
      viewing.Writing) ∧
    ¬ hosting.Stalled (.call 1) ∧
      ∃ other, Relation.ReflTransGen hosting.WaitsFor (.call 1) other ∧ hosting.GoesOn other := by
  obtain ⟨unstalled, leads⟩ := unhurried_unstalled announcing_reachable (.call 1)
  exact ⟨_, announcing_reachable, rfl, ⟨_, _, rfl, rfl, [], 1, rfl⟩, unstalled,
    leads ⟨_, rfl, ControllerCall.noConfusion⟩⟩

/-- `DestroyProxy` ends a session whose viewer does not acknowledge the stop event. Whoever comes
to look a proxy up meanwhile waits for that viewer's client. -/
theorem getProxy_stalled :
    ¬ ∀ hosting, (runs fun _ _ => True).Reachable hosting → ∀ waiter, ¬ hosting.Stalled waiter := by
  intro flowing
  let header : SliceHeader := { array := 1, length := 1 }
  let live := watched announcedLog writingViewer [.sending .sessionEnd header 0 0, .finalizeLog]
  let calls : List ControllerCall := [.ending 0 0 1 (some 1), .getting 1 false]
  have stuck : Follows (fun live act moved => True ∧ live.perform act = some moved)
      (watched announcedLog writingViewer [.signalClients .sessionEnd, .finalizeLog])
      [.run 1 0, .run 1 0] live :=
    ⟨watched announcedLog writingViewer [.ranging .sessionEnd header 0, .finalizeLog],
      ⟨trivial, rfl⟩, live, ⟨trivial, rfl⟩, rfl⟩
  have reached : (runs fun _ _ => True).Reachable (hostingOne live false true calls) :=
    (reachable_mono (fun _ _ _ => trivial) announcing_reachable).follows
      (follows_session (fun _ _ => id) stuck)
  refine flowing _ reached (.call 1) ⟨.thread 0 0 1, ?_, 0, 0, 1, live, rfl, rfl, 0, writingViewer,
    ⟨_, _, _, _, rfl⟩, rfl, [], 1, rfl⟩
  have holder : WaitsFor (hostingOne live false true calls) (.call 1) (.call 0) :=
    .controllerMutex rfl rfl rfl rfl rfl
  exact .tail (.single holder) (.endOfSession rfl)

end HostingController
end SSHProxyPlus
