import SSHProxyPlus.Controller.Invariant
import SSHProxyPlus.Transition.Sequential
import SSHProxyPlus.Transition.System

/-! Clients that create, destroy and look up proxies at the same time. A call goes on from
one section under the controller's mutex, or one statement outside of it, to the next, and
any other call may come in between. -/
namespace SSHProxyPlus
open Go Transition

/-- Proxies are shared by pointer between the controller's table and its callers. -/
abbrev ProxyRef := Nat

/-- What calls of different clients share. -/
structure ProxyPool where
  proxies : MapVar UInt64 ProxyRef
  proxyCounter : UInt64
  log : Option Logger
  defaultSigner : Option Signer
  objects : ProxyRef → ProxyContext
  sessions : SessionHeap

namespace ProxyPool

/-- From now on the pointer points at this. -/
def write (pool : ProxyPool) (pointer : ProxyRef) (proxy : ProxyContext) : ProxyPool :=
  { pool with objects := fun ref => if ref = pointer then proxy else pool.objects ref }

def getNextProxyID (pool : ProxyPool) : ProxyPool × UInt64 :=
  ({ pool with proxyCounter := pool.proxyCounter + 1 }, pool.proxyCounter)

/-- The second section of `AddExistingProxy`. -/
def storeProxy (pool : ProxyPool) (proxyID : UInt64) (proxy : ProxyRef) :
    Except Panic ProxyPool := do
  let proxies ← pool.proxies.assign proxyID proxy
  return { pool with proxies }

/-- `controller.Proxies[proxy_id].Log = controller.Log`, outside of the mutex. -/
def setLog (pool : ProxyPool) (proxyID : UInt64) : Except Panic ProxyPool := do
  let proxy ← deref (pool.proxies.find proxyID)
  return pool.write proxy { pool.objects proxy with log := pool.log }

def addExistingProxy (pool : ProxyPool) (proxy : ProxyRef) :
    Except Panic (ProxyPool × UInt64) := do
  let (pool, proxyID) := pool.getNextProxyID
  let pool ← pool.storeProxy proxyID proxy
  return (pool, proxyID)

def addProxy (pool : ProxyPool) (proxy : ProxyRef) : Except Panic (ProxyPool × UInt64) := do
  let (pool, proxyID) ← pool.addExistingProxy proxy
  let pool ← pool.setLog proxyID
  return (pool, proxyID)

/-- All of it is one section. -/
def destroyProxy (pool : ProxyPool) (proxyID : UInt64) (order : RangeOrder Bytes) (now : Time) :
    Except Panic (ProxyPool × Option Bytes) :=
  match pool.proxies.find proxyID with
  | some proxy =>
      if (pool.objects proxy).running then do
        let (stopped, sessions) ← (pool.objects proxy).stop pool.sessions order now
        return ({ pool.write proxy stopped with
          sessions, proxies := pool.proxies.delete proxyID }, none)
      else return ({ pool with proxies := pool.proxies.delete proxyID }, none)
  | none => return (pool, some (noProxyExists proxyID))

def getProxy (pool : ProxyPool) (proxyID : UInt64) : Option ProxyRef × Option Bytes :=
  match pool.proxies.find proxyID with
  | some val => (some val, none)
  | none => (none, some (cannotFindProxy proxyID))

end ProxyPool

/-- What a client can ask for. Calls that make a proxy come with the pointer they will get
for it, and those that depend on the world with what it contributes. -/
inductive ClientCommand where
  | createProxy (allocated : ProxyRef)
  | addProxy (proxy : ProxyRef)
  | addProxyFromJSON (data : Bytes) (order : RangeOrder Bytes) (allocated : ProxyRef)
  | addExistingProxy (proxy : ProxyRef)
  | destroyProxy (proxyID : UInt64) (order : RangeOrder Bytes) (now : Time)
  | getProxy (proxyID : UInt64)

inductive CommandResult where
  | created (proxyID : UInt64)
  | notDecoded
  | destroyed (err : Option Bytes)
  | got (proxy : Option ProxyRef) (err : Option Bytes)

/-- A command from beginning to end, with nothing in between. -/
def ProxyPool.execute (pool : ProxyPool) : ClientCommand → Except Panic (ProxyPool × CommandResult)
  | .createProxy allocated => do
      let (pool, proxyID) ←
        (pool.write allocated (makeNewProxy pool.defaultSigner)).addProxy allocated
      return (pool, .created proxyID)
  | .addProxy proxy => do
      let (pool, proxyID) ← pool.addProxy proxy
      return (pool, .created proxyID)
  | .addProxyFromJSON data order allocated => do
      match ← makeProxyFromJSON data pool.defaultSigner order with
      | some proxy => do
          let (pool, proxyID) ← (pool.write allocated proxy).addProxy allocated
          return (pool, .created proxyID)
      | none => return (pool, .notDecoded)
  | .addExistingProxy proxy => do
      let (pool, proxyID) ← pool.addExistingProxy proxy
      return (pool, .created proxyID)
  | .destroyProxy proxyID order now => do
      let (pool, err) ← pool.destroyProxy proxyID order now
      return (pool, .destroyed err)
  | .getProxy proxyID =>
      let (proxy, err) := pool.getProxy proxyID
      return (pool, .got proxy err)

/-- Commands one after the other. -/
def ProxyPool.executeAll (pool : ProxyPool) :
    List ClientCommand → Except Panic (ProxyPool × List CommandResult)
  | [] => return (pool, [])
  | command :: commands => do
      let (pool, result) ← pool.execute command
      let (pool, results) ← executeAll pool commands
      return (pool, result :: results)

/-- Where a call stands: what it does next, or how it ended. -/
inductive CallStep where
  | called
  | numbering (proxy : ProxyRef) (logged : Bool)
  | storing (proxy : ProxyRef) (logged : Bool) (proxyID : UInt64)
  | logging (proxyID : UInt64)
  | returned (result : CommandResult)
  | panicked (panic : Panic)

/-- How a call goes on after something that may panic. -/
def CallStep.after (pool : ProxyPool) (go : α → CallStep × ProxyPool) :
    Except Panic α → CallStep × ProxyPool
  | .ok a => go a
  | .error panic => (.panicked panic, pool)

structure ClientCall where
  command : ClientCommand
  step : CallStep := .called

/-- The next section or statement of a call. -/
def ClientCall.advance (call : ClientCall) (pool : ProxyPool) : Option (CallStep × ProxyPool) :=
  match call.step with
  | .called =>
      match call.command with
      | .createProxy allocated =>
          some (.numbering allocated true, pool.write allocated (makeNewProxy pool.defaultSigner))
      | .addProxy proxy => some (.numbering proxy true, pool)
      | .addProxyFromJSON data order allocated =>
          some (CallStep.after pool (fun
            | some proxy => (.numbering allocated true, pool.write allocated proxy)
            | none => (.returned .notDecoded, pool))
            (makeProxyFromJSON data pool.defaultSigner order))
      | .addExistingProxy proxy => some (.numbering proxy false, pool)
      | .destroyProxy proxyID order now =>
          some (CallStep.after pool (fun (next, err) => (.returned (.destroyed err), next))
            (pool.destroyProxy proxyID order now))
      | .getProxy proxyID =>
          let (proxy, err) := pool.getProxy proxyID
          some (.returned (.got proxy err), pool)
  | .numbering proxy logged =>
      let (pool, proxyID) := pool.getNextProxyID
      some (.storing proxy logged proxyID, pool)
  | .storing proxy logged proxyID =>
      some (CallStep.after pool
        (fun next => (if logged then .logging proxyID else .returned (.created proxyID), next))
        (pool.storeProxy proxyID proxy))
  | .logging proxyID =>
      some (CallStep.after pool (fun next => (.returned (.created proxyID), next))
        (pool.setLog proxyID))
  | .returned _ => none
  | .panicked _ => none

/-- A controller and the calls that clients have made so far. -/
structure ProxyServer where
  pool : ProxyPool
  calls : List ClientCall := []

inductive ServerAction where
  | call (command : ClientCommand)
  | advance (index : Nat)

namespace ProxyServer

def perform (server : ProxyServer) : ServerAction → Option ProxyServer
  | .call command => some { server with calls := server.calls ++ [{ command }] }
  | .advance index =>
      match server.calls[index]? with
      | some call => (call.advance server.pool).map fun (step, pool) =>
          { pool, calls := server.calls.set index { call with step } }
      | none => none

/-- The runs from a pool in which every step is `Admitted`. -/
def runs (Admitted : ProxyServer → ServerAction → Prop) (start : ProxyPool) :
    System ProxyServer ServerAction where
  init server := server = { pool := start }
  step server action next := Admitted server action ∧ server.perform action = some next

end ProxyServer

/-- What the commands are about: the IDs that are taken, and the next one. -/
@[ext]
structure Registry where
  entries : UInt64 → Option ProxyRef
  counter : UInt64

namespace Registry

def add (registry : Registry) (proxy : ProxyRef) : Registry × CommandResult :=
  ({ entries := fun id => if id = registry.counter then some proxy else registry.entries id
     counter := registry.counter + 1 }, .created registry.counter)

def remove (registry : Registry) (proxyID : UInt64) : Registry :=
  { registry with entries := fun id => if id = proxyID then none else registry.entries id }

/-- What a command is to do, whatever becomes of the proxies themselves. -/
def serve (registry : Registry) : ClientCommand → Registry × CommandResult
  | .createProxy allocated => registry.add allocated
  | .addProxy proxy => registry.add proxy
  | .addProxyFromJSON data _ allocated =>
      match ProxyContext.codec.unmarshal data {} with
      | some _ => registry.add allocated
      | none => (registry, .notDecoded)
  | .addExistingProxy proxy => registry.add proxy
  | .destroyProxy proxyID _ _ =>
      (registry.remove proxyID,
        .destroyed (if (registry.entries proxyID).isSome then none else some (noProxyExists proxyID)))
  | .getProxy proxyID =>
      (registry, .got (registry.entries proxyID)
        (if (registry.entries proxyID).isSome then none else some (cannotFindProxy proxyID)))

def object : Object Registry ClientCommand CommandResult where
  serve := serve

end Registry

def ProxyPool.registry (pool : ProxyPool) : Registry where
  entries := pool.proxies.find
  counter := pool.proxyCounter

/-- There is a table, a proxy that runs has a listener, and sessions can be ended. -/
structure ProxyPool.Sound (pool : ProxyPool) : Prop where
  made : pool.proxies ≠ none
  listening : ∀ ref, (pool.objects ref).running = true → (pool.objects ref).listener ≠ none
  sessions : ∀ session ∈ pool.sessions, session.Endable

/-- Data for a proxy that can be initialized, if it decodes. -/
def ClientCommand.Harmless : ClientCommand → Prop
  | .addProxyFromJSON data _ _ =>
      ∀ proxy, ProxyContext.codec.unmarshal data {} = some proxy → proxy.Linkable
  | _ => True

theorem makeProxyFromJSON_harmless {data : Bytes} {order : RangeOrder Bytes}
    (linkable : ∀ proxy, ProxyContext.codec.unmarshal data {} = some proxy → proxy.Linkable)
    (signer : Option Signer) :
    Returns (makeProxyFromJSON data signer order) fun result =>
      result.isSome = (ProxyContext.codec.unmarshal data {}).isSome ∧
        ∀ proxy, result = some proxy → proxy.running = false := by
  unfold makeProxyFromJSON
  cases read : ProxyContext.codec.unmarshal data {} with
  | none => exact returns_pure ⟨rfl, fun proxy impossible => by contradiction⟩
  | some decoded =>
    obtain ⟨ready, initialized, -⟩ :=
      ProxyContext.initializeProxy_returns (linkable decoded read) signer order
    refine ⟨some ready, by simp [initialized, bind, Except.bind, pure, Except.pure], rfl, ?_⟩
    intro proxy same
    obtain rfl := Option.some.inj same
    obtain ⟨users, viewers, rfl⟩ := ProxyContext.initializeProxy_changes initialized
    exact (ProxyContext.unmarshal_decoded read).idle.running

namespace ProxyPool
variable {pool : ProxyPool}

@[simp] theorem write_registry (pool : ProxyPool) (pointer : ProxyRef) (proxy : ProxyContext) :
    (pool.write pointer proxy).registry = pool.registry := rfl

theorem Sound.write (sound : pool.Sound) {proxy : ProxyContext}
    (listening : proxy.running = true → proxy.listener ≠ none) (pointer : ProxyRef) :
    (pool.write pointer proxy).Sound where
  made := sound.made
  listening ref running := by
    unfold ProxyPool.write at running ⊢
    dsimp only at running ⊢
    split
    · next same =>
      rw [if_pos same] at running
      exact listening running
    · next other =>
      rw [if_neg other] at running
      exact sound.listening ref running
  sessions := sound.sessions

theorem Sound.getNextProxyID (sound : pool.Sound) : pool.getNextProxyID.1.Sound :=
  ⟨sound.made, sound.listening, sound.sessions⟩

theorem Sound.storeProxy (sound : pool.Sound) (proxyID : UInt64) (proxy : ProxyRef) :
    Returns (pool.storeProxy proxyID proxy) fun next => next.Sound ∧
      next.registry = { pool.registry with
        entries := fun id => if id = proxyID then some proxy else pool.proxies.find id } := by
  refine (returns_assign sound.made proxyID proxy).bind fun proxies ⟨entries, made, same⟩ =>
    returns_pure ⟨⟨?_, sound.listening, sound.sessions⟩, ?_⟩
  · rw [same]
    exact Option.some_ne_none _
  · ext id : 2
    · rw [registry, same]
      dsimp only
      split
      · next here => rw [here, MapVar.find_some, Finmap.lookup_insert]
      · next other => rw [MapVar.find_some, Finmap.lookup_insert_of_ne _ other, made,
          MapVar.find_some]
    · rfl

theorem Sound.setLog (sound : pool.Sound) {proxyID : UInt64}
    (present : pool.proxies.find proxyID ≠ none) :
    Returns (pool.setLog proxyID) fun next => next.Sound ∧ next.registry = pool.registry :=
  (returns_deref present).bind fun proxy _ => by
    refine returns_pure ⟨sound.write ?_ proxy, rfl⟩
    exact sound.listening proxy

theorem Sound.destroyProxy (sound : pool.Sound) (proxyID : UInt64) (order : RangeOrder Bytes)
    (now : Time) : Returns (pool.destroyProxy proxyID order now) fun result =>
      result.1.Sound ∧ result.1.registry = pool.registry.remove proxyID ∧
        result.2 = if (pool.registry.entries proxyID).isSome then none
          else some (noProxyExists proxyID) := by
  have removed : (pool.proxies.delete proxyID).find = (pool.registry.remove proxyID).entries := by
    funext id
    obtain ⟨entries, made⟩ := Option.ne_none_iff_exists'.mp sound.made
    simp only [Registry.remove, registry, made, MapVar.delete_some, MapVar.find_some]
    split
    · next same => rw [same, Finmap.lookup_erase]
    · next other => exact Finmap.lookup_erase_ne other
  have made : pool.proxies.delete proxyID ≠ none := by
    obtain ⟨entries, made⟩ := Option.ne_none_iff_exists'.mp sound.made
    simp [made]
  unfold ProxyPool.destroyProxy
  cases found : pool.proxies.find proxyID with
  | none =>
    refine returns_pure ⟨sound, ?_, by simp [registry, found]⟩
    ext id : 2
    · rw [Registry.remove]
      dsimp only
      split
      · next same => rw [same]; exact found
      · rfl
    · rfl
  | some proxy =>
    dsimp only
    split
    · next running =>
      refine (ProxyContext.stop_returns (sound.listening proxy running) sound.sessions order
        now).bind ?_
      rintro result ⟨stopped, sessions⟩
      refine returns_pure ⟨⟨made, ?_, sessions⟩, ?_, ?_⟩
      · refine (sound.write (fun running => ?_) proxy).listening
        rw [stopped] at running
        contradiction
      · exact Registry.ext removed rfl
      · simp [registry, found]
    · refine returns_pure ⟨⟨made, sound.listening, sound.sessions⟩, Registry.ext removed rfl, ?_⟩
      simp [registry, found]

theorem Sound.addExistingProxy (sound : pool.Sound) (proxy : ProxyRef) :
    Returns (pool.addExistingProxy proxy) fun result => result.1.Sound ∧
      (result.1.registry, CommandResult.created result.2) = pool.registry.add proxy := by
  refine (sound.getNextProxyID.storeProxy pool.proxyCounter proxy).bind
    fun next ⟨kept, stored⟩ => returns_pure ⟨kept, ?_⟩
  rw [stored]
  rfl

theorem Sound.addProxy (sound : pool.Sound) (proxy : ProxyRef) :
    Returns (pool.addProxy proxy) fun result => result.1.Sound ∧
      (result.1.registry, CommandResult.created result.2) = pool.registry.add proxy := by
  refine (sound.addExistingProxy proxy).bind fun result ⟨kept, added⟩ => ?_
  obtain ⟨next, proxyID⟩ := result
  have present : next.proxies.find proxyID ≠ none := by
    obtain ⟨entries, created⟩ := Prod.mk.inj added
    have here : next.proxies.find proxyID = some proxy := by
      change next.registry = _ at entries
      change next.registry.entries proxyID = _
      rw [entries]
      exact if_pos (CommandResult.created.inj created)
    rw [here]
    exact Option.some_ne_none proxy
  refine (kept.setLog present).bind fun logged ⟨still, same⟩ => returns_pure ⟨still, ?_⟩
  rw [same]
  exact added

/-- A command that meets nothing bad returns, and does what it is to do. -/
theorem Sound.execute (sound : pool.Sound) {command : ClientCommand}
    (harmless : command.Harmless) :
    Returns (pool.execute command) fun result => result.1.Sound ∧
      (result.1.registry, result.2) = pool.registry.serve command := by
  cases command with
  | createProxy allocated =>
    have written := sound.write (fun running => absurd running Bool.false_ne_true :
      (makeNewProxy pool.defaultSigner).running = true → _) allocated
    exact (written.addProxy allocated).bind fun _ added => returns_pure added
  | addProxy proxy => exact (sound.addProxy proxy).bind fun _ added => returns_pure added
  | addProxyFromJSON data order allocated =>
    refine (makeProxyFromJSON_harmless harmless pool.defaultSigner).bind
      fun decoded ⟨same, idle⟩ => ?_
    cases decoded with
    | none =>
      refine returns_pure ⟨sound, ?_⟩
      have undecoded : ProxyContext.codec.unmarshal data {} = none := by simpa using same.symm
      simp only [Registry.serve, undecoded]
    | some proxy =>
      obtain ⟨read, unmarshalled⟩ := Option.isSome_iff_exists.mp same.symm
      have written := sound.write (fun running =>
        absurd ((idle proxy rfl).symm.trans running) Bool.false_ne_true) allocated
      refine (written.addProxy allocated).bind fun result added => returns_pure ?_
      simp only [Registry.serve, unmarshalled]
      exact added
  | addExistingProxy proxy =>
    exact (sound.addExistingProxy proxy).bind fun _ added => returns_pure added
  | destroyProxy proxyID order now =>
    refine (sound.destroyProxy proxyID order now).bind fun result ⟨kept, removed, err⟩ =>
      returns_pure ⟨kept, ?_⟩
    rw [removed, err]
    rfl
  | getProxy proxyID =>
    refine returns_pure ⟨sound, ?_⟩
    simp only [Registry.serve]
    cases found : pool.proxies.find proxyID with
    | none => simp [registry, found]
    | some val => simp [registry, found]

/-- One after the other, commands do what their object explains. -/
theorem Sound.executeAll {history : List (ClientCommand × CommandResult)} {final : Registry}
    (sound : pool.Sound) (harmless : ∀ entry ∈ history, entry.1.Harmless)
    (explained : Registry.object.Explains pool.registry history final) :
    ∃ next, pool.executeAll (history.map Prod.fst) = .ok (next, history.map Prod.snd) ∧
      next.registry = final := by
  induction history generalizing pool with
  | nil => exact ⟨pool, rfl, explained⟩
  | cons entry history ih =>
    obtain ⟨command, result⟩ := entry
    obtain ⟨mid, given, later⟩ := explained
    change pool.registry.serve command = (mid, result) at given
    obtain ⟨⟨next, answer⟩, executed, kept, served⟩ := sound.execute (harmless _ List.mem_cons_self)
    rw [given] at served
    have reached : next.registry = mid := congrArg Prod.fst served
    have same : answer = result := congrArg Prod.snd served
    obtain ⟨last, rest, ended⟩ := ih kept
      (fun entry member => harmless entry (List.mem_cons_of_mem _ member)) (reached ▸ later)
    refine ⟨last, ?_, ended⟩
    simp only [List.map_cons, ProxyPool.executeAll, executed, rest, same, bind, Except.bind]
    rfl

end ProxyPool
end SSHProxyPlus
