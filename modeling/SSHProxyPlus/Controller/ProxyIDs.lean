import SSHProxyPlus.Controller.Runs

/-! The IDs that a controller gives its proxies: when no ID is handed out twice, and none
that a proxy already has. -/
namespace SSHProxyPlus
open Go

/-- The calls that create proxies, and the one that destroys them. -/
inductive ProxyCall where
  | createProxy
  | addProxy (proxy : ProxyContext)
  | addProxyFromJSON (data : Bytes)
  | addExistingProxy (proxy : ProxyContext)
  | destroyProxy (proxyID : UInt64)

namespace ProxyCall

/-- The ID that a creating call returns comes back. -/
def perform (s : ControllerState) (world : World) :
    ProxyCall → Except Panic (ControllerState × Option UInt64)
  | .createProxy => do
      let (controller, proxyID) ← s.controller.createProxy
      return ({ s with controller }, some proxyID)
  | .addProxy proxy => do
      let (controller, proxyID) ← s.controller.addProxy proxy
      return ({ s with controller }, some proxyID)
  | .addProxyFromJSON data => do
      let (controller, proxyID) ← s.controller.addProxyFromJSON data world.viewerOrder
      return ({ s with controller }, proxyID)
  | .addExistingProxy proxy => do
      let (controller, proxyID) ← s.controller.addExistingProxy proxy
      return ({ s with controller }, some proxyID)
  | .destroyProxy proxyID => do
      let (controller, sessions, _) ←
        s.controller.destroyProxy s.sessions proxyID world.sessionOrder world.now
      return ({ s with controller, sessions }, none)

end ProxyCall

/-- The ID is new, to the table and to all who were given one, and no other entry changes. -/
structure NewID (before after : ProxyController) (returned : List UInt64) (proxyID : UInt64) :
    Prop where
  unused : before.proxies.find proxyID = none
  unseen : proxyID ∉ returned
  others : ∀ other, other ≠ proxyID → after.proxies.find other = before.proxies.find other

/-- In a run of calls, of which one that panics is the last, every ID is new. -/
def NeverReuses (s : ControllerState) (returned : List UInt64) :
    List (ProxyCall × World) → Prop
  | [] => True
  | (call, world) :: calls => ∀ next proxyID, call.perform s world = .ok (next, proxyID) →
      (∀ id, proxyID = some id → NewID s.controller next.controller returned id) ∧
        NeverReuses next (returned ++ proxyID.toList) calls

namespace ProxyController

/-- A proxy was added under the ID that was next. -/
structure Added (before after : ProxyController) (proxyID : UInt64) : Prop where
  id : proxyID = before.proxyCounter
  counter : after.proxyCounter = proxyID + 1
  made : after.proxies ≠ none
  present : after.proxies.find proxyID ≠ none
  others : ∀ other, other ≠ proxyID → after.proxies.find other = before.proxies.find other

/-- No proxy was added. -/
structure NoneAdded (before after : ProxyController) : Prop where
  counter : after.proxyCounter = before.proxyCounter
  among : ∀ proxyID, after.proxies.find proxyID ≠ none → before.proxies.find proxyID ≠ none

variable {controller next : ProxyController} {proxy : ProxyContext} {proxyID : UInt64}

theorem addExistingProxy_added (added : controller.addExistingProxy proxy = .ok (next, proxyID)) :
    controller.Added next proxyID := by
  obtain ⟨proxies, assigned, done⟩ := of_bind_ok added
  obtain ⟨entries, made, rfl⟩ := MapVar.assign_ok assigned
  obtain ⟨rfl, rfl⟩ := Prod.mk.inj (Except.ok.inj done)
  refine ⟨rfl, rfl, Option.some_ne_none _, ?_, fun other different => ?_⟩
  · rw [MapVar.find_some, Finmap.lookup_insert]
    exact Option.some_ne_none _
  · rw [MapVar.find_some, Finmap.lookup_insert_of_ne _ different, made, MapVar.find_some]

theorem Added.updateProxy (added : controller.Added next proxyID) (proxy : ProxyContext) :
    controller.Added (next.updateProxy proxyID proxy) proxyID where
  id := added.id
  counter := added.counter
  made := by
    obtain ⟨entries, made⟩ := Option.ne_none_iff_exists'.mp added.made
    simp [ProxyController.updateProxy, made]
  present := by
    rw [updateProxy_find, if_pos ⟨rfl, added.made⟩]
    exact Option.some_ne_none _
  others other different := by
    rw [updateProxy_find, if_neg fun h => different h.1]
    exact added.others other different

theorem addProxy_added (added : controller.addProxy proxy = .ok (next, proxyID)) :
    controller.Added next proxyID := by
  obtain ⟨⟨existing, id⟩, first, done⟩ := of_bind_ok added
  obtain ⟨rfl, rfl⟩ := Prod.mk.inj (Except.ok.inj done)
  exact (addExistingProxy_added first).updateProxy _

theorem addProxyFromJSON_added {data : Bytes} {order : RangeOrder Bytes} {result : Option UInt64}
    (called : controller.addProxyFromJSON data order = .ok (next, result)) :
    (∃ proxyID, result = some proxyID ∧ controller.Added next proxyID) ∨
      (result = none ∧ next = controller) := by
  obtain ⟨decoded, _, rest⟩ := of_bind_ok called
  cases decoded with
  | none =>
    obtain ⟨rfl, rfl⟩ := Prod.mk.inj (Except.ok.inj rest)
    exact Or.inr ⟨rfl, rfl⟩
  | some proxy =>
    obtain ⟨⟨grown, id⟩, added, done⟩ := of_bind_ok rest
    obtain ⟨rfl, rfl⟩ := Prod.mk.inj (Except.ok.inj done)
    exact Or.inl ⟨id, rfl, addProxy_added added⟩

theorem destroyProxy_noneAdded {heap sessions : SessionHeap} {order : RangeOrder Bytes}
    {now : Time} {err : Option Bytes}
    (called : controller.destroyProxy heap proxyID order now = .ok (next, sessions, err)) :
    controller.NoneAdded next := by
  have removed : controller.NoneAdded
      { controller with proxies := controller.proxies.delete proxyID } := by
    refine ⟨rfl, fun other present absent => present ?_⟩
    cases made : controller.proxies with
    | none => exact MapVar.find_none other
    | some entries =>
      rw [made, MapVar.find_some] at absent
      simp only [MapVar.delete_some, MapVar.find_some]
      by_cases same : other = proxyID
      · rw [same, Finmap.lookup_erase]
      · rw [Finmap.lookup_erase_ne same, absent]
  unfold destroyProxy at called
  cases found : controller.proxies.find proxyID with
  | none =>
    rw [found] at called
    obtain ⟨rfl, -⟩ := Prod.mk.inj (Except.ok.inj called)
    exact ⟨rfl, fun _ present => present⟩
  | some val =>
    rw [found] at called
    obtain ⟨proxy, _, rest⟩ := of_bind_ok called
    by_cases running : proxy.running = true
    · rw [if_pos running] at rest
      obtain ⟨⟨_, _⟩, _, done⟩ := of_bind_ok rest
      exact (Prod.mk.inj (Except.ok.inj done)).1 ▸ removed
    · rw [if_neg running] at rest
      exact (Prod.mk.inj (Except.ok.inj rest)).1 ▸ removed

end ProxyController

/-- What a call does to the table and the counter. -/
theorem ProxyCall.perform_cases {call : ProxyCall} {s next : ControllerState} {world : World}
    {returned : Option UInt64} (performed : call.perform s world = .ok (next, returned)) :
    (∃ proxyID, returned = some proxyID ∧ s.controller.Added next.controller proxyID) ∨
      (returned = none ∧ s.controller.NoneAdded next.controller) := by
  cases call with
  | createProxy =>
    obtain ⟨⟨controller, proxyID⟩, added, done⟩ := of_bind_ok performed
    obtain ⟨rfl, rfl⟩ := Prod.mk.inj (Except.ok.inj done)
    exact Or.inl ⟨proxyID, rfl, ProxyController.addProxy_added added⟩
  | addProxy proxy =>
    obtain ⟨⟨controller, proxyID⟩, added, done⟩ := of_bind_ok performed
    obtain ⟨rfl, rfl⟩ := Prod.mk.inj (Except.ok.inj done)
    exact Or.inl ⟨proxyID, rfl, ProxyController.addProxy_added added⟩
  | addProxyFromJSON data =>
    obtain ⟨⟨controller, result⟩, called, done⟩ := of_bind_ok performed
    obtain ⟨rfl, rfl⟩ := Prod.mk.inj (Except.ok.inj done)
    rcases ProxyController.addProxyFromJSON_added called with added | ⟨none, rfl⟩
    · exact Or.inl added
    · exact Or.inr ⟨none, rfl, fun _ present => present⟩
  | addExistingProxy proxy =>
    obtain ⟨⟨controller, proxyID⟩, added, done⟩ := of_bind_ok performed
    obtain ⟨rfl, rfl⟩ := Prod.mk.inj (Except.ok.inj done)
    exact Or.inl ⟨proxyID, rfl, ProxyController.addExistingProxy_added added⟩
  | destroyProxy proxyID =>
    obtain ⟨⟨controller, sessions, err⟩, called, done⟩ := of_bind_ok performed
    obtain ⟨rfl, rfl⟩ := Prod.mk.inj (Except.ok.inj done)
    exact Or.inr ⟨rfl, ProxyController.destroyProxy_noneAdded called⟩

/-- No proxy has an ID that is still to be handed out; the last ID there is, is never. -/
def ProxyController.CountsAbove (controller : ProxyController) : Prop :=
  ∀ proxyID, controller.proxies.find proxyID ≠ none →
    proxyID < controller.proxyCounter ∨ proxyID.toNat = 2 ^ 64 - 1

theorem counter_step {counter : UInt64} {left : Nat}
    (room : counter.toNat + (left + 1) < 2 ^ 64) :
    (counter + 1).toNat = counter.toNat + 1 ∧ counter < counter + 1 := by
  have next : (counter + 1).toNat = counter.toNat + 1 := by
    rw [UInt64.toNat_add, UInt64.toNat_one]
    omega
  exact ⟨next, UInt64.lt_iff_toNat_lt.mpr (by omega)⟩

/-- The counter stays above all proxies, and above all IDs that were returned. -/
theorem neverReuses_of_countsAbove {calls : List (ProxyCall × World)} {s : ControllerState}
    {returned : List UInt64} (above : s.controller.CountsAbove)
    (below : ∀ id ∈ returned, id < s.controller.proxyCounter)
    (room : s.controller.proxyCounter.toNat + calls.length < 2 ^ 64) :
    NeverReuses s returned calls := by
  induction calls generalizing s returned with
  | nil => trivial
  | cons first calls ih =>
    obtain ⟨call, world⟩ := first
    rw [List.length_cons] at room
    intro next result performed
    rcases ProxyCall.perform_cases performed with ⟨id, rfl, added⟩ | ⟨rfl, same⟩
    · obtain ⟨grown, larger⟩ := counter_step room
      have counter : next.controller.proxyCounter = s.controller.proxyCounter + 1 :=
        added.id ▸ added.counter
      have unused : s.controller.proxies.find id = none := by
        by_contra present
        rcases above id present with smaller | last
        · exact UInt64.lt_irrefl _ (added.id ▸ smaller)
        · rw [added.id] at last
          omega
      refine ⟨fun proxyID same => ?_, ih ?_ ?_ ?_⟩
      · obtain rfl := Option.some.inj same
        exact ⟨unused, fun member => UInt64.lt_irrefl _ (added.id ▸ below _ member), added.others⟩
      · intro proxyID present
        rw [counter]
        by_cases same : proxyID = id
        · exact Or.inl (same ▸ added.id ▸ larger)
        · rw [added.others proxyID same] at present
          exact (above proxyID present).imp_left fun smaller => UInt64.lt_trans smaller larger
      · intro proxyID member
        rw [counter]
        rcases List.mem_append.mp member with old | new
        · exact UInt64.lt_trans (below proxyID old) larger
        · obtain rfl := List.mem_singleton.mp new
          exact added.id ▸ larger
      · rw [counter, grown]
        omega
    · refine ⟨fun id impossible => by contradiction, ih ?_ ?_ ?_⟩
      · intro proxyID present
        rw [same.counter]
        exact above proxyID (same.among proxyID present)
      · rw [same.counter]
        simpa using below
      · rw [same.counter]
        omega

theorem createProxy_performs {s : ControllerState} (made : s.controller.proxies ≠ none)
    (world : World) : Returns (ProxyCall.createProxy.perform s world) fun result =>
      ∃ proxyID, result.2 = some proxyID := by
  have existing : Returns (s.controller.addExistingProxy (makeNewProxy s.controller.defaultSigner))
      fun _ => True := (returns_assign made _ _).bind fun _ _ => returns_pure trivial
  have added : Returns s.controller.createProxy fun _ => True :=
    existing.bind fun _ _ => returns_pure trivial
  exact added.bind fun result _ => returns_pure ⟨result.2, rfl⟩

/-- Where a proxy has an ID that is still to come, so many proxies are created that its turn
comes. -/
theorem reuses_of_key {gap : Nat} {s : ControllerState} {returned : List UInt64} {key : UInt64}
    (made : s.controller.proxies ≠ none) (present : s.controller.proxies.find key ≠ none)
    (ahead : s.controller.proxyCounter.toNat + gap = key.toNat) (world : World) :
    ¬ NeverReuses s returned (List.replicate (gap + 1) (.createProxy, world)) := by
  intro never
  induction gap generalizing s returned with
  | zero =>
    obtain ⟨⟨next, _⟩, performed, id, rfl⟩ := createProxy_performs made world
    rcases ProxyCall.perform_cases performed with ⟨_, same, added⟩ | ⟨none, _⟩
    · obtain rfl := Option.some.inj same
      have here : id = key := added.id.trans (UInt64.toNat_inj.mp ahead)
      exact present (here ▸ ((never next _ performed).1 id rfl).unused)
    · contradiction
  | succ gap ih =>
    obtain ⟨⟨next, _⟩, performed, id, rfl⟩ := createProxy_performs made world
    rcases ProxyCall.perform_cases performed with ⟨_, same, added⟩ | ⟨none, _⟩
    · obtain rfl := Option.some.inj same
      have bound := key.toNat_lt
      obtain ⟨grown, _⟩ := @counter_step s.controller.proxyCounter 0 (by omega)
      have counter : next.controller.proxyCounter = s.controller.proxyCounter + 1 :=
        added.id ▸ added.counter
      have other : key ≠ id := by
        rintro rfl
        rw [added.id] at ahead
        omega
      refine ih added.made ?_ ?_ (never next _ performed).2
      · rw [added.others key other]
        exact present
      · rw [counter, grown]
        omega
    · contradiction

/-- On a controller that is ready for use, no ID is reused in any run of so few calls exactly
when its counter is above the IDs of its proxies. -/
theorem neverReuses_iff {ready : ProxyController} (setUp : ready.SetUp) :
    (∀ calls : List (ProxyCall × World), calls.length < 2 ^ 64 - ready.proxyCounter.toNat →
      NeverReuses { controller := ready } [] calls) ↔ ready.CountsAbove := by
  have made : ready.proxies ≠ none := (@ProxyController.SetUp.proper ready 0 1 setUp).made
  constructor
  · intro never key present
    by_contra outside
    rw [not_or, UInt64.not_lt, UInt64.le_iff_toNat_le] at outside
    obtain ⟨ahead, notLast⟩ := outside
    have bound := key.toNat_lt
    refine @reuses_of_key (key.toNat - ready.proxyCounter.toNat) { controller := ready } [] key made
      present (by simp only; omega) sortedWorld (never _ ?_)
    rw [List.length_replicate]
    omega
  · intro above calls few
    exact neverReuses_of_countsAbove above (fun id none => absurd none List.not_mem_nil)
      (by simp only; omega)

theorem neverReuses_iff_empty :
    (∀ calls : List (ProxyCall × World), calls.length < 2 ^ 64 - emptyController.proxyCounter.toNat →
      NeverReuses { controller := emptyController } [] calls) ↔ emptyController.CountsAbove :=
  neverReuses_iff emptyController_setUp

/-- A counter that the file leaves out is not made up for. -/
theorem ProxyController.initializeController_counter {controller next : ProxyController}
    {setup : Setup} (ran : controller.initializeController setup = .ok next) :
    next.proxyCounter = controller.proxyCounter := by
  obtain ⟨logged, first, rest⟩ := of_bind_ok ran
  obtain ⟨visited, second, last⟩ := of_bind_ok rest
  have kept : logged.proxyCounter = controller.proxyCounter := by
    unfold ensureLogger at first
    split at first
    · obtain ⟨-, ⟨proxies, rfl⟩, -⟩ := updateEach_ok first
      rfl
    · rw [Except.ok.inj first]
  obtain ⟨-, ⟨proxies, rfl⟩, -⟩ := updateEach_ok second
  obtain ⟨-, ⟨proxies', rfl⟩, -⟩ := updateEach_ok last
  exact kept

/-- A file with the proxy 0 and no counter. -/
def uncountedConfig : Json := .obj [("Proxies".toList, .obj [("0".toList, .obj [])])]

def uncountedController : ProxyController where
  proxies := some ((∅ : GoMap UInt64 (Option ProxyContext)).insert 0 (some {}))

theorem uncountedConfig_read :
    ProxyController.codec.unmarshal (utf8 (marshalText uncountedConfig)) {} =
      some uncountedController :=
  (ProxyController.codec.unmarshal_render .compact uncountedConfig {}).trans rfl

theorem loadControllerConfigFromFile_read {data : Bytes} {decoded ready : ProxyController}
    {signer : Option Signer} {setup : Setup}
    (read : ProxyController.codec.unmarshal data {} = some decoded)
    (ran : ProxyController.initializeController
      { decoded with defaultSigner := signer.or decoded.defaultSigner } setup = .ok ready) :
    loadControllerConfigFromFile data signer setup = .ok (some ready) := by
  unfold loadControllerConfigFromFile
  rw [read]
  simp only [ran, bind, Except.bind]
  rfl

theorem uncountedController_initialized : ∃ ready,
    ProxyController.initializeController { uncountedController with defaultSigner := some 0 }
      sortedSetup = .ok ready ∧
    ready.proxies ≠ none ∧ ready.proxies.find 0 ≠ none ∧ ready.proxyCounter = 0 := by
  have linkable : ({} : ProxyContext).Linkable := fun key =>
    ⟨fun stored => by simp at stored, fun viewer user stored => by simp at stored⟩
  have stored : uncountedController.proxies.find 0 = some (some {}) := Finmap.lookup_insert ∅
  have pointers : ∀ proxyID val, uncountedController.proxies.find proxyID = some val →
      ∃ proxy, val = some proxy ∧ proxy.Linkable := by
    intro proxyID val found
    by_cases same : proxyID = 0
    · rw [same, stored] at found
      exact ⟨{}, (Option.some.inj found).symm, linkable⟩
    · have absent : uncountedController.proxies.find proxyID = none :=
        (Finmap.lookup_insert_of_ne ∅ same).trans (Finmap.lookup_empty proxyID)
      rw [absent] at found
      contradiction
  obtain ⟨ready, ran, -⟩ := @ProxyController.initializeController_returns
    { uncountedController with defaultSigner := some 0 } pointers sortedSetup
  obtain ⟨each, -, -, -, made⟩ := ProxyController.initializeController_ok ran
  refine ⟨ready, ran, made, ?_, ProxyController.initializeController_counter ran⟩
  rcases each 0 with ⟨absent, _⟩ | ⟨_, _, _, _, _, _, there, _⟩
  · exact absurd (stored.symm.trans absent) (Option.some_ne_none _)
  · rw [there]
    exact Option.some_ne_none _

/-- The first proxy that is created then takes the place of the one that was loaded. -/
theorem createProxy_overwrites :
    ¬ ∀ ready : ProxyController,
      ((∃ setup, ({} : ProxyController).initializeController setup = .ok ready) ∨
        ∃ data signer setup, loadControllerConfigFromFile data signer setup = .ok (some ready)) →
      ∀ calls : List (ProxyCall × World), calls.length < 2 ^ 64 - ready.proxyCounter.toNat →
        NeverReuses { controller := ready } [] calls := by
  intro claim
  obtain ⟨ready, ran, made, present, counter⟩ := uncountedController_initialized
  have loaded := @loadControllerConfigFromFile_read _ _ ready (some 0) sortedSetup
    uncountedConfig_read ran
  have never := claim ready (Or.inr ⟨_, _, _, loaded⟩)
    (List.replicate 1 (.createProxy, sortedWorld)) (by rw [counter]; decide)
  exact @reuses_of_key 0 { controller := ready } [] 0 made present (by rw [counter]; rfl)
    sortedWorld never

end SSHProxyPlus
