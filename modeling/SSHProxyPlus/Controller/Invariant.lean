import SSHProxyPlus.Controller.Commands
import SSHProxyPlus.Proxy.Initialization

/-! What every controller in use has: no map, proxy or viewer is nil, a proxy that runs has
a listener, a session that is active has a user, and no hook is in a user's list twice. -/
namespace SSHProxyPlus
open Go

/-- The hooks of a user are distinct, and each was handed out. -/
structure Hooked (filters callbacks : Nat) (user : ProxyUser) : Prop where
  eventCallbacks : user.eventCallbacks.Nodup
  callbackBelow : ∀ callback ∈ user.eventCallbacks, callback < callbacks
  channelFilters : user.channelFilters.Nodup
  filterBelow : ∀ function ∈ user.channelFilters, function < filters

structure ProxyContext.Proper (filters callbacks : Nat) (proxy : ProxyContext) : Prop where
  log : proxy.log ≠ none
  users : proxy.users ≠ none
  userSessions : proxy.userSessions ≠ none
  allSessions : proxy.allSessions ≠ none
  viewers : proxy.viewers ≠ none
  viewer : ∀ key, proxy.viewers.find key ≠ some none
  listening : proxy.running = true → proxy.listener ≠ none
  hooks : ∀ key user, proxy.users.find key = some (some user) → Hooked filters callbacks user

/-- `End` can read what it needs. -/
def SessionContext.Endable (session : SessionContext) : Prop :=
  session.active = true → session.user ≠ none ∧ session.linked = true

structure ProxyController.Proper (filters callbacks : Nat) (controller : ProxyController) :
    Prop where
  log : controller.log ≠ none
  channelFilters : controller.channelFilters ≠ none
  eventCallbacks : controller.eventCallbacks ≠ none
  made : controller.proxies ≠ none
  proxies : ∀ proxyID val, controller.proxies.find proxyID = some val →
    ∃ proxy, val = some proxy ∧ proxy.Proper filters callbacks

structure ControllerState.Good (s : ControllerState) : Prop where
  controller : s.controller.Proper s.filters.length s.callbacks.length
  sessions : ∀ session ∈ s.sessions, session.Endable

theorem Hooked.mono {filters filters' callbacks callbacks' : Nat} {user : ProxyUser}
    (hooked : Hooked filters callbacks user) (more : filters ≤ filters')
    (more' : callbacks ≤ callbacks') : Hooked filters' callbacks' user :=
  ⟨hooked.eventCallbacks, fun c member => Nat.lt_of_lt_of_le (hooked.callbackBelow c member) more',
    hooked.channelFilters, fun f member => Nat.lt_of_lt_of_le (hooked.filterBelow f member) more⟩

section
variable {filters filters' callbacks callbacks' : Nat}

theorem ProxyContext.Proper.mono {proxy : ProxyContext} (proper : proxy.Proper filters callbacks)
    (more : filters ≤ filters') (more' : callbacks ≤ callbacks') :
    proxy.Proper filters' callbacks' :=
  { proper with hooks := fun key user found => (proper.hooks key user found).mono more more' }

theorem ProxyController.Proper.mono {controller : ProxyController}
    (proper : controller.Proper filters callbacks) (more : filters ≤ filters')
    (more' : callbacks ≤ callbacks') : controller.Proper filters' callbacks' := by
  refine { proper with proxies := fun proxyID val found => ?_ }
  obtain ⟨proxy, same, held⟩ := proper.proxies proxyID val found
  exact ⟨proxy, same, held.mono more more'⟩

def ProxyUser.Unhooked (user : ProxyUser) : Prop :=
  user.eventCallbacks = [] ∧ user.channelFilters = []

theorem ProxyUser.Unhooked.hooked {user : ProxyUser} (unhooked : user.Unhooked) :
    Hooked filters callbacks user where
  eventCallbacks := unhooked.1 ▸ List.nodup_nil
  callbackBelow _ member := absurd (unhooked.1 ▸ member) List.not_mem_nil
  channelFilters := unhooked.2 ▸ List.nodup_nil
  filterBelow _ member := absurd (unhooked.2 ▸ member) List.not_mem_nil

/-- A proxy before it is set up: it does not run, and its users have no hooks. -/
structure ProxyContext.Idle (proxy : ProxyContext) : Prop where
  running : proxy.running = false
  everyone : ProxyContext.Everyone ProxyUser.Unhooked proxy

theorem ProxyContext.Decoded.idle {proxy : ProxyContext} (decoded : proxy.Decoded) :
    proxy.Idle where
  running := decoded.running
  everyone := {
    registered := fun key user found =>
      have user := (decoded.users key _ found).2 user rfl
      ⟨user.eventCallbacks, user.channelFilters⟩
    viewing := fun key viewer user found held =>
      have user := ((decoded.viewers key _ found).2 viewer rfl).user user held
      ⟨user.eventCallbacks, user.channelFilters⟩ }

/-- Whatever `Initialize` makes of an idle proxy is in order. -/
theorem initializeProxy_proper {proxy next : ProxyContext} (idle : proxy.Idle)
    {signer : Option Signer} {order : RangeOrder Bytes}
    (made : proxy.initializeProxy signer order = .ok next) : next.Proper filters callbacks := by
  have visited := ProxyContext.initializeProxy_viewer made
  have maps := ProxyContext.initializeProxy_made made
  have users := (idle.everyone.initializeProxy made).registered
  obtain ⟨us, vs, rfl⟩ := ProxyContext.initializeProxy_changes made
  have filled : ∀ {V : Type} (m : Option V) (v : V), m.or (some v) ≠ none := by
    intro V m v
    cases m with
    | none => exact Option.some_ne_none v
    | some w => exact Option.some_ne_none w
  exact {
    log := filled _ _
    users := maps.1
    userSessions := filled _ _
    allSessions := filled _ _
    viewers := maps.2
    viewer := visited
    listening := fun running => absurd (idle.running.symm.trans running) Bool.false_ne_true
    hooks := fun key user found => (users key user found).hooked }

namespace ProxyController
variable {controller : ProxyController} {proxyID : UInt64}

theorem updateProxy_find (controller : ProxyController) (proxyID other : UInt64)
    (proxy : ProxyContext) :
    (controller.updateProxy proxyID proxy).proxies.find other =
      if other = proxyID ∧ controller.proxies ≠ none then some (some proxy)
      else controller.proxies.find other := by
  unfold updateProxy
  cases made : controller.proxies with
  | none => simp
  | some entries =>
    by_cases same : other = proxyID
    · subst same
      simp
    · simp [same]

theorem Proper.updateProxy (proper : controller.Proper filters callbacks) {proxy : ProxyContext}
    (held : proxy.Proper filters callbacks) :
    (controller.updateProxy proxyID proxy).Proper filters callbacks := by
  refine { proper with made := ?_, proxies := fun other val found => ?_ }
  · obtain ⟨entries, made⟩ := Option.ne_none_iff_exists'.mp proper.made
    simp [ProxyController.updateProxy, made]
  · rw [updateProxy_find] at found
    split at found
    · exact ⟨proxy, (Option.some.inj found).symm, held⟩
    · exact proper.proxies other val found

/-- Either there is no such proxy and the error says so, or there is one and no error. -/
theorem Proper.getProxy (proper : controller.Proper filters callbacks) (proxyID : UInt64) :
    (controller.proxies.find proxyID = none ∧
      controller.getProxy proxyID = (none, some (cannotFindProxy proxyID))) ∨
    ∃ proxy, controller.proxies.find proxyID = some (some proxy) ∧
      controller.getProxy proxyID = (some proxy, none) ∧ proxy.Proper filters callbacks := by
  cases found : controller.proxies.find proxyID with
  | none => exact Or.inl ⟨rfl, by simp [ProxyController.getProxy, found]⟩
  | some val =>
    obtain ⟨proxy, rfl, held⟩ := proper.proxies proxyID val found
    exact Or.inr ⟨proxy, rfl, by simp [ProxyController.getProxy, found], held⟩

theorem Proper.addProxy (proper : controller.Proper filters callbacks) {proxy : ProxyContext}
    (held : proxy.Proper filters callbacks) :
    Returns (controller.addProxy proxy) fun result => result.1.Proper filters callbacks := by
  have existing : Returns (controller.addExistingProxy proxy) fun result =>
      result.1.Proper filters callbacks := by
    refine (returns_assign proper.made _ _).bind fun proxies ⟨entries, made, same⟩ => ?_
    refine returns_pure ?_
    subst same
    refine { proper with made := Option.some_ne_none _, proxies := fun other val found => ?_ }
    rw [MapVar.find_some] at found
    by_cases here : other = controller.proxyCounter
    · subst here
      rw [Finmap.lookup_insert] at found
      exact ⟨proxy, (Option.some.inj found).symm, held⟩
    · rw [Finmap.lookup_insert_of_ne _ here] at found
      exact proper.proxies other val (by rw [made]; exact found)
  refine existing.bind fun ⟨added, proxyID⟩ addedProper => returns_pure ?_
  exact addedProper.updateProxy { held with log := addedProper.log }

end ProxyController

/-- Where the random source does not fail, a viewer can be made. -/
def Drawable (draw : RandomSource) : Prop :=
  generateRandomString sessionViewerSecretLen draw ≠ none

namespace ProxyContext
variable {proxy : ProxyContext} {username password : Bytes}

/-- Where no nil user is in the way, whoever is found is stored under the key its lookup
ended at. -/
theorem getProxyUser_found (notNil : ¬ proxy.NilUser username password) (cloneUser : Bool) :
    Returns (proxy.getProxyUser username password cloneUser) fun result =>
      ∀ found blank, result = .ok (found, blank) →
        ∃ user, found = some user ∧
          proxy.users.find (buildProxyUserKey username (if blank then [] else password)) =
            some (some user) := by
  unfold getProxyUser
  cases exactly : proxy.users.find (buildProxyUserKey username password) with
  | some val =>
    obtain ⟨user, rfl⟩ : ∃ user, val = some user :=
      Option.ne_none_iff_exists'.mp fun nil => notNil (Or.inl (nil ▸ exactly))
    have answer : ∀ found blank,
        (.ok (some user, false) : Except Bytes (Option ProxyUser × Bool)) = .ok (found, blank) →
        ∃ user, found = some user ∧
          proxy.users.find (buildProxyUserKey username (if blank then [] else password)) =
            some (some user) := by
      rintro found blank same
      obtain ⟨rfl, rfl⟩ := Prod.mk.inj (Except.ok.inj same)
      exact ⟨user, rfl, exactly⟩
    cases cloneUser with
    | true => exact returns_pure answer
    | false => exact returns_pure answer
  | none =>
    cases blankly : proxy.users.find (buildProxyUserKey username []) with
    | none => exact returns_pure fun found blank same => by contradiction
    | some val =>
      obtain ⟨user, rfl⟩ : ∃ user, val = some user :=
        Option.ne_none_iff_exists'.mp fun nil => notNil (Or.inr ⟨exactly, nil ▸ blankly⟩)
      simp only [deref_some, bind, Except.bind]
      split
      · refine returns_pure fun found blank same => ?_
        obtain ⟨rfl, rfl⟩ := Prod.mk.inj (Except.ok.inj same)
        exact ⟨user, rfl, blankly⟩
      · exact returns_pure fun found blank same => by contradiction

theorem Proper.addSessionViewer (proper : proxy.Proper filters callbacks)
    (viewer : ProxySessionViewer) :
    Returns (proxy.addSessionViewer viewer) fun next => next.Proper filters callbacks := by
  refine (returns_assign proper.viewers _ _).bind fun viewers ⟨entries, made, same⟩ =>
    returns_pure ?_
  subst same
  refine { proper with viewers := Option.some_ne_none _, viewer := fun key nil => ?_ }
  rw [MapVar.find_some] at nil
  by_cases here : key = viewer.secret
  · subst here
    rw [Finmap.lookup_insert] at nil
    exact absurd (Option.some.inj nil) (Option.some_ne_none viewer)
  · rw [Finmap.lookup_insert_of_ne _ here] at nil
    exact proper.viewer key (by rw [made]; exact nil)

theorem createNewSessionViewer_returns {draw : RandomSource} (drawable : Drawable draw)
    (viewerType : Int64) (user : ProxyUser) :
    Returns (createNewSessionViewer viewerType user draw) fun _ => True := by
  obtain ⟨secret, random⟩ := Option.ne_none_iff_exists'.mp drawable
  unfold createNewSessionViewer
  rw [random]
  exact returns_ok trivial

theorem Proper.makeSessionViewerForUser (proper : proxy.Proper filters callbacks)
    (notNil : ¬ proxy.NilUser username password) {draw : RandomSource} (drawable : Drawable draw) :
    Returns (proxy.makeSessionViewerForUser username password draw) fun result =>
      result.1.Proper filters callbacks := by
  refine (getProxyUser_found notNil true).bind fun result _ => ?_
  split
  · refine (createNewSessionViewer_returns drawable _ _).bind fun viewer _ => ?_
    exact (proper.addSessionViewer viewer).bind fun next kept => returns_pure kept
  · exact returns_pure proper
  · exact returns_pure proper

theorem Proper.makeSessionViewerForSession (proper : proxy.Proper filters callbacks)
    (notNil : ¬ proxy.NilUser username password) {draw : RandomSource} (drawable : Drawable draw)
    (session : Bytes) :
    Returns (proxy.makeSessionViewerForSession username password session draw) fun result =>
      result.1.Proper filters callbacks := by
  refine (getProxyUser_found notNil true).bind fun result _ => ?_
  split
  · refine (createNewSessionViewer_returns drawable _ _).bind fun viewer _ => ?_
    exact (proper.addSessionViewer _).bind fun next kept => returns_pure kept
  · exact returns_pure proper
  · exact returns_pure proper

theorem Proper.addProxyUser (proper : proxy.Proper filters callbacks) {user : ProxyUser}
    (hooked : Hooked filters callbacks user) :
    Returns (proxy.addProxyUser user) fun result => result.1.Proper filters callbacks := by
  refine (returns_assign proper.users _ _).bind fun users ⟨entries, made, same⟩ => returns_pure ?_
  subst same
  refine { proper with users := Option.some_ne_none _, hooks := fun key other found => ?_ }
  rw [MapVar.find_some] at found
  by_cases here : key = buildProxyUserKey user.username user.password
  · subst here
    rw [Finmap.lookup_insert] at found
    exact Option.some.inj (Option.some.inj found) ▸ hooked
  · rw [Finmap.lookup_insert_of_ne _ here] at found
    exact proper.hooks key other (by rw [made]; exact found)

theorem Proper.removeProxyUser (proper : proxy.Proper filters callbacks)
    (username password : Bytes) :
    (proxy.removeProxyUser username password).1.Proper filters callbacks := by
  obtain ⟨users, removed, kept⟩ := proxy.removeProxyUser_changes username password
  have made : users ≠ none := by
    rintro rfl
    have unchanged : (proxy.removeProxyUser username password).1.users = none := by rw [removed]
    simp only [ProxyContext.removeProxyUser] at unchanged
    obtain ⟨entries, same⟩ := Option.ne_none_iff_exists'.mp proper.users
    split at unchanged <;> simp [same] at unchanged
  rw [removed]
  exact { proper with
    users := made
    hooks := fun key user found => proper.hooks key user (kept key _ found) }

theorem Proper.updateFoundUser (proper : proxy.Proper filters callbacks) {user : ProxyUser}
    (hooked : Hooked filters callbacks user) (blank : Bool) :
    (proxy.updateFoundUser username password blank user).Proper filters callbacks := by
  obtain ⟨entries, made⟩ := Option.ne_none_iff_exists'.mp proper.users
  have same : proxy.updateFoundUser username password blank user = { proxy with
      users := some (entries.insert (buildProxyUserKey username (if blank then [] else password))
        (some user)) } := by
    simp [ProxyContext.updateFoundUser, made]
  rw [same]
  refine { proper with users := Option.some_ne_none _, hooks := fun key other found => ?_ }
  rw [MapVar.find_some] at found
  by_cases here : key = buildProxyUserKey username (if blank then [] else password)
  · rw [here, Finmap.lookup_insert] at found
    exact Option.some.inj (Option.some.inj found) ▸ hooked
  · rw [Finmap.lookup_insert_of_ne _ here] at found
    exact proper.hooks key other (by rw [made]; exact found)

/-- Expired viewers are dropped; none ever is. -/
theorem removeExpiredSessions_eq (proxy : ProxyContext) (order : RangeOrder Bytes) :
    proxy.removeExpiredSessions order = proxy := by
  have turn : ∀ key, proxy.removeIfExpired key = proxy := by
    intro key
    unfold removeIfExpired
    split
    · rfl
    · rfl
  have loop : ∀ keys : List Bytes, keys.foldl removeIfExpired proxy = proxy := by
    intro keys
    induction keys with
    | nil => rfl
    | cons key keys ih => rw [List.foldl_cons, turn, ih]
  exact loop _

theorem getSessionViewer_eq (proxy : ProxyContext) (key : Bytes) :
    (proxy.getSessionViewer key).1 = proxy := by
  unfold getSessionViewer
  split
  · rfl
  · rfl

end ProxyContext

theorem SessionContext.Endable.endSession {session : SessionContext} (endable : session.Endable)
    (folder : Bytes) (now : Time) :
    Returns (session.endSession folder now) fun ended => ended.active = false := by
  unfold SessionContext.endSession
  cases active : session.active with
  | false => exact returns_pure active
  | true =>
    obtain ⟨owner, linked⟩ := endable active
    have handled : ∀ event, Returns (SessionContext.handleEvent
        { session with active := false, stopTime := now } event now) fun recorded =>
          recorded.active = false :=
      fun event => (returns_deref owner).bind fun _ _ => returns_pure rfl
    refine (handled _).bind fun recorded inactive => ?_
    rw [linked]
    refine (returns_deref (Option.some_ne_none ())).bind fun _ _ => returns_pure ?_
    unfold SessionContext.finalizeLog
    split
    · exact inactive
    · exact inactive

theorem SessionContext.endable_of_inactive {session : SessionContext}
    (inactive : session.active = false) : session.Endable :=
  fun active => absurd (inactive.symm.trans active) Bool.false_ne_true

theorem endable_session {heap : SessionHeap} (endable : ∀ session ∈ heap, session.Endable)
    (ref : SessionRef) : (heap.session ref).Endable := by
  unfold SessionHeap.session
  rw [List.getD_eq_getElem?_getD]
  cases present : heap[ref]? with
  | none => exact SessionContext.endable_of_inactive rfl
  | some session => exact endable session (List.mem_of_getElem? present)

/-- Stopping ends the sessions, one by one, and closes the listener. -/
theorem ProxyContext.stop_returns {proxy : ProxyContext} (open' : proxy.listener ≠ none)
    {heap : SessionHeap} (endable : ∀ session ∈ heap, session.Endable) (order : RangeOrder Bytes)
    (now : Time) : Returns (proxy.stop heap order now) fun result =>
      result.1 = { proxy with running := false, listener := some .closed } ∧
        ∀ session ∈ result.2, session.Endable := by
  refine (returns_deref open').bind fun _ _ => ?_
  have turn : ∀ heap : SessionHeap, ∀ key ∈ order.over proxy.allSessions.content,
      (∀ session ∈ heap, session.Endable) →
      Returns (ProxyContext.endAt proxy.sessionFolder now proxy.allSessions.content heap key)
        fun ended => ∀ session ∈ ended, session.Endable := by
    intro heap key _ endable
    unfold ProxyContext.endAt
    split
    · next ref _ =>
      refine ((endable_session endable ref).endSession _ now).bind fun ended inactive =>
        returns_pure fun session member => ?_
      rcases List.mem_or_eq_of_mem_set member with old | rfl
      · exact endable session old
      · exact SessionContext.endable_of_inactive inactive
    · exact returns_pure endable
  exact (returns_foldlM _ turn endable).bind fun ended kept => returns_pure ⟨rfl, kept⟩

theorem ProxyContext.Proper.stop {proxy : ProxyContext} (proper : proxy.Proper filters callbacks)
    (open' : proxy.listener ≠ none) {heap : SessionHeap}
    (endable : ∀ session ∈ heap, session.Endable) (order : RangeOrder Bytes) (now : Time) :
    Returns (proxy.stop heap order now) fun result =>
      result.1.Proper filters callbacks ∧ ∀ session ∈ result.2, session.Endable := by
  refine (ProxyContext.stop_returns open' endable order now).mono fun result ⟨stopped, kept⟩ =>
    ⟨?_, kept⟩
  rw [stopped]
  exact { proper with listening := fun running => absurd running Bool.false_ne_true }

end
end SSHProxyPlus
