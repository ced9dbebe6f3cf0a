import SSHProxyPlus.Controller.Invariant

/-! What each operation of the controller needs so as to return, and that a proper
controller is left proper. -/
namespace SSHProxyPlus
open Go

variable {filters callbacks : Nat} {controller : ProxyController}

namespace ProxyController

/-- The proxy of that ID, where there is one, is as `P` says. -/
def Addresses (controller : ProxyController) (proxyID : UInt64) (P : ProxyContext → Prop) : Prop :=
  ∀ proxy, controller.proxies.find proxyID = some (some proxy) → P proxy

theorem Proper.addProxyFromJSON (proper : controller.Proper filters callbacks) {data : Bytes}
    (linkable : ∀ proxy, ProxyContext.codec.unmarshal data {} = some proxy → proxy.Linkable)
    (order : RangeOrder Bytes) :
    Returns (controller.addProxyFromJSON data order) fun result =>
      result.1.Proper filters callbacks := by
  have made : Returns (makeProxyFromJSON data controller.defaultSigner order) fun result =>
      ∀ proxy, result = some proxy → proxy.Proper filters callbacks := by
    unfold makeProxyFromJSON
    cases read : ProxyContext.codec.unmarshal data {} with
    | none => exact returns_pure fun proxy same => by contradiction
    | some decoded =>
      obtain ⟨ready, initialized, -⟩ := ProxyContext.initializeProxy_returns
        (linkable decoded read) controller.defaultSigner order
      refine ⟨some ready, by simp [initialized, bind, Except.bind, pure, Except.pure], ?_⟩
      rintro proxy same
      exact Option.some.inj same ▸
        initializeProxy_proper (ProxyContext.unmarshal_decoded read).idle initialized
  refine made.bind fun result held => ?_
  cases result with
  | none => exact returns_pure proper
  | some proxy =>
    exact (proper.addProxy (held proxy rfl)).bind fun added kept => returns_pure kept

theorem Proper.delete (proper : controller.Proper filters callbacks) (proxyID : UInt64) :
    ({ controller with proxies := controller.proxies.delete proxyID }).Proper
      filters callbacks := by
  obtain ⟨entries, made⟩ := Option.ne_none_iff_exists'.mp proper.made
  refine { proper with made := by simp [made], proxies := fun other val found => ?_ }
  simp only [made, MapVar.delete_some, MapVar.find_some] at found
  by_cases same : other = proxyID
  · rw [same, Finmap.lookup_erase] at found
    contradiction
  · rw [Finmap.lookup_erase_ne same] at found
    exact proper.proxies other val (by rw [made]; exact found)

theorem Proper.stopProxy (proper : controller.Proper filters callbacks) {heap : SessionHeap}
    (endable : ∀ session ∈ heap, session.Endable) {proxyID : UInt64}
    (open' : controller.Addresses proxyID fun proxy => proxy.listener ≠ none)
    (order : RangeOrder Bytes) (now : Time) :
    Returns (controller.stopProxy heap proxyID order now) fun result =>
      result.1.Proper filters callbacks ∧ ∀ session ∈ result.2.1, session.Endable := by
  unfold ProxyController.stopProxy
  rcases proper.getProxy proxyID with ⟨_, missing⟩ | ⟨proxy, found, got, held⟩
  · rw [missing]
    exact returns_pure ⟨proper, endable⟩
  · rw [got]
    exact (held.stop (open' proxy found) endable order now).bind fun result kept =>
      returns_pure ⟨proper.updateProxy kept.1, kept.2⟩

/-- A proxy is stopped before it is destroyed only where it runs, so it has a listener. -/
theorem Proper.destroyProxy (proper : controller.Proper filters callbacks) {heap : SessionHeap}
    (endable : ∀ session ∈ heap, session.Endable) (proxyID : UInt64) (order : RangeOrder Bytes)
    (now : Time) :
    Returns (controller.destroyProxy heap proxyID order now) fun result =>
      result.1.Proper filters callbacks ∧ ∀ session ∈ result.2.1, session.Endable := by
  unfold ProxyController.destroyProxy
  cases found : controller.proxies.find proxyID with
  | none => exact returns_pure ⟨proper, endable⟩
  | some val =>
    obtain ⟨proxy, rfl, held⟩ := proper.proxies proxyID val found
    refine (returns_deref (Option.some_ne_none proxy)).bind fun same isProxy => ?_
    obtain rfl := Option.some.inj isProxy
    by_cases running : proxy.running = true
    · simp only [running, if_true]
      exact (held.stop (held.listening running) endable order now).bind fun result kept =>
        returns_pure ⟨proper.delete proxyID, kept.2⟩
    · simp only [running]
      exact returns_pure ⟨proper.delete proxyID, endable⟩

theorem Proper.withProxy (proper : controller.Proper filters callbacks) (proxyID : UInt64)
    {f : ProxyContext → ProxyContext}
    (keeps : ∀ proxy : ProxyContext, proxy.Proper filters callbacks →
      (f proxy).Proper filters callbacks) :
    (controller.withProxy proxyID f).1.Proper filters callbacks := by
  unfold ProxyController.withProxy
  rcases proper.getProxy proxyID with ⟨_, missing⟩ | ⟨proxy, _, got, held⟩
  · rw [missing]
    exact proper
  · rw [got]
    exact proper.updateProxy (keeps proxy held)

theorem Proper.activateProxy (proper : controller.Proper filters callbacks) (proxyID : UInt64) :
    (controller.activateProxy proxyID).1.Proper filters callbacks :=
  proper.withProxy proxyID fun _ held => { held with }

theorem Proper.deactivateProxy (proper : controller.Proper filters callbacks) (proxyID : UInt64) :
    (controller.deactivateProxy proxyID).1.Proper filters callbacks :=
  proper.withProxy proxyID fun _ held => { held with }

theorem Proper.addUserToProxy (proper : controller.Proper filters callbacks) (proxyID : UInt64)
    {user : ProxyUser} (hooked : Hooked filters callbacks user) :
    Returns (controller.addUserToProxy proxyID user) fun result =>
      result.1.Proper filters callbacks := by
  unfold ProxyController.addUserToProxy
  rcases proper.getProxy proxyID with ⟨_, missing⟩ | ⟨proxy, _, got, held⟩
  · rw [missing]
    exact returns_pure proper
  · rw [got]
    exact (held.addProxyUser hooked).bind fun result kept => returns_pure (proper.updateProxy kept)

theorem Proper.removeUserFromProxy (proper : controller.Proper filters callbacks)
    (proxyID : UInt64) (username password : Bytes) :
    (controller.removeUserFromProxy proxyID username password).1.Proper filters callbacks := by
  unfold ProxyController.removeUserFromProxy
  rcases proper.getProxy proxyID with ⟨_, missing⟩ | ⟨proxy, _, got, held⟩
  · rw [missing]
    exact proper
  · rw [got]
    exact proper.updateProxy (held.removeProxyUser username password)

/-- The viewers that are listed are those of the proxy, and none of them is nil. -/
theorem Proper.getProxyViewers (proper : controller.Proper filters callbacks) (proxyID : UInt64)
    (order : RangeOrder Bytes) :
    Returns (controller.getProxyViewers proxyID order) fun result =>
      result.1.Proper filters callbacks ∧ ∀ viewers, result.2 = .ok viewers →
        ∃ proxy, controller.proxies.find proxyID = some (some proxy) ∧
          ∀ pointer ∈ viewers, ∃ viewer key, pointer = some viewer ∧
            proxy.viewers.find key = some (some viewer) := by
  unfold ProxyController.getProxyViewers
  rcases proper.getProxy proxyID with ⟨_, missing⟩ | ⟨proxy, found, got, held⟩
  · rw [missing]
    exact returns_pure ⟨proper, fun viewers same => by contradiction⟩
  · rw [got]
    simp only [deref_some, bind, Except.bind, ProxyContext.removeExpiredSessions_eq]
    refine returns_pure ⟨proper.updateProxy held, fun viewers same => ⟨proxy, found, ?_⟩⟩
    obtain rfl := Except.ok.inj same
    intro pointer member
    obtain ⟨key, -, stored⟩ := List.mem_filterMap.mp member
    cases pointer with
    | none => exact absurd stored (held.viewer key)
    | some viewer => exact ⟨viewer, key, rfl, stored⟩

theorem Proper.getProxyViewerByViewerKey (proper : controller.Proper filters callbacks)
    (proxyID : UInt64) (viewerKey : Bytes) :
    Returns (controller.getProxyViewerByViewerKey proxyID viewerKey) fun result =>
      result.1.Proper filters callbacks := by
  unfold ProxyController.getProxyViewerByViewerKey
  rcases proper.getProxy proxyID with ⟨_, missing⟩ | ⟨proxy, _, got, held⟩
  · rw [missing]
    exact returns_pure proper
  · rw [got]
    have same := proxy.getSessionViewer_eq viewerKey
    simp only [deref_some, bind, Except.bind]
    split
    · next next viewer shown =>
      obtain rfl : next = proxy := by rw [shown] at same; exact same
      exact returns_pure (proper.updateProxy held)
    · next next shown =>
      obtain rfl : next = proxy := by rw [shown] at same; exact same
      exact returns_pure (proper.updateProxy held)

variable {test : ProxySessionViewer → Except Panic Bool}

theorem firstViewer_returns {viewers : List (Option ProxySessionViewer)}
    (all : ∀ pointer ∈ viewers, ∃ viewer, pointer = some viewer ∧
      Returns (test viewer) fun _ => True) :
    Returns (firstViewer test viewers) fun _ => True := by
  induction viewers with
  | nil => exact returns_pure trivial
  | cons pointer rest ih =>
    obtain ⟨viewer, rfl, tested⟩ := all _ List.mem_cons_self
    have later := ih fun other member => all other (List.mem_cons_of_mem _ member)
    refine tested.bind fun passes _ => ?_
    cases passes with
    | true => exact returns_pure trivial
    | false => exact later

theorem matchingViewers_returns {viewers : List (Option ProxySessionViewer)}
    (all : ∀ pointer ∈ viewers, ∃ viewer, pointer = some viewer ∧
      Returns (test viewer) fun _ => True) :
    Returns (matchingViewers test viewers) fun _ => True := by
  induction viewers with
  | nil => exact returns_pure trivial
  | cons pointer rest ih =>
    obtain ⟨viewer, rfl, tested⟩ := all _ List.mem_cons_self
    have later := ih fun other member => all other (List.mem_cons_of_mem _ member)
    exact tested.bind fun passes _ => later.bind fun more _ => returns_pure trivial

/-- Every viewer of the proxy passes or fails the test without a panic. -/
def Testable (test : ProxySessionViewer → Except Panic Bool) (proxy : ProxyContext) : Prop :=
  ∀ key viewer, proxy.viewers.find key = some (some viewer) → Returns (test viewer) fun _ => True

theorem Testable.listed {proxy : ProxyContext} (testable : Testable test proxy)
    {viewers : List (Option ProxySessionViewer)}
    (all : ∀ pointer ∈ viewers, ∃ viewer key, pointer = some viewer ∧
      proxy.viewers.find key = some (some viewer)) :
    ∀ pointer ∈ viewers, ∃ viewer, pointer = some viewer ∧
      Returns (test viewer) fun _ => True := by
  intro pointer member
  obtain ⟨viewer, key, same, stored⟩ := all pointer member
  exact ⟨viewer, same, testable key viewer stored⟩

theorem hasSessionKey_testable (sessionKey : Bytes) (proxy : ProxyContext) :
    Testable (hasSessionKey sessionKey) proxy :=
  fun _ _ _ => returns_pure trivial

theorem hasUsername_testable {proxy : ProxyContext}
    (owned : ∀ key viewer, proxy.viewers.find key = some (some viewer) → viewer.user ≠ none)
    (username : Bytes) : Testable (hasUsername username) proxy :=
  fun key viewer stored => (returns_deref (owned key viewer stored)).bind fun _ _ =>
    returns_pure trivial

variable {proxyID : UInt64}

theorem Proper.getProxyViewer (proper : controller.Proper filters callbacks)
    (testable : controller.Addresses proxyID (Testable test)) (order : RangeOrder Bytes) :
    Returns (getProxyViewer test controller proxyID order) fun result =>
      result.1.Proper filters callbacks := by
  refine (proper.getProxyViewers proxyID order).bind fun result ⟨kept, listed⟩ => ?_
  obtain ⟨next, answer⟩ := result
  cases answer with
  | error err => exact returns_pure kept
  | ok viewers =>
    obtain ⟨proxy, found, all⟩ := listed viewers rfl
    have tested := firstViewer_returns ((testable proxy found).listed all)
    exact tested.bind fun _ _ => returns_pure kept

theorem Proper.getMatchingViewers (proper : controller.Proper filters callbacks)
    (testable : controller.Addresses proxyID (Testable test)) (order : RangeOrder Bytes) :
    Returns (getMatchingViewers test controller proxyID order) fun result =>
      result.1.Proper filters callbacks := by
  refine (proper.getProxyViewers proxyID order).bind fun result ⟨kept, listed⟩ => ?_
  obtain ⟨next, answer⟩ := result
  cases answer with
  | error err => exact returns_pure kept
  | ok viewers =>
    obtain ⟨proxy, found, all⟩ := listed viewers rfl
    have tested := matchingViewers_returns ((testable proxy found).listed all)
    exact tested.bind fun _ _ => returns_pure kept

variable {username password : Bytes}

theorem Proper.createViewer (proper : controller.Proper filters callbacks)
    {make : ProxyContext → Except Panic (ProxyContext × Except Bytes ProxySessionViewer)}
    (makes : controller.Addresses proxyID fun proxy => proxy.Proper filters callbacks →
      Returns (make proxy) fun result => result.1.Proper filters callbacks) :
    Returns (controller.createViewer proxyID make) fun result =>
      result.1.Proper filters callbacks := by
  unfold ProxyController.createViewer
  rcases proper.getProxy proxyID with ⟨_, missing⟩ | ⟨proxy, found, got, held⟩
  · rw [missing]
    exact returns_pure proper
  · rw [got]
    exact (makes proxy found held).bind fun result kept => returns_pure (proper.updateProxy kept)

theorem Proper.createSessionViewer (proper : controller.Proper filters callbacks)
    (notNil : controller.Addresses proxyID fun proxy => ¬ proxy.NilUser username password)
    {draw : RandomSource} (drawable : Drawable draw) (sessionKey : Bytes) :
    Returns (controller.createSessionViewer proxyID username password sessionKey draw)
      fun result => result.1.Proper filters callbacks :=
  proper.createViewer fun proxy found held =>
    held.makeSessionViewerForSession (notNil proxy found) drawable sessionKey

theorem Proper.createUserSessionViewer (proper : controller.Proper filters callbacks)
    (notNil : controller.Addresses proxyID fun proxy => ¬ proxy.NilUser username password)
    {draw : RandomSource} (drawable : Drawable draw) :
    Returns (controller.createUserSessionViewer proxyID username password draw) fun result =>
      result.1.Proper filters callbacks :=
  proper.createViewer fun proxy found held =>
    held.makeSessionViewerForUser (notNil proxy found) drawable

end ProxyController

theorem nodup_append_fresh {list : List Nat} {fresh : Nat} (distinct : list.Nodup)
    (below : ∀ x ∈ list, x < fresh) : (list ++ [fresh]).Nodup := by
  refine List.nodup_append.mpr ⟨distinct, List.nodup_singleton fresh, fun x member y new => ?_⟩
  obtain rfl := List.mem_singleton.mp new
  exact Nat.ne_of_lt (below x member)

theorem below_append_fresh {list : List Nat} {fresh : Nat} (below : ∀ x ∈ list, x < fresh) :
    ∀ x ∈ list ++ [fresh], x < fresh + 1 := by
  intro x member
  rcases List.mem_append.mp member with old | new
  · exact Nat.lt_succ_of_lt (below x old)
  · exact List.mem_singleton.mp new ▸ Nat.lt_succ_self x

namespace Hooked
variable {user : ProxyUser}

theorem addEventCallback (hooked : Hooked filters callbacks user) :
    Hooked filters (callbacks + 1) (user.addEventCallback callbacks).1 where
  eventCallbacks := nodup_append_fresh hooked.eventCallbacks hooked.callbackBelow
  callbackBelow := below_append_fresh hooked.callbackBelow
  channelFilters := hooked.channelFilters
  filterBelow := hooked.filterBelow

theorem addChannelFilter (hooked : Hooked filters callbacks user) :
    Hooked (filters + 1) callbacks (user.addChannelFilter filters).1 where
  eventCallbacks := hooked.eventCallbacks
  callbackBelow := hooked.callbackBelow
  channelFilters := nodup_append_fresh hooked.channelFilters hooked.filterBelow
  filterBelow := below_append_fresh hooked.filterBelow

theorem removeEventCallback (hooked : Hooked filters callbacks user)
    (callback : Option CallbackRef) :
    Returns (user.removeEventCallback callback) fun next => Hooked filters callbacks next := by
  cases callback with
  | none => exact returns_pure hooked
  | some callback =>
    obtain ⟨rest, removed, distinct, members⟩ := swapRemove_nodup hooked.eventCallbacks callback
    refine Returns.bind ⟨rest, removed, rfl⟩ fun same kept => returns_pure ?_
    subst kept
    exact { hooked with
      eventCallbacks := distinct
      callbackBelow := fun c member => hooked.callbackBelow c ((members c).mp member).1 }

theorem removeChannelFilter (hooked : Hooked filters callbacks user) (function : FilterRef) :
    Returns (user.removeChannelFilter function) fun next => Hooked filters callbacks next := by
  obtain ⟨rest, removed, distinct, members⟩ := swapRemove_nodup hooked.channelFilters function
  refine Returns.bind ⟨rest, removed, rfl⟩ fun same kept => returns_pure ?_
  subst kept
  exact { hooked with
    channelFilters := distinct
    filterBelow := fun f member => hooked.filterBelow f ((members f).mp member).1 }

end Hooked

namespace ProxyController
variable {proxyID : UInt64} {username password : Bytes}

/-- Where a user is found, it is there and its hooks are in order. -/
theorem found_hooked {proxy : ProxyContext} (held : proxy.Proper filters callbacks)
    (notNil : ¬ proxy.NilUser username password) :
    Returns (proxy.getProxyUser username password false) fun result =>
      ∀ found blank, result = .ok (found, blank) →
        ∃ user, found = some user ∧ Hooked filters callbacks user :=
  (ProxyContext.getProxyUser_found notNil false).mono fun _ stored found blank same =>
    let ⟨user, present, registered⟩ := stored found blank same
    ⟨user, present, held.hooks _ user registered⟩

theorem Proper.addEventCallbackToUser (proper : controller.Proper filters callbacks)
    (notNil : controller.Addresses proxyID fun proxy => ¬ proxy.NilUser username password) :
    Returns (controller.addEventCallbackToUser proxyID username password callbacks) fun result =>
      result.1.Proper filters (callbacks + 1) := by
  have grown := proper.mono (Nat.le_refl filters) (Nat.le_succ callbacks)
  unfold ProxyController.addEventCallbackToUser
  rcases proper.getProxy proxyID with ⟨_, missing⟩ | ⟨proxy, stored, got, held⟩
  · rw [missing]
    exact returns_pure grown
  · rw [got]
    refine (found_hooked held (notNil proxy stored)).bind fun result answer => ?_
    cases result with
    | error err => exact returns_pure grown
    | ok pair =>
      obtain ⟨found, blank⟩ := pair
      obtain ⟨user, rfl, hooked⟩ := answer found blank rfl
      refine (returns_assign proper.eventCallbacks _ _).bind fun registry ⟨_, _, same⟩ =>
        returns_pure ?_
      subst same
      have written : (proxy.updateFoundUser username password blank
          (user.addEventCallback callbacks).1).Proper filters (callbacks + 1) :=
        (held.mono (Nat.le_refl filters) (Nat.le_succ callbacks)).updateFoundUser
          hooked.addEventCallback blank
      exact { grown.updateProxy written with eventCallbacks := Option.some_ne_none _ }

theorem Proper.addChannelFilterToUser (proper : controller.Proper filters callbacks)
    (notNil : controller.Addresses proxyID fun proxy => ¬ proxy.NilUser username password) :
    Returns (controller.addChannelFilterToUser proxyID username password filters) fun result =>
      result.1.Proper (filters + 1) callbacks := by
  have grown := proper.mono (Nat.le_succ filters) (Nat.le_refl callbacks)
  unfold ProxyController.addChannelFilterToUser
  rcases proper.getProxy proxyID with ⟨_, missing⟩ | ⟨proxy, stored, got, held⟩
  · rw [missing]
    exact returns_pure grown
  · rw [got]
    refine (found_hooked held (notNil proxy stored)).bind fun result answer => ?_
    cases result with
    | error err => exact returns_pure grown
    | ok pair =>
      obtain ⟨found, blank⟩ := pair
      obtain ⟨user, rfl, hooked⟩ := answer found blank rfl
      refine (returns_assign proper.channelFilters _ _).bind fun registry ⟨_, _, same⟩ =>
        returns_pure ?_
      subst same
      have written : (proxy.updateFoundUser username password blank
          (user.addChannelFilter filters).1).Proper (filters + 1) callbacks :=
        (held.mono (Nat.le_succ filters) (Nat.le_refl callbacks)).updateFoundUser
          hooked.addChannelFilter blank
      exact { grown.updateProxy written with channelFilters := Option.some_ne_none _ }

theorem Proper.removeEventCallbackFromUser (proper : controller.Proper filters callbacks)
    (notNil : controller.Addresses proxyID fun proxy => ¬ proxy.NilUser username password)
    (callback : Option CallbackRef) :
    Returns (controller.removeEventCallbackFromUser proxyID username password callback)
      fun result => result.1.Proper filters callbacks := by
  unfold ProxyController.removeEventCallbackFromUser
  rcases proper.getProxy proxyID with ⟨_, missing⟩ | ⟨proxy, stored, got, held⟩
  · rw [missing]
    exact returns_pure proper
  · rw [got]
    refine (found_hooked held (notNil proxy stored)).bind fun result answer => ?_
    cases result with
    | error err => exact returns_pure proper
    | ok pair =>
      obtain ⟨found, blank⟩ := pair
      obtain ⟨user, rfl, hooked⟩ := answer found blank rfl
      exact (hooked.removeEventCallback callback).bind fun next kept =>
        returns_pure (proper.updateProxy (held.updateFoundUser kept blank))

theorem Proper.removeChannelFilterFromUser (proper : controller.Proper filters callbacks)
    (notNil : controller.Addresses proxyID fun proxy => ¬ proxy.NilUser username password)
    (function : FilterRef) :
    Returns (controller.removeChannelFilterFromUser proxyID username password function)
      fun result => result.1.Proper filters callbacks := by
  unfold ProxyController.removeChannelFilterFromUser
  rcases proper.getProxy proxyID with ⟨_, missing⟩ | ⟨proxy, stored, got, held⟩
  · rw [missing]
    exact returns_pure proper
  · rw [got]
    refine (found_hooked held (notNil proxy stored)).bind fun result answer => ?_
    cases result with
    | error err => exact returns_pure proper
    | ok pair =>
      obtain ⟨found, blank⟩ := pair
      obtain ⟨user, rfl, hooked⟩ := answer found blank rfl
      exact (hooked.removeChannelFilter function).bind fun next kept =>
        returns_pure (proper.updateProxy (held.updateFoundUser kept blank))

theorem delete_made {V : Type} {m : MapVar Bytes V} (made : m ≠ none) (key : Bytes) :
    m.delete key ≠ none := by
  obtain ⟨entries, rfl⟩ := Option.ne_none_iff_exists'.mp made
  exact Option.some_ne_none _

theorem Proper.removeEventCallbackFromUserByKey (proper : controller.Proper filters callbacks)
    {key : Bytes} (notNil : controller.eventCallbacks.find key ≠ none →
      controller.Addresses proxyID fun proxy => ¬ proxy.NilUser username password) :
    Returns (controller.removeEventCallbackFromUserByKey proxyID username password key)
      fun result => result.1.Proper filters callbacks := by
  unfold ProxyController.removeEventCallbackFromUserByKey
  cases registered : controller.eventCallbacks.find key with
  | none => exact returns_pure proper
  | some callback =>
    have some : controller.eventCallbacks.find key ≠ none := by simp [registered]
    exact (proper.removeEventCallbackFromUser (notNil some) callback).bind fun result kept =>
      returns_pure { kept with eventCallbacks := delete_made kept.eventCallbacks key }

theorem Proper.removeChannelFilterFromUserByKey (proper : controller.Proper filters callbacks)
    {key : Bytes} (notNil : controller.channelFilters.find key ≠ none →
      controller.Addresses proxyID fun proxy => ¬ proxy.NilUser username password) :
    Returns (controller.removeChannelFilterFromUserByKey proxyID username password key)
      fun result => result.1.Proper filters callbacks := by
  unfold ProxyController.removeChannelFilterFromUserByKey
  cases registered : controller.channelFilters.find key with
  | none => exact returns_pure proper
  | some function =>
    have some : controller.channelFilters.find key ≠ none := by simp [registered]
    exact (proper.removeChannelFilterFromUser (notNil some) function).bind fun result kept =>
      returns_pure { kept with channelFilters := delete_made kept.channelFilters key }

end ProxyController
end SSHProxyPlus
