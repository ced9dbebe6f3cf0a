import SSHProxyPlus.Controller.Atomicity

/-! Commands that remove a user, a filter or a callback, and what is left of it where they
report no error. -/
namespace SSHProxyPlus
open Go

namespace ProxyContext

/-- The entry that `GetProxyUser` looks at last. -/
def foundKey (proxy : ProxyContext) (username password : Bytes) : Bytes :=
  if (proxy.users.find (buildProxyUserKey username password)).isSome then
    buildProxyUserKey username password
  else buildProxyUserKey username []

/-- A user is found where the lookup ends, and written back there. -/
theorem getProxyUser_foundKey {proxy : ProxyContext} {username password : Bytes} {blank : Bool}
    {user : ProxyUser}
    (given : proxy.getProxyUser username password false = .ok (.ok (some user, blank))) :
    proxy.users.find (proxy.foundKey username password) = some (some user) ∧
      buildProxyUserKey username (if blank then [] else password) =
        proxy.foundKey username password := by
  obtain ⟨exactly, rfl, -⟩ | ⟨missing, rfl, user', same, -, blankly⟩ := getProxyUser_cases given
  · have key : proxy.foundKey username password = buildProxyUserKey username password := by
      rw [foundKey, exactly]
      rfl
    exact ⟨key ▸ exactly, key.symm⟩
  · have key : proxy.foundKey username password = buildProxyUserKey username [] := by
      rw [foundKey, missing]
      rfl
    obtain rfl := Option.some.inj same
    exact ⟨key ▸ blankly, key.symm⟩

end ProxyContext

namespace ProxyController

/-- No user of any proxy has the hook in the list. -/
def Unused (hooks : ProxyUser → List Nat) (hook : Nat) (controller : ProxyController) : Prop :=
  ∀ proxyID proxy key user, controller.proxies.find proxyID = some (some proxy) →
    proxy.users.find key = some (some user) → hook ∉ hooks user

/-- Nobody has the hook but, at most, the user that this lookup on this proxy finds. -/
def UsedAt (hooks : ProxyUser → List Nat) (hook : Nat) (proxyID : UInt64)
    (username password : Bytes) (controller : ProxyController) : Prop :=
  ∀ other proxy key user, controller.proxies.find other = some (some proxy) →
    proxy.users.find key = some (some user) → hook ∈ hooks user →
      other = proxyID ∧ key = proxy.foundKey username password

variable {controller : ProxyController} {proxyID : UInt64} {username password : Bytes}
  {hooks : ProxyUser → List Nat} {hook : Nat}

/-- Without the proxy nothing is removed. -/
theorem unused_missing (missing : ∀ proxy, controller.proxies.find proxyID ≠ some (some proxy)) :
    controller.Unused hooks hook ↔ controller.UsedAt hooks hook proxyID username password := by
  constructor
  · exact fun unused other proxy key user found registered member =>
      absurd member (unused other proxy key user found registered)
  · intro used other proxy key user found registered member
    obtain ⟨rfl, -⟩ := used other proxy key user found registered member
    exact missing proxy found

/-- Where the user that was found has lost the hook, and nothing else has changed, nobody has it
any more unless somebody else had it. -/
theorem unused_written {proxy : ProxyContext} {user : ProxyUser} {blank : Bool}
    (found : controller.proxies.find proxyID = some (some proxy))
    (registered : proxy.users.find (proxy.foundKey username password) ≠ none)
    (key : buildProxyUserKey username (if blank then [] else password) =
      proxy.foundKey username password) (lost : hook ∉ hooks user) :
    (controller.updateProxy proxyID
        (proxy.updateFoundUser username password blank user)).Unused hooks hook ↔
      controller.UsedAt hooks hook proxyID username password := by
  have made : controller.proxies ≠ none := by
    intro missing
    rw [missing, MapVar.find_none] at found
    contradiction
  have table (other : Bytes) :
      (proxy.updateFoundUser username password blank user).users.find other =
        if other = proxy.foundKey username password then some (some user)
        else proxy.users.find other := by
    obtain ⟨entries, filled⟩ : ∃ entries, proxy.users = some entries := by
      refine Option.ne_none_iff_exists'.mp fun missing => registered ?_
      rw [missing, MapVar.find_none]
    rw [ProxyContext.updateFoundUser, key, filled]
    simp only [Option.map_some, MapVar.find_some, lookup_insert_if]
  constructor
  · intro unused other held key' user' found' registered' member
    by_cases same : other = proxyID
    · subst same
      obtain rfl := MapVar.find_unique found found'
      refine ⟨rfl, ?_⟩
      by_contra elsewhere
      have still : (controller.updateProxy other
          (proxy.updateFoundUser username password blank user)).proxies.find other =
            some (some (proxy.updateFoundUser username password blank user)) := by
        rw [updateProxy_find, if_pos ⟨rfl, made⟩]
      refine unused other _ key' user' still ?_ member
      rw [table, if_neg elsewhere, registered']
    · refine absurd member (unused other held key' user' ?_ registered')
      rw [updateProxy_find, if_neg fun both => same both.1, found']
  · intro used other held key' user' found' registered' member
    rw [updateProxy_find] at found'
    split at found'
    · obtain rfl := Option.some.inj (Option.some.inj found')
      rw [table] at registered'
      split at registered'
      · obtain rfl := Option.some.inj (Option.some.inj registered')
        exact lost member
      · next elsewhere =>
        exact elsewhere (used proxyID proxy key' user' found registered' member).2
    · next apart =>
      exact apart ⟨(used other held key' user' found' registered' member).1, made⟩

theorem getProxy_found {proxy : ProxyContext} {err : Option Bytes}
    (got : controller.getProxy proxyID = (some proxy, err)) :
    controller.proxies.find proxyID = some (some proxy) := by
  unfold getProxy at got
  split at got
  · next val found => rw [found, (Prod.mk.inj got).1]
  · obtain ⟨missing, -⟩ := Prod.mk.inj got
    contradiction

theorem getProxy_missing {err : Option Bytes} (got : controller.getProxy proxyID = (none, err)) :
    ∀ proxy, controller.proxies.find proxyID ≠ some (some proxy) := by
  intro proxy found
  rw [getProxy, found] at got
  obtain ⟨missing, -⟩ := Prod.mk.inj got
  contradiction

/-- Where the hook is taken out of the list of the user that the lookup found. -/
theorem unused_taken {proxy : ProxyContext} {err : Option Bytes} {user left : ProxyUser}
    {blank : Bool} (got : controller.getProxy proxyID = (some proxy, err))
    (looked : proxy.getProxyUser username password false = .ok (.ok (some user, blank)))
    (taken : swapRemove (hooks user) hook = .ok (hooks left)) :
    (controller.updateProxy proxyID
        (proxy.updateFoundUser username password blank left)).Unused hooks hook ↔
      controller.UsedAt hooks hook proxyID username password := by
  obtain ⟨registered, key⟩ := ProxyContext.getProxyUser_foundKey looked
  have lost : hook ∉ hooks left :=
    List.count_eq_zero.mp ((swapRemove_ok taken hook).trans (if_pos rfl))
  exact unused_written (getProxy_found got) (registered ▸ Option.some_ne_none _) key lost

theorem removeChannelFilterFromUser_unused {function : FilterRef} :
    Ensures (controller.removeChannelFilterFromUser proxyID username password function)
      fun result => result.2 = none →
        (result.1.Unused ProxyUser.channelFilters function ↔
          controller.UsedAt ProxyUser.channelFilters function proxyID username password) := by
  unfold removeChannelFilterFromUser
  split
  · next proxy err got =>
    intro result ran succeeded
    obtain ⟨answer, looked, rest⟩ := of_bind_ok ran
    split at rest
    · next found blank =>
      obtain ⟨user, held, rest⟩ := of_bind_ok rest
      obtain ⟨left, removed, done⟩ := of_bind_ok rest
      obtain rfl := Except.ok.inj done
      obtain rfl := deref_ok held
      obtain ⟨filters, taken, same⟩ := of_bind_ok removed
      obtain rfl := Except.ok.inj same
      exact unused_taken got looked taken
    · obtain rfl := Except.ok.inj rest
      contradiction
  · next err got => exact ensures_pure fun _ => unused_missing (getProxy_missing got)

theorem removeEventCallbackFromUser_unused {callback : CallbackRef} :
    Ensures (controller.removeEventCallbackFromUser proxyID username password (some callback))
      fun result => result.2 = none →
        (result.1.Unused ProxyUser.eventCallbacks callback ↔
          controller.UsedAt ProxyUser.eventCallbacks callback proxyID username password) := by
  unfold removeEventCallbackFromUser
  split
  · next proxy err got =>
    intro result ran succeeded
    obtain ⟨answer, looked, rest⟩ := of_bind_ok ran
    split at rest
    · next found blank =>
      obtain ⟨user, held, rest⟩ := of_bind_ok rest
      obtain ⟨left, removed, done⟩ := of_bind_ok rest
      obtain rfl := Except.ok.inj done
      obtain rfl := deref_ok held
      obtain ⟨callbacks, taken, same⟩ := of_bind_ok removed
      obtain rfl := Except.ok.inj same
      exact unused_taken got looked taken
    · obtain rfl := Except.ok.inj rest
      contradiction
  · next err got => exact ensures_pure fun _ => unused_missing (getProxy_missing got)

/-- Nobody is registered on the proxy with exactly this name and password. -/
def Unregistered (username password : Bytes) (proxy : ProxyContext) : Prop :=
  ∀ key user, proxy.users.find key = some (some user) →
    ¬ (user.username = username ∧ user.password = password)

/-- Whoever is registered with this name and password stands under the key of the two. -/
def KeyedRight (username password : Bytes) (proxy : ProxyContext) : Prop :=
  ∀ key user, proxy.users.find key = some (some user) → user.username = username →
    user.password = password → key = buildProxyUserKey username password

theorem delete_find_ne {V : Type} (registry : MapVar Bytes V) {key other : Bytes}
    (apart : other ≠ key) : (registry.delete key).find other = registry.find other := by
  cases registry with
  | none => rfl
  | some entries =>
    rw [MapVar.delete_some, MapVar.find_some, Finmap.lookup_erase_ne apart, MapVar.find_some]

theorem removeUserFromProxy_unregistered
    (succeeded : (controller.removeUserFromProxy proxyID username password).2 = none) :
    (controller.removeUserFromProxy proxyID username password).1.Addresses proxyID
        (Unregistered username password) ↔
      controller.Addresses proxyID (KeyedRight username password) := by
  unfold removeUserFromProxy at succeeded ⊢
  split at succeeded
  · next proxy err got =>
    have found := getProxy_found got
    have made : controller.proxies ≠ none := by
      intro missing
      rw [missing, MapVar.find_none] at found
      contradiction
    rw [ProxyContext.removeProxyUser] at succeeded ⊢
    cases registered : proxy.users.find (buildProxyUserKey username password) with
    | none =>
      rw [registered] at succeeded
      contradiction
    | some val =>
      dsimp only
      constructor
      · intro unregistered proxy' found' key user stands sameName samePassword
        obtain rfl := MapVar.find_unique found found'
        by_contra elsewhere
        have after : ∀ left : ProxyContext,
            (controller.updateProxy proxyID left).proxies.find proxyID = some (some left) :=
          fun left => by rw [updateProxy_find, if_pos ⟨rfl, made⟩]
        refine unregistered _ (after _) key user ?_ ⟨sameName, samePassword⟩
        exact (delete_find_ne proxy.users elsewhere).trans stands
      · intro keyed proxy' found' key user stands same
        rw [updateProxy_find, if_pos ⟨rfl, made⟩] at found'
        obtain rfl := Option.some.inj (Option.some.inj found')
        have own : key ≠ buildProxyUserKey username password := by
          rintro rfl
          have gone := delete_find proxy.users (buildProxyUserKey username password)
          exact absurd (stands.symm.trans gone) (Option.some_ne_none _)
        exact own (keyed proxy found key user ((delete_find_ne proxy.users own).symm.trans stands)
          same.1 same.2)
  · next err got =>
    have missing := getProxy_missing got
    exact iff_of_true (fun proxy found => absurd found (missing proxy))
      fun proxy found => absurd found (missing proxy)

end ProxyController

namespace ControllerMessage
variable {message : ControllerMessage} {s next : ControllerState} {world : World} {reply : Reply}

/-- What a remove command is for: nobody is registered under the name and the password any more,
or nobody has the hook, whose key is free. -/
def Removed (message : ControllerMessage) (s next : ControllerState) : Prop :=
  match Command.read message.messageType with
  | some .removeProxyUser => next.controller.Addresses message.proxyID
      (ProxyController.Unregistered message.username message.password)
  | some .removeChannelFilter => next.controller.channelFilters.find message.filterKey = none ∧
      ∀ function, s.controller.channelFilters.find message.filterKey = some function →
        next.controller.Unused ProxyUser.channelFilters function
  | some .removeUserCallback => next.controller.eventCallbacks.find message.callbackKey = none ∧
      ∀ callback, s.controller.eventCallbacks.find message.callbackKey = some (some callback) →
        next.controller.Unused ProxyUser.eventCallbacks callback
  | _ => True

/-- Where the message names no user, nobody is registered under the blank name; where it names
one, nobody is registered as that user under another key; and a hook is nobody's but, at most,
the user's that the message finds on the proxy it addresses. -/
def Removable (message : ControllerMessage) (s : ControllerState) : Prop :=
  match Command.read message.messageType with
  | some .removeProxyUser =>
      if message.username = [] then s.controller.Addresses message.proxyID
        (ProxyController.Unregistered message.username message.password)
      else s.controller.Addresses message.proxyID
        (ProxyController.KeyedRight message.username message.password)
  | some .removeChannelFilter =>
      ∀ function, s.controller.channelFilters.find message.filterKey = some function →
        s.controller.UsedAt ProxyUser.channelFilters function message.proxyID message.username
          message.password
  | some .removeUserCallback =>
      ∀ callback, s.controller.eventCallbacks.find message.callbackKey = some (some callback) →
        s.controller.UsedAt ProxyUser.eventCallbacks callback message.proxyID message.username
          message.password
  | _ => True

theorem removeProxyUser_removed : Ensures (message.removeProxyUser s reply) fun outcome =>
    outcome.2.2 = none →
      (outcome.1.controller.Addresses message.proxyID
          (ProxyController.Unregistered message.username message.password) ↔
        if message.username = [] then s.controller.Addresses message.proxyID
          (ProxyController.Unregistered message.username message.password)
        else s.controller.Addresses message.proxyID
          (ProxyController.KeyedRight message.username message.password)) := by
  unfold removeProxyUser
  split
  · exact ensures_pure ProxyController.removeUserFromProxy_unregistered
  · next nameless =>
    rw [if_pos (not_not.mp nameless)]
    exact ensures_pure fun _ => Iff.rfl

theorem removeChannelFilter_removed : Ensures (message.removeChannelFilter s reply) fun outcome =>
    outcome.2.2 = none →
      ((outcome.1.controller.channelFilters.find message.filterKey = none ∧
          ∀ function, s.controller.channelFilters.find message.filterKey = some function →
            outcome.1.controller.Unused ProxyUser.channelFilters function) ↔
        ∀ function, s.controller.channelFilters.find message.filterKey = some function →
          s.controller.UsedAt ProxyUser.channelFilters function message.proxyID message.username
            message.password) := by
  unfold removeChannelFilter
  split
  · intro outcome ran succeeded
    obtain ⟨⟨controller, err⟩, removed, done⟩ := of_bind_ok ran
    obtain rfl := Except.ok.inj done
    unfold ProxyController.removeChannelFilterFromUserByKey at removed
    cases registered : s.controller.channelFilters.find message.filterKey with
    | none =>
      rw [registered] at removed
      obtain ⟨-, rfl⟩ := Prod.mk.inj (Except.ok.inj removed)
      contradiction
    | some function =>
      rw [registered] at removed
      obtain ⟨⟨left, failed⟩, taken, done⟩ := of_bind_ok removed
      obtain ⟨rfl, rfl⟩ := Prod.mk.inj (Except.ok.inj done)
      have unused := ProxyController.removeChannelFilterFromUser_unused _ taken succeeded
      simp only [Option.some.injEq, forall_eq']
      exact (and_iff_right (ProxyController.delete_find left.channelFilters _)).trans unused
  · exact ensures_pure fun succeeded => by contradiction

theorem removeUserCallback_removed : Ensures (message.removeUserCallback s reply) fun outcome =>
    outcome.2.2 = none →
      ((outcome.1.controller.eventCallbacks.find message.callbackKey = none ∧
          ∀ callback, s.controller.eventCallbacks.find message.callbackKey = some (some callback) →
            outcome.1.controller.Unused ProxyUser.eventCallbacks callback) ↔
        ∀ callback, s.controller.eventCallbacks.find message.callbackKey = some (some callback) →
          s.controller.UsedAt ProxyUser.eventCallbacks callback message.proxyID message.username
            message.password) := by
  unfold removeUserCallback
  split
  · intro outcome ran succeeded
    obtain ⟨⟨controller, err⟩, removed, done⟩ := of_bind_ok ran
    obtain rfl := Except.ok.inj done
    unfold ProxyController.removeEventCallbackFromUserByKey at removed
    cases registered : s.controller.eventCallbacks.find message.callbackKey with
    | none =>
      rw [registered] at removed
      obtain ⟨-, rfl⟩ := Prod.mk.inj (Except.ok.inj removed)
      contradiction
    | some pointer =>
      rw [registered] at removed
      obtain ⟨⟨left, failed⟩, taken, done⟩ := of_bind_ok removed
      obtain ⟨rfl, rfl⟩ := Prod.mk.inj (Except.ok.inj done)
      have gone := ProxyController.delete_find left.eventCallbacks message.callbackKey
      refine (and_iff_right gone).trans ?_
      cases pointer with
      | none => simp
      | some callback =>
        have unused := ProxyController.removeEventCallbackFromUser_unused _ taken succeeded
        simp only [Option.some.injEq, forall_eq']
        exact unused
  · exact ensures_pure fun succeeded => by contradiction

theorem dispatch_removed : Ensures (message.dispatch s world reply) fun outcome =>
    outcome.2.2 = none → (message.Removed s outcome.1 ↔ message.Removable s) := by
  unfold dispatch Removed Removable
  cases read : Command.read message.messageType with
  | none => exact fun _ _ _ => Iff.rfl
  | some command =>
    cases command with
    | removeProxyUser => exact removeProxyUser_removed
    | removeChannelFilter => exact removeChannelFilter_removed
    | removeUserCallback => exact removeUserCallback_removed
    | _ => exact fun _ _ _ => Iff.rfl

/-- A remove command that reports success has removed exactly where it could. -/
theorem success_removes_iff (answered : message.answer s world = .ok (next, reply))
    (succeeded : lit "Error" ∉ reply) : message.Removed s next ↔ message.Removable s := by
  obtain ⟨⟨left, sofar, err⟩, dispatched, done⟩ := of_bind_ok answered
  obtain ⟨rfl, rfl⟩ := Prod.mk.inj (Except.ok.inj done)
  cases err with
  | some text => exact absurd (Finmap.mem_insert.mpr (.inl rfl)) succeeded
  | none => exact dispatch_removed _ dispatched rfl

end ControllerMessage

/-- The filter's key, its user and its proxy. -/
def removeFilterMessage : ControllerMessage :=
  { messageType := lit "remove-channel-filter", username := lit "a", password := lit "b",
    filterKey := firstFilterKey }

theorem removeFilterMessage_succeeds : ∃ next,
    removeFilterMessage.answer { controller := filteredController } sortedWorld =
      .ok (next, Reply.put ∅ "MessageType" (.text (lit "remove-channel-filter-reply"))) := by
  have read : Command.read (lit "remove-channel-filter") = some .removeChannelFilter := rfl
  have asked : firstFilterKey ≠ [] ∧ lit "a" ≠ [] := by decide
  have kind : lit "remove-channel-filter" ++ lit "-reply" = lit "remove-channel-filter-reply" := rfl
  have key : buildProxyUserKey (lit "a") (lit "b") = lit "a:b" := by decide
  have freed : ({ username := lit "a", password := lit "b", channelFilters := [0] } :
      ProxyUser).removeChannelFilter 0 = .ok { username := lit "a", password := lit "b" } := rfl
  simp [ControllerMessage.answer, ControllerMessage.dispatch, removeFilterMessage, read, freed,
    ControllerMessage.removeChannelFilter, asked, ProxyController.removeChannelFilterFromUserByKey,
    filteredController, ProxyController.removeChannelFilterFromUser, ProxyController.getProxy,
    oneUserController, ProxyContext.getProxyUser, key, kind, Reply.putError, bind, Except.bind, pure,
    Except.pure]

/-- The filter of the one user there is. -/
theorem success_removes_iff_filter :
    ∃ next reply, removeFilterMessage.answer { controller := filteredController } sortedWorld =
        .ok (next, reply) ∧ removeFilterMessage.Removed { controller := filteredController } next := by
  obtain ⟨next, answered⟩ := removeFilterMessage_succeeds
  have removable : removeFilterMessage.Removable { controller := filteredController } := by
    have read : Command.read removeFilterMessage.messageType = some .removeChannelFilter := rfl
    rw [ControllerMessage.Removable, read]
    intro function registered other proxy key user found stored member
    obtain ⟨rfl, same⟩ : other = 0 ∧ _ := singleton_found found
    obtain rfl := Option.some.inj same
    obtain ⟨rfl, -⟩ := singleton_found stored
    exact ⟨rfl, rfl⟩
  exact ⟨next, _, answered,
    (ControllerMessage.success_removes_iff answered (by decide)).mpr removable⟩
/-- The filter's key and its user, but a proxy that does not exist. -/
def absentProxyMessage : ControllerMessage :=
  { messageType := lit "remove-channel-filter", proxyID := 7, username := lit "a",
    password := lit "b", filterKey := firstFilterKey }

theorem absentProxyMessage_succeeds (filters : List ChannelFilterFunc) :
    absentProxyMessage.answer { controller := filteredController, filters } sortedWorld =
      .ok ({ controller := forgetfulController, filters },
        Reply.put ∅ "MessageType" (.text (lit "remove-channel-filter-reply"))) := by
  have read : Command.read (lit "remove-channel-filter") = some .removeChannelFilter := rfl
  have asked : firstFilterKey ≠ [] ∧ lit "a" ≠ [] := by decide
  have kind : lit "remove-channel-filter" ++ lit "-reply" = lit "remove-channel-filter-reply" := rfl
  have absent : Finmap.lookup (7 : UInt64) ((∅ : GoMap UInt64 (Option ProxyContext)).insert 0
      (some { plainProxy with
        users := some ((∅ : GoMap Bytes (Option ProxyUser)).insert (lit "a:b")
          (some { username := lit "a", password := lit "b", channelFilters := [0] })) })) = none :=
    (Finmap.lookup_insert_of_ne _ (by decide)).trans (Finmap.lookup_empty _)
  simp [ControllerMessage.answer, ControllerMessage.dispatch, absentProxyMessage, read,
    ControllerMessage.removeChannelFilter, asked, ProxyController.removeChannelFilterFromUserByKey,
    filteredController, forgetfulController, ProxyController.removeChannelFilterFromUser,
    ProxyController.getProxy, oneUserController, absent, kind, Reply.putError, bind, Except.bind, pure,
    Except.pure]

/-- The filter goes on filtering, and its key is gone. -/
theorem removal_leaves_filter :
    ¬ ∀ s, (controllerRuns fun _ _ _ => True).Reachable s →
      ∀ (message : ControllerMessage) (world : World) (next : ControllerState) (reply : Reply),
        message.answer s world = .ok (next, reply) → lit "Error" ∉ reply →
          message.Removed s next := by
  intro claim
  obtain ⟨filters, reached⟩ := filteredController_reachable
  have removed := claim _ reached absentProxyMessage sortedWorld _ _
    (absentProxyMessage_succeeds filters) (by decide)
  have read : Command.read absentProxyMessage.messageType = some .removeChannelFilter := rfl
  rw [ControllerMessage.Removed, read] at removed
  refine removed.2 0 filteredController_registered 0 _ (lit "a:b") _ (Finmap.lookup_insert _)
    (Finmap.lookup_insert _) List.mem_cons_self

end SSHProxyPlus
