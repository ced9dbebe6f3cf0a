import SSHProxyPlus.Controller.Runs

/-! Which commands leave the controller as it was when they report an error. -/
namespace SSHProxyPlus
open Go

/-- The same proxies, registries, sessions and goroutines. -/
structure ControllerState.SameAs (next s : ControllerState) : Prop where
  controller : next.controller = s.controller
  sessions : next.sessions = s.sessions
  starting : next.starting = s.starting

namespace ProxyController
variable {controller : ProxyController} {proxyID : UInt64}

theorem getProxy_some {proxy : ProxyContext} {err : Option Bytes}
    (got : controller.getProxy proxyID = (some proxy, err)) :
    controller.proxies.find proxyID = some (some proxy) ∧ err = none := by
  unfold getProxy at got
  split at got
  · next val found =>
    obtain ⟨rfl, rfl⟩ := Prod.mk.inj got
    exact ⟨found, rfl⟩
  · obtain ⟨impossible, -⟩ := Prod.mk.inj got
    contradiction

/-- Storing a proxy that is stored already. -/
theorem updateProxy_same {proxy : ProxyContext}
    (found : controller.proxies.find proxyID = some (some proxy)) :
    controller.updateProxy proxyID proxy = controller := by
  obtain ⟨entries, made⟩ := Option.ne_none_iff_exists'.mp (MapVar.find_made found)
  rw [made, MapVar.find_some] at found
  have same : entries.insert proxyID (some proxy) = entries := by
    refine Finmap.ext_lookup fun other => ?_
    by_cases here : other = proxyID
    · rw [here, Finmap.lookup_insert, found]
    · rw [Finmap.lookup_insert_of_ne _ here]
  simp only [updateProxy, made, Option.map_some, same]
  rw [← made]

theorem addProxyFromJSON_restores {data : Bytes} {order : RangeOrder Bytes} :
    Ensures (controller.addProxyFromJSON data order) fun result =>
      result.2 = none → result.1 = controller := by
  refine (ensures_trivial _).bind fun decoded _ => ?_
  cases decoded with
  | none => exact ensures_pure fun _ => rfl
  | some proxy =>
    exact (ensures_trivial _).bind fun added _ => ensures_pure fun none => by contradiction

theorem stopProxy_restores {heap : SessionHeap} {order : RangeOrder Bytes} {now : Time} :
    Ensures (controller.stopProxy heap proxyID order now) fun result =>
      result.2.2 ≠ none → result.1 = controller ∧ result.2.1 = heap := by
  unfold stopProxy
  split
  · next proxy err got =>
    obtain ⟨-, rfl⟩ := getProxy_some got
    exact (ensures_trivial _).bind fun _ _ => ensures_pure fun failed => absurd rfl failed
  · exact ensures_pure fun _ => ⟨rfl, rfl⟩

theorem destroyProxy_restores {heap : SessionHeap} {order : RangeOrder Bytes} {now : Time} :
    Ensures (controller.destroyProxy heap proxyID order now) fun result =>
      result.2.2 ≠ none → result.1 = controller ∧ result.2.1 = heap := by
  unfold destroyProxy
  split
  · refine (ensures_trivial _).bind fun proxy _ => ?_
    split
    · exact (ensures_trivial _).bind fun _ _ => ensures_pure fun failed => absurd rfl failed
    · exact ensures_pure fun failed => absurd rfl failed
  · exact ensures_pure fun _ => ⟨rfl, rfl⟩

/-- Nothing is launched for a proxy that does not exist. -/
theorem startProxy_restores (failed : (controller.startProxy proxyID).2 ≠ none) :
    (controller.startProxy proxyID).1 = none := by
  unfold startProxy at failed ⊢
  split
  · next got =>
    rw [got] at failed
    exact absurd (getProxy_some got).2 failed
  · rfl

theorem withProxy_restores {f : ProxyContext → ProxyContext}
    (failed : (controller.withProxy proxyID f).2 ≠ none) :
    (controller.withProxy proxyID f).1 = controller := by
  unfold withProxy at failed ⊢
  split
  · next got =>
    rw [got] at failed
    exact absurd (getProxy_some got).2 failed
  · rfl

theorem addUserToProxy_restores {user : ProxyUser} :
    Ensures (controller.addUserToProxy proxyID user) fun result =>
      result.2.1 ≠ none → result.1 = controller := by
  unfold addUserToProxy
  split
  · next proxy err got =>
    obtain ⟨-, rfl⟩ := getProxy_some got
    exact (ensures_trivial _).bind fun _ _ => ensures_pure fun failed => absurd rfl failed
  · exact ensures_pure fun _ => rfl

/-- A user that does not exist is not removed. -/
theorem removeUserFromProxy_restores {username password : Bytes}
    (failed : (controller.removeUserFromProxy proxyID username password).2 ≠ none) :
    (controller.removeUserFromProxy proxyID username password).1 = controller := by
  unfold removeUserFromProxy at failed ⊢
  split
  · next proxy err got =>
    obtain ⟨found, rfl⟩ := getProxy_some got
    rw [got] at failed
    cases stored : proxy.users.find (buildProxyUserKey username password) with
    | some val => simp [ProxyContext.removeProxyUser, stored] at failed
    | none =>
      simp only [ProxyContext.removeProxyUser, stored]
      exact updateProxy_same found
  · rfl

/-- Looking at the viewers changes nothing: none ever expires. -/
theorem getProxyViewers_restores {order : RangeOrder Bytes} :
    Ensures (controller.getProxyViewers proxyID order) fun result => result.1 = controller := by
  unfold getProxyViewers
  split
  · exact ensures_pure rfl
  · next found got =>
    intro result ran
    obtain ⟨proxy, followed, done⟩ := of_bind_ok ran
    obtain rfl := Except.ok.inj done
    obtain rfl := deref_ok followed
    simp only [ProxyContext.removeExpiredSessions_eq]
    exact updateProxy_same (getProxy_some got).1

theorem getProxyViewerByViewerKey_restores {viewerKey : Bytes} :
    Ensures (controller.getProxyViewerByViewerKey proxyID viewerKey) fun result =>
      result.1 = controller := by
  unfold getProxyViewerByViewerKey
  split
  · exact ensures_pure rfl
  · next found got =>
    intro result ran
    obtain ⟨proxy, followed, done⟩ := of_bind_ok ran
    obtain rfl := deref_ok followed
    have same := updateProxy_same (getProxy_some got).1
    have kept := proxy.getSessionViewer_eq viewerKey
    split at done
    · next viewer asked =>
      rw [asked] at kept
      obtain rfl := Except.ok.inj done
      exact (congrArg (controller.updateProxy proxyID) kept).trans same
    · next asked =>
      rw [asked] at kept
      obtain rfl := Except.ok.inj done
      exact (congrArg (controller.updateProxy proxyID) kept).trans same

variable {test : ProxySessionViewer → Except Panic Bool}

theorem getProxyViewer_restores {order : RangeOrder Bytes} :
    Ensures (getProxyViewer test controller proxyID order) fun result => result.1 = controller := by
  refine getProxyViewers_restores.bind fun result kept => ?_
  obtain ⟨next, answer⟩ := result
  cases answer with
  | error err => exact ensures_pure kept
  | ok viewers => exact (ensures_trivial _).bind fun _ _ => ensures_pure kept

theorem getMatchingViewers_restores {order : RangeOrder Bytes} :
    Ensures (getMatchingViewers test controller proxyID order) fun result =>
      result.1 = controller := by
  refine getProxyViewers_restores.bind fun result kept => ?_
  obtain ⟨next, answer⟩ := result
  cases answer with
  | error err => exact ensures_pure kept
  | ok viewers => exact (ensures_trivial _).bind fun _ _ => ensures_pure kept

/-- A viewer for a user that does not exist is not made. -/
theorem createViewer_restores
    {make : ProxyContext → Except Panic (ProxyContext × Except Bytes ProxySessionViewer)}
    (makes : ∀ proxy, Ensures (make proxy) fun result =>
      ∀ err, result.2 = .error err → result.1 = proxy) :
    Ensures (controller.createViewer proxyID make) fun result =>
      ∀ err, result.2 = .error err → result.1 = controller := by
  unfold createViewer
  split
  · next proxy err got =>
    refine (makes proxy).bind fun result kept => ensures_pure fun err failed => ?_
    obtain ⟨made, answer⟩ := result
    cases answer with
    | ok viewer => contradiction
    | error text =>
      obtain rfl : made = proxy := kept text rfl
      exact updateProxy_same (getProxy_some got).1
  · exact ensures_pure fun err _ => rfl
  · exact ensures_pure fun err impossible => by contradiction

theorem makeSessionViewerForUser_restores (proxy : ProxyContext) (username password : Bytes)
    (draw : RandomSource) :
    Ensures (proxy.makeSessionViewerForUser username password draw) fun result =>
      ∀ err, result.2 = .error err → result.1 = proxy := by
  refine (ensures_trivial _).bind fun found _ => ?_
  split
  · exact (ensures_trivial _).bind fun _ _ => (ensures_trivial _).bind fun _ _ =>
      ensures_pure fun err impossible => by contradiction
  · exact ensures_pure fun _ _ => rfl
  · exact ensures_pure fun _ _ => rfl

theorem makeSessionViewerForSession_restores (proxy : ProxyContext)
    (username password session : Bytes) (draw : RandomSource) :
    Ensures (proxy.makeSessionViewerForSession username password session draw) fun result =>
      ∀ err, result.2 = .error err → result.1 = proxy := by
  refine (ensures_trivial _).bind fun found _ => ?_
  split
  · exact (ensures_trivial _).bind fun _ _ => (ensures_trivial _).bind fun _ _ =>
      ensures_pure fun err impossible => by contradiction
  · exact ensures_pure fun _ _ => rfl
  · exact ensures_pure fun _ _ => rfl

theorem addEventCallbackToUser_restores {username password : Bytes} {callback : CallbackRef} :
    Ensures (controller.addEventCallbackToUser proxyID username password callback) fun result =>
      result.2.1 ≠ none → result.1 = controller := by
  unfold addEventCallbackToUser
  split
  · refine (ensures_trivial _).bind fun found _ => ?_
    split
    · exact (ensures_trivial _).bind fun _ _ => (ensures_trivial _).bind fun _ _ =>
        ensures_pure fun failed => absurd rfl failed
    · exact ensures_pure fun _ => rfl
  · exact ensures_pure fun _ => rfl

theorem addChannelFilterToUser_restores {username password : Bytes} {function : FilterRef} :
    Ensures (controller.addChannelFilterToUser proxyID username password function) fun result =>
      result.2.1 ≠ none → result.1 = controller := by
  unfold addChannelFilterToUser
  split
  · refine (ensures_trivial _).bind fun found _ => ?_
    split
    · exact (ensures_trivial _).bind fun _ _ => (ensures_trivial _).bind fun _ _ =>
        ensures_pure fun failed => absurd rfl failed
    · exact ensures_pure fun _ => rfl
  · exact ensures_pure fun _ => rfl

theorem delete_find {V : Type} (registry : MapVar Bytes V) (key : Bytes) :
    (registry.delete key).find key = none := by
  cases registry with
  | none => exact MapVar.find_none key
  | some entries => rw [MapVar.delete_some, MapVar.find_some, Finmap.lookup_erase]

/-- The key is gone in any case, error or not. -/
theorem removeEventCallbackFromUserByKey_restores {username password key : Bytes} :
    Ensures (controller.removeEventCallbackFromUserByKey proxyID username password key)
      fun result => result.1 = controller ↔ controller.eventCallbacks.find key = none := by
  unfold removeEventCallbackFromUserByKey
  cases registered : controller.eventCallbacks.find key with
  | none => exact ensures_pure (by simp)
  | some callback =>
    refine (ensures_trivial _).bind fun result _ => ensures_pure ?_
    refine ⟨fun same => ?_, fun impossible => by contradiction⟩
    have gone := delete_find result.1.eventCallbacks key
    rw [← registered, ← congrArg eventCallbacks same]
    exact gone

theorem removeChannelFilterFromUserByKey_restores {username password key : Bytes} :
    Ensures (controller.removeChannelFilterFromUserByKey proxyID username password key)
      fun result => result.1 = controller ↔ controller.channelFilters.find key = none := by
  unfold removeChannelFilterFromUserByKey
  cases registered : controller.channelFilters.find key with
  | none => exact ensures_pure (by simp)
  | some function =>
    refine (ensures_trivial _).bind fun result _ => ensures_pure ?_
    refine ⟨fun same => ?_, fun impossible => by contradiction⟩
    have gone := delete_find result.1.channelFilters key
    rw [← registered, ← congrArg channelFilters same]
    exact gone

end ProxyController

namespace ControllerMessage
variable {message : ControllerMessage} {s : ControllerState} {world : World} {reply : Reply}

/-- A command names its error to nobody but by returning it, and where it does, the state is
the one before it exactly if `kept`. -/
structure Clean (s : ControllerState) (reply : Reply) (kept : Prop) (outcome : Outcome) : Prop where
  restores : outcome.2.2 ≠ none → (outcome.1.SameAs s ↔ kept)
  named : lit "Error" ∉ reply → lit "Error" ∉ outcome.2.1

theorem clean_same (err : Option Bytes) : Clean s reply True (s, reply, err) :=
  ⟨fun _ => iff_of_true ⟨rfl, rfl, rfl⟩ trivial, id⟩

theorem clean_restored {next : ControllerState} {err : Option Bytes}
    (restores : err ≠ none → next.SameAs s) : Clean s reply True (next, reply, err) :=
  ⟨fun failed => iff_of_true (restores failed) trivial, id⟩

theorem put_named {key : String} (value : ReplyValue) (other : lit "Error" ≠ lit key)
    (unnamed : lit "Error" ∉ reply) : lit "Error" ∉ reply.put key value := fun member =>
  (Finmap.mem_insert.mp member).elim other unnamed

theorem clean_put {next : ControllerState} {key : String} (value : ReplyValue)
    (other : lit "Error" ≠ lit key) : Clean s reply True (next, reply.put key value, none) :=
  ⟨fun failed => absurd rfl failed, put_named value other⟩

theorem createProxy_clean : Ensures (message.createProxy s world reply) (Clean s reply True) := by
  unfold createProxy
  split
  · refine ProxyController.addProxyFromJSON_restores.bind fun result restored => ?_
    obtain ⟨controller, newProxyID⟩ := result
    cases newProxyID with
    | some id => exact ensures_pure (clean_put _ (by decide))
    | none => exact ensures_pure (clean_restored fun _ => ⟨restored rfl, rfl, rfl⟩)
  · exact ensures_pure (clean_same _)

theorem startProxy_clean : Ensures (message.startProxy s reply) (Clean s reply True) := by
  refine ensures_pure (clean_restored fun failed => ⟨rfl, rfl, ?_⟩)
  have nobody := ProxyController.startProxy_restores failed
  exact (congrArg (fun launched => s.starting ++ launched.toList) nobody).trans
    (List.append_nil s.starting)

theorem stopProxy_clean : Ensures (message.stopProxy s world reply) (Clean s reply True) :=
  ProxyController.stopProxy_restores.bind fun _ restored =>
    ensures_pure (clean_restored fun failed =>
      ⟨(restored failed).1, (restored failed).2, rfl⟩)

theorem destroyProxy_clean : Ensures (message.destroyProxy s world reply) (Clean s reply True) :=
  ProxyController.destroyProxy_restores.bind fun _ restored =>
    ensures_pure (clean_restored fun failed =>
      ⟨(restored failed).1, (restored failed).2, if_neg failed⟩)

theorem activateProxy_clean : Ensures (message.activateProxy s reply) (Clean s reply True) :=
  ensures_pure (clean_restored fun failed =>
    ⟨ProxyController.withProxy_restores failed, rfl, rfl⟩)

theorem deactivateProxy_clean : Ensures (message.deactivateProxy s reply) (Clean s reply True) :=
  ensures_pure (clean_restored fun failed =>
    ⟨ProxyController.withProxy_restores failed, rfl, rfl⟩)

theorem listProxies_clean : Ensures (listProxies s reply) (Clean s reply True) :=
  ensures_pure (clean_put _ (by decide))

theorem getProxyInfo_clean : Ensures (message.getProxyInfo s reply) (Clean s reply True) := by
  unfold getProxyInfo
  split
  · exact ensures_pure (clean_put _ (by decide))
  · exact ensures_pure (clean_same _)

theorem replyViewer_clean {controller : ProxyController}
    {result : Except Bytes (Option ProxySessionViewer)}
    (restored : ∀ err, result = .error err → controller = s.controller) :
    Clean s reply True (replyViewer s reply controller result) := by
  cases result with
  | ok viewer => exact clean_put _ (by decide)
  | error err => exact clean_restored fun _ => ⟨restored err rfl, rfl, rfl⟩

theorem replyViewers_clean {controller : ProxyController}
    {result : Except Bytes (List (Option ProxySessionViewer))}
    (restored : ∀ err, result = .error err → controller = s.controller) :
    Clean s reply True (replyViewers s reply controller result) := by
  cases result with
  | ok viewers => exact clean_put _ (by decide)
  | error err => exact clean_restored fun _ => ⟨restored err rfl, rfl, rfl⟩

theorem getProxyViewer_clean :
    Ensures (message.getProxyViewer s world reply) (Clean s reply True) := by
  unfold getProxyViewer
  split
  · exact ProxyController.getProxyViewerByViewerKey_restores.bind fun _ restored =>
      ensures_pure (replyViewer_clean fun _ _ => restored)
  split
  · exact ProxyController.getProxyViewer_restores.bind fun _ restored =>
      ensures_pure (replyViewer_clean fun _ _ => restored)
  split
  · exact ProxyController.getProxyViewer_restores.bind fun _ restored =>
      ensures_pure (replyViewer_clean fun _ _ => restored)
  · exact ensures_pure (clean_same _)

theorem getProxyViewers_clean :
    Ensures (message.getProxyViewers s world reply) (Clean s reply True) := by
  unfold getProxyViewers
  split
  · exact ProxyController.getMatchingViewers_restores.bind fun _ restored =>
      ensures_pure (replyViewers_clean fun _ _ => restored)
  split
  · exact ProxyController.getMatchingViewers_restores.bind fun _ restored =>
      ensures_pure (replyViewers_clean fun _ _ => restored)
  · exact ProxyController.getProxyViewers_restores.bind fun _ restored =>
      ensures_pure (replyViewers_clean fun _ _ => restored)

theorem newProxyViewer_clean :
    Ensures (message.newProxyViewer s world reply) (Clean s reply True) := by
  unfold newProxyViewer
  split
  · split
    · exact (ProxyController.createViewer_restores fun proxy =>
        ProxyController.makeSessionViewerForSession_restores proxy _ _ _ _).bind fun _ restored =>
          ensures_pure (replyViewer_clean restored)
    · exact (ProxyController.createViewer_restores fun proxy =>
        ProxyController.makeSessionViewerForUser_restores proxy _ _ _).bind fun _ restored =>
          ensures_pure (replyViewer_clean restored)
  · exact ensures_pure (clean_same _)

theorem addProxyUser_clean : Ensures (message.addProxyUser s reply) (Clean s reply True) := by
  unfold addProxyUser
  split
  · refine ProxyController.addUserToProxy_restores.bind fun result restored => ?_
    obtain ⟨controller, err, key⟩ := result
    cases err with
    | none => exact ensures_pure (clean_put _ (by decide))
    | some text =>
      exact ensures_pure (clean_restored fun failed => ⟨restored failed, rfl, rfl⟩)
  · exact ensures_pure (clean_same _)

theorem removeProxyUser_clean : Ensures (message.removeProxyUser s reply) (Clean s reply True) := by
  unfold removeProxyUser
  split
  · exact ensures_pure (clean_restored fun failed =>
      ⟨ProxyController.removeUserFromProxy_restores failed, rfl, rfl⟩)
  · exact ensures_pure (clean_same _)

theorem addChannelFilter_clean :
    Ensures (message.addChannelFilter s reply) (Clean s reply True) := by
  unfold addChannelFilter
  split
  · split
    · refine ProxyController.addChannelFilterToUser_restores.bind fun result restored =>
        ensures_pure ⟨fun failed => iff_of_true ⟨restored failed, rfl, rfl⟩ trivial, ?_⟩
      exact put_named _ (by decide)
    · exact ensures_pure (clean_same _)
  · exact ensures_pure (clean_same _)

theorem addUserCallback_clean :
    Ensures (message.addUserCallback s reply) (Clean s reply True) := by
  unfold addUserCallback
  split
  · split
    · refine ProxyController.addEventCallbackToUser_restores.bind fun result restored =>
        ensures_pure ⟨fun failed => iff_of_true ⟨restored failed, rfl, rfl⟩ trivial, ?_⟩
      exact put_named _ (by decide)
    · exact ensures_pure (clean_same _)
  · exact ensures_pure (clean_same _)

theorem sameAs_controller {controller : ProxyController} :
    ControllerState.SameAs { s with controller } s ↔ controller = s.controller :=
  ⟨fun same => same.controller, fun same => ⟨same, rfl, rfl⟩⟩

/-- The message asks for a key that is registered to be removed from a user. -/
def RemovesRegistered (message : ControllerMessage) (controller : ProxyController) : Prop :=
  message.username ≠ [] ∧
    match Command.read message.messageType with
    | some .removeChannelFilter =>
        message.filterKey ≠ [] ∧ controller.channelFilters.find message.filterKey ≠ none
    | some .removeUserCallback =>
        message.callbackKey ≠ [] ∧ controller.eventCallbacks.find message.callbackKey ≠ none
    | _ => False

theorem removeChannelFilter_clean :
    Ensures (message.removeChannelFilter s reply) (Clean s reply
      ¬ (message.username ≠ [] ∧ message.filterKey ≠ [] ∧
        s.controller.channelFilters.find message.filterKey ≠ none)) := by
  unfold removeChannelFilter
  split
  · next asked =>
    refine ProxyController.removeChannelFilterFromUserByKey_restores.bind fun result restored =>
      ensures_pure ⟨fun _ => ?_, id⟩
    rw [sameAs_controller, restored]
    exact ⟨fun free registered => registered.2.2 free, fun free =>
      not_not.mp fun registered => free ⟨asked.2, asked.1, registered⟩⟩
  · next missing =>
    refine ensures_pure ⟨fun _ => iff_of_true ⟨rfl, rfl, rfl⟩ ?_, id⟩
    exact fun asked => missing ⟨asked.2.1, asked.1⟩

theorem removeUserCallback_clean :
    Ensures (message.removeUserCallback s reply) (Clean s reply
      ¬ (message.username ≠ [] ∧ message.callbackKey ≠ [] ∧
        s.controller.eventCallbacks.find message.callbackKey ≠ none)) := by
  unfold removeUserCallback
  split
  · next asked =>
    refine ProxyController.removeEventCallbackFromUserByKey_restores.bind fun result restored =>
      ensures_pure ⟨fun _ => ?_, id⟩
    rw [sameAs_controller, restored]
    exact ⟨fun free registered => registered.2.2 free, fun free =>
      not_not.mp fun registered => free ⟨asked.2, asked.1, registered⟩⟩
  · next missing =>
    refine ensures_pure ⟨fun _ => iff_of_true ⟨rfl, rfl, rfl⟩ ?_, id⟩
    exact fun asked => missing ⟨asked.2.1, asked.1⟩

theorem dispatch_clean : Ensures (message.dispatch s world reply)
    (Clean s reply ¬ message.RemovesRegistered s.controller) := by
  unfold dispatch RemovesRegistered
  cases read : Command.read message.messageType with
  | none => simpa using ensures_pure (clean_same _)
  | some command =>
    cases command with
    | createProxy => simpa using createProxy_clean
    | startProxy => simpa using startProxy_clean
    | stopProxy => simpa using stopProxy_clean
    | destroyProxy => simpa using destroyProxy_clean
    | activateProxy => simpa using activateProxy_clean
    | deactivateProxy => simpa using deactivateProxy_clean
    | listProxies => simpa using listProxies_clean
    | getProxyInfo => simpa using getProxyInfo_clean
    | getProxyViewer => simpa using getProxyViewer_clean
    | getProxyViewers => simpa using getProxyViewers_clean
    | newProxyViewer => simpa using newProxyViewer_clean
    | addProxyUser => simpa using addProxyUser_clean
    | removeProxyUser => simpa using removeProxyUser_clean
    | addChannelFilter => simpa using addChannelFilter_clean
    | removeChannelFilter => exact removeChannelFilter_clean
    | addUserCallback => simpa using addUserCallback_clean
    | removeUserCallback => exact removeUserCallback_clean

/-- The reply before it is encoded. -/
def answer (message : ControllerMessage) (s : ControllerState) (world : World) :
    Except Panic (ControllerState × Reply) := do
  let reply := Reply.put ∅ "MessageType" (.text (message.messageType ++ lit "-reply"))
  let (s, reply, err) ← message.dispatch s world reply
  return (s, reply.putError err)

theorem handleMessage_answer (message : ControllerMessage) (s : ControllerState) (world : World) :
    message.handleMessage s world = do
      let (s, reply) ← message.answer s world
      return (s, reply.marshal) := by
  simp only [handleMessage, answer, bind_assoc, pure_bind]

/-- Where the reply has an error, the state is the one before the message, unless that was to
remove a key that is registered. -/
theorem error_restores_iff {next : ControllerState}
    (answered : message.answer s world = .ok (next, reply)) (failed : lit "Error" ∈ reply) :
    next.SameAs s ↔ ¬ message.RemovesRegistered s.controller := by
  obtain ⟨⟨left, sofar, err⟩, dispatched, done⟩ := of_bind_ok answered
  obtain ⟨rfl, rfl⟩ := Prod.mk.inj (Except.ok.inj done)
  have clean := dispatch_clean _ dispatched
  cases err with
  | some text => exact clean.restores (Option.some_ne_none text)
  | none => exact absurd failed (clean.named (put_named _ (by decide) Finmap.notMem_empty))

end ControllerMessage

def addProxyUserMessage : ControllerMessage :=
  { messageType := lit "add-proxy-user"
    proxyUser := some { username := lit "a", password := lit "b" } }

def addChannelFilterMessage : ControllerMessage :=
  { messageType := lit "add-channel-filter"
    username := lit "a", password := lit "b"
    findString := some (lit "x"), replaceString := some (lit "y") }

/-- The key that its filter gets. -/
def firstFilterKey : Bytes := hookKey (lit "filter") 0 (lit "a") (lit "b") 0

/-- The filter's key, but another user. -/
def strayRemovalMessage : ControllerMessage :=
  { messageType := lit "remove-channel-filter", username := lit "c", filterKey := firstFilterKey }

def oneUserController (user : ProxyUser) : ProxyController :=
  { onePlainProxy with
    proxies := some ((∅ : GoMap UInt64 (Option ProxyContext)).insert 0 (some { plainProxy with
      users := some ((∅ : GoMap Bytes (Option ProxyUser)).insert (lit "a:b") (some user)) })) }

/-- A user whose session traffic is filtered. -/
def filteredController : ProxyController :=
  { oneUserController { username := lit "a", password := lit "b", channelFilters := [0] } with
    channelFilters := some ((∅ : GoMap Bytes FilterRef).insert firstFilterKey 0) }

theorem addProxyUserMessage_adds : ∃ reply,
    addProxyUserMessage.handleMessage { controller := onePlainProxy } sortedWorld =
      .ok ({ controller := oneUserController { username := lit "a", password := lit "b" } }, reply) := by
  have read : Command.read (lit "add-proxy-user") = some .addProxyUser := rfl
  have key : buildProxyUserKey (lit "a") (lit "b") = lit "a:b" := by decide
  simp [ControllerMessage.handleMessage, ControllerMessage.dispatch, addProxyUserMessage, read,
    ControllerMessage.addProxyUser, ProxyController.addUserToProxy, ProxyController.getProxy,
    onePlainProxy, ProxyContext.addProxyUser, plainProxy, ProxyContext.withDefaults, key, bind,
    Except.bind, pure, Except.pure, ProxyController.updateProxy, oneUserController]

theorem addChannelFilterMessage_adds : ∃ reply,
    addChannelFilterMessage.handleMessage
        { controller := oneUserController { username := lit "a", password := lit "b" } }
        sortedWorld =
      .ok ({ controller := filteredController,
             filters := [{ findString := lit "x", replaceString := lit "y" }] }, reply) := by
  have read : Command.read (lit "add-channel-filter") = some .addChannelFilter := rfl
  have key : buildProxyUserKey (lit "a") (lit "b") = lit "a:b" := by decide
  have named : lit "a" ≠ [] := by decide
  simp [ControllerMessage.handleMessage, ControllerMessage.dispatch, addChannelFilterMessage, read,
    ControllerMessage.addChannelFilter, ProxyController.addChannelFilterToUser, named,
    ProxyController.getProxy, oneUserController, onePlainProxy, emptyController,
    ProxyContext.getProxyUser, key, bind, Except.bind, pure, Except.pure,
    ProxyUser.addChannelFilter, unusedKey, ProxyController.updateProxy,
    ProxyContext.updateFoundUser, filteredController, firstFilterKey]

/-- The filter is still the user's, but not registered. -/
def forgetfulController : ProxyController :=
  { filteredController with
    channelFilters := filteredController.channelFilters.delete firstFilterKey }

theorem strayRemovalMessage_fails (filters : List ChannelFilterFunc) : ∃ reply,
    strayRemovalMessage.answer { controller := filteredController, filters } sortedWorld =
      .ok ({ controller := forgetfulController, filters },
        Reply.putError reply (some notAValidUser)) := by
  have read : Command.read (lit "remove-channel-filter") = some .removeChannelFilter := rfl
  have asked : firstFilterKey ≠ [] ∧ lit "c" ≠ [] := by decide
  have other : buildProxyUserKey (lit "c") [] ≠ lit "a:b" := by decide
  refine ⟨Reply.put ∅ "MessageType" (.text (lit "remove-channel-filter" ++ lit "-reply")), ?_⟩
  simp [ControllerMessage.answer, ControllerMessage.dispatch, strayRemovalMessage, read,
    ControllerMessage.removeChannelFilter, asked, ProxyController.removeChannelFilterFromUserByKey,
    filteredController, forgetfulController, ProxyController.removeChannelFilterFromUser,
    ProxyController.getProxy, oneUserController, ProxyContext.getProxyUser,
    Finmap.lookup_insert_of_ne _ other, bind, Except.bind, pure, Except.pure]

/-- A filter for a user whom nobody has added. -/
def strangerFilterMessage : ControllerMessage := { addChannelFilterMessage with username := lit "c" }

theorem strangerFilterMessage_fails (filters : List ChannelFilterFunc) : ∃ next reply,
    strangerFilterMessage.answer { controller := filteredController, filters } sortedWorld =
      .ok (next, Reply.putError reply (some notAValidUser)) := by
  have read : Command.read (lit "add-channel-filter") = some .addChannelFilter := rfl
  have named : lit "c" ≠ [] := by decide
  have other : buildProxyUserKey (lit "c") (lit "b") ≠ lit "a:b" := by decide
  have blank : buildProxyUserKey (lit "c") [] ≠ lit "a:b" := by decide
  refine ⟨{ controller := filteredController, filters := filters ++ [⟨lit "x", lit "y"⟩] },
    (Reply.put ∅ "MessageType" (.text (lit "add-channel-filter" ++ lit "-reply"))).put "FilterKey"
      (.text []), ?_⟩
  simp [ControllerMessage.answer, ControllerMessage.dispatch, strangerFilterMessage,
    addChannelFilterMessage, read, ControllerMessage.addChannelFilter, named,
    ProxyController.addChannelFilterToUser, ProxyController.getProxy, filteredController,
    oneUserController, ProxyContext.getProxyUser, Finmap.lookup_insert_of_ne _ other,
    Finmap.lookup_insert_of_ne _ blank, bind, Except.bind, pure, Except.pure]

theorem filteredController_reachable : ∃ filters, (controllerRuns fun _ _ _ => True).Reachable
    { controller := filteredController, filters } := by
  obtain ⟨_, created⟩ := createProxyMessage_creates
  obtain ⟨_, added⟩ := addProxyUserMessage_adds
  obtain ⟨_, filtered⟩ := addChannelFilterMessage_adds
  have start : (controllerRuns fun _ _ _ => True).Reachable { controller := emptyController } :=
    .start ⟨emptyController, emptyController_setUp, rfl⟩
  have steps : ∀ {s next : ControllerState} {reply : Bytes} (message : ControllerMessage),
      (controllerRuns fun _ _ _ => True).Reachable s →
      message.handleMessage s sortedWorld = .ok (next, reply) →
      (controllerRuns fun _ _ _ => True).Reachable next :=
    fun message before handled => .next before
      (show (controllerRuns fun _ _ _ => True).step _ (.command message sortedWorld) _ from
        ⟨trivial, _, handled⟩)
  exact ⟨_, steps _ (steps _ (steps _ start created) added) filtered⟩

theorem filteredController_registered :
    filteredController.channelFilters.find firstFilterKey = some 0 := Finmap.lookup_insert _

/-- Of two commands that report that there is no such user, one has changed nothing and the other
has. -/
theorem error_restores_iff_noSuchUser :
    (∃ next reply, strangerFilterMessage.answer { controller := filteredController } sortedWorld =
        .ok (next, reply) ∧ next.SameAs { controller := filteredController }) ∧
      ∃ next reply, strayRemovalMessage.answer { controller := filteredController } sortedWorld =
        .ok (next, reply) ∧ ¬ next.SameAs { controller := filteredController } := by
  obtain ⟨added, addReply, answeredAdd⟩ := strangerFilterMessage_fails []
  obtain ⟨removeReply, answeredRemove⟩ := strayRemovalMessage_fails []
  have named : ∀ reply : Reply, lit "Error" ∈ reply.putError (some notAValidUser) :=
    fun reply => Finmap.mem_insert.mpr (.inl rfl)
  have adds : ¬ strangerFilterMessage.RemovesRegistered filteredController := by
    rintro ⟨-, removes⟩
    exact removes
  have removes : strayRemovalMessage.RemovesRegistered filteredController := by
    refine ⟨by decide, ?_⟩
    have read : Command.read strayRemovalMessage.messageType = some .removeChannelFilter := rfl
    rw [read]
    exact ⟨by decide, Option.ne_none_iff_exists'.mpr ⟨0, filteredController_registered⟩⟩
  refine ⟨⟨added, _, answeredAdd, ?_⟩, _, _, answeredRemove, ?_⟩
  · exact (ControllerMessage.error_restores_iff answeredAdd (named addReply)).mpr adds
  · intro same
    exact (ControllerMessage.error_restores_iff answeredRemove (named removeReply)).mp same removes

/-- The key is gone, though the reply says that there is no such user. -/
theorem removal_error_forgets :
    ¬ ∀ s, (controllerRuns fun _ _ _ => True).Reachable s →
      ∀ (message : ControllerMessage) (world : World) (next : ControllerState) (reply : Reply),
        message.answer s world = .ok (next, reply) → lit "Error" ∈ reply → next.SameAs s := by
  intro atomic
  obtain ⟨filters, reached⟩ := filteredController_reachable
  obtain ⟨reply, answered⟩ := strayRemovalMessage_fails filters
  have failed : lit "Error" ∈ Reply.putError reply (some notAValidUser) :=
    Finmap.mem_insert.mpr (Or.inl rfl)
  have same := atomic _ reached strayRemovalMessage sortedWorld _ _ answered failed
  have forgotten : forgetfulController.channelFilters.find firstFilterKey = none :=
    ProxyController.delete_find filteredController.channelFilters firstFilterKey
  rw [show forgetfulController = filteredController from same.controller,
    filteredController_registered] at forgotten
  contradiction

end SSHProxyPlus
