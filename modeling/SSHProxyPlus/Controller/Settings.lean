import SSHProxyPlus.Controller.Atomicity

/-! Commands change the tables of the controller and nothing else of it. -/
namespace SSHProxyPlus
open Go

namespace ProxyController
variable {controller next : ProxyController} {proxyID : UInt64}

/-- All is the same but the proxies, their counter and the two registries. -/
def SameSettings (next controller : ProxyController) : Prop :=
  ∃ proxies proxyCounter channelFilters eventCallbacks,
    next = { controller with proxies, proxyCounter, channelFilters, eventCallbacks }

namespace SameSettings

theorem refl (controller : ProxyController) : controller.SameSettings controller :=
  ⟨_, _, _, _, rfl⟩

theorem trans {later : ProxyController} (second : later.SameSettings next)
    (first : next.SameSettings controller) : later.SameSettings controller := by
  obtain ⟨_, _, _, _, rfl⟩ := first
  obtain ⟨_, _, _, _, rfl⟩ := second
  exact ⟨_, _, _, _, rfl⟩

theorem presharedKey (same : next.SameSettings controller) :
    next.presharedKey = controller.presharedKey := by
  obtain ⟨_, _, _, _, rfl⟩ := same
  rfl

theorem log (same : next.SameSettings controller) : next.log = controller.log := by
  obtain ⟨_, _, _, _, rfl⟩ := same
  rfl

end SameSettings

theorem updateProxy_settings (proxy : ProxyContext) :
    (controller.updateProxy proxyID proxy).SameSettings controller := ⟨_, _, _, _, rfl⟩

theorem addExistingProxy_settings {proxy : ProxyContext} :
    Ensures (controller.addExistingProxy proxy) fun result => result.1.SameSettings controller :=
  (ensures_trivial _).bind fun _ _ => ensures_pure ⟨_, _, _, _, rfl⟩

theorem addProxy_settings {proxy : ProxyContext} :
    Ensures (controller.addProxy proxy) fun result => result.1.SameSettings controller := by
  refine addExistingProxy_settings.bind fun result kept => ?_
  obtain ⟨next, proxyID⟩ := result
  exact ensures_pure ((updateProxy_settings _).trans kept)

theorem addProxyFromJSON_settings {data : Bytes} {order : RangeOrder Bytes} :
    Ensures (controller.addProxyFromJSON data order) fun result =>
      result.1.SameSettings controller := by
  refine (ensures_trivial _).bind fun decoded _ => ?_
  cases decoded with
  | none => exact ensures_pure (.refl controller)
  | some proxy =>
    exact addProxy_settings.bind fun result kept => ensures_pure kept

theorem stopProxy_settings {heap : SessionHeap} {order : RangeOrder Bytes} {now : Time} :
    Ensures (controller.stopProxy heap proxyID order now) fun result =>
      result.1.SameSettings controller := by
  unfold stopProxy
  split
  · exact (ensures_trivial _).bind fun _ _ => ensures_pure (updateProxy_settings _)
  · exact ensures_pure (.refl controller)

theorem destroyProxy_settings {heap : SessionHeap} {order : RangeOrder Bytes} {now : Time} :
    Ensures (controller.destroyProxy heap proxyID order now) fun result =>
      result.1.SameSettings controller := by
  unfold destroyProxy
  split
  · refine (ensures_trivial _).bind fun proxy _ => ?_
    split
    · exact (ensures_trivial _).bind fun _ _ => ensures_pure ⟨_, _, _, _, rfl⟩
    · exact ensures_pure ⟨_, _, _, _, rfl⟩
  · exact ensures_pure (.refl controller)

theorem withProxy_settings (f : ProxyContext → ProxyContext) :
    (controller.withProxy proxyID f).1.SameSettings controller := by
  unfold withProxy
  split
  · exact updateProxy_settings _
  · exact .refl controller

theorem addUserToProxy_settings {user : ProxyUser} :
    Ensures (controller.addUserToProxy proxyID user) fun result =>
      result.1.SameSettings controller := by
  unfold addUserToProxy
  split
  · exact (ensures_trivial _).bind fun _ _ => ensures_pure (updateProxy_settings _)
  · exact ensures_pure (.refl controller)

theorem removeUserFromProxy_settings (username password : Bytes) :
    (controller.removeUserFromProxy proxyID username password).1.SameSettings controller := by
  unfold removeUserFromProxy
  split
  · exact updateProxy_settings _
  · exact .refl controller

theorem createViewer_settings
    {make : ProxyContext → Except Panic (ProxyContext × Except Bytes ProxySessionViewer)} :
    Ensures (controller.createViewer proxyID make) fun result =>
      result.1.SameSettings controller := by
  unfold createViewer
  split
  · exact (ensures_trivial _).bind fun _ _ => ensures_pure (updateProxy_settings _)
  · exact ensures_pure (.refl controller)
  · exact ensures_pure (.refl controller)

section hooks
variable {username password key : Bytes}

theorem addEventCallbackToUser_settings {callback : CallbackRef} :
    Ensures (controller.addEventCallbackToUser proxyID username password callback) fun result =>
      result.1.SameSettings controller := by
  unfold addEventCallbackToUser
  split
  · refine (ensures_trivial _).bind fun found _ => ?_
    split
    · exact (ensures_trivial _).bind fun _ _ => (ensures_trivial _).bind fun _ _ =>
        ensures_pure ⟨_, _, _, _, rfl⟩
    · exact ensures_pure (.refl controller)
  · exact ensures_pure (.refl controller)

theorem addChannelFilterToUser_settings {function : FilterRef} :
    Ensures (controller.addChannelFilterToUser proxyID username password function) fun result =>
      result.1.SameSettings controller := by
  unfold addChannelFilterToUser
  split
  · refine (ensures_trivial _).bind fun found _ => ?_
    split
    · exact (ensures_trivial _).bind fun _ _ => (ensures_trivial _).bind fun _ _ =>
        ensures_pure ⟨_, _, _, _, rfl⟩
    · exact ensures_pure (.refl controller)
  · exact ensures_pure (.refl controller)

theorem removeEventCallbackFromUser_settings {callback : Option CallbackRef} :
    Ensures (controller.removeEventCallbackFromUser proxyID username password callback)
      fun result => result.1.SameSettings controller := by
  unfold removeEventCallbackFromUser
  split
  · refine (ensures_trivial _).bind fun found _ => ?_
    split
    · exact (ensures_trivial _).bind fun _ _ => (ensures_trivial _).bind fun _ _ =>
        ensures_pure (updateProxy_settings _)
    · exact ensures_pure (.refl controller)
  · exact ensures_pure (.refl controller)

theorem removeChannelFilterFromUser_settings {function : FilterRef} :
    Ensures (controller.removeChannelFilterFromUser proxyID username password function)
      fun result => result.1.SameSettings controller := by
  unfold removeChannelFilterFromUser
  split
  · refine (ensures_trivial _).bind fun found _ => ?_
    split
    · exact (ensures_trivial _).bind fun _ _ => (ensures_trivial _).bind fun _ _ =>
        ensures_pure (updateProxy_settings _)
    · exact ensures_pure (.refl controller)
  · exact ensures_pure (.refl controller)

theorem removeEventCallbackFromUserByKey_settings :
    Ensures (controller.removeEventCallbackFromUserByKey proxyID username password key)
      fun result => result.1.SameSettings controller := by
  unfold removeEventCallbackFromUserByKey
  split
  · exact removeEventCallbackFromUser_settings.bind fun result kept =>
      ensures_pure (SameSettings.trans ⟨_, _, _, _, rfl⟩ kept)
  · exact ensures_pure (.refl controller)

theorem removeChannelFilterFromUserByKey_settings :
    Ensures (controller.removeChannelFilterFromUserByKey proxyID username password key)
      fun result => result.1.SameSettings controller := by
  unfold removeChannelFilterFromUserByKey
  split
  · exact removeChannelFilterFromUser_settings.bind fun result kept =>
      ensures_pure (SameSettings.trans ⟨_, _, _, _, rfl⟩ kept)
  · exact ensures_pure (.refl controller)

end hooks
end ProxyController

namespace ControllerMessage
open ProxyController
variable {message : ControllerMessage} {s : ControllerState} {world : World} {reply : Reply}

/-- The controller of an outcome has the settings it had. -/
def Settled (s : ControllerState) (outcome : Outcome) : Prop :=
  outcome.1.controller.SameSettings s.controller

theorem settled_same (reply : Reply) (err : Option Bytes) : Settled s (s, reply, err) :=
  .refl s.controller

theorem replyViewer_settled {controller : ProxyController}
    (kept : controller.SameSettings s.controller)
    (result : Except Bytes (Option ProxySessionViewer)) :
    Settled s (replyViewer s reply controller result) := by
  cases result <;> exact kept

theorem replyViewers_settled {controller : ProxyController}
    (kept : controller.SameSettings s.controller)
    (result : Except Bytes (List (Option ProxySessionViewer))) :
    Settled s (replyViewers s reply controller result) := by
  cases result <;> exact kept

theorem createProxy_settled : Ensures (message.createProxy s world reply) (Settled s) := by
  unfold createProxy
  split
  · refine addProxyFromJSON_settings.bind fun result kept => ?_
    obtain ⟨controller, newProxyID⟩ := result
    cases newProxyID <;> exact ensures_pure kept
  · exact ensures_pure (settled_same _ _)

theorem getProxyInfo_settled : Ensures (message.getProxyInfo s reply) (Settled s) := by
  unfold getProxyInfo
  split <;> exact ensures_pure (settled_same _ _)

theorem getProxyViewer_settled : Ensures (message.getProxyViewer s world reply) (Settled s) := by
  unfold getProxyViewer
  split
  · exact getProxyViewerByViewerKey_restores.bind fun result kept =>
      ensures_pure (replyViewer_settled (kept ▸ .refl _) _)
  · split
    · exact getProxyViewer_restores.bind fun result kept =>
        ensures_pure (replyViewer_settled (kept ▸ .refl _) _)
    · split
      · exact getProxyViewer_restores.bind fun result kept =>
          ensures_pure (replyViewer_settled (kept ▸ .refl _) _)
      · exact ensures_pure (settled_same _ _)

theorem getProxyViewers_settled :
    Ensures (message.getProxyViewers s world reply) (Settled s) := by
  unfold getProxyViewers
  split
  · exact getMatchingViewers_restores.bind fun result kept =>
      ensures_pure (replyViewers_settled (kept ▸ .refl _) _)
  · split
    · exact getMatchingViewers_restores.bind fun result kept =>
        ensures_pure (replyViewers_settled (kept ▸ .refl _) _)
    · exact getProxyViewers_restores.bind fun result kept =>
        ensures_pure (replyViewers_settled (kept ▸ .refl _) _)

theorem newProxyViewer_settled : Ensures (message.newProxyViewer s world reply) (Settled s) := by
  unfold newProxyViewer
  split
  · split <;> exact createViewer_settings.bind fun result kept =>
      ensures_pure (replyViewer_settled kept _)
  · exact ensures_pure (settled_same _ _)

theorem addProxyUser_settled : Ensures (message.addProxyUser s reply) (Settled s) := by
  unfold addProxyUser
  split
  · refine addUserToProxy_settings.bind fun result kept => ?_
    obtain ⟨controller, err, key⟩ := result
    cases err <;> exact ensures_pure kept
  · exact ensures_pure (settled_same _ _)

theorem removeProxyUser_settled : Ensures (message.removeProxyUser s reply) (Settled s) := by
  unfold removeProxyUser
  split
  · exact ensures_pure (removeUserFromProxy_settings _ _)
  · exact ensures_pure (settled_same _ _)

theorem addChannelFilter_settled : Ensures (message.addChannelFilter s reply) (Settled s) := by
  unfold addChannelFilter
  split
  · split
    · exact addChannelFilterToUser_settings.bind fun result kept => ensures_pure kept
    · exact ensures_pure (settled_same _ _)
  · exact ensures_pure (settled_same _ _)

theorem addUserCallback_settled : Ensures (message.addUserCallback s reply) (Settled s) := by
  unfold addUserCallback
  split
  · split
    · exact addEventCallbackToUser_settings.bind fun result kept => ensures_pure kept
    · exact ensures_pure (settled_same _ _)
  · exact ensures_pure (settled_same _ _)

theorem removeChannelFilter_settled :
    Ensures (message.removeChannelFilter s reply) (Settled s) := by
  unfold removeChannelFilter
  split
  · exact removeChannelFilterFromUserByKey_settings.bind fun result kept => ensures_pure kept
  · exact ensures_pure (settled_same _ _)

theorem removeUserCallback_settled :
    Ensures (message.removeUserCallback s reply) (Settled s) := by
  unfold removeUserCallback
  split
  · exact removeEventCallbackFromUserByKey_settings.bind fun result kept => ensures_pure kept
  · exact ensures_pure (settled_same _ _)

theorem dispatch_settled : Ensures (message.dispatch s world reply) (Settled s) := by
  unfold dispatch
  split
  · exact createProxy_settled
  · exact ensures_pure (.refl s.controller)
  · exact stopProxy_settings.bind fun result kept => ensures_pure kept
  · exact destroyProxy_settings.bind fun result kept => ensures_pure kept
  · exact ensures_pure (withProxy_settings _)
  · exact ensures_pure (withProxy_settings _)
  · exact ensures_pure (settled_same _ _)
  · exact getProxyInfo_settled
  · exact getProxyViewer_settled
  · exact getProxyViewers_settled
  · exact newProxyViewer_settled
  · exact addProxyUser_settled
  · exact removeProxyUser_settled
  · exact addChannelFilter_settled
  · exact removeChannelFilter_settled
  · exact addUserCallback_settled
  · exact removeUserCallback_settled
  · exact ensures_pure (settled_same _ _)

/-- No message changes the preshared key, the logger or any other setting. -/
theorem handleMessage_settings : Ensures (message.handleMessage s world) fun result =>
    result.1.controller.SameSettings s.controller :=
  dispatch_settled.bind fun _ kept => ensures_pure kept

end ControllerMessage

namespace ControllerState

theorem onProxy_settings {s : ControllerState} {proxyID : UInt64}
    {f : ProxyContext → Except Panic (ProxyContext × SessionHeap)} :
    Ensures (s.onProxy proxyID f) fun next => next.controller.SameSettings s.controller := by
  unfold onProxy
  split
  · exact (ensures_trivial _).bind fun _ _ =>
      ensures_pure (ProxyController.updateProxy_settings _)
  · exact ensures_pure (.refl s.controller)

theorem launch_settings {s : ControllerState} {goroutine : Launch} {listenError : Option Bytes} :
    Ensures (s.launch goroutine listenError) fun next =>
      next.controller.SameSettings s.controller := by
  unfold launch
  split
  · exact onProxy_settings
  · exact (ensures_trivial _).bind fun _ _ => ensures_pure (.refl s.controller)

theorem happen_settings {s : ControllerState} (happening : Happening) :
    Ensures (s.happen happening) fun next => next.controller.SameSettings s.controller := by
  cases happening with
  | started index listenError =>
    simp only [happen]
    cases s.starting[index]? with
    | some goroutine => exact launch_settings
    | none => exact ensures_pure (.refl s.controller)
  | accepted proxyID sessKey clientHost => exact onProxy_settings
  | loggedIn proxyID sessKey username password now => exact onProxy_settings
  | tracked proxyID session => exact onProxy_settings
  | recorded session event now =>
    exact (ensures_trivial _).bind fun _ _ => ensures_pure (.refl s.controller)
  | ended proxyID session now => exact onProxy_settings

end ControllerState

/-- Whatever happens to a controller that was set up, it has a logger. -/
theorem reachable_logs {Admitted : ControllerMessage → ControllerState → World → Prop}
    {s : ControllerState} (reached : (controllerRuns Admitted).Reachable s) :
    s.controller.log ≠ none := by
  induction reached with
  | start initial =>
    obtain ⟨ready, setUp, rfl⟩ := initial
    have proper : ready.Proper 0 0 := setUp.proper
    exact proper.log
  | @next before after action reached taken logs =>
    cases action with
    | command message world =>
      obtain ⟨-, reply, ran⟩ := taken
      rw [(ControllerMessage.handleMessage_settings _ ran).log]
      exact logs
    | happening happening =>
      rw [(ControllerState.happen_settings happening _ taken).log]
      exact logs

end SSHProxyPlus
