import SSHProxyPlus.Controller.Operations

/-! When a control message is safe: it follows no nil pointer, so it is executed and
answered. -/
namespace SSHProxyPlus
open Go

/-- Every viewer there is has a user. -/
def ProxyContext.ViewersOwned (proxy : ProxyContext) : Prop :=
  ∀ key viewer, proxy.viewers.find key = some (some viewer) → viewer.user ≠ none

namespace ControllerMessage
variable {message : ControllerMessage} {s : ControllerState} {world : World} {reply : Reply}

/-- The lookups of the message's user on its proxy follow no nil user. -/
def UserNotNil (message : ControllerMessage) (controller : ProxyController) : Prop :=
  controller.Addresses message.proxyID fun proxy =>
    ¬ proxy.NilUser message.username message.password

/-- What a message asks of the state so as to be executed, command by command. -/
def Safe (message : ControllerMessage) (s : ControllerState) (world : World) : Prop :=
  match Command.read message.messageType with
  | some .createProxy => ∀ data proxy, message.proxyData = some data →
      ProxyContext.codec.unmarshal data {} = some proxy → proxy.Linkable
  | some .stopProxy => s.controller.Addresses message.proxyID fun proxy => proxy.listener ≠ none
  | some .getProxyViewer =>
      message.viewerSecret = [] → message.sessionKey = [] → message.username ≠ [] →
        s.controller.Addresses message.proxyID ProxyContext.ViewersOwned
  | some .getProxyViewers => message.sessionKey = [] → message.username ≠ [] →
      s.controller.Addresses message.proxyID ProxyContext.ViewersOwned
  | some .newProxyViewer =>
      message.username ≠ [] → message.UserNotNil s.controller ∧ Drawable world.draw
  | some .addProxyUser => ∀ user, message.proxyUser = some user →
      Hooked s.filters.length s.callbacks.length user
  | some .addChannelFilter => message.findString ≠ none → message.replaceString ≠ none →
      message.username ≠ [] → message.UserNotNil s.controller
  | some .removeChannelFilter => message.username ≠ [] →
      s.controller.channelFilters.find message.filterKey ≠ none → message.UserNotNil s.controller
  | some .addUserCallback => message.findString ≠ none → message.callbackURL ≠ [] →
      message.username ≠ [] → message.UserNotNil s.controller
  | some .removeUserCallback => message.username ≠ [] →
      s.controller.eventCallbacks.find message.callbackKey ≠ none → message.UserNotNil s.controller
  | _ => True

/-- A command leaves the controller in order, and the reply still says what it answers. -/
structure Answers (reply : Reply) (outcome : Outcome) : Prop where
  good : outcome.1.Good
  kind : outcome.2.1.lookup (lit "MessageType") = reply.lookup (lit "MessageType")

theorem put_kind (reply : Reply) {key : String} (value : ReplyValue)
    (other : lit "MessageType" ≠ lit key) :
    (reply.put key value).lookup (lit "MessageType") = reply.lookup (lit "MessageType") :=
  Finmap.lookup_insert_of_ne reply other

theorem answers_controller (good : s.Good) {controller : ProxyController}
    (proper : controller.Proper s.filters.length s.callbacks.length) (err : Option Bytes) :
    Answers reply ({ s with controller }, reply, err) :=
  ⟨⟨proper, good.sessions⟩, rfl⟩

theorem createProxy_answers (good : s.Good)
    (linkable : ∀ data proxy, message.proxyData = some data →
      ProxyContext.codec.unmarshal data {} = some proxy → proxy.Linkable) :
    Returns (message.createProxy s world reply) (Answers reply) := by
  unfold createProxy
  cases given : message.proxyData with
  | none => exact returns_pure ⟨good, rfl⟩
  | some data =>
    refine (good.controller.addProxyFromJSON (linkable data · given) _).bind fun result kept => ?_
    obtain ⟨controller, newProxyID⟩ := result
    cases newProxyID with
    | none => exact returns_pure (answers_controller good kept _)
    | some id => exact returns_pure ⟨⟨kept, good.sessions⟩, put_kind _ _ (by decide)⟩

theorem stopProxy_answers (good : s.Good)
    (open' : s.controller.Addresses message.proxyID fun proxy => proxy.listener ≠ none) :
    Returns (message.stopProxy s world reply) (Answers reply) :=
  (good.controller.stopProxy good.sessions open' _ _).bind fun _ kept =>
    returns_pure ⟨⟨kept.1, kept.2⟩, rfl⟩

theorem destroyProxy_answers (good : s.Good) :
    Returns (message.destroyProxy s world reply) (Answers reply) :=
  (good.controller.destroyProxy good.sessions _ _ _).bind fun _ kept =>
    returns_pure ⟨⟨kept.1, kept.2⟩, rfl⟩

theorem getProxyInfo_answers (good : s.Good) :
    Returns (message.getProxyInfo s reply) (Answers reply) := by
  unfold getProxyInfo
  split
  · exact returns_pure ⟨good, put_kind _ _ (by decide)⟩
  · exact returns_pure ⟨good, rfl⟩

theorem replyViewer_answers (good : s.Good) {controller : ProxyController}
    (proper : controller.Proper s.filters.length s.callbacks.length)
    (result : Except Bytes (Option ProxySessionViewer)) :
    Answers reply (replyViewer s reply controller result) := by
  cases result with
  | ok viewer => exact ⟨⟨proper, good.sessions⟩, put_kind _ _ (by decide)⟩
  | error err => exact answers_controller good proper _

theorem replyViewers_answers (good : s.Good) {controller : ProxyController}
    (proper : controller.Proper s.filters.length s.callbacks.length)
    (result : Except Bytes (List (Option ProxySessionViewer))) :
    Answers reply (replyViewers s reply controller result) := by
  cases result with
  | ok viewers => exact ⟨⟨proper, good.sessions⟩, put_kind _ _ (by decide)⟩
  | error err => exact answers_controller good proper _

theorem ownedTest {proxyID : UInt64} {controller : ProxyController}
    (owned : controller.Addresses proxyID ProxyContext.ViewersOwned) (username : Bytes) :
    controller.Addresses proxyID
      (ProxyController.Testable (ProxyController.hasUsername username)) :=
  fun proxy found => ProxyController.hasUsername_testable (owned proxy found) username

theorem getProxyViewer_answers (good : s.Good)
    (owned : message.viewerSecret = [] → message.sessionKey = [] → message.username ≠ [] →
      s.controller.Addresses message.proxyID ProxyContext.ViewersOwned) :
    Returns (message.getProxyViewer s world reply) (Answers reply) := by
  unfold getProxyViewer
  split
  · exact (good.controller.getProxyViewerByViewerKey _ _).bind fun _ kept =>
      returns_pure (replyViewer_answers good kept _)
  · next noSecret =>
    split
    · exact (good.controller.getProxyViewer
        (fun proxy _ => ProxyController.hasSessionKey_testable _ proxy) _).bind fun _ kept =>
          returns_pure (replyViewer_answers good kept _)
    · next noKey =>
      split
      · next named =>
        have owners := owned (not_not.mp noSecret) (not_not.mp noKey) named
        exact (good.controller.getProxyViewer (ownedTest owners _) _).bind fun _ kept =>
          returns_pure (replyViewer_answers good kept _)
      · exact returns_pure ⟨good, rfl⟩

theorem getProxyViewers_answers (good : s.Good)
    (owned : message.sessionKey = [] → message.username ≠ [] →
      s.controller.Addresses message.proxyID ProxyContext.ViewersOwned) :
    Returns (message.getProxyViewers s world reply) (Answers reply) := by
  unfold getProxyViewers
  split
  · exact (good.controller.getMatchingViewers
      (fun proxy _ => ProxyController.hasSessionKey_testable _ proxy) _).bind fun _ kept =>
        returns_pure (replyViewers_answers good kept _)
  · next noKey =>
    split
    · next named =>
      have owners := owned (not_not.mp noKey) named
      exact (good.controller.getMatchingViewers (ownedTest owners _) _).bind fun _ kept =>
        returns_pure (replyViewers_answers good kept _)
    · exact (good.controller.getProxyViewers _ _).bind fun _ kept =>
        returns_pure (replyViewers_answers good kept.1 _)

theorem newProxyViewer_answers (good : s.Good)
    (safe : message.username ≠ [] → message.UserNotNil s.controller ∧ Drawable world.draw) :
    Returns (message.newProxyViewer s world reply) (Answers reply) := by
  unfold newProxyViewer
  split
  · next named =>
    obtain ⟨notNil, drawable⟩ := safe named
    split
    · exact (good.controller.createSessionViewer notNil drawable _).bind fun _ kept =>
        returns_pure (replyViewer_answers good kept _)
    · exact (good.controller.createUserSessionViewer notNil drawable).bind fun _ kept =>
        returns_pure (replyViewer_answers good kept _)
  · exact returns_pure ⟨good, rfl⟩

theorem addProxyUser_answers (good : s.Good)
    (hooked : ∀ user, message.proxyUser = some user →
      Hooked s.filters.length s.callbacks.length user) :
    Returns (message.addProxyUser s reply) (Answers reply) := by
  unfold addProxyUser
  cases given : message.proxyUser with
  | none => exact returns_pure ⟨good, rfl⟩
  | some user =>
    refine (good.controller.addUserToProxy _ (hooked user given)).bind fun result kept => ?_
    obtain ⟨controller, err, key⟩ := result
    cases err with
    | none => exact returns_pure ⟨⟨kept, good.sessions⟩, put_kind _ _ (by decide)⟩
    | some text => exact returns_pure (answers_controller good kept _)

theorem removeProxyUser_answers (good : s.Good) :
    Returns (message.removeProxyUser s reply) (Answers reply) := by
  unfold removeProxyUser
  split
  · exact returns_pure (answers_controller good
      (good.controller.removeUserFromProxy _ _ _) _)
  · exact returns_pure ⟨good, rfl⟩

theorem addChannelFilter_answers (good : s.Good)
    (safe : message.findString ≠ none → message.replaceString ≠ none →
      message.username ≠ [] → message.UserNotNil s.controller) :
    Returns (message.addChannelFilter s reply) (Answers reply) := by
  unfold addChannelFilter
  split
  · next findString replaceString found replaced =>
    split
    · next named =>
      have notNil := safe (by simp [found]) (by simp [replaced]) named
      refine (good.controller.addChannelFilterToUser notNil).bind fun result kept =>
        returns_pure ⟨⟨?_, good.sessions⟩, put_kind _ _ (by decide)⟩
      simpa using kept
    · exact returns_pure ⟨good, rfl⟩
  · exact returns_pure ⟨good, rfl⟩

theorem removeChannelFilter_answers (good : s.Good)
    (safe : message.username ≠ [] →
      s.controller.channelFilters.find message.filterKey ≠ none → message.UserNotNil s.controller) :
    Returns (message.removeChannelFilter s reply) (Answers reply) := by
  unfold removeChannelFilter
  split
  · next asked =>
    exact (good.controller.removeChannelFilterFromUserByKey (safe asked.2)).bind fun _ kept =>
      returns_pure (answers_controller good kept _)
  · exact returns_pure ⟨good, rfl⟩

theorem addUserCallback_answers (good : s.Good)
    (safe : message.findString ≠ none → message.callbackURL ≠ [] →
      message.username ≠ [] → message.UserNotNil s.controller) :
    Returns (message.addUserCallback s reply) (Answers reply) := by
  unfold addUserCallback
  split
  · next findString found =>
    split
    · next asked =>
      have notNil := safe (by simp [found]) asked.1 asked.2
      refine (good.controller.addEventCallbackToUser notNil).bind fun result kept =>
        returns_pure ⟨⟨?_, good.sessions⟩, put_kind _ _ (by decide)⟩
      simpa using kept
    · exact returns_pure ⟨good, rfl⟩
  · exact returns_pure ⟨good, rfl⟩

theorem removeUserCallback_answers (good : s.Good)
    (safe : message.username ≠ [] →
      s.controller.eventCallbacks.find message.callbackKey ≠ none →
        message.UserNotNil s.controller) :
    Returns (message.removeUserCallback s reply) (Answers reply) := by
  unfold removeUserCallback
  split
  · next asked =>
    exact (good.controller.removeEventCallbackFromUserByKey (safe asked.2)).bind fun _ kept =>
      returns_pure (answers_controller good kept _)
  · exact returns_pure ⟨good, rfl⟩

theorem dispatch_answers (good : s.Good) (safe : message.Safe s world) :
    Returns (message.dispatch s world reply) (Answers reply) := by
  unfold Safe at safe
  unfold dispatch
  cases read : Command.read message.messageType with
  | none => exact returns_pure ⟨good, rfl⟩
  | some command =>
    simp only [read] at safe ⊢
    cases command with
    | createProxy => exact createProxy_answers good safe
    | startProxy => exact returns_pure ⟨⟨good.controller, good.sessions⟩, rfl⟩
    | stopProxy => exact stopProxy_answers good safe
    | destroyProxy => exact destroyProxy_answers good
    | activateProxy =>
      exact returns_pure (answers_controller good (good.controller.activateProxy _) _)
    | deactivateProxy =>
      exact returns_pure (answers_controller good (good.controller.deactivateProxy _) _)
    | listProxies => exact returns_pure ⟨good, put_kind _ _ (by decide)⟩
    | getProxyInfo => exact getProxyInfo_answers good
    | getProxyViewer => exact getProxyViewer_answers good safe
    | getProxyViewers => exact getProxyViewers_answers good safe
    | newProxyViewer => exact newProxyViewer_answers good safe
    | addProxyUser => exact addProxyUser_answers good safe
    | removeProxyUser => exact removeProxyUser_answers good
    | addChannelFilter => exact addChannelFilter_answers good safe
    | removeChannelFilter => exact removeChannelFilter_answers good safe
    | addUserCallback => exact addUserCallback_answers good safe
    | removeUserCallback => exact removeUserCallback_answers good safe

/-- The bytes are a reply to this kind of message. -/
def IsReply (message : ControllerMessage) (data : Bytes) : Prop :=
  ∃ reply : Reply, data = reply.marshal ∧
    reply.lookup (lit "MessageType") = some (.text (message.messageType ++ lit "-reply"))

/-- A safe message is executed and answered, and leaves the controller in order. -/
theorem handleMessage_answers (good : s.Good) (safe : message.Safe s world) :
    Returns (message.handleMessage s world) fun result =>
      result.1.Good ∧ message.IsReply result.2 := by
  refine (dispatch_answers good safe).bind fun outcome answers => returns_pure ?_
  obtain ⟨next, reply, err⟩ := outcome
  refine ⟨answers.good, reply.putError err, rfl, ?_⟩
  have kind : (reply.putError err).lookup (lit "MessageType") =
      reply.lookup (lit "MessageType") := by
    cases err with
    | none => rfl
    | some text => exact put_kind reply _ (by decide)
  exact kind.trans (answers.kind.trans (Finmap.lookup_insert _))

end ControllerMessage
end SSHProxyPlus
