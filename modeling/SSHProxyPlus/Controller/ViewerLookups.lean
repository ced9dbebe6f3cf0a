import SSHProxyPlus.Controller.Atomicity

/-! Looking viewers up: what the lookups of one viewer and of all matching viewers find, and
when they report that there is none. -/
namespace SSHProxyPlus
open Go

/-- What a control message can choose viewers by. -/
inductive ViewerSelector where
  | viewerSecret (secret : Bytes)
  | sessionKey (key : Bytes)
  | username (name : Bytes)

def ViewerSelector.selects : ViewerSelector → ProxySessionViewer → Bool
  | .viewerSecret secret, viewer => viewer.secret == secret
  | .sessionKey key, viewer => viewer.sessionKey == key
  | .username name, viewer => viewer.user.any fun user => user.username == name

/-- Every viewer is stored under its secret and has a user. -/
def ProxyContext.ViewersKept (proxy : ProxyContext) : Prop :=
  ∀ key pointer, proxy.viewers.find key = some pointer →
    ∃ viewer, pointer = some viewer ∧ viewer.secret = key ∧ viewer.user ≠ none

/-- The viewers that are not nil, as a `range` over them meets them. -/
def ProxyContext.viewersInOrder (proxy : ProxyContext) (order : RangeOrder Bytes) :
    List ProxySessionViewer :=
  (order.over proxy.viewers.content).filterMap fun key => (proxy.viewers.find key).join

namespace ProxyContext
variable {proxy : ProxyContext} {order : RangeOrder Bytes} {viewer : ProxySessionViewer}

theorem mem_viewersInOrder :
    viewer ∈ proxy.viewersInOrder order ↔ ∃ key, proxy.viewers.find key = some (some viewer) := by
  unfold viewersInOrder
  rw [List.mem_filterMap]
  constructor
  · rintro ⟨key, -, found⟩
    exact ⟨key, Option.join_eq_some_iff.mp found⟩
  · rintro ⟨key, found⟩
    exact ⟨key, (order.mem_over _ key).mpr (Finmap.mem_of_lookup_eq_some found),
      Option.join_eq_some_iff.mpr found⟩

/-- A secret names one viewer, so that no viewer is met twice. -/
theorem ViewersKept.nodup (kept : proxy.ViewersKept) (order : RangeOrder Bytes) :
    (proxy.viewersInOrder order).Nodup := by
  have under : ∀ key viewer, (proxy.viewers.find key).join = some viewer →
      viewer.secret = key := by
    intro key viewer found
    obtain ⟨other, same, named, -⟩ := kept key _ (Option.join_eq_some_iff.mp found)
    obtain rfl := Option.some.inj same
    exact named
  refine List.Nodup.filterMap ?_ (order.nodup _)
  intro key key' viewer first second
  exact (under key viewer first).symm.trans (under key' viewer second)

theorem ViewersKept.listed (kept : proxy.ViewersKept) (order : RangeOrder Bytes) :
    (order.over proxy.viewers.content).filterMap proxy.viewers.content.lookup =
      (proxy.viewersInOrder order).map some := by
  unfold viewersInOrder
  rw [List.map_filterMap]
  refine List.filterMap_congr fun key _ => ?_
  change proxy.viewers.find key = _
  cases found : proxy.viewers.find key with
  | none => rfl
  | some pointer =>
    obtain ⟨viewer, rfl, -, -⟩ := kept key pointer found
    rfl

theorem ViewersKept.owned (kept : proxy.ViewersKept) (order : RangeOrder Bytes)
    (member : viewer ∈ proxy.viewersInOrder order) : viewer.user ≠ none := by
  obtain ⟨key, found⟩ := mem_viewersInOrder.mp member
  obtain ⟨other, same, -, owned⟩ := kept key _ found
  obtain rfl := Option.some.inj same
  exact owned

end ProxyContext

namespace ProxyController
variable {controller : ProxyController} {proxyID : UInt64} {order : RangeOrder Bytes}
  {proxy : ProxyContext} {selector : ViewerSelector}

def ViewersKept (controller : ProxyController) : Prop :=
  ∀ proxyID proxy, controller.proxies.find proxyID = some (some proxy) → proxy.ViewersKept

/-- A viewer of the proxy of that ID that the selector is for. -/
def Matching (controller : ProxyController) (proxyID : UInt64) (selector : ViewerSelector)
    (viewer : ProxySessionViewer) : Prop :=
  ∃ proxy key, controller.proxies.find proxyID = some (some proxy) ∧
    proxy.viewers.find key = some (some viewer) ∧ selector.selects viewer

/-- The test that a lookup makes of each viewer of the proxy. -/
def viewerTest : ViewerSelector → ProxySessionViewer → Except Panic Bool
  | .viewerSecret secret, viewer => return viewer.secret == secret
  | .sessionKey key, viewer => hasSessionKey key viewer
  | .username name, viewer => hasUsername name viewer

theorem viewerTest_eq (selector : ViewerSelector) {viewer : ProxySessionViewer}
    (owned : viewer.user ≠ none) :
    viewerTest selector viewer = .ok (selector.selects viewer) := by
  cases selector with
  | viewerSecret secret => rfl
  | sessionKey key => exact congrArg Except.ok Bool.beq_comm
  | username name =>
    obtain ⟨user, stored⟩ := Option.ne_none_iff_exists'.mp owned
    simp only [viewerTest, hasUsername, stored, deref_some, ViewerSelector.selects, Option.any_some]
    exact congrArg Except.ok Bool.beq_comm

theorem firstViewer_eq {test : ProxySessionViewer → Except Panic Bool}
    {passes : ProxySessionViewer → Bool} {viewers : List ProxySessionViewer}
    (tested : ∀ viewer ∈ viewers, test viewer = .ok (passes viewer)) :
    firstViewer test (viewers.map some) = .ok (viewers.find? passes) := by
  induction viewers with
  | nil => rfl
  | cons viewer rest ih =>
    have later := ih fun other member => tested other (List.mem_cons_of_mem _ member)
    simp only [List.map_cons, firstViewer, deref_some, bind, Except.bind,
      tested viewer List.mem_cons_self]
    cases passed : passes viewer with
    | true => rw [List.find?_cons_of_pos passed]; rfl
    | false =>
      rw [List.find?_cons_of_neg (by rw [passed]; decide)]
      exact later

theorem matchingViewers_eq {test : ProxySessionViewer → Except Panic Bool}
    {passes : ProxySessionViewer → Bool} {viewers : List ProxySessionViewer}
    (tested : ∀ viewer ∈ viewers, test viewer = .ok (passes viewer)) :
    matchingViewers test (viewers.map some) = .ok (viewers.filter passes) := by
  induction viewers with
  | nil => rfl
  | cons viewer rest ih =>
    have later := ih fun other member => tested other (List.mem_cons_of_mem _ member)
    simp only [List.map_cons, matchingViewers, deref_some, bind, Except.bind,
      tested viewer List.mem_cons_self, later]
    cases passed : passes viewer with
    | true => rw [List.filter_cons_of_pos passed]; rfl
    | false => rw [List.filter_cons_of_neg (by rw [passed]; decide)]; rfl

theorem getProxyViewers_missing (missing : controller.proxies.find proxyID = none)
    (order : RangeOrder Bytes) :
    controller.getProxyViewers proxyID order =
      .ok (controller, .error (cannotFindProxy proxyID)) := by
  simp only [getProxyViewers, getProxy, missing]
  rfl

theorem getProxyViewers_nil (absent : controller.proxies.find proxyID = some none)
    (order : RangeOrder Bytes) :
    controller.getProxyViewers proxyID order = .error .nilPointer := by
  simp only [getProxyViewers, getProxy, absent]
  rfl

theorem getProxyViewers_found (found : controller.proxies.find proxyID = some (some proxy))
    (kept : proxy.ViewersKept) : controller.getProxyViewers proxyID order =
      .ok (controller, .ok ((proxy.viewersInOrder order).map some)) := by
  simp only [getProxyViewers, getProxy, found, deref_some, bind, Except.bind,
    ProxyContext.removeExpiredSessions_eq, updateProxy_same found, kept.listed]
  rfl

theorem getProxyViewer_found (found : controller.proxies.find proxyID = some (some proxy))
    (kept : proxy.ViewersKept) (order : RangeOrder Bytes) (selector : ViewerSelector) :
    getProxyViewer (viewerTest selector) controller proxyID order =
      .ok (controller, .ok ((proxy.viewersInOrder order).find? selector.selects)) := by
  have first := firstViewer_eq fun viewer member =>
    viewerTest_eq selector (kept.owned order member)
  simp only [getProxyViewer, getProxyViewers_found found kept, bind, Except.bind, first]
  rfl

theorem getMatchingViewers_found (found : controller.proxies.find proxyID = some (some proxy))
    (kept : proxy.ViewersKept) :
    getMatchingViewers (viewerTest selector) controller proxyID order =
      .ok (controller, .ok ((proxy.viewersInOrder order).filter selector.selects)) := by
  have chosen := matchingViewers_eq fun viewer member =>
    viewerTest_eq selector (kept.owned order member)
  simp only [getMatchingViewers, getProxyViewers_found found kept, bind, Except.bind, chosen]
  rfl

theorem getProxyViewerByViewerKey_found {secret : Bytes}
    (found : controller.proxies.find proxyID = some (some proxy)) :
    controller.getProxyViewerByViewerKey proxyID secret =
      .ok (controller, match proxy.viewers.find secret with
        | some (some viewer) => .ok viewer
        | _ => .error couldNotFindViewer) := by
  simp only [getProxyViewerByViewerKey, getProxy, found, deref_some, bind, Except.bind,
    ProxyContext.getSessionViewer]
  cases stored : proxy.viewers.find secret with
  | none => simp only [updateProxy_same found]; rfl
  | some pointer =>
    cases pointer with
    | none => simp only [updateProxy_same found]; rfl
    | some viewer =>
      simp only [ProxySessionViewer.isExpired, Bool.false_eq_true, if_false, updateProxy_same found]
      rfl

/-- The lookup of one viewer that goes with a selector. -/
def lookupViewer (controller : ProxyController) (proxyID : UInt64) (order : RangeOrder Bytes) :
    ViewerSelector → Except Panic (ProxyController × Except Bytes (Option ProxySessionViewer))
  | .viewerSecret secret => do
      let (controller, result) ← controller.getProxyViewerByViewerKey proxyID secret
      return (controller, result.map some)
  | .sessionKey key => controller.getProxyViewerBySessionKey proxyID key order
  | .username name => controller.getProxyViewerByUsername proxyID name order

/-- A matching viewer and no error where there is one, an error otherwise. -/
structure Found (controller : ProxyController) (proxyID : UInt64) (selector : ViewerSelector)
    (result : Except Bytes (Option ProxySessionViewer)) : Prop where
  present : (∃ viewer, controller.Matching proxyID selector viewer) →
    ∃ viewer, result = .ok (some viewer) ∧ controller.Matching proxyID selector viewer
  absent : (¬ ∃ viewer, controller.Matching proxyID selector viewer) → ∃ err, result = .error err

/-- Exactly the matching viewers, each once. A lookup that reports an error lists none. -/
structure Listed (controller : ProxyController) (proxyID : UInt64) (selector : ViewerSelector)
    (result : Except Bytes (List ProxySessionViewer)) : Prop where
  nodup : (result.toOption.getD []).Nodup
  exactly : ∀ viewer, viewer ∈ result.toOption.getD [] ↔
    controller.Matching proxyID selector viewer

/-- There is no such proxy, or a viewer matches, or viewers are looked up by secret. -/
def Answerable (controller : ProxyController) (proxyID : UInt64) (selector : ViewerSelector) : Prop :=
  controller.proxies.find proxyID = none ∨
    (∃ viewer, controller.Matching proxyID selector viewer) ∨
    (∃ proxy, controller.proxies.find proxyID = some (some proxy)) ∧
      ∃ secret, selector = .viewerSecret secret

theorem matching_iff (found : controller.proxies.find proxyID = some (some proxy))
    (order : RangeOrder Bytes) {viewer : ProxySessionViewer} :
    controller.Matching proxyID selector viewer ↔
      viewer ∈ proxy.viewersInOrder order ∧ selector.selects viewer := by
  rw [ProxyContext.mem_viewersInOrder]
  constructor
  · rintro ⟨other, key, here, stored, selected⟩
    obtain rfl := MapVar.find_unique found here
    exact ⟨⟨key, stored⟩, selected⟩
  · rintro ⟨⟨key, stored⟩, selected⟩
    exact ⟨proxy, key, found, stored, selected⟩

theorem no_matching (absent : ∀ proxy, controller.proxies.find proxyID ≠ some (some proxy))
    {viewer : ProxySessionViewer} : ¬ controller.Matching proxyID selector viewer :=
  fun ⟨proxy, _, found, _⟩ => absent proxy found

/-- The proxy's viewers are listed in the order of the loop over them. -/
theorem listed_filter (found : controller.proxies.find proxyID = some (some proxy))
    (kept : proxy.ViewersKept) :
    Listed controller proxyID selector
      (.ok ((proxy.viewersInOrder order).filter selector.selects)) where
  nodup := (kept.nodup order).filter _
  exactly _ := List.mem_filter.trans (matching_iff found order).symm

theorem listed_missing (missing : controller.proxies.find proxyID = none) (err : Bytes) :
    Listed controller proxyID selector (.error err) where
  nodup := List.nodup_nil
  exactly _ := iff_of_false List.not_mem_nil
    (no_matching fun proxy found => by rw [missing] at found; contradiction)

theorem listed_of_missing (missing : controller.proxies.find proxyID = none) :
    Returns (getMatchingViewers (viewerTest selector) controller proxyID order) fun result =>
      Listed controller proxyID selector result.2 := by
  refine ⟨(controller, .error (cannotFindProxy proxyID)), ?_, listed_missing missing _⟩
  simp only [getMatchingViewers, getProxyViewers_missing missing order, bind, Except.bind]
  rfl

/-- Whether a lookup by session key or username is right: it reports no absence of its own. -/
theorem found_find_iff (found : controller.proxies.find proxyID = some (some proxy)) :
    Found controller proxyID selector
        (.ok ((proxy.viewersInOrder order).find? selector.selects)) ↔
      ∃ viewer, controller.Matching proxyID selector viewer := by
  constructor
  · intro right
    by_contra nobody
    obtain ⟨err, reported⟩ := right.absent nobody
    contradiction
  · intro somebody
    refine ⟨fun _ => ?_, fun nobody => absurd somebody nobody⟩
    obtain ⟨viewer, matching⟩ := somebody
    obtain ⟨member, selected⟩ := (matching_iff found order).mp matching
    cases first : (proxy.viewersInOrder order).find? selector.selects with
    | none => exact absurd selected (List.find?_eq_none.mp first viewer member)
    | some other =>
      exact ⟨other, rfl, (matching_iff found order).mpr
        ⟨List.mem_of_find?_eq_some first, List.find?_some first⟩⟩

/-- Looking a viewer up by its secret is right. -/
theorem found_viewerSecret (found : controller.proxies.find proxyID = some (some proxy))
    (kept : proxy.ViewersKept) (secret : Bytes) :
    Found controller proxyID (.viewerSecret secret)
      ((match proxy.viewers.find secret with
        | some (some viewer) => .ok viewer
        | _ => .error couldNotFindViewer : Except Bytes ProxySessionViewer).map some) := by
  have here : ∀ viewer, controller.Matching proxyID (.viewerSecret secret) viewer →
      proxy.viewers.find secret = some (some viewer) := by
    rintro viewer ⟨other, key, there, stored, selected⟩
    obtain rfl := MapVar.find_unique found there
    obtain ⟨same, equal, named, -⟩ := kept key _ stored
    obtain rfl := Option.some.inj equal
    obtain rfl : key = secret := named.symm.trans (eq_of_beq selected)
    exact stored
  constructor
  · rintro ⟨viewer, matching⟩
    refine ⟨viewer, ?_, matching⟩
    rw [here viewer matching]
    rfl
  · intro nobody
    cases stored : proxy.viewers.find secret with
    | none => exact ⟨_, rfl⟩
    | some pointer =>
      obtain ⟨viewer, rfl, named, -⟩ := kept secret _ stored
      exact absurd ⟨viewer, proxy, secret, found, stored, beq_iff_eq.mpr named⟩ nobody

theorem lookupViewer_missing (missing : controller.proxies.find proxyID = none) :
    controller.lookupViewer proxyID order selector =
      .ok (controller, .error (cannotFindProxy proxyID)) := by
  have none := getProxyViewers_missing missing order
  cases selector with
  | viewerSecret secret =>
    simp only [lookupViewer, getProxyViewerByViewerKey, getProxy, missing]
    rfl
  | sessionKey key =>
    simp only [lookupViewer, getProxyViewerBySessionKey, getProxyViewer, none, bind, Except.bind]
    rfl
  | username name =>
    simp only [lookupViewer, getProxyViewerByUsername, getProxyViewer, none, bind, Except.bind]
    rfl

theorem lookupViewer_nil (absent : controller.proxies.find proxyID = some none) :
    controller.lookupViewer proxyID order selector = .error .nilPointer := by
  have fails := getProxyViewers_nil absent order
  cases selector with
  | viewerSecret secret =>
    simp only [lookupViewer, getProxyViewerByViewerKey, getProxy, absent]
    rfl
  | sessionKey key =>
    simp only [lookupViewer, getProxyViewerBySessionKey, getProxyViewer, fails, bind, Except.bind]
  | username name =>
    simp only [lookupViewer, getProxyViewerByUsername, getProxyViewer, fails, bind, Except.bind]

/-- Which outcomes of a lookup on a proxy that is there are right. -/
theorem lookupViewer_found (found : controller.proxies.find proxyID = some (some proxy))
    (kept : proxy.ViewersKept) (order : RangeOrder Bytes) (selector : ViewerSelector) : ∃ result,
      controller.lookupViewer proxyID order selector = .ok (controller, result) ∧
        (Found controller proxyID selector result ↔ controller.Answerable proxyID selector) := by
  have there : controller.proxies.find proxyID ≠ none := by rw [found]; exact Option.some_ne_none _
  have searched : (∀ secret, selector ≠ .viewerSecret secret) →
      (Found controller proxyID selector
          (.ok ((proxy.viewersInOrder order).find? selector.selects)) ↔
        controller.Answerable proxyID selector) := by
    intro other
    rw [found_find_iff found]
    constructor
    · exact fun somebody => .inr (.inl somebody)
    · rintro (missing | somebody | ⟨-, secret, same⟩)
      · exact absurd missing there
      · exact somebody
      · exact absurd same (other secret)
  cases selector with
  | viewerSecret secret =>
    refine ⟨_, ?_, iff_of_true (found_viewerSecret found kept secret) (.inr (.inr ?_))⟩
    · simp only [lookupViewer, getProxyViewerByViewerKey_found found, bind, Except.bind]
      rfl
    · exact ⟨⟨proxy, found⟩, secret, rfl⟩
  | sessionKey key =>
    exact ⟨_, getProxyViewer_found found kept order (.sessionKey key),
      searched fun secret same => by contradiction⟩
  | username name =>
    exact ⟨_, getProxyViewer_found found kept order (.username name),
      searched fun secret same => by contradiction⟩

/-- A proxy that is nil panics whoever looks for its viewers. -/
theorem not_answerable_nil (absent : controller.proxies.find proxyID = some none) :
    ¬ controller.Answerable proxyID selector := by
  have nobody : ∀ proxy, controller.proxies.find proxyID ≠ some (some proxy) := by
    intro proxy found
    exact absurd (Option.some.inj (absent.symm.trans found)) (Option.some_ne_none proxy).symm
  rintro (missing | ⟨viewer, matching⟩ | ⟨⟨proxy, found⟩, -⟩)
  · rw [absent] at missing
    contradiction
  · exact no_matching nobody matching
  · exact nobody proxy found

/-- A lookup that comes back leaves the controller as it is, and is right where it can be. -/
theorem lookupViewer_returns (kept : controller.ViewersKept)
    (notNil : controller.proxies.find proxyID ≠ some none) (order : RangeOrder Bytes)
    (selector : ViewerSelector) : ∃ result,
      controller.lookupViewer proxyID order selector = .ok (controller, result) ∧
        (Found controller proxyID selector result ↔ controller.Answerable proxyID selector) := by
  cases stored : controller.proxies.find proxyID with
  | none =>
    refine ⟨_, lookupViewer_missing stored, iff_of_true ?_ (.inl stored)⟩
    refine ⟨fun ⟨viewer, matching⟩ => absurd matching (no_matching ?_), fun _ => ⟨_, rfl⟩⟩
    intro proxy found
    rw [stored] at found
    contradiction
  | some pointer =>
    cases pointer with
    | none => exact absurd stored notNil
    | some proxy => exact lookupViewer_found stored (kept proxyID proxy stored) order selector

theorem lookupViewer_finds_iff (kept : controller.ViewersKept) :
    Returns (controller.lookupViewer proxyID order selector)
        (fun result => Found controller proxyID selector result.2) ↔
      controller.Answerable proxyID selector := by
  by_cases absent : controller.proxies.find proxyID = some none
  · refine iff_of_false (fun ⟨result, looked, _⟩ => ?_) (not_answerable_nil absent)
    rw [lookupViewer_nil absent] at looked
    contradiction
  · obtain ⟨result, looked, right⟩ := lookupViewer_returns kept absent order selector
    rw [← right]
    constructor
    · intro returns
      exact returns.value looked
    · intro finds
      exact ⟨_, looked, finds⟩

/-- The lists of all matching viewers are right wherever they come back. -/
theorem getMatchingViewers_lists (kept : controller.ViewersKept)
    (notNil : controller.proxies.find proxyID ≠ some none) (order : RangeOrder Bytes)
    (selector : ViewerSelector) :
    Returns (getMatchingViewers (viewerTest selector) controller proxyID order) fun result =>
      Listed controller proxyID selector result.2 := by
  cases stored : controller.proxies.find proxyID with
  | none => exact listed_of_missing stored
  | some pointer =>
    cases pointer with
    | none => exact absurd stored notNil
    | some proxy =>
      have keeps := kept proxyID proxy stored
      exact ⟨_, getMatchingViewers_found stored keeps, listed_filter stored keeps⟩

end ProxyController

namespace ControllerMessage
open ProxyController
variable {message : ControllerMessage} {s : ControllerState} {world : World} {reply : Reply}
  {selector : ViewerSelector} {proxyID : UInt64}

/-- What the message chooses a viewer by: the secret, else the session key, else the username. -/
def chosenBy (message : ControllerMessage) : Option ViewerSelector :=
  if message.viewerSecret ≠ [] then some (.viewerSecret message.viewerSecret)
  else if message.sessionKey ≠ [] then some (.sessionKey message.sessionKey)
  else if message.username ≠ [] then some (.username message.username)
  else none

theorem getProxyViewer_selector (chosen : message.chosenBy = some selector) :
    message.getProxyViewer s world reply = do
      let (controller, result) ← s.controller.lookupViewer message.proxyID world.viewerOrder selector
      return replyViewer s reply controller result := by
  unfold ControllerMessage.chosenBy at chosen
  unfold ControllerMessage.getProxyViewer
  split_ifs at chosen ⊢ with secret key name
  · obtain rfl := Option.some.inj chosen
    simp only [lookupViewer, bind_assoc, pure_bind]
  · obtain rfl := Option.some.inj chosen
    rfl
  · obtain rfl := Option.some.inj chosen
    rfl

/-- The reply to the message contains an error exactly when no viewer of the proxy matches. -/
def RepliesRight (message : ControllerMessage) (s : ControllerState) (world : World)
    (selector : ViewerSelector) : Prop :=
  Returns (message.answer s world) fun result =>
    lit "Error" ∈ result.2 ↔ ¬ ∃ viewer, s.controller.Matching message.proxyID selector viewer

theorem answer_getProxyViewer (typed : message.messageType = lit "get-proxy-viewer")
    (chosen : message.chosenBy = some selector) :
    message.answer s world = do
      let (controller, result) ← s.controller.lookupViewer message.proxyID world.viewerOrder selector
      let (s, reply, err) := replyViewer s
        (Reply.put ∅ "MessageType" (.text (message.messageType ++ lit "-reply"))) controller result
      return (s, reply.putError err) := by
  have read : Command.read message.messageType = some .getProxyViewer := by rw [typed]; rfl
  simp only [answer, dispatch, read, getProxyViewer_selector chosen, bind_assoc, pure_bind]

theorem replyViewer_names_error (s : ControllerState) (controller : ProxyController)
    (result : Except Bytes (Option ProxySessionViewer)) (unnamed : lit "Error" ∉ reply) :
    lit "Error" ∈ Reply.putError (replyViewer s reply controller result).2.1
        (replyViewer s reply controller result).2.2 ↔ ∃ err, result = .error err := by
  cases result with
  | ok viewer =>
    refine iff_of_false (put_named _ (by decide) unnamed) ?_
    rintro ⟨err, same⟩
    contradiction
  | error err => exact iff_of_true (Finmap.mem_insert.mpr (.inl rfl)) ⟨err, rfl⟩

theorem messageType_unnamed (value : ReplyValue) : lit "Error" ∉ Reply.put ∅ "MessageType" value :=
  put_named value (by decide) (Finmap.notMem_empty)

/-- A lookup whose errors are right is right, as it finds a viewer wherever there is one. -/
theorem found_iff_reported {controller : ProxyController}
    {result : Except Bytes (Option ProxySessionViewer)}
    (right : Found controller proxyID selector result ↔ controller.Answerable proxyID selector) :
    ((∃ err, result = .error err) ↔ ¬ ∃ viewer, controller.Matching proxyID selector viewer) ↔
      controller.Answerable proxyID selector := by
  constructor
  · intro reported
    by_cases somebody : ∃ viewer, controller.Matching proxyID selector viewer
    · exact .inr (.inl somebody)
    · exact right.mp ⟨fun present => absurd present somebody, fun _ => reported.mpr somebody⟩
  · intro answerable
    have found := right.mpr answerable
    refine ⟨?_, found.absent⟩
    rintro ⟨err, failed⟩ somebody
    obtain ⟨viewer, same, -⟩ := found.present somebody
    rw [failed] at same
    contradiction

theorem repliesRight_iff (kept : s.controller.ViewersKept)
    (typed : message.messageType = lit "get-proxy-viewer")
    (chosen : message.chosenBy = some selector) :
    message.RepliesRight s world selector ↔
      s.controller.Answerable message.proxyID selector := by
  unfold RepliesRight
  rw [answer_getProxyViewer typed chosen]
  by_cases absent : s.controller.proxies.find message.proxyID = some none
  · refine iff_of_false (fun ⟨result, answered, _⟩ => ?_) (not_answerable_nil absent)
    rw [lookupViewer_nil absent] at answered
    contradiction
  · obtain ⟨result, looked, right⟩ :=
      lookupViewer_returns kept absent world.viewerOrder selector
    rw [looked, ← found_iff_reported right, ← replyViewer_names_error s (s.controller) result
      (messageType_unnamed (.text (message.messageType ++ lit "-reply")))]
    constructor
    · intro returns
      exact returns.value rfl
    · intro agrees
      exact ⟨_, rfl, agrees⟩

/-- A message that asks for one viewer of the proxy by the selector. -/
structure Asks (message : ControllerMessage) (proxyID : UInt64) (selector : ViewerSelector) :
    Prop where
  typed : message.messageType = lit "get-proxy-viewer"
  addressed : message.proxyID = proxyID
  chosen : message.chosenBy = some selector

end ControllerMessage

/-- The lookups by a selector agree with one another and with the reply to a message. -/
structure ViewerLookupsAgree (s : ControllerState) (world : World) (proxyID : UInt64)
    (selector : ViewerSelector) : Prop where
  bySessionKey : ∀ key, selector = .sessionKey key →
    Returns (s.controller.getProxyViewersBySessionKey proxyID key world.viewerOrder) fun result =>
      ProxyController.Listed s.controller proxyID selector result.2
  byUsername : ∀ name, selector = .username name →
    Returns (s.controller.getProxyViewersByUsername proxyID name world.viewerOrder) fun result =>
      ProxyController.Listed s.controller proxyID selector result.2
  one : Returns (s.controller.lookupViewer proxyID world.viewerOrder selector) fun result =>
    ProxyController.Found s.controller proxyID selector result.2
  replies : ∀ message : ControllerMessage, message.Asks proxyID selector →
    message.RepliesRight s world selector

/-- The lookups agree, and the reply alone is right, exactly where there is no such proxy, a
viewer matches or the selector is a secret: for session keys and usernames nothing reports that
no viewer matches. -/
theorem viewer_lookups_agree_iff (s : ControllerState) (kept : s.controller.ViewersKept)
    (world : World) (proxyID : UInt64) (selector : ViewerSelector) :
    (ViewerLookupsAgree s world proxyID selector ↔
        s.controller.Answerable proxyID selector) ∧
      ∀ message : ControllerMessage, message.Asks proxyID selector →
        (message.RepliesRight s world selector ↔ s.controller.Answerable proxyID selector) := by
  have replies : ∀ message : ControllerMessage, message.Asks proxyID selector →
      (message.RepliesRight s world selector ↔ s.controller.Answerable proxyID selector) := by
    rintro message ⟨typed, rfl, chosen⟩
    exact message.repliesRight_iff kept typed chosen
  refine ⟨⟨fun agree => ?_, fun answerable => ?_⟩, replies⟩
  · exact (ProxyController.lookupViewer_finds_iff kept).mp agree.one
  · have notNil : s.controller.proxies.find proxyID ≠ some none := fun absent =>
      ProxyController.not_answerable_nil absent answerable
    have lists := ProxyController.getMatchingViewers_lists kept notNil world.viewerOrder selector
    constructor
    · rintro key rfl
      exact lists
    · rintro name rfl
      exact lists
    · exact (ProxyController.lookupViewer_finds_iff kept).mpr answerable
    · exact fun message asks => (replies message asks).mpr answerable

/-- A viewer of one session, stored under its secret. -/
def keyedViewer : ProxySessionViewer :=
  { secret := lit "s", user := some { username := lit "a" }, sessionKey := lit "k" }

def viewedController : ProxyController :=
  { onePlainProxy with
    proxies := some ((∅ : GoMap UInt64 (Option ProxyContext)).insert 0 (some { plainProxy with
      viewers := some ((∅ : GoMap Bytes (Option ProxySessionViewer)).insert (lit "s")
        (some keyedViewer)) })) }

theorem viewedController_kept : viewedController.ViewersKept := by
  intro proxyID proxy found key pointer stored
  simp only [viewedController, MapVar.find_some, lookup_insert_if, Finmap.lookup_empty] at found
  split at found
  · obtain rfl := Option.some.inj (Option.some.inj found)
    simp only [MapVar.find_some, lookup_insert_if, Finmap.lookup_empty] at stored
    split at stored
    · next here => exact ⟨keyedViewer, (Option.some.inj stored).symm, here.symm, by decide⟩
    · contradiction
  · contradiction

theorem viewer_lookups_agree_keyedViewer :
    ViewerLookupsAgree { controller := viewedController } sortedWorld 0 (.sessionKey (lit "k")) := by
  have matching : viewedController.Matching 0 (.sessionKey (lit "k")) keyedViewer :=
    ⟨_, lit "s", Finmap.lookup_insert _, Finmap.lookup_insert _, by decide⟩
  exact (viewer_lookups_agree_iff _ viewedController_kept sortedWorld 0 _).1.mpr
    (.inr (.inl ⟨keyedViewer, matching⟩))

/-- A session key that no viewer is for: the lookup gives a nil viewer and no error. -/
theorem absent_session_key_unreported :
    ¬ ∀ (s : ControllerState), s.controller.ViewersKept → ∀ (world : World) (proxyID : UInt64)
      (key : Bytes), key ≠ [] → ViewerLookupsAgree s world proxyID (.sessionKey key) := by
  intro agree
  have right := (agree { controller := viewedController } viewedController_kept sortedWorld 0
    (lit "j") (by decide)).one
  rcases (ProxyController.lookupViewer_finds_iff viewedController_kept).mp right with
    missing | ⟨viewer, proxy, key, found, stored, selected⟩ | ⟨-, secret, same⟩
  · contradiction
  · simp only [viewedController, MapVar.find_some, Finmap.lookup_insert] at found
    obtain rfl := Option.some.inj (Option.some.inj found)
    simp only [MapVar.find_some, lookup_insert_if, Finmap.lookup_empty] at stored
    split at stored
    · obtain rfl := Option.some.inj (Option.some.inj stored)
      exact absurd selected (by decide)
    · contradiction
  · contradiction

end SSHProxyPlus
