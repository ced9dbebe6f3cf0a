import SSHProxyPlus.Web.SocketHandler

/-! What a websocket client can learn about the sessions of a proxy whose lists are not
public. -/
namespace SSHProxyPlus
open Go Transition

instance : Nonempty Observation := ⟨{}⟩

/-- A viewer without a user, or without its proxy, makes the handler panic. -/
def ProxySessionViewer.CanShow (viewer : ProxySessionViewer) : Prop :=
  viewer.user ≠ none ∧ viewer.linked = true

/-- The sessions that a viewer may play, by their keys. -/
def ProxySessionViewer.Covers (viewer : ProxySessionViewer) (sessionKey : Bytes) : Prop :=
  viewer.typeIsSingle = true → sessionKey = viewer.sessionKey

namespace ProxyContext
variable (proxy : ProxyContext)

/-- The rest of the client's messages name a session to `get`, or a viewer that the proxy
knows (and to `viewer-get` a session the viewer may play). -/
def Reveals : Awaiting → List Bytes → Prop
  | _, [] => False
  | .command, message :: rest =>
      if message = lit "viewer-get" then Reveals (.viewerKey true) rest
      else if message = lit "viewer-list" then Reveals (.viewerKey false) rest
      else if message = lit "get" then Reveals .activeSession rest
      else Reveals .command rest
  | .viewerKey get, viewerKey :: rest =>
      match (proxy.getSessionViewer viewerKey).2 with
      | none => Reveals .command rest
      | some viewer => if get then Reveals (.viewerSession viewer) rest else viewer.CanShow
  | .viewerSession viewer, sessionKey :: rest =>
      viewer.CanShow ∧ (viewer.Covers sessionKey ∨ Reveals .command rest)
  | .activeSession, _ :: _ => True

theorem react_reading (seen : Observation) (awaiting : Awaiting) (message : Bytes)
    (rest : List Bytes) :
    proxy.socketHandler.react (.reading awaiting, message :: rest) seen =
      (((proxy.receive seen message awaiting).1, rest), (proxy.receive seen message awaiting).2) :=
  rfl

/-- A message whose handling does not look at the sessions. -/
theorem blind_receive (awaiting : Awaiting) {message : Bytes} {next : HandlerStep}
    {out : List SocketReply} (same : ∀ seen, proxy.receive seen message awaiting = (next, out))
    (rest : List Bytes) :
    proxy.socketHandler.Blind (.reading awaiting, message :: rest) ↔
      proxy.socketHandler.Blind (next, rest) := by
  have reacts (seen : Observation) :
      proxy.socketHandler.react (.reading awaiting, message :: rest) seen = ((next, rest), out) := by
    rw [react_reading, same]
  exact Reactive.blind_step reacts

theorem not_blind_receive (awaiting : Awaiting) {message : Bytes} {seen seen' : Observation}
    (differ : (proxy.receive seen message awaiting).2 ≠ (proxy.receive seen' message awaiting).2)
    (rest : List Bytes) : ¬ proxy.socketHandler.Blind (.reading awaiting, message :: rest) :=
  Reactive.not_blind seen seen' differ

theorem blind_silent (awaiting : Awaiting) :
    proxy.socketHandler.Blind (.reading awaiting, []) :=
  Reactive.blind_halted fun _ => rfl

theorem blind_closed (rest : List Bytes) : proxy.socketHandler.Blind (.closed, rest) :=
  Reactive.blind_halted fun _ => rfl

/-- A list of no sessions reads differently from one of some. -/
theorem sessionInfoReply_apart {infos : List SessionInfo} (some : infos ≠ []) :
    sessionInfoReply [] ≠ sessionInfoReply infos := by
  intro same
  have bytes := SocketReply.text.inj same
  have texts := congrArg (fun data => parse (runes data)) bytes
  simp only [Codec.marshal, marshalText, runes_utf8, parse_render, Option.some.injEq] at texts
  have elements := Json.arr.inj texts
  exact some (List.map_eq_nil_iff.mp elements.symm)

theorem getSessions_hidden {viewer : ProxySessionViewer} (hidden : ¬ viewer.CanShow)
    (seen : Observation) :
    viewer.getSessions (proxy.withSessions seen) seen.heap seen.order = .error .nilPointer := by
  unfold ProxySessionViewer.getSessions
  cases owner : viewer.user with
  | none => rfl
  | some user =>
    cases linked : viewer.linked with
    | false => rfl
    | true => exact absurd ⟨by rw [owner]; exact Option.some_ne_none user, linked⟩ hidden

theorem getSessions_shown {viewer : ProxySessionViewer} {user : ProxyUser}
    (owner : viewer.user = some user) (linked : viewer.linked = true) (seen : Observation) :
    viewer.getSessions (proxy.withSessions seen) seen.heap seen.order =
      match seen.userSessions.find user.getKey with
      | some sessions =>
          if viewer.typeIsSingle then
            match sessions.lookup viewer.sessionKey with
            | some session =>
                .ok ((∅ : GoMap Bytes SessionRef).insert viewer.sessionKey session,
                  [viewer.sessionKey])
            | none => .ok (∅, [])
          else .ok (sessions,
            (proxy.withSessions seen).listAllUserSessions seen.heap user.getKey seen.order)
      | none => .ok (∅, []) := by
  unfold ProxySessionViewer.getSessions
  rw [owner, linked]
  rfl

/-- One session, filed under a user's key. -/
def oneSession (user : ProxyUser) (sessionKey : Bytes) : Observation where
  userSessions := some ((∅ : GoMap Bytes _).insert user.getKey
    ((∅ : GoMap Bytes SessionRef).insert sessionKey 0))
  heap := [{}]

theorem find_oneSession (user : ProxyUser) (sessionKey : Bytes) :
    (oneSession user sessionKey).userSessions.find user.getKey =
      some ((∅ : GoMap Bytes SessionRef).insert sessionKey 0) :=
  Finmap.lookup_insert _

/-- A viewer that covers a session plays it; where there is none it says so. -/
theorem get_tells {viewer : ProxySessionViewer} (shows : viewer.CanShow) {sessionKey : Bytes}
    (covers : viewer.Covers sessionKey) :
    ∃ seen, (proxy.sessionViewerSocketGet {} viewer sessionKey).2 ≠
      (proxy.sessionViewerSocketGet seen viewer sessionKey).2 := by
  obtain ⟨owned, linked⟩ := shows
  obtain ⟨user, owner⟩ := Option.ne_none_iff_exists'.mp owned
  refine ⟨oneSession user sessionKey, ?_⟩
  have none : (proxy.sessionViewerSocketGet {} viewer sessionKey).2 = [.text couldNotFindSession] := by
    rw [sessionViewerSocketGet, proxy.getSessions_shown owner linked]
    rfl
  have plays : (proxy.sessionViewerSocketGet (oneSession user sessionKey) viewer sessionKey).2 =
      [] := by
    rw [sessionViewerSocketGet, proxy.getSessions_shown owner linked, find_oneSession]
    cases single : viewer.typeIsSingle with
    | true =>
      cases covers single
      simp only [if_true, Finmap.lookup_insert]
      rfl
    | false =>
      simp only [Bool.false_eq_true, if_false, Finmap.lookup_insert]
      rfl
  rw [none, plays]
  exact List.cons_ne_nil _ _

/-- A viewer of one session never finds another. -/
theorem get_uncovered {viewer : ProxySessionViewer} (shows : viewer.CanShow) {sessionKey : Bytes}
    (outside : ¬ viewer.Covers sessionKey) (seen : Observation) :
    proxy.sessionViewerSocketGet seen viewer sessionKey =
      (.reading .command, [.text couldNotFindSession]) := by
  obtain ⟨owned, linked⟩ := shows
  obtain ⟨user, owner⟩ := Option.ne_none_iff_exists'.mp owned
  obtain ⟨single, other⟩ := Classical.not_imp.mp outside
  rw [sessionViewerSocketGet, proxy.getSessions_shown owner linked]
  cases seen.userSessions.find user.getKey with
  | none => rfl
  | some sessions =>
    simp only [single, if_true]
    cases sessions.lookup viewer.sessionKey with
    | none => rfl
    | some session =>
      simp only [Finmap.lookup_insert_of_ne _ other]
      rfl

theorem getSessions_oneSession {viewer : ProxySessionViewer} {user : ProxyUser}
    (owner : viewer.user = some user) (linked : viewer.linked = true) :
    ∃ sessions keys, viewer.getSessions (proxy.withSessions (oneSession user viewer.sessionKey))
      (oneSession user viewer.sessionKey).heap (oneSession user viewer.sessionKey).order =
        .ok (sessions, keys) ∧ keys ≠ [] := by
  rw [proxy.getSessions_shown owner linked, find_oneSession]
  cases single : viewer.typeIsSingle with
  | true =>
    simp only [if_true, Finmap.lookup_insert]
    exact ⟨_, _, rfl, List.cons_ne_nil _ _⟩
  | false =>
    simp only [Bool.false_eq_true, if_false]
    refine ⟨_, _, rfl, List.ne_nil_of_mem (a := viewer.sessionKey) ?_⟩
    have filed : (proxy.withSessions (oneSession user viewer.sessionKey)).sessionsOf user.getKey =
        (∅ : GoMap Bytes SessionRef).insert viewer.sessionKey 0 := by
      rw [sessionsOf]
      exact congrArg (fun found => found.getD ∅) (find_oneSession user viewer.sessionKey)
    rw [listAllUserSessions, filed, makeListOfSessionKeys, List.mem_filter, RangeOrder.mem_over,
      Finmap.lookup_insert]
    exact ⟨Finmap.mem_insert.mpr (Or.inl rfl), Bool.or_true _⟩

theorem activeSession_tells (sessionKey : Bytes) :
    ∃ seen, (proxy.getActiveSession {} sessionKey).2 ≠
      (proxy.getActiveSession seen sessionKey).2 := by
  have none : (proxy.getActiveSession {} sessionKey).2 = [.text couldNotFindSession] := rfl
  let seen : Observation :=
    { allSessions := some ((∅ : GoMap Bytes SessionRef).insert sessionKey 0), heap := [{}] }
  have found : (proxy.withSessions seen).allSessions.find sessionKey = some 0 :=
    Finmap.lookup_insert _
  refine ⟨seen, ?_⟩
  rw [none, getActiveSession, found]
  exact List.cons_ne_nil _ _

theorem list_tells {viewer : ProxySessionViewer} (shows : viewer.CanShow) :
    ∃ seen, (proxy.sessionViewerSocketList {} viewer).2 ≠
      (proxy.sessionViewerSocketList seen viewer).2 := by
  obtain ⟨owned, linked⟩ := shows
  obtain ⟨user, owner⟩ := Option.ne_none_iff_exists'.mp owned
  refine ⟨oneSession user viewer.sessionKey, ?_⟩
  have none : proxy.getUserSessionInfo {} viewer = .ok [] := by
    rw [getUserSessionInfo, proxy.getSessions_shown owner linked, owner]
    rfl
  rw [sessionViewerSocketList, none, sessionViewerSocketList]
  cases listed : proxy.getUserSessionInfo (oneSession user viewer.sessionKey) viewer with
  | error panic => exact List.cons_ne_nil _ _
  | ok infos =>
    have shown : infos ≠ [] := by
      obtain ⟨sessions, keys, filed, some⟩ := proxy.getSessions_oneSession owner linked
      rw [getUserSessionInfo, filed, owner] at listed
      have lengths := buildWebSessionInfoList_length listed
      rintro rfl
      exact some (List.eq_nil_of_length_eq_zero lengths.symm)
    intro same
    exact sessionInfoReply_apart shown (List.cons.inj same).1

theorem blind_iff (closed : proxy.publicAccess = false) (awaiting : Awaiting)
    (messages : List Bytes) :
    proxy.socketHandler.Blind (.reading awaiting, messages) ↔ ¬ proxy.Reveals awaiting messages := by
  induction messages generalizing awaiting with
  | nil => exact iff_of_true (proxy.blind_silent awaiting) (by rw [Reveals]; exact id)
  | cons message rest ih =>
    cases awaiting with
    | command =>
      rw [Reveals]
      have moves {next : Awaiting} {out : List SocketReply}
          (same : ∀ seen, proxy.socketCommand seen message = (.reading next, out)) :
          proxy.socketHandler.Blind (.reading .command, message :: rest) ↔
            ¬ proxy.Reveals next rest :=
        (proxy.blind_receive .command same rest).trans (ih next)
      have refused (seen : Observation) (activeOnly : Bool) :
          proxy.answerList seen activeOnly = (.reading .command, [.text publicQueryDisabled]) := by
        rw [answerList, closed]
        rfl
      split_ifs with viewerGet viewerList get
      · exact moves fun seen => by rw [viewerGet]; rfl
      · exact moves fun seen => by rw [viewerList]; rfl
      · exact moves fun seen => by rw [get]; rfl
      · unfold socketCommand at moves
        by_cases listActive : message = lit "list-active"
        · exact moves fun seen => by rw [if_pos listActive, refused]
        by_cases listAll : message = lit "list-all"
        · exact moves fun seen => by rw [if_neg listActive, if_pos listAll, refused]
        · exact moves fun seen => by
            rw [if_neg listActive, if_neg listAll, if_neg viewerGet, if_neg viewerList, if_neg get]
    | viewerKey get =>
      rw [Reveals]
      cases found : (proxy.getSessionViewer message).2 with
      | none =>
        rw [← ih]
        exact proxy.blind_receive _ (fun seen => by rw [receive, found]) rest
      | some viewer =>
        cases get with
        | true =>
          simp only [if_true]
          rw [← ih]
          exact proxy.blind_receive _ (fun seen => by rw [receive, found]; rfl) rest
        | false =>
          have handled (seen : Observation) : proxy.receive seen message (.viewerKey false) =
              proxy.sessionViewerSocketList seen viewer := by
            rw [receive, found]
            rfl
          simp only [Bool.false_eq_true, if_false]
          by_cases shows : viewer.CanShow
          · obtain ⟨seen, differ⟩ := proxy.list_tells shows
            rw [← handled, ← handled] at differ
            exact iff_of_false (proxy.not_blind_receive _ differ rest) (not_not.mpr shows)
          · refine iff_of_true ?_ shows
            have panics (seen : Observation) :
                proxy.receive seen message (.viewerKey false) = (.closed, []) := by
              rw [handled, sessionViewerSocketList, getUserSessionInfo,
                proxy.getSessions_hidden shows]
              rfl
            exact (proxy.blind_receive _ panics rest).mpr (proxy.blind_closed rest)
    | viewerSession viewer =>
      rw [Reveals]
      by_cases shows : viewer.CanShow
      · by_cases covers : viewer.Covers message
        · obtain ⟨seen, differ⟩ := proxy.get_tells shows covers
          exact iff_of_false (proxy.not_blind_receive (.viewerSession viewer) differ rest)
            (not_not.mpr ⟨shows, Or.inl covers⟩)
        · simp only [shows, covers, true_and, false_or]
          rw [← ih]
          exact proxy.blind_receive (.viewerSession viewer)
            (fun seen => proxy.get_uncovered shows covers seen) rest
      · refine iff_of_true ?_ fun reveals => shows reveals.1
        have panics (seen : Observation) :
            proxy.receive seen message (.viewerSession viewer) = (.closed, []) := by
          rw [receive, sessionViewerSocketGet, proxy.getSessions_hidden shows]
        exact (proxy.blind_receive _ panics rest).mpr (proxy.blind_closed rest)
    | activeSession =>
      refine iff_of_false ?_ (by rw [Reveals]; exact not_not.mpr trivial)
      obtain ⟨seen, differ⟩ := proxy.activeSession_tells message
      exact proxy.not_blind_receive .activeSession differ rest

/-- The secrets that `message` would have to match. -/
def IsSecret (message : Bytes) : Prop :=
  ∃ key viewer, proxy.viewers.find key = some (some viewer) ∧ viewer.secret = message

/-- The messages of the client, if none of them is a viewer's secret, are answered alike
whatever the sessions of the proxy are and become. -/
def Confidential (messages : List Bytes) : Prop :=
  (∀ message ∈ messages, ¬ proxy.IsSecret message) →
    proxy.socketHandler.Blind (.reading .command, messages)

/-- A client that knows no secret learns nothing exactly if it completes no `get`, and names
no viewer that is stored under another key than its secret. -/
theorem confidential_iff (closed : proxy.publicAccess = false) (messages : List Bytes) :
    proxy.Confidential messages ↔
      ((∀ message ∈ messages, ¬ proxy.IsSecret message) → ¬ proxy.Reveals .command messages) := by
  unfold Confidential
  rw [proxy.blind_iff closed]

/-- A new proxy whose lists are not public. -/
def closedProxy : ProxyContext := { makeNewProxy none with publicAccess := false }

theorem closedProxy_secretless (message : Bytes) : ¬ closedProxy.IsSecret message := by
  rintro ⟨key, viewer, found, -⟩
  exact Option.some_ne_none _ (found.symm.trans (Finmap.lookup_empty key))

/-- Lists and a wrong viewer key are answered alike. -/
theorem confidential_iff_refused :
    closedProxy.Confidential [lit "list-all", lit "viewer-list", lit "guess"] := by
  refine (closedProxy.confidential_iff rfl _).mpr ?_
  intro _ reveals
  exact reveals

/-- `get` asks for no secret. -/
theorem get_reveals_session : ¬ closedProxy.Confidential [lit "get", lit "127.0.0.1:50000"] := by
  intro confidential
  have blind := confidential fun message _ => closedProxy_secretless message
  exact (closedProxy.blind_iff rfl _ _).mp blind trivial

end ProxyContext
end SSHProxyPlus
