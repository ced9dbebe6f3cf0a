import SSHProxyPlus.Web.Confidentiality

/-! What a viewer that was handed out gets from the web server: the list of the sessions that it
covers, and any of them to play. -/
namespace SSHProxyPlus
open Go Transition

namespace ProxySessionViewer
variable (viewer : ProxySessionViewer)

/-- The session that the viewer's user has under the key, where the viewer covers it. -/
def Sees (seen : Observation) (sessionKey : Bytes) (ref : SessionRef) : Prop :=
  ∃ user sessions, viewer.user = some user ∧ seen.userSessions.find user.getKey = some sessions ∧
    sessions.lookup sessionKey = some ref ∧ viewer.Covers sessionKey

/-- The viewer is one that the proxy made, and it is still registered. -/
structure Issued (proxy : ProxyContext) : Prop where
  shows : viewer.CanShow
  secret : ∃ draw, generateRandomString sessionViewerSecretLen draw = some viewer.secret
  stored : proxy.viewers.find viewer.secret = some (some viewer)

variable {viewer} {proxy next : ProxyContext} {seen : Observation} {draw : RandomSource}

theorem issued_addSessionViewer {viewerType : Int64} {user : ProxyUser}
    (created : createNewSessionViewer viewerType user draw = .ok viewer) (sessionKey : Bytes)
    (added : proxy.addSessionViewer { viewer with sessionKey } = .ok next) :
    ProxySessionViewer.Issued { viewer with sessionKey } next := by
  obtain ⟨secret, random, rfl⟩ := createNewSessionViewer_ok created
  obtain ⟨entries, -, rfl⟩ := ProxyContext.addSessionViewer_ok added
  exact ⟨⟨Option.some_ne_none _, rfl⟩, ⟨draw, random⟩, Finmap.lookup_insert _⟩

/-- Both kinds of viewers are made so: for a user, and for one session of theirs. -/
theorem issued_made {username password : Bytes}
    (made : proxy.makeSessionViewerForUser username password draw = .ok (next, .ok viewer) ∨
      ∃ session, proxy.makeSessionViewerForSession username password session draw =
        .ok (next, .ok viewer)) : viewer.Issued next := by
  rcases made with made | ⟨session, made⟩
  · obtain ⟨found, looked, made⟩ := of_bind_ok made
    split at made
    · next user blank =>
      obtain ⟨fresh, created, made⟩ := of_bind_ok made
      obtain ⟨added, stored, made⟩ := of_bind_ok made
      obtain ⟨rfl, same⟩ := Prod.mk.inj (Except.ok.inj made)
      obtain rfl := Except.ok.inj same
      obtain ⟨secret, random, rfl⟩ := createNewSessionViewer_ok created
      exact issued_addSessionViewer created [] stored
    · exact absurd (Prod.mk.inj (Except.ok.inj made)).2 (by simp)
    · exact absurd (Prod.mk.inj (Except.ok.inj made)).2 (by simp)
  · obtain ⟨found, looked, made⟩ := of_bind_ok made
    split at made
    · next user blank =>
      obtain ⟨fresh, created, made⟩ := of_bind_ok made
      obtain ⟨added, stored, made⟩ := of_bind_ok made
      obtain ⟨rfl, same⟩ := Prod.mk.inj (Except.ok.inj made)
      obtain rfl := Except.ok.inj same
      exact issued_addSessionViewer created session stored
    · exact absurd (Prod.mk.inj (Except.ok.inj made)).2 (by simp)
    · exact absurd (Prod.mk.inj (Except.ok.inj made)).2 (by simp)

theorem getSessions_sees (shows : viewer.CanShow) : ∃ sessions keys,
    viewer.getSessions (proxy.withSessions seen) seen.heap seen.order = .ok (sessions, keys) ∧
    (∀ key ref, sessions.lookup key = some ref ↔ viewer.Sees seen key ref) ∧
    ∀ key, key ∈ keys ↔ ∃ ref, viewer.Sees seen key ref := by
  obtain ⟨owned, linked⟩ := shows
  obtain ⟨user, owner⟩ := Option.ne_none_iff_exists'.mp owned
  have sees (key : Bytes) (ref : SessionRef) : viewer.Sees seen key ref ↔
      ∃ sessions, seen.userSessions.find user.getKey = some sessions ∧
        sessions.lookup key = some ref ∧ viewer.Covers key := by
    constructor
    · rintro ⟨other, sessions, same, rest⟩
      obtain rfl := Option.some.inj (owner.symm.trans same)
      exact ⟨sessions, rest⟩
    · rintro ⟨sessions, rest⟩
      exact ⟨user, sessions, owner, rest⟩
  simp only [sees]
  rw [proxy.getSessions_shown owner linked]
  cases filed : seen.userSessions.find user.getKey with
  | none => exact ⟨∅, [], rfl, by simp, by simp⟩
  | some sessions =>
    dsimp only
    cases single : viewer.typeIsSingle with
    | true =>
      have covers (key : Bytes) : viewer.Covers key ↔ key = viewer.sessionKey :=
        ⟨fun covers => covers single, fun same _ => same⟩
      simp only [if_true, covers, Option.some.injEq, exists_eq_left']
      cases found : sessions.lookup viewer.sessionKey with
      | none =>
        refine ⟨∅, [], rfl, fun key ref => ?_, fun key => ?_⟩
        · constructor
          · intro none
            simp at none
          · rintro ⟨other, rfl⟩
            rw [found] at other
            contradiction
        · constructor
          · exact fun member => absurd member List.not_mem_nil
          · rintro ⟨ref, other, rfl⟩
            rw [found] at other
            contradiction
      | some session =>
        refine ⟨_, _, rfl, fun key ref => ?_, fun key => ?_⟩
        · by_cases same : key = viewer.sessionKey
          · subst same
            rw [Finmap.lookup_insert, found]
            simp
          · rw [Finmap.lookup_insert_of_ne _ same, Finmap.lookup_empty]
            simp [same]
        · rw [List.mem_singleton]
          constructor
          · rintro rfl
            exact ⟨session, found, rfl⟩
          · rintro ⟨_, _, same⟩
            exact same
    | false =>
      have covers (key : Bytes) : viewer.Covers key ↔ True :=
        iff_true_intro fun single' => absurd (single'.symm.trans single) (by decide)
      simp only [covers, and_true, Option.some.injEq, exists_eq_left']
      refine ⟨_, _, rfl, fun key ref => Iff.rfl, fun key => ?_⟩
      have same : (proxy.withSessions seen).sessionsOf user.getKey = sessions :=
        congrArg (fun found => found.getD ∅) filed
      rw [ProxyContext.listAllUserSessions, same, makeListOfSessionKeys, List.mem_filter,
        RangeOrder.mem_over, ← Finmap.lookup_isSome, Option.isSome_iff_exists]
      constructor
      · exact fun listed => listed.1
      · rintro ⟨ref, found⟩
        exact ⟨⟨ref, found⟩, by rw [found]; exact Bool.or_true _⟩

end ProxySessionViewer

theorem buildWebSessionInfoList_returns {heap : SessionHeap} {sessions : GoMap Bytes SessionRef}
    {keys : List Bytes} (known : ∀ key ∈ keys, ∃ ref, sessions.lookup key = some ref)
    (user secret : Bytes) (now : Time) : ∃ infos,
    buildWebSessionInfoList heap sessions keys user secret now = .ok infos ∧
    infos.map SessionInfo.key = keys ∧ ∀ info ∈ infos, info.key ≠ [] → info.secret = secret := by
  unfold buildWebSessionInfoList
  induction keys with
  | nil => exact ⟨[], rfl, rfl, by simp⟩
  | cons key keys ih =>
    obtain ⟨⟨ref, found⟩, others⟩ := List.forall_mem_cons.mp known
    obtain ⟨infos, built, same, secrets⟩ := ih others
    rw [List.mapM_cons, built]
    by_cases empty : key = []
    · refine ⟨{} :: infos, by rw [if_pos empty]; rfl, by rw [List.map_cons, same, empty], ?_⟩
      exact List.forall_mem_cons.mpr ⟨fun solid => absurd rfl solid, secrets⟩
    · refine ⟨(heap.session ref).webInfo key user secret now :: infos, ?_, ?_, ?_⟩
      · rw [if_neg empty, found]
        rfl
      · rw [List.map_cons, same]
        rfl
      · exact List.forall_mem_cons.mpr ⟨fun _ => rfl, secrets⟩

namespace ProxySessionViewer
variable {viewer : ProxySessionViewer} {proxy : ProxyContext} {seen : Observation}

/-- The list has a session for each key that the viewer sees, and each comes with its secret. -/
theorem getUserSessionInfo_sees (shows : viewer.CanShow) : ∃ infos,
    proxy.getUserSessionInfo seen viewer = .ok infos ∧
    (∀ key, (∃ info ∈ infos, info.key = key) ↔ ∃ ref, viewer.Sees seen key ref) ∧
    ∀ info ∈ infos, info.key ≠ [] → info.secret = viewer.secret := by
  obtain ⟨sessions, keys, given, found, listed⟩ := @getSessions_sees viewer proxy seen shows
  obtain ⟨user, owner⟩ := Option.ne_none_iff_exists'.mp shows.1
  have known : ∀ key ∈ keys, ∃ ref, sessions.lookup key = some ref := by
    intro key member
    obtain ⟨ref, sees⟩ := (listed key).mp member
    exact ⟨ref, (found key ref).mpr sees⟩
  obtain ⟨infos, built, same, secrets⟩ :=
    @buildWebSessionInfoList_returns seen.heap _ _ known user.getKey viewer.secret seen.now
  refine ⟨infos, ?_, fun key => ?_, secrets⟩
  · rw [ProxyContext.getUserSessionInfo, given, owner]
    exact built
  · rw [← listed, ← same, List.mem_map]

theorem Issued.getSessionViewer (issued : viewer.Issued proxy) :
    (proxy.getSessionViewer viewer.secret).2 = some viewer := by
  rw [ProxyContext.getSessionViewer, issued.stored]
  rfl

/-- What the web server answers to `viewer-list`. -/
theorem Issued.list (issued : viewer.Issued proxy) (first seen : Observation) : ∃ infos,
    proxy.socketHandler.run (.reading .command, [lit "viewer-list", viewer.secret]) [first, seen] =
      [sessionInfoReply infos] ∧
    (∀ key, (∃ info ∈ infos, info.key = key) ↔ ∃ ref, viewer.Sees seen key ref) ∧
    ∀ info ∈ infos, info.key ≠ [] → info.secret = viewer.secret := by
  obtain ⟨infos, given, keys, secrets⟩ :=
    @getUserSessionInfo_sees viewer proxy seen issued.shows
  refine ⟨infos, ?_, keys, secrets⟩
  have asks : proxy.socketCommand first (lit "viewer-list") = (.reading (.viewerKey false), []) := by
    rw [ProxyContext.socketCommand, if_neg (by decide), if_neg (by decide), if_neg (by decide),
      if_pos rfl]
  have replies : proxy.receive seen viewer.secret (.viewerKey false) =
      (.reading .command, [sessionInfoReply infos]) := by
    rw [ProxyContext.receive, issued.getSessionViewer]
    simp only [Bool.false_eq_true, if_false, ProxyContext.sessionViewerSocketList, given]
  rw [Reactive.run, proxy.react_reading, ProxyContext.receive, asks, Reactive.run,
    proxy.react_reading, replies]
  rfl

/-- What it does with `viewer-get`. -/
theorem Issued.get (issued : viewer.Issued proxy) (first second seen : Observation) {key : Bytes}
    {ref : SessionRef} (sees : viewer.Sees seen key ref) :
    proxy.socketHandler.after (.reading .command, [lit "viewer-get", viewer.secret, key])
      [first, second, seen] = (.playing ref {}, []) := by
  obtain ⟨sessions, keys, given, found, -⟩ :=
    @getSessions_sees viewer proxy seen issued.shows
  have asks : proxy.socketCommand first (lit "viewer-get") = (.reading (.viewerKey true), []) := by
    rw [ProxyContext.socketCommand, if_neg (by decide), if_neg (by decide), if_pos rfl]
  have known : proxy.receive second viewer.secret (.viewerKey true) =
      (.reading (.viewerSession viewer), []) := by
    rw [ProxyContext.receive, issued.getSessionViewer]
    rfl
  have plays : proxy.receive seen key (.viewerSession viewer) = (.playing ref {}, []) := by
    rw [ProxyContext.receive, ProxyContext.sessionViewerSocketGet, given]
    dsimp only
    rw [(found key ref).mpr sees]
    rfl
  rw [Reactive.after, proxy.react_reading, ProxyContext.receive, asks, Reactive.after,
    proxy.react_reading, known, Reactive.after, proxy.react_reading, plays]
  rfl

end ProxySessionViewer
end SSHProxyPlus
