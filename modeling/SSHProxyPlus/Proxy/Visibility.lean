import SSHProxyPlus.Proxy.Authentication
import SSHProxyPlus.Proxy.Sessions
import SSHProxyPlus.Transition.System

/-! Whose sessions a viewer shows. Sessions are filed under a username alone, so a
viewer shows only its own user's sessions as long as no two users share a name. -/
namespace SSHProxyPlus
open Go Transition

/-- A proxy, the sessions it points to, and the viewers made so far. -/
structure ViewState where
  proxy : ProxyContext
  heap : SessionHeap
  made : List ProxySessionViewer

inductive ViewOp where
  | register (user : ProxyUser)
  | unregister (username password : Bytes)
  | accept (sessKey clientHost : Bytes)
  | login (sessKey username password : Bytes) (now : Time)
  | track (ref : SessionRef)
  | viewUser (username password : Bytes) (draw : RandomSource)
  | viewSession (username password session : Bytes) (draw : RandomSource)

namespace ViewState

def remember (s : ViewState) (proxy : ProxyContext) : Except Bytes ProxySessionViewer → ViewState
  | .ok viewer => { s with proxy, made := viewer :: s.made }
  | .error _ => { s with proxy }

/-- A login is three steps, so that anything may happen between the connection, the password
callback and the call that files the session. -/
def step (s : ViewState) : ViewOp → Except Panic ViewState
  | .register user => do
      let (proxy, _) ← s.proxy.addProxyUser user
      return { s with proxy }
  | .unregister username password =>
      return { s with proxy := (s.proxy.removeProxyUser username password).1 }
  | .accept sessKey clientHost => do
      let (proxy, heap) ← s.proxy.acceptConnection s.heap sessKey clientHost
      return { s with proxy, heap }
  | .login sessKey username password now => do
      let (heap, _) ← s.proxy.passwordCallback s.heap sessKey username password now
      return { s with heap }
  | .track ref =>
      match s.heap[ref]? with
      | some session => do
          let proxy ← s.proxy.addSessionToUserList ref session
          return { s with proxy }
      | none => return s
  | .viewUser username password draw => do
      let (proxy, result) ← s.proxy.makeSessionViewerForUser username password draw
      return s.remember proxy result
  | .viewSession username password session draw => do
      let (proxy, result) ← s.proxy.makeSessionViewerForSession username password session draw
      return s.remember proxy result

end ViewState

/-- The step registers nobody and lets nobody in whose pair is outside `S`. -/
def ViewOp.Within (S : Set (Bytes × Bytes)) (s : ViewState) : ViewOp → Prop
  | .register user => user.pair ∈ S
  | .login _ username password _ => ∀ user,
      s.proxy.authenticateUser username password = .ok (.ok (some user)) → user.pair ∈ S
  | _ => True

/-- A connection stops asking for passwords once one is accepted. -/
def ViewOp.Possible (s : ViewState) : ViewOp → Prop
  | .login sessKey _ _ _ => ∀ ref, s.proxy.allSessions.find sessKey = some ref →
      (s.heap.session ref).user = none
  | _ => True

def viewSystem (signer : Option Signer) (S : Set (Bytes × Bytes)) : System ViewState ViewOp where
  init s := Obtained signer s.proxy ∧ s.heap = [] ∧ s.made = [] ∧
    ∀ key user, s.proxy.users.find key = some (some user) → user.pair ∈ S
  step s op s' := op.Possible s ∧ op.Within S s ∧ s.step op = .ok s'

/-- The session was authenticated as the viewer's own user, with its name and its password. -/
def AuthenticatedAs (session : SessionContext) (user : ProxyUser) : Prop :=
  ∃ owner, session.user = some owner ∧ owner.username = user.username ∧
    owner.password = user.password

/-- Everything the viewer shows belongs to its user; a viewer of a single session shows
nothing but the one stored under its key. -/
def ShowsOwn (s : ViewState) (viewer : ProxySessionViewer) : Prop :=
  ∃ user, viewer.user = some user ∧ ∀ order shown keys,
    viewer.getSessions s.proxy s.heap order = .ok (shown, keys) →
      ∀ id ref, shown.lookup id = some ref →
        AuthenticatedAs (s.heap.session ref) user ∧
        (viewer.typeIsSingle → id = viewer.sessionKey ∧
          (s.proxy.sessionsOf user.getKey).lookup viewer.sessionKey = some ref)

/-- All users there are, in the table, in sessions and in viewers, have their pairs in `S`,
and sessions are filed under the keys of their users. -/
structure Inside (S : Set (Bytes × Bytes)) (s : ViewState) : Prop where
  users : ∀ key user, s.proxy.users.find key = some (some user) → user.pair ∈ S
  sessions : ∀ (ref : SessionRef) (session : SessionContext) (user : ProxyUser),
    s.heap[ref]? = some session → session.user = some user → user.pair ∈ S
  filed : ∀ key listed id ref, s.proxy.userSessions.find key = some listed →
    listed.lookup id = some ref →
      ∃ (session : SessionContext) (user : ProxyUser), s.heap[ref]? = some session ∧
        session.user = some user ∧ user.getKey = key
  viewers : ∀ viewer ∈ s.made, ∃ user, viewer.user = some user ∧ user.pair ∈ S

variable {S : Set (Bytes × Bytes)} {s s' : ViewState}

theorem Inside.showsOwn (inside : Inside S s) (names : Set.InjOn Prod.fst S)
    {viewer : ProxySessionViewer} (member : viewer ∈ s.made) : ShowsOwn s viewer := by
  obtain ⟨user, owner, userIn⟩ := inside.viewers viewer member
  refine ⟨user, owner, fun order shown keys given id ref found => ?_⟩
  obtain ⟨⟨listed, under, stored⟩, single⟩ :=
    ProxySessionViewer.getSessions_filed owner given found
  obtain ⟨session, holder, present, held, sameKey⟩ := inside.filed _ _ _ _ under stored
  have holderIn := inside.sessions ref session holder present held
  have name : holder.username = user.username := buildProxyUserKey_blank_injective sameKey
  have pair : holder.pair = user.pair := names holderIn userIn name
  refine ⟨⟨holder, ?_, name, congrArg Prod.snd pair⟩, fun h => ⟨single h, ?_⟩⟩
  · rw [SessionHeap.session, List.getD_eq_getElem?_getD, present]
    exact held
  · rw [ProxyContext.sessionsOf, under, ← single h]
    exact stored

theorem Inside.remember (inside : Inside S s) {proxy : ProxyContext}
    {viewer : ProxySessionViewer} {user : ProxyUser} {key : Bytes}
    (registered : s.proxy.users.find key = some (some user)) (owner : viewer.user = some user)
    (stored : s.proxy.addSessionViewer viewer = .ok proxy) :
    Inside S (s.remember proxy (.ok viewer)) := by
  obtain ⟨entries, -, rfl⟩ := ProxyContext.addSessionViewer_ok stored
  refine ⟨inside.users, inside.sessions, inside.filed, fun v member => ?_⟩
  rcases List.mem_cons.mp member with rfl | old
  · exact ⟨user, owner, inside.users key user registered⟩
  · exact inside.viewers v old

theorem Inside.step (inside : Inside S s) (op : ViewOp) (possible : op.Possible s)
    (within : op.Within S s) (taken : s.step op = .ok s') : Inside S s' := by
  cases op with
  | register user =>
    obtain ⟨⟨proxy, key⟩, added, done⟩ := of_bind_ok taken
    obtain rfl := Except.ok.inj done
    obtain ⟨entries, made, -, rfl⟩ := ProxyContext.addProxyUser_cases added
    refine ⟨fun k u found => ?_, inside.sessions, inside.filed, inside.viewers⟩
    rw [MapVar.find_some] at found
    by_cases same : k = key
    · subst same
      rw [Finmap.lookup_insert] at found
      exact Option.some.inj (Option.some.inj found) ▸ within
    · rw [Finmap.lookup_insert_of_ne _ same] at found
      exact inside.users k u (by rw [made]; exact found)
  | unregister username password =>
    obtain rfl := Except.ok.inj taken
    obtain ⟨users, removed, kept⟩ := s.proxy.removeProxyUser_changes username password
    rw [removed]
    exact ⟨fun key user found => inside.users key user (kept key _ found), inside.sessions,
      inside.filed, inside.viewers⟩
  | accept sessKey clientHost =>
    obtain ⟨⟨proxy, heap⟩, accepted, done⟩ := of_bind_ok taken
    obtain rfl := Except.ok.inj done
    obtain ⟨allSessions, rfl, rfl⟩ := ProxyContext.acceptConnection_ok accepted
    refine ⟨inside.users, fun ref session user present held => ?_,
      fun key listed id ref under stored => ?_, inside.viewers⟩
    · rcases List.mem_append.mp (List.mem_of_getElem? present) with old | new
      · obtain ⟨other, before⟩ := List.mem_iff_getElem?.mp old
        exact inside.sessions other session user before held
      · obtain rfl := List.mem_singleton.mp new
        contradiction
    · obtain ⟨session, owner, before, held⟩ := inside.filed key listed id ref under stored
      refine ⟨session, owner, ?_, held⟩
      rw [List.getElem?_append_left (List.getElem?_eq_some_iff.mp before).1]
      exact before
  | login sessKey username password now =>
    obtain ⟨⟨heap, refused⟩, called, done⟩ := of_bind_ok taken
    obtain rfl := Except.ok.inj done
    rcases ProxyContext.passwordCallback_ok called with
      rfl | ⟨user, ref, authenticated, stored, rfl⟩
    · exact ⟨inside.users, inside.sessions, inside.filed, inside.viewers⟩
    · have userIn : user.pair ∈ S := within user authenticated
      have unclaimed := possible ref stored
      refine ⟨inside.users, fun other session owner present held => ?_,
        fun key listed id other under found => ?_, inside.viewers⟩
      · rw [List.getElem?_set] at present
        split at present
        · split at present
          · obtain rfl := Option.some.inj present
            exact Option.some.inj held ▸ userIn
          · contradiction
        · exact inside.sessions other session owner present held
      · obtain ⟨session, owner, before, held, sameKey⟩ := inside.filed key listed id other under found
        -- a session that is filed has its user already
        have different : ref ≠ other := by
          rintro rfl
          rw [SessionHeap.session, List.getD_eq_getElem?_getD, before] at unclaimed
          exact absurd (held.symm.trans unclaimed) (Option.some_ne_none owner)
        exact ⟨session, owner, by rw [List.getElem?_set_ne different]; exact before, held, sameKey⟩
  | track ref =>
    simp only [ViewState.step] at taken
    cases present : s.heap[ref]? with
    | none =>
      rw [present] at taken
      exact Except.ok.inj taken ▸ inside
    | some session =>
      simp only [present] at taken
      obtain ⟨proxy, added, done⟩ := of_bind_ok taken
      obtain rfl := Except.ok.inj done
      obtain ⟨user, entries, owner, made, rfl⟩ := ProxyContext.addSessionToUserList_ok added
      refine ⟨inside.users, inside.sessions, fun key listed id other under stored => ?_,
        inside.viewers⟩
      have filed := inside.filed key
      simp only [made, MapVar.find_some] at filed under
      by_cases here : key = user.getKey
      · subst here
        rw [Finmap.lookup_insert] at under
        obtain rfl := Option.some.inj under
        by_cases same : id = session.getID
        · subst same
          rw [Finmap.lookup_insert] at stored
          obtain rfl := Option.some.inj stored
          exact ⟨session, user, present, owner, rfl⟩
        · rw [Finmap.lookup_insert_of_ne _ same] at stored
          cases before : entries.lookup user.getKey with
          | none =>
            rw [before] at stored
            exact absurd stored (by simp)
          | some listed =>
            rw [before] at stored
            exact filed listed id other before stored
      · rw [Finmap.lookup_insert_of_ne _ here] at under
        exact filed listed id other under stored
  | viewUser username password draw =>
    obtain ⟨⟨proxy, result⟩, made, done⟩ := of_bind_ok taken
    obtain rfl := Except.ok.inj done
    rcases ProxyContext.makeSessionViewerForUser_cases made with
      ⟨rfl, err, rfl⟩ | ⟨user, key, viewer, registered, owner, -, -, rfl, stored⟩
    · exact ⟨inside.users, inside.sessions, inside.filed, inside.viewers⟩
    · exact inside.remember registered owner stored
  | viewSession username password session draw =>
    obtain ⟨⟨proxy, result⟩, made, done⟩ := of_bind_ok taken
    obtain rfl := Except.ok.inj done
    rcases ProxyContext.makeSessionViewerForSession_cases made with
      ⟨rfl, err, rfl⟩ | ⟨user, key, viewer, registered, owner, -, -, -, rfl, stored⟩
    · exact ⟨inside.users, inside.sessions, inside.filed, inside.viewers⟩
    · exact inside.remember registered owner stored

theorem Obtained.userSessions {signer : Option Signer} {proxy : ProxyContext}
    (obtained : Obtained signer proxy) : proxy.userSessions = some ∅ := by
  cases obtained with
  | new => rfl
  | json data order made =>
    obtain ⟨decoded, read, done⟩ := makeProxyFromJSON_cases made
    obtain ⟨users, viewers, rfl⟩ := ProxyContext.initializeProxy_changes done
    simp [ProxyContext.withDefaults, (ProxyContext.unmarshal_decoded read).userSessions]

theorem inside_reachable {signer : Option Signer} (reached : (viewSystem signer S).Reachable s) :
    Inside S s := by
  refine System.Reachable.invariant ?_ ?_ reached
  · rintro s ⟨obtained, heap, made, users⟩
    refine ⟨users, fun ref session user present => ?_, fun key listed id ref under => ?_,
      fun viewer member => ?_⟩
    · rw [heap] at present
      contradiction
    · rw [obtained.userSessions, MapVar.find_some, Finmap.lookup_empty] at under
      contradiction
    · rw [made] at member
      contradiction
  · rintro s op s' inside ⟨possible, within, taken⟩
    exact inside.step op possible within taken

/-- A client is let in as the default user; then a user of that name and another password
is registered, and a viewer made for it shows the client's session. -/
theorem viewer_shows_namesake (signer : Option Signer) {name p q : Bytes}
    (pIn : (name, p) ∈ S) (qIn : (name, q) ∈ S) :
    ∃ s viewer user, (viewSystem signer S).Reachable s ∧ viewer ∈ s.made ∧
      viewer.user = some user ∧ user.password = p ∧
      ∀ order, ∃ shown keys, viewer.getSessions s.proxy s.heap order = .ok (shown, keys) ∧
        ∃ id ref owner, shown.lookup id = some ref ∧
          (s.heap.session ref).user = some owner ∧ owner.password = q := by
  let fresh := makeNewProxy signer
  let client : ProxyUser := fresh.defaultUser name q
  let opened : SessionContext := {}
  let session : SessionContext := ProxyContext.loggedIn opened [] name q (some client) zeroTime
  let user : ProxyUser := { username := name, password := p }
  let connected : ProxyContext := { fresh with allSessions := some (Finmap.insert [] 0 ∅) }
  let filed : GoMap Bytes (GoMap Bytes SessionRef) :=
    Finmap.insert client.getKey (Finmap.insert [] 0 ∅) ∅
  let users : GoMap Bytes (Option ProxyUser) := Finmap.insert (buildProxyUserKey name p) (some user) ∅
  let draw : RandomSource := fun _ => some ⟨0, by decide⟩
  obtain ⟨secret, random⟩ : ∃ secret,
      generateRandomString sessionViewerSecretLen draw = some secret := ⟨_, rfl⟩
  let viewer : ProxySessionViewer := {
    viewerType := sessionViewerTypeList, secret, user := some user, linked := true,
    expiration := sessionViewerExpiration }
  let s₀ : ViewState := ⟨fresh, [], []⟩
  let s₁ : ViewState := ⟨connected, [opened], []⟩
  let s₂ : ViewState := ⟨connected, [session], []⟩
  let s₃ : ViewState := ⟨{ connected with userSessions := some filed }, [session], []⟩
  let s₄ : ViewState := ⟨{ s₃.proxy with users := some users }, [session], []⟩
  let s₅ : ViewState :=
    ⟨{ s₄.proxy with viewers := some (Finmap.insert secret (some viewer) ∅) }, [session], [viewer]⟩
  have empty : ¬ 0 < MapVar.size (some (∅ : GoMap Bytes (Option ProxyUser))) := by decide
  have entered : connected.authenticateUser name q = .ok (.ok (some client)) := if_neg empty
  have found : users.lookup (buildProxyUserKey name p) = some (some user) := Finmap.lookup_insert ∅
  have start : (viewSystem signer S).Reachable s₀ :=
    .start ⟨.new, rfl, rfl, fun key user found => by
      rw [show s₀.proxy.users = some ∅ from rfl, MapVar.find_some, Finmap.lookup_empty] at found
      contradiction⟩
  have stored : connected.allSessions.find [] = some 0 := Finmap.lookup_insert ∅
  have login : s₁.step (.login [] name q zeroTime) = .ok s₂ := by
    simp only [ViewState.step, ProxyContext.passwordCallback, s₁, entered, stored]
    rfl
  have track : s₂.step (.track 0) = .ok s₃ := by
    have filing : connected.addSessionToUserList 0 session =
        .ok { connected with userSessions := some filed } :=
      ProxyContext.addSessionToUserList_eq rfl rfl
    simp only [ViewState.step, s₂, List.getElem?_cons_zero, filing]
    rfl
  have view : s₄.step (.viewUser name p draw) = .ok s₅ := by
    simp only [ViewState.step, ProxyContext.makeSessionViewerForUser, ProxyContext.getProxyUser, s₄,
      MapVar.find_some, found, createNewSessionViewer, random, if_true]
    rfl
  have own : ViewOp.Within S s₁ (.login [] name q zeroTime) := by
    intro other accepted
    rw [show s₁.proxy = connected from rfl, entered] at accepted
    obtain rfl : client = other := by simpa using accepted
    exact qIn
  have unclaimed : ViewOp.Possible s₁ (.login [] name q zeroTime) := by
    intro ref found
    obtain rfl := Option.some.inj (stored.symm.trans found)
    rfl
  have accepted : (viewSystem signer S).Reachable s₁ :=
    start.next (show (viewSystem signer S).step s₀ (.accept [] []) s₁ from ⟨trivial, trivial, rfl⟩)
  have logged : (viewSystem signer S).Reachable s₂ := accepted.next ⟨unclaimed, own, login⟩
  have tracked : (viewSystem signer S).Reachable s₃ :=
    logged.next (show (viewSystem signer S).step s₂ (.track 0) s₃ from ⟨trivial, trivial, track⟩)
  have registered : (viewSystem signer S).Reachable s₄ :=
    tracked.next (show (viewSystem signer S).step s₃ (.register user) s₄ from
      ⟨trivial, pIn, rfl⟩)
  have reached : (viewSystem signer S).Reachable s₅ :=
    registered.next (show (viewSystem signer S).step s₄ (.viewUser name p draw) s₅ from
      ⟨trivial, trivial, view⟩)
  refine ⟨s₅, viewer, user, reached, List.mem_cons_self, rfl, rfl, fun order => ?_⟩
  have shown : viewer.getSessions s₅.proxy s₅.heap order = .ok (Finmap.insert [] 0 ∅,
      s₅.proxy.listAllUserSessions s₅.heap user.getKey order) := by
    have listed : filed.lookup user.getKey = some (Finmap.insert [] 0 ∅) := Finmap.lookup_insert ∅
    simp only [ProxySessionViewer.getSessions, s₅, s₄, s₃, viewer, deref_some, bind, Except.bind,
      if_true, MapVar.find_some, listed]
    rfl
  exact ⟨_, _, shown, [], 0, client, Finmap.lookup_insert ∅, rfl, rfl⟩

/-- Viewers show only their own users' sessions, in every run over the users of `S`,
exactly when no two of these users share a name. -/
theorem viewers_show_own_iff (signer : Option Signer) (S : Set (Bytes × Bytes)) :
    Set.InjOn Prod.fst S ↔ ∀ s, (viewSystem signer S).Reachable s →
      ∀ viewer ∈ s.made, ShowsOwn s viewer := by
  constructor
  · intro names s reached viewer member
    exact (inside_reachable reached).showsOwn names member
  · rintro always ⟨name, p⟩ pIn ⟨_, q⟩ qIn rfl
    obtain ⟨s, viewer, user, reached, member, owner, passwordP, displays⟩ :=
      viewer_shows_namesake signer pIn qIn
    obtain ⟨shown, keys, given, id, ref, client, found, held, passwordQ⟩ :=
      displays (sortedOrder byteRank)
    obtain ⟨user', owner', own⟩ := always s reached viewer member
    obtain rfl := Option.some.inj (owner.symm.trans owner')
    obtain ⟨⟨client', held', _, same⟩, _⟩ := own _ shown keys given id ref found
    obtain rfl := Option.some.inj (held.symm.trans held')
    exact Prod.ext rfl (passwordP.symm.trans (same.symm.trans passwordQ))

/-- A viewer of the user `alice` with the password `one` shows the session of a client who
logged in as `alice` with the password `two`. -/
theorem viewer_shows_other_password :
    ¬ ∀ (signer : Option Signer) (s : ViewState), (viewSystem signer Set.univ).Reachable s →
      ∀ viewer ∈ s.made, ShowsOwn s viewer := by
  intro claim
  obtain ⟨s, viewer, user, reached, member, owner, one, displays⟩ := viewer_shows_namesake none
    (Set.mem_univ (lit "alice", lit "one")) (Set.mem_univ (lit "alice", lit "two"))
  obtain ⟨shown, keys, given, id, ref, client, found, held, two⟩ := displays (sortedOrder byteRank)
  obtain ⟨user', owner', own⟩ := claim none s reached viewer member
  obtain rfl := Option.some.inj (owner.symm.trans owner')
  obtain ⟨⟨client', held', _, same⟩, _⟩ := own _ shown keys given id ref found
  obtain rfl := Option.some.inj (held.symm.trans held')
  exact absurd (one.symm.trans (same.symm.trans two)) (by decide)

end SSHProxyPlus
