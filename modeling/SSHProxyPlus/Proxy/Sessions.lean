import SSHProxyPlus.Go.Returns
import SSHProxyPlus.Proxy.Context

/-! The sessions of a proxy, as its lists and its viewers show them. -/
namespace SSHProxyPlus
open Go

/-- What the pointers to sessions point at. -/
abbrev SessionHeap := List SessionContext

def SessionHeap.session (heap : SessionHeap) (ref : SessionRef) : SessionContext :=
  heap.getD ref {}

theorem session_set (heap : SessionHeap) (ref ref' : SessionRef) (session : SessionContext) :
    SessionHeap.session (heap.set ref session) ref' =
      if ref = ref' ∧ ref < heap.length then session else heap.session ref' := by
  unfold SessionHeap.session
  rw [List.getD_eq_getElem?_getD, List.getElem?_set, List.getD_eq_getElem?_getD]
  by_cases same : ref = ref'
  · subst same
    by_cases within : ref < heap.length
    · simp [within]
    · simp [within]
  · simp [same]

theorem session_append (heap : SessionHeap) (session : SessionContext) (ref : SessionRef) :
    SessionHeap.session (heap ++ [session]) ref =
      if ref = heap.length then session else heap.session ref := by
  unfold SessionHeap.session
  rw [List.getD_eq_getElem?_getD, List.getD_eq_getElem?_getD]
  rcases Nat.lt_trichotomy ref heap.length with less | same | more
  · rw [List.getElem?_append_left less, if_neg less.ne]
  · simp [same]
  · rw [if_neg more.ne', List.getElem?_eq_none (by simpa using more),
      List.getElem?_eq_none more.le]

def makeListOfSessionKeys (heap : SessionHeap) (sessions : GoMap Bytes SessionRef)
    (includeInactive : Bool) (order : RangeOrder Bytes) : List Bytes :=
  (order.over sessions).filter fun key =>
    match sessions.lookup key with
    | some ref => (heap.session ref).active || includeInactive
    | none => false

namespace ProxyContext

/-- A session left under the same addresses is moved aside. -/
def preserveOld (allSessions : MapVar Bytes SessionRef) (sessKey : Bytes) :
    Except Panic (MapVar Bytes SessionRef) :=
  match allSessions.find sessKey with
  | some val => do
      let moved ← allSessions.assign (sessKey ++ lit "_old") val
      return moved.delete sessKey
  | none => return allSessions

/-- The accept loop takes a connection. -/
def acceptConnection (proxy : ProxyContext) (heap : SessionHeap) (sessKey clientHost : Bytes) :
    Except Panic (ProxyContext × SessionHeap) := do
  let kept ← preserveOld proxy.allSessions sessKey
  let allSessions ← kept.assign sessKey heap.length
  return ({ proxy with allSessions }, heap ++ [{ clientHost := clientHost }])

/-- What the password callback writes into the session of a client it lets in. -/
def loggedIn (session : SessionContext) (sessKey username password : Bytes)
    (user : Option ProxyUser) (now : Time) : SessionContext :=
  { session with
    linked := true
    user := user
    clientPassword := password
    clientUsername := username
    active := true
    startTime := now
    filename := sessKey ++ lit ".log.json"
    sessionID := sessKey }

/-- The error is the one the client is refused with. -/
def passwordCallback (proxy : ProxyContext) (heap : SessionHeap)
    (sessKey username password : Bytes) (now : Time) :
    Except Panic (SessionHeap × Option Bytes) := do
  let _ ← deref proxy.log
  match ← proxy.authenticateUser username password with
  | .error err => return (heap, some err)
  | .ok user => do
      let ref ← deref (proxy.allSessions.find sessKey)
      return (heap.set ref (loggedIn (heap.session ref) sessKey username password user now), none)

/-- A connection adds a new session, and leaves alone everything but the store. -/
theorem acceptConnection_ok {proxy next : ProxyContext} {heap after : SessionHeap}
    {sessKey clientHost : Bytes}
    (accepted : proxy.acceptConnection heap sessKey clientHost = .ok (next, after)) :
    ∃ allSessions, next = { proxy with allSessions } ∧
      after = heap ++ [{ clientHost := clientHost }] := by
  obtain ⟨kept, -, rest⟩ := of_bind_ok accepted
  obtain ⟨allSessions, -, done⟩ := of_bind_ok rest
  obtain ⟨rfl, rfl⟩ := Prod.mk.inj (Except.ok.inj done)
  exact ⟨allSessions, rfl, rfl⟩

/-- Where there is a table, the new session is in it, and the one whose place it takes is under
the other key. -/
theorem acceptConnection_returns {proxy : ProxyContext} (made : proxy.allSessions ≠ none)
    (heap : SessionHeap) (sessKey clientHost : Bytes) :
    Returns (proxy.acceptConnection heap sessKey clientHost) fun result =>
      ∃ allSessions, result = ({ proxy with allSessions }, heap ++ [{ clientHost := clientHost }]) ∧
        allSessions ≠ none ∧ ∀ key, allSessions.find key =
          if key = sessKey then some heap.length
          else if key = sessKey ++ lit "_old" ∧ (proxy.allSessions.find sessKey).isSome then
            proxy.allSessions.find sessKey
          else proxy.allSessions.find key := by
  obtain ⟨entries, stored⟩ := Option.ne_none_iff_exists'.mp made
  have kept : Returns (preserveOld proxy.allSessions sessKey) fun moved => ∃ entries',
      moved = some entries' ∧ ∀ key, key ≠ sessKey → entries'.lookup key =
        if key = sessKey ++ lit "_old" ∧ (entries.lookup sessKey).isSome then
          entries.lookup sessKey
        else entries.lookup key := by
    unfold preserveOld
    rw [stored, MapVar.find_some]
    cases old : entries.lookup sessKey with
    | none => exact returns_pure ⟨entries, rfl, fun key _ => by simp⟩
    | some val =>
      refine returns_pure ⟨(entries.insert (sessKey ++ lit "_old") val).erase sessKey, rfl, ?_⟩
      intro key other
      rw [Finmap.lookup_erase_ne other, lookup_insert_if]
      simp
  refine kept.bind fun moved ⟨entries', same, moves⟩ => ?_
  subst same
  refine returns_pure ⟨some (entries'.insert sessKey heap.length), rfl, Option.some_ne_none _, ?_⟩
  intro key
  rw [MapVar.find_some, lookup_insert_if, stored]
  split
  · rfl
  · next other => exact moves key other

/-- Either the client is refused and no session changes, or its session now belongs to the
user it was let in as. -/
theorem passwordCallback_ok {proxy : ProxyContext} {heap after : SessionHeap}
    {sessKey username password : Bytes} {now : Time} {refused : Option Bytes}
    (called : proxy.passwordCallback heap sessKey username password now = .ok (after, refused)) :
    after = heap ∨ ∃ user ref, proxy.authenticateUser username password = .ok (.ok (some user)) ∧
      proxy.allSessions.find sessKey = some ref ∧
      after = heap.set ref (loggedIn (heap.session ref) sessKey username password (some user) now) := by
  obtain ⟨-, -, rest⟩ := of_bind_ok called
  obtain ⟨result, authenticated, rest⟩ := of_bind_ok rest
  cases result with
  | error err =>
    obtain ⟨rfl, -⟩ := Prod.mk.inj (Except.ok.inj rest)
    exact Or.inl rfl
  | ok entered =>
    obtain ⟨ref, stored, done⟩ := of_bind_ok rest
    obtain ⟨rfl, -⟩ := Prod.mk.inj (Except.ok.inj done)
    obtain ⟨user, rfl, -⟩ := authenticateUser_cases authenticated
    exact Or.inr ⟨user, ref, authenticated, deref_ok stored, rfl⟩

/-- `StartProxy` up to its accept loop. Listening may fail, with an error. -/
def startProxy (proxy : ProxyContext) (listenError : Option Bytes) : Except Panic ProxyContext := do
  let _ ← deref proxy.log
  let _ ← deref proxy.privateKey
  match listenError with
  | some err => throw (.raised err)
  | none => return { proxy with listener := some .accepting, running := true }

def endAt (sessionFolder : Bytes) (now : Time) (sessions : GoMap Bytes SessionRef)
    (heap : SessionHeap) (key : Bytes) : Except Panic SessionHeap :=
  match sessions.lookup key with
  | some ref => do
      let ended ← (heap.session ref).endSession sessionFolder now
      return heap.set ref ended
  | none => return heap

def stop (proxy : ProxyContext) (heap : SessionHeap) (order : RangeOrder Bytes) (now : Time) :
    Except Panic (ProxyContext × SessionHeap) := do
  let _ ← deref proxy.listener
  let sessions := proxy.allSessions.content
  let ended ← (order.over sessions).foldlM (endAt proxy.sessionFolder now sessions) heap
  return ({ proxy with running := false, listener := some .closed }, ended)

def sessionsOf (proxy : ProxyContext) (user : Bytes) : GoMap Bytes SessionRef :=
  (proxy.userSessions.find user).getD ∅

def listAllUserSessions (proxy : ProxyContext) (heap : SessionHeap) (user : Bytes)
    (order : RangeOrder Bytes) : List Bytes :=
  makeListOfSessionKeys heap (proxy.sessionsOf user) true order

def listAllSessions (proxy : ProxyContext) (heap : SessionHeap) (order : RangeOrder Bytes) :
    List Bytes := makeListOfSessionKeys heap proxy.allSessions.content true order

def listAllActiveSessions (proxy : ProxyContext) (heap : SessionHeap) (order : RangeOrder Bytes) :
    List Bytes := makeListOfSessionKeys heap proxy.allSessions.content false order

end ProxyContext

/-- The sessions a viewer shows, and their keys. The viewer's `proxy` is the one that
holds it. -/
def ProxySessionViewer.getSessions (viewer : ProxySessionViewer) (proxy : ProxyContext)
    (heap : SessionHeap) (order : RangeOrder Bytes) :
    Except Panic (GoMap Bytes SessionRef × List Bytes) := do
  let user ← deref viewer.user
  let userKey := user.getKey
  let _ ← deref (if viewer.linked then some () else none)
  match proxy.userSessions.find userKey with
  | some sessions =>
      if viewer.typeIsSingle then
        match sessions.lookup viewer.sessionKey with
        | some session =>
            return ((∅ : GoMap Bytes SessionRef).insert viewer.sessionKey session,
              [viewer.sessionKey])
        | none => return (∅, [])
      else return (sessions, proxy.listAllUserSessions heap userKey order)
  | none => return (∅, [])

/-- A viewer shows nothing but sessions filed under its user's key; one for a single
session shows at most that one. -/
theorem ProxySessionViewer.getSessions_filed {viewer : ProxySessionViewer} {proxy : ProxyContext}
    {heap : SessionHeap} {order : RangeOrder Bytes} {keys : List Bytes} {shown : GoMap Bytes SessionRef}
    {user : ProxyUser} (owner : viewer.user = some user)
    (given : viewer.getSessions proxy heap order = .ok (shown, keys)) {id : Bytes}
    {ref : SessionRef} (found : shown.lookup id = some ref) :
    (∃ sessions, proxy.userSessions.find user.getKey = some sessions ∧
      sessions.lookup id = some ref) ∧ (viewer.typeIsSingle → id = viewer.sessionKey) := by
  unfold getSessions at given
  simp only [owner, deref_some, bind, Except.bind] at given
  cases linked : viewer.linked with
  | false => simp [linked, deref] at given
  | true =>
    simp only [linked, if_true, deref_some] at given
    cases stored : proxy.userSessions.find user.getKey with
    | none =>
      simp only [stored] at given
      obtain ⟨rfl, -⟩ := Prod.mk.inj (Except.ok.inj given)
      rw [Finmap.lookup_empty] at found
      contradiction
    | some sessions =>
      simp only [stored] at given
      cases single : viewer.typeIsSingle with
      | false =>
        simp only [single, Bool.false_eq_true, if_false] at given
        obtain ⟨rfl, -⟩ := Prod.mk.inj (Except.ok.inj given)
        exact ⟨⟨sessions, rfl, found⟩, fun h => absurd h Bool.false_ne_true⟩
      | true =>
        simp only [single, if_true] at given
        cases one : sessions.lookup viewer.sessionKey with
        | none =>
          simp only [one] at given
          obtain ⟨rfl, -⟩ := Prod.mk.inj (Except.ok.inj given)
          rw [Finmap.lookup_empty] at found
          contradiction
        | some session =>
          simp only [one] at given
          obtain ⟨rfl, -⟩ := Prod.mk.inj (Except.ok.inj given)
          by_cases same : id = viewer.sessionKey
          · subst same
            rw [Finmap.lookup_insert] at found
            exact ⟨⟨sessions, rfl, Option.some.inj found ▸ one⟩, fun _ => rfl⟩
          · rw [Finmap.lookup_insert_of_ne _ same, Finmap.lookup_empty] at found
            contradiction

end SSHProxyPlus
