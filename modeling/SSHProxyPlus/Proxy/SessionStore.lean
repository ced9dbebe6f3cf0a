import SSHProxyPlus.Proxy.Sessions
import SSHProxyPlus.Transition.Sequential

/-! What connections leave in the two maps of sessions: those whose handshake fails, and those
that are let in. -/
namespace SSHProxyPlus
open Go Transition

/-- A proxy, the sessions it points to, and those of them whose mutex is held. -/
structure SessionStore where
  proxy : ProxyContext
  heap : SessionHeap
  held : List SessionRef

/-- What a client offers to the password callback. -/
structure LoginAttempt where
  username : Bytes
  password : Bytes
  now : Time

namespace SessionStore

/-- The accept loop files the new session, and locks it. -/
def accept (store : SessionStore) (sessKey clientHost : Bytes) : Except Panic SessionStore := do
  let (proxy, heap) ← store.proxy.acceptConnection store.heap sessKey clientHost
  return { proxy, heap, held := store.heap.length :: store.held }

/-- The callback unlocks the session of a client it lets in. -/
def passwordCallback (store : SessionStore) (sessKey : Bytes) (attempt : LoginAttempt) :
    Except Panic (SessionStore × Option Bytes) := do
  let (heap, refused) ← store.proxy.passwordCallback store.heap sessKey attempt.username
    attempt.password attempt.now
  match refused with
  | some err => return ({ store with heap }, some err)
  | none => do
      let ref ← deref (store.proxy.allSessions.find sessKey)
      return ({ store with heap, held := store.held.erase ref }, none)

/-- `ssh.NewServerConn`: whether the client is let in before it gives up. -/
def newServerConn (store : SessionStore) (sessKey : Bytes) :
    List LoginAttempt → Except Panic (SessionStore × Bool)
  | [] => return (store, false)
  | attempt :: attempts => do
      let (next, refused) ← store.passwordCallback sessKey attempt
      match refused with
      | some _ => next.newServerConn sessKey attempts
      | none => return (next, true)

/-- One turn of the accept loop. -/
def connect (store : SessionStore) (sessKey clientHost : Bytes) (attempts : List LoginAttempt) :
    Except Panic (SessionStore × Bool) := do
  let accepted ← store.accept sessKey clientHost
  accepted.newServerConn sessKey attempts

/-- The same sessions under the same keys, none of them locked or without its user and proxy. -/
def Untouched (before after : SessionStore) : Prop :=
  (∀ key, after.proxy.allSessions.find key = before.proxy.allSessions.find key) ∧
    ∀ key ref, after.proxy.allSessions.find key = some ref →
      ref ∉ after.held ∧ (after.heap.session ref).user ≠ none ∧ (after.heap.session ref).linked

/-- What the accept loop makes of the store. -/
structure Accepted (store : SessionStore) (sessKey clientHost : Bytes) (next : SessionStore) :
    Prop where
  proxy : ∃ allSessions, next.proxy = { store.proxy with allSessions }
  heap : next.heap = store.heap ++ [{ clientHost := clientHost }]
  held : next.held = store.heap.length :: store.held
  stored : ∀ key, next.proxy.allSessions.find key =
    if key = sessKey then some store.heap.length
    else if key = sessKey ++ lit "_old" ∧ (store.proxy.allSessions.find sessKey).isSome then
      store.proxy.allSessions.find sessKey
    else store.proxy.allSessions.find key

theorem accept_accepted {store next : SessionStore} {sessKey clientHost : Bytes}
    (accepted : store.accept sessKey clientHost = .ok next) :
    Accepted store sessKey clientHost next := by
  obtain ⟨⟨proxy, heap⟩, taken, done⟩ := of_bind_ok accepted
  obtain rfl := Except.ok.inj done
  have made : store.proxy.allSessions ≠ none := by
    intro missing
    simp only [ProxyContext.acceptConnection, ProxyContext.preserveOld, missing] at taken
    contradiction
  obtain ⟨allSessions, same, -, stored⟩ :=
    (ProxyContext.acceptConnection_returns made store.heap sessKey clientHost).value taken
  obtain ⟨rfl, rfl⟩ := Prod.mk.inj same
  exact ⟨⟨allSessions, rfl⟩, rfl, rfl, stored⟩

/-- A client that is refused leaves the store as it was; one that is let in takes the session of
its connection, and unlocks it. -/
theorem passwordCallback_ok {store next : SessionStore} {sessKey : Bytes} {attempt : LoginAttempt}
    {refused : Option Bytes} (called : store.passwordCallback sessKey attempt = .ok (next, refused)) :
    (refused ≠ none ∧ next = store) ∨ (refused = none ∧ ∃ user ref,
      store.proxy.allSessions.find sessKey = some ref ∧ next = { store with
        heap := store.heap.set ref (ProxyContext.loggedIn (store.heap.session ref) sessKey
          attempt.username attempt.password (some user) attempt.now)
        held := store.held.erase ref }) := by
  obtain ⟨⟨heap, answer⟩, answered, rest⟩ := of_bind_ok called
  obtain ⟨-, -, rest'⟩ := of_bind_ok answered
  obtain ⟨result, authenticated, entering⟩ := of_bind_ok rest'
  cases result with
  | error err =>
    obtain ⟨rfl, rfl⟩ := Prod.mk.inj (Except.ok.inj entering)
    obtain ⟨rfl, rfl⟩ := Prod.mk.inj (Except.ok.inj rest)
    exact .inl ⟨Option.some_ne_none err, rfl⟩
  | ok entered =>
    obtain ⟨ref, found, done⟩ := of_bind_ok entering
    obtain ⟨rfl, rfl⟩ := Prod.mk.inj (Except.ok.inj done)
    obtain ⟨ref', found', done⟩ := of_bind_ok rest
    obtain rfl : ref = ref' := Except.ok.inj (found.symm.trans found')
    obtain ⟨rfl, rfl⟩ := Prod.mk.inj (Except.ok.inj done)
    obtain ⟨user, rfl, -⟩ := ProxyContext.authenticateUser_cases authenticated
    exact .inr ⟨rfl, user, ref, deref_ok found, rfl⟩

/-- Clients that are refused leave the store as they found it. -/
theorem newServerConn_refused {store after : SessionStore} {sessKey : Bytes}
    {attempts : List LoginAttempt}
    (failed : store.newServerConn sessKey attempts = .ok (after, false)) : after = store := by
  induction attempts generalizing store with
  | nil =>
    obtain ⟨rfl, -⟩ := Prod.mk.inj (Except.ok.inj failed)
    rfl
  | cons attempt attempts ih =>
    obtain ⟨⟨next, refused⟩, called, rest⟩ := of_bind_ok failed
    obtain ⟨error, rfl⟩ | ⟨rfl, -⟩ := passwordCallback_ok called
    · obtain ⟨err, rfl⟩ := Option.ne_none_iff_exists'.mp error
      exact ih rest
    · obtain ⟨-, entered⟩ := Prod.mk.inj (Except.ok.inj rest)
      contradiction

/-- Whatever the store is like, and whatever passwords the client offers: the session of a
connection that fails stays in the store, locked and without a user. -/
theorem failed_login_stays {store after : SessionStore} {sessKey clientHost : Bytes}
    {attempts : List LoginAttempt}
    (failed : store.connect sessKey clientHost attempts = .ok (after, false)) :
    ¬ store.Untouched after := by
  obtain ⟨accepted, taken, refused⟩ := of_bind_ok failed
  obtain rfl := newServerConn_refused refused
  have filed := accept_accepted taken
  rintro ⟨-, free⟩
  have here : after.proxy.allSessions.find sessKey = some store.heap.length := by
    rw [filed.stored, if_pos rfl]
  refine (free sessKey _ here).1 ?_
  rw [filed.held]
  exact List.mem_cons_self

/-- A proxy that has just been made. -/
def newStore : SessionStore where
  proxy := makeNewProxy none
  heap := []
  held := []

def firstKey : Bytes := lit "10.0.0.1:2222:10.0.0.2:4000"

def scannerHost : Bytes := lit "10.0.0.2:4000"

/-- A port scanner has come and gone. -/
def scannedStore : SessionStore where
  proxy := { makeNewProxy none with allSessions := some (Finmap.insert firstKey 0 ∅) }
  heap := [{ clientHost := scannerHost }]
  held := [0]

theorem failed_login_stays_scanner : ¬ newStore.Untouched scannedStore :=
  failed_login_stays (show newStore.connect firstKey scannerHost [] = .ok (scannedStore, false) from rfl)

theorem scanner_files_session :
    ¬ ∀ (store after : SessionStore) (sessKey clientHost : Bytes) (attempts : List LoginAttempt),
      store.connect sessKey clientHost attempts = .ok (after, false) → store.Untouched after := by
  intro claim
  obtain ⟨same, -⟩ := claim newStore scannedStore firstKey scannerHost [] rfl
  have filed : scannedStore.proxy.allSessions.find firstKey = some 0 := Finmap.lookup_insert ∅
  have absent : newStore.proxy.allSessions.find firstKey = none := Finmap.lookup_empty firstKey
  exact absurd (filed.symm.trans ((same firstKey).trans absent)) (Option.some_ne_none 0)

/-- What a connection leaves whose client is let in. -/
structure Entered (store : SessionStore) (sessKey : Bytes) (next : SessionStore) : Prop where
  proxy : ∃ allSessions, next.proxy = { store.proxy with allSessions }
  heap : ∃ (session : SessionContext) (user : ProxyUser), next.heap = store.heap ++ [session] ∧
    session.user = some user ∧ session.sessionID = sessKey
  stored : ∀ key, next.proxy.allSessions.find key =
    if key = sessKey then some store.heap.length
    else if key = sessKey ++ lit "_old" ∧ (store.proxy.allSessions.find sessKey).isSome then
      store.proxy.allSessions.find sessKey
    else store.proxy.allSessions.find key

theorem newServerConn_entered {store after : SessionStore} {sessKey : Bytes} {ref : SessionRef}
    (found : store.proxy.allSessions.find sessKey = some ref) {attempts : List LoginAttempt}
    (entered : store.newServerConn sessKey attempts = .ok (after, true)) :
    ∃ username password user now, after = { store with
      heap := store.heap.set ref (ProxyContext.loggedIn (store.heap.session ref) sessKey
        username password (some user) now)
      held := store.held.erase ref } := by
  induction attempts with
  | nil =>
    obtain ⟨-, refused⟩ := Prod.mk.inj (Except.ok.inj entered)
    contradiction
  | cons attempt attempts ih =>
    obtain ⟨⟨next, refused⟩, called, rest⟩ := of_bind_ok entered
    obtain ⟨error, rfl⟩ | ⟨rfl, user, ref', found', rfl⟩ := passwordCallback_ok called
    · obtain ⟨err, rfl⟩ := Option.ne_none_iff_exists'.mp error
      exact ih rest
    · obtain rfl := Option.some.inj (found.symm.trans found')
      obtain ⟨rfl, -⟩ := Prod.mk.inj (Except.ok.inj rest)
      exact ⟨_, _, user, _, rfl⟩

theorem connect_entered {store next : SessionStore} {sessKey clientHost : Bytes}
    {attempts : List LoginAttempt}
    (connected : store.connect sessKey clientHost attempts = .ok (next, true)) :
    Entered store sessKey next := by
  obtain ⟨accepted, taken, entered⟩ := of_bind_ok connected
  have filed := accept_accepted taken
  have here : accepted.proxy.allSessions.find sessKey = some store.heap.length := by
    rw [filed.stored, if_pos rfl]
  obtain ⟨username, password, user, now, rfl⟩ := newServerConn_entered here entered
  have heap : accepted.heap.set store.heap.length (ProxyContext.loggedIn
      (accepted.heap.session store.heap.length) sessKey username password (some user) now) =
        store.heap ++ [ProxyContext.loggedIn (accepted.heap.session store.heap.length) sessKey
          username password (some user) now] := by
    rw [filed.heap, List.set_append_right _ _ (Nat.le_refl _), Nat.sub_self]
    rfl
  exact ⟨filed.proxy, ⟨_, user, heap, rfl, rfl⟩, filed.stored⟩

end SessionStore

/-- The store, the sessions accepted so far, and those that `AddSessionToUserList` has run for. -/
structure Intake where
  store : SessionStore
  accepted : List SessionRef
  filed : List SessionRef

inductive IntakeAction where
  | connect (sessKey clientHost : Bytes) (attempts : List LoginAttempt)
  | file (ref : SessionRef)
  | elsewhere

namespace Intake

/-- The rest of the program: it leaves both maps alone, and whose sessions they are. -/
structure Spares (before after : SessionStore) : Prop where
  allSessions : after.proxy.allSessions = before.proxy.allSessions
  userSessions : after.proxy.userSessions = before.proxy.userSessions
  grown : before.heap.length ≤ after.heap.length
  user : ∀ ref < before.heap.length, (after.heap.session ref).user = (before.heap.session ref).user
  sessionID : ∀ ref < before.heap.length,
    (after.heap.session ref).sessionID = (before.heap.session ref).sessionID

/-- `HandleClientConn` files a session when the remote side has accepted it, in its own time. -/
inductive Step (s : Intake) : IntakeAction → Intake → Prop where
  | connect {store : SessionStore} {sessKey clientHost : Bytes} {attempts : List LoginAttempt}
      (entered : s.store.connect sessKey clientHost attempts = .ok (store, true)) :
      Step s (.connect sessKey clientHost attempts)
        { s with store, accepted := s.store.heap.length :: s.accepted }
  | file {ref : SessionRef} {proxy : ProxyContext} (member : ref ∈ s.accepted)
      (added : s.store.proxy.addSessionToUserList ref (s.store.heap.session ref) = .ok proxy) :
      Step s (.file ref) { s with store := { s.store with proxy }, filed := ref :: s.filed }
  | elsewhere {store : SessionStore} (spares : Spares s.store store) :
      Step s .elsewhere { s with store }

/-- A proxy before its first connection. -/
structure Start (s : Intake) : Prop where
  allSessions : s.store.proxy.allSessions.content = ∅
  userSessions : s.store.proxy.userSessions.content = ∅
  accepted : s.accepted = []
  filed : s.filed = []

/-- Where the session's user has its sessions, the session is among them. -/
def Listed (s : Intake) (ref : SessionRef) : Prop :=
  ∃ user, (s.store.heap.session ref).user = some user ∧
    ∃ sessions, s.store.proxy.userSessions.find user.getKey = some sessions ∧
      ∃ id, sessions.lookup id = some ref

structure NothingLost (s : Intake) : Prop where
  stored : ∀ ref ∈ s.accepted, ∃ key, s.store.proxy.allSessions.find key = some ref
  listed : ∀ ref ∈ s.filed, s.Listed ref
  apart : ∀ key key' ref, s.store.proxy.allSessions.find key = some ref →
    s.store.proxy.allSessions.find key' = some ref → key = key'
  apartListed : ∀ user sessions id id' ref,
    s.store.proxy.userSessions.find user = some sessions → sessions.lookup id = some ref →
      sessions.lookup id' = some ref → id = id'

/-- A connection finds the place for the session it moves aside empty, or has none to move; a
session finds no other one under its ID. -/
def Meets (s : Intake) : IntakeAction → Prop
  | .connect sessKey _ _ => s.store.proxy.allSessions.find sessKey = none ∨
      s.store.proxy.allSessions.find (sessKey ++ lit "_old") = none
  | .file ref => ∀ user sessions other, (s.store.heap.session ref).user = some user →
      s.store.proxy.userSessions.find user.getKey = some sessions →
        sessions.lookup (s.store.heap.session ref).getID = some other → other = ref
  | .elsewhere => True

/-- What holds in every run. -/
structure Sound (s : Intake) : Prop where
  accepted : ∀ key ref, s.store.proxy.allSessions.find key = some ref → ref ∈ s.accepted
  allocated : ∀ ref ∈ s.accepted, ref < s.store.heap.length
  filed : ∀ ref ∈ s.filed, ref ∈ s.accepted
  entries : ∀ key sessions id ref, s.store.proxy.userSessions.find key = some sessions →
    sessions.lookup id = some ref → ref ∈ s.filed ∧ (s.store.heap.session ref).sessionID = id ∧
      ∃ user, (s.store.heap.session ref).user = some user ∧ user.getKey = key

variable {s s' : Intake} {action : IntakeAction}

theorem Start.sound (start : s.Start) : s.Sound := by
  refine ⟨fun key ref found => ?_, fun ref member => ?_, fun ref member => ?_,
    fun key sessions id ref found => ?_⟩
  · rw [MapVar.find, start.allSessions] at found
    contradiction
  · rw [start.accepted] at member
    contradiction
  · rw [start.filed] at member
    contradiction
  · rw [MapVar.find, start.userSessions] at found
    contradiction

theorem Start.nothingLost (start : s.Start) : s.NothingLost := by
  refine ⟨fun ref member => ?_, fun ref member => ?_, fun key key' ref found => ?_,
    fun user sessions id id' ref found => ?_⟩
  · rw [start.accepted] at member
    contradiction
  · rw [start.filed] at member
    contradiction
  · rw [MapVar.find, start.allSessions] at found
    contradiction
  · rw [MapVar.find, start.userSessions] at found
    contradiction

theorem lookup_getD_empty {listed : Option (GoMap Bytes SessionRef)} {id : Bytes} {ref : SessionRef}
    (found : (listed.getD ∅).lookup id = some ref) :
    ∃ sessions, listed = some sessions ∧ sessions.lookup id = some ref := by
  cases listed with
  | none =>
    rw [Option.getD_none, Finmap.lookup_empty] at found
    contradiction
  | some sessions => exact ⟨sessions, rfl, found⟩

/-- What `AddSessionToUserList` makes of the two maps. -/
theorem file_finds {proxy next : ProxyContext} {ref : SessionRef} {session : SessionContext}
    (added : proxy.addSessionToUserList ref session = .ok next) :
    next.allSessions = proxy.allSessions ∧ ∃ user, session.user = some user ∧
      ∀ key, next.userSessions.find key = if key = user.getKey then
        some (((proxy.userSessions.find user.getKey).getD ∅).insert session.getID ref)
        else proxy.userSessions.find key := by
  obtain ⟨user, entries, owner, made, rfl⟩ := ProxyContext.addSessionToUserList_ok added
  refine ⟨rfl, user, owner, fun key => ?_⟩
  rw [MapVar.find_some, lookup_insert_if, made, MapVar.find_some, MapVar.find_some]

theorem Sound.step (sound : s.Sound) (step : s.Step action s') : s'.Sound := by
  cases step with
  | @connect store sessKey clientHost attempts entered =>
    obtain ⟨⟨allSessions, same⟩, ⟨session, user, heap, owner, id⟩, stored⟩ :=
      SessionStore.connect_entered entered
    refine ⟨fun key ref found => ?_, fun ref member => ?_,
      fun ref member => List.mem_cons_of_mem _ (sound.filed ref member),
      fun key sessions id ref found listed => ?_⟩
    · rw [stored] at found
      split at found
      · exact Option.some.inj found ▸ List.mem_cons_self
      · split at found
        · exact List.mem_cons_of_mem _ (sound.accepted sessKey ref found)
        · exact List.mem_cons_of_mem _ (sound.accepted key ref found)
    · rw [heap, List.length_append, List.length_singleton]
      obtain rfl | old := List.mem_cons.mp member
      · exact Nat.lt_succ_self _
      · exact Nat.lt_succ_of_lt (sound.allocated ref old)
    · rw [same] at found
      have entry := sound.entries key sessions id ref found listed
      rw [heap, session_append, if_neg (sound.allocated ref (sound.filed ref entry.1)).ne]
      exact entry
  | @file ref proxy member added =>
    obtain ⟨all, user, owner, finds⟩ := file_finds added
    refine ⟨fun key other found => sound.accepted key other (all ▸ found), sound.allocated,
      fun other filed => ?_, fun key sessions id other found listed => ?_⟩
    · obtain rfl | old := List.mem_cons.mp filed
      · exact member
      · exact sound.filed other old
    · have before {held : GoMap Bytes SessionRef}
          (found : s.store.proxy.userSessions.find key = some held)
          (listed : held.lookup id = some other) := sound.entries key held id other found listed
      rw [finds] at found
      split at found
      · next same =>
        obtain rfl := Option.some.inj found
        rw [lookup_insert_if] at listed
        split at listed
        · next here =>
          obtain rfl := Option.some.inj listed
          exact ⟨List.mem_cons_self, here.symm, user, owner, same.symm⟩
        · obtain ⟨held, filed, stored⟩ := lookup_getD_empty listed
          exact (before (same ▸ filed) stored).imp_left (List.mem_cons_of_mem _)
      · exact (before found listed).imp_left (List.mem_cons_of_mem _)
  | @elsewhere store spares =>
    refine ⟨fun key ref found => sound.accepted key ref (spares.allSessions ▸ found),
      fun ref member => Nat.lt_of_lt_of_le (sound.allocated ref member) spares.grown, sound.filed,
      fun key sessions id ref found listed => ?_⟩
    obtain ⟨filed, sameID, owner⟩ :=
      sound.entries key sessions id ref (spares.userSessions ▸ found) listed
    have allocated := sound.allocated ref (sound.filed ref filed)
    exact ⟨filed, (spares.sessionID ref allocated).trans sameID, spares.user ref allocated ▸ owner⟩

/-- A session is filed under its own ID. -/
theorem Sound.apartListed (sound : s.Sound) (key : Bytes) (sessions : GoMap Bytes SessionRef)
    (id id' : Bytes) (ref : SessionRef) (found : s.store.proxy.userSessions.find key = some sessions)
    (here : sessions.lookup id = some ref) (there : sessions.lookup id' = some ref) : id = id' := by
  obtain ⟨-, one, -⟩ := sound.entries key sessions id ref found here
  obtain ⟨-, other, -⟩ := sound.entries key sessions id' ref found there
  exact one.symm.trans other

/-- `_old` makes another key. -/
theorem old_ne (sessKey : Bytes) : sessKey ++ lit "_old" ≠ sessKey := by
  intro same
  have lengths := congrArg List.length same
  rw [List.length_append, show (lit "_old").length = 4 from rfl] at lengths
  omega

/-- Where a session was before the connection that finds it under `key`. -/
theorem connect_origin (sound : s.Sound) {store : SessionStore} {sessKey : Bytes}
    (entered : SessionStore.Entered s.store sessKey store) {key : Bytes} {ref : SessionRef}
    (found : store.proxy.allSessions.find key = some ref) :
    (key = sessKey ∧ ref = s.store.heap.length) ∨
      (key ≠ sessKey ∧ ref ∈ s.accepted ∧
        ((key = sessKey ++ lit "_old" ∧ s.store.proxy.allSessions.find sessKey = some ref) ∨
          ((key = sessKey ++ lit "_old" → s.store.proxy.allSessions.find sessKey = none) ∧
            s.store.proxy.allSessions.find key = some ref))) := by
  rw [entered.stored] at found
  split at found
  · next same => exact .inl ⟨same, (Option.some.inj found).symm⟩
  · next other =>
    split at found
    · next moved => exact .inr ⟨other, sound.accepted sessKey ref found, .inl ⟨moved.1, found⟩⟩
    · next unmoved =>
      refine .inr ⟨other, sound.accepted key ref found, .inr ⟨fun same => ?_, found⟩⟩
      exact Option.not_isSome_iff_eq_none.mp fun present => unmoved ⟨same, present⟩

/-- One entry of one map has gone to make room for the new session: nobody else has it. -/
theorem connect_iff (sound : s.Sound) (kept : s.NothingLost) {store : SessionStore}
    {sessKey clientHost : Bytes} {attempts : List LoginAttempt}
    (connected : s.store.connect sessKey clientHost attempts = .ok (store, true)) :
    NothingLost { s with store, accepted := s.store.heap.length :: s.accepted } ↔
      s.Meets (.connect sessKey clientHost attempts) := by
  have entered := SessionStore.connect_entered connected
  obtain ⟨⟨allSessions, same⟩, ⟨session, user, heap, owner, id⟩, stored⟩ := entered
  have fresh {ref : SessionRef} (member : ref ∈ s.accepted) : ref ≠ s.store.heap.length :=
    (sound.allocated ref member).ne
  have users : store.proxy.userSessions = s.store.proxy.userSessions := by rw [same]
  constructor
  · intro still
    refine or_iff_not_imp_left.mpr fun present => ?_
    by_contra displaced
    obtain ⟨ref, found⟩ := Option.ne_none_iff_exists'.mp displaced
    obtain ⟨key, elsewhere⟩ := still.stored ref
      (List.mem_cons_of_mem _ (sound.accepted _ ref found))
    obtain ⟨-, new⟩ | ⟨-, -, ⟨-, before⟩ | ⟨free, before⟩⟩ := connect_origin sound
      (SessionStore.connect_entered connected) elsewhere
    · exact fresh (sound.accepted _ ref found) new
    · exact old_ne sessKey (kept.apart _ _ ref found before)
    · exact present (free (kept.apart _ _ ref before found))
  · intro meets
    refine ⟨fun ref member => ?_, fun ref filed => ?_, fun key key' ref here there => ?_, ?_⟩
    · obtain rfl | old := List.mem_cons.mp member
      · exact ⟨sessKey, by rw [stored, if_pos rfl]⟩
      · obtain ⟨key, found⟩ := kept.stored ref old
        by_cases moved : key = sessKey
        · subst moved
          refine ⟨key ++ lit "_old", ?_⟩
          rw [stored, if_neg (old_ne key), if_pos ⟨rfl, found ▸ rfl⟩, found]
        · refine ⟨key, ?_⟩
          rw [stored, if_neg moved, if_neg, found]
          rintro ⟨rfl, present⟩
          obtain missing | missing := meets
          · rw [missing] at present
            contradiction
          · rw [missing] at found
            contradiction
    · obtain ⟨user, owner, sessions, listed, id, found⟩ := kept.listed ref filed
      refine ⟨user, ?_, sessions, users ▸ listed, id, found⟩
      rw [heap, session_append, if_neg (fresh (sound.filed ref filed))]
      exact owner
    · have one := connect_origin sound (SessionStore.connect_entered connected) here
      have other := connect_origin sound (SessionStore.connect_entered connected) there
      obtain ⟨rfl, rfl⟩ | ⟨apart, old, origin⟩ := one
      · obtain ⟨rfl, -⟩ | ⟨-, old, -⟩ := other
        · rfl
        · exact absurd rfl (fresh old)
      · obtain ⟨-, new⟩ | ⟨apart', -, origin'⟩ := other
        · exact absurd new (fresh old)
        · obtain ⟨rfl, before⟩ | ⟨-, before⟩ := origin
          · obtain ⟨rfl, -⟩ | ⟨-, before'⟩ := origin'
            · rfl
            · exact absurd (kept.apart _ _ ref before' before) apart'
          · obtain ⟨rfl, before'⟩ | ⟨-, before'⟩ := origin'
            · exact absurd (kept.apart _ _ ref before before') apart
            · exact kept.apart _ _ ref before before'
    · exact (sound.step (.connect connected)).apartListed

theorem file_iff (sound : s.Sound) (kept : s.NothingLost) {ref : SessionRef} {proxy : ProxyContext}
    (member : ref ∈ s.accepted)
    (added : s.store.proxy.addSessionToUserList ref (s.store.heap.session ref) = .ok proxy) :
    NothingLost { s with store := { s.store with proxy }, filed := ref :: s.filed } ↔
      s.Meets (.file ref) := by
  obtain ⟨all, user, owner, finds⟩ := file_finds added
  have mine : proxy.userSessions.find user.getKey = some
      (((s.store.proxy.userSessions.find user.getKey).getD ∅).insert
        (s.store.heap.session ref).getID ref) := by
    rw [finds, if_pos rfl]
  constructor
  · intro still user' sessions other owner' listed found
    obtain rfl := Option.some.inj (owner.symm.trans owner')
    obtain ⟨filed, -, holder, held, sameKey⟩ := sound.entries _ sessions _ other listed found
    obtain ⟨holder', held', sessions', listed', id, found'⟩ :=
      still.listed other (List.mem_cons_of_mem _ filed)
    obtain rfl := Option.some.inj (held.symm.trans held')
    rw [sameKey] at listed'
    obtain rfl := Option.some.inj (mine.symm.trans listed')
    rw [lookup_insert_if, listed, Option.getD_some] at found'
    split at found'
    · exact (Option.some.inj found').symm
    · next apart => exact absurd (kept.apartListed _ sessions _ _ other listed found' found) apart
  · intro meets
    refine ⟨fun other member => ?_, fun other filed => ?_, ?_, ?_⟩
    · obtain ⟨key, found⟩ := kept.stored other member
      exact ⟨key, all ▸ found⟩
    · obtain rfl | old := List.mem_cons.mp filed
      · exact ⟨user, owner, _, mine, _, Finmap.lookup_insert _⟩
      · obtain ⟨holder, held, sessions, listed, id, found⟩ := kept.listed other old
        by_cases same : holder.getKey = user.getKey
        · rw [same] at listed
          refine ⟨holder, held, _, (congrArg _ same).trans mine, ?_⟩
          by_cases here : id = (s.store.heap.session ref).getID
          · subst here
            obtain rfl := meets user sessions other owner listed found
            exact ⟨_, Finmap.lookup_insert _⟩
          · refine ⟨id, ?_⟩
            rw [lookup_insert_if, if_neg here, listed, Option.getD_some, found]
        · exact ⟨holder, held, sessions, by rw [finds, if_neg same, listed], id, found⟩
    · exact fun key key' other here there => kept.apart key key' other (all ▸ here) (all ▸ there)
    · exact (sound.step (.file member added)).apartListed

theorem NothingLost.elsewhere (sound : s.Sound) (kept : s.NothingLost) {store : SessionStore}
    (spares : Spares s.store store) : NothingLost { s with store } := by
  obtain ⟨all, users, grown, owner, id⟩ := spares
  refine ⟨fun ref member => ?_, fun ref filed => ?_, fun key key' ref here there => ?_,
    (sound.step (.elsewhere ⟨all, users, grown, owner, id⟩)).apartListed⟩
  · obtain ⟨key, found⟩ := kept.stored ref member
    exact ⟨key, all ▸ found⟩
  · obtain ⟨holder, held, sessions, listed, id, found⟩ := kept.listed ref filed
    have allocated := sound.allocated ref (sound.filed ref filed)
    exact ⟨holder, (owner ref allocated).trans held, sessions, users ▸ listed, id, found⟩
  · exact kept.apart key key' ref (all ▸ here) (all ▸ there)

theorem nothingLost_iff (sound : s.Sound) (kept : s.NothingLost) (step : s.Step action s') :
    s'.NothingLost ↔ s.Meets action := by
  cases step with
  | connect entered => exact connect_iff sound kept entered
  | file member added => exact file_iff sound kept member added
  | elsewhere spares => exact iff_of_true (kept.elsewhere sound spares) trivial

/-- In a run no session is ever lost exactly when each of its steps meets the condition. -/
theorem nothing_lost_iff {history : List (Intake × IntakeAction)} (start : s.Start)
    (passes : Passes Step s history s') :
    ((∀ entry ∈ history, entry.1.NothingLost) ∧ s'.NothingLost) ↔
      ∀ entry ∈ history, entry.1.Meets entry.2 :=
  passes_keeps_iff passes (fun _ _ _ => Sound.step) (fun _ _ _ => nothingLost_iff) start.sound
    start.nothingLost

/-- A proxy without users lets everybody in. -/
structure Open (store : SessionStore) : Prop where
  log : store.proxy.log ≠ none
  users : store.proxy.users.size = 0
  allSessions : store.proxy.allSessions ≠ none

theorem open_new : Open SessionStore.newStore :=
  ⟨Option.some_ne_none _, by decide, Option.some_ne_none _⟩

theorem Open.connect {store : SessionStore} (open' : Open store) (sessKey clientHost : Bytes)
    (attempt : LoginAttempt) :
    ∃ next, store.connect sessKey clientHost [attempt] = .ok (next, true) ∧ Open next := by
  obtain ⟨_, taken, allSessions, rfl, made, stored⟩ :=
    ProxyContext.acceptConnection_returns open'.allSessions store.heap sessKey clientHost
  obtain ⟨logger, log⟩ := Option.ne_none_iff_exists'.mp open'.log
  have here : allSessions.find sessKey = some store.heap.length := by rw [stored, if_pos rfl]
  have empty : ¬ 0 < store.proxy.users.size := open'.users ▸ Nat.lt_irrefl 0
  let heap : SessionHeap := store.heap ++ [{ clientHost := clientHost }]
  let session := ProxyContext.loggedIn (heap.session store.heap.length) sessKey attempt.username
    attempt.password (some (store.proxy.defaultUser attempt.username attempt.password)) attempt.now
  refine ⟨{
      proxy := { store.proxy with allSessions }
      heap := heap.set store.heap.length session
      held := (store.heap.length :: store.held).erase store.heap.length }, ?_,
    ⟨open'.log, open'.users, made⟩⟩
  simp only [SessionStore.connect, SessionStore.accept, taken, SessionStore.newServerConn,
    SessionStore.passwordCallback, ProxyContext.passwordCallback, ProxyContext.authenticateUser,
    log, deref_some, if_neg empty, here, bind, Except.bind, pure, Except.pure]
  rfl

/-- Two clients from one address and port, at a proxy that has just been made: the session of the
first is preserved. -/
theorem nothing_lost_again : ∃ one two : SessionStore,
    SessionStore.newStore.connect SessionStore.firstKey SessionStore.scannerHost
      [⟨lit "alice", lit "one", zeroTime⟩] = .ok (one, true) ∧
    one.connect SessionStore.firstKey SessionStore.scannerHost
      [⟨lit "bob", lit "two", zeroTime⟩] = .ok (two, true) ∧
    NothingLost ⟨one, [0], []⟩ ∧ NothingLost ⟨two, [one.heap.length, 0], []⟩ := by
  obtain ⟨one, first, open'⟩ := open_new.connect SessionStore.firstKey
    SessionStore.scannerHost ⟨lit "alice", lit "one", zeroTime⟩
  obtain ⟨two, second, -⟩ := open'.connect SessionStore.firstKey
    SessionStore.scannerHost ⟨lit "bob", lit "two", zeroTime⟩
  let s₀ : Intake := ⟨SessionStore.newStore, [], []⟩
  let s₁ : Intake := ⟨one, [0], []⟩
  let s₂ : Intake := ⟨two, [one.heap.length, 0], []⟩
  have passes : Passes Step s₀ [(s₀, .connect _ _ _), (s₁, .connect _ _ _)] s₂ :=
    ⟨rfl, _, .connect first, rfl, _, .connect second, rfl⟩
  have none' : one.proxy.allSessions.find (SessionStore.firstKey ++ lit "_old") = none := by
    rw [(SessionStore.connect_entered first).stored, if_neg (old_ne _), if_neg]
    · exact Finmap.lookup_empty _
    · rintro ⟨-, there⟩
      rw [show s₀.store.proxy.allSessions.find SessionStore.firstKey = none from
        Finmap.lookup_empty _] at there
      contradiction
  have kept := (nothing_lost_iff ⟨rfl, rfl, rfl, rfl⟩ passes).mpr (by
    simp only [List.forall_mem_cons]
    exact ⟨.inl (Finmap.lookup_empty _), .inr none', List.forall_mem_nil _⟩)
  exact ⟨one, two, first, second, kept.1 (s₁, _) (List.mem_cons_of_mem _ List.mem_cons_self), kept.2⟩

/-- Three clients from one address: the session of the first is gone. -/
theorem third_connection_loses :
    ¬ ∀ (s s' : Intake) (history : List (Intake × IntakeAction)), s.Start →
      Passes Step s history s' → s'.NothingLost := by
  intro claim
  let key := SessionStore.firstKey
  let attempt : LoginAttempt := ⟨lit "alice", lit "one", zeroTime⟩
  obtain ⟨one, first, open₁⟩ := open_new.connect key SessionStore.scannerHost attempt
  obtain ⟨two, second, open₂⟩ := open₁.connect key SessionStore.scannerHost attempt
  obtain ⟨three, third, -⟩ := open₂.connect key SessionStore.scannerHost attempt
  let s₀ : Intake := ⟨SessionStore.newStore, [], []⟩
  let s₁ : Intake := ⟨one, [s₀.store.heap.length], []⟩
  let s₂ : Intake := ⟨two, [s₁.store.heap.length, s₀.store.heap.length], []⟩
  have start : s₀.Start := ⟨rfl, rfl, rfl, rfl⟩
  have step₁ : Step s₀ (.connect key SessionStore.scannerHost [attempt]) s₁ := .connect first
  have step₂ : Step s₁ (.connect key SessionStore.scannerHost [attempt]) s₂ := .connect second
  have step₃ := Step.connect (s := s₂) third
  have kept₂ : s₂.NothingLost := claim s₀ s₂ [(s₀, _), (s₁, _)] start
    ⟨rfl, _, step₁, rfl, _, step₂, rfl⟩
  have kept₃ := claim s₀ _ [(s₀, _), (s₁, _), (s₂, _)] start
    ⟨rfl, _, step₁, rfl, _, step₂, rfl, _, step₃, rfl⟩
  have taken₁ : one.proxy.allSessions.find key = some s₀.store.heap.length := by
    rw [(SessionStore.connect_entered first).stored, if_pos rfl]
  have taken₂ : two.proxy.allSessions.find key = some s₁.store.heap.length := by
    rw [(SessionStore.connect_entered second).stored, if_pos rfl]
  have moved₂ : two.proxy.allSessions.find (key ++ lit "_old") = some s₀.store.heap.length := by
    rw [(SessionStore.connect_entered second).stored, if_neg (old_ne key),
      if_pos ⟨rfl, taken₁ ▸ rfl⟩, taken₁]
  obtain free | free := (nothingLost_iff ((start.sound.step step₁).step step₂) kept₂ step₃).mp kept₃
  · rw [show s₂.store = two from rfl, taken₂] at free
    contradiction
  · rw [show s₂.store = two from rfl, moved₂] at free
    contradiction

end Intake
end SSHProxyPlus
