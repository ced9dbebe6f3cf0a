import SSHProxyPlus.Proxy.Authentication

/-! Users that are removed: whom the proxy has turned away it goes on turning away, as long
as somebody is left who may log in. -/
namespace SSHProxyPlus
open Go

namespace ProxyContext

def removeProxyUsers (proxy : ProxyContext) (removals : List (Bytes × Bytes)) : ProxyContext :=
  removals.foldl (fun proxy pair => (proxy.removeProxyUser pair.1 pair.2).1) proxy

/-- `AuthenticateUser` returns an error. -/
def Rejects (proxy : ProxyContext) (u p : Bytes) : Prop :=
  ∃ err, proxy.authenticateUser u p = .ok (.error err)

/-- Neither the pair is registered nor the name with a blank password. -/
structure Unregistered (users : UserTable) (u p : Bytes) : Prop where
  pair : users.find (buildProxyUserKey u p) = none
  blank : ∀ val, users.find (buildProxyUserKey u []) = some val →
    ∃ user, val = some user ∧ user.password ≠ []

variable {proxy : ProxyContext} {u p : Bytes}

theorem getProxyUser_error_iff {cloneUser : Bool} :
    (∃ err, proxy.getProxyUser u p cloneUser = .ok (.error err)) ↔
      Unregistered proxy.users u p := by
  unfold getProxyUser
  constructor
  · rintro ⟨err, refused⟩
    cases exactly : proxy.users.find (buildProxyUserKey u p) with
    | some val =>
      simp only [exactly] at refused
      cases cloneUser with
      | false => exact absurd (Except.ok.inj refused) (by simp)
      | true =>
        obtain ⟨user, -, found⟩ := of_bind_ok refused
        exact absurd (Except.ok.inj found) (by simp)
    | none =>
      refine ⟨exactly, fun val blank => ?_⟩
      simp only [exactly, blank] at refused
      obtain ⟨user, followed, found⟩ := of_bind_ok refused
      refine ⟨user, deref_ok followed, fun noPassword => ?_⟩
      rw [if_pos noPassword] at found
      exact absurd (Except.ok.inj found) (by simp)
  · rintro ⟨pair, blank⟩
    simp only [pair]
    cases stored : proxy.users.find (buildProxyUserKey u []) with
    | none => exact ⟨notAValidUser, rfl⟩
    | some val =>
      obtain ⟨user, rfl, protect⟩ := blank val stored
      refine ⟨notAValidUser, ?_⟩
      simp only [deref_some, bind, Except.bind, if_neg protect]
      rfl

/-- Where nobody is registered, everybody is let in. -/
theorem authenticateUser_empty (empty : ¬ 0 < proxy.users.size) :
    proxy.authenticateUser u p = .ok (.ok (some (proxy.defaultUser u p))) := if_neg empty

theorem rejects_of_unregistered (some' : 0 < proxy.users.size)
    (required : proxy.requireValidPassword = true) (unregistered : Unregistered proxy.users u p) :
    proxy.Rejects u p := by
  obtain ⟨err, looked⟩ := (@getProxyUser_error_iff proxy u p true).mpr unregistered
  refine ⟨err, ?_⟩
  unfold authenticateUser
  rw [if_pos some', looked]
  simp only [bind, Except.bind, required, if_true]
  rfl

theorem Rejects.registered (rejected : proxy.Rejects u p) : 0 < proxy.users.size := by
  obtain ⟨err, refused⟩ := rejected
  by_contra empty
  rw [authenticateUser_empty empty] at refused
  exact absurd (Except.ok.inj refused) (by simp)

theorem Rejects.unregistered (rejected : proxy.Rejects u p) : Unregistered proxy.users u p := by
  have some' := rejected.registered
  obtain ⟨err, refused⟩ := rejected
  unfold authenticateUser at refused
  rw [if_pos some'] at refused
  obtain ⟨result, looked, rest⟩ := of_bind_ok refused
  cases result with
  | error text => exact getProxyUser_error_iff.mp ⟨text, looked⟩
  | ok pair =>
    obtain ⟨user, blank⟩ := pair
    have entered : (.ok (.ok user) : Except Panic (Except Bytes (Option ProxyUser))) =
        .ok (.error err) := by
      cases blank with
      | true =>
        obtain ⟨_, _, entered⟩ := of_bind_ok rest
        exact entered
      | false => exact rest
    exact absurd (Except.ok.inj entered) (by simp)

/-- Removing does not register anybody. -/
theorem Unregistered.mono {users fewer : UserTable} (unregistered : Unregistered users u p)
    (among : ∀ key val, fewer.find key = some val → users.find key = some val) :
    Unregistered fewer u p where
  pair := by
    cases stored : fewer.find (buildProxyUserKey u p) with
    | none => rfl
    | some val => exact (among _ _ stored).symm.trans unregistered.pair
  blank val stored := unregistered.blank val (among _ _ stored)

theorem removeProxyUsers_changes (proxy : ProxyContext) (removals : List (Bytes × Bytes)) :
    ∃ users, proxy.removeProxyUsers removals = { proxy with users } ∧
      ∀ key val, users.find key = some val → proxy.users.find key = some val := by
  induction removals generalizing proxy with
  | nil => exact ⟨proxy.users, rfl, fun key val stored => stored⟩
  | cons pair removals ih =>
    obtain ⟨users, removed, among⟩ := removeProxyUser_changes proxy pair.1 pair.2
    obtain ⟨fewer, rest, still⟩ := ih { proxy with users }
    refine ⟨fewer, ?_, fun key val stored => among key val (still key val stored)⟩
    exact (congrArg (fun next => removeProxyUsers next removals) removed).trans rest

/-- Who is turned away is turned away after any removals, exactly as long as they leave
anybody in the table. -/
theorem rejects_after_removals_iff (required : proxy.requireValidPassword = true)
    (rejected : proxy.Rejects u p) (removals : List (Bytes × Bytes)) :
    (proxy.removeProxyUsers removals).Rejects u p ↔
      0 < (proxy.removeProxyUsers removals).users.size := by
  obtain ⟨users, removed, among⟩ := proxy.removeProxyUsers_changes removals
  rw [removed]
  exact ⟨fun still => still.registered, fun left =>
    rejects_of_unregistered left required (rejected.unregistered.mono among)⟩

end ProxyContext

/-- A proxy that was set up in some way, and whose users and password rule were changed
since. -/
inductive Configured (signer : Option Signer) : ProxyContext → Prop where
  | obtained {proxy : ProxyContext} (from' : Obtained signer proxy) : Configured signer proxy
  | users {proxy next : ProxyContext} (before : Configured signer proxy) (op : UserOp)
      (applied : proxy.applyUserOp op = .ok next) : Configured signer next
  | rule {proxy : ProxyContext} (before : Configured signer proxy) (requireValidPassword : Bool) :
      Configured signer { proxy with requireValidPassword }

/-- A proxy with one user that asks for valid passwords. -/
def guardedProxy (user : ProxyUser) : ProxyContext :=
  { makeNewProxy none with
    users := some ((∅ : GoMap Bytes (Option ProxyUser)).insert (pairKey user.pair) (some user))
    requireValidPassword := true }

theorem guardedProxy_configured (user : ProxyUser) : Configured none (guardedProxy user) :=
  .rule (.users (.obtained .new) (.add user) rfl) true

theorem guardedProxy_rejects {user : ProxyUser} {u p : Bytes}
    (pair : buildProxyUserKey u p ≠ pairKey user.pair)
    (blank : buildProxyUserKey u [] ≠ pairKey user.pair) : (guardedProxy user).Rejects u p := by
  have absent : ∀ key, key ≠ pairKey user.pair → (guardedProxy user).users.find key = none := by
    intro key other
    exact (Finmap.lookup_insert_of_ne _ other).trans (Finmap.lookup_empty key)
  refine ProxyContext.rejects_of_unregistered ?_ rfl ⟨absent _ pair, fun val stored => ?_⟩
  · exact (MapVar.size_pos_iff _).mpr ⟨_, Finmap.mem_insert.mpr (Or.inl rfl)⟩
  · rw [absent _ blank] at stored
    contradiction

/-- Its user is removed, and everybody is let in. -/
theorem guardedProxy_opens (user : ProxyUser) (u p : Bytes) :
    ¬ ((guardedProxy user).removeProxyUsers [user.pair]).Rejects u p := by
  intro rejected
  obtain ⟨key, member⟩ := (MapVar.size_pos_iff _).mp rejected.registered
  have found : (guardedProxy user).users.find (buildProxyUserKey user.username user.password) =
      some (some user) := Finmap.lookup_insert _
  have left : ((guardedProxy user).removeProxyUsers [user.pair]).users =
      (guardedProxy user).users.delete (pairKey user.pair) := by
    simp only [ProxyContext.removeProxyUsers, List.foldl_cons, List.foldl_nil, ProxyUser.pair,
      ProxyContext.removeProxyUser, found]
    rfl
  rw [left] at member
  obtain ⟨other, inside⟩ := Finmap.mem_erase.mp member
  rcases Finmap.mem_insert.mp inside with same | none
  · exact other same
  · exact Finmap.notMem_empty none

/-- A proxy with two users. -/
def sharedProxy : ProxyContext :=
  { guardedProxy { username := lit "a", password := lit "b" } with
    users := some ((∅ : GoMap Bytes (Option ProxyUser)).insert (pairKey (lit "a", lit "b"))
      (some { username := lit "a", password := lit "b" }) |>.insert (pairKey (lit "e", lit "f"))
        (some { username := lit "e", password := lit "f" })) }

/-- One of them is removed. -/
theorem rejects_after_removals_iff_shared :
    (sharedProxy.removeProxyUsers [(lit "e", lit "f")]).Rejects (lit "c") (lit "d") :=
  (ProxyContext.rejects_after_removals_iff rfl ⟨_, rfl⟩ _).mpr (by decide +kernel)

/-- Removing the only user opens the proxy to those it has turned away. -/
theorem removals_open_the_door :
    ¬ ∀ (signer : Option Signer) (proxy : ProxyContext), Configured signer proxy →
      proxy.requireValidPassword = true → ∀ u p, proxy.Rejects u p →
        ∀ removals : List (Bytes × Bytes), (proxy.removeProxyUsers removals).Rejects u p := by
  intro shut
  let user : ProxyUser := { username := lit "a", password := lit "b" }
  have rejected : (guardedProxy user).Rejects (lit "c") (lit "d") :=
    guardedProxy_rejects (by decide) (by decide)
  exact guardedProxy_opens user _ _
    (shut none _ (guardedProxy_configured user) rfl _ _ rejected [user.pair])

end SSHProxyPlus
