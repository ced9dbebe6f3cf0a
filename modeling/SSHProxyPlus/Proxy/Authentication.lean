import SSHProxyPlus.Proxy.Context
import SSHProxyPlus.Table.Keyed

/-! Who may log in. The table of users is meant to be keyed by username and
password; the reference table is, and the proxy agrees with it where the keys it
computes tell the pairs apart. -/
namespace SSHProxyPlus
open Go Table

def ProxyUser.pair (user : ProxyUser) : Bytes × Bytes := (user.username, user.password)

def pairKey (pair : Bytes × Bytes) : Bytes := buildProxyUserKey pair.1 pair.2

inductive UserOp where
  | add (user : ProxyUser)
  | remove (username password : Bytes)

def UserOp.pair : UserOp → Bytes × Bytes
  | .add user => user.pair
  | .remove username password => (username, password)

namespace ProxyContext

def applyUserOp (proxy : ProxyContext) : UserOp → Except Panic ProxyContext
  | .add user => do
      let (proxy, _) ← proxy.addProxyUser user
      return proxy
  | .remove username password => return (proxy.removeProxyUser username password).1

def runUserOps (proxy : ProxyContext) (ops : List UserOp) : Except Panic ProxyContext :=
  ops.foldlM applyUserOp proxy

end ProxyContext

/-- Users by the pair they are registered with: the last one added and not removed. -/
abbrev UserReference := Reference (Bytes × Bytes) ProxyUser

namespace UserReference

def apply (t : UserReference) : UserOp → UserReference
  | .add user => t.add user.pair user
  | .remove username password => t.remove (username, password)

def run (t : UserReference) (ops : List UserOp) : UserReference := ops.foldl apply t

/-- The users a table starts with, each under its own pair. -/
def initial (users : UserTable) : UserReference := fun pair =>
  match users.find (pairKey pair) with
  | some (some user) => if user.pair = pair then some user else none
  | _ => none

open Classical in
/-- The answer the table is for: the user of the pair, then the user of the name with a
blank password, then the default user where nobody is registered or anybody may pass. -/
noncomputable def answer (t : UserReference) (proxy : ProxyContext) (u p : Bytes) :
    Except Bytes ProxyUser :=
  match t (u, p) with
  | some user => .ok user
  | none =>
      match t (u, []) with
      | some user => .ok user
      | none =>
          if t.IsEmpty ∨ proxy.requireValidPassword = false then .ok (proxy.defaultUser u p)
          else .error notAValidUser

end UserReference

/-- Every entry is a user, stored under its own key, and its pair is one of `S`. -/
def OwnKeyed (S : Set (Bytes × Bytes)) (users : UserTable) : Prop :=
  ∃ entries, users = some entries ∧ ∀ key val, entries.lookup key = some val →
    ∃ user, val = some user ∧ user.pair ∈ S ∧ pairKey user.pair = key

/-- The proxy answers for `(u, p)` as the reference table does, lets nobody in as another
user, and does not mind what happens to other pairs. -/
structure Agrees (S : Set (Bytes × Bytes)) (t : UserReference) (proxy : ProxyContext)
    (u p : Bytes) : Prop where
  answer : proxy.authenticateUser u p = .ok ((t.answer proxy u p).map some)
  owner : ∀ user, proxy.authenticateUser u p = .ok (.ok (some user)) →
    user.username = u ∧ (user.password = p ∨ user.password = [])
  frame : ∀ op next, op.pair ∈ S → op.pair ≠ (u, p) → (op.pair = (u, []) → t (u, p) ≠ none) →
    proxy.applyUserOp op = .ok next → (0 < next.users.size ↔ 0 < proxy.users.size) →
    next.authenticateUser u p = proxy.authenticateUser u p

theorem pairKey_injective_of_name {u p q : Bytes} (same : pairKey (u, p) = pairKey (u, q)) :
    p = q := by
  simpa [pairKey, buildProxyUserKey] using same

theorem pairKey_injective_of_blank {u v : Bytes} (same : pairKey (u, []) = pairKey (v, [])) :
    u = v := buildProxyUserKey_blank_injective same

/-- The proxy's table stands for `t`, and nothing it needs is nil. -/
structure Tracks (S : Set (Bytes × Bytes)) (proxy : ProxyContext) (t : UserReference) : Prop where
  table : ∃ entries, proxy.users = some entries ∧ Represents pairKey some S entries t
  owner : ∀ pair user, t pair = some user → user.pair = pair
  logging : proxy.log ≠ none

variable {S : Set (Bytes × Bytes)} {proxy : ProxyContext} {t : UserReference}

theorem initial_owner (users : UserTable) {pair : Bytes × Bytes} {user : ProxyUser}
    (found : UserReference.initial users pair = some user) : user.pair = pair := by
  unfold UserReference.initial at found
  split at found
  · split at found
    · next own => exact Option.some.inj found ▸ own
    · contradiction
  · contradiction

theorem tracks_initial (injective : Set.InjOn pairKey S) (own : OwnKeyed S proxy.users)
    (logging : proxy.log ≠ none) : Tracks S proxy (UserReference.initial proxy.users) := by
  obtain ⟨entries, made, each⟩ := own
  refine ⟨⟨entries, made, ?_⟩, fun pair user => initial_owner proxy.users, logging⟩
  have inside : ∀ pair user, UserReference.initial proxy.users pair = some user →
      entries.lookup (pairKey pair) = some (some user) := by
    intro pair user found
    unfold UserReference.initial at found
    rw [made, MapVar.find_some] at found
    split at found
    · next stored =>
      split at found
      · rwa [← Option.some.inj found]
      · contradiction
    · contradiction
  refine ⟨fun pair member => ?_, fun pair present => ?_, fun key member => ?_⟩
  · cases stored : entries.lookup (pairKey pair) with
    | none =>
      simp only [UserReference.initial, made, MapVar.find_some, stored, Option.map_none]
    | some val =>
      obtain ⟨user, rfl, userIn, sameKey⟩ := each _ _ stored
      have same : user.pair = pair := injective userIn member sameKey
      simp only [UserReference.initial, made, MapVar.find_some, stored, same, if_true,
        Option.map_some]
  · obtain ⟨user, found⟩ := Option.ne_none_iff_exists'.mp present
    obtain ⟨stored, same, storedIn, _⟩ := each _ _ (inside pair user found)
    obtain rfl : user = stored := Option.some.inj same
    exact initial_owner proxy.users found ▸ storedIn
  · obtain ⟨val, stored⟩ := Finmap.mem_iff.mp member
    obtain ⟨user, _, userIn, sameKey⟩ := each key val stored
    exact ⟨user.pair, userIn, sameKey⟩

/-- One call keeps the table in step with the reference and changes nothing else. -/
theorem Tracks.step (tracks : Tracks S proxy t) (injective : Set.InjOn pairKey S)
    (op : UserOp) (member : op.pair ∈ S) :
    ∃ users, proxy.applyUserOp op = .ok { proxy with users } ∧
      Tracks S { proxy with users } (t.apply op) := by
  obtain ⟨⟨entries, made, represents⟩, owner, logging⟩ := tracks
  cases op with
  | add user =>
    refine ⟨some (entries.insert (pairKey user.pair) (some user)), ?_, ?_⟩
    · simp only [ProxyContext.applyUserOp, ProxyContext.addProxyUser, made, MapVar.assign_some]
      rfl
    · refine ⟨⟨_, rfl, represents.add injective member user⟩, fun pair found same => ?_, logging⟩
      by_cases here : pair = user.pair
      · subst here
        rw [UserReference.apply, Reference.add_same] at same
        exact Option.some.inj same ▸ rfl
      · rw [UserReference.apply, Reference.add_other t user here] at same
        exact owner pair found same
  | remove username password =>
    have removed := represents.remove injective member
    refine ⟨some (entries.erase (pairKey (username, password))), ?_, ⟨_, rfl, removed⟩,
      fun pair found same => ?_, logging⟩
    · simp only [ProxyContext.applyUserOp, ProxyContext.removeProxyUser, made, MapVar.find_some]
      cases stored : entries.lookup (buildProxyUserKey username password) with
      | some val => rfl
      | none =>
        have absent : entries.erase (pairKey (username, password)) = entries := by
          apply Finmap.ext_lookup
          intro key
          by_cases same : key = pairKey (username, password)
          · subst same
            rw [Finmap.lookup_erase]
            exact stored.symm
          · rw [Finmap.lookup_erase_ne same]
        rw [absent, ← made]
        rfl
    · by_cases here : pair = (username, password)
      · subst here
        rw [UserReference.apply, Reference.remove_same] at same
        contradiction
      · rw [UserReference.apply, Reference.remove_other t here] at same
        exact owner pair found same

theorem Tracks.run (tracks : Tracks S proxy t) (injective : Set.InjOn pairKey S)
    (ops : List UserOp) (members : ∀ op ∈ ops, op.pair ∈ S) :
    ∃ next, proxy.runUserOps ops = .ok next ∧ Tracks S next (t.run ops) := by
  induction ops generalizing proxy t with
  | nil => exact ⟨proxy, rfl, tracks⟩
  | cons op ops ih =>
    obtain ⟨users, applied, tracks⟩ := tracks.step injective op (members op List.mem_cons_self)
    obtain ⟨next, rest, tracks⟩ :=
      ih tracks fun later member => members later (List.mem_cons_of_mem op member)
    refine ⟨next, ?_, tracks⟩
    rw [ProxyContext.runUserOps, List.foldlM_cons, applied]
    exact rest

/-- `GetProxyUser` finds what the reference has, first under the pair and then under the
name with a blank password. -/
theorem Tracks.getProxyUser (tracks : Tracks S proxy t) {u p : Bytes} (member : (u, p) ∈ S) :
    proxy.getProxyUser u p true = .ok (match t (u, p) with
      | some user => .ok (some user, false)
      | none => match t (u, []) with
        | some user => .ok (some user, true)
        | none => .error notAValidUser) := by
  obtain ⟨⟨entries, made, represents⟩, owner, -⟩ := tracks
  have exact' := represents.lookup (u, p) member
  unfold pairKey at exact'
  unfold ProxyContext.getProxyUser
  simp only [made, MapVar.find_some, exact', if_true]
  cases registered : t (u, p) with
  | some user => rfl
  | none =>
    simp only [Option.map_none]
    cases blank : t (u, []) with
    | some user =>
      have inside := represents.within (u, []) (by simp [blank])
      have stored := represents.lookup (u, []) inside
      have noPassword : user.password = [] := congrArg Prod.snd (owner _ _ blank)
      unfold pairKey at stored
      simp only [stored, blank, Option.map_some, deref_some, bind, Except.bind, noPassword, if_true]
      rfl
    | none =>
      cases stored : entries.lookup (buildProxyUserKey u []) with
      | none => rfl
      | some val =>
        -- another pair's entry: its key ends in a colon, so its password is not blank
        obtain ⟨pair, pairIn, sameKey⟩ := represents.covered _ (Finmap.mem_iff.mpr ⟨val, stored⟩)
        have entry := represents.lookup pair pairIn
        rw [sameKey, stored] at entry
        obtain ⟨user, found, rfl⟩ := Option.map_eq_some_iff.mp entry.symm
        have own := owner pair user found
        have notBlank : user.password ≠ [] := by
          intro none
          have shape : pair = (user.username, []) := by rw [← own, ProxyUser.pair, none]
          rw [shape] at sameKey found
          rw [pairKey_injective_of_blank (sameKey : pairKey (user.username, []) = pairKey (u, []))]
            at found
          rw [found] at blank
          contradiction
        simp only [deref_some, bind, Except.bind, if_neg notBlank]
        rfl

theorem Tracks.authenticateUser (tracks : Tracks S proxy t) {u p : Bytes} (member : (u, p) ∈ S) :
    proxy.authenticateUser u p = .ok ((t.answer proxy u p).map some) := by
  have found := tracks.getProxyUser member
  obtain ⟨⟨entries, made, represents⟩, -, logging⟩ := tracks
  obtain ⟨logger, log⟩ := Option.ne_none_iff_exists'.mp logging
  have size : 0 < proxy.users.size ↔ ¬ t.IsEmpty := by
    rw [MapVar.size_pos_iff, made, MapVar.content_some]
    exact represents.nonempty_iff
  unfold ProxyContext.authenticateUser
  by_cases empty : t.IsEmpty
  · rw [if_neg fun some' => size.mp some' empty]
    simp [UserReference.answer, empty (u, p), empty (u, []), empty, Except.map, pure, Except.pure]
  · rw [if_pos (size.mpr empty), found]
    cases registered : t (u, p) with
    | some user =>
      simp [UserReference.answer, registered, bind, Except.bind, Except.map, pure, Except.pure]
    | none =>
      cases blank : t (u, []) with
      | some user =>
        simp [UserReference.answer, registered, blank, log, bind, Except.bind, Except.map, pure,
          Except.pure]
      | none =>
        cases strict : proxy.requireValidPassword <;>
          simp [UserReference.answer, registered, blank, empty, strict, bind, Except.bind,
            Except.map, pure, Except.pure]

theorem answer_owner (owner : ∀ pair user, t pair = some user → user.pair = pair) {u p : Bytes}
    {user : ProxyUser} (given : t.answer proxy u p = .ok user) :
    user.username = u ∧ (user.password = p ∨ user.password = []) := by
  unfold UserReference.answer at given
  split at given
  · next found =>
    have own := owner _ _ (Except.ok.inj given ▸ found)
    exact ⟨congrArg Prod.fst own, Or.inl (congrArg Prod.snd own)⟩
  · split at given
    · next found =>
      have own := owner _ _ (Except.ok.inj given ▸ found)
      exact ⟨congrArg Prod.fst own, Or.inr (congrArg Prod.snd own)⟩
    · split at given
      · exact Except.ok.inj given ▸ ⟨rfl, Or.inl rfl⟩
      · contradiction

/-- What is done to other pairs does not change the reference's answer. -/
theorem answer_frame {op : UserOp} {u p : Bytes} {users : UserTable} (other : op.pair ≠ (u, p))
    (blank : op.pair = (u, []) → t (u, p) ≠ none)
    (empty : (t.apply op).IsEmpty ↔ t.IsEmpty) :
    (t.apply op).answer { proxy with users } u p = t.answer proxy u p := by
  have outside : ∀ pair, op.pair ≠ pair → t.apply op pair = t pair := by
    intro pair different
    cases op with
    | add user => exact Reference.add_other t user (Ne.symm different)
    | remove username password => exact Reference.remove_other t (Ne.symm different)
  unfold UserReference.answer
  rw [outside (u, p) other]
  cases registered : t (u, p) with
  | some user => rfl
  | none =>
    have elsewhere : op.pair ≠ (u, []) := fun same => blank same registered
    have same : (t.apply op).IsEmpty = t.IsEmpty := propext empty
    rw [outside (u, []) elsewhere, same]
    rfl

theorem Tracks.agrees (tracks : Tracks S proxy t) (injective : Set.InjOn pairKey S) {u p : Bytes}
    (member : (u, p) ∈ S) : Agrees S t proxy u p where
  answer := tracks.authenticateUser member
  owner user entered := by
    rw [tracks.authenticateUser member] at entered
    cases given : t.answer proxy u p with
    | error err => simp [given, Except.map] at entered
    | ok found =>
      rw [given] at entered
      have same : found = user := by simpa [Except.map] using entered
      exact answer_owner tracks.owner (same ▸ given)
  frame op next inside other blank applied emptiness := by
    obtain ⟨users, step, after⟩ := tracks.step injective op inside
    obtain rfl : { proxy with users } = next := Except.ok.inj (step.symm.trans applied)
    have size : ∀ {q : ProxyContext} {r : UserReference}, Tracks S q r →
        (0 < q.users.size ↔ ¬ r.IsEmpty) := by
      rintro q r ⟨⟨entries, made, represents⟩, -, -⟩
      rw [MapVar.size_pos_iff, made, MapVar.content_some]
      exact represents.nonempty_iff
    have empty : (t.apply op).IsEmpty ↔ t.IsEmpty := by
      rw [size after, size tracks] at emptiness
      exact not_iff_not.mp emptiness
    rw [after.authenticateUser member, tracks.authenticateUser member,
      answer_frame other blank empty]

/-- The proxies the claims about users start from. -/
inductive Obtained (signer : Option Signer) : ProxyContext → Prop where
  | new : Obtained signer (makeNewProxy signer)
  | json (data : Bytes) (order : RangeOrder Bytes) {proxy : ProxyContext}
      (made : makeProxyFromJSON data signer order = .ok (some proxy)) : Obtained signer proxy

theorem Obtained.logging {signer : Option Signer} (obtained : Obtained signer proxy) :
    proxy.log ≠ none := by
  cases obtained with
  | new => exact Option.some_ne_none defaultLogger
  | json data order made =>
    obtain ⟨decoded, _, done⟩ := makeProxyFromJSON_cases made
    obtain ⟨users, viewers, rfl⟩ := ProxyContext.initializeProxy_changes done
    cases log : decoded.log <;> simp [ProxyContext.withDefaults, log]

theorem ownKeyed_new (S : Set (Bytes × Bytes)) (signer : Option Signer) :
    OwnKeyed S (makeNewProxy signer).users := by
  refine ⟨∅, rfl, fun key val stored => ?_⟩
  rw [Finmap.lookup_empty] at stored
  contradiction

/-- One user registered, another asks with a pair of the same key, and gets in as the first. -/
theorem authenticateUser_same_key {signer : Option Signer} {user : ProxyUser} {u p : Bytes}
    (same : pairKey user.pair = pairKey (u, p)) :
    ∃ next, (makeNewProxy signer).runUserOps [.add user] = .ok next ∧
      next.authenticateUser u p = .ok (.ok (some user)) := by
  let users : GoMap Bytes (Option ProxyUser) := Finmap.insert (pairKey user.pair) (some user) ∅
  refine ⟨{ makeNewProxy signer with users := some users }, rfl, ?_⟩
  have stored : users.lookup (buildProxyUserKey u p) = some (some user) := by
    have found : users.lookup (pairKey user.pair) = some (some user) := Finmap.lookup_insert ∅
    rw [same] at found
    exact found
  have present : 0 < MapVar.size (some users) :=
    (MapVar.size_pos_iff _).mpr ⟨_, Finmap.mem_insert.mpr (Or.inl rfl)⟩
  unfold ProxyContext.authenticateUser
  rw [if_pos present]
  simp only [ProxyContext.getProxyUser, MapVar.find_some, stored, if_true]
  rfl

/-- The proxy answers like the reference table on all runs that use only the pairs of `S`
exactly when no two of these pairs have one key. -/
theorem authenticateUser_agrees_iff (signer : Option Signer) (S : Set (Bytes × Bytes)) :
    Set.InjOn pairKey S ↔
      ∀ proxy, Obtained signer proxy → OwnKeyed S proxy.users →
        ∀ ops : List UserOp, (∀ op ∈ ops, op.pair ∈ S) →
          ∃ next, proxy.runUserOps ops = .ok next ∧
            ∀ u p, (u, p) ∈ S → Agrees S ((UserReference.initial proxy.users).run ops) next u p := by
  constructor
  · intro injective proxy obtained own ops members
    have start := tracks_initial injective own obtained.logging
    obtain ⟨next, ran, tracks⟩ := start.run injective ops members
    exact ⟨next, ran, fun u p member => tracks.agrees injective member⟩
  · intro always a aIn b bIn same
    let user : ProxyUser := { username := a.1, password := a.2 }
    obtain ⟨next, ran, entered⟩ :=
      authenticateUser_same_key (show pairKey user.pair = pairKey (b.1, b.2) from same)
    obtain ⟨next', ran', agrees⟩ := always _ .new (ownKeyed_new S signer) [.add user] (by
      intro op member
      obtain rfl := List.mem_singleton.mp member
      exact aIn)
    obtain rfl : next = next' := Except.ok.inj (ran.symm.trans ran')
    obtain ⟨name, _⟩ := (agrees b.1 b.2 bIn).owner user entered
    have named : (a.1, b.2) = b := Prod.ext name rfl
    have key : pairKey (a.1, a.2) = pairKey (a.1, b.2) := by
      rw [named]
      exact same
    exact Prod.ext name (pairKey_injective_of_name key)

/-- The user `a:b` with the password `c` is let in as `a` with the password `b:c`. -/
theorem authenticateUser_colon_disagrees :
    ¬ ∀ (signer : Option Signer) (proxy : ProxyContext), Obtained signer proxy →
      ∀ (ops : List UserOp) (next : ProxyContext), proxy.runUserOps ops = .ok next →
        ∀ u p, Agrees Set.univ ((UserReference.initial proxy.users).run ops) next u p := by
  intro claim
  let user : ProxyUser := { username := lit "a:b", password := lit "c" }
  have same : pairKey user.pair = pairKey (lit "a", lit "b:c") := by decide
  obtain ⟨next, ran, entered⟩ := authenticateUser_same_key same
  have agrees := claim none _ .new _ next ran (lit "a") (lit "b:c")
  exact absurd (agrees.owner _ entered).1 (by decide)

end SSHProxyPlus
