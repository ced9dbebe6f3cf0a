import SSHProxyPlus.Go.Returns
import SSHProxyPlus.Proxy.Context

/-! What `Initialize` makes of a decoded proxy: which viewers and users it leaves, and
when it returns at all. -/
namespace SSHProxyPlus.ProxyContext
open Go

variable {proxy next : ProxyContext} {key : Bytes}

/-- `P` holds of every user there is, in the table and in the viewers. -/
structure Everyone (P : ProxyUser → Prop) (proxy : ProxyContext) : Prop where
  registered : ∀ key user, proxy.users.find key = some (some user) → P user
  viewing : ∀ key viewer user, proxy.viewers.find key = some (some viewer) →
    viewer.user = some user → P user

theorem updateViewer_find (proxy : ProxyContext) (key other : Bytes) (viewer : ProxySessionViewer) :
    (proxy.updateViewer key viewer).viewers.find other =
      if other = key ∧ proxy.viewers ≠ none then some (some viewer)
      else proxy.viewers.find other := by
  unfold updateViewer
  cases made : proxy.viewers with
  | none => simp
  | some entries =>
    by_cases same : other = key
    · subst same
      simp
    · simp [same]

theorem addProxyUser_find {registered : ProxyContext} {user : ProxyUser} {userKey other : Bytes}
    {val : Option ProxyUser} (added : proxy.addProxyUser user = .ok (registered, userKey))
    (found : registered.users.find other = some val) :
    proxy.users.find other = some val ∨
      (other = buildProxyUserKey user.username user.password ∧ val = some user) := by
  obtain ⟨entries, made, rfl, rfl⟩ := addProxyUser_cases added
  rw [MapVar.find_some] at found
  by_cases same : other = buildProxyUserKey user.username user.password
  · subst same
    rw [Finmap.lookup_insert] at found
    exact Or.inr ⟨rfl, (Option.some.inj found).symm⟩
  · rw [Finmap.lookup_insert_of_ne _ same] at found
    exact Or.inl (by rw [made]; exact found)

theorem getProxyUser_registered {username password : Bytes} {cloneUser blank : Bool}
    {user : ProxyUser}
    (found : proxy.getProxyUser username password cloneUser = .ok (.ok (some user, blank))) :
    ∃ key, proxy.users.find key = some (some user) := by
  rcases getProxyUser_cases found with ⟨exactly, _⟩ | ⟨_, _, other, same, _, blankly⟩
  · exact ⟨_, exactly⟩
  · exact ⟨_, Option.some.inj same ▸ blankly⟩

theorem Everyone.updateViewer {P : ProxyUser → Prop} (everyone : Everyone P proxy)
    {viewer : ProxySessionViewer} (owner : ∀ user, viewer.user = some user → P user) :
    Everyone P (proxy.updateViewer key viewer) := by
  refine ⟨everyone.registered, fun other found user stored held => ?_⟩
  rw [updateViewer_find] at stored
  split at stored
  · obtain rfl := Option.some.inj (Option.some.inj stored)
    exact owner user held
  · exact everyone.viewing other found user stored held

theorem Everyone.linkViewer {P : ProxyUser → Prop} (everyone : Everyone P proxy)
    (linked : proxy.linkViewer key = .ok next) : Everyone P next := by
  rcases linkViewer_cases linked with
    ⟨_, rfl⟩ | ⟨viewer, stored, ⟨owner, rfl⟩ | ⟨user, owner, found | missing⟩⟩
  · exact everyone
  · refine everyone.updateViewer fun user held => ?_
    rw [owner] at held
    contradiction
  · obtain ⟨found, blank, looked, rfl⟩ := found
    refine everyone.updateViewer fun user held => ?_
    obtain ⟨other, registered⟩ := getProxyUser_registered looked
    exact Option.some.inj held ▸ everyone.registered other found registered
  · obtain ⟨_, registered, userKey, _, _, added, rfl⟩ := missing
    have own : P user := everyone.viewing key viewer user stored owner
    obtain ⟨entries, made, _, same⟩ := addProxyUser_cases added
    have grown : Everyone P registered := by
      refine ⟨fun other u found => ?_, by rw [same]; exact everyone.viewing⟩
      rcases addProxyUser_find added found with old | ⟨_, new⟩
      · exact everyone.registered other u old
      · exact Option.some.inj new ▸ own
    refine grown.updateViewer fun u held => ?_
    exact Option.some.inj (owner.symm.trans held) ▸ own

/-- A turn leaves its own viewer in place of a pointer and the others as they are. -/
theorem linkViewer_viewers (linked : proxy.linkViewer key = .ok next) :
    next.viewers.find key ≠ some none ∧
      ∀ other, other ≠ key → next.viewers.find other = proxy.viewers.find other := by
  have updated : ∀ (p : ProxyContext) (viewer : ProxySessionViewer),
      p.viewers = proxy.viewers → (∃ v, proxy.viewers.find key = some v) →
      (p.updateViewer key viewer).viewers.find key ≠ some none ∧
        ∀ other, other ≠ key →
          (p.updateViewer key viewer).viewers.find other = proxy.viewers.find other := by
    rintro p viewer same ⟨v, stored⟩
    have made : p.viewers ≠ none := by
      rw [same]
      exact MapVar.find_made stored
    refine ⟨?_, fun other different => ?_⟩
    · rw [updateViewer_find, if_pos ⟨rfl, made⟩]
      simp
    · rw [updateViewer_find, if_neg fun h => different h.1, same]
  rcases linkViewer_cases linked with
    ⟨absent, rfl⟩ | ⟨viewer, stored, ⟨_, rfl⟩ | ⟨user, _, found | missing⟩⟩
  · refine ⟨?_, fun other _ => rfl⟩
    rw [absent]
    exact (Option.some_ne_none none).symm
  · exact updated proxy _ rfl ⟨_, stored⟩
  · obtain ⟨_, _, _, rfl⟩ := found
    exact updated proxy _ rfl ⟨_, stored⟩
  · obtain ⟨_, registered, _, _, _, added, rfl⟩ := missing
    obtain ⟨_, _, _, rfl⟩ := addProxyUser_cases added
    exact updated _ _ rfl ⟨_, stored⟩

theorem linkViewer_made (linked : proxy.linkViewer key = .ok next) :
    (proxy.users ≠ none → next.users ≠ none) ∧ (proxy.viewers ≠ none → next.viewers ≠ none) := by
  have kept : ∀ (p : ProxyContext) (viewer : ProxySessionViewer), p.viewers ≠ none →
      (p.updateViewer key viewer).viewers ≠ none := by
    intro p viewer made
    obtain ⟨entries, same⟩ := Option.ne_none_iff_exists'.mp made
    simp [updateViewer, same]
  rcases linkViewer_cases linked with
    ⟨_, rfl⟩ | ⟨viewer, _, ⟨_, rfl⟩ | ⟨user, _, found | missing⟩⟩
  · exact ⟨id, id⟩
  · exact ⟨id, kept _ _⟩
  · obtain ⟨_, _, _, rfl⟩ := found
    exact ⟨id, kept _ _⟩
  · obtain ⟨_, registered, _, _, _, added, rfl⟩ := missing
    obtain ⟨_, _, _, rfl⟩ := addProxyUser_cases added
    exact ⟨fun _ => Option.some_ne_none _, kept _ _⟩

variable {defaultSigner : Option Signer} {order : RangeOrder Bytes}

theorem withDefaults_viewers_find (proxy : ProxyContext) (defaultSigner : Option Signer)
    (key : Bytes) : (proxy.withDefaults defaultSigner).viewers.find key = proxy.viewers.find key := by
  cases made : proxy.viewers with
  | none => simp [withDefaults, made]
  | some entries => simp [withDefaults, made]

theorem withDefaults_users_find (proxy : ProxyContext) (defaultSigner : Option Signer)
    (key : Bytes) : (proxy.withDefaults defaultSigner).users.find key = proxy.users.find key := by
  cases made : proxy.users with
  | none => simp [withDefaults, made]
  | some entries => simp [withDefaults, made]

theorem Everyone.withDefaults {P : ProxyUser → Prop} (everyone : Everyone P proxy) :
    Everyone P (proxy.withDefaults defaultSigner) := by
  refine ⟨fun key user found => ?_, fun key viewer user found held => ?_⟩
  · rw [withDefaults_users_find] at found
    exact everyone.registered key user found
  · rw [withDefaults_viewers_find] at found
    exact everyone.viewing key viewer user found held

theorem Everyone.initializeProxy {P : ProxyUser → Prop} (everyone : Everyone P proxy)
    (made : proxy.initializeProxy defaultSigner order = .ok next) : Everyone P next :=
  foldlM_keeps (Everyone P) (fun _ _ _ before linked => before.linkViewer linked)
    everyone.withDefaults made

/-- Every viewer was visited, so none of them is nil. -/
theorem initializeProxy_viewer (made : proxy.initializeProxy defaultSigner order = .ok next)
    (key : Bytes) : next.viewers.find key ≠ some none := by
  intro nil
  have visited := foldlM_establishes (fun key (p : ProxyContext) => p.viewers.find key ≠ some none)
    (fun _ _ _ linked => (linkViewer_viewers linked).1) (by
      intro other before key after notNil linked
      by_cases same : other = key
      · exact same ▸ (linkViewer_viewers linked).1
      · rw [(linkViewer_viewers linked).2 other same]
        exact notNil) made
  have old : proxy.viewers.find key = some none := by
    refine foldlM_keeps (fun p : ProxyContext => p.viewers.find key = some none →
      proxy.viewers.find key = some none) ?_ ?_ made nil
    · intro before k after kept linked nil
      by_cases same : key = k
      · exact absurd (same ▸ nil) (linkViewer_viewers linked).1
      · rw [(linkViewer_viewers linked).2 key same] at nil
        exact kept nil
    · rw [withDefaults_viewers_find]
      exact id
  have member : key ∈ order.over proxy.viewers.content :=
    (order.mem_over _ key).mpr (Finmap.mem_iff.mpr ⟨none, old⟩)
  exact visited key member nil

theorem initializeProxy_made (made : proxy.initializeProxy defaultSigner order = .ok next) :
    next.users ≠ none ∧ next.viewers ≠ none := by
  refine foldlM_keeps (fun p : ProxyContext => p.users ≠ none ∧ p.viewers ≠ none) ?_ ?_ made
  · intro before key after kept linked
    have := linkViewer_made linked
    exact ⟨this.1 kept.1, this.2 kept.2⟩
  · constructor
    · cases users : proxy.users <;> simp [ProxyContext.withDefaults, users]
    · cases viewers : proxy.viewers <;> simp [ProxyContext.withDefaults, viewers]

/-- Looking the pair up follows a nil user. -/
def NilUser (proxy : ProxyContext) (username password : Bytes) : Prop :=
  proxy.users.find (buildProxyUserKey username password) = some none ∨
    (proxy.users.find (buildProxyUserKey username password) = none ∧
      proxy.users.find (buildProxyUserKey username []) = some none)

/-- The viewer of that key is not nil, and where its user is not registered the name does
not stand for a nil user. -/
structure LinkableAt (proxy : ProxyContext) (key : Bytes) : Prop where
  notNil : proxy.viewers.find key ≠ some none
  blank : ∀ viewer user, proxy.viewers.find key = some (some viewer) → viewer.user = some user →
    proxy.users.find (buildProxyUserKey user.username user.password) = none →
    proxy.users.find (buildProxyUserKey user.username []) ≠ some none

def Linkable (proxy : ProxyContext) : Prop := ∀ key, proxy.LinkableAt key

theorem getProxyUser_returns {username password : Bytes}
    (blank : proxy.users.find (buildProxyUserKey username password) = none →
      proxy.users.find (buildProxyUserKey username []) ≠ some none) :
    Returns (proxy.getProxyUser username password false) fun _ => True := by
  unfold getProxyUser
  cases exactly : proxy.users.find (buildProxyUserKey username password) with
  | some val => exact returns_pure trivial
  | none =>
    cases blankly : proxy.users.find (buildProxyUserKey username []) with
    | none => exact returns_pure trivial
    | some val =>
      cases val with
      | none => exact absurd blankly (blank exactly)
      | some user =>
        simp only [deref_some, bind, Except.bind]
        split
        · exact returns_pure trivial
        · exact returns_pure trivial

theorem linkViewer_returns (linkable : proxy.LinkableAt key) (made : proxy.users ≠ none) :
    Returns (proxy.linkViewer key) fun _ => True := by
  unfold linkViewer
  cases stored : proxy.viewers.find key with
  | none => exact returns_pure trivial
  | some pointer =>
    refine (returns_deref fun nil => linkable.notNil (nil ▸ stored)).bind fun viewer same => ?_
    subst same
    cases owner : viewer.user with
    | none => exact returns_pure trivial
    | some user =>
      refine (getProxyUser_returns (linkable.blank viewer user stored owner)).bind fun result _ => ?_
      split
      · exact returns_pure trivial
      · have added : Returns (proxy.addProxyUser user) fun _ => True :=
          (returns_assign made _ _).bind fun _ _ => returns_pure trivial
        exact added.bind fun _ _ => returns_pure trivial

/-- A turn changes the table only by registering somebody. -/
theorem linkViewer_users (linked : proxy.linkViewer key = .ok next) (other : Bytes) :
    next.users.find other = proxy.users.find other ∨
      ∃ user, next.users.find other = some (some user) := by
  rcases linkViewer_cases linked with
    ⟨_, rfl⟩ | ⟨viewer, _, ⟨_, rfl⟩ | ⟨user, _, found | missing⟩⟩
  · exact Or.inl rfl
  · exact Or.inl rfl
  · obtain ⟨_, _, _, rfl⟩ := found
    exact Or.inl rfl
  · obtain ⟨_, registered, userKey, _, _, added, rfl⟩ := missing
    obtain ⟨entries, made, rfl, rfl⟩ := addProxyUser_cases added
    by_cases same : other = buildProxyUserKey user.username user.password
    · subst same
      exact Or.inr ⟨user, Finmap.lookup_insert entries⟩
    · left
      rw [made]
      exact Finmap.lookup_insert_of_ne entries same

theorem LinkableAt.linkViewer {other : Bytes} (linkable : proxy.LinkableAt other)
    (different : other ≠ key) (linked : proxy.linkViewer key = .ok next) :
    next.LinkableAt other := by
  have viewers := (linkViewer_viewers linked).2 other different
  refine ⟨viewers ▸ linkable.notNil, fun viewer user stored owner absent => ?_⟩
  rw [viewers] at stored
  have before : proxy.users.find (buildProxyUserKey user.username user.password) = none := by
    rcases linkViewer_users linked (buildProxyUserKey user.username user.password) with
      same | ⟨u, present⟩
    · rw [← same]
      exact absent
    · rw [present] at absent
      contradiction
  rcases linkViewer_users linked (buildProxyUserKey user.username []) with same | ⟨u, present⟩
  · rw [same]
    exact linkable.blank viewer user stored owner before
  · rw [present]
    simp

theorem linkAll_returns {keys : List Bytes} (distinct : keys.Nodup)
    (linkable : ∀ key ∈ keys, proxy.LinkableAt key) (made : proxy.users ≠ none) :
    Returns (keys.foldlM linkViewer proxy) fun _ => True := by
  induction keys generalizing proxy with
  | nil => exact returns_pure trivial
  | cons key keys ih =>
    rw [List.foldlM_cons]
    obtain ⟨first, rest⟩ := List.nodup_cons.mp distinct
    obtain ⟨next, linked, -⟩ := linkViewer_returns (linkable key List.mem_cons_self) made
    rw [linked]
    refine ih rest (fun other member => ?_) ((linkViewer_made linked).1 made)
    have different : other ≠ key := fun same => first (same ▸ member)
    exact (linkable other (List.mem_cons_of_mem key member)).linkViewer different linked

/-- `Initialize` returns, in whatever order it visits the viewers, when all of them can be
linked. -/
theorem initializeProxy_returns (linkable : proxy.Linkable) (defaultSigner : Option Signer)
    (order : RangeOrder Bytes) :
    Returns (proxy.initializeProxy defaultSigner order) fun _ => True := by
  refine linkAll_returns (order.nodup _) (fun key _ => ?_) ?_
  · refine ⟨?_, fun viewer user stored owner absent => ?_⟩
    · rw [withDefaults_viewers_find]
      exact (linkable key).notNil
    · rw [withDefaults_viewers_find] at stored
      rw [withDefaults_users_find] at absent ⊢
      exact (linkable key).blank viewer user stored owner absent
  · cases users : proxy.users <;> simp [ProxyContext.withDefaults, users]

end SSHProxyPlus.ProxyContext
