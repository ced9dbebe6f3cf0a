import SSHProxyPlus.Proxy.Saving

/-! Whether what is loaded depends on the order in which `Initialize` visits the viewers: a user
that one viewer registers may be found for another. -/
namespace SSHProxyPlus
open Go

namespace ProxyContext

variable {proxy mid next next' : ProxyContext} {key : Bytes} {user found w w' : ProxyUser}

/-- No entry of the tables is null. -/
structure NoNulls (proxy : ProxyContext) : Prop where
  users : ∀ key, proxy.users.find key ≠ some none
  viewers : ∀ key, proxy.viewers.find key ≠ some none

/-- It is enough to look at the keys there are. -/
theorem NoNulls.of_keys
    (users : ∀ key ∈ proxy.users.content.keys, proxy.users.find key ≠ some none)
    (viewers : ∀ key ∈ proxy.viewers.content.keys, proxy.viewers.find key ≠ some none) :
    proxy.NoNulls where
  users key nil := users key (Finmap.mem_keys.mpr (Finmap.mem_of_lookup_eq_some nil)) nil
  viewers key nil := viewers key (Finmap.mem_keys.mpr (Finmap.mem_of_lookup_eq_some nil)) nil

theorem NoNulls.linkable (noNulls : proxy.NoNulls) : proxy.Linkable := fun key =>
  ⟨noNulls.viewers key, fun _ _ _ _ _ => noNulls.users _⟩

/-- A viewer's user that nobody is found for in the table as it was decoded. -/
structure Lost (proxy : ProxyContext) (user : ProxyUser) : Prop where
  viewing : proxy.Viewing user
  missing : ¬proxy.Finds user

theorem Lost.free (lost : proxy.Lost user) (noNulls : proxy.NoNulls) :
    proxy.users.find (userKey user) = none := by
  refine Option.eq_none_iff_forall_ne_some.mpr fun val stored => ?_
  cases val with
  | none => exact noNulls.users _ stored
  | some found => exact lost.missing (finds_iff.mpr (.inl ⟨found, stored⟩))

/-- The name and the password of the user that the viewer is linked to. -/
def linkedLogin (proxy : ProxyContext) (key : Bytes) : Option (Bytes × Bytes) := do
  let viewer ← (proxy.viewers.find key).join
  let user ← viewer.user
  return (user.username, user.password)

/-- How the viewer's user is found in the end: under their own key, or under the name with a blank
password where the own key was free. -/
def Serves (proxy next : ProxyContext) (user found : ProxyUser) : Prop :=
  next.users.find (userKey user) = some (some found) ∨
    (proxy.users.find (userKey user) = none ∧
      next.users.find (buildProxyUserKey user.username []) = some (some found) ∧
      found.password = [])

theorem Extends.trans (first : Extends proxy mid) (second : Extends mid next) :
    Extends proxy next := by
  intro key
  rcases second key with same | ⟨nobody, somebody⟩
  · rw [same]
    exact first key
  · refine .inr ⟨fun user stored => ?_, somebody⟩
    exact nobody user (first.keeps stored)

theorem Extends.free (extends' : Extends proxy mid) (absent : mid.users.find key = none) :
    proxy.users.find key = none := by
  rcases extends' key with same | ⟨-, user, stored⟩
  · exact same.symm.trans absent
  · rw [absent] at stored
    contradiction

theorem Serves.extends (serves : Serves mid next user found) (before : Extends proxy mid)
    {last : ProxyContext} (after : Extends next last) : Serves proxy last user found := by
  rcases serves with own | ⟨absent, blankly, blank⟩
  · exact .inl (after.keeps own)
  · exact .inr ⟨before.free absent, after.keeps blankly, blank⟩

theorem linkViewer_serves {viewer : ProxySessionViewer} (linked : mid.linkViewer key = .ok next)
    (stored : mid.viewers.find key = some (some viewer)) :
    ∃ after, next.viewers.find key = some (some after) ∧
      ((viewer.user = none ∧ after.user = none) ∨
      ∃ user found, viewer.user = some user ∧ after.user = some found ∧
        Serves mid next user found) := by
  have visited (p : ProxyContext) (v : ProxySessionViewer) (same : p.viewers = mid.viewers) :
      (p.updateViewer key v).viewers.find key = some (some v) := by
    rw [updateViewer_find, if_pos ⟨rfl, same ▸ MapVar.find_made stored⟩]
  rcases linkViewer_cases linked with
    ⟨absent, -⟩ | ⟨same, there, ⟨nobody, rfl⟩ | ⟨user, owner, found | missing⟩⟩
  · rw [absent] at stored
    contradiction
  · obtain rfl := MapVar.find_unique stored there
    exact ⟨_, visited mid _ rfl, .inl ⟨nobody, nobody⟩⟩
  · obtain rfl := MapVar.find_unique stored there
    obtain ⟨found, blank, looked, rfl⟩ := found
    refine ⟨_, visited mid _ rfl, .inr ⟨user, found, owner, rfl, ?_⟩⟩
    rcases getProxyUser_cases looked with ⟨exactly, -⟩ | ⟨absent, -, other, same, blank, blankly⟩
    · exact .inl exactly
    · obtain rfl := Option.some.inj same
      exact .inr ⟨absent, blankly, blank⟩
  · obtain rfl := MapVar.find_unique stored there
    obtain ⟨_, registered, _, _, _, added, rfl⟩ := missing
    obtain ⟨entries, made, rfl, rfl⟩ := addProxyUser_cases added
    refine ⟨_, visited _ _ rfl, .inr ⟨user, user, owner, owner, .inl ?_⟩⟩
    exact Finmap.lookup_insert entries

theorem linkAll_extends {keys : List Bytes} (ran : keys.foldlM linkViewer mid = .ok next) :
    Extends mid next :=
  foldlM_keeps (Extends mid) (fun _ _ _ before linked => before.trans (linkViewer_extends linked))
    (fun _ => .inl rfl) ran

theorem linkAll_untouched {keys : List Bytes} (ran : keys.foldlM linkViewer mid = .ok next)
    (outside : key ∉ keys) : next.viewers.find key = mid.viewers.find key := by
  induction keys generalizing mid with
  | nil => rw [Except.ok.inj ran]
  | cons first keys ih =>
    rw [List.foldlM_cons] at ran
    obtain ⟨after, linked, rest⟩ := of_bind_ok ran
    obtain ⟨different, later⟩ := not_or.mp (mt List.mem_cons.mpr outside)
    rw [ih rest later, (linkViewer_viewers linked).2 key different]

/-- A viewer that is visited once keeps the link of that turn. -/
theorem linkAll_serves {keys : List Bytes} (distinct : keys.Nodup)
    (ran : keys.foldlM linkViewer mid = .ok next) (member : key ∈ keys)
    {viewer : ProxySessionViewer} (stored : mid.viewers.find key = some (some viewer)) :
    ∃ after, next.viewers.find key = some (some after) ∧
      ((viewer.user = none ∧ after.user = none) ∨
      ∃ user found, viewer.user = some user ∧ after.user = some found ∧
        Serves mid next user found) := by
  induction keys generalizing mid with
  | nil => exact absurd member List.not_mem_nil
  | cons first keys ih =>
    rw [List.foldlM_cons] at ran
    obtain ⟨once, linked, rest⟩ := of_bind_ok ran
    obtain ⟨apart, distinct⟩ := List.nodup_cons.mp distinct
    rcases List.mem_cons.mp member with rfl | later
    · obtain ⟨after, there, served⟩ := linkViewer_serves linked stored
      refine ⟨after, (linkAll_untouched rest apart).trans there, served.imp_right ?_⟩
      rintro ⟨user, found, owner, held, serves⟩
      exact ⟨user, found, owner, held, serves.extends (fun _ => .inl rfl) (linkAll_extends rest)⟩
    · have different : key ≠ first := fun same => apart (same ▸ later)
      have still := (linkViewer_viewers linked).2 key different
      obtain ⟨after, there, served⟩ := ih distinct rest later (still.trans stored)
      refine ⟨after, there, served.imp_right ?_⟩
      rintro ⟨user, found, owner, held, serves⟩
      exact ⟨user, found, owner, held,
        serves.extends (linkViewer_extends linked) fun _ => .inl rfl⟩

/-- No two of the users that will be registered get into each other's way, nor into that of a
user with a blank password under whose name a viewer is served. -/
structure Unambiguous (proxy : ProxyContext) : Prop where
  own : ∀ w w', proxy.Lost w → proxy.Lost w' → userKey w = userKey w' → w = w'
  blank : ∀ w w', proxy.Lost w → proxy.Lost w' → w.password ≠ [] → w'.password = [] →
    w.username ≠ w'.username
  taken : ∀ w user found, proxy.Lost w → proxy.Viewing user → userKey w = userKey user →
    proxy.users.find (buildProxyUserKey user.username []) = some (some found) →
    found.password = [] → w.username = found.username ∧ w.password = []

variable {defaultSigner : Option Signer} {order order' : RangeOrder Bytes}

/-- Each lost user is registered in the end, whoever was visited first. -/
theorem Unambiguous.registers (unambiguous : proxy.Unambiguous) (noNulls : proxy.NoNulls)
    (made : proxy.initializeProxy defaultSigner order = .ok next) (lost : proxy.Lost w) :
    next.users.find (userKey w) = some (some w) := by
  obtain ⟨relinked, finds⟩ := initializeProxy_relinks made
  have free := lost.free noNulls
  rcases finds_iff.mp (finds w lost.viewing) with ⟨found, stored⟩ | ⟨absent, found, stored, blank⟩
  · rcases relinked (userKey w) with old | ⟨-, w', viewing, missing, same, stored'⟩
    · rw [old, free] at stored
      contradiction
    · rw [unambiguous.own w w' lost ⟨viewing, missing⟩ same]
      exact same ▸ stored'
  · -- the user with the blank password would have been there before, or is lost as well
    exfalso
    rcases relinked (buildProxyUserKey w.username []) with
      old | ⟨-, w', viewing, missing, same, stored'⟩
    · exact lost.missing (finds_iff.mpr (.inr ⟨free, found, old.symm.trans stored, blank⟩))
    · obtain rfl := MapVar.find_unique stored stored'
      have named : w.username = found.username := by
        apply buildProxyUserKey_blank_injective
        rw [same, userKey, blank]
      by_cases none : w.password = []
      · rw [userKey, none, stored] at absent
        contradiction
      · exact unambiguous.blank w found lost ⟨viewing, missing⟩ none blank named

theorem Unambiguous.users_alike (unambiguous : proxy.Unambiguous) (noNulls : proxy.NoNulls)
    (made : proxy.initializeProxy defaultSigner order = .ok next)
    (made' : proxy.initializeProxy defaultSigner order' = .ok next') :
    next.users = next'.users := by
  obtain ⟨entries, some'⟩ := Option.ne_none_iff_exists'.mp (initializeProxy_made made).1
  obtain ⟨entries', some''⟩ := Option.ne_none_iff_exists'.mp (initializeProxy_made made').1
  have alike (key : Bytes) : next.users.find key = next'.users.find key := by
    rcases (initializeProxy_relinks made).1 key with old | ⟨-, w, viewing, missing, rfl, stored⟩
    · rcases (initializeProxy_relinks made').1 key with
        old' | ⟨-, w, viewing, missing, rfl, stored⟩
      · exact old.trans old'.symm
      · rw [stored, unambiguous.registers noNulls made ⟨viewing, missing⟩]
    · rw [stored, unambiguous.registers noNulls made' ⟨viewing, missing⟩]
  rw [some', some'']
  refine congrArg some (Finmap.ext_lookup fun key => ?_)
  have same := alike key
  rw [some', some''] at same
  exact same

/-- What a viewer's user is linked to, by the table as it was decoded. -/
def Chosen (proxy : ProxyContext) (user : ProxyUser) (login : Bytes × Bytes) : Prop :=
  (∃ found, proxy.users.find (userKey user) = some (some found) ∧
    login = (found.username, found.password)) ∨
  (proxy.users.find (userKey user) = none ∧ ∃ found,
    proxy.users.find (buildProxyUserKey user.username []) = some (some found) ∧
    found.password = [] ∧ login = (found.username, [])) ∨
  (¬proxy.Finds user ∧ login = (user.username, user.password))

theorem Chosen.unique {login login' : Bytes × Bytes} (chosen : proxy.Chosen user login)
    (chosen' : proxy.Chosen user login') : login = login' := by
  rcases chosen with ⟨found, stored, rfl⟩ | ⟨absent, found, stored, blank, rfl⟩ | ⟨missing, rfl⟩
  · rcases chosen' with ⟨other, there, rfl⟩ | ⟨free, -⟩ | ⟨lost, -⟩
    · obtain rfl := MapVar.find_unique stored there
      rfl
    · rw [stored] at free
      contradiction
    · exact absurd (finds_iff.mpr (.inl ⟨found, stored⟩)) lost
  · rcases chosen' with ⟨other, there, -⟩ | ⟨-, other, there, -, rfl⟩ | ⟨lost, -⟩
    · rw [absent] at there
      contradiction
    · obtain rfl := MapVar.find_unique stored there
      rfl
    · exact absurd (finds_iff.mpr (.inr ⟨absent, found, stored, blank⟩)) lost
  · rcases chosen' with ⟨other, there, -⟩ | ⟨free, other, there, blank, -⟩ | ⟨-, rfl⟩
    · exact absurd (finds_iff.mpr (.inl ⟨other, there⟩)) missing
    · exact absurd (finds_iff.mpr (.inr ⟨free, other, there, blank⟩)) missing
    · rfl

theorem Unambiguous.chooses (unambiguous : proxy.Unambiguous) (noNulls : proxy.NoNulls)
    (made : proxy.initializeProxy defaultSigner order = .ok next) (viewing : proxy.Viewing user)
    (serves : Serves proxy next user found) :
    proxy.Chosen user (found.username, found.password) := by
  obtain ⟨relinked, -⟩ := initializeProxy_relinks made
  by_cases finds : proxy.Finds user
  · rcases finds_iff.mp finds with ⟨other, stored⟩ | ⟨free, other, stored, blank⟩
    · rcases serves with own | ⟨absent, -⟩
      · have kept := relinked.extends.keeps stored
        obtain rfl := MapVar.find_unique own kept
        exact .inl ⟨found, stored, rfl⟩
      · rw [stored] at absent
        contradiction
    · refine .inr (.inl ⟨free, other, stored, blank, ?_⟩)
      rcases serves with own | ⟨-, blankly, none⟩
      · rcases relinked (userKey user) with old | ⟨-, w, seen, missing, same, stored'⟩
        · rw [old, free] at own
          contradiction
        · obtain rfl := MapVar.find_unique own stored'
          obtain ⟨name, none⟩ :=
            unambiguous.taken found user other ⟨seen, missing⟩ viewing same.symm stored blank
          rw [name, none]
      · have kept := relinked.extends.keeps stored
        obtain rfl := MapVar.find_unique blankly kept
        rw [none]
  · refine .inr (.inr ⟨finds, ?_⟩)
    have lost : proxy.Lost user := ⟨viewing, finds⟩
    have registered := unambiguous.registers noNulls made lost
    rcases serves with own | ⟨free, blankly, blank⟩
    · obtain rfl := MapVar.find_unique own registered
      rfl
    · rcases relinked (buildProxyUserKey user.username []) with
        old | ⟨-, w, seen, missing, same, stored⟩
      · exact absurd (finds_iff.mpr (.inr ⟨free, found, old.symm.trans blankly, blank⟩)) finds
      · obtain rfl := MapVar.find_unique blankly stored
        have named : user.username = found.username := by
          apply buildProxyUserKey_blank_injective
          rw [same, userKey, blank]
        by_cases none : user.password = []
        · rw [named, none, blank]
        · exact absurd named (unambiguous.blank user found lost ⟨seen, missing⟩ none blank)

theorem withDefaults_extends (proxy : ProxyContext) (defaultSigner : Option Signer) :
    Extends proxy (proxy.withDefaults defaultSigner) :=
  fun key => .inl (withDefaults_users_find proxy defaultSigner key)

theorem initializeProxy_serves {viewer : ProxySessionViewer}
    (made : proxy.initializeProxy defaultSigner order = .ok next)
    (stored : proxy.viewers.find key = some (some viewer)) :
    ∃ after, next.viewers.find key = some (some after) ∧
      ((viewer.user = none ∧ after.user = none) ∨
      ∃ user found, viewer.user = some user ∧ after.user = some found ∧
        Serves proxy next user found) := by
  have member : key ∈ order.over proxy.viewers.content :=
    (order.mem_over _ key).mpr (Finmap.mem_iff.mpr ⟨_, stored⟩)
  obtain ⟨after, there, served⟩ := linkAll_serves (order.nodup _) made member
    ((withDefaults_viewers_find proxy defaultSigner key).trans stored)
  refine ⟨after, there, served.imp_right ?_⟩
  rintro ⟨user, found, owner, held, serves⟩
  exact ⟨user, found, owner, held,
    serves.extends (withDefaults_extends proxy defaultSigner) fun _ => .inl rfl⟩

theorem initializeProxy_absent (made : proxy.initializeProxy defaultSigner order = .ok next)
    (absent : proxy.viewers.find key = none) : next.viewers.find key = none := by
  have outside : key ∉ order.over proxy.viewers.content := fun member =>
    Finmap.lookup_eq_none.mp absent ((order.mem_over _ key).mp member)
  rw [linkAll_untouched made outside, withDefaults_viewers_find, absent]

theorem linkedLogin_none (absent : next.viewers.find key = none) : next.linkedLogin key = none := by
  rw [linkedLogin, absent]
  rfl

theorem linkedLogin_nobody {viewer : ProxySessionViewer}
    (stored : next.viewers.find key = some (some viewer)) (nobody : viewer.user = none) :
    next.linkedLogin key = none := by
  simp [linkedLogin, stored, nobody]

theorem linkedLogin_some {viewer : ProxySessionViewer}
    (stored : next.viewers.find key = some (some viewer)) (owner : viewer.user = some found) :
    next.linkedLogin key = some (found.username, found.password) := by
  simp [linkedLogin, stored, owner]

theorem Unambiguous.logins_alike (unambiguous : proxy.Unambiguous) (noNulls : proxy.NoNulls)
    (made : proxy.initializeProxy defaultSigner order = .ok next)
    (made' : proxy.initializeProxy defaultSigner order' = .ok next') (key : Bytes) :
    next.linkedLogin key = next'.linkedLogin key := by
  rcases stored : proxy.viewers.find key with _ | _ | viewer
  · rw [linkedLogin_none (initializeProxy_absent made stored),
      linkedLogin_none (initializeProxy_absent made' stored)]
  · exact absurd stored (noNulls.viewers key)
  · obtain ⟨after, there, served⟩ := initializeProxy_serves made stored
    obtain ⟨after', there', served'⟩ := initializeProxy_serves made' stored
    rcases served with ⟨nobody, none⟩ | ⟨user, found, owner, held, serves⟩
    · rcases served' with ⟨-, none'⟩ | ⟨user, _, owner, -⟩
      · rw [linkedLogin_nobody there none, linkedLogin_nobody there' none']
      · rw [nobody] at owner
        contradiction
    · rcases served' with ⟨nobody, -⟩ | ⟨user', found', owner', held', serves'⟩
      · rw [owner] at nobody
        contradiction
      · obtain rfl := Option.some.inj (owner.symm.trans owner')
        have viewing : proxy.Viewing user := ⟨key, viewer, stored, owner⟩
        have chosen := unambiguous.chooses noNulls made viewing serves
        have chosen' := unambiguous.chooses noNulls made' viewing serves'
        rw [linkedLogin_some there held, linkedLogin_some there' held', chosen.unique chosen']

/-- The viewer that is visited first, and then the others. -/
theorem initializeProxy_first (present : key ∈ proxy.viewers.content)
    (made : proxy.initializeProxy defaultSigner (order.first key) = .ok next) :
    ∃ mid, (proxy.withDefaults defaultSigner).linkViewer key = .ok mid ∧
      ((order.over proxy.viewers.content).filter (· ≠ key)).foldlM linkViewer mid = .ok next := by
  unfold initializeProxy at made
  rw [order.first_over present, List.foldlM_cons] at made
  exact of_bind_ok made

theorem withDefaults_finds : (proxy.withDefaults defaultSigner).Finds user ↔ proxy.Finds user := by
  rw [finds_iff, finds_iff, withDefaults_users_find, withDefaults_users_find]

/-- A lost user whose viewer is visited first is registered by that turn. -/
theorem linkViewer_registers {viewer : ProxySessionViewer} (missing : ¬proxy.Finds w)
    (stored : proxy.viewers.find key = some (some viewer)) (owner : viewer.user = some w)
    (linked : (proxy.withDefaults defaultSigner).linkViewer key = .ok mid) (other : Bytes) :
    mid.users.find other =
      if other = userKey w then some (some w) else proxy.users.find other := by
  have stored := (withDefaults_viewers_find proxy defaultSigner key).trans stored
  rcases linkViewer_table linked with ⟨-, finds⟩ | ⟨viewer', user, there, held, -, table⟩
  · exact absurd (withDefaults_finds.mp (finds viewer w stored owner)) missing
  · obtain rfl := MapVar.find_unique stored there
    obtain rfl := Option.some.inj (owner.symm.trans held)
    rw [table, withDefaults_users_find]

theorem first_registers {viewer : ProxySessionViewer} (missing : ¬proxy.Finds w)
    (stored : proxy.viewers.find key = some (some viewer)) (owner : viewer.user = some w)
    (made : proxy.initializeProxy defaultSigner (order.first key) = .ok next) :
    next.users.find (userKey w) = some (some w) := by
  obtain ⟨mid, linked, rest⟩ := initializeProxy_first (Finmap.mem_iff.mpr ⟨_, stored⟩) made
  refine (linkAll_extends rest).keeps ?_
  rw [linkViewer_registers missing stored owner linked, if_pos rfl]

/-- Two initializations, whatever their orders, leave the same table and the same links. -/
def InitializesAlike (proxy : ProxyContext) (defaultSigner : Option Signer) : Prop :=
  ∀ order order' : RangeOrder Bytes, ∃ next next',
    proxy.initializeProxy defaultSigner order = .ok next ∧
    proxy.initializeProxy defaultSigner order' = .ok next' ∧
    next.users = next'.users ∧ ∀ key, next.linkedLogin key = next'.linkedLogin key

theorem InitializesAlike.own (alike : proxy.InitializesAlike defaultSigner) (lost : proxy.Lost w)
    (lost' : proxy.Lost w') (same : userKey w = userKey w') : w = w' := by
  obtain ⟨⟨key, viewer, stored, owner⟩, missing⟩ := lost
  obtain ⟨⟨key', viewer', stored', owner'⟩, missing'⟩ := lost'
  obtain ⟨next, next', made, made', users, -⟩ :=
    alike ((sortedOrder byteRank).first key) ((sortedOrder byteRank).first key')
  have here := first_registers missing stored owner made
  have there := first_registers missing' stored' owner' made'
  rw [users, same, there] at here
  exact (Option.some.inj (Option.some.inj here)).symm

theorem InitializesAlike.blank (alike : proxy.InitializesAlike defaultSigner)
    (noNulls : proxy.NoNulls) (lost : proxy.Lost w) (lost' : proxy.Lost w')
    (secret : w.password ≠ []) (blank : w'.password = []) : w.username ≠ w'.username := by
  intro named
  obtain ⟨⟨key, viewer, stored, owner⟩, missing⟩ := lost
  obtain ⟨⟨key', viewer', stored', owner'⟩, missing'⟩ := lost'
  obtain ⟨next, next', made, made', users, -⟩ :=
    alike ((sortedOrder byteRank).first key) ((sortedOrder byteRank).first key')
  have here := first_registers missing stored owner made
  rw [users] at here
  obtain ⟨mid, linked, rest⟩ := initializeProxy_first (Finmap.mem_iff.mpr ⟨_, stored'⟩) made'
  have table := linkViewer_registers missing' stored' owner' linked
  have apart : userKey w ≠ userKey w' := by
    simpa [userKey, buildProxyUserKey, named, blank] using secret
  have free : proxy.users.find (userKey w) = none :=
    Lost.free ⟨⟨key, viewer, stored, owner⟩, missing⟩ noNulls
  -- once the blank password is registered, `w` is found under it and never registered
  have finds : mid.Finds w := by
    refine finds_iff.mpr (.inr ⟨?_, w', ?_, blank⟩)
    · rw [table, if_neg apart, free]
    · rw [table, if_pos (by rw [userKey, blank, named])]
  have start : Relinked mid mid := fun _ => .inl rfl
  obtain ⟨relinked, -⟩ :=
    linkAll_relinks (((sortedOrder byteRank).nodup _).filter _) start (fun _ _ => rfl) rest
  rcases relinked (userKey w) with old | ⟨-, user, viewing, absent, same, stored''⟩
  · rw [old, table, if_neg apart, free] at here
    contradiction
  · obtain rfl := MapVar.find_unique here stored''
    exact absent finds

theorem InitializesAlike.taken (alike : proxy.InitializesAlike defaultSigner)
    (noNulls : proxy.NoNulls) (lost : proxy.Lost w) (viewing : proxy.Viewing user)
    (same : userKey w = userKey user)
    (blankly : proxy.users.find (buildProxyUserKey user.username []) = some (some found))
    (blank : found.password = []) : w.username = found.username ∧ w.password = [] := by
  have free := lost.free noNulls
  rw [same] at free
  have finds : proxy.Finds user := finds_iff.mpr (.inr ⟨free, found, blankly, blank⟩)
  obtain ⟨⟨key, viewer, stored, owner⟩, missing⟩ := lost
  obtain ⟨key', viewer', stored', owner'⟩ := viewing
  have different : key' ≠ key := by
    rintro rfl
    obtain rfl := MapVar.find_unique stored stored'
    obtain rfl := Option.some.inj (owner.symm.trans owner')
    exact missing finds
  obtain ⟨next, next', made, made', -, logins⟩ :=
    alike ((sortedOrder byteRank).first key) ((sortedOrder byteRank).first key')
  -- with `w` registered first, the viewer is linked to it
  have first : next.linkedLogin key' = some (w.username, w.password) := by
    obtain ⟨mid, linked, rest⟩ := initializeProxy_first (Finmap.mem_iff.mpr ⟨_, stored⟩) made
    have table := linkViewer_registers missing stored owner linked
    have still : mid.viewers.find key' = some (some viewer') := by
      rw [(linkViewer_viewers linked).2 key' different, withDefaults_viewers_find, stored']
    have member : key' ∈ ((sortedOrder byteRank).over proxy.viewers.content).filter (· ≠ key) :=
      List.mem_filter.mpr ⟨((sortedOrder byteRank).mem_over _ key').mpr
        (Finmap.mem_iff.mpr ⟨_, stored'⟩), decide_eq_true different⟩
    obtain ⟨after, there, ⟨nobody, -⟩ | ⟨user', other, held, links, serves⟩⟩ :=
      linkAll_serves (((sortedOrder byteRank).nodup _).filter _) rest member still
    · rw [nobody] at owner'
      contradiction
    · obtain rfl := Option.some.inj (owner'.symm.trans held)
      have registered : mid.users.find (userKey user) = some (some w) := by
        rw [table, if_pos same.symm]
      rcases serves with own | ⟨absent, -⟩
      · have kept := (linkAll_extends rest).keeps registered
        obtain rfl := MapVar.find_unique own kept
        exact linkedLogin_some there links
      · rw [registered] at absent
        contradiction
  -- visited first itself, it is linked to the user with the blank password
  have second : next'.linkedLogin key' = some (found.username, []) := by
    obtain ⟨mid, linked, rest⟩ := initializeProxy_first (Finmap.mem_iff.mpr ⟨_, stored'⟩) made'
    have start := (withDefaults_viewers_find proxy defaultSigner key').trans stored'
    have outside : key' ∉ ((sortedOrder byteRank).over proxy.viewers.content).filter (· ≠ key') :=
      fun member => of_decide_eq_true (List.mem_filter.mp member).2 rfl
    have table (other : Bytes) : mid.users.find other = proxy.users.find other := by
      rcases linkViewer_table linked with ⟨unchanged, -⟩ | ⟨v, user', there, held, lost', -⟩
      · rw [unchanged, withDefaults_users_find]
      · obtain rfl := MapVar.find_unique start there
        obtain rfl := Option.some.inj (owner'.symm.trans held)
        exact absurd (withDefaults_finds.mpr finds) lost'
    obtain ⟨after, there, ⟨nobody, -⟩ | ⟨user', other, held, links, serves⟩⟩ :=
      linkViewer_serves linked start
    · rw [nobody] at owner'
      contradiction
    · obtain rfl := Option.some.inj (owner'.symm.trans held)
      rw [← linkAll_untouched rest outside] at there
      rcases serves with own | ⟨-, served, none⟩
      · rw [table, free] at own
        contradiction
      · rw [table, blankly] at served
        obtain rfl := Option.some.inj (Option.some.inj served)
        rw [linkedLogin_some there links, none]
  have equal := first.symm.trans ((logins key').trans second)
  exact Prod.mk.inj (Option.some.inj equal)

theorem initializesAlike_iff (noNulls : proxy.NoNulls) (defaultSigner : Option Signer) :
    proxy.InitializesAlike defaultSigner ↔ proxy.Unambiguous := by
  constructor
  · intro alike
    constructor
    · intro w w' lost lost' same
      exact alike.own lost lost' same
    · intro w w' lost lost' secret blank
      exact alike.blank noNulls lost lost' secret blank
    · intro w user found lost viewing same blankly blank
      exact alike.taken noNulls lost viewing same blankly blank
  · intro unambiguous order order'
    obtain ⟨next, made, -⟩ := initializeProxy_returns noNulls.linkable defaultSigner order
    obtain ⟨next', made', -⟩ := initializeProxy_returns noNulls.linkable defaultSigner order'
    refine ⟨next, next', made, made', ?_, ?_⟩
    · exact unambiguous.users_alike noNulls made made'
    · intro key
      exact unambiguous.logins_alike noNulls made made' key

end ProxyContext
open ProxyContext

/-- Loading gives the same table of users and the same links, whatever the order. -/
def LoadsAlike (data : Bytes) (signer : Option Signer) : Prop :=
  ∀ order order' : RangeOrder Bytes, ∃ next next',
    makeProxyFromJSON data signer order = .ok (some next) ∧
    makeProxyFromJSON data signer order' = .ok (some next') ∧
    next.users = next'.users ∧ ∀ key, next.linkedLogin key = next'.linkedLogin key

variable {data : Bytes} {decoded : ProxyContext} {signer : Option Signer}

theorem makeProxyFromJSON_eq (read : ProxyContext.codec.unmarshal data {} = some decoded)
    (order : RangeOrder Bytes) {next : ProxyContext} :
    makeProxyFromJSON data signer order = .ok (some next) ↔
      decoded.initializeProxy signer order = .ok next := by
  unfold makeProxyFromJSON
  rw [read]
  cases ran : decoded.initializeProxy signer order with
  | error panic => simp [ran, bind, Except.bind]
  | ok ready => simp [ran, bind, Except.bind, pure, Except.pure]

theorem loadsAlike_iff (read : ProxyContext.codec.unmarshal data {} = some decoded) :
    LoadsAlike data signer ↔ decoded.InitializesAlike signer := by
  simp only [LoadsAlike, InitializesAlike, makeProxyFromJSON_eq read]

/-- Without null entries, what is loaded is the same for every order if and only if no user that
loading registers is ambiguous. -/
theorem loading_ordered_iff (read : ProxyContext.codec.unmarshal data {} = some decoded)
    (noNulls : decoded.NoNulls) (signer : Option Signer) :
    LoadsAlike data signer ↔ decoded.Unambiguous := by
  rw [loadsAlike_iff read]
  exact initializesAlike_iff noNulls signer

/-- The decoded viewer of that user. -/
def viewerOf (user : ProxyUser) : ProxySessionViewer := { user := some user }

/-- The user `a` is registered and has a viewer; the user `c` has one, but is not registered. -/
def registeredData : Bytes :=
  lit "\x7b\"Users\":\x7b\"a:b\":\x7b\"Username\":\"a\",\"Password\":\"b\"\x7d\x7d,\"Viewers\":\x7b" ++
    lit "\"k\":\x7b\"User\":\x7b\"Username\":\"a\",\"Password\":\"b\"\x7d\x7d," ++
    lit "\"l\":\x7b\"User\":\x7b\"Username\":\"c\"\x7d\x7d\x7d\x7d"

def registeredUser : ProxyUser := { username := lit "a", password := lit "b" }

def lostUser : ProxyUser := { username := lit "c" }

theorem registeredData_decodes : ∃ decoded,
    ProxyContext.codec.unmarshal registeredData {} = some decoded ∧ decoded.NoNulls ∧
    decoded.users.content.keys = {lit "a:b"} ∧
    decoded.users.find (lit "a:b") = some (some registeredUser) ∧
    decoded.viewers.content.keys = {lit "k", lit "l"} ∧
    decoded.viewers.find (lit "k") = some (some (viewerOf registeredUser)) ∧
    decoded.viewers.find (lit "l") = some (some (viewerOf lostUser)) := by
  have read : ∃ decoded ∈ ProxyContext.codec.unmarshal registeredData {},
      decoded.users.content.keys = {lit "a:b"} ∧
      decoded.users.find (lit "a:b") = some (some registeredUser) ∧
      decoded.viewers.content.keys = {lit "k", lit "l"} ∧
      decoded.viewers.find (lit "k") = some (some (viewerOf registeredUser)) ∧
      decoded.viewers.find (lit "l") = some (some (viewerOf lostUser)) := by
    decide +kernel
  obtain ⟨decoded, same, users, stored, viewers, first, second⟩ := read
  refine ⟨decoded, same, .of_keys ?_ ?_, users, stored, viewers, first, second⟩
  · simp [users, stored]
  · simp [viewers, first, second]

theorem loading_ordered_iff_registered : ∃ decoded,
    ProxyContext.codec.unmarshal registeredData {} = some decoded ∧ decoded.Lost lostUser ∧
      LoadsAlike registeredData none := by
  obtain ⟨decoded, read, noNulls, users, stored, viewers, first, second⟩ :=
    registeredData_decodes
  have entry (key : Bytes) (val) (there : decoded.users.find key = some val) :
      key = lit "a:b" ∧ val = some registeredUser := by
    have member := Finmap.mem_keys.mpr (Finmap.mem_of_lookup_eq_some there)
    rw [users, Finset.mem_singleton] at member
    rw [member, stored] at there
    exact ⟨member, (Option.some.inj there).symm⟩
  have viewing (key : Bytes) (val) (there : decoded.viewers.find key = some val) :
      val = some (viewerOf registeredUser) ∨ val = some (viewerOf lostUser) := by
    have member := Finmap.mem_keys.mpr (Finmap.mem_of_lookup_eq_some there)
    rw [viewers, Finset.mem_insert, Finset.mem_singleton] at member
    rcases member with rfl | rfl
    · exact .inl (Option.some.inj (there.symm.trans first))
    · exact .inr (Option.some.inj (there.symm.trans second))
  have lost : decoded.Lost lostUser := by
    refine ⟨⟨lit "l", _, second, rfl⟩, fun finds => ?_⟩
    rcases finds_iff.mp finds with ⟨found, there⟩ | ⟨-, found, there, -⟩
    · exact absurd (entry _ _ there).1 (by decide)
    · exact absurd (entry _ _ there).1 (by decide)
  -- the other viewer's user is found
  have only (w : ProxyUser) (missed : decoded.Lost w) : w = lostUser := by
    obtain ⟨⟨key, viewer, there, owner⟩, missing⟩ := missed
    rcases viewing key _ there with same | same
    · obtain rfl := Option.some.inj same
      obtain rfl := Option.some.inj owner
      exact absurd (finds_iff.mpr (.inl ⟨_, stored⟩)) missing
    · obtain rfl := Option.some.inj same
      exact (Option.some.inj owner).symm
  refine ⟨decoded, read, lost, (loading_ordered_iff read noNulls none).mpr ⟨?_, ?_, ?_⟩⟩
  · intro w w' missed missed' _
    rw [only w missed, only w' missed']
  · intro w w' missed _ secret _
    exact absurd (only w missed ▸ rfl) secret
  · intro w user found _ _ _ blankly blank
    obtain rfl := Option.some.inj (entry _ _ blankly).2
    exact absurd blank (by decide)

/-- Two viewers of one name, one with a password and one without, and no users. -/
def twoViewersData : Bytes :=
  lit "\x7b\"Viewers\":\x7b\"k\":\x7b\"User\":\x7b\"Username\":\"a\",\"Password\":\"b\"\x7d\x7d," ++
    lit "\"l\":\x7b\"User\":\x7b\"Username\":\"a\"\x7d\x7d\x7d\x7d"

theorem twoViewersData_decodes : ∃ decoded,
    ProxyContext.codec.unmarshal twoViewersData {} = some decoded ∧ decoded.NoNulls ∧
    (∀ key, decoded.users.find key = none) ∧
    decoded.viewers.find (lit "k") =
      some (some (viewerOf { username := lit "a", password := lit "b" })) ∧
    decoded.viewers.find (lit "l") = some (some (viewerOf { username := lit "a" })) := by
  have read : (ProxyContext.codec.unmarshal twoViewersData {}).map (fun decoded =>
      (decoded.viewers.content.keys, decoded.users.content.keys,
        decoded.viewers.find (lit "k"), decoded.viewers.find (lit "l"))) =
      some ({lit "k", lit "l"}, ∅, some (some (viewerOf
        { username := lit "a", password := lit "b" })),
        some (some (viewerOf { username := lit "a" }))) := by
    decide +kernel
  obtain ⟨decoded, same, found⟩ := Option.map_eq_some_iff.mp read
  obtain ⟨keys, rest⟩ := Prod.mk.inj found
  obtain ⟨users, rest⟩ := Prod.mk.inj rest
  obtain ⟨first, second⟩ := Prod.mk.inj rest
  have nobody (key : Bytes) : decoded.users.find key = none := by
    refine Finmap.lookup_eq_none.mpr fun member => ?_
    rw [← Finmap.mem_keys, users] at member
    exact Finset.notMem_empty key member
  refine ⟨decoded, same, .of_keys ?_ ?_, nobody, first, second⟩
  · simp [users]
  · simp [keys, first, second]

/-- Where the user without a password is registered first, the other is not registered at all. -/
theorem loading_order_matters :
    ¬∀ data decoded, ProxyContext.codec.unmarshal data {} = some decoded → decoded.NoNulls →
      ∀ signer, LoadsAlike data signer := by
  intro claim
  obtain ⟨decoded, read, noNulls, nobody, first, second⟩ := twoViewersData_decodes
  have alike := (loadsAlike_iff read).mp (claim twoViewersData decoded read noNulls none)
  have missing (user : ProxyUser) : ¬decoded.Finds user := by
    rw [finds_iff]
    rintro (⟨found, stored⟩ | ⟨-, found, stored, -⟩)
    · rw [nobody] at stored
      exact Option.some_ne_none _ stored.symm
    · rw [nobody] at stored
      exact Option.some_ne_none _ stored.symm
  have lost : decoded.Lost { username := lit "a", password := lit "b" } :=
    ⟨⟨lit "k", _, first, rfl⟩, missing _⟩
  have lost' : decoded.Lost { username := lit "a" } := ⟨⟨lit "l", _, second, rfl⟩, missing _⟩
  exact alike.blank noNulls lost lost' (by decide) rfl rfl

end SSHProxyPlus
