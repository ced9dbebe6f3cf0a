import SSHProxyPlus.Proxy.Storable

/-! What a proxy is after it was encoded, decoded and initialized: who is let in as before, and
whom `Initialize` lets in again because a viewer still names them. -/
namespace SSHProxyPlus
open Go

theorem ProxyUser.codec_reads {user : ProxyUser} (valid : user.ValidStrings) :
    ProxyUser.codec.ReadsAs user user.configured := by
  obtain ⟨username, password, remoteHost, remoteUsername, remotePassword⟩ := valid
  refine structCodec_readsAs rfl (by decide) ?_
  rw [fields, StructField.readBack_valid username rfl, StructField.readBack_valid password rfl,
    StructField.readBack_valid remoteHost rfl, StructField.readBack_valid remoteUsername rfl,
    StructField.readBack_valid remotePassword rfl]
  rfl

namespace ProxySessionViewer

/-- What `encoding/json` keeps of a viewer. -/
def configured (viewer : ProxySessionViewer) : ProxySessionViewer :=
  { viewer with linked := false, expiration := 0, user := viewer.user.map ProxyUser.configured }

theorem codec_reads {viewer : ProxySessionViewer} (valid : viewer.ValidStrings) :
    codec.ReadsAs viewer viewer.configured := by
  obtain ⟨secret, sessionKey, user⟩ := valid
  have owner : (pointerCodec ProxyUser.codec).ReadsAs viewer.user
      (viewer.user.map ProxyUser.configured) := by
    cases held : viewer.user with
    | none => rfl
    | some u => exact pointerCodec_reads (ProxyUser.codec_reads (user u held)) Json.noConfusion
  refine structCodec_readsAs rfl (by decide) ?_
  rw [fields, StructField.readBack_untagged (intCodec_reads viewer.viewerType) rfl,
    StructField.readBack_valid secret rfl, StructField.readBack_untagged owner rfl,
    StructField.readBack_valid sessionKey rfl]
  rfl

end ProxySessionViewer

namespace ProxyContext

/-- What logging in goes by, but for the users. -/
structure SameSettings (proxy restored : ProxyContext) : Prop where
  defaultRemoteHost : restored.getDefaultRemoteHost = proxy.getDefaultRemoteHost
  overridePassword : restored.overridePassword = proxy.overridePassword
  overrideUser : restored.overrideUser = proxy.overrideUser
  requireValidPassword : restored.requireValidPassword = proxy.requireValidPassword

/-- What is decoded of a proxy. -/
structure DecodedAs (proxy decoded : ProxyContext) : Prop where
  settings : proxy.SameSettings decoded
  users : ∀ key, decoded.users.find key =
    (proxy.users.find key).map (Option.map ProxyUser.configured)
  viewers : ∀ key, decoded.viewers.find key =
    (proxy.viewers.find key).map (Option.map ProxySessionViewer.configured)

theorem codec_reads {proxy : ProxyContext} (storable : proxy.Storable) :
    ∃ decoded, codec.ReadsAs proxy decoded ∧ proxy.DecodedAs decoded := by
  obtain ⟨-, usersMade, viewersMade, -, strings, users, viewers⟩ := storable
  obtain ⟨us, someUsers⟩ := Option.ne_none_iff_exists'.mp usersMade
  obtain ⟨vs, someViewers⟩ := Option.ne_none_iff_exists'.mp viewersMade
  rw [someUsers] at users
  rw [someViewers] at viewers
  obtain ⟨us', usersRead, userLookups⟩ := pointerMap_reads ProxyUser.codec us ProxyUser.configured
    fun key val stored => (users key val stored).imp_right fun each user same =>
      ⟨ProxyUser.codec_reads (each user same), Json.noConfusion⟩
  obtain ⟨vs', viewersRead, viewerLookups⟩ := pointerMap_reads ProxySessionViewer.codec vs
    ProxySessionViewer.configured fun key val stored =>
      (viewers key val stored).imp_right fun each viewer same =>
        ⟨ProxySessionViewer.codec_reads (each viewer same), Json.noConfusion⟩
  rw [← someUsers] at usersRead
  rw [← someViewers] at viewersRead
  refine ⟨{ proxy with
    running := false, listener := none, privateKey := none, log := none, userSessions := none
    allSessions := none, active := false, users := some us', viewers := some vs' },
    ?_, ⟨rfl, rfl, rfl, rfl⟩, fun key => ?_, fun key => ?_⟩
  · refine structCodec_readsAs rfl (by decide) ?_
    rw [fields, StructField.readBack_untagged (intCodec_reads proxy.defaultRemotePort) rfl,
      StructField.readBack_valid strings.defaultRemoteIP rfl,
      StructField.readBack_valid strings.listenIP rfl,
      StructField.readBack_untagged (intCodec_reads proxy.listenPort) rfl,
      StructField.readBack_valid strings.sessionFolder rfl,
      StructField.readBack_valid strings.tlsCert rfl,
      StructField.readBack_valid strings.tlsKey rfl,
      StructField.readBack_valid strings.overridePassword rfl,
      StructField.readBack_valid strings.overrideUser rfl,
      StructField.readBack_untagged (intCodec_reads proxy.webListenPort) rfl,
      StructField.readBack_valid strings.serverVersion rfl,
      StructField.readBack_untagged usersRead rfl,
      StructField.readBack_untagged (boolCodec_reads proxy.requireValidPassword) rfl,
      StructField.readBack_untagged (boolCodec_reads proxy.publicAccess) rfl,
      StructField.readBack_untagged viewersRead rfl,
      StructField.readBack_valid strings.baseURI rfl]
    rfl
  · rw [MapVar.find_some, userLookups, someUsers, MapVar.find_some]
  · rw [MapVar.find_some, viewerLookups, someViewers, MapVar.find_some]

variable {proxy next : ProxyContext} {key : Bytes} {user : ProxyUser}

/-- The key a user is stored under. -/
def userKey (user : ProxyUser) : Bytes := buildProxyUserKey user.username user.password

/-- `GetProxyUser` gives somebody for the user. -/
def Finds (proxy : ProxyContext) (user : ProxyUser) : Prop :=
  ∃ found blank,
    proxy.getProxyUser user.username user.password false = .ok (.ok (some found, blank))

/-- One of the viewers is for the user. -/
def Viewing (proxy : ProxyContext) (user : ProxyUser) : Prop :=
  ∃ key viewer, proxy.viewers.find key = some (some viewer) ∧ viewer.user = some user

theorem finds_iff : proxy.Finds user ↔
    (∃ found, proxy.users.find (userKey user) = some (some found)) ∨
    (proxy.users.find (userKey user) = none ∧
      ∃ found, proxy.users.find (buildProxyUserKey user.username []) = some (some found) ∧
        found.password = []) := by
  unfold Finds getProxyUser userKey
  cases exactly : proxy.users.find (buildProxyUserKey user.username user.password) with
  | some val => cases val <;> simp [pure, Except.pure]
  | none =>
    cases blankly : proxy.users.find (buildProxyUserKey user.username []) with
    | none => simp [pure, Except.pure]
    | some val =>
      cases val with
      | none => simp [deref, bind, Except.bind]
      | some found =>
        by_cases blank : found.password = [] <;>
          simp [blank, bind, Except.bind, pure, Except.pure]

/-- Nobody is lost, and an entry that changes is somebody new. -/
def Extends (proxy next : ProxyContext) : Prop :=
  ∀ key, next.users.find key = proxy.users.find key ∨
    (∀ user, proxy.users.find key ≠ some (some user)) ∧
      ∃ user, next.users.find key = some (some user)

theorem Extends.keeps (extends' : Extends proxy next) {found : ProxyUser}
    (stored : proxy.users.find key = some (some found)) :
    next.users.find key = some (some found) := by
  rcases extends' key with same | ⟨nobody, -⟩
  · exact same.trans stored
  · exact absurd stored (nobody found)

theorem Finds.extends (finds : proxy.Finds user) (extends' : Extends proxy next) :
    next.Finds user := by
  rw [finds_iff] at finds ⊢
  rcases finds with ⟨found, stored⟩ | ⟨absent, found, stored, blank⟩
  · exact .inl ⟨found, extends'.keeps stored⟩
  · rcases extends' (userKey user) with same | ⟨-, somebody⟩
    · exact .inr ⟨same.trans absent, found, extends'.keeps stored, blank⟩
    · exact .inl somebody

/-- What a turn of `Initialize` does to the table: the viewer's user is added to it if nobody is
found for them. -/
theorem linkViewer_table (linked : proxy.linkViewer key = .ok next) :
    ((∀ other, next.users.find other = proxy.users.find other) ∧
      ∀ viewer user, proxy.viewers.find key = some (some viewer) → viewer.user = some user →
        proxy.Finds user) ∨
    ∃ viewer user, proxy.viewers.find key = some (some viewer) ∧ viewer.user = some user ∧
      ¬proxy.Finds user ∧ ∀ other, next.users.find other =
        if other = userKey user then some (some user) else proxy.users.find other := by
  rcases linkViewer_cases linked with
    ⟨absent, rfl⟩ | ⟨viewer, stored, ⟨none', rfl⟩ | ⟨user, owner, found | missing⟩⟩
  · refine .inl ⟨fun _ => rfl, fun viewer user there _ => ?_⟩
    rw [absent] at there
    contradiction
  · refine .inl ⟨fun _ => rfl, fun other user there owner => ?_⟩
    obtain rfl := MapVar.find_unique stored there
    rw [none'] at owner
    contradiction
  · obtain ⟨found, blank, looked, rfl⟩ := found
    refine .inl ⟨fun _ => rfl, fun other somebody there held => ?_⟩
    obtain rfl := MapVar.find_unique stored there
    obtain rfl := Option.some.inj (owner.symm.trans held)
    exact ⟨found, blank, looked⟩
  · obtain ⟨result, registered, _, looked, nobody, added, rfl⟩ := missing
    refine .inr ⟨viewer, user, stored, owner, ?_, fun other => ?_⟩
    · rintro ⟨found, blank, there⟩
      exact nobody found blank (Except.ok.inj (looked.symm.trans there))
    · obtain ⟨entries, made, rfl, rfl⟩ := addProxyUser_cases added
      change MapVar.find (some (entries.insert _ _)) other = _
      rw [MapVar.find_some, lookup_insert_if, made, MapVar.find_some]
      rfl

theorem linkViewer_extends (linked : proxy.linkViewer key = .ok next) : Extends proxy next := by
  rcases linkViewer_table linked with ⟨same, -⟩ | ⟨viewer, user, -, -, nobody, table⟩
  · exact fun other => .inl (same other)
  · intro other
    rw [table other]
    split
    · next here =>
      refine .inr ⟨fun found stored => nobody ?_, user, rfl⟩
      exact finds_iff.mpr (.inl ⟨found, here ▸ stored⟩)
    · exact .inl rfl

/-- After its turn somebody is found for a viewer's user. -/
theorem linkViewer_finds (linked : proxy.linkViewer key = .ok next)
    {viewer : ProxySessionViewer} (stored : proxy.viewers.find key = some (some viewer))
    (owner : viewer.user = some user) : next.Finds user := by
  rcases linkViewer_table linked with ⟨-, finds⟩ | ⟨other, somebody, there, held, -, table⟩
  · exact (finds viewer user stored owner).extends (linkViewer_extends linked)
  · obtain rfl := MapVar.find_unique stored there
    obtain rfl := Option.some.inj (owner.symm.trans held)
    exact finds_iff.mpr (.inl ⟨user, (table _).trans (if_pos rfl)⟩)

/-- Who is new in the table is the user of a viewer that nobody was found for. -/
def Relinked (proxy next : ProxyContext) : Prop :=
  ∀ key, next.users.find key = proxy.users.find key ∨
    (∀ user, proxy.users.find key ≠ some (some user)) ∧
      ∃ user, proxy.Viewing user ∧ ¬proxy.Finds user ∧ key = userKey user ∧
        next.users.find key = some (some user)

theorem Relinked.extends (relinked : Relinked proxy next) : Extends proxy next := fun key =>
  (relinked key).imp_right fun ⟨nobody, user, _, _, _, stored⟩ => ⟨nobody, user, stored⟩

theorem Relinked.linkViewer {mid : ProxyContext} (relinked : Relinked proxy mid)
    (unvisited : mid.viewers.find key = proxy.viewers.find key)
    (linked : mid.linkViewer key = .ok next) : Relinked proxy next := by
  rcases linkViewer_table linked with ⟨same, -⟩ | ⟨viewer, user, stored, owner, nobody, table⟩
  · intro other
    rw [same other]
    exact relinked other
  · intro other
    rw [table other]
    split
    · next here =>
      refine .inr ⟨fun found there => nobody ?_, user, ⟨key, viewer, unvisited ▸ stored, owner⟩,
        fun finds => nobody (finds.extends relinked.extends), here, rfl⟩
      exact finds_iff.mpr (.inl ⟨found, here ▸ relinked.extends.keeps there⟩)
    · exact relinked other

theorem linkAll_relinks {mid : ProxyContext} {keys : List Bytes} (distinct : keys.Nodup)
    (relinked : Relinked proxy mid)
    (unvisited : ∀ key ∈ keys, mid.viewers.find key = proxy.viewers.find key)
    (ran : keys.foldlM ProxyContext.linkViewer mid = .ok next) :
    Relinked proxy next ∧ ∀ key ∈ keys, ∀ viewer user,
      proxy.viewers.find key = some (some viewer) → viewer.user = some user → next.Finds user := by
  induction keys generalizing mid with
  | nil =>
    obtain rfl := Except.ok.inj ran
    exact ⟨relinked, fun _ none => absurd none List.not_mem_nil⟩
  | cons key keys ih =>
    rw [List.foldlM_cons] at ran
    obtain ⟨after, linked, rest⟩ := of_bind_ok ran
    obtain ⟨once, distinct⟩ := List.nodup_cons.mp distinct
    have here := unvisited key List.mem_cons_self
    obtain ⟨grown, finds⟩ := ih distinct (relinked.linkViewer here linked) (fun other member => by
      have different : other ≠ key := fun same => once (same ▸ member)
      rw [(linkViewer_viewers linked).2 other different]
      exact unvisited other (List.mem_cons_of_mem _ member)) rest
    refine ⟨grown, fun other member viewer user stored owner => ?_⟩
    rcases List.mem_cons.mp member with rfl | later
    · exact foldlM_keeps (fun p => p.Finds user)
        (fun _ _ _ found linked => found.extends (linkViewer_extends linked))
        (linkViewer_finds linked (here.trans stored) owner) rest
    · exact finds other later viewer user stored owner

theorem initializeProxy_relinks {signer : Option Signer} {order : RangeOrder Bytes}
    (made : proxy.initializeProxy signer order = .ok next) :
    Relinked proxy next ∧ ∀ user, proxy.Viewing user → next.Finds user := by
  obtain ⟨relinked, finds⟩ := linkAll_relinks (order.nodup _)
    (fun key => .inl (withDefaults_users_find proxy signer key))
    (fun key _ => withDefaults_viewers_find proxy signer key) made
  refine ⟨relinked, fun user ⟨key, viewer, stored, owner⟩ => ?_⟩
  exact finds key ((order.mem_over _ key).mpr (Finmap.mem_iff.mpr ⟨_, stored⟩)) viewer user stored
    owner

variable {decoded : ProxyContext}

theorem DecodedAs.stored (decodedAs : proxy.DecodedAs decoded) (found : ProxyUser)
    (stored : proxy.users.find key = some (some found)) :
    decoded.users.find key = some (some found.configured) := by
  rw [decodedAs.users, stored]
  rfl

theorem DecodedAs.original (decodedAs : proxy.DecodedAs decoded) {found : ProxyUser}
    (stored : decoded.users.find key = some (some found)) :
    ∃ user, proxy.users.find key = some (some user) ∧ found = user.configured := by
  rw [decodedAs.users] at stored
  obtain ⟨val, there, same⟩ := Option.map_eq_some_iff.mp stored
  obtain ⟨user, held, same⟩ := Option.map_eq_some_iff.mp same
  exact ⟨user, held ▸ there, same.symm⟩

theorem DecodedAs.finds (decodedAs : proxy.DecodedAs decoded) :
    decoded.Finds user.configured ↔ proxy.Finds user := by
  rw [finds_iff, finds_iff]
  change (∃ found, decoded.users.find (userKey user) = some (some found)) ∨
    (decoded.users.find (userKey user) = none ∧
      ∃ found, decoded.users.find (buildProxyUserKey user.username []) = some (some found) ∧
        found.password = []) ↔ _
  constructor
  · rintro (⟨found, stored⟩ | ⟨absent, found, stored, blank⟩)
    · obtain ⟨user, there, -⟩ := decodedAs.original stored
      exact .inl ⟨user, there⟩
    · obtain ⟨other, there, rfl⟩ := decodedAs.original stored
      rw [decodedAs.users, Option.map_eq_none_iff] at absent
      exact .inr ⟨absent, other, there, blank⟩
  · rintro (⟨found, stored⟩ | ⟨absent, found, stored, blank⟩)
    · exact .inl ⟨_, decodedAs.stored found stored⟩
    · refine .inr ⟨?_, _, decodedAs.stored found stored, blank⟩
      rw [decodedAs.users, absent]
      rfl

theorem DecodedAs.viewing (decodedAs : proxy.DecodedAs decoded) {owner : ProxyUser} :
    decoded.Viewing owner ↔ ∃ user, proxy.Viewing user ∧ owner = user.configured := by
  constructor
  · rintro ⟨key, viewer, stored, held⟩
    rw [decodedAs.viewers] at stored
    obtain ⟨val, there, same⟩ := Option.map_eq_some_iff.mp stored
    obtain ⟨original, rfl, rfl⟩ := Option.map_eq_some_iff.mp same
    obtain ⟨user, owned, same⟩ := Option.map_eq_some_iff.mp held
    exact ⟨user, ⟨key, original, there, owned⟩, same.symm⟩
  · rintro ⟨user, ⟨key, viewer, stored, held⟩, rfl⟩
    refine ⟨key, viewer.configured, ?_, ?_⟩
    · rw [decodedAs.viewers, stored]
      rfl
    · rw [ProxySessionViewer.configured, held]
      rfl

/-- Whoever is let in, and where that leads. -/
def decision (proxy : ProxyContext) (username password : Bytes) :
    Except Panic (Except Bytes (Option (Bytes × Bytes × Bytes))) :=
  (proxy.authenticateUser username password).map (Except.map (Option.map fun user =>
    (user.remoteHost, user.remoteUsername, user.remotePassword)))

variable {restored : ProxyContext} {username password : Bytes}

/-- The same entries, as they are decoded, give the same user. -/
theorem getProxyUser_configured
    (exactly : restored.users.find (buildProxyUserKey username password) =
      (proxy.users.find (buildProxyUserKey username password)).map
        (Option.map ProxyUser.configured))
    (blankly : proxy.users.find (buildProxyUserKey username password) = none →
      restored.users.find (buildProxyUserKey username []) =
        (proxy.users.find (buildProxyUserKey username [])).map
          (Option.map ProxyUser.configured)) :
    restored.getProxyUser username password true =
      (proxy.getProxyUser username password true).map
        (Except.map (Prod.map (Option.map ProxyUser.configured) id)) := by
  unfold getProxyUser
  rw [exactly]
  cases there : proxy.users.find (buildProxyUserKey username password) with
  | some val => cases val <;> rfl
  | none =>
    simp only [Option.map_none]
    rw [blankly there]
    cases proxy.users.find (buildProxyUserKey username []) with
    | none => rfl
    | some val =>
      cases val with
      | none => rfl
      | some user =>
        simp only [Option.map_some, deref_some, bind, Except.bind]
        by_cases blank : user.password = []
        · rw [if_pos (show user.configured.password = [] from blank), if_pos blank]
          rfl
        · rw [if_neg (show ¬user.configured.password = [] from blank), if_neg blank]
          rfl

/-- What a decision depends on. A table that was empty lets everybody in; one that is not lets
in strangers where no valid password is asked for. -/
theorem decision_eq (settings : proxy.SameSettings restored) (log : proxy.log ≠ none)
    (restoredLog : restored.log ≠ none)
    (exactly : restored.users.find (buildProxyUserKey username password) =
      (proxy.users.find (buildProxyUserKey username password)).map
        (Option.map ProxyUser.configured))
    (blankly : proxy.users.find (buildProxyUserKey username password) = none →
      restored.users.find (buildProxyUserKey username []) =
        (proxy.users.find (buildProxyUserKey username [])).map
          (Option.map ProxyUser.configured))
    (more : 0 < proxy.users.size → 0 < restored.users.size)
    (strict : 0 < restored.users.size → 0 < proxy.users.size ∨
      proxy.requireValidPassword = false) :
    restored.decision username password = proxy.decision username password := by
  obtain ⟨logger, log⟩ := Option.ne_none_iff_exists'.mp log
  obtain ⟨restoredLogger, restoredLog⟩ := Option.ne_none_iff_exists'.mp restoredLog
  have stranger : restored.defaultUser username password = proxy.defaultUser username password := by
    rw [defaultUser, defaultUser, settings.defaultRemoteHost, settings.overrideUser,
      settings.overridePassword]
  have looked := getProxyUser_configured exactly blankly
  unfold decision authenticateUser
  by_cases some' : 0 < proxy.users.size
  · rw [if_pos some', if_pos (more some'), looked]
    cases proxy.getProxyUser username password true with
    | error panic => simp only [Except.map, bind, Except.bind]
    | ok result =>
      cases result with
      | error err =>
        simp only [Except.map, bind, Except.bind, settings.requireValidPassword, stranger]
      | ok pair =>
        obtain ⟨found, blank⟩ := pair
        cases found <;> cases blank <;>
          simp [Except.map, bind, Except.bind, pure, Except.pure, log, restoredLog,
            ProxyUser.configured]
  · rw [if_neg some']
    by_cases grown : 0 < restored.users.size
    · have lenient := (strict grown).resolve_left some'
      have nobody : ∀ key, proxy.users.find key = none := fun key =>
        Option.eq_none_iff_forall_ne_some.mpr fun val stored =>
          some' ((MapVar.size_pos_iff_find _).mpr ⟨key, val, stored⟩)
      have missing : proxy.getProxyUser username password true = .ok (.error notAValidUser) := by
        simp only [getProxyUser, nobody, pure, Except.pure]
      rw [if_pos grown, looked, missing]
      simp [Except.map, bind, Except.bind, pure, Except.pure, settings.requireValidPassword,
        lenient, stranger]
    · rw [if_neg grown, stranger]

/-- A viewer's user that nobody is found for is not taken for the pair, and does not close a table
that lets everybody in. -/
structure Settled (proxy : ProxyContext) (username password : Bytes) : Prop where
  exactly : ∀ user, proxy.Viewing user → ¬proxy.Finds user →
    userKey user ≠ buildProxyUserKey username password
  blankly : proxy.users.find (buildProxyUserKey username password) = none →
    ∀ user, proxy.Viewing user → ¬proxy.Finds user →
      userKey user ≠ buildProxyUserKey username []
  unlocked : proxy.users.size = 0 → proxy.requireValidPassword = true →
    ∀ user, proxy.Viewing user → proxy.Finds user

/-- What is initialized again lets in whom it did, as far as no viewer's user comes back, and
finds the users of all viewers. -/
structure Restores (proxy restored : ProxyContext) : Prop where
  decision : ∀ username password, proxy.Settled username password →
    restored.decision username password = proxy.decision username password
  finds : ∀ user, proxy.Viewing user → restored.Finds user.configured
  among : ∀ key, restored.users.find key =
      (proxy.users.find key).map (Option.map ProxyUser.configured) ∨
    ∃ user, proxy.Viewing user ∧ ¬proxy.Finds user ∧ key = userKey user ∧
      restored.users.find key = some (some user.configured)

theorem DecodedAs.initializeProxy {signer : Option Signer} {order : RangeOrder Bytes}
    (storable : proxy.Storable) (decodedAs : proxy.DecodedAs decoded)
    (made : decoded.initializeProxy signer order = .ok next) {log : Option Logger}
    (logging : log ≠ none) : proxy.Restores { next with log } := by
  obtain ⟨relinked, finds⟩ := initializeProxy_relinks made
  have extends' := relinked.extends
  have settings : proxy.SameSettings { next with log } := by
    obtain ⟨users, viewers, rfl⟩ := initializeProxy_changes made
    exact ⟨decodedAs.settings.1, decodedAs.settings.2, decodedAs.settings.3, decodedAs.settings.4⟩
  have among : ∀ key, next.users.find key =
      (proxy.users.find key).map (Option.map ProxyUser.configured) ∨
      ∃ user, proxy.Viewing user ∧ ¬proxy.Finds user ∧ key = userKey user ∧
        next.users.find key = some (some user.configured) := by
    intro key
    refine (relinked key).imp (fun same => same.trans (decodedAs.users key)) ?_
    rintro ⟨-, owner, viewing, nobody, rfl, stored⟩
    obtain ⟨user, viewed, rfl⟩ := decodedAs.viewing.mp viewing
    exact ⟨user, viewed, fun found => nobody (decodedAs.finds.mpr found), rfl, stored⟩
  refine ⟨fun username password settled => ?_, fun user viewing => ?_, among⟩
  · refine decision_eq settings storable.log logging ?_ (fun absent => ?_) (fun some' => ?_)
      fun some' => ?_
    · refine (among _).resolve_right ?_
      rintro ⟨user, viewing, nobody, same, -⟩
      exact settled.exactly user viewing nobody same.symm
    · refine (among _).resolve_right ?_
      rintro ⟨user, viewing, nobody, same, -⟩
      exact settled.blankly absent user viewing nobody same.symm
    · obtain ⟨key, val, stored⟩ := (MapVar.size_pos_iff_find _).mp some'
      refine (MapVar.size_pos_iff_find _).mpr ⟨key, ?_⟩
      rcases among key with same | ⟨user, -, -, -, there⟩
      · exact ⟨val.map ProxyUser.configured, same.trans (by rw [stored]; rfl)⟩
      · exact ⟨_, there⟩
    · obtain ⟨key, val, stored⟩ := (MapVar.size_pos_iff_find _).mp some'
      rcases among key with same | ⟨user, viewing, nobody, -⟩
      · obtain ⟨original, there, -⟩ := Option.map_eq_some_iff.mp (same.symm.trans stored)
        exact .inl ((MapVar.size_pos_iff_find _).mpr ⟨key, original, there⟩)
      · by_cases empty : proxy.users.size = 0
        · refine .inr (Bool.eq_false_iff.mpr fun strict => ?_)
          exact nobody (settled.unlocked empty strict user viewing)
        · exact .inl (Nat.pos_of_ne_zero empty)
  · exact finds _ (decodedAs.viewing.mpr ⟨user, viewing, rfl⟩)

/-- Where initializing a proxy returns, it returns for what was decoded of it. -/
theorem DecodedAs.linkable (decodedAs : proxy.DecodedAs decoded) (linkable : proxy.Linkable) :
    decoded.Linkable := by
  refine fun key => ⟨fun nil => ?_, fun viewer user stored owner absent nil => ?_⟩
  · rw [decodedAs.viewers] at nil
    obtain ⟨val, there, same⟩ := Option.map_eq_some_iff.mp nil
    rw [Option.map_eq_none_iff.mp same] at there
    exact (linkable key).notNil there
  · rw [decodedAs.viewers] at stored
    obtain ⟨val, there, same⟩ := Option.map_eq_some_iff.mp stored
    obtain ⟨original, held, rfl⟩ := Option.map_eq_some_iff.mp same
    obtain ⟨own, owned, rfl⟩ := Option.map_eq_some_iff.mp owner
    rw [decodedAs.users, Option.map_eq_none_iff] at absent
    rw [decodedAs.users] at nil
    obtain ⟨val, blank, same⟩ := Option.map_eq_some_iff.mp nil
    rw [Option.map_eq_none_iff.mp same] at blank
    exact (linkable key).blank original own (held ▸ there) owned absent blank

end ProxyContext
end SSHProxyPlus
