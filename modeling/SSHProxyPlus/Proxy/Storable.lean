import SSHProxyPlus.Proxy.Initialization

/-! Proxies that can be saved: all their texts are UTF-8, and no map, viewer or logger is
missing. Every proxy that the controller makes is one, and stays one. -/
namespace SSHProxyPlus
open Go

theorem validUTF8_of_each {s : Bytes} (each : ∀ b ∈ s, ValidUTF8 [b]) : ValidUTF8 s := by
  induction s with
  | nil => exact validUTF8_utf8 []
  | cons b s ih =>
    obtain ⟨first, rest⟩ := List.forall_mem_cons.mp each
    exact first.append (ih rest)

theorem secretLetters_valid : ∀ b ∈ secretLetters, ValidUTF8 [b] := by
  unfold ValidUTF8
  decide +kernel

theorem generateRandomString_valid {n : Nat} {draw : RandomSource} {secret : Bytes}
    (random : generateRandomString n draw = some secret) : ValidUTF8 secret := by
  have letters : ∀ (turns : List Nat) (secret : Bytes),
      (turns.mapM fun i => (draw i).map fun num => secretLetters.get num) = some secret →
      ∀ b ∈ secret, b ∈ secretLetters := by
    intro turns
    induction turns with
    | nil =>
      intro secret drawn
      obtain rfl := Option.some.inj drawn
      exact List.forall_mem_nil _
    | cons turn turns ih =>
      intro secret drawn
      rw [List.mapM_cons] at drawn
      obtain ⟨b, first, drawn⟩ := Option.bind_eq_some_iff.mp drawn
      obtain ⟨later, rest, same⟩ := Option.bind_eq_some_iff.mp drawn
      obtain rfl := Option.some.inj same
      obtain ⟨num, -, rfl⟩ := Option.map_eq_some_iff.mp first
      exact List.forall_mem_cons.mpr ⟨List.get_mem _ _, ih later rest⟩
  exact validUTF8_of_each fun b member => secretLetters_valid b (letters _ secret random b member)

theorem buildProxyUserKey_valid {username password : Bytes} (name : ValidUTF8 username)
    (word : ValidUTF8 password) : ValidUTF8 (buildProxyUserKey username password) :=
  (name.append (validUTF8_utf8 _)).append word

structure ProxySessionViewer.ValidStrings (viewer : ProxySessionViewer) : Prop where
  secret : ValidUTF8 viewer.secret
  sessionKey : ValidUTF8 viewer.sessionKey
  user : ∀ user, viewer.user = some user → user.ValidStrings

namespace ProxyContext
variable {proxy next : ProxyContext}

/-- All its texts are UTF-8. -/
structure ValidTexts (proxy : ProxyContext) : Prop where
  strings : proxy.ValidStrings
  users : ∀ key val, proxy.users.find key = some val →
    ValidUTF8 key ∧ ∀ user, val = some user → user.ValidStrings
  viewers : ∀ key val, proxy.viewers.find key = some val →
    ValidUTF8 key ∧ ∀ viewer, val = some viewer → viewer.ValidStrings

/-- A proxy that can be saved. -/
structure Storable (proxy : ProxyContext) : Prop where
  log : proxy.log ≠ none
  usersMade : proxy.users ≠ none
  viewersMade : proxy.viewers ≠ none
  viewer : ∀ key, proxy.viewers.find key ≠ some none
  texts : proxy.ValidTexts

/-- The other fields have no texts that are encoded. -/
theorem ValidStrings.keeps (strings : proxy.ValidStrings) {log : Option Logger}
    {privateKey : Option Signer} {users : UserTable} {viewers : ViewerTable}
    {userSessions : MapVar Bytes (GoMap Bytes SessionRef)} {allSessions : MapVar Bytes SessionRef} :
    ValidStrings { proxy with log, privateKey, users, viewers, userSessions, allSessions } :=
  { strings with }

theorem Decoded.texts (decoded : proxy.Decoded) : proxy.ValidTexts where
  strings := decoded.strings
  users key val stored :=
    (decoded.users key val stored).imp_right fun each user same => (each user same).strings
  viewers key val stored := (decoded.viewers key val stored).imp_right fun each viewer same =>
    ⟨(each viewer same).secret, (each viewer same).sessionKey,
      fun user held => ((each viewer same).user user held).strings⟩

theorem ValidTexts.updateViewer (texts : proxy.ValidTexts) {key : Bytes}
    {viewer : ProxySessionViewer} (name : ValidUTF8 key) (valid : viewer.ValidStrings) :
    (proxy.updateViewer key viewer).ValidTexts := by
  obtain ⟨strings, users, viewers⟩ := texts
  refine ⟨strings.keeps, users, fun other val stored => ?_⟩
  rw [updateViewer_find] at stored
  split at stored
  · next here =>
    refine ⟨here.1 ▸ name, fun held same => ?_⟩
    exact Option.some.inj (same ▸ Option.some.inj stored) ▸ valid
  · exact viewers other val stored

theorem ValidTexts.addUser (texts : proxy.ValidTexts) {entries : GoMap Bytes (Option ProxyUser)}
    (made : proxy.users = some entries) {user : ProxyUser} (valid : user.ValidStrings) :
    ValidTexts { proxy with
      users := some (entries.insert (buildProxyUserKey user.username user.password) (some user)) } := by
  obtain ⟨strings, users, viewers⟩ := texts
  refine ⟨strings.keeps, fun key val stored => ?_, viewers⟩
  rw [MapVar.find_some, lookup_insert_if] at stored
  split at stored
  · next here =>
    refine ⟨here ▸ buildProxyUserKey_valid valid.1 valid.2.1, fun other same => ?_⟩
    exact Option.some.inj (same ▸ Option.some.inj stored) ▸ valid
  · exact users key val (by rw [made]; exact stored)

theorem ValidTexts.linkViewer {key : Bytes} (texts : proxy.ValidTexts)
    (linked : proxy.linkViewer key = .ok next) : next.ValidTexts := by
  rcases linkViewer_cases linked with
    ⟨_, rfl⟩ | ⟨viewer, stored, ⟨owner, rfl⟩ | ⟨user, owner, found | missing⟩⟩
  · exact texts
  · obtain ⟨name, valid⟩ := texts.viewers key _ stored
    obtain ⟨secret, sessionKey, held⟩ := valid viewer rfl
    exact texts.updateViewer name ⟨secret, sessionKey, held⟩
  · obtain ⟨found, blank, looked, rfl⟩ := found
    obtain ⟨name, valid⟩ := texts.viewers key _ stored
    obtain ⟨secret, sessionKey, -⟩ := valid viewer rfl
    obtain ⟨other, registered⟩ := getProxyUser_registered looked
    refine texts.updateViewer name ⟨secret, sessionKey, fun user held => ?_⟩
    exact Option.some.inj held ▸ (texts.users other _ registered).2 found rfl
  · obtain ⟨_, registered, _, _, _, added, rfl⟩ := missing
    obtain ⟨name, valid⟩ := texts.viewers key _ stored
    obtain ⟨secret, sessionKey, held⟩ := valid viewer rfl
    obtain ⟨entries, made, rfl, rfl⟩ := addProxyUser_cases added
    exact (texts.addUser made (held user owner)).updateViewer name ⟨secret, sessionKey, held⟩

theorem ValidTexts.withDefaults (texts : proxy.ValidTexts) (signer : Option Signer) :
    (proxy.withDefaults signer).ValidTexts := by
  obtain ⟨strings, users, viewers⟩ := texts
  refine ⟨strings.keeps, fun key val stored => ?_, fun key val stored => ?_⟩
  · rw [withDefaults_users_find] at stored
    exact users key val stored
  · rw [withDefaults_viewers_find] at stored
    exact viewers key val stored

/-- What is initialized can be saved. -/
theorem ValidTexts.initializeProxy {signer : Option Signer} {order : RangeOrder Bytes}
    (texts : proxy.ValidTexts) (made : proxy.initializeProxy signer order = .ok next) :
    next.Storable := by
  obtain ⟨usersMade, viewersMade⟩ := initializeProxy_made made
  have kept : next.ValidTexts := foldlM_keeps ValidTexts
    (fun _ _ _ before linked => before.linkViewer linked) (texts.withDefaults signer) made
  refine ⟨?_, usersMade, viewersMade, initializeProxy_viewer made, kept⟩
  obtain ⟨users, viewers, rfl⟩ := initializeProxy_changes made
  cases log : proxy.log <;> simp [ProxyContext.withDefaults, log]

theorem makeNewProxy_storable (signer : Option Signer) : (makeNewProxy signer).Storable where
  log := Option.some_ne_none _
  usersMade := Option.some_ne_none _
  viewersMade := Option.some_ne_none _
  viewer key found := by
    have absent : (makeNewProxy signer).viewers.find key = none := Finmap.lookup_empty key
    rw [absent] at found
    contradiction
  texts :=
    { strings := ⟨validUTF8_utf8 _, validUTF8_utf8 _, validUTF8_utf8 _, validUTF8_utf8 [],
        validUTF8_utf8 [], validUTF8_utf8 [], validUTF8_utf8 [], validUTF8_utf8 _, validUTF8_utf8 []⟩
      users := fun key val stored => by
        have absent : (makeNewProxy signer).users.find key = none := Finmap.lookup_empty key
        rw [absent] at stored
        contradiction
      viewers := fun key val stored => by
        have absent : (makeNewProxy signer).viewers.find key = none := Finmap.lookup_empty key
        rw [absent] at stored
        contradiction }

theorem Storable.withLog (storable : proxy.Storable) {log : Option Logger} (logging : log ≠ none) :
    Storable { proxy with log } := by
  obtain ⟨-, usersMade, viewersMade, viewer, strings, users, viewers⟩ := storable
  exact ⟨logging, usersMade, viewersMade, viewer, strings.keeps, users, viewers⟩

theorem Storable.addProxyUser (storable : proxy.Storable) {user : ProxyUser}
    (valid : user.ValidStrings) {key : Bytes} (added : proxy.addProxyUser user = .ok (next, key)) :
    next.Storable := by
  obtain ⟨entries, made, rfl, rfl⟩ := addProxyUser_cases added
  exact ⟨storable.log, Option.some_ne_none _, storable.viewersMade, storable.viewer,
    storable.texts.addUser made valid⟩

theorem Storable.removeProxyUser (storable : proxy.Storable) (username password : Bytes) :
    (proxy.removeProxyUser username password).1.Storable := by
  have kept : (proxy.removeProxyUser username password).1.users ≠ none := by
    obtain ⟨entries, made⟩ := Option.ne_none_iff_exists'.mp storable.usersMade
    simp only [ProxyContext.removeProxyUser]
    split <;> simp [made]
  obtain ⟨users, removed, among⟩ := proxy.removeProxyUser_changes username password
  rw [removed] at kept ⊢
  obtain ⟨log, -, viewersMade, viewer, strings, stored, viewers⟩ := storable
  exact ⟨log, kept, viewersMade, viewer, strings.keeps,
    fun key val found => stored key val (among key val found), viewers⟩

theorem Storable.addSessionViewer (storable : proxy.Storable) {viewer : ProxySessionViewer}
    (valid : viewer.ValidStrings) (added : proxy.addSessionViewer viewer = .ok next) :
    next.Storable := by
  obtain ⟨entries, made, rfl⟩ := addSessionViewer_ok added
  obtain ⟨log, usersMade, -, notNil, strings, users, viewers⟩ := storable
  rw [made] at notNil viewers
  refine ⟨log, usersMade, Option.some_ne_none _, fun key nil => ?_, strings.keeps, users,
    fun key val stored => ?_⟩
  · rw [MapVar.find_some, lookup_insert_if] at nil
    split at nil
    · exact absurd (Option.some.inj nil) (Option.some_ne_none viewer)
    · exact notNil key nil
  · rw [MapVar.find_some, lookup_insert_if] at stored
    split at stored
    · next here =>
      refine ⟨here ▸ valid.secret, fun held same => ?_⟩
      exact Option.some.inj (same ▸ Option.some.inj stored) ▸ valid
    · exact viewers key val stored

/-- A viewer of a registered user, with whatever session key. -/
theorem Storable.newViewer (storable : proxy.Storable) {username password sessionKey : Bytes}
    {user : ProxyUser} {blank : Bool} (valid : ValidUTF8 sessionKey) {viewerType : Int64}
    {draw : RandomSource} {viewer : ProxySessionViewer}
    (looked : proxy.getProxyUser username password true = .ok (.ok (some user, blank)))
    (created : createNewSessionViewer viewerType user draw = .ok viewer)
    (added : proxy.addSessionViewer { viewer with sessionKey } = .ok next) : next.Storable := by
  obtain ⟨secret, random, rfl⟩ := createNewSessionViewer_ok created
  obtain ⟨owner, key, same, registered⟩ := getProxyUser_clone looked
  obtain rfl := Option.some.inj same
  refine storable.addSessionViewer ⟨generateRandomString_valid random, valid, ?_⟩ added
  rintro held ⟨⟩
  exact (storable.texts.users key _ registered).2 user rfl

theorem Storable.makeSessionViewerForUser (storable : proxy.Storable) {username password : Bytes}
    {draw : RandomSource} {result : Except Bytes ProxySessionViewer}
    (made : proxy.makeSessionViewerForUser username password draw = .ok (next, result)) :
    next.Storable := by
  obtain ⟨found, looked, made⟩ := of_bind_ok made
  split at made
  · obtain ⟨viewer, created, made⟩ := of_bind_ok made
    obtain ⟨added, stored, made⟩ := of_bind_ok made
    obtain ⟨rfl, -⟩ := Prod.mk.inj (Except.ok.inj made)
    obtain ⟨secret, -, rfl⟩ := createNewSessionViewer_ok created
    exact storable.newViewer (validUTF8_utf8 []) looked created stored
  · obtain ⟨rfl, -⟩ := Prod.mk.inj (Except.ok.inj made)
    exact storable
  · obtain ⟨rfl, -⟩ := Prod.mk.inj (Except.ok.inj made)
    exact storable

theorem Storable.makeSessionViewerForSession (storable : proxy.Storable)
    {username password session : Bytes} (valid : ValidUTF8 session) {draw : RandomSource}
    {result : Except Bytes ProxySessionViewer}
    (made : proxy.makeSessionViewerForSession username password session draw = .ok (next, result)) :
    next.Storable := by
  obtain ⟨found, looked, made⟩ := of_bind_ok made
  split at made
  · obtain ⟨viewer, created, made⟩ := of_bind_ok made
    obtain ⟨added, stored, made⟩ := of_bind_ok made
    obtain ⟨rfl, -⟩ := Prod.mk.inj (Except.ok.inj made)
    exact storable.newViewer valid looked created stored
  · obtain ⟨rfl, -⟩ := Prod.mk.inj (Except.ok.inj made)
    exact storable
  · obtain ⟨rfl, -⟩ := Prod.mk.inj (Except.ok.inj made)
    exact storable

end ProxyContext
end SSHProxyPlus
