import SSHProxyPlus.Proxy.Pointers
import SSHProxyPlus.Proxy.VisitOrder

/-! What loading leaves: every viewer linked, and every user that was there. -/
namespace SSHProxyPlus
open Go ProxyContext

namespace ProxyObject
variable {memory : UserMemory} {self : ProxyAddress} {object mid next : ProxyObject} {key : Bytes}

theorem updateViewer_find (other : Bytes) (viewer : ViewerObject) :
    (object.updateViewer key viewer).viewers.find other =
      if other = key ∧ object.viewers ≠ none then some (some viewer)
      else object.viewers.find other := by
  unfold updateViewer
  cases made : object.viewers with
  | none => simp
  | some entries => simp [lookup_insert_if]

theorem updateViewer_self (made : object.viewers ≠ none) (key : Bytes) (viewer : ViewerObject) :
    (object.updateViewer key viewer).viewers.find key = some (some viewer) := by
  rw [updateViewer_find, if_pos ⟨rfl, made⟩]

/-- Whoever is found is stored, and nobody is only where the user's own key is free. -/
theorem getProxyUser_stored {username password : Bytes}
    {result : Except Bytes (Option UserRef × Bool)}
    (looked : object.getProxyUser memory username password = .ok result) :
    (∀ found blank, result = .ok (some found, blank) →
      ∃ userKey, object.users.find userKey = some (some found)) ∧
    ((∀ found blank, result ≠ .ok (some found, blank)) → ∀ found,
      object.users.find (buildProxyUserKey username password) ≠ some (some found)) := by
  unfold getProxyUser at looked
  constructor
  · rintro found blank rfl
    split at looked
    · next val stored =>
      obtain ⟨rfl, -⟩ := Prod.mk.inj (Except.ok.inj (Except.ok.inj looked))
      exact ⟨_, stored⟩
    · split at looked
      · next val stored =>
        obtain ⟨ref, followed, chosen⟩ := of_bind_ok looked
        obtain rfl := deref_ok followed
        split at chosen
        · obtain ⟨same, -⟩ := Prod.mk.inj (Except.ok.inj (Except.ok.inj chosen))
          exact ⟨_, same ▸ stored⟩
        · exact absurd (Except.ok.inj chosen) (by simp)
      · exact absurd (Except.ok.inj looked) (by simp)
  · intro nobody found stored
    rw [stored] at looked
    exact nobody found false (Except.ok.inj looked).symm

/-- What one turn can do. -/
theorem linkViewer_cases (linked : object.linkViewer memory self key = .ok next) :
    (object.viewers.find key = none ∧ next = object) ∨
    ∃ viewer, object.viewers.find key = some (some viewer) ∧
      ((viewer.user = none ∧ next = object.updateViewer key { viewer with proxy := some self }) ∨
      ∃ ref, viewer.user = some ref ∧
        ((∃ found other, object.users.find other = some (some found) ∧
            next = object.updateViewer key
              { viewer with proxy := some self, user := some found }) ∨
        ∃ entries, object.users = some entries ∧
          (∀ found, object.users.find (userKey (memory ref)) ≠ some (some found)) ∧
          next = updateViewer
            { object with users := some (entries.insert (userKey (memory ref)) (some ref)) } key
            { viewer with proxy := some self })) := by
  unfold linkViewer at linked
  split at linked
  · next absent => exact .inl ⟨absent, (Except.ok.inj linked).symm⟩
  · next pointer stored =>
    obtain ⟨viewer, followed, rest⟩ := of_bind_ok linked
    obtain rfl := deref_ok followed
    refine .inr ⟨viewer, stored, ?_⟩
    split at rest
    · next nobody => exact .inl ⟨nobody, (Except.ok.inj rest).symm⟩
    · next ref owner =>
      refine .inr ⟨ref, owner, ?_⟩
      obtain ⟨result, looked, rest⟩ := of_bind_ok rest
      obtain ⟨there, missed⟩ := getProxyUser_stored looked
      split at rest
      · next found blank =>
        obtain ⟨other, registered⟩ := there found blank rfl
        exact .inl ⟨found, other, registered, (Except.ok.inj rest).symm⟩
      · next missing =>
        obtain ⟨⟨registered, _⟩, added, done⟩ := of_bind_ok rest
        obtain ⟨users, assigned, added⟩ := of_bind_ok added
        obtain ⟨entries, made, rfl⟩ := MapVar.assign_ok assigned
        obtain ⟨rfl, -⟩ := Prod.mk.inj (Except.ok.inj added)
        exact .inr ⟨entries, made, missed missing, (Except.ok.inj done).symm⟩

theorem linkViewer_viewers (linked : object.linkViewer memory self key = .ok next) {other : Bytes}
    (different : other ≠ key) : next.viewers.find other = object.viewers.find other := by
  rcases linkViewer_cases linked with
    ⟨_, rfl⟩ | ⟨viewer, _, ⟨_, rfl⟩ | ⟨ref, _, ⟨found, _, _, rfl⟩ | ⟨entries, _, _, rfl⟩⟩⟩
  · rfl
  · rw [updateViewer_find, if_neg fun both => different both.1]
  · rw [updateViewer_find, if_neg fun both => different both.1]
  · rw [updateViewer_find, if_neg fun both => different both.1]

/-- The table of users grows by users of viewers, each under its own key. -/
structure OnlyAdds (memory : UserMemory) (object next : ProxyObject) : Prop where
  kept : ∀ key ref, object.users.find key = some (some ref) → next.users.find key = some (some ref)
  added : ∀ key val, next.users.find key = some val → object.users.find key = some val ∨
    ∃ viewerKey viewer ref, object.viewers.find viewerKey = some (some viewer) ∧
      viewer.user = some ref ∧ val = some ref ∧ key = userKey (memory ref)

theorem OnlyAdds.start (memory : UserMemory) (object : ProxyObject) :
    OnlyAdds memory object object where
  kept _ _ := id
  added _ _ := .inl

/-- A viewer that is visited for the first time has the user it was decoded with. -/
theorem OnlyAdds.linkViewer (adds : OnlyAdds memory object mid)
    (unvisited : mid.viewers.find key = object.viewers.find key)
    (linked : mid.linkViewer memory self key = .ok next) : OnlyAdds memory object next := by
  rcases linkViewer_cases linked with
    ⟨_, rfl⟩ | ⟨viewer, stored, ⟨_, rfl⟩ | ⟨ref, owner, ⟨_, _, _, rfl⟩ | missing⟩⟩
  · exact adds
  · exact ⟨adds.kept, adds.added⟩
  · exact ⟨adds.kept, adds.added⟩
  · obtain ⟨entries, made, free, rfl⟩ := missing
    have table (other : Bytes) : MapVar.find (some (entries.insert (userKey (memory ref))
        (some ref))) other =
          if other = userKey (memory ref) then some (some ref) else mid.users.find other := by
      rw [MapVar.find_some, lookup_insert_if, made, MapVar.find_some]
    constructor
    · intro other found before
      refine (table other).trans ?_
      have still := adds.kept other found before
      have apart : other ≠ userKey (memory ref) := by
        rintro rfl
        exact free found still
      rw [if_neg apart, still]
    · intro other val after
      have after := (table other).symm.trans after
      split at after
      · next here =>
        obtain rfl := Option.some.inj after
        exact .inr ⟨key, viewer, ref, unvisited ▸ stored, owner, rfl, here⟩
      · exact adds.added other val after

/-- The viewer of that key is of this proxy, and if it had a user it has one that is stored. -/
structure LinkedAt (address : ProxyAddress) (object next : ProxyObject) (key : Bytes) : Prop where
  proxy : ∀ pointer, next.viewers.find key = some pointer →
    ∃ viewer, pointer = some viewer ∧ viewer.proxy = some address
  user : ∀ viewer ref, object.viewers.find key = some (some viewer) → viewer.user = some ref →
    ∃ after found other, next.viewers.find key = some (some after) ∧ after.user = some found ∧
      next.users.find other = some (some found)

/-- A turn links its own viewer. -/
theorem linkViewer_links (unvisited : mid.viewers.find key = object.viewers.find key)
    (linked : mid.linkViewer memory self key = .ok next) : LinkedAt self object next key := by
  rcases linkViewer_cases linked with
    ⟨absent, rfl⟩ | ⟨viewer, stored, ⟨nobody, rfl⟩ | ⟨ref, owner, found | missing⟩⟩
  · constructor
    · intro pointer there
      rw [absent] at there
      contradiction
    · intro viewer ref there
      rw [← unvisited, absent] at there
      contradiction
  · have visited :=
      updateViewer_self (MapVar.find_made stored) key { viewer with proxy := some self }
    constructor
    · intro pointer there
      exact ⟨_, Option.some.inj (there.symm.trans visited), rfl⟩
    · intro before ref there owner
      rw [← unvisited, stored] at there
      obtain rfl := Option.some.inj (Option.some.inj there)
      rw [nobody] at owner
      contradiction
  · obtain ⟨found, other, registered, rfl⟩ := found
    have visited := updateViewer_self (MapVar.find_made stored) key
      { viewer with proxy := some self, user := some found }
    constructor
    · intro pointer there
      exact ⟨_, Option.some.inj (there.symm.trans visited), rfl⟩
    · intro before ref _ _
      exact ⟨_, found, other, visited, rfl, registered⟩
  · obtain ⟨entries, made, free, rfl⟩ := missing
    let registered : ProxyObject :=
      { mid with users := some (entries.insert (userKey (memory ref)) (some ref)) }
    have made : registered.viewers ≠ none := MapVar.find_made stored
    have visited := updateViewer_self made key { viewer with proxy := some self }
    constructor
    · intro pointer there
      exact ⟨_, Option.some.inj (there.symm.trans visited), rfl⟩
    · intro before own _ _
      exact ⟨_, ref, userKey (memory ref), visited, owner, Finmap.lookup_insert entries⟩

/-- No other turn undoes it: a user that is stored stays where it is. -/
theorem LinkedAt.linkViewer {other : Bytes} (links : LinkedAt self object mid other)
    (different : other ≠ key) (linked : mid.linkViewer memory self key = .ok next) :
    LinkedAt self object next other := by
  have viewers := linkViewer_viewers linked different
  have grown : OnlyAdds memory mid next := (OnlyAdds.start memory mid).linkViewer rfl linked
  constructor
  · intro pointer there
    exact links.proxy pointer (viewers ▸ there)
  · intro viewer ref stored owner
    obtain ⟨after, found, place, there, held, registered⟩ := links.user viewer ref stored owner
    exact ⟨after, found, place, viewers.trans there, held, grown.kept place found registered⟩

theorem linkAll_links {keys : List Bytes} (distinct : keys.Nodup)
    (adds : OnlyAdds memory object mid)
    (unvisited : ∀ key ∈ keys, mid.viewers.find key = object.viewers.find key)
    (ran : keys.foldlM (linkViewer memory self) mid = .ok next) :
    OnlyAdds memory object next ∧ (∀ key ∈ keys, LinkedAt self object next key) ∧
      ∀ key ∉ keys, LinkedAt self object mid key → LinkedAt self object next key := by
  induction keys generalizing mid with
  | nil =>
    obtain rfl := Except.ok.inj ran
    exact ⟨adds, List.forall_mem_nil _, fun _ _ links => links⟩
  | cons key keys ih =>
    rw [List.foldlM_cons] at ran
    obtain ⟨after, linked, rest⟩ := of_bind_ok ran
    obtain ⟨once, distinct⟩ := List.nodup_cons.mp distinct
    have here := unvisited key List.mem_cons_self
    have later (other) (member : other ∈ keys) :
        after.viewers.find other = object.viewers.find other := by
      have different : other ≠ key := fun same => once (same ▸ member)
      rw [linkViewer_viewers linked different]
      exact unvisited other (List.mem_cons_of_mem _ member)
    obtain ⟨grown, visited, kept⟩ := ih distinct (adds.linkViewer here linked) later rest
    refine ⟨grown, List.forall_mem_cons.mpr ⟨?_, visited⟩, fun other outside links => ?_⟩
    · exact kept key once (linkViewer_links here linked)
    · obtain ⟨different, apart⟩ := not_or.mp (mt List.mem_cons.mpr outside)
      exact kept other apart (links.linkViewer different linked)

variable {defaultSigner : Option Signer} {order : RangeOrder Bytes}

theorem withDefaults_find (object : ProxyObject) (defaultSigner : Option Signer) (key : Bytes) :
    (object.withDefaults defaultSigner).users.find key = object.users.find key ∧
      (object.withDefaults defaultSigner).viewers.find key = object.viewers.find key := by
  constructor
  · cases made : object.users <;> simp [withDefaults, made]
  · cases made : object.viewers <;> simp [withDefaults, made]

theorem initializeProxy_links
    (ran : object.initializeProxy memory self defaultSigner order = .ok next) :
    OnlyAdds memory object next ∧ ∀ key, LinkedAt self object next key := by
  have begun := withDefaults_find object defaultSigner
  have start : OnlyAdds memory object (object.withDefaults defaultSigner) := by
    constructor
    · intro key ref stored
      rw [(begun key).1, stored]
    · intro key val stored
      exact .inl ((begun key).1 ▸ stored)
  obtain ⟨adds, visited, kept⟩ := linkAll_links (order.nodup _) start
    (fun key _ => (begun key).2) ran
  refine ⟨adds, fun key => ?_⟩
  by_cases member : key ∈ order.over object.viewers.content
  · exact visited key member
  · have absent : object.viewers.find key = none :=
      Finmap.lookup_eq_none.mpr (mt (order.mem_over _ key).mpr member)
    refine kept key member ⟨fun pointer there => ?_, fun viewer ref there => ?_⟩
    · rw [(begun key).2, absent] at there
      contradiction
    · rw [absent] at there
      contradiction

end ProxyObject

/-- Loading completes on the objects where it does on the values, and does the same to both. -/
theorem ProxyContext.Unlinked.initializes {decoded after : ProxyContext}
    (unlinked : decoded.Unlinked) (self : ProxyAddress) {defaultSigner : Option Signer}
    {order : RangeOrder Bytes} :
    decoded.initializeProxy defaultSigner order = .ok after ↔
      ∃ next, decoded.allocated.initializeProxy decoded.memory self defaultSigner order = .ok next ∧
        next.forget decoded.memory self = after := by
  have values : (decoded.allocated.forget decoded.memory self).initializeProxy defaultSigner order =
      (decoded.allocated.initializeProxy decoded.memory self defaultSigner order).map
        (ProxyObject.forget decoded.memory self) :=
    ProxyObject.forget_initializeProxy decoded.allocated defaultSigner order
  rw [allocated_forget unlinked] at values
  rw [values]
  cases decoded.allocated.initializeProxy decoded.memory self defaultSigner order with
  | error panic => exact ⟨fun ran => by contradiction, fun ⟨_, ran, _⟩ => by contradiction⟩
  | ok next =>
    constructor
    · exact fun ran => ⟨next, rfl, Except.ok.inj ran⟩
    · rintro ⟨_, ran, rfl⟩
      obtain rfl := Except.ok.inj ran
      rfl

/-- Loading links every viewer to this proxy and to a user that is stored, and of the users only
adds some, and it does to what is stored what it does to the values. -/
theorem initialize_links {data : Bytes} {decoded : ProxyContext} {self : ProxyAddress}
    {defaultSigner : Option Signer} {order : RangeOrder Bytes} {next : ProxyObject}
    (read : ProxyContext.codec.unmarshal data {} = some decoded)
    (ran : decoded.allocated.initializeProxy decoded.memory self defaultSigner order = .ok next) :
    (∀ key pointer, next.viewers.find key = some pointer →
      ∃ viewer, pointer = some viewer ∧ viewer.proxy = some self) ∧
    (∀ key viewer ref, decoded.allocated.viewers.find key = some (some viewer) →
      viewer.user = some ref → ∃ after found other, next.viewers.find key = some (some after) ∧
        after.user = some found ∧ next.users.find other = some (some found)) ∧
    (∀ key ref, decoded.allocated.users.find key = some (some ref) →
      next.users.find key = some (some ref)) ∧
    (∀ key val, next.users.find key = some val → decoded.allocated.users.find key = some val ∨
      ∃ viewerKey viewer ref, decoded.allocated.viewers.find viewerKey = some (some viewer) ∧
        viewer.user = some ref ∧ val = some ref ∧ key = userKey (decoded.memory ref)) ∧
    decoded.initializeProxy defaultSigner order = .ok (next.forget decoded.memory self) := by
  obtain ⟨adds, links⟩ := ProxyObject.initializeProxy_links ran
  exact ⟨fun key => (links key).proxy, fun key => (links key).user, adds.kept, adds.added,
    ((unmarshal_unlinked read).initializes self).mpr ⟨next, ran, rfl⟩⟩

/-- A registered user that stays, with a viewer, and a viewer of a user that is registered now. -/
theorem initialize_links_registered : ∃ decoded next,
    codec.unmarshal registeredData {} = some decoded ∧
    decoded.allocated.initializeProxy decoded.memory 7 none (sortedOrder byteRank) = .ok next ∧
    next.users.find (lit "a:b") = some (some (.entry (lit "a:b"))) ∧
    ∀ key ∈ [lit "k", lit "l"], ∃ viewer found other,
      next.viewers.find key = some (some viewer) ∧ viewer.proxy = some 7 ∧
      viewer.user = some found ∧ next.users.find other = some (some found) := by
  obtain ⟨decoded, read, noNulls, -, stored, -, first, second⟩ := registeredData_decodes
  obtain ⟨after, ran, -⟩ := initializeProxy_returns noNulls.linkable none (sortedOrder byteRank)
  obtain ⟨next, ran, -⟩ := ((unmarshal_unlinked read).initializes 7).mp ran
  obtain ⟨proxies, owners, kept, -⟩ := initialize_links read ran
  have before : decoded.allocated.users.find (lit "a:b") = some (some (.entry (lit "a:b"))) := by
    rw [allocated_users_find, stored]
    rfl
  have linked (key : Bytes) (user : ProxyUser)
      (there : decoded.viewers.find key = some (some (viewerOf user))) :
      ∃ viewer found other, next.viewers.find key = some (some viewer) ∧
        viewer.proxy = some 7 ∧ viewer.user = some found ∧
        next.users.find other = some (some found) := by
    have decodedAs : decoded.allocated.viewers.find key =
        some (some { user := some (.owner key) }) := by
      rw [allocated_viewers_find, there]
      rfl
    obtain ⟨viewer, found, other, after, owner, registered⟩ := owners key _ _ decodedAs rfl
    obtain ⟨_, same, proxy⟩ := proxies key _ after
    obtain rfl := Option.some.inj same
    exact ⟨viewer, found, other, after, proxy, owner, registered⟩
  refine ⟨decoded, next, read, ran, kept _ _ before, ?_⟩
  refine List.forall_mem_cons.mpr ⟨linked _ _ first, List.forall_mem_singleton.mpr ?_⟩
  exact linked _ _ second

end SSHProxyPlus
