import SSHProxyPlus.Controller.Runs
import SSHProxyPlus.Proxy.Saving

/-! A configuration that is saved and loaded again. What is lost or comes back is the same for
every proxy: the users that only a viewer still names are registered again. -/
namespace SSHProxyPlus
open Go

/-- The calls that configure a controller. -/
inductive ConfigurationCall where
  | createProxy
  | addProxyFromJSON (data : Bytes) (order : RangeOrder Bytes)
  | addUserToProxy (proxyID : UInt64) (user : ProxyUser)
  | removeUserFromProxy (proxyID : UInt64) (username password : Bytes)
  | createUserSessionViewer (proxyID : UInt64) (username password : Bytes) (draw : RandomSource)
  | createSessionViewer (proxyID : UInt64) (username password sessionKey : Bytes)
      (draw : RandomSource)
  | destroyProxy (proxyID : UInt64) (sessions : SessionHeap) (order : RangeOrder Bytes) (now : Time)

namespace ConfigurationCall

def perform (controller : ProxyController) : ConfigurationCall → Except Panic ProxyController
  | .createProxy => do return (← controller.createProxy).1
  | .addProxyFromJSON data order => do return (← controller.addProxyFromJSON data order).1
  | .addUserToProxy proxyID user => do return (← controller.addUserToProxy proxyID user).1
  | .removeUserFromProxy proxyID username password =>
      return (controller.removeUserFromProxy proxyID username password).1
  | .createUserSessionViewer proxyID username password draw => do
      return (← controller.createUserSessionViewer proxyID username password draw).1
  | .createSessionViewer proxyID username password sessionKey draw => do
      return (← controller.createSessionViewer proxyID username password sessionKey draw).1
  | .destroyProxy proxyID sessions order now => do
      return (← controller.destroyProxy sessions proxyID order now).1

/-- The texts that a call stores are UTF-8; those it decodes always are. -/
def ValidTexts : ConfigurationCall → Prop
  | .addUserToProxy _ user => user.ValidStrings
  | .createSessionViewer _ _ _ sessionKey _ => ValidUTF8 sessionKey
  | _ => True

end ConfigurationCall

namespace ProxyController
variable {controller next : ProxyController} {proxyID : UInt64}

/-- All its texts are UTF-8, but for those that nothing depends on. -/
structure ValidTexts (controller : ProxyController) : Prop where
  proxies : ∀ proxyID proxy, controller.proxies.find proxyID = some (some proxy) → proxy.ValidTexts
  eventCallbacks : ∀ key, controller.eventCallbacks.find key ≠ none → ValidUTF8 key

/-- A controller that can be saved. -/
structure Storable (controller : ProxyController) : Prop where
  log : controller.log ≠ none
  made : controller.proxies ≠ none
  proxies : ∀ proxyID val, controller.proxies.find proxyID = some val →
    ∃ proxy, val = some proxy ∧ proxy.Storable
  eventCallbacks : ∀ key, controller.eventCallbacks.find key ≠ none → ValidUTF8 key

theorem SetUp.storable (setUp : controller.SetUp) (texts : controller.ValidTexts) :
    controller.Storable := by
  have proper : controller.Proper 0 0 := setUp.proper
  refine ⟨proper.log, proper.made, fun proxyID val found => ?_, texts.eventCallbacks⟩
  obtain ⟨proxy, rfl, held⟩ := proper.proxies proxyID val found
  exact ⟨proxy, rfl, held.log, held.users, held.viewers, held.viewer,
    texts.proxies proxyID proxy found⟩

theorem Storable.updateProxy (storable : controller.Storable) {proxy : ProxyContext}
    (held : proxy.Storable) : (controller.updateProxy proxyID proxy).Storable := by
  refine ⟨storable.log, ?_, fun other val found => ?_, storable.eventCallbacks⟩
  · obtain ⟨entries, made⟩ := Option.ne_none_iff_exists'.mp storable.made
    simp [ProxyController.updateProxy, made]
  · rw [updateProxy_find] at found
    split at found
    · exact ⟨proxy, (Option.some.inj found).symm, held⟩
    · exact storable.proxies other val found

theorem Storable.addProxy (storable : controller.Storable) {proxy : ProxyContext}
    (held : proxy.Storable) (added : controller.addProxy proxy = .ok (next, proxyID)) :
    next.Storable := by
  obtain ⟨⟨existing, id⟩, first, done⟩ := of_bind_ok added
  obtain ⟨proxies, assigned, kept⟩ := of_bind_ok first
  obtain ⟨entries, made, rfl⟩ := MapVar.assign_ok assigned
  obtain ⟨rfl, rfl⟩ := Prod.mk.inj (Except.ok.inj kept)
  obtain ⟨rfl, -⟩ := Prod.mk.inj (Except.ok.inj done)
  have grown : Storable { controller with
      proxies := some (entries.insert controller.proxyCounter (some proxy))
      proxyCounter := controller.proxyCounter + 1 } := by
    refine ⟨storable.log, Option.some_ne_none _, fun other val found => ?_, storable.eventCallbacks⟩
    rw [MapVar.find_some, lookup_insert_if] at found
    split at found
    · exact ⟨proxy, (Option.some.inj found).symm, held⟩
    · exact storable.proxies other val (by rw [made]; exact found)
  exact grown.updateProxy (held.withLog storable.log)

/-- Either there is no such proxy, or one that can be saved. -/
theorem Storable.getProxy (storable : controller.Storable) (proxyID : UInt64) :
    (∃ err, controller.getProxy proxyID = (none, err)) ∨
      ∃ proxy, controller.getProxy proxyID = (some proxy, none) ∧ proxy.Storable := by
  unfold ProxyController.getProxy
  cases found : controller.proxies.find proxyID with
  | none => exact .inl ⟨_, rfl⟩
  | some val =>
    obtain ⟨proxy, rfl, held⟩ := storable.proxies proxyID val found
    exact .inr ⟨proxy, rfl, held⟩

theorem Storable.delete (storable : controller.Storable) (proxyID : UInt64) :
    Storable { controller with proxies := controller.proxies.delete proxyID } := by
  obtain ⟨entries, made⟩ := Option.ne_none_iff_exists'.mp storable.made
  refine ⟨storable.log, by simp [made], fun other val found => ?_, storable.eventCallbacks⟩
  refine storable.proxies other val ?_
  rw [made, MapVar.delete_some, MapVar.find_some] at found
  rw [made, MapVar.find_some]
  by_cases same : other = proxyID
  · rw [same, Finmap.lookup_erase] at found
    contradiction
  · rwa [Finmap.lookup_erase_ne same] at found

theorem Storable.destroyProxy (storable : controller.Storable) {sessions sessions' : SessionHeap}
    {order : RangeOrder Bytes} {now : Time} {err : Option Bytes}
    (called : controller.destroyProxy sessions proxyID order now = .ok (next, sessions', err)) :
    next.Storable := by
  unfold ProxyController.destroyProxy at called
  split at called
  · obtain ⟨proxy, -, rest⟩ := of_bind_ok called
    split at rest
    · obtain ⟨_, -, done⟩ := of_bind_ok rest
      exact (Prod.mk.inj (Except.ok.inj done)).1 ▸ storable.delete proxyID
    · exact (Prod.mk.inj (Except.ok.inj rest)).1 ▸ storable.delete proxyID
  · exact (Prod.mk.inj (Except.ok.inj called)).1 ▸ storable

theorem Storable.createViewer (storable : controller.Storable)
    {make : ProxyContext → Except Panic (ProxyContext × Except Bytes ProxySessionViewer)}
    (makes : ∀ proxy : ProxyContext, proxy.Storable → ∀ made, make proxy = .ok made →
      made.1.Storable)
    {result : Except Bytes (Option ProxySessionViewer)}
    (called : controller.createViewer proxyID make = .ok (next, result)) : next.Storable := by
  unfold ProxyController.createViewer at called
  rcases storable.getProxy proxyID with ⟨err, absent⟩ | ⟨proxy, found, held⟩
  · rw [absent] at called
    cases err with
    | none => exact (Prod.mk.inj (Except.ok.inj called)).1 ▸ storable
    | some err => exact (Prod.mk.inj (Except.ok.inj called)).1 ▸ storable
  · rw [found] at called
    obtain ⟨made, ran, done⟩ := of_bind_ok called
    exact (Prod.mk.inj (Except.ok.inj done)).1 ▸ storable.updateProxy (makes proxy held made ran)

theorem Storable.perform (storable : controller.Storable) {call : ConfigurationCall}
    (texts : call.ValidTexts) (called : call.perform controller = .ok next) : next.Storable := by
  cases call with
  | createProxy =>
    obtain ⟨⟨grown, id⟩, added, done⟩ := of_bind_ok called
    obtain rfl := Except.ok.inj done
    exact storable.addProxy (ProxyContext.makeNewProxy_storable _) added
  | addProxyFromJSON data order =>
    obtain ⟨⟨grown, id⟩, added, done⟩ := of_bind_ok called
    obtain rfl := Except.ok.inj done
    obtain ⟨made, read, rest⟩ := of_bind_ok added
    cases made with
    | none => exact (Prod.mk.inj (Except.ok.inj rest)).1 ▸ storable
    | some proxy =>
      obtain ⟨⟨larger, proxyID⟩, stored, done⟩ := of_bind_ok rest
      obtain ⟨rfl, -⟩ := Prod.mk.inj (Except.ok.inj done)
      obtain ⟨decoded, parsed, ready⟩ := makeProxyFromJSON_cases read
      exact storable.addProxy
        ((ProxyContext.unmarshal_decoded parsed).texts.initializeProxy ready) stored
  | addUserToProxy proxyID user =>
    obtain ⟨⟨updated, err, key⟩, added, done⟩ := of_bind_ok called
    obtain rfl := Except.ok.inj done
    unfold ProxyController.addUserToProxy at added
    rcases storable.getProxy proxyID with ⟨err, absent⟩ | ⟨proxy, found, held⟩
    · rw [absent] at added
      exact (Prod.mk.inj (Except.ok.inj added)).1 ▸ storable
    · rw [found] at added
      obtain ⟨⟨proxy', key'⟩, stored, done⟩ := of_bind_ok added
      exact (Prod.mk.inj (Except.ok.inj done)).1 ▸
        storable.updateProxy (held.addProxyUser texts stored)
  | removeUserFromProxy proxyID username password =>
    obtain rfl := Except.ok.inj called
    unfold ProxyController.removeUserFromProxy
    rcases storable.getProxy proxyID with ⟨err, absent⟩ | ⟨proxy, found, held⟩
    · rw [absent]
      exact storable
    · rw [found]
      exact storable.updateProxy (held.removeProxyUser username password)
  | createUserSessionViewer proxyID username password draw =>
    obtain ⟨⟨updated, result⟩, created, done⟩ := of_bind_ok called
    obtain rfl := Except.ok.inj done
    exact storable.createViewer (fun proxy held made ran => held.makeSessionViewerForUser ran) created
  | createSessionViewer proxyID username password sessionKey draw =>
    obtain ⟨⟨updated, result⟩, created, done⟩ := of_bind_ok called
    obtain rfl := Except.ok.inj done
    exact storable.createViewer
      (fun proxy held made ran => held.makeSessionViewerForSession texts ran) created
  | destroyProxy proxyID sessions order now =>
    obtain ⟨⟨updated, sessions', err⟩, destroyed, done⟩ := of_bind_ok called
    obtain rfl := Except.ok.inj done
    exact storable.destroyProxy destroyed

end ProxyController

/-- The runs of configuring calls, from a controller that was set up. -/
def configurationRuns : Transition.System ProxyController ConfigurationCall where
  init controller := controller.SetUp ∧ controller.ValidTexts
  step controller call next := call.ValidTexts ∧ call.perform controller = .ok next

theorem storable_of_configured {controller : ProxyController}
    (reached : configurationRuns.Reachable controller) : controller.Storable := by
  refine reached.invariant ?_ ?_
  · exact fun controller ⟨setUp, texts⟩ => setUp.storable texts
  · exact fun controller call next storable ⟨texts, called⟩ => storable.perform texts called

namespace ProxyController
variable {controller loaded : ProxyController} {signer : Option Signer} {setup : Setup}

/-- What is decoded of a controller: the same proxies, each as it is decoded. -/
def DecodedAs (controller decoded : ProxyController) : Prop :=
  ∀ proxyID, (controller.proxies.find proxyID = none ∧ decoded.proxies.find proxyID = none) ∨
    ∃ proxy decodedProxy, controller.proxies.find proxyID = some (some proxy) ∧
      decoded.proxies.find proxyID = some (some decodedProxy) ∧ proxy.DecodedAs decodedProxy

theorem callbacks_read (storable : controller.Storable) :
    ∃ callbacks, (mapCodec stringKey callbackCodec).ReadsAs controller.eventCallbacks callbacks := by
  have keys := storable.eventCallbacks
  cases made : controller.eventCallbacks with
  | none => exact ⟨none, rfl⟩
  | some entries =>
    rw [made] at keys
    obtain ⟨result, read, -⟩ := mapCodec_reads stringKey callbackCodec entries
      (Option.map fun _ => decodedCallback)
      (fun key member => by
        obtain ⟨val, stored⟩ := Finmap.mem_iff.mp member
        exact stringKey_reads (keys key (by rw [MapVar.find_some, stored]; simp)))
      (fun key val stored => by cases val <;> rfl)
    exact ⟨some result, read⟩

theorem codec_reads (storable : controller.Storable) :
    ∃ decoded, codec.ReadsAs controller decoded ∧ controller.DecodedAs decoded := by
  obtain ⟨entries, made⟩ := Option.ne_none_iff_exists'.mp storable.made
  obtain ⟨callbacks, callbacksRead⟩ := callbacks_read storable
  obtain ⟨proxies, proxiesRead, lookups⟩ := mapCodec_reads_each uint64Key
    (pointerCodec ProxyContext.codec) entries
    (fun val val' => ∃ proxy decoded, val = some proxy ∧ val' = some decoded ∧
      proxy.DecodedAs decoded)
    (fun key _ => uint64Key_reads key)
    (fun key val stored => by
      obtain ⟨proxy, rfl, held⟩ := storable.proxies key val (by rw [made]; exact stored)
      obtain ⟨decoded, read, decodedAs⟩ := ProxyContext.codec_reads held
      exact ⟨some decoded, pointerCodec_reads read Json.noConfusion, proxy, decoded, rfl, rfl,
        decodedAs⟩)
  rw [← made] at proxiesRead
  have text : ∀ s : Bytes, stringCodec.ReadsAs s (utf8 (runes s)) := fun _ => rfl
  refine ⟨{
    proxies := some proxies
    proxyCounter := controller.proxyCounter
    presharedKey := utf8 (runes controller.presharedKey)
    socketType := controller.socketType
    socketHost := utf8 (runes controller.socketHost)
    tlsKey := utf8 (runes controller.tlsKey)
    tlsCert := utf8 (runes controller.tlsCert)
    webHost := utf8 (runes controller.webHost)
    webStaticDir := utf8 (runes controller.webStaticDir)
    baseURI := utf8 (runes controller.baseURI)
    eventCallbacks := callbacks }, ?_, fun proxyID => ?_⟩
  · refine structCodec_readsAs rfl (by decide) ?_
    rw [fields, StructField.readBack_untagged proxiesRead rfl,
      StructField.readBack_untagged (uint64Codec_reads controller.proxyCounter) rfl,
      StructField.readBack_untagged (text controller.presharedKey) rfl,
      StructField.readBack_untagged (uint16Codec_reads controller.socketType) rfl,
      StructField.readBack_untagged (text controller.socketHost) rfl,
      StructField.readBack_untagged (text controller.tlsKey) rfl,
      StructField.readBack_untagged (text controller.tlsCert) rfl,
      StructField.readBack_untagged (text controller.webHost) rfl,
      StructField.readBack_untagged (text controller.webStaticDir) rfl,
      StructField.readBack_untagged (text controller.baseURI) rfl,
      StructField.readBack_untagged callbacksRead rfl]
    rfl
  · rw [made, MapVar.find_some, MapVar.find_some]
    refine (lookups proxyID).imp id ?_
    rintro ⟨_, _, found, there, proxy, decoded, rfl, rfl, decodedAs⟩
    exact ⟨proxy, decoded, found, there, decodedAs⟩

/-- Loading what was saved: it decodes, and what is decoded is initialized. -/
theorem Storable.load_eq (storable : controller.Storable) (signer : Option Signer)
    (setup : Setup) : ∃ decoded, controller.DecodedAs decoded ∧
      loadControllerConfigFromFile controller.exportControllerAsJSON signer setup =
        (initializeController decoded setup).map some := by
  obtain ⟨decoded, read, decodedAs⟩ := codec_reads storable
  have parsed : codec.unmarshal controller.exportControllerAsJSON {} = some decoded := by
    rw [exportControllerAsJSON, Codec.unmarshal_render]
    exact read
  refine ⟨{ decoded with defaultSigner := signer.or decoded.defaultSigner }, decodedAs, ?_⟩
  rw [loadControllerConfigFromFile, parsed]
  rfl

/-- The same proxies, each restored. -/
structure Reloads (controller loaded : ProxyController) : Prop where
  proxyIDs : ∀ proxyID, loaded.proxies.find proxyID = none ↔ controller.proxies.find proxyID = none
  proxies : ∀ proxyID proxy, controller.proxies.find proxyID = some (some proxy) →
    ∃ restored, loaded.proxies.find proxyID = some (some restored) ∧ proxy.Restores restored

theorem Storable.reloads (storable : controller.Storable) {result : Option ProxyController}
    (ran : loadControllerConfigFromFile controller.exportControllerAsJSON signer setup =
      .ok result) : ∃ loaded, result = some loaded ∧ controller.Reloads loaded := by
  obtain ⟨decoded, decodedAs, same⟩ := storable.load_eq signer setup
  rw [same] at ran
  obtain ⟨loaded, initialized, rfl⟩ : ∃ loaded, initializeController decoded setup = .ok loaded ∧
      result = some loaded := by
    cases ready : initializeController decoded setup with
    | error panic => rw [ready] at ran; contradiction
    | ok loaded => rw [ready] at ran; exact ⟨loaded, rfl, (Except.ok.inj ran).symm⟩
  obtain ⟨each, -⟩ := initializeController_ok initialized
  refine ⟨loaded, rfl, fun proxyID => ?_, fun proxyID proxy found => ?_⟩
  · rcases each proxyID with ⟨absent, gone⟩ | ⟨proxy, ready, before, after, there, -, present, -⟩
    · refine iff_of_true gone ?_
      rcases decodedAs proxyID with ⟨missing, -⟩ | ⟨_, _, -, stored, -⟩
      · exact missing
      · rw [absent] at stored
        contradiction
    · refine iff_of_false (by rw [present]; exact Option.some_ne_none _) ?_
      rcases decodedAs proxyID with ⟨-, missing⟩ | ⟨_, _, stored, -⟩
      · rw [missing] at there
        contradiction
      · rw [stored]
        exact Option.some_ne_none _
  · rcases decodedAs proxyID with ⟨missing, -⟩ | ⟨same, decodedProxy, stored, there, asDecoded⟩
    · rw [missing] at found
      contradiction
    · obtain rfl := MapVar.find_unique stored found
      obtain ⟨held, isProxy, storableProxy⟩ := storable.proxies proxyID _ found
      obtain rfl := Option.some.inj isProxy
      rcases each proxyID with ⟨absent, -⟩ | ⟨proxy, ready, before, after, origin, done, present, logs⟩
      · rw [there] at absent
        contradiction
      · obtain rfl := MapVar.find_unique there origin
        have logged : same.DecodedAs { decodedProxy with log := before } :=
          ⟨⟨asDecoded.settings.1, asDecoded.settings.2, asDecoded.settings.3, asDecoded.settings.4⟩,
            asDecoded.users, asDecoded.viewers⟩
        refine ⟨_, present, logged.initializeProxy storableProxy done (logs ?_)⟩
        obtain ⟨users, viewers, rfl⟩ := ProxyContext.initializeProxy_changes done
        cases before <;> exact Option.some_ne_none _

theorem Storable.loads (storable : controller.Storable)
    (linkable : ∀ proxyID proxy, controller.proxies.find proxyID = some (some proxy) →
      proxy.Linkable) (signer : Option Signer) (setup : Setup) :
    ∃ loaded, loadControllerConfigFromFile controller.exportControllerAsJSON signer setup =
      .ok (some loaded) := by
  obtain ⟨decoded, decodedAs, same⟩ := storable.load_eq signer setup
  obtain ⟨loaded, initialized, -⟩ := initializeController_returns (fun proxyID val found => by
    rcases decodedAs proxyID with ⟨-, missing⟩ | ⟨proxy, decodedProxy, there, stored, asDecoded⟩
    · rw [missing] at found
      contradiction
    · exact ⟨decodedProxy, Option.some.inj (found.symm.trans stored),
        asDecoded.linkable (linkable proxyID proxy there)⟩) setup
  rw [same, initialized]
  exact ⟨loaded, rfl⟩

end ProxyController

/-- A configuration that is saved and loaded has the same proxies, and each of them decides as
before on every pair that no viewer's lost user is taken for; those users are registered again.
Loading returns where no viewer's lost user has the name of a nil one. -/
theorem saved_configuration_reloads {controller : ProxyController}
    (reached : configurationRuns.Reachable controller) (signer : Option Signer) (setup : Setup) :
    (∀ result, loadControllerConfigFromFile controller.exportControllerAsJSON signer setup =
        .ok result → ∃ loaded, result = some loaded ∧ controller.Reloads loaded) ∧
      ((∀ proxyID proxy, controller.proxies.find proxyID = some (some proxy) → proxy.Linkable) →
        ∃ loaded, loadControllerConfigFromFile controller.exportControllerAsJSON signer setup =
          .ok (some loaded)) := by
  have storable := storable_of_configured reached
  exact ⟨fun _ ran => storable.reloads ran, fun linkable => storable.loads linkable signer setup⟩

/-- A user whose sessions somebody may view, and who was removed since. -/
def guest : ProxyUser where
  username := lit "a"
  password := lit "b"
  remoteHost := lit "h"

def guestSecret : Bytes := List.replicate 64 48

def guestViewer : ProxySessionViewer where
  viewerType := sessionViewerTypeList
  secret := guestSecret
  user := some guest
  linked := true
  expiration := sessionViewerExpiration

def guestRegistered : ProxyContext :=
  { makeNewProxy (some 0) with users := some (Finmap.insert (ProxyContext.userKey guest) (some guest) ∅) }

def guestViewed : ProxyContext :=
  { guestRegistered with viewers := some (Finmap.insert guestSecret (some guestViewer) ∅) }

def guestLost : ProxyContext := (guestViewed.removeProxyUser (lit "a") (lit "b")).1

theorem guestRegistered_find :
    guestRegistered.users.find (buildProxyUserKey (lit "a") (lit "b")) = some (some guest) :=
  Finmap.lookup_insert ∅

theorem guestRegistered_viewed :
    guestRegistered.makeSessionViewerForUser (lit "a") (lit "b") (fun _ => some ⟨0, by decide⟩) =
      .ok (guestViewed, .ok guestViewer) := by
  have random : generateRandomString sessionViewerSecretLen (fun _ => some ⟨0, by decide⟩) =
      some guestSecret := by decide
  simp only [ProxyContext.makeSessionViewerForUser, ProxyContext.getProxyUser, guestRegistered_find,
    if_true, deref_some, bind, Except.bind, pure, Except.pure, createNewSessionViewer, random]
  rfl

theorem guestLost_users (key : Bytes) : guestLost.users.find key = none := by
  have lost : guestLost = { guestViewed with
      users := guestViewed.users.delete (ProxyContext.userKey guest) } := by
    have stored : guestViewed.users.find (buildProxyUserKey (lit "a") (lit "b")) =
      some (some guest) := guestRegistered_find
    rw [guestLost, ProxyContext.removeProxyUser, stored]
    rfl
  rw [lost]
  change MapVar.find (some (Finmap.erase _ (Finmap.insert _ (some guest) ∅))) key = none
  rw [MapVar.find_some]
  by_cases same : key = ProxyContext.userKey guest
  · rw [same, Finmap.lookup_erase]
  · rw [Finmap.lookup_erase_ne same, Finmap.lookup_insert_of_ne _ same, Finmap.lookup_empty]

/-- The controller has one proxy. -/
def HasOnly (controller : ProxyController) (proxy : ProxyContext) : Prop :=
  ∀ proxyID, controller.proxies.find proxyID = if proxyID = 0 then some (some proxy) else none

theorem HasOnly.updateProxy {controller : ProxyController} {before : ProxyContext}
    (only : HasOnly controller before) (after : ProxyContext) :
    HasOnly (controller.updateProxy 0 after) after := by
  intro proxyID
  have made : controller.proxies ≠ none := MapVar.find_made (only 0)
  rw [ProxyController.updateProxy_find, only proxyID]
  by_cases here : proxyID = 0
  · rw [if_pos ⟨here, made⟩, if_pos here]
  · rw [if_neg fun both => here both.1, if_neg here, if_neg here]

theorem guestLost_configured : ∃ controller, configurationRuns.Reachable controller ∧
    HasOnly controller guestLost := by
  have goes : ∀ {controller next : ProxyController} {call : ConfigurationCall},
      configurationRuns.Reachable controller → call.perform controller = .ok next →
      call.ValidTexts → configurationRuns.Reachable next :=
    fun reached called texts => reached.next ⟨texts, called⟩
  have start : configurationRuns.Reachable emptyController := by
    refine .start ⟨emptyController_setUp, fun proxyID proxy found => ?_, fun key present => ?_⟩
    · exact absurd (found.symm.trans (Finmap.lookup_empty proxyID)) (Option.some_ne_none _)
    · exact absurd (Finmap.lookup_empty key) present
  obtain ⟨created, called, only⟩ : ∃ next : ProxyController,
      ConfigurationCall.perform emptyController .createProxy = .ok next ∧
        HasOnly next (makeNewProxy (some 0)) := by
    have added : HasOnly { emptyController with
        proxies := some (Finmap.insert 0 (some (makeNewProxy (some 0))) ∅)
        proxyCounter := 1 } (makeNewProxy (some 0)) := by
      intro proxyID
      rw [MapVar.find_some, lookup_insert_if, Finmap.lookup_empty]
    exact ⟨_, rfl, added.updateProxy _⟩
  have first := goes start called trivial
  have registered : ConfigurationCall.perform created (.addUserToProxy 0 guest) =
      .ok (created.updateProxy 0 guestRegistered) := by
    simp only [ConfigurationCall.perform, ProxyController.addUserToProxy, ProxyController.getProxy,
      only 0]
    rfl
  have second := goes first registered ⟨validUTF8_utf8 _, validUTF8_utf8 _, validUTF8_utf8 _,
    validUTF8_utf8 [], validUTF8_utf8 []⟩
  have only := only.updateProxy guestRegistered
  have viewed : ConfigurationCall.perform (created.updateProxy 0 guestRegistered)
      (.createUserSessionViewer 0 (lit "a") (lit "b") fun _ => some ⟨0, by decide⟩) =
      .ok ((created.updateProxy 0 guestRegistered).updateProxy 0 guestViewed) := by
    simp only [ConfigurationCall.perform, ProxyController.createUserSessionViewer,
      ProxyController.createViewer, ProxyController.getProxy, only 0, if_true,
      guestRegistered_viewed, bind, Except.bind, pure, Except.pure]
  have third := goes second viewed trivial
  have only := only.updateProxy guestViewed
  have removed : ConfigurationCall.perform
      ((created.updateProxy 0 guestRegistered).updateProxy 0 guestViewed)
      (.removeUserFromProxy 0 (lit "a") (lit "b")) =
      .ok (((created.updateProxy 0 guestRegistered).updateProxy 0 guestViewed).updateProxy 0
        guestLost) := by
    simp only [ConfigurationCall.perform, ProxyController.removeUserFromProxy,
      ProxyController.getProxy, only 0]
    rfl
  exact ⟨_, goes third removed trivial, only.updateProxy guestLost⟩

theorem guestLost_viewers :
    guestLost.viewers = some (Finmap.insert guestSecret (some guestViewer) ∅) := by
  rw [guestLost, ProxyContext.removeProxyUser]
  split <;> rfl

theorem guestLost_viewer {key : Bytes} {val : Option ProxySessionViewer}
    (stored : guestLost.viewers.find key = some val) : val = some guestViewer := by
  rw [guestLost_viewers, MapVar.find_some, lookup_insert_if] at stored
  split at stored
  · exact (Option.some.inj stored).symm
  · rw [Finmap.lookup_empty] at stored
    contradiction

theorem guestLost_viewing {user : ProxyUser} : guestLost.Viewing user ↔ user = guest := by
  constructor
  · rintro ⟨key, viewer, stored, owner⟩
    obtain rfl := Option.some.inj (guestLost_viewer stored)
    exact (Option.some.inj owner).symm
  · rintro rfl
    refine ⟨guestSecret, guestViewer, ?_, rfl⟩
    rw [guestLost_viewers, MapVar.find_some, Finmap.lookup_insert]

theorem guestLost_linkable : guestLost.Linkable := by
  refine fun key => ⟨fun nil => ?_, fun viewer user _ _ _ nil => ?_⟩
  · exact absurd (guestLost_viewer nil) (Option.some_ne_none _).symm
  · rw [guestLost_users] at nil
    contradiction

theorem guestLost_loads : ∃ controller loaded, configurationRuns.Reachable controller ∧
    HasOnly controller guestLost ∧
    loadControllerConfigFromFile controller.exportControllerAsJSON none sortedSetup =
      .ok (some loaded) := by
  obtain ⟨controller, reached, only⟩ := guestLost_configured
  obtain ⟨loaded, ran⟩ := (storable_of_configured reached).loads (fun proxyID proxy found => by
    rw [only proxyID] at found
    split at found
    · obtain rfl := Option.some.inj (Option.some.inj found)
      exact guestLost_linkable
    · contradiction) none sortedSetup
  exact ⟨controller, loaded, reached, only, ran⟩

theorem saved_configuration_reloads_guest : ∃ controller loaded,
    loadControllerConfigFromFile controller.exportControllerAsJSON none sortedSetup =
      .ok (some loaded) ∧ HasOnly controller guestLost ∧ controller.Reloads loaded := by
  obtain ⟨controller, loaded, reached, only, ran⟩ := guestLost_loads
  obtain ⟨_, same, reloads⟩ := (saved_configuration_reloads reached none sortedSetup).1 _ ran
  obtain rfl := Option.some.inj same
  exact ⟨controller, loaded, ran, only, reloads⟩

/-- Whoever was removed may log in again once the configuration was saved and loaded. -/
theorem removed_guest_returns : ¬∀ controller, configurationRuns.Reachable controller →
    ∀ signer setup loaded,
      loadControllerConfigFromFile controller.exportControllerAsJSON signer setup =
        .ok (some loaded) →
      (∀ proxyID, loaded.proxies.find proxyID = none ↔
        controller.proxies.find proxyID = none) ∧
      ∀ proxyID proxy, controller.proxies.find proxyID = some (some proxy) →
        ∃ restored, loaded.proxies.find proxyID = some (some restored) ∧
          ∀ username password,
            restored.decision username password = proxy.decision username password := by
  intro claim
  obtain ⟨controller, loaded, reached, only, ran⟩ := guestLost_loads
  obtain ⟨-, same⟩ := claim controller reached none sortedSetup loaded ran
  obtain ⟨restored, found, decides⟩ := same 0 guestLost (only 0)
  obtain ⟨_, isLoaded, reloads⟩ := (storable_of_configured reached).reloads ran
  obtain rfl := Option.some.inj isLoaded
  obtain ⟨other, there, restores⟩ := reloads.proxies 0 guestLost (only 0)
  obtain rfl := MapVar.find_unique found there
  -- every entry of the restored table is the guest
  have entries : ∀ key val, restored.users.find key = some val →
      key = ProxyContext.userKey guest ∧ val = some guest.configured := by
    intro key val stored
    rcases restores.among key with old | ⟨user, viewing, -, rfl, registered⟩
    · rw [guestLost_users] at old
      exact absurd (stored.symm.trans old) (Option.some_ne_none _)
    · obtain rfl := guestLost_viewing.mp viewing
      exact ⟨rfl, Option.some.inj (stored.symm.trans registered)⟩
  have entered : restored.users.find (buildProxyUserKey (lit "a") (lit "b")) =
      some (some guest.configured) := by
    rcases ProxyContext.finds_iff.mp (restores.finds guest (guestLost_viewing.mpr rfl)) with
      ⟨user, stored⟩ | ⟨-, user, stored, -⟩
    · rw [(entries _ _ stored).2] at stored
      exact stored
    · exact absurd (entries _ _ stored).1 (by decide)
  have after : restored.decision (lit "a") (lit "b") = .ok (.ok (some (lit "h", [], []))) := by
    have some' : 0 < restored.users.size := (MapVar.size_pos_iff_find _).mpr ⟨_, _, entered⟩
    rw [ProxyContext.decision, ProxyContext.authenticateUser, if_pos some']
    simp only [ProxyContext.getProxyUser, entered, if_true, deref_some, bind, Except.bind, pure,
      Except.pure]
    rfl
  have before : guestLost.decision (lit "a") (lit "b") =
      .ok (.ok (some (lit "127.0.0.1:22", lit "a", lit "b"))) := by
    have empty : ¬0 < guestLost.users.size := fun some' => by
      obtain ⟨key, val, stored⟩ := (MapVar.size_pos_iff_find _).mp some'
      rw [guestLost_users] at stored
      contradiction
    rw [ProxyContext.decision, ProxyContext.authenticateUser, if_neg empty]
    have settings : guestLost.defaultUser (lit "a") (lit "b") =
        (makeNewProxy (some 0)).defaultUser (lit "a") (lit "b") := by
      rw [guestLost, ProxyContext.removeProxyUser]
      split <;> rfl
    rw [settings]
    rfl
  have equal := after.symm.trans ((decides (lit "a") (lit "b")).trans before)
  have host := congrArg Prod.fst (Option.some.inj (Except.ok.inj (Except.ok.inj equal)))
  exact absurd host (by decide)

end SSHProxyPlus
