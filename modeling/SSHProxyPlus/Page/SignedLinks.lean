import SSHProxyPlus.Browser.Address
import SSHProxyPlus.Controller.State
import SSHProxyPlus.Go.Query
import SSHProxyPlus.Page.LinkLists
import SSHProxyPlus.Page.Replies

/-! The link that is handed out for a viewer, from the proxy that builds it to the page that is
opened with it and back to the proxy: the sessions that the page lists, and the one it plays. -/
namespace SSHProxyPlus
open Go Browser Transition

/-- The viewer's `proxy` is the one that holds it. -/
def ProxySessionViewer.buildSignedURL (viewer : ProxySessionViewer) (proxy : ProxyContext)
    (proxyID : UInt64) : Except Panic Bytes := do
  let _ ← deref (if viewer.linked then some () else none)
  return proxy.baseURI ++ lit "/?id=" ++ utf8 (decimal proxyID.toNat) ++ lit "#signed-viewer&" ++
    viewer.secret

namespace ProxyController

/-- An ID that can not be read is that of the first proxy. -/
def requestedProxyID (query : Bytes) : UInt64 :=
  match (parseUint (runes (queryGet query (lit "id")))).filter fun id => id < 2 ^ 64 with
  | some id => .ofNat id
  | none => 0

/-- The proxy whose `socketHandler` gets the connection, where there is one. -/
def handleWebProxyRequest (controller : ProxyController) (query : Bytes) : Option ProxyContext :=
  (controller.getProxy (requestedProxyID query)).1

end ProxyController

/-- The query of `build_proxy_socket_url`. An address that a page has is already encoded. -/
def proxySocketQuery (href : List Char) : List Char :=
  "id=".toList ++ (urlVar href "id".toList).getD ['0']

/-- What becomes of the page once it has the answer to a list request. -/
def PlayerPage.answered (page : PlayerPage) (accepts : List Char → Bool) (proxy : ProxyContext)
    (seen : List Observation) (request : PageRequest) : PageCall :=
  match (proxy.socketHandler.run (.reading .command, request.messages) seen).head?.bind
    SocketReply.sessions with
  | some data => page.receive accepts data request
  | none => .ok page

/-- A text that neither ends a part of an address nor divides one, nor ends or escapes a part of
the selector that looks for the address. -/
structure Unmarked (text : List Char) : Prop where
  unset : NoVariables text
  undivided : '/' ∉ text
  unquoted : '\'' ∉ text
  unescaped : '\\' ∉ text

theorem Unmarked.apart {text : List Char} (unmarked : Unmarked text) : '&' ∉ text := by
  intro member
  have separator := (unmarked.unset _ member).1
  contradiction

/-- A text as the key of a session that can be linked to. -/
structure LinkKey (key : Bytes) (text : List Char) : Prop where
  bytes : key = utf8 text
  unmarked : Unmarked text
  solid : text ≠ []

/-- A base that has neither a query nor a hash. -/
structure PlainBase (base : List Char) : Prop where
  unqueried : '?' ∉ base
  single : '&' ∉ base
  unhashed : '#' ∉ base

def pageAddress (base : List Char) (proxyID : UInt64) (hash : List Char) : List Char :=
  base ++ '/' :: '?' :: (['i', 'd'] ++ '=' :: (decimal proxyID.toNat ++ hash))

def viewerMark : List Char := "signed-viewer".toList

def viewerHash (secret : List Char) : List Char := '#' :: (viewerMark ++ '&' :: secret)

def sessionHash (secret key : List Char) : List Char := viewerHash secret ++ ['/'] ++ key

/-! Secrets are of letters, digits and a few signs. -/

def letterChar (b : UInt8) : Char := Char.ofNat b.toNat

theorem secretLetters_plain : ∀ b ∈ secretLetters, String.utf8EncodeChar (letterChar b) = [b] ∧
    isSeparator (letterChar b) = false ∧ letterChar b ≠ '=' ∧ letterChar b ≠ '/' ∧
    letterChar b ≠ '\'' ∧ letterChar b ≠ '\\' := by
  decide +kernel

theorem secret_text {n : Nat} {draw : RandomSource} {secret : Bytes}
    (random : generateRandomString n draw = some secret) :
    ∃ text, secret = utf8 text ∧ Unmarked text ∧ text.length = n := by
  have drawn : ∀ (turns : List Nat) (secret : Bytes),
      (turns.mapM fun i => (draw i).map fun num => secretLetters.get num) = some secret →
      ∃ text, secret = utf8 text ∧ Unmarked text ∧ text.length = turns.length := by
    intro turns
    induction turns with
    | nil =>
      intro secret drawn
      obtain rfl := Option.some.inj drawn
      exact ⟨[], rfl, ⟨fun c member => absurd member List.not_mem_nil, List.not_mem_nil,
        List.not_mem_nil, List.not_mem_nil⟩, rfl⟩
    | cons turn turns ih =>
      intro secret drawn
      rw [List.mapM_cons] at drawn
      obtain ⟨b, first, rest⟩ := Option.bind_eq_some_iff.mp drawn
      obtain ⟨later, others, same⟩ := Option.bind_eq_some_iff.mp rest
      obtain rfl := Option.some.inj same
      obtain ⟨num, -, rfl⟩ := Option.map_eq_some_iff.mp first
      obtain ⟨text, rfl, ⟨plain, undivided, unquoted, unescaped⟩, length⟩ := ih later others
      obtain ⟨encoded, separator, equals, slash, quote, escape⟩ :=
        secretLetters_plain _ (List.get_mem _ num)
      refine ⟨letterChar (secretLetters.get num) :: text, ?_, ⟨?_, ?_, ?_, ?_⟩,
        congrArg Nat.succ length⟩
      · rw [utf8_cons, encoded]
        rfl
      · exact List.forall_mem_cons.mpr ⟨⟨separator, equals⟩, plain⟩
      · exact List.not_mem_cons_of_ne_of_not_mem slash.symm undivided
      · exact List.not_mem_cons_of_ne_of_not_mem quote.symm unquoted
      · exact List.not_mem_cons_of_ne_of_not_mem escape.symm unescaped
  obtain ⟨text, same, unmarked, length⟩ := drawn _ secret random
  exact ⟨text, same, unmarked, length.trans List.length_range⟩

/-! The proxy that the page's sockets lead to. -/

theorem decimal_value (n : Nat) : ∀ c ∈ decimal n, isValue c = true := by
  intro c member
  have digit := decimal_isDigit n c member
  rw [isValue, Bool.and_eq_true, bne_iff_ne, bne_iff_ne]
  constructor
  · rintro rfl
    contradiction
  · rintro rfl
    contradiction

theorem decimal_plainByte (n : Nat) : ∀ b ∈ utf8 (decimal n), plainByte b = true := by
  have digits : ∀ d < 10, ∀ b ∈ String.utf8EncodeChar (Nat.digitChar d), plainByte b = true := by
    decide +kernel
  intro b member
  obtain ⟨c, inside, encoded⟩ := List.mem_flatMap.mp member
  rw [decimal] at inside
  split at inside
  · rw [List.mem_singleton.mp inside] at encoded
    exact digits 0 (by decide) b encoded
  · obtain ⟨d, digit, rfl⟩ := List.mem_map.mp inside
    exact digits d (Nat.digits_lt_base (by decide) (List.mem_reverse.mp digit)) b encoded

/-- The address has the proxy's ID in its one variable, whatever the hash says of a viewer. -/
theorem proxySocketQuery_address {base key : List Char} {proxyID : UInt64}
    (plain : PlainBase base) (unset : NoVariables key) :
    proxySocketQuery (pageAddress base proxyID (viewerHash key)) =
      "id=".toList ++ decimal proxyID.toNat := by
  have front : ∀ c ∈ base ++ ['/'], isSeparator c = false :=
    separatorless (by simp [plain.unqueried]) (by simp [plain.single])
  have named : ∀ c ∈ ['i', 'd'], isName c = true := by simp [isName]
  have marked : ∀ c ∈ viewerMark, isSeparator c = false := separatorless (by decide) (by decide)
  have shape : pageAddress base proxyID (viewerHash key) = base ++ ['/'] ++ '?' ::
      (['i', 'd'] ++ '=' :: (decimal proxyID.toNat ++ '#' :: (viewerMark ++ '&' :: key))) := by
    rw [pageAddress, viewerHash, List.append_assoc, List.singleton_append]
  have vars : getURLVars (pageAddress base proxyID (viewerHash key)) =
      [(['i', 'd'], decimal proxyID.toNat)] := by
    rw [shape]
    exact getURLVars_address front (List.cons_ne_nil _ _) named
      (separatorless (by decide) (by decide)) (decimal_value _) marked unset
  rw [proxySocketQuery, urlVar, vars]
  rfl

theorem handleWebProxyRequest_address {controller : ProxyController} {base key : List Char}
    {proxyID : UInt64} (plain : PlainBase base) (unset : NoVariables key) :
    controller.handleWebProxyRequest
        (utf8 (proxySocketQuery (pageAddress base proxyID (viewerHash key)))) =
      (controller.getProxy proxyID).1 := by
  have id : queryGet (utf8 ("id=".toList ++ decimal proxyID.toNat)) (lit "id") =
      utf8 (decimal proxyID.toNat) := by
    have whole : utf8 ("id=".toList ++ decimal proxyID.toNat) =
        lit "id" ++ 61 :: utf8 (decimal proxyID.toNat) := by
      rw [utf8_append]
      rfl
    rw [whole]
    exact queryGet_single (List.all_eq_true.mp (by decide)) (decimal_plainByte _)
  rw [proxySocketQuery_address plain unset, ProxyController.handleWebProxyRequest,
    ProxyController.requestedProxyID, id, runes_utf8, parseUint_decimal]
  have inside : proxyID.toNat < 2 ^ 64 := proxyID.toNat_lt
  rw [Option.filter_some, decide_eq_true inside, if_pos rfl]
  exact congrArg (fun id => (controller.getProxy id).1) UInt64.ofNat_toNat

theorem hash_pageAddress {base key : List Char} {proxyID : UInt64} (plain : PlainBase base) :
    Browser.hash (pageAddress base proxyID (viewerHash key)) = viewerHash key := by
  have front : '#' ∉ base ++ '/' :: '?' :: (['i', 'd'] ++ '=' :: decimal proxyID.toNat) := by
    intro member
    rcases List.mem_append.mp member with inside | member
    · exact plain.unhashed inside
    · simp only [List.cons_append, List.nil_append, List.mem_cons] at member
      have digit : '#' ∈ decimal proxyID.toNat := by simpa using member
      have value := decimal_value proxyID.toNat _ digit
      contradiction
  have shape : pageAddress base proxyID (viewerHash key) =
      (base ++ '/' :: '?' :: (['i', 'd'] ++ '=' :: decimal proxyID.toNat)) ++
        '#' :: (viewerMark ++ '&' :: key) := by
    rw [pageAddress, viewerHash]
    simp only [List.append_assoc, List.cons_append, List.nil_append]
  rw [shape]
  exact hash_address front (by simp)

namespace PlayerPage
variable {page : PlayerPage} {accepts : List Char → Bool} {secret key : List Char}

theorem readHashes_viewer (here : page.hash = viewerHash key) (single : '&' ∉ key) :
    page.readHashes accepts false =
      .ok ((if '/' ∈ key then page.listViewerSessionAndPlayKey (element (key.splitOn '/') 0)
          (element (key.splitOn '/') 1) else page).listViewerSessionAndAddToList
        (element (key.splitOn '/') 0)) := by
  have separated : '&' ∈ page.hash := here ▸ List.mem_cons_of_mem _
    (List.mem_append_right _ (List.mem_cons_self ..))
  have number : page.hash.drop 1 = viewerMark ++ '&' :: key := by
    rw [here]
    rfl
  have elements : (viewerMark ++ '&' :: key).splitOn '&' = [viewerMark, key] := by
    rw [List.splitOn_append_cons_self_of_not_mem (by decide), List.splitOn_eq_singleton single]
  have live : viewerMark ≠ "live".toList := by decide
  have replay : viewerMark ≠ "replay".toList := by decide
  unfold readHashes
  rw [if_pos separated, number, elements]
  change (if viewerMark = "live".toList then _ else
    if viewerMark = "replay".toList then _ else if viewerMark = "signed-viewer".toList then _ else _) = _
  have viewer : viewerMark = "signed-viewer".toList := rfl
  rw [if_neg live, if_neg replay, if_pos viewer]
  rfl

/-- The address of a viewer has its sessions listed. -/
theorem readHashes_secret (here : page.hash = viewerHash secret) (unmarked : Unmarked secret) :
    ∃ opened, page.readHashes accepts false = .ok opened ∧
      opened = page.request (.list secret false [] true) := by
  refine ⟨_, readHashes_viewer here unmarked.apart, ?_⟩
  rw [if_neg unmarked.undivided, List.splitOn_eq_singleton unmarked.undivided]
  rfl

/-- The address of one of its sessions has that played, and all of them listed. -/
theorem readHashes_session (here : page.hash = sessionHash secret key) (unmarked : Unmarked secret)
    (keyed : Unmarked key) : ∃ opened, page.readHashes accepts false = .ok opened ∧
      opened = (page.request (.list secret true key true)).request (.list secret false [] true) := by
  have shape : sessionHash secret key = viewerHash (secret ++ '/' :: key) := by
    rw [sessionHash, viewerHash, viewerHash, List.append_assoc, List.cons_append, List.append_assoc,
      List.cons_append, List.singleton_append]
  have single : '&' ∉ secret ++ '/' :: key := by
    simp [unmarked.apart, keyed.apart]
  refine ⟨_, readHashes_viewer (here.trans shape) single, ?_⟩
  rw [if_pos (List.mem_append_right _ (List.mem_cons_self ..)),
    List.splitOn_append_cons_self_of_not_mem unmarked.undivided, List.splitOn_eq_singleton keyed.undivided]
  rfl

/-- A session that is in the list is the one that is played. -/
theorem receiveList_found {viewerKey sessionKey : List Char} {useViewer : Bool}
    {data : List SessionEntry} {session : SessionEntry} (requested : sessionKey ≠ [])
    (found : data.find? (·.key = sessionKey) = some session)
    (accepted : accepts (linkSelector page.hash) = true) :
    page.receiveList accepts viewerKey true sessionKey useViewer data =
      .ok (page.getSessionFromSocket session) := by
  cases data with
  | nil => simp at found
  | cons first rest =>
    simp only [receiveList, if_pos requested, if_pos accepted, found, if_true, Option.getD_some]

end PlayerPage

/-! The answers of the proxy. -/
section Answers
variable {viewer : ProxySessionViewer} {proxy : ProxyContext} {secret : List Char}

theorem viewerHref_session {session : SessionEntry} (known : session.secret = some secret) :
    session.viewerHref = sessionHash secret session.key := by
  have mark : "#signed-viewer&".toList = '#' :: (viewerMark ++ ['&']) := rfl
  have split : '#' :: (viewerMark ++ ['&']) ++ secret = viewerHash secret := by
    simp only [viewerHash, List.append_assoc, List.cons_append, List.nil_append]
  have front := (congrArg (fun mark => mark ++ secret) mark).trans split
  have href := congrArg (fun found : Option (List Char) => "#signed-viewer&".toList ++
    found.getD "undefined".toList ++ ['/'] ++ session.key) known
  exact href.trans (congrArg (fun front => front ++ ['/'] ++ session.key) front)

theorem ProxySessionViewer.Issued.text (issued : viewer.Issued proxy) :
    ∃ secret, viewer.secret = utf8 secret ∧ Unmarked secret ∧ viewer.secret ≠ [] := by
  obtain ⟨draw, random⟩ := issued.secret
  obtain ⟨secret, same, unmarked, length⟩ := secret_text random
  refine ⟨secret, same, unmarked, fun blank => ?_⟩
  have none : secret = [] := by
    rw [← runes_utf8 secret, ← same, blank]
    rfl
  rw [none] at length
  contradiction

/-- The answer to a list request for the viewer. -/
theorem answered_list (issued : viewer.Issued proxy) (same : viewer.secret = utf8 secret)
    (page : PlayerPage) (accepts : List Char → Bool) (first seen : Observation) (auto : Bool)
    (sessionKey : List Char) : ∃ data : List SessionEntry,
    page.answered accepts proxy [first, seen] (.list secret auto sessionKey true) =
      page.receiveList accepts secret auto sessionKey true data ∧
    (∀ session ∈ data, session.key ≠ [] → session.secret = some secret) ∧
    (∀ session ∈ data, ∃ key ref, viewer.Sees seen key ref ∧ session.key = runes key) ∧
    ∀ key ref, viewer.Sees seen key ref → ∃ session ∈ data, session.key = runes key := by
  obtain ⟨infos, replies, keys, secrets⟩ := issued.list first seen
  have solid : viewer.secret ≠ [] := by
    obtain ⟨_, _, _, solid⟩ := issued.text
    exact solid
  refine ⟨infos.map SessionInfo.entry, ?_, ?_, ?_, fun key ref sees => ?_⟩
  · have asks : (PageRequest.list secret auto sessionKey true).messages =
        [lit "viewer-list", viewer.secret] := by rw [same]; rfl
    rw [PlayerPage.answered, asks, replies]
    simp only [List.head?_cons, Option.bind_some, SessionInfo.sessions_reply]
    rfl
  · rintro _ member named
    obtain ⟨info, among, rfl⟩ := List.mem_map.mp member
    have key : info.key ≠ [] := by
      intro blank
      exact named (congrArg runes blank)
    rw [SessionInfo.entry, secrets info among key, if_neg solid, same, runes_utf8]
  · rintro _ member
    obtain ⟨info, among, rfl⟩ := List.mem_map.mp member
    obtain ⟨ref, sees⟩ := (keys info.key).mp ⟨info, among, rfl⟩
    exact ⟨info.key, ref, sees, rfl⟩
  · obtain ⟨info, among, rfl⟩ := (keys key).mpr ⟨ref, sees⟩
    exact ⟨_, List.mem_map_of_mem among, rfl⟩

end Answers

/-! A viewer of all sessions of one registered user, who has two. -/
section TwoSessions

def soleUser : ProxyUser where
  username := lit "a"
  password := lit "b"

/-- The proxy before the viewer is made. -/
def unviewedProxy : ProxyContext where
  users := some ((∅ : GoMap Bytes _).insert (buildProxyUserKey (lit "a") (lit "b"))
    (some soleUser))
  viewers := some ∅
  baseURI := lit "https://10.0.0.2:8443"

def soleViewer : ProxySessionViewer where
  viewerType := sessionViewerTypeList
  secret := utf8 (List.replicate sessionViewerSecretLen '0')
  linked := true
  user := some soleUser
  expiration := sessionViewerExpiration

def soleProxy : ProxyContext :=
  { unviewedProxy with
    viewers := some ((∅ : GoMap Bytes _).insert soleViewer.secret (some soleViewer)) }

def soleController : ProxyController where
  proxies := some ((∅ : GoMap UInt64 _).insert 1 (some soleProxy))

theorem soleBase : PlainBase "https://10.0.0.2:8443".toList :=
  ⟨by decide, by decide, by decide⟩

theorem soleController_proxy : (soleController.getProxy 1).1 = some soleProxy := by
  have found : soleController.proxies.find 1 = some (some soleProxy) := Finmap.lookup_insert _
  rw [ProxyController.getProxy, found]

/-- The random source that always draws the first letter. -/
def zeros : RandomSource := fun _ => (List.finRange secretLetters.length).head?

theorem soleViewer_made : unviewedProxy.makeSessionViewerForUser (lit "a") (lit "b") zeros =
    .ok (soleProxy, .ok soleViewer) := by
  have registered : unviewedProxy.users.find (buildProxyUserKey (lit "a") (lit "b")) =
      some (some soleUser) := Finmap.lookup_insert _
  have found : unviewedProxy.getProxyUser (lit "a") (lit "b") true =
      .ok (.ok (some soleUser, false)) := by
    rw [ProxyContext.getProxyUser, registered]
    rfl
  have random : generateRandomString sessionViewerSecretLen zeros = some soleViewer.secret := by
    decide +kernel
  have created : createNewSessionViewer sessionViewerTypeList soleUser zeros = .ok soleViewer := by
    rw [createNewSessionViewer, random]
    rfl
  simp only [ProxyContext.makeSessionViewerForUser, found, bind, Except.bind, created]
  rfl

theorem soleViewer_issued : soleViewer.Issued soleProxy :=
  ProxySessionViewer.issued_made (.inl soleViewer_made)

def firstKey : Bytes := lit "10.0.0.7:50000"

def secondKey : Bytes := lit "10.0.0.8:50000"

theorem firstKey_link : LinkKey firstKey "10.0.0.7:50000".toList :=
  ⟨rfl, ⟨noVariables (by decide) (by decide) (by decide), by decide, by decide, by decide⟩,
    by decide⟩

theorem secondKey_link : LinkKey secondKey "10.0.0.8:50000".toList :=
  ⟨rfl, ⟨noVariables (by decide) (by decide) (by decide), by decide, by decide, by decide⟩,
    by decide⟩

/-- The user has logged in from two addresses. -/
def bothSessions : Observation where
  userSessions := some ((∅ : GoMap Bytes _).insert soleUser.getKey
    (((∅ : GoMap Bytes SessionRef).insert firstKey 0).insert secondKey 1))
  heap := [{}, {}]

theorem soleViewer_sees {key : Bytes} {ref : SessionRef} :
    soleViewer.Sees bothSessions key ref ↔
      (key = firstKey ∧ ref = 0) ∨ (key = secondKey ∧ ref = 1) := by
  have covers : soleViewer.Covers key := fun single => absurd single (by decide)
  have filed : bothSessions.userSessions.find soleUser.getKey =
      some (((∅ : GoMap Bytes SessionRef).insert firstKey 0).insert secondKey 1) :=
    Finmap.lookup_insert _
  have apart : firstKey ≠ secondKey := by decide
  constructor
  · rintro ⟨user, sessions, same, found, listed, -⟩
    obtain rfl := Option.some.inj same
    obtain rfl := Option.some.inj (filed.symm.trans found)
    rw [lookup_insert_if, lookup_insert_if, Finmap.lookup_empty] at listed
    split at listed
    · next second => exact .inr ⟨second, (Option.some.inj listed).symm⟩
    · split at listed
      · next first => exact .inl ⟨first, (Option.some.inj listed).symm⟩
      · exact absurd listed.symm (Option.some_ne_none ref)
  · rintro (⟨rfl, rfl⟩ | ⟨rfl, rfl⟩)
    · refine ⟨soleUser, _, rfl, filed, ?_, covers⟩
      rw [Finmap.lookup_insert_of_ne _ apart, Finmap.lookup_insert]
    · exact ⟨soleUser, _, rfl, filed, Finmap.lookup_insert _, covers⟩

end TwoSessions

section Opened
variable {controller : ProxyController} {proxyID : UInt64} {proxy : ProxyContext}
  {viewer : ProxySessionViewer} {base : List Char}

theorem buildSignedURL_address {secret : List Char} {url : Bytes}
    (built : viewer.buildSignedURL proxy proxyID = .ok url) (based : proxy.baseURI = utf8 base)
    (same : viewer.secret = utf8 secret) :
    runes url = pageAddress base proxyID (viewerHash secret) := by
  obtain ⟨-, -, done⟩ := of_bind_ok built
  have id : lit "/?id=" = utf8 ['/', '?', 'i', 'd', '='] := rfl
  have mark : lit "#signed-viewer&" = utf8 ('#' :: (viewerMark ++ ['&'])) := rfl
  rw [← Except.ok.inj done, based, same, id, mark, ← utf8_append, ← utf8_append, ← utf8_append,
    ← utf8_append, runes_utf8, pageAddress, viewerHash]
  simp only [List.append_assoc, List.cons_append, List.nil_append]

/-- A page that is opened with a viewer's link asks that viewer's proxy, and lists the sessions that
the viewer sees. -/
theorem signed_url_lists (held : (controller.getProxy proxyID).1 = some proxy)
    (issued : viewer.Issued proxy) {url : Bytes}
    (built : viewer.buildSignedURL proxy proxyID = .ok url) (based : proxy.baseURI = utf8 base)
    (plain : PlainBase base) {page : PlayerPage}
    (opened : page.hash = Browser.hash (runes url))
    (accepts : List Char → Bool) (first seen : Observation)
    (keyed : ∀ key ref, viewer.Sees seen key ref → ∃ text, LinkKey key text) :
    controller.handleWebProxyRequest (utf8 (proxySocketQuery (runes url))) = some proxy ∧
    ∃ shown request listed, page.readHashes accepts false = .ok shown ∧
      shown.requests = page.requests ++ [request] ∧
      shown.answered accepts proxy [first, seen] request = .ok listed ∧
      (∀ anchor ∈ listed.links.anchors, anchor ∈ page.links.anchors ∨
        ∃ key ref, viewer.Sees seen key ref ∧
          anchor.href = sessionHash (runes viewer.secret) (runes key)) ∧
      ∀ key ref, viewer.Sees seen key ref → ∃ anchor ∈ listed.links.anchors,
        sessionHash (runes viewer.secret) (runes key) <:+: anchor.href := by
  obtain ⟨secret, same, unmarked, solid⟩ := issued.text
  rw [buildSignedURL_address built based same] at opened ⊢
  rw [hash_pageAddress plain] at opened
  obtain ⟨shown, reads, rfl⟩ := @PlayerPage.readHashes_secret page accepts secret opened unmarked
  obtain ⟨data, answers, secrets, known, listed⟩ := answered_list issued same
    (page.request (.list secret false [] true)) accepts first seen false []
  refine ⟨(handleWebProxyRequest_address plain unmarked.unset).trans held, _, _, _, reads, rfl,
    answers.trans rfl, ?_⟩
  rw [same, runes_utf8]
  have entries : ∀ session ∈ data.map fun session =>
      { session with secret := some (session.secret.getD secret) },
      session.viewerHref = sessionHash secret session.key := by
    intro session member
    obtain ⟨entry, among, rfl⟩ := List.mem_map.mp member
    refine viewerHref_session ?_
    obtain ⟨key, ref, sees, named⟩ := known entry among
    obtain ⟨text, link⟩ := keyed key ref sees
    have solid : entry.key ≠ [] := by
      rw [named, link.bytes, runes_utf8]
      exact link.solid
    rw [secrets entry among solid, Option.getD_some]
  obtain ⟨links, -, found⟩ := PageLinks.gains_addViewerSessionToList page.links
    (data.map fun session => { session with secret := some (session.secret.getD secret) })
  constructor
  · intro anchor member
    rcases links anchor member with old | new
    · exact .inl old
    · obtain ⟨session, among, href⟩ := List.mem_map.mp new
      obtain ⟨entry, inside, rfl⟩ := List.mem_map.mp among
      obtain ⟨key, ref, sees, named⟩ := known entry inside
      refine .inr ⟨key, ref, sees, href.symm.trans ((entries _ among).trans ?_)⟩
      rw [← named]
  · intro key ref sees
    obtain ⟨entry, inside, named⟩ := listed key ref sees
    obtain ⟨anchor, member, within⟩ :=
      found _ (List.mem_map_of_mem (List.mem_map_of_mem inside))
    refine ⟨anchor, member, ?_⟩
    rwa [entries _ (List.mem_map_of_mem inside), named] at within

theorem signed_url_lists_both :
    ∃ url, soleViewer.buildSignedURL soleProxy 1 = .ok url ∧
      soleController.handleWebProxyRequest (utf8 (proxySocketQuery (runes url))) = some soleProxy ∧
      ∃ shown request listed,
        (PlayerPage.mk (Browser.hash (runes url)) {} {} [] []).readHashes (fun _ => true) false =
          .ok shown ∧
        shown.requests = [request] ∧
        shown.answered (fun _ => true) soleProxy [{}, bothSessions] request = .ok listed ∧
        ∀ key ∈ [firstKey, secondKey], ∃ anchor ∈ listed.links.anchors,
          sessionHash (runes soleViewer.secret) (runes key) <:+: anchor.href := by
  obtain ⟨url, built⟩ : ∃ url, soleViewer.buildSignedURL soleProxy 1 = .ok url := ⟨_, rfl⟩
  have keyed (key : Bytes) (ref : SessionRef) (sees : soleViewer.Sees bothSessions key ref) :
      ∃ text, LinkKey key text := by
    rcases soleViewer_sees.mp sees with ⟨rfl, -⟩ | ⟨rfl, -⟩
    · exact ⟨_, firstKey_link⟩
    · exact ⟨_, secondKey_link⟩
  obtain ⟨asked, shown, request, listed, reads, requests, answered, -, links⟩ :=
    @signed_url_lists soleController 1 soleProxy soleViewer "https://10.0.0.2:8443".toList
      soleController_proxy soleViewer_issued url built rfl soleBase
      (PlayerPage.mk (Browser.hash (runes url)) {} {} [] []) rfl (fun _ => true) {} bothSessions
      keyed
  refine ⟨url, built, asked, shown, request, listed, reads, requests, answered, ?_⟩
  refine List.forall_mem_cons.mpr ⟨?_, List.forall_mem_singleton.mpr ?_⟩
  · exact links firstKey 0 (soleViewer_sees.mpr (.inl ⟨rfl, rfl⟩))
  · exact links secondKey 1 (soleViewer_sees.mpr (.inr ⟨rfl, rfl⟩))

/-- The link to a session of the viewer plays that session and no other, at the viewer's proxy. -/
theorem signed_link_plays (held : (controller.getProxy proxyID).1 = some proxy)
    (issued : viewer.Issued proxy) (plain : PlainBase base) {key : Bytes}
    {text href : List Char} (linked : LinkKey key text)
    (followed : href = pageAddress base proxyID (sessionHash (runes viewer.secret) text))
    {page : PlayerPage} (opened : page.hash = Browser.hash href) {accepts : List Char → Bool}
    (accepted : accepts (PlayerPage.linkSelector page.hash) = true) {listing playing : Observation}
    {listed played : SessionRef} (lists : viewer.Sees listing key listed)
    (plays : viewer.Sees playing key played) (first second third : Observation) :
    controller.handleWebProxyRequest (utf8 (proxySocketQuery href)) = some proxy ∧
    ∃ shown request answer session, page.readHashes accepts false = .ok shown ∧
      shown.requests = page.requests ++ [request, .list (runes viewer.secret) false [] true] ∧
      shown.answered accepts proxy [first, listing] request = .ok answer ∧
      answer.requests = shown.requests ++ [.play session true] ∧
      proxy.socketHandler.after (.reading .command, (PageRequest.play session true).messages)
        [second, third, playing] = (.playing played {}, []) := by
  obtain ⟨secret, same, unmarked, solid⟩ := issued.text
  have whole : sessionHash (runes viewer.secret) text = viewerHash (secret ++ '/' :: text) := by
    rw [same, runes_utf8, sessionHash, viewerHash, viewerHash]
    simp only [List.append_assoc, List.cons_append, List.nil_append]
  have unset : NoVariables (secret ++ '/' :: text) := by
    intro c member
    rcases List.mem_append.mp member with inside | member
    · exact unmarked.unset c inside
    · rcases List.mem_cons.mp member with rfl | inside
      · decide
      · exact linked.unmarked.unset c inside
  subst followed
  rw [whole, hash_pageAddress plain, ← whole, same, runes_utf8] at opened
  obtain ⟨shown, reads, rfl⟩ :=
    @PlayerPage.readHashes_session page accepts secret text opened unmarked linked.unmarked
  obtain ⟨data, answers, secrets, known, found⟩ := answered_list issued same
    ((page.request (.list secret true text true)).request (.list secret false [] true)) accepts
    first listing true text
  obtain ⟨entry, inside, named⟩ := found key listed lists
  rw [linked.bytes, runes_utf8] at named
  obtain ⟨session, search⟩ : ∃ session, data.find? (·.key = text) = some session :=
    Option.isSome_iff_exists.mp (List.find?_isSome.mpr ⟨entry, inside, decide_eq_true named⟩)
  have sessionKey : session.key = text := by simpa using List.find?_some search
  have sessionSecret : session.secret = some secret :=
    secrets session (List.mem_of_find?_eq_some search) (sessionKey ▸ linked.solid)
  have asks : (PageRequest.play session true).messages =
      [lit "viewer-get", viewer.secret, key] := by
    rw [PageRequest.messages, sessionSecret, sessionKey, Option.getD_some, ← same, ← linked.bytes]
  have replied := answers.trans (PlayerPage.receiveList_found linked.solid search accepted)
  refine ⟨?_, _, _, _, session, reads, ?_, replied, ?_, ?_⟩
  · rw [whole]
    exact (handleWebProxyRequest_address plain unset).trans held
  · rw [same, runes_utf8]
    exact List.append_assoc page.requests [_] [_]
  · rw [PlayerPage.getSessionFromSocket, sessionSecret]
    rfl
  · rw [asks]
    exact issued.get second third playing plays

/-- Of the two sessions the second is linked to, and the second is played. -/
theorem signed_link_plays_second : ∃ href shown request answer session,
    href = pageAddress "https://10.0.0.2:8443".toList 1
      (sessionHash (runes soleViewer.secret) "10.0.0.8:50000".toList) ∧
    soleController.handleWebProxyRequest (utf8 (proxySocketQuery href)) = some soleProxy ∧
    (PlayerPage.mk (Browser.hash href) {} {} [] []).readHashes (fun _ => true) false = .ok shown ∧
    shown.answered (fun _ => true) soleProxy [{}, bothSessions] request = .ok answer ∧
    answer.requests = shown.requests ++ [.play session true] ∧
    soleProxy.socketHandler.after (.reading .command, (PageRequest.play session true).messages)
      [{}, {}, bothSessions] = (.playing 1 {}, []) := by
  have sees := soleViewer_sees.mpr (.inr ⟨@rfl _ secondKey, @rfl _ 1⟩)
  obtain ⟨asked, shown, request, answer, session, reads, -, answered, played, plays⟩ :=
    @signed_link_plays soleController 1 soleProxy soleViewer "https://10.0.0.2:8443".toList
      soleController_proxy soleViewer_issued soleBase secondKey _ _ secondKey_link rfl
      (PlayerPage.mk _ {} {} [] []) rfl (fun _ => true) rfl _ _ 1 1 sees sees {} {} {}
  exact ⟨_, shown, request, answer, session, rfl, asked, reads, answered, played, plays⟩

end Opened
end SSHProxyPlus
