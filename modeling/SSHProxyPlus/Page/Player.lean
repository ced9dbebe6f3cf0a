import SSHProxyPlus.Page.Links
import SSHProxyPlus.Replay.Reader

/-! Which session the page plays: the address of the page, the proxy's reply to a list, and what
is asked for in answer to them. Intervals and the query sockets they use are left out, as is
which link is marked; the part of the address after its number sign is a plain variable. -/
namespace SSHProxyPlus

/-- What the page asks for: a socket with the handlers it was given, or a file. -/
inductive PageRequest where
  /-- `list_session`: the reply is for the handler with these arguments. -/
  | list (viewerKey : List Char) (autoPlayItem : Bool) (sessionKey : List Char) (useViewer : Bool)
  | query
  /-- `run_session_from_socket`. -/
  | play (session : SessionEntry) (viewerMode : Bool)
  /-- `getJSON`; the file that comes is replayed. -/
  | getJSON (path : List Char)
deriving DecidableEq

/-- `sessionSockets` has the key of each session whose socket is open. -/
structure PlayerPage where
  hash : List Char
  links : PageLinks := {}
  reader : TerminalReader := {}
  sessionSockets : List (List Char) := []
  requests : List PageRequest := []

/-- A handler that throws leaves the page as it is at that point. -/
abbrev PageCall := Except PlayerPage PlayerPage

namespace PlayerPage
variable (page : PlayerPage)

def request (asked : PageRequest) : PlayerPage :=
  { page with requests := page.requests ++ [asked] }

def runSessionFromSocket (session : SessionEntry) (viewerMode : Bool) : PlayerPage :=
  { page with sessionSockets := session.key :: page.sessionSockets.erase session.key }.request
    (.play session viewerMode)

def getSessionFromSocket (session : SessionEntry) : PlayerPage :=
  { page with sessionSockets := [], reader := page.reader.reset }.runSessionFromSocket session
    session.secret.isSome

/-- The selector of the links to an address. -/
def linkSelector (hash : List Char) : List Char := "a[href*='".toList ++ hash ++ "']".toList

def listSession (viewerKey : List Char) (autoPlayItem : Bool) (sessionKey : List Char)
    (useViewer : Bool) : PlayerPage :=
  page.request (.list viewerKey autoPlayItem sessionKey useViewer)

def listViewerSession (viewerKey : List Char) (autoPlayItem : Bool) (sessionKey : List Char) :
    PlayerPage := page.listSession viewerKey autoPlayItem sessionKey true

def listViewerSessionAndAddToList (viewerKey : List Char) : PlayerPage :=
  page.listViewerSession viewerKey false []

def listViewerSessionAndPlayFirstItem (viewerKey : List Char) : PlayerPage :=
  page.listViewerSession viewerKey true []

def listViewerSessionAndPlayKey (viewerKey sessionKey : List Char) : PlayerPage :=
  page.listViewerSession viewerKey true sessionKey

def listAndPlaySession (sessionKey : List Char) : PlayerPage :=
  page.listSession [] true sessionKey false

/-- Elements of an address that are not there are read as the text `undefined`. -/
def element (elements : List (List Char)) (index : Nat) : List Char :=
  elements[index]?.getD "undefined".toList

section
variable (accepts : List Char → Bool)

/-- `jQuery` throws where it does not accept a selector. -/
def fetchSessionJsonAndUpdateLink (path : List Char) : PageCall :=
  if accepts (linkSelector page.hash) then .ok (page.request (.getJSON path)) else .error page

def initQuerySocket (standalone : Bool) : PlayerPage :=
  if standalone then page else page.request .query

def readHashes (standalone : Bool) : PageCall :=
  if '&' ∈ page.hash then
    let elements := (page.hash.drop 1).splitOn '&'
    let actionType := element elements 0
    let actionKey := element elements 1
    if actionType = "live".toList then
      .ok ((page.listAndPlaySession actionKey).initQuerySocket standalone)
    else if actionType = "replay".toList then do
      let page ← page.fetchSessionJsonAndUpdateLink accepts ("sessions/".toList ++ actionKey)
      return page.initQuerySocket standalone
    else if actionType = "signed-viewer".toList then
      let viewerElements := actionKey.splitOn '/'
      let viewerKey := element viewerElements 0
      let page :=
        if '/' ∈ actionKey then
          page.listViewerSessionAndPlayKey viewerKey (element viewerElements 1)
        else page
      .ok (if standalone then page else page.listViewerSessionAndAddToList viewerKey)
    else if actionType = "signed-session".toList then
      .ok (page.listViewerSessionAndPlayFirstItem actionKey)
    else .ok (page.initQuerySocket standalone)
  else .ok (page.initQuerySocket standalone)

/-- The file that the session was recorded in. -/
def logName (sessionKey : List Char) : List Char := sessionKey ++ ".log.json".toList

/-- `socket.onmessage` of `list_session`, for a reply that is a list of sessions. The first one is
played where none has the key. -/
def receiveList (viewerKey : List Char) (autoPlayItem : Bool) (sessionKey : List Char)
    (useViewer : Bool) (data : List SessionEntry) : PageCall :=
  if autoPlayItem then
    match data with
    | first :: _ =>
        let session :=
          if sessionKey ≠ [] then (data.find? (·.key = sessionKey)).getD first else first
        if accepts (linkSelector page.hash) then .ok (page.getSessionFromSocket session)
        else .error page
    | [] =>
        if sessionKey ≠ [] ∧ ¬ useViewer then
          { page with hash := "#replay&".toList ++ logName sessionKey }.readHashes accepts false
        else .ok page
  else
    let data := data.map fun session =>
      { session with secret := some (session.secret.getD viewerKey) }
    .ok { page with links := page.links.addViewerSessionToList data }

end

/-- What the page asked for since it was as given. -/
def asked (earlier : PlayerPage) : PageCall → List PageRequest
  | .ok page => page.requests.drop earlier.requests.length
  | .error page => page.requests.drop earlier.requests.length

/-- The two ways to ask for a session by its key. -/
inductive Route where
  | live
  | viewer (viewerKey : List Char)

def Route.isViewer : Route → Bool
  | .live => false
  | .viewer _ => true

def Route.request (sessionKey : List Char) : Route → PageRequest
  | .live => .list [] true sessionKey false
  | .viewer viewerKey => .list viewerKey true sessionKey true

/-- What the page does when it is told to play the session of that key. -/
def ask (route : Route) (sessionKey : List Char) : PlayerPage :=
  match route with
  | .live => page.listAndPlaySession sessionKey
  | .viewer viewerKey => page.listViewerSessionAndPlayKey viewerKey sessionKey

/-- What the handler that was set up for a request does with the reply to it. -/
def receive (accepts : List Char → Bool) (data : List SessionEntry) : PageRequest → PageCall
  | .list viewerKey autoPlayItem sessionKey useViewer =>
      page.receiveList accepts viewerKey autoPlayItem sessionKey useViewer data
  | _ => .ok page

/-- No session but the one of that key is played, and one that is not in the list is replayed. -/
structure PlaysRequested (sessionKey : List Char) (route : Route) (data : List SessionEntry)
    (asked : List PageRequest) : Prop where
  only : ∀ session viewerMode, .play session viewerMode ∈ asked → session.key = sessionKey
  absent : (∀ session ∈ data, session.key ≠ sessionKey) →
    (∀ session viewerMode, .play session viewerMode ∉ asked) ∧
      (route.isViewer = false → .getJSON ("sessions/".toList ++ logName sessionKey) ∈ asked)

/-- The reply has the session, or it is empty and the address of the log leads to the log, or
nothing is asked for as there is no link to be marked. -/
def Playable (accepts : List Char → Bool) (sessionKey : List Char) (route : Route)
    (data : List SessionEntry) : Prop :=
  (∃ session ∈ data, session.key = sessionKey) ∨
    (data = [] ∧ (route.isViewer = true ∨
      '&' ∉ sessionKey ∧ accepts (linkSelector ("#replay&".toList ++ logName sessionKey)) = true)) ∨
    (route.isViewer = true ∧ accepts (linkSelector page.hash) = false)

variable {page} {accepts : List Char → Bool} {sessionKey : List Char} {route : Route}
  {data : List SessionEntry}

theorem ask_requests (page : PlayerPage) (route : Route) (sessionKey : List Char) :
    (page.ask route sessionKey).requests = page.requests ++ [route.request sessionKey] := by
  cases route with
  | live => rfl
  | viewer viewerKey => rfl

theorem receive_request (page : PlayerPage) (accepts : List Char → Bool)
    (data : List SessionEntry) (route : Route) (sessionKey : List Char) :
    ∃ viewerKey, page.receive accepts data (route.request sessionKey) =
      page.receiveList accepts viewerKey true sessionKey route.isViewer data := by
  cases route with
  | live => exact ⟨[], rfl⟩
  | viewer viewerKey => exact ⟨viewerKey, rfl⟩

/-- A reply with sessions has one of them played, or nothing where there is no link to mark. -/
theorem receiveList_cons (requested : sessionKey ≠ []) (page : PlayerPage)
    (accepts : List Char → Bool) (viewerKey : List Char) (useViewer : Bool) (first : SessionEntry)
    (rest : List SessionEntry) :
    page.asked (page.receiveList accepts viewerKey true sessionKey useViewer (first :: rest)) =
      if accepts (linkSelector page.hash) then
        [.play (((first :: rest).find? (·.key = sessionKey)).getD first)
          (((first :: rest).find? (·.key = sessionKey)).getD first).secret.isSome]
      else [] := by
  simp only [receiveList, if_pos requested, if_true]
  split
  · exact List.drop_left
  · exact List.drop_length

/-- The number after the first separator of an address with one. -/
theorem splitOn_replay (name : List Char) :
    element ("replay&".toList ++ name |>.splitOn '&') 0 = "replay".toList ∧
      (element ("replay&".toList ++ name |>.splitOn '&') 1 = name ↔ '&' ∉ name) := by
  have plain : '&' ∉ "replay".toList := by decide
  have first := List.splitOn_append_cons_self_of_not_mem plain name
  have same : "replay&".toList ++ name = "replay".toList ++ '&' :: name := rfl
  rw [same, first]
  refine ⟨rfl, ?_⟩
  by_cases member : '&' ∈ name
  · obtain ⟨before, after, rfl, free⟩ := List.eq_append_cons_of_mem member
    rw [List.splitOn_append_cons_self_of_not_mem free]
    refine iff_of_false (fun same => free ?_) (not_not.mpr member)
    change before = before ++ '&' :: after at same
    rw [same]
    exact member
  · rw [List.splitOn_eq_singleton member]
    exact iff_of_true rfl member

theorem readHashes_replay {name : List Char} (here : page.hash = "#replay&".toList ++ name) :
    page.readHashes accepts false = if accepts (linkSelector page.hash) then
        .ok ((page.request (.getJSON ("sessions/".toList ++
          element ("replay&".toList ++ name |>.splitOn '&') 1))).request .query)
      else .error page := by
  have separated : '&' ∈ page.hash := here ▸ List.mem_append_left _ (by decide)
  have number : page.hash.drop 1 = "replay&".toList ++ name := by
    rw [here]
    rfl
  have other : "replay".toList ≠ "live".toList := by decide
  unfold readHashes
  rw [if_pos separated, number]
  dsimp only
  rw [(splitOn_replay name).1, if_neg other, if_pos rfl]
  unfold fetchSessionJsonAndUpdateLink
  split
  · rfl
  · rfl

/-- An empty reply has the log replayed whose name the new address gives. -/
theorem receiveList_nil (requested : sessionKey ≠ []) (page : PlayerPage)
    (accepts : List Char → Bool) (viewerKey : List Char) (useViewer : Bool) :
    page.asked (page.receiveList accepts viewerKey true sessionKey useViewer []) =
      if useViewer = false ∧ accepts (linkSelector ("#replay&".toList ++ logName sessionKey)) then
        [.getJSON ("sessions/".toList ++
          element ("replay&".toList ++ logName sessionKey |>.splitOn '&') 1), .query]
      else [] := by
  unfold receiveList
  rw [if_pos rfl]
  cases useViewer with
  | true =>
    rw [if_neg (fun asks => asks.2 rfl), if_neg (fun asks => by simp at asks)]
    exact List.drop_length
  | false =>
    dsimp only
    rw [if_pos ⟨requested, Bool.false_ne_true⟩, readHashes_replay rfl]
    split
    · next accepted =>
      rw [if_pos ⟨rfl, accepted⟩]
      have both := List.append_assoc page.requests [PageRequest.getJSON ("sessions/".toList ++
        element ("replay&".toList ++ logName sessionKey |>.splitOn '&') 1)] [.query]
      exact (congrArg (List.drop _) both).trans List.drop_left
    · next rejected =>
      rw [if_neg fun asks => rejected asks.2]
      exact List.drop_length

theorem mem_playing {session : SessionEntry} {played : SessionEntry} {viewerMode mode : Bool} :
    PageRequest.play session viewerMode ∈ [PageRequest.play played mode] ↔
      session = played ∧ viewerMode = mode := by
  rw [List.mem_singleton, PageRequest.play.injEq]

theorem playsRequested_nothing :
    PlaysRequested sessionKey route data [] ↔
      (∃ session ∈ data, session.key = sessionKey) ∨ route.isViewer = true := by
  constructor
  · intro right
    by_cases present : ∃ session ∈ data, session.key = sessionKey
    · exact .inl present
    · refine .inr ?_
      by_contra public'
      have missing : ∀ session ∈ data, session.key ≠ sessionKey :=
        fun session member same => present ⟨session, member, same⟩
      exact List.not_mem_nil ((right.absent missing).2 (Bool.not_eq_true _ ▸ public'))
  · intro quiet
    refine ⟨fun _ _ member => absurd member List.not_mem_nil, fun missing =>
      ⟨fun _ _ => List.not_mem_nil, fun public' => ?_⟩⟩
    rcases quiet with ⟨session, member, same⟩ | viewing
    · exact absurd same (missing session member)
    · rw [public'] at viewing
      contradiction

/-- The first session of the list is played in place of one that is not in it. -/
theorem playsRequested_play {first : SessionEntry} {rest : List SessionEntry} {mode : Bool} :
    PlaysRequested sessionKey route (first :: rest)
        [.play (((first :: rest).find? (·.key = sessionKey)).getD first) mode] ↔
      ∃ session ∈ first :: rest, session.key = sessionKey := by
  cases found : (first :: rest).find? (·.key = sessionKey) with
  | some session =>
    have same : session.key = sessionKey := by simpa using List.find?_some found
    have member := List.mem_of_find?_eq_some found
    refine iff_of_true ⟨fun other viewerMode there => ?_, fun missing => ?_⟩ ⟨session, member, same⟩
    · obtain ⟨rfl, -⟩ := mem_playing.mp there
      exact same
    · exact absurd same (missing session member)
  | none =>
    have missing : ∀ session ∈ first :: rest, session.key ≠ sessionKey := by
      simpa using List.find?_eq_none.mp found
    refine iff_of_false (fun right => ?_) fun ⟨session, member, same⟩ => missing session member same
    exact (right.absent missing).1 first mode (mem_playing.mpr ⟨rfl, rfl⟩)

theorem playsRequested_log {name : List Char} :
    PlaysRequested sessionKey .live [] [.getJSON ("sessions/".toList ++ name), .query] ↔
      name = logName sessionKey := by
  constructor
  · intro right
    have asked := (right.absent (List.forall_mem_nil _)).2 rfl
    simpa [eq_comm] using asked
  · rintro rfl
    refine ⟨fun session mode member => ?_, fun _ => ⟨fun session mode member => ?_, fun _ => ?_⟩⟩
    · simp at member
    · simp at member
    · exact List.mem_cons_self

theorem not_mem_logName : '&' ∉ logName sessionKey ↔ '&' ∉ sessionKey := by
  have plain : '&' ∉ ".log.json".toList := by decide
  rw [logName, List.mem_append, or_iff_left plain]

/-- The reply to a request for a session, whatever became of the page meanwhile: the session that
was asked for is played or replayed exactly if the reply has it, or is empty and the address of
its log can be read back. -/
theorem plays_requested_iff (accepts : List Char → Bool) (earlier later : PlayerPage)
    (route : Route) (requested : sessionKey ≠ []) (data : List SessionEntry) :
    (earlier.ask route sessionKey).requests =
        earlier.requests ++ [route.request sessionKey] ∧
      (PlaysRequested sessionKey route data
          (later.asked (later.receive accepts data (route.request sessionKey))) ↔
        later.Playable accepts sessionKey route data) := by
  refine ⟨ask_requests earlier route sessionKey, ?_⟩
  obtain ⟨viewerKey, received⟩ := receive_request later accepts data route sessionKey
  rw [received]
  unfold Playable
  cases data with
  | cons first rest =>
    have listed : first :: rest ≠ [] := List.cons_ne_nil first rest
    rw [receiveList_cons requested]
    split
    · next accepted => simp only [playsRequested_play, listed, false_and, accepted, and_false,
        Bool.true_eq_false, or_false]
    · next rejected =>
      have blocked := Bool.not_eq_true _ ▸ rejected
      simp only [playsRequested_nothing, listed, false_and, blocked, and_true, false_or]
  | nil =>
    rw [receiveList_nil requested]
    cases route with
    | viewer key =>
      rw [if_neg fun asks => by simpa [Route.isViewer] using asks.1, playsRequested_nothing]
      simp [Route.isViewer]
    | live =>
      split
      · next asks =>
        rw [playsRequested_log, (splitOn_replay _).2, not_mem_logName]
        constructor
        · exact fun plain => .inr (.inl ⟨rfl, .inr ⟨plain, asks.2⟩⟩)
        · rintro (⟨session, member, -⟩ | ⟨-, viewing | ⟨plain, -⟩⟩ | ⟨viewing, -⟩)
          · exact absurd member List.not_mem_nil
          · exact absurd viewing Bool.false_ne_true
          · exact plain
          · exact absurd viewing Bool.false_ne_true
      · next asks =>
        rw [playsRequested_nothing]
        constructor
        · rintro (⟨session, member, -⟩ | viewing)
          · exact absurd member List.not_mem_nil
          · exact absurd viewing Bool.false_ne_true
        · rintro (⟨session, member, -⟩ | ⟨-, viewing | ⟨-, accepted⟩⟩ | ⟨viewing, -⟩)
          · exact absurd member List.not_mem_nil
          · exact .inr viewing
          · exact absurd ⟨rfl, accepted⟩ asks
          · exact .inr viewing

/-- A selector that holds no quote of its own. -/
def unquoted (selector : List Char) : Bool := selector.count '\'' == 2

def openPage : PlayerPage := { hash := "#live&10.0.0.1:301".toList }

def listedSessions : List SessionEntry :=
  [{ key := "10.0.0.1:222".toList }, { key := "10.0.0.1:301".toList }]

/-- The second session of the reply was asked for, and it is the one that is played; once it has
ended and no other is active, its log is replayed. -/
theorem plays_requested_listed :
    openPage.asked (openPage.receive unquoted listedSessions
        (Route.request "10.0.0.1:301".toList .live)) =
      [.play { key := "10.0.0.1:301".toList } false] ∧
    PlaysRequested "10.0.0.1:301".toList .live listedSessions
      (openPage.asked (openPage.receive unquoted listedSessions
        (Route.request "10.0.0.1:301".toList .live))) ∧
    PlaysRequested "10.0.0.1:301".toList .live []
      (openPage.asked (openPage.receive unquoted []
        (Route.request "10.0.0.1:301".toList .live))) := by
  have requested : "10.0.0.1:301".toList ≠ [] := by decide
  refine ⟨by decide, ?_, ?_⟩
  · refine (plays_requested_iff unquoted openPage openPage .live requested _).2.mpr ?_
    exact .inl ⟨{ key := "10.0.0.1:301".toList }, by simp [listedSessions], rfl⟩
  · refine (plays_requested_iff unquoted openPage openPage .live requested []).2.mpr ?_
    exact .inr (.inl ⟨rfl, .inr ⟨by decide, by decide⟩⟩)

/-- The session has ended, but another one is active: that one is played. -/
theorem other_session_played :
    ¬ ∀ (accepts : List Char → Bool) (page : PlayerPage) (route : Route) (sessionKey : List Char),
      sessionKey ≠ [] → ∀ data : List SessionEntry, PlaysRequested sessionKey route data
        (page.asked (page.receive accepts data (route.request sessionKey))) := by
  intro plays
  have right := plays unquoted openPage .live "10.0.0.1:301".toList (by decide)
    [{ key := "10.0.0.1:222".toList }]
  have played := right.only { key := "10.0.0.1:222".toList } false (by decide)
  exact absurd played (by decide)

end PlayerPage
end SSHProxyPlus
