import SSHProxyPlus.Go.JsonLines
import SSHProxyPlus.Page.LinkLists
import SSHProxyPlus.Page.Replies
import SSHProxyPlus.Session.Listing

/-! The list of finished sessions, fetched by a page: the links to their logs that it gets. -/
namespace Go
variable {σ : Type}

/-- The member of that name in an object; of several the last one counts. -/
def lastMember (members : List (List Char × Json)) (name : List Char) : Option Json :=
  members.reverse.lookup name

theorem lastMember_none {members : List (List Char × Json)} {name : List Char}
    (absent : ∀ m ∈ members, m.1 ≠ name) : lastMember members name = none := by
  rw [lastMember, List.lookup_eq_none_iff]
  intro m member
  rw [bne_iff_ne]
  exact (absent m (List.mem_reverse.mp member)).symm

theorem lastMember_members {fields : List (StructField σ)}
    (distinct : (fields.map StructField.name).Nodup) {a : σ} {f : StructField σ} (member : f ∈ fields)
    (kept : (f.omitEmpty && f.empty a) = false) :
    lastMember (StructField.members fields a) f.name = some (f.encode a) := by
  induction fields with
  | nil => exact absurd member List.not_mem_nil
  | cons g fields ih =>
    obtain ⟨fresh, others⟩ := List.nodup_cons.mp distinct
    rcases List.mem_cons.mp member with rfl | later
    · have absent : lastMember (StructField.members fields a) f.name = none := by
        apply lastMember_none
        rintro m there same
        obtain ⟨g, among, made⟩ := List.mem_filterMap.mp there
        split at made
        · contradiction
        · obtain rfl := Option.some.inj made
          exact fresh (same ▸ List.mem_map_of_mem among)
      rw [lastMember] at absent ⊢
      rw [StructField.members, List.filterMap_cons, kept]
      simp only [Bool.false_eq_true, if_false, List.reverse_cons, List.lookup_append]
      rw [StructField.members] at absent
      rw [absent]
      simp
    · have found := ih others later
      rw [lastMember] at found ⊢
      rw [StructField.members, List.filterMap_cons]
      rw [StructField.members] at found
      by_cases dropped : (g.omitEmpty && g.empty a) = true
      · rw [if_pos dropped]
        exact found
      · rw [if_neg dropped]
        simp only [List.reverse_cons, List.lookup_append, found, Option.some_or]

end Go

namespace SSHProxyPlus
open Go Browser

/-- What the page reads of a line in the list. -/
structure OldSession where
  clientHost : List Char
  length : Int
  filename : List Char
  /-- The server writes null where there are none. -/
  requests : Option (List (List Char))
deriving DecidableEq

namespace OldSession

/-- The texts in an array. -/
def requestTypes : Json → Option (List (List Char))
  | .arr items => some (items.filterMap fun item =>
      match item with
      | .str text => some text
      | _ => none)
  | _ => none

/-- A line as `JSON.parse` gives it. The server always tells host, length and file. -/
def construct : Json → Option OldSession
  | .obj members =>
      match lastMember members "client_host".toList, lastMember members "filename".toList,
        (lastMember members "length".toList).bind Value.ofJson with
      | some (.str clientHost), some (.str filename), some (.number length) =>
          some { clientHost, length, filename
                 requests := (lastMember members "requests".toList).bind requestTypes }
      | _, _, _ => none
  | _ => none

variable (session : OldSession)

/-- What the link says of the requests. -/
def requestMark (requests : List (List Char)) : List Char :=
  bif requests.any fun type => type == "pty-req".toList then " (pty)".toList
  else bif requests.any fun type => type == "exec".toList then " (exec)".toList
  else []

/-- What the link says. -/
def anchorText : List Char :=
  session.clientHost ++ " - ".toList ++ (Value.number session.length).toText ++ "s".toList ++
    (session.requests.map requestMark).getD []

def replayHref : List Char := "#replay&".toList ++ session.filename

/-- The entry that is added: the line has no key. -/
def entry : SessionEntry where
  key := "undefined".toList
  active := false
  length := session.length
  filename := some session.filename
  displayText := some session.anchorText

/-- `slice(-5)` is the end of the name. -/
def isScan : Bool := session.filename.drop (session.filename.length - 5) == ".scan".toList

end OldSession

namespace PageLinks

def addOldSessionToList (page : PageLinks) (session : OldSession) : PageLinks :=
  if page.finds session.replayHref then page else page.addSessionToList [session.entry]

/-- A line that can not be read throws, and ends the loop. -/
def addOldLines : PageLinks → List (List Char) → PageLinks
  | page, [] => page
  | page, line :: lines =>
      if line = [] then addOldLines page lines
      else match (parse line).bind OldSession.construct with
        | some session =>
            if session.isScan then addOldLines page lines
            else addOldLines (page.addOldSessionToList session) lines
        | none => page

def updateOldSessionList (page : PageLinks) (data : List Char) : PageLinks :=
  page.addOldLines (data.splitOn '\n')

theorem gains_addOldSessionToList (page : PageLinks) (session : OldSession) :
    page.Gains (page.addOldSessionToList session) [session.replayHref] := by
  have added : page.addOldSessionToList session =
      page.addLinkToList session.entry session.replayHref .oldSessionList := by
    rw [addOldSessionToList]
    split
    · next found => exact (if_pos found).symm
    · rfl
  rw [added]
  exact page.gains_addLinkToList _ _ _

end PageLinks

namespace SessionInfoExtended
variable (info : SessionInfoExtended)

/-- What the page reads of the entry. -/
def oldSession : OldSession where
  clientHost := runes info.clientHost
  length := roundDouble info.length.toInt
  filename := runes info.filename
  requests := info.requests.map (List.map runes)

theorem construct_encode : OldSession.construct (codec.encode info) = some info.oldSession := by
  have distinct : (fields.map StructField.name).Nodup := by decide +kernel
  have kept : ∀ i : Fin fields.length, (fields.get i).omitEmpty = false := by decide +kernel
  have told (i : Fin fields.length) :
      lastMember (StructField.members fields info) (fields.get i).name =
        some ((fields.get i).encode info) :=
    lastMember_members distinct (List.get_mem fields i) (by rw [kept i, Bool.false_and])
  have host : lastMember (StructField.members fields info) "client_host".toList =
      some (.str (runes info.clientHost)) := told ⟨3, by decide⟩
  have name : lastMember (StructField.members fields info) "filename".toList =
      some (.str (runes info.filename)) := told ⟨9, by decide⟩
  have length : (lastMember (StructField.members fields info) "length".toList).bind Value.ofJson =
      some (.number (roundDouble info.length.toInt)) := by
    have encoded : lastMember (StructField.members fields info) "length".toList =
        some (intCodec.encode info.length) := told ⟨2, by decide⟩
    rw [encoded, Option.bind_some, SessionInfo.ofJson_int]
  have requests : (lastMember (StructField.members fields info) "requests".toList).bind
      OldSession.requestTypes = info.requests.map (List.map runes) := by
    have encoded : lastMember (StructField.members fields info) "requests".toList =
        some ((pointerCodec (sliceCodec stringCodec)).encode info.requests) := told ⟨10, by decide⟩
    rw [encoded, Option.bind_some]
    cases info.requests with
    | none => rfl
    | some names =>
      change some ((names.map fun name => Json.str (runes name)).filterMap _) = _
      rw [List.filterMap_map]
      exact congrArg some (List.filterMap_eq_map ▸ rfl)
  rw [codec, structCodec, visible_fields]
  simp only [OldSession.construct, host, name, length, requests]
  rfl

end SessionInfoExtended

/-- The lines of the list as the server writes them. -/
def listText (infos : List SessionInfoExtended) : List (List Char) :=
  infos.map fun info => marshalText (SessionInfoExtended.codec.encode info)

theorem addOldLines_listText (page : PageLinks) (infos : List SessionInfoExtended) :
    page.addOldLines (listText infos ++ [[]]) =
      ((infos.map SessionInfoExtended.oldSession).filter fun session => !session.isScan).foldl
        PageLinks.addOldSessionToList page := by
  induction infos generalizing page with
  | nil => rfl
  | cons info infos ih =>
    obtain ⟨c, tail, opens, -⟩ := render_opens .compact 0 (SessionInfoExtended.codec.encode info)
    have solid : marshalText (SessionInfoExtended.codec.encode info) ≠ [] := by
      rw [marshalText, opens]
      exact List.cons_ne_nil _ _
    have read : (parse (marshalText (SessionInfoExtended.codec.encode info))).bind
        OldSession.construct = some info.oldSession := by
      rw [marshalText, parse_render, Option.bind_some, info.construct_encode]
    have tail := ih
    unfold listText at tail ⊢
    rw [List.map_cons, List.cons_append, PageLinks.addOldLines, if_neg solid, read, List.map_cons]
    dsimp only
    by_cases scan : info.oldSession.isScan = true
    · rw [if_pos scan, List.filter_cons_of_neg (by simp [scan])]
      exact tail page
    · rw [if_neg scan, List.filter_cons_of_pos (by simp [scan]), List.foldl_cons]
      exact tail _

/-- The whole list, read by a page that has it. -/
theorem updateOldSessionList_listText (page : PageLinks) (infos : List SessionInfoExtended) :
    page.updateOldSessionList ((listText infos).flatMap (· ++ ['\n'])) =
      ((infos.map SessionInfoExtended.oldSession).filter fun session => !session.isScan).foldl
        PageLinks.addOldSessionToList page := by
  have apart : ∀ line ∈ listText infos, '\n' ∉ line := by
    intro line member
    obtain ⟨info, -, rfl⟩ := List.mem_map.mp member
    exact marshalText_newline _
  rw [PageLinks.updateOldSessionList, splitOn_lines apart, addOldLines_listText]

theorem isScan_append (session : OldSession) (front : List Char)
    (named : session.filename = front ++ ".scan".toList) : session.isScan = true := by
  have size : (front ++ ".scan".toList).length - 5 = front.length := by
    rw [List.length_append]
    exact Nat.add_sub_cancel front.length 5
  rw [OldSession.isScan, named, size, List.drop_left, beq_self_eq_true]

theorem isScan_log (session : OldSession) (front : List Char)
    (named : session.filename = front ++ ".log.json".toList) : session.isScan = false := by
  have shape : session.filename = (front ++ ".log".toList) ++ ".json".toList := by
    rw [named, List.append_assoc]
    rfl
  have size : ((front ++ ".log".toList) ++ ".json".toList).length - 5 =
      (front ++ ".log".toList).length := by
    rw [List.length_append]
    exact Nat.add_sub_cancel (front ++ ".log".toList).length 5
  rw [OldSession.isScan, shape, size, List.drop_left]
  decide

section Finished
variable {world : Surroundings Bytes} {proxy : ProxyContext}

def EndedSession.info (world : Surroundings Bytes) (proxy : ProxyContext)
    (session : EndedSession) : SessionInfoExtended :=
  session.run.listedInfo world session.requests proxy

theorem runes_listLines (sessions : List EndedSession) :
    runes ((listLines world proxy sessions).flatMap (· ++ lit "\n")) =
      (listText (sessions.map (EndedSession.info world proxy))).flatMap (· ++ ['\n']) := by
  have text : (listLines world proxy sessions).flatMap (· ++ lit "\n") =
      utf8 ((listText (sessions.map (EndedSession.info world proxy))).flatMap (· ++ ['\n'])) := by
    induction sessions with
    | nil => rfl
    | cons session sessions ih =>
      have later := ih
      unfold listLines listText at later ⊢
      rw [List.map_cons, List.flatMap_cons, later, List.map_cons, List.map_cons, List.flatMap_cons,
        utf8_append, utf8_append]
      rfl
  rw [text, runes_utf8]

/-- A session is linked to by the name of its log, if that is long. -/
theorem oldSession_filename (folder : ValidUTF8 proxy.sessionFolder) (session : EndedSession)
    (key : ValidUTF8 session.run.sessKey) :
    ((session.info world proxy).oldSession.isScan = true ↔ session.run.eventCount < 10) ∧
    (10 ≤ session.run.eventCount → (session.info world proxy).oldSession.replayHref =
      "#replay&".toList ++ runes session.run.filename) := by
  obtain ⟨folderText, folder⟩ := (validUTF8_iff _).mp folder
  obtain ⟨keyText, key⟩ := (validUTF8_iff _).mp key
  have name : runes session.run.filename = keyText ++ ".log.json".toList := by
    rw [SessionRun.filename, key, lit, ← utf8_append, runes_utf8]
  by_cases short : session.run.eventCount < 10
  · have scan : (session.info world proxy).oldSession.filename =
        (folderText ++ "/".toList ++ (keyText ++ ".log.json".toList)) ++ ".scan".toList := by
      change runes (if session.run.eventCount < 10 then _ else _) = _
      rw [if_pos short, SessionRun.path, logPath, SessionRun.filename, key, folder, lit, lit, lit,
        ← utf8_append, ← utf8_append, ← utf8_append, ← utf8_append, runes_utf8]
    exact ⟨iff_of_true (isScan_append _ _ scan) short, fun long => absurd short (by omega)⟩
  · have log : (session.info world proxy).oldSession.filename = runes session.run.filename := by
      change runes (if session.run.eventCount < 10 then _ else _) = _
      rw [if_neg short]
    have plain := isScan_log _ _ (log.trans name)
    exact ⟨iff_of_false (Bool.eq_false_iff.mp plain) short, fun _ =>
      congrArg (fun name => "#replay&".toList ++ name) log⟩

/-- The links to finished sessions that a page gets are to the logs of those that were long enough,
each of which is on disk in full, and each of these sessions has one. -/
theorem finished_sessions_linked (names : world.resolve = id)
    (folder : ValidUTF8 proxy.sessionFolder) {disk : GoMap Bytes Bytes}
    (unlisted : disk.lookup (logPath proxy.sessionFolder (lit ".session_list")) = none)
    {sessions : List EndedSession} (distinct : (sessions.map (·.run.sessKey)).Nodup)
    (keys : ∀ session ∈ sessions, ValidUTF8 session.run.sessKey)
    (unlogged : ∀ session ∈ sessions, disk.lookup (session.run.path proxy.sessionFolder) = none)
    (page : PageLinks) : ∃ after, closeAllListed world proxy disk sessions = .ok after ∧
    (∀ anchor ∈ (page.updateOldSessionList (runes ((after.lookup
        (logPath proxy.sessionFolder (lit ".session_list"))).getD []))).anchors,
      anchor ∈ page.anchors ∨ ∃ session ∈ sessions, 10 ≤ session.run.eventCount ∧
        anchor.href = "#replay&".toList ++ runes session.run.filename ∧
        after.lookup (session.run.path proxy.sessionFolder) = some session.run.written) ∧
    ∀ session ∈ sessions, 10 ≤ session.run.eventCount →
      ∃ anchor ∈ (page.updateOldSessionList (runes ((after.lookup
          (logPath proxy.sessionFolder (lit ".session_list"))).getD []))).anchors,
        ("#replay&".toList ++ runes session.run.filename) <:+: anchor.href := by
  obtain ⟨after, closes, lines, logs, -⟩ :=
    @closeAllListed_disk world proxy names disk sessions distinct
  have list : (after.lookup (logPath proxy.sessionFolder (lit ".session_list"))).getD [] =
      (listLines world proxy sessions).flatMap (· ++ lit "\n") := by
    rw [lines, unlisted]
    rfl
  have gains := PageLinks.gains_foldl PageLinks.gains_addOldSessionToList page
    (((sessions.map (EndedSession.info world proxy)).map SessionInfoExtended.oldSession).filter
      fun session => !session.isScan)
  refine ⟨after, closes, ?_⟩
  rw [list, runes_listLines, updateOldSessionList_listText]
  refine ⟨fun anchor member => ?_, fun session member long => ?_⟩
  · rcases gains.only anchor member with old | new
    · exact .inl old
    · obtain ⟨shown, among, href⟩ := List.mem_map.mp new
      obtain ⟨listed, plain⟩ := List.mem_filter.mp among
      obtain ⟨info, inside, rfl⟩ := List.mem_map.mp listed
      obtain ⟨session, there, rfl⟩ := List.mem_map.mp inside
      obtain ⟨scan, linked⟩ := @oldSession_filename world proxy folder session (keys session there)
      have long : 10 ≤ session.run.eventCount := by
        refine Nat.le_of_not_lt fun short => ?_
        rw [scan.mpr short] at plain
        contradiction
      refine .inr ⟨session, there, long, href.symm.trans (linked long), ?_⟩
      rw [logs session there long, unlogged session there]
      rfl
  · obtain ⟨scan, linked⟩ := @oldSession_filename world proxy folder session (keys session member)
    have plain : (session.info world proxy).oldSession.isScan = false :=
      Bool.eq_false_iff.mpr fun short => absurd (scan.mp short) (Nat.not_lt.mpr long)
    have listed : (session.info world proxy).oldSession ∈
        ((sessions.map (EndedSession.info world proxy)).map SessionInfoExtended.oldSession).filter
          fun session => !session.isScan :=
      List.mem_filter.mpr ⟨List.mem_map_of_mem (List.mem_map_of_mem member), congrArg (!·) plain⟩
    rw [← linked long]
    exact gains.found _ (List.mem_map_of_mem listed)

/-- A client that resizes its window eight times. -/
def resizingVisit : SessionRun :=
  { SessionRun.brief with
    sessKey := lit "10.0.0.1:2222:10.0.0.2:52000"
    connection := .established (lit "10.0.0.2:52000") 0
      (List.replicate 8 (.windowResize 24 80 1, 0)) [] }

/-- After a client that could not be connected, and one that could. -/
def twoVisits : List EndedSession :=
  [⟨SessionRun.brief, { session := {} }⟩, ⟨resizingVisit, { session := {} }⟩]

theorem finished_sessions_linked_visits : ∃ after,
    closeAllListed SessionRun.plain (makeNewProxy none) ∅ twoVisits = .ok after ∧
    ∃ anchor ∈ (PageLinks.updateOldSessionList {} (runes ((after.lookup
        (logPath (makeNewProxy none).sessionFolder (lit ".session_list"))).getD []))).anchors,
      ("#replay&".toList ++ runes resizingVisit.filename) <:+: anchor.href := by
  have keys : ∀ session ∈ twoVisits, ValidUTF8 session.run.sessKey := by
    refine List.forall_mem_cons.mpr ⟨validUTF8_utf8 _, List.forall_mem_cons.mpr
      ⟨validUTF8_utf8 _, List.forall_mem_nil _⟩⟩
  have folder : ValidUTF8 (makeNewProxy none).sessionFolder := validUTF8_utf8 "html/sessions".toList
  obtain ⟨after, closes, -, linked⟩ :=
    @finished_sessions_linked SessionRun.plain (makeNewProxy none) rfl folder ∅
      (Finmap.lookup_empty _) twoVisits (by decide +kernel) keys
      (fun session _ => Finmap.lookup_empty _) {}
  have long : 10 ≤ resizingVisit.eventCount := by decide
  exact ⟨after, closes, linked ⟨resizingVisit, { session := {} }⟩
    (List.mem_cons_of_mem _ (List.mem_singleton_self _)) long⟩

end Finished
end SSHProxyPlus
