import SSHProxyPlus.Session.Records

/-! What sessions that end one after another leave on disk: the list, with one line for each of
them, and their logs. Names are files here. -/
namespace SSHProxyPlus
open Go

/-- A session, and what it knew of its requests when it ended. -/
structure EndedSession where
  run : SessionRun
  requests : RequestSession

/-- The disk after the sessions have ended, the first one first. -/
def closeAllListed (world : Surroundings Bytes) (proxy : ProxyContext) (disk : GoMap Bytes Bytes)
    (sessions : List EndedSession) : Except Panic (GoMap Bytes Bytes) :=
  sessions.foldlM (fun disk session => do
    let ended ← session.run.closeListed world session.requests proxy disk
    return ended.disk) disk

namespace ListedSession
variable {listed : ListedSession Bytes} {world : Surroundings Bytes} {file : Bytes}

theorem appendToLog_elsewhere (other : file ≠ listed.log) (data : Bytes) :
    (listed.appendToLog data).disk.lookup file = listed.disk.lookup file := by
  unfold appendToLog
  split
  · exact Finmap.lookup_insert_of_ne _ other
  · rfl

theorem closeLog_elsewhere (other : file ≠ listed.log) :
    listed.closeLog.disk.lookup file = listed.disk.lookup file :=
  appendToLog_elsewhere other (lit "\n]")

theorem rename_elsewhere {oldFile newFile : Bytes} (old : file ≠ oldFile) (new : file ≠ newFile) :
    (listed.rename oldFile newFile).disk.lookup file = listed.disk.lookup file := by
  unfold rename
  split
  · exact (Finmap.lookup_insert_of_ne _ new).trans (Finmap.lookup_erase_ne old)
  · rfl

/-- Closing a log and renaming it leaves all other files as they are. -/
theorem finalizeLog_elsewhere (names : world.resolve = id)
    (own : listed.log = logPath listed.proxy.sessionFolder listed.state.session.filename)
    (log : file ≠ listed.log) (scan : file ≠ listed.scanFile) :
    (listed.finalizeLog world).disk.lookup file = listed.disk.lookup file := by
  have closed := closeLog_elsewhere log
  by_cases short : listed.state.session.events.length < 10
  · cases renamed : world.renamed with
    | false =>
      rw [finalizeLog_failed short renamed]
      exact closed
    | true =>
      rw [finalizeLog_renamed short renamed, names]
      exact (rename_elsewhere (own ▸ log) scan).trans closed
  · rw [finalizeLog_long short]
    exact closed

end ListedSession

namespace SessionRun
variable (run : SessionRun) (world : Surroundings Bytes) (requests : RequestSession)
  (proxy : ProxyContext) (disk : GoMap Bytes Bytes)

/-- The session once its log has been closed. -/
def finishedState : RequestSession :=
  { requests with
    session := { run.session with
      active := false
      stopTime := run.ended
      events := run.logged
      filename :=
        if run.eventCount < 10 then run.path proxy.sessionFolder ++ lit ".scan"
        else run.filename } }

/-- What the list says of the session. -/
def listedInfo : SessionInfoExtended :=
  ListedSession.info
    ⟨run.finishedState requests proxy, proxy, (∅ : GoMap Bytes Bytes), [], false⟩ world

def listLine : Bytes := SessionInfoExtended.codec.marshal (run.listedInfo world requests proxy)

/-- The whole of a session's end, as steps on the disk. -/
theorem closeListed_eq : ∃ text, text ++ lit "\n]" =
      (disk.lookup (world.resolve (run.path proxy.sessionFolder))).getD [] ++ run.written ∧
    run.closeListed world requests proxy disk =
      .ok (((run.listedAt world requests proxy disk
        { run.session with active := false, stopTime := run.ended, events := run.logged }
          text).finalizeLog world).addSessionToSessionList world) := by
  have log : run.logged = run.beforeEnd.map run.stamped ++
      [run.stamped (run.stopEvent, run.ended)] := by
    rw [logged, List.map_append]
    rfl
  let opened := (disk.lookup (world.resolve (run.path proxy.sessionFolder))).getD [] ++ lit "[\n"
  let before := opened ++ ((run.beforeEnd.map run.stamped).map LoggedSession.logEntry).flatten
  have recorded : (run.listedAt world requests proxy disk run.session opened).handleEvents
      run.beforeEnd = .ok (run.listedAt world requests proxy disk
        { run.session with events := run.beforeEnd.map run.stamped } before) :=
    run.handleEvents_listed world requests proxy disk run.beforeEnd [] opened
  refine ⟨before ++ LoggedSession.logEntry (run.stamped (run.stopEvent, run.ended)), ?_, ?_⟩
  · rw [written, log]
    simp only [before, opened, List.map_append, List.map_cons, List.map_nil, List.flatten_append,
      List.flatten_cons, List.flatten_nil, List.append_nil, List.append_assoc]
  · have unfolded : run.closeListed world requests proxy disk =
        ((ListedSession.initializeLog world { requests with session := run.session } proxy
          disk).handleEvents run.beforeEnd >>= fun recorded =>
            recorded.endSession world run.ended) := rfl
    rw [unfolded, initializeLog_listed, recorded]
    refine (run.endSession_listed world requests proxy disk _ _).trans ?_
    rw [← log]

variable {run world requests proxy disk}

/-- The end of a session adds a line to the list, and its log; all other files stay. -/
theorem closeListed_disk (names : world.resolve = id) : ∃ ended : ListedSession Bytes,
    run.closeListed world requests proxy disk = .ok ended ∧
    ended.disk.lookup (logPath proxy.sessionFolder (lit ".session_list")) =
      some ((disk.lookup (logPath proxy.sessionFolder (lit ".session_list"))).getD [] ++
        (run.listLine world requests proxy ++ lit "\n")) ∧
    (10 ≤ run.eventCount → ended.disk.lookup (run.path proxy.sessionFolder) =
      some ((disk.lookup (run.path proxy.sessionFolder)).getD [] ++ run.written)) ∧
    ∀ file, file ≠ logPath proxy.sessionFolder (lit ".session_list") →
      file ≠ run.path proxy.sessionFolder → file ≠ run.path proxy.sessionFolder ++ lit ".scan" →
      ended.disk.lookup file = disk.lookup file := by
  obtain ⟨text, whole, closes⟩ := run.closeListed_eq world requests proxy disk
  have done := run.finalizeLog_finished world requests proxy disk whole
  let closing := run.listedAt world requests proxy disk
    { run.session with active := false, stopTime := run.ended, events := run.logged } text
  have log : closing.log = run.path proxy.sessionFolder := by
    change world.resolve _ = _
    rw [names]
    rfl
  have path : world.resolve (logPath proxy.sessionFolder (lit ".session_list")) =
      logPath proxy.sessionFolder (lit ".session_list") := by
    rw [names]
    rfl
  have stays (file : Bytes) (plain : file ≠ run.path proxy.sessionFolder)
      (scanned : file ≠ run.path proxy.sessionFolder ++ lit ".scan") :
      (closing.finalizeLog world).disk.lookup file = disk.lookup file := by
    have elsewhere := closing.finalizeLog_elsewhere names log (log ▸ plain) scanned
    refine elsewhere.trans ?_
    change (disk.insert (world.resolve (run.path proxy.sessionFolder)) text).lookup file = _
    rw [names]
    exact Finmap.lookup_insert_of_ne _ plain
  obtain ⟨plain, scanned⟩ := run.sessionListPath_apart proxy.sessionFolder
  have list : (closing.finalizeLog world).sessionListPath =
      logPath proxy.sessionFolder (lit ".session_list") :=
    congrArg (fun proxy : ProxyContext => logPath proxy.sessionFolder (lit ".session_list"))
      done.settings
  have line : (closing.finalizeLog world).infoAsJSON world = run.listLine world requests proxy := by
    rw [ListedSession.infoAsJSON, listLine, listedInfo, ListedSession.info, ListedSession.info,
      done.state, done.settings]
    rfl
  refine ⟨_, closes, ?_, fun long => ?_, fun file apart own scan => ?_⟩
  · change (Finmap.insert (world.resolve (closing.finalizeLog world).sessionListPath) _
      (closing.finalizeLog world).disk).lookup _ = _
    rw [list, path, line, Finmap.lookup_insert, stays _ plain scanned]
  · change (Finmap.insert (world.resolve (closing.finalizeLog world).sessionListPath) _
      (closing.finalizeLog world).disk).lookup _ = _
    have kept : (closing.finalizeLog world).log = run.path proxy.sessionFolder := by
      refine done.log.trans ?_
      rw [if_neg (fun both => absurd both.1 (Nat.not_lt.mpr long)), names]
      rfl
    have content := done.content
    rw [kept, names] at content
    rw [list, path, Finmap.lookup_insert_of_ne _ plain.symm]
    exact content
  · change (Finmap.insert (world.resolve (closing.finalizeLog world).sessionListPath) _
      (closing.finalizeLog world).disk).lookup _ = _
    rw [list, path, Finmap.lookup_insert_of_ne _ apart]
    exact stays file own scan

theorem path_injective {other : SessionRun} {sessionFolder : Bytes}
    (same : run.path sessionFolder = other.path sessionFolder) : run.sessKey = other.sessKey := by
  unfold path logPath filename at same
  exact List.append_cancel_right (List.append_cancel_left same)

/-- No log has the name that another one is renamed to. -/
theorem path_ne_scan (other : SessionRun) (sessionFolder : Bytes) :
    run.path sessionFolder ≠ other.path sessionFolder ++ lit ".scan" := by
  intro same
  have last := congrArg (fun bytes : Bytes => bytes.reverse.take 2) same
  simp only [logPath, path, filename, List.reverse_append] at last
  exact absurd last (of_decide_eq_false rfl)

end SessionRun

section
variable {world : Surroundings Bytes} {proxy : ProxyContext}

/-- The lines of the list. -/
def listLines (world : Surroundings Bytes) (proxy : ProxyContext) (sessions : List EndedSession) :
    List Bytes :=
  sessions.map fun session => session.run.listLine world session.requests proxy

/-- Files that belong to none of the sessions stay; the list has one line more for each of them,
and each long log is there in full. -/
theorem closeAllListed_disk (names : world.resolve = id) (disk : GoMap Bytes Bytes)
    {sessions : List EndedSession} (distinct : (sessions.map (·.run.sessKey)).Nodup) :
    ∃ after, closeAllListed world proxy disk sessions = .ok after ∧
    (after.lookup (logPath proxy.sessionFolder (lit ".session_list"))).getD [] =
      (disk.lookup (logPath proxy.sessionFolder (lit ".session_list"))).getD [] ++
        (listLines world proxy sessions).flatMap (· ++ lit "\n") ∧
    (∀ session ∈ sessions, 10 ≤ session.run.eventCount →
      after.lookup (session.run.path proxy.sessionFolder) =
        some ((disk.lookup (session.run.path proxy.sessionFolder)).getD [] ++
          session.run.written)) ∧
    ∀ run : SessionRun, (∀ session ∈ sessions, run.sessKey ≠ session.run.sessKey) →
      after.lookup (run.path proxy.sessionFolder) =
        disk.lookup (run.path proxy.sessionFolder) := by
  induction sessions generalizing disk with
  | nil => exact ⟨disk, rfl, by simp [listLines], by simp, fun run _ => rfl⟩
  | cons session sessions ih =>
    obtain ⟨apart, others⟩ := List.nodup_cons.mp distinct
    obtain ⟨ended, closes, list, log, stays⟩ :=
      @SessionRun.closeListed_disk session.run world session.requests proxy disk names
    obtain ⟨after, rest, lines, logs, elsewhere⟩ := ih ended.disk others
    have kept (run : SessionRun) (other : run.sessKey ≠ session.run.sessKey) :
        ended.disk.lookup (run.path proxy.sessionFolder) =
          disk.lookup (run.path proxy.sessionFolder) :=
      stays _ (run.sessionListPath_apart proxy.sessionFolder).1.symm
        (fun same => other (SessionRun.path_injective same)) (run.path_ne_scan _ _)
    have missing : ∀ later ∈ sessions, session.run.sessKey ≠ later.run.sessKey :=
      fun later member same => apart (List.mem_map.mpr ⟨later, member, same.symm⟩)
    refine ⟨after, ?_, ?_, ?_, fun run other => ?_⟩
    · rw [closeAllListed, List.foldlM_cons, closes]
      exact rest
    · rw [lines, list, Option.getD_some]
      simp only [listLines, List.map_cons, List.flatMap_cons, List.append_assoc]
    · refine List.forall_mem_cons.mpr ⟨fun long => ?_, fun later member long => ?_⟩
      · rw [elsewhere session.run missing, log long]
      · rw [logs later member long, kept later.run (missing later member).symm]
    · obtain ⟨first, later⟩ := List.forall_mem_cons.mp other
      rw [elsewhere run later, kept run first]

end
end SSHProxyPlus
