import SSHProxyPlus.Session.SessionList

/-! The two records of a session: its entry in the list of sessions, and the events at the start
and at the end of its log. -/
namespace SSHProxyPlus
open Go

/-- An entry and the events of a session give the same of what is in both. -/
structure SessionInfoExtended.AgreesWith (shown : SessionInfoExtended)
    (start stop : SessionEvent) : Prop where
  startTime : shown.startTime = start.startTime
  stopTime : shown.stopTime = stop.stopTime
  clientHost : shown.clientHost = start.clientHost
  servHost : shown.servHost = start.servHost
  username : shown.username = start.username
  password : shown.password = start.password

/-- The first event and the last are of the start and of the stop; the entry agrees with them, and
they with the time at which the session was stopped. -/
def Confirms (events : List SessionEvent) (shown : SessionInfoExtended) (stopTime : Time) : Prop :=
  ∃ start stop, events.head? = some start ∧ events.getLast? = some stop ∧
    start.type = eventSessionStart ∧ stop.type = eventSessionStop ∧
    shown.AgreesWith start stop ∧ stop.stopTime = unixSeconds stopTime

theorem confirms_iff {events : List SessionEvent} {start stop : SessionEvent}
    {shown : SessionInfoExtended} {stopTime : Time} (first : events.head? = some start)
    (last : events.getLast? = some stop) (starts : start.type = eventSessionStart)
    (stops : stop.type = eventSessionStop) : Confirms events shown stopTime ↔
      shown.AgreesWith start stop ∧ stop.stopTime = unixSeconds stopTime := by
  constructor
  · rintro ⟨start', stop', first', last', -, -, agrees⟩
    obtain rfl := Option.some.inj (first.symm.trans first')
    obtain rfl := Option.some.inj (last.symm.trans last')
    exact agrees
  · intro agrees
    exact ⟨start, stop, first, last, starts, stops, agrees⟩

namespace SessionRun
variable (run : SessionRun)

/-- The user's remote host is the proxy's default, the session ends in the second in which it
began, and JSON can write what the client chose. -/
structure Consistent (proxy : ProxyContext) : Prop where
  servHost : utf8 (runes proxy.getDefaultRemoteHost) = run.user.remoteHost
  stopTime : unixSeconds run.ended = unixSeconds run.login
  clientHost : ValidUTF8 run.clientHost
  username : ValidUTF8 run.username
  password : ValidUTF8 run.password

/-- What the entry of the session shows. -/
structure Shows (proxy : ProxyContext) (shown : SessionInfoExtended) : Prop where
  startTime : shown.startTime = unixSeconds run.login
  stopTime : shown.stopTime = unixSeconds run.ended
  clientHost : shown.clientHost = utf8 (runes run.clientHost)
  servHost : shown.servHost = utf8 (runes proxy.getDefaultRemoteHost)
  username : shown.username = utf8 (runes run.username)
  password : shown.password = utf8 (runes run.password)

variable {run} {proxy : ProxyContext} {shown : SessionInfoExtended} {start : Time}

/-- The entry agrees with the events as they are in memory. -/
theorem Shows.agrees_iff (shows' : run.Shows proxy shown) :
    (shown.AgreesWith (run.stamped (run.startEvent run.clientHost, start))
      (run.stamped (run.stopEvent, run.ended)) ∧
      (run.stamped (run.stopEvent, run.ended)).stopTime = unixSeconds run.ended) ↔
    run.Consistent proxy := by
  constructor
  · rintro ⟨agrees, -⟩
    constructor
    · exact shows'.servHost.symm.trans agrees.servHost
    · exact shows'.stopTime.symm.trans agrees.stopTime
    · exact shows'.clientHost.symm.trans agrees.clientHost
    · exact shows'.username.symm.trans agrees.username
    · exact shows'.password.symm.trans agrees.password
  · intro consistent
    refine ⟨⟨shows'.startTime, ?_, ?_, ?_, ?_, ?_⟩, consistent.stopTime.symm⟩
    · exact shows'.stopTime.trans consistent.stopTime
    · exact shows'.clientHost.trans consistent.clientHost
    · exact shows'.servHost.trans consistent.servHost
    · exact shows'.username.trans consistent.username
    · exact shows'.password.trans consistent.password

/-- Then it also agrees with the events as the log shows them. -/
theorem Shows.agrees_logged (shows' : run.Shows proxy shown) (consistent : run.Consistent proxy) :
    shown.AgreesWith (run.stamped (run.startEvent run.clientHost, start)).repaired
      (run.stamped (run.stopEvent, run.ended)).repaired ∧
      (run.stamped (run.stopEvent, run.ended)).repaired.stopTime = unixSeconds run.ended := by
  have servHost : shown.servHost = utf8 (runes run.user.remoteHost) := by
    rw [← consistent.servHost, runes_utf8]
    exact shows'.servHost
  exact ⟨⟨shows'.startTime, shows'.stopTime.trans consistent.stopTime, shows'.clientHost, servHost,
    shows'.username, shows'.password⟩, consistent.stopTime.symm⟩

variable (world : Surroundings Bytes) {requests : RequestSession} {disk : GoMap Bytes Bytes}
  {finished : ListedSession Bytes}

theorem Finished.shows (done : run.Finished world requests proxy disk finished) :
    run.Shows proxy (finished.info world).repaired := by
  have session := congrArg RequestSession.session done.state
  unfold ListedSession.info SessionInfoExtended.repaired
  constructor
  · simp only [session]
    rfl
  · simp only [session]
  · simp only [session]
    rfl
  · simp only [done.settings]
  · simp only [session]
    rfl
  · simp only [session]
    rfl

/-- The log is not the list. -/
theorem sessionListPath_apart (sessionFolder : Bytes) :
    logPath sessionFolder (lit ".session_list") ≠ run.path sessionFolder ∧
      logPath sessionFolder (lit ".session_list") ≠ run.path sessionFolder ++ lit ".scan" := by
  constructor
  · intro same
    have last := congrArg (fun bytes : Bytes => bytes.reverse.take 1) same
    simp only [logPath, path, filename, List.reverse_append] at last
    exact absurd last (of_decide_eq_false rfl)
  · intro same
    have last := congrArg (fun bytes : Bytes => bytes.reverse.take 1) same
    simp only [logPath, path, filename, List.reverse_append] at last
    exact absurd last (of_decide_eq_false rfl)

theorem Finished.log_apart (done : run.Finished world requests proxy disk finished)
    (names : world.resolve = id) : finished.log ≠ finished.sessionListPath := by
  obtain ⟨plain, scanned⟩ := run.sessionListPath_apart proxy.sessionFolder
  rw [done.log, ListedSession.sessionListPath, done.settings, names]
  split
  · exact scanned.symm
  · exact plain.symm

variable {activities late : List (Activity × Time)}

/-- The ends of the list of events. -/
theorem logged_ends
    (established : run.connection = .established run.clientHost start activities late) :
    run.logged.head? = some (run.stamped (run.startEvent run.clientHost, start)) ∧
      run.logged.getLast? = some (run.stamped (run.stopEvent, run.ended)) := by
  have shape := run.established_logged established
  constructor
  · rw [shape]
    rfl
  · rw [shape, List.map_append, List.map_singleton, ← List.cons_append, List.getLast?_concat]

theorem confirms_events (established : run.connection =
      .established run.clientHost start activities late) (shows' : run.Shows proxy shown) :
    Confirms run.logged shown run.ended ↔ run.Consistent proxy := by
  obtain ⟨first, last⟩ := logged_ends established
  exact (confirms_iff first last rfl rfl).trans shows'.agrees_iff

theorem confirms_logged (established : run.connection =
      .established run.clientHost start activities late) (shows' : run.Shows proxy shown)
    (consistent : run.Consistent proxy) :
    Confirms (run.logged.map SessionEvent.repaired) shown run.ended := by
  obtain ⟨first, last⟩ := logged_ends established
  have first' : (run.logged.map SessionEvent.repaired).head? =
      some (run.stamped (run.startEvent run.clientHost, start)).repaired := by
    rw [List.head?_map, first]
    rfl
  have last' : (run.logged.map SessionEvent.repaired).getLast? =
      some (run.stamped (run.stopEvent, run.ended)).repaired := by
    rw [List.getLast?_map, last]
    rfl
  have starts : utf8 (runes eventSessionStart) = eventSessionStart := by decide
  have stops : utf8 (runes eventSessionStop) = eventSessionStop := by decide
  exact (confirms_iff first' last' starts stops).mpr (shows'.agrees_logged consistent)

/-- The entry and both forms of the events agree exactly for some users and some sessions. -/
theorem records_agree_iff
    (established : run.connection = .established run.clientHost start activities late)
    (renamed : Bool) (seconds : Int → Int64) (requests : RequestSession) (proxy : ProxyContext)
    (disk : GoMap Bytes Bytes) :
    ∃ (ended : ListedSession Bytes) (earlier before : Bytes) (shown : SessionInfoExtended)
      (logged : List SessionEvent),
      run.closeListed ⟨id, renamed, seconds⟩ requests proxy disk = .ok ended ∧
      ended.disk.lookup ended.sessionListPath =
        some (earlier ++ (ended.infoAsJSON ⟨id, renamed, seconds⟩ ++ lit "\n")) ∧
      SessionInfoExtended.codec.unmarshal (ended.infoAsJSON ⟨id, renamed, seconds⟩) {} =
        some shown ∧
      ended.disk.lookup ended.log = some (before ++ run.written) ∧
      (sliceCodec SessionEvent.codec).unmarshal run.written [] = some logged ∧
      (Confirms ended.state.session.events shown ended.state.session.stopTime ∧
        Confirms logged shown ended.state.session.stopTime ↔ run.Consistent proxy) := by
  let world : Surroundings Bytes := ⟨id, renamed, seconds⟩
  obtain ⟨finished, closes, done⟩ := run.closeListed_finished world requests proxy disk
  let list := finished.sessionListPath
  let earlier := (finished.disk.lookup list).getD []
  let before := (disk.lookup (run.path proxy.sessionFolder)).getD []
  have shape := run.established_logged established
  have events : finished.state.session.events = run.logged :=
    congrArg (fun state => state.session.events) done.state
  have stopTime : finished.state.session.stopTime = run.ended :=
    congrArg (fun state => state.session.stopTime) done.state
  refine ⟨_, earlier, before, (finished.info world).repaired, run.logged.map SessionEvent.repaired,
    closes, Finmap.lookup_insert _, ?_, ?_, ?_, ?_⟩
  · exact (Codec.unmarshal_render _ _ _ _).trans (SessionInfoExtended.codec_readsAs _)
  · exact (Finmap.lookup_insert_of_ne _ (done.log_apart world rfl)).trans done.content
  · rw [run.established_written established, shape]
    exact unmarshal_logText _ _
  · change (Confirms finished.state.session.events _ finished.state.session.stopTime ∧
      Confirms _ _ finished.state.session.stopTime) ↔ _
    rw [events, stopTime, confirms_events established done.shows]
    constructor
    · exact And.left
    · intro consistent
      exact ⟨consistent, confirms_logged established done.shows consistent⟩

/-- A client that logs in as a user of the proxy's own host, and leaves at once. -/
def visit : SessionRun where
  sessKey := lit "10.0.0.1:2222:10.0.0.2:51000"
  clientHost := lit "10.0.0.2:51000"
  username := lit "guest"
  password := lit "secret"
  user := { remoteHost := lit "127.0.0.1:22" }
  login := 0
  connection := .established (lit "10.0.0.2:51000") 0 [] []
  ended := 10 ^ 8

theorem visit_records_agree : ∃ (ended : ListedSession Bytes) (shown : SessionInfoExtended),
    visit.closeListed ⟨id, true, fun _ => 0⟩ { session := {} } (makeNewProxy none) ∅ = .ok ended ∧
    Confirms ended.state.session.events shown ended.state.session.stopTime := by
  obtain ⟨ended, -, -, shown, logged, closes, -, -, -, -, agree⟩ :=
    visit.records_agree_iff rfl true (fun _ => 0) { session := {} } (makeNewProxy none) ∅
  exact ⟨ended, shown, closes, (agree.mpr ⟨by decide, by decide, by decide, by decide, by decide⟩).1⟩

/-- A client of a user with another host. -/
def elsewhere : SessionRun := { visit with user := { remoteHost := lit "10.0.0.3:22" } }

theorem elsewhere_records_differ : ¬∀ (run : SessionRun) (start : Time)
    (activities late : List (Activity × Time)),
    run.connection = .established run.clientHost start activities late →
    ∀ ended, run.closeListed ⟨id, true, fun _ => 0⟩ { session := {} } (makeNewProxy none) ∅ =
      .ok ended →
    ∀ shown, SessionInfoExtended.codec.unmarshal (ended.infoAsJSON ⟨id, true, fun _ => 0⟩) {} =
      some shown →
    Confirms ended.state.session.events shown ended.state.session.stopTime := by
  intro claim
  obtain ⟨finished, closes, done⟩ := elsewhere.closeListed_finished ⟨id, true, fun _ => 0⟩
    { session := {} } (makeNewProxy none) (∅ : GoMap Bytes Bytes)
  have read : SessionInfoExtended.codec.unmarshal (finished.infoAsJSON ⟨id, true, fun _ => 0⟩) {} =
      some (finished.info ⟨id, true, fun _ => 0⟩).repaired :=
    (Codec.unmarshal_render _ _ _ _).trans (SessionInfoExtended.codec_readsAs _)
  have events : finished.state.session.events = elsewhere.logged :=
    congrArg (fun state => state.session.events) done.state
  have stopTime : finished.state.session.stopTime = elsewhere.ended :=
    congrArg (fun state => state.session.stopTime) done.state
  have confirmed : Confirms finished.state.session.events
      (finished.info ⟨id, true, fun _ => 0⟩).repaired finished.state.session.stopTime :=
    claim elsewhere 0 [] [] rfl _ closes _ read
  rw [events, stopTime, confirms_events rfl (done.shows _)] at confirmed
  exact absurd confirmed.servHost (by decide)

end SessionRun
end SSHProxyPlus
