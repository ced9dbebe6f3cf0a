import SSHProxyPlus.Session.Recording

/-! When the log of a finished session is well formed: what a run writes, what earlier
sessions left in the same file, and what the file decodes to. -/
namespace SSHProxyPlus
open Go

theorem logText_opens (first : SessionEvent) (events : List SessionEvent) :
    ∃ rest, logText (first :: events) = lit "[\n" ++ (lit "\x7b" ++ rest) := by
  obtain ⟨tail, shape⟩ := structCodec_marshal_opens {} SessionEvent.fields first
  change SessionEvent.codec.marshal first = _ at shape
  cases events with
  | nil =>
    refine ⟨tail ++ lit "\n]", ?_⟩
    simp only [logText, List.map_cons, List.map_nil, List.intercalate_singleton, shape,
      List.append_assoc]
  | cons second events =>
    refine ⟨tail ++ (lit ",\n" ++ ((lit ",\n").intercalate
      ((second :: events).map SessionEvent.codec.marshal) ++ lit "\n]")), ?_⟩
    rw [logText, List.map_cons, List.map_cons, List.intercalate_cons_cons, shape, ← List.map_cons]
    simp only [List.append_assoc]

/-- Logs of different lengths differ. -/
theorem logText_length {a b : SessionEvent} {as bs : List SessionEvent}
    (same : logText (a :: as) = logText (b :: bs)) : as.length = bs.length := by
  have shown := unmarshal_logText a as
  rw [same, unmarshal_logText] at shown
  have lengths := congrArg List.length (Option.some.inj shown)
  simp only [List.map_cons, List.length_cons, List.length_map] at lengths
  omega

theorem repaired_all_iff (events : List SessionEvent) :
    events.map SessionEvent.repaired = events ↔ ∀ event ∈ events, event.ValidStrings := by
  have pointwise := List.map_inj_left (f := SessionEvent.repaired) (g := id) (l := events)
  rw [List.map_id] at pointwise
  simpa only [id, SessionEvent.repaired_eq_iff] using pointwise

namespace SessionRun
variable (run : SessionRun)

theorem established_or_silent :
    (∃ remoteAddr start activities late,
      run.connection = .established remoteAddr start activities late) ∨ run.beforeEnd = [] := by
  unfold beforeEnd
  cases run.connection with
  | established remoteAddr start activities late =>
    exact Or.inl ⟨remoteAddr, start, activities, late, rfl⟩
  | dialFails => exact Or.inr rfl
  | handshakeFails => exact Or.inr rfl
  | stopped => exact Or.inr rfl

theorem established_logged {remoteAddr : Bytes} {start : Time}
    {activities late : List (Activity × Time)}
    (established : run.connection = .established remoteAddr start activities late) :
    run.logged = run.stamped (run.startEvent remoteAddr, start) ::
      (recorded activities ++ [(run.stopEvent, run.ended)]).map run.stamped := by
  rw [logged, beforeEnd, established]
  rfl

/-- A session that was connected writes the log of its events. -/
theorem established_written {remoteAddr : Bytes} {start : Time}
    {activities late : List (Activity × Time)}
    (established : run.connection = .established remoteAddr start activities late) :
    run.written = logText run.logged := by
  rw [written, run.established_logged established]
  refine (logText_entries rfl ?_).symm
  intro event member
  obtain ⟨source, recordedMember, rfl⟩ := List.mem_map.mp member
  rcases List.mem_append.mp recordedMember with activity | stop
  · obtain ⟨source, -, rfl⟩ := List.mem_map.mp activity
    exact source.1.event_type
  · cases List.mem_singleton.mp stop
    exact of_decide_eq_true rfl

/-- A session that was not begins its log with a comma. -/
theorem unestablished_written (silent : run.beforeEnd = []) :
    run.logged = [run.stamped (run.stopEvent, run.ended)] ∧
      ∃ rest, run.written = lit "[\n" ++ (lit "," ++ rest) := by
  have log : run.logged = [run.stamped (run.stopEvent, run.ended)] := by
    rw [logged, silent]
    rfl
  have comma : LoggedSession.logEntry (run.stamped (run.stopEvent, run.ended)) =
      lit ",\n" ++ SessionEvent.codec.marshal (run.stamped (run.stopEvent, run.ended)) :=
    logEntry_later (of_decide_eq_true rfl)
  refine ⟨log, lit "\n" ++ (SessionEvent.codec.marshal (run.stamped (run.stopEvent, run.ended)) ++
    lit "\n]"), ?_⟩
  rw [written, log, List.map_singleton, List.flatten_singleton, comma]
  simp only [List.append_assoc]
  rfl

theorem written_opens : ∃ rest, run.written = lit "[" ++ rest :=
  ⟨lit "\n" ++ ((run.logged.map LoggedSession.logEntry).flatten ++ lit "\n]"), by
    rw [written, List.append_assoc]
    rfl⟩

/-- The last of the earlier sessions that used the same file. -/
def previous (earlier : List SessionRun) (sessKey : Bytes) : Option SessionRun :=
  (earlier.filter fun session => session.sessKey == sessKey).getLast?

/-- A file that holds the log of at least one session. -/
def HoldsLog (content : Option Bytes) : Prop :=
  ∃ first events more, content = some (logText (first :: events) ++ more) ∧
    (more = [] ∨ ∃ rest, more = lit "[" ++ rest)

/-- What earlier sessions leave in a file: nothing, or complete logs. -/
def Left (earlier : List SessionRun) (sessKey : Bytes) (content : Option Bytes) : Prop :=
  if ∀ run, previous earlier sessKey = some run → run.eventCount < 10 then content = none
  else HoldsLog content

theorem previous_own (earlier : List SessionRun) :
    previous (earlier ++ [run]) run.sessKey = some run := by
  have kept : [run].filter (fun session => session.sessKey == run.sessKey) = [run] :=
    List.filter_cons_of_pos (beq_self_eq_true run.sessKey)
  rw [previous, List.filter_append, kept, List.getLast?_concat]

theorem previous_other (earlier : List SessionRun) {sessKey : Bytes} (other : sessKey ≠ run.sessKey) :
    previous (earlier ++ [run]) sessKey = previous earlier sessKey := by
  have dropped : [run].filter (fun session => session.sessKey == sessKey) = [] := by
    simpa using other.symm
  rw [previous, List.filter_append, dropped, List.append_nil, previous]

/-- A long session leaves its log behind those that were there. -/
theorem Left.holdsLog {earlier : List SessionRun} {content : Option Bytes}
    (left : Left earlier run.sessKey content) (long : ¬ run.eventCount < 10) :
    HoldsLog (some (content.getD [] ++ run.written)) := by
  obtain ⟨rest, opens⟩ := run.written_opens
  unfold Left at left
  split at left
  · rcases run.established_or_silent with ⟨remoteAddr, start, activities, late, established⟩ | silent
    · rw [left, Option.getD_none, run.established_written established,
        run.established_logged established]
      exact ⟨_, _, [], by rw [List.append_nil]; rfl, Or.inl rfl⟩
    · rw [eventCount, silent] at long
      exact absurd (of_decide_eq_true rfl) long
  · obtain ⟨first, events, more, rfl, shape⟩ := left
    refine ⟨first, events, more ++ run.written, ?_, Or.inr ?_⟩
    · rw [Option.getD_some, List.append_assoc]
    · rcases shape with rfl | ⟨tail, rfl⟩
      · exact ⟨rest, opens⟩
      · exact ⟨tail ++ run.written, List.append_assoc ..⟩

theorem filesAfter_left (sessionFolder : Bytes) (earlier : List SessionRun) :
    ∃ files, filesAfter sessionFolder earlier = .ok files ∧ ∀ sessKey,
      Left earlier sessKey (files.lookup (logPath sessionFolder (sessKey ++ lit ".log.json"))) := by
  induction earlier using List.reverseRecOn with
  | nil =>
    refine ⟨∅, rfl, ?_⟩
    intro sessKey
    rw [Left, if_pos (by intro run found; contradiction)]
    exact Finmap.lookup_empty _
  | append_singleton earlier run ih =>
    obtain ⟨files, before, left⟩ := ih
    obtain ⟨after, handled, ended⟩ := run.handleClientConn_ended sessionFolder files
    refine ⟨after.files, ?_, ?_⟩
    · unfold filesAfter at before ⊢
      rw [List.foldlM_append, before]
      simp only [List.foldlM_cons, List.foldlM_nil, bind, Except.bind, handled]
      rfl
    · intro sessKey
      by_cases own : sessKey = run.sessKey
      · subst own
        have content := ended.own
        have outcome : (∀ last, previous (earlier ++ [run]) run.sessKey = some last →
            last.eventCount < 10) ↔ run.eventCount < 10 := by
          rw [previous_own]
          simp
        unfold Left
        simp only [outcome]
        change if run.eventCount < 10 then after.files.lookup (run.path sessionFolder) = none
          else HoldsLog (after.files.lookup (run.path sessionFolder))
        rw [content]
        split
        · rfl
        · rename_i long
          exact Left.holdsLog run (left run.sessKey) long
      · unfold Left
        rw [previous_other run earlier own, ended.others sessKey own]
        exact left sessKey

/-- Behind an older log nothing can be read. -/
theorem Left.readable {earlier : List SessionRun} {content : Option Bytes}
    (left : Left earlier run.sessKey content) {events : List SessionEvent}
    (read : (sliceCodec SessionEvent.codec).unmarshal (content.getD [] ++ run.written) [] =
      some events) :
    (∀ last, previous earlier run.sessKey = some last → last.eventCount < 10) ∧
      content = none := by
  unfold Left at left
  split at left
  · rename_i fresh
    exact ⟨fresh, left⟩
  · obtain ⟨first, older, more, rfl, shape⟩ := left
    have again : ∃ rest, more ++ run.written = lit "[" ++ rest := by
      rcases shape with rfl | ⟨tail, rfl⟩
      · exact run.written_opens
      · exact ⟨tail ++ run.written, List.append_assoc ..⟩
    obtain ⟨rest, shape⟩ := again
    rw [Option.getD_some, List.append_assoc, shape, unmarshal_logText_again] at read
    contradiction

/-- The strings of an established session that its log shows. -/
def ValidStrings (remoteAddr : Bytes) (activities : List (Activity × Time)) : Prop :=
  (ValidUTF8 run.sessKey ∧ ValidUTF8 run.user.remoteHost ∧ ValidUTF8 remoteAddr ∧
    ValidUTF8 run.username ∧ ValidUTF8 run.password) ∧
  ∀ activity ∈ activities, activity.1.ValidStrings

theorem activity_validStrings (activity : Activity) :
    activity.event.ValidStrings ↔ activity.ValidStrings := by
  have text (s : String) : ValidUTF8 (lit s) := validUTF8_utf8 s.toList
  have none : ValidUTF8 [] := validUTF8_utf8 []
  cases activity with
  | newChannel channelType channelData channelID =>
    constructor
    · rintro ⟨_, _, _, _, _, _, _, valid, _⟩
      exact valid
    · intro valid
      exact ⟨text _, none, none, none, none, none, none, valid, none⟩
  | newRequest requestType requestPayload requestID channelID =>
    constructor
    · rintro ⟨_, _, _, _, _, _, _, _, valid⟩
      exact valid
    · intro valid
      exact ⟨text _, none, none, none, none, none, none, none, valid⟩
  | windowResize termRows termCols requestID =>
    exact iff_of_true ⟨text _, none, none, none, none, none, none, none, none⟩ trivial
  | message incoming stderr bytesRead data channelID =>
    refine iff_of_true ⟨text _, none, ?_, none, none, none, none, ?_, none⟩ trivial
    · cases incoming <;> exact text _
    · cases stderr <;> exact text _

theorem logged_validStrings {remoteAddr : Bytes} {start : Time}
    {activities late : List (Activity × Time)}
    (established : run.connection = .established remoteAddr start activities late) :
    (∀ event ∈ run.logged, event.ValidStrings) ↔ run.ValidStrings remoteAddr activities := by
  have text (s : String) : ValidUTF8 (lit s) := validUTF8_utf8 s.toList
  have none : ValidUTF8 [] := validUTF8_utf8 []
  rw [run.established_logged established, List.forall_mem_cons, List.map_append,
    List.forall_mem_append, List.map_singleton, List.forall_mem_singleton, List.forall_mem_map,
    recorded, List.forall_mem_map]
  constructor
  · rintro ⟨⟨_, key, _, clientHost, servHost, username, password, _, _⟩, valid, _⟩
    refine ⟨⟨key, servHost, clientHost, username, password⟩, ?_⟩
    intro activity member
    exact (activity_validStrings activity.1).mp (valid activity member)
  · rintro ⟨⟨key, servHost, clientHost, username, password⟩, valid⟩
    refine ⟨⟨text _, key, none, clientHost, servHost, username, password, none, none⟩, ?_,
      ⟨text _, none, none, none, none, none, none, none, none⟩⟩
    intro activity member
    exact (activity_validStrings activity.1).mpr (valid activity member)

/-- The log of the session, which runs after `earlier` ones in the same folder, is well
formed: what it appends, and the file as a whole. -/
def LogWellFormed (sessionFolder : Bytes) (earlier : List SessionRun) : Prop :=
  ∃ files finished, filesAfter sessionFolder earlier = .ok files ∧
    run.handleClientConn sessionFolder files = .ok finished ∧
    ∃ content, finished.files.lookup finished.path = some content ∧
      content = (files.lookup (run.path sessionFolder)).getD [] ++ logText finished.session.events ∧
      (sliceCodec SessionEvent.codec).unmarshal content [] = some finished.session.events

/-- Wellformedness, in terms of what the session writes. -/
theorem logWellFormed_unfold {sessionFolder : Bytes} {earlier : List SessionRun} {files : Files}
    (before : filesAfter sessionFolder earlier = .ok files) :
    run.LogWellFormed sessionFolder earlier ↔
      run.written = logText (run.logged ++ run.afterEnd.map run.stamped) ∧
      (sliceCodec SessionEvent.codec).unmarshal
        ((files.lookup (run.path sessionFolder)).getD [] ++ run.written) [] =
          some (run.logged ++ run.afterEnd.map run.stamped) := by
  obtain ⟨after, handled, ended⟩ := run.handleClientConn_ended sessionFolder files
  rw [← ended.events]
  constructor
  · rintro ⟨files', finished, before', handled', content, found, shape, decoded⟩
    cases before.symm.trans before'
    cases handled.symm.trans handled'
    cases ended.log.symm.trans found
    exact ⟨List.append_cancel_left shape, decoded⟩
  · rintro ⟨shape, decoded⟩
    exact ⟨files, after, before, handled, _, ended.log, congrArg _ shape, decoded⟩

/-- Without a start event the log begins with a comma where it should with a brace. -/
theorem silent_malformed (silent : run.beforeEnd = []) (sessionFolder : Bytes)
    (earlier : List SessionRun) : ¬ run.LogWellFormed sessionFolder earlier := by
  obtain ⟨files, before, -⟩ := filesAfter_left sessionFolder earlier
  rw [run.logWellFormed_unfold before]
  rintro ⟨wrote, -⟩
  obtain ⟨log, rest, comma⟩ := run.unestablished_written silent
  obtain ⟨tail, brace⟩ := logText_opens (run.stamped (run.stopEvent, run.ended))
    (run.afterEnd.map run.stamped)
  rw [log, List.singleton_append, brace, comma] at wrote
  cases List.append_cancel_left wrote

/-- An established session writes a log of all its events only if none comes after its end. -/
theorem established_onTime {remoteAddr : Bytes} {start : Time}
    {activities late : List (Activity × Time)}
    (established : run.connection = .established remoteAddr start activities late)
    (wrote : run.written = logText (run.logged ++ run.afterEnd.map run.stamped)) : late = [] := by
  rw [run.established_written established, run.established_logged established,
    List.cons_append] at wrote
  have lengths := logText_length wrote
  rw [afterEnd, established, List.length_append] at lengths
  simp only [recorded, List.length_map] at lengths
  exact List.eq_nil_of_length_eq_zero (by omega)

/-- The log of a session is well formed exactly if the session was connected before it
ended, nothing was handled after its end, its strings are text, and the last session
that used the same file was short enough for its log to be moved away. -/
theorem logWellFormed_iff (sessionFolder : Bytes) (earlier : List SessionRun) :
    run.LogWellFormed sessionFolder earlier ↔
      (∃ remoteAddr start activities,
        run.connection = .established remoteAddr start activities [] ∧
        run.ValidStrings remoteAddr activities) ∧
      ∀ last, previous earlier run.sessKey = some last → last.eventCount < 10 := by
  obtain ⟨files, before, leftovers⟩ := filesAfter_left sessionFolder earlier
  have left : Left earlier run.sessKey (files.lookup (run.path sessionFolder)) :=
    leftovers run.sessKey
  have nothingLate {remoteAddr start activities}
      (established : run.connection = .established remoteAddr start activities []) :
      run.afterEnd = [] := by
    rw [afterEnd, established]
    rfl
  constructor
  · intro wellFormed
    rcases run.established_or_silent with ⟨remoteAddr, start, activities, late, established⟩ | silent
    · obtain ⟨wrote, decoded⟩ := (run.logWellFormed_unfold before).mp wellFormed
      obtain rfl := run.established_onTime established wrote
      rw [nothingLate established, List.map_nil, List.append_nil] at decoded
      obtain ⟨fresh, empty⟩ := left.readable run decoded
      rw [empty, Option.getD_none, List.nil_append, run.established_written established,
        run.established_logged established, unmarshal_logText,
        ← run.established_logged established] at decoded
      refine ⟨⟨remoteAddr, start, activities, established, ?_⟩, fresh⟩
      exact (run.logged_validStrings established).mp
        ((repaired_all_iff run.logged).mp (Option.some.inj decoded))
    · exact absurd wellFormed (run.silent_malformed silent sessionFolder earlier)
  · rintro ⟨⟨remoteAddr, start, activities, established, valid⟩, fresh⟩
    have empty : files.lookup (run.path sessionFolder) = none := (if_pos fresh).mp left
    have read := unmarshal_logText (run.stamped (run.startEvent remoteAddr, start))
      ((recorded activities ++ [(run.stopEvent, run.ended)]).map run.stamped)
    rw [← run.established_logged established, (repaired_all_iff run.logged).mpr
      ((run.logged_validStrings established).mpr valid)] at read
    rw [run.logWellFormed_unfold before, nothingLate established, List.map_nil, List.append_nil,
      empty, Option.getD_none, List.nil_append, run.established_written established]
    exact ⟨rfl, read⟩

/-- A session whose remote host does not answer. -/
theorem dialFails_malformed :
    ¬ ({ sessKey := lit "127.0.0.1:2222:127.0.0.1:50000", clientHost := lit "127.0.0.1:50000"
         username := lit "ubuntu", password := lit "secret", user := { username := lit "ubuntu" }
         login := 0, connection := .dialFails, ended := 3 } : SessionRun).LogWellFormed
      (lit "logs") [] :=
  silent_malformed _ rfl _ _

end SessionRun
end SSHProxyPlus
