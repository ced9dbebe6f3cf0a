import SSHProxyPlus.Page.LeftAlone
import SSHProxyPlus.Replay.LogFile

/-! A session that is watched over a socket, and one that is replayed from its log. -/
namespace SSHProxyPlus
open Go Browser

namespace SessionRun
open SessionEvent (output keystrokesOf)
variable (run : SessionRun)

/-- A page in which a session has been watched to its end, live or once it had ended, with nobody at
the control bar, shows what a page shows that has replayed its log: the same text in the terminal
and the same keystrokes. -/
theorem viewed_alike {remoteAddr : Bytes} {start : Time} {activities : List (Activity × Time)}
    (established : run.connection = .established remoteAddr start activities [])
    (sessionFolder : Bytes) {earlier : List SessionRun}
    (fresh : ∀ last, previous earlier run.sessKey = some last → last.eventCount < 10)
    (readable : AllReadable run.logged) {active : Bool} {watch : Watch}
    (reached : (Watch.unattended active).Reachable watch)
    (recorded' : watch.session.events = run.logged)
    (seen : watch.page.reader.eventIndex = run.logged.length) (reader : TerminalReader) :
    ∃ files finished content data played,
      filesAfter sessionFolder earlier = .ok files ∧
      run.handleClientConn sessionFolder files = .ok finished ∧
      finished.files.lookup finished.path = some content ∧
      logBlobs content = some data ∧ reader.replaySessionEventList data = .ok played ∧
      ∀ count, run.logged.length ≤ count + 1 →
        let after := played.performAll (List.replicate count .processNextEvent)
        after.terminal.flatten = watch.page.reader.terminal.flatten ∧
          after.keystrokes = watch.page.reader.keystrokes := by
  obtain ⟨files, finished, content, data, played, before, handled, found, blobs, replayed, -,
    replays⟩ := run.log_replays established sessionFolder fresh reader
  refine ⟨files, finished, content, data, played, before, handled, found, blobs, replayed,
    fun count whole => ?_⟩
  have watched := (Watch.unaided_of_reachable reached (recorded' ▸ readable)).turned
  rw [recorded', seen, List.take_length] at watched
  obtain ⟨text, keys⟩ := run.shown_with_start established count
  rw [List.take_of_length_le whole] at text keys
  have turned := (replays.expireAll (run.following_readable established readable) count).turned
  exact ⟨turned.terminal.trans (text.symm.trans watched.terminal.symm),
    turned.keystrokes.trans (keys.symm.trans watched.keystrokes.symm)⟩

/-- A page that has chosen the session once it had been recorded, and was told that it is live. -/
def viewing : Watch where
  session := { events := greeted.logged }
  page := .opened true (TerminalReader.performAll (TerminalReader.reset {}) [])

/-- The page comes to show all three events, the last of which is the end of the session. -/
theorem viewing_viewed : ∃ watch, (Watch.unattended true).Reachable watch ∧
    watch.session.events = greeted.logged ∧
    watch.page.reader.eventIndex = greeted.logged.length := by
  have log : greeted.logged = greeted.stamped (greeted.startEvent (lit "10.0.0.2:51000"), 0) ::
      greeted.following [(.message true false 3 (lit "hi\n") 1, 10 ^ 8)] :=
    greeted.established_logged rfl
  have following : viewing.Following :=
    ⟨.start ⟨rfl, rfl, rfl, {}, rfl⟩, rfl, greeted_readable⟩
  obtain ⟨actions, watch, follows, rests⟩ := Watch.leftAlone_lowers.settles following
  obtain ⟨after, -⟩ := Watch.leftAlone_lowers.follows following follows
  obtain ⟨session, -, -⟩ := following.follows follows (.inl rfl)
  refine ⟨watch, after.reached, congrArg SessionContext.events session, ?_⟩
  rcases following.rested rfl follows rests with all | ⟨n, e, index, found, stop⟩
  · exact all
  · rw [session, viewing, log] at found
    rw [index, log]
    rcases n with - | - | - | n
    · exact absurd (Option.some.inj found ▸ stop) (by decide)
    · exact absurd (Option.some.inj found ▸ stop) (by decide)
    · rfl
    · contradiction

theorem viewed_alike_viewing : ∃ (watch : Watch) (data : List Json) (played : TerminalReader),
    watch.page.reader.eventIndex = greeted.logged.length ∧
    TerminalReader.replaySessionEventList {} data = .ok played ∧
    (played.performAll (List.replicate 2 .processNextEvent)).terminal.flatten =
      watch.page.reader.terminal.flatten := by
  obtain ⟨watch, reached, recorded', seen⟩ := viewing_viewed
  obtain ⟨files, finished, content, data, played, -, -, -, -, replayed, alike⟩ :=
    greeted.viewed_alike rfl (lit "sessions") greeted_fresh greeted_readable reached recorded' seen {}
  exact ⟨watch, data, played, seen, replayed, (alike 2 (by decide)).1⟩

end SessionRun
end SSHProxyPlus
