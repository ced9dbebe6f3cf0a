import Mathlib.Data.Multiset.AddSub
import SSHProxyPlus.Session.Workload
import SSHProxyPlus.Transition.Sequential

/-! The end of a session: when its stop event is the last, and the log lists the events. -/
namespace SSHProxyPlus
open Go Transition

theorem Files.lookup_append (files : Files) (path data : Bytes) :
    (files.append path data).lookup path = some ((files.lookup path).getD [] ++ data) :=
  Finmap.lookup_insert _

namespace Statement

/-- Concerned with neither the record nor the log. -/
def quiet : Statement → Bool
  | .markThreadStarted | .markThreadStopped | .unlock | .signalClients _ | .ranging .. | .sending ..
  | .go _ | .endSession => true
  | _ => false

/-- Quiet, and no way to the end. -/
def plain : Statement → Bool
  | .markThreadStopped | .endSession => false
  | statement => statement.quiet

def handles : Statement → Nat
  | .handleEvent _ => 1
  | _ => 0

/-- Events other than the one that ends the session. -/
def records : Statement → Nat
  | .handleEvent event => if event.type = eventSessionStop then 0 else 1
  | _ => 0

def stops : Statement → Nat
  | .handleEvent event => if event.type = eventSessionStop then 1 else 0
  | _ => 0

def begins : Statement → Nat
  | .initializeLog | .beginLog => 1
  | _ => 0

/-- The calls of `End` that have found the session active. -/
def deactivates : Statement → Nat
  | .deactivate => 1
  | _ => 0

def finalizes : Statement → Nat
  | .finalizeLog => 1
  | _ => 0

def closes : Statement → Nat
  | .closeLog | .renameLog => 1
  | _ => 0

def closing (statement : Statement) : Nat :=
  stops statement + finalizes statement + closes statement

/-- The events that have been recorded and are to be logged. -/
def pending : Statement → Multiset Nat
  | .logEvent index => {index}
  | _ => 0

/-- By how much the thread counter exceeds what it comes to in the end. -/
def balance : Statement → Int
  | .markThreadStarted => -1
  | .markThreadStopped => 1
  | _ => 0

/-- What can lead to a call of `End` that finds the session active. -/
def endings : Statement → Int
  | .markThreadStopped | .endSession | .deactivate => 1
  | _ => 0

theorem handles_quiet (statement : Statement) (silent : statement.quiet) :
    handles statement = 0 := by
  cases statement <;> first | rfl | contradiction

theorem records_quiet (statement : Statement) (silent : statement.quiet) :
    records statement = 0 := by
  cases statement <;> first | rfl | contradiction

theorem begins_quiet (statement : Statement) (silent : statement.quiet) :
    begins statement = 0 := by
  cases statement <;> first | rfl | contradiction

theorem deactivates_quiet (statement : Statement) (silent : statement.quiet) :
    deactivates statement = 0 := by
  cases statement <;> first | rfl | contradiction

theorem finalizes_quiet (statement : Statement) (silent : statement.quiet) :
    finalizes statement = 0 := by
  cases statement <;> first | rfl | contradiction

theorem closes_quiet (statement : Statement) (silent : statement.quiet) :
    closes statement = 0 := by
  cases statement <;> first | rfl | contradiction

theorem pending_quiet (statement : Statement) (silent : statement.quiet) :
    pending statement = 0 := by
  cases statement <;> first | rfl | contradiction

/-- Whatever ends the log comes behind the stop event. -/
def Poised (thread : List Statement) : Prop :=
  weights closing thread = 0 ∨ ∃ event rest,
    thread = .handleEvent event :: .signalClients .sessionEnd :: .finalizeLog :: rest ∧
      event.type = eventSessionStop ∧ weights closing rest = 0

end Statement

namespace LiveSession
open Statement
variable {live next : LiveSession} {action : LiveAction}

/-- Nothing has become of the record and the log, nor of what is ahead of them. -/
structure Quietly (live next : LiveSession) : Prop where
  logged : next.logged = live.logged
  folder : next.sessionFolder = live.sessionFolder
  total : ∀ {M : Type} [AddCancelCommMonoid M] (f : Statement → M),
    (∀ statement, statement.quiet → f statement = 0) →
      total f next.threads = total f live.threads
  kept : ∀ (i : Nat) before statement rest, (∀ earlier ∈ before, plain earlier) →
    statement.quiet = false → live.threads[i]? = some (before ++ statement :: rest) →
      ∃ before', (∀ earlier ∈ before', plain earlier) ∧
        next.threads[i]? = some (before' ++ statement :: rest)

/-- What a quiet statement does, where it does not find the session active at its end. -/
structure Idles (live : LiveSession) (statement : Statement) (changed : LiveSession)
    (left : List Statement) (spawned : List (List Statement)) : Prop where
  logged : changed.logged = live.logged
  folder : changed.sessionFolder = live.sessionFolder
  plain : plain statement → ∀ later ∈ left, Statement.plain later
  weight : ∀ {M : Type} [AddCommMonoid M] (f : Statement → M),
    (∀ statement, statement.quiet → f statement = 0) →
      weight f statement = weights f left + total f spawned

theorem Executes.idles {now : Time} {statement : Statement} {changed : LiveSession}
    {left : List Statement} {spawned : List (List Statement)}
    (executes : live.Executes now statement changed left spawned) (silent : statement.quiet)
    (inactive : statement = .endSession → live.logged.session.active = false) :
    live.Idles statement changed left spawned := by
  cases executes with
  | markThreadStarted =>
    exact ⟨rfl, rfl, by simp, fun f zero => by
      simp [weight, weights, total, zero .markThreadStarted rfl]⟩
  | lastStopped =>
    exact ⟨rfl, rfl, fun plain => absurd plain Bool.false_ne_true, fun f zero => by
      simp [weight, weights, total, zero .markThreadStopped rfl, zero .endSession rfl, zero .unlock rfl]⟩
  | stopped =>
    exact ⟨rfl, rfl, fun plain => absurd plain Bool.false_ne_true, fun f zero => by
      simp [weight, weights, total, zero .markThreadStopped rfl, zero .unlock rfl]⟩
  | unlock =>
    exact ⟨rfl, rfl, by simp, fun f zero => by simp [weight, weights, total, zero .unlock rfl]⟩
  | signalClients signal =>
    exact ⟨rfl, rfl, by simp [Statement.plain, quiet], fun f zero => by
      simp [weight, weights, total, zero (.signalClients signal) rfl, zero (.ranging signal _ 0) rfl]⟩
  | @turn signal header index viewer =>
    exact ⟨rfl, rfl, by simp [Statement.plain, quiet], fun f zero => by
      simp [weight, weights, total, zero (.ranging signal header index) rfl,
        zero (.sending signal header index viewer) rfl]⟩
  | @allSignalled signal header index =>
    exact ⟨rfl, rfl, by simp, fun f zero => by
      simp [weight, weights, total, zero (.ranging signal header index) rfl]⟩
  | @sending signal header index viewer =>
    exact ⟨rfl, rfl, by simp [Statement.plain, quiet], fun f zero => by
      simp [weight, weights, total, zero (.sending signal header index viewer) rfl,
        zero (.ranging signal header (index + 1)) rfl]⟩
  | go thread => exact ⟨rfl, rfl, by simp, fun f _ => by simp [weight, weights, total]⟩
  | endInactive =>
    exact ⟨rfl, rfl, by simp, fun f zero => by simp [weight, weights, total, zero .endSession rfl]⟩
  | endActive active => exact absurd ((inactive rfl).symm.trans active) Bool.false_ne_true
  | initializeLog | beginLog | handleEvent | logEvent | deactivate | finalizeLog | closeLog
  | renameLog => contradiction

theorem Ran.quietly {i : Nat} {now : Time} {statement : Statement} {rest : List Statement}
    {changed : LiveSession} {left : List Statement} {spawned : List (List Statement)}
    (ran : live.Ran i now statement rest changed left spawned next) (silent : statement.quiet)
    (inactive : statement = .endSession → live.logged.session.active = false) :
    Quietly live next := by
  have counts {M : Type} [AddCancelCommMonoid M] (f : Statement → M) := ran.sums f
  have own := ran.own
  have elsewhere {j : Nat} {thread : List Statement} (there : live.threads[j]? = some thread) :=
    ran.thread there
  obtain ⟨here, executes, rfl⟩ := ran
  obtain ⟨logged, folder, plain, weight⟩ := executes.idles silent inactive
  refine ⟨logged, folder, fun f zero => ?_, fun j before loud rest' early heard there => ?_⟩
  · have changed := counts f
    rw [weight f zero, add_assoc (LiveSession.total f live.threads)] at changed
    exact add_right_cancel changed
  · obtain ⟨rfl, same⟩ | ⟨-, still⟩ := elsewhere there
    · cases before with
      | nil =>
        obtain ⟨rfl, -⟩ := List.cons.inj same
        exact absurd silent (by rw [heard]; exact Bool.false_ne_true)
      | cons first before =>
        obtain ⟨rfl, rfl⟩ := List.cons.inj same
        obtain ⟨first, before_plain⟩ := List.forall_mem_cons.mp early
        refine ⟨left ++ before, ?_, ?_⟩
        · exact List.forall_mem_append.mpr ⟨plain first, before_plain⟩
        · rw [List.append_assoc]
          exact own
    · exact ⟨before, early, still⟩

/-- The thread counter says by how many threads more are marked to stop than to start. -/
def Counted (live : LiveSession) : Prop := live.threadCount = total balance live.threads

theorem Ran.counted {i : Nat} {now : Time} {statement : Statement} {rest : List Statement}
    {changed : LiveSession} {left : List Statement} {spawned : List (List Statement)}
    (ran : live.Ran i now statement rest changed left spawned next) (counted : live.Counted) :
    next.Counted := by
  have counts := ran.sums balance
  obtain ⟨-, executes, rfl⟩ := ran
  unfold Counted at counted ⊢
  cases executes <;> simp [weight, weights, balance, total] at counts counted ⊢ <;> omega

theorem balance_le (statement : Statement) : balance statement ≤ endings statement := by
  cases statement <;> simp [balance, endings]

/-- The session is active, and will find its end; or its stop event is coming. -/
def Awaiting (live : LiveSession) : Prop :=
  live.logged.session.active = true ∧ total stops live.threads = 0 ∧
      0 < total endings live.threads ∨
    live.logged.session.active = false ∧ 0 < total stops live.threads

theorem Ran.awaiting {i : Nat} {now : Time} {statement : Statement} {rest : List Statement}
    {changed : LiveSession} {left : List Statement} {spawned : List (List Statement)}
    (ran : live.Ran i now statement rest changed left spawned next) (counted : live.Counted)
    (goesOn : stops statement = 0) (awaiting : live.Awaiting) : next.Awaiting := by
  have stopCounts := ran.sums stops
  have endCounts := ran.sums endings
  have still := ran.counted counted
  have bound := total_mono balance_le next.threads
  obtain ⟨-, executes, rfl⟩ := ran
  unfold Awaiting at awaiting ⊢
  unfold Counted at still
  cases executes <;> simp [weight, weights, stops, endings, total,
    LoggedSession.renameLog_active, LoggedSession.openLog, LoggedSession.closeLog, SessionContext.addEvent, LoggedSession.logEvent]
    at goesOn stopCounts endCounts still bound awaiting ⊢ <;> grind

theorem poised_cons {statement : Statement} {rest : List Statement}
    (poised : Poised (statement :: rest)) (goesOn : stops statement = 0) :
    weight closing statement = 0 ∧ weights closing rest = 0 := by
  obtain none | ⟨event, rest', same, type, -⟩ := poised
  · exact Nat.add_eq_zero_iff.mp none
  · obtain ⟨rfl, -⟩ := List.cons.inj same
    simp [stops, type] at goesOn

theorem poised_stop {event : SessionEvent} {rest : List Statement}
    (poised : Poised (.handleEvent event :: rest)) (type : event.type = eventSessionStop) :
    ∃ rest', rest = .signalClients .sessionEnd :: .finalizeLog :: rest' ∧
      weights closing rest' = 0 := by
  obtain none | ⟨_, rest', same, -, rest'_none⟩ := poised
  · simp [weights, weight, closing, stops, type] at none
  · exact ⟨rest', (List.cons.inj same).2, rest'_none⟩

/-- A statement that goes on leaves every thread poised. -/
theorem Ran.poised {i : Nat} {now : Time} {statement : Statement} {rest : List Statement}
    {changed : LiveSession} {left : List Statement} {spawned : List (List Statement)}
    (ran : live.Ran i now statement rest changed left spawned next)
    (goesOn : stops statement = 0) (poised : ∀ thread ∈ live.threads, Poised thread) :
    ∀ thread ∈ next.threads, Poised thread := by
  obtain ⟨here, executes, rfl⟩ := ran
  obtain ⟨now_none, rest_none⟩ := poised_cons (poised _ (List.mem_of_getElem? here)) goesOn
  have others (left_poised : Poised (left ++ rest)) (spawned_poised : ∀ t ∈ spawned, Poised t) :
      ∀ thread ∈ live.threads.set i (left ++ rest) ++ spawned, Poised thread :=
    List.forall_mem_append.mpr ⟨each_set poised left_poised, spawned_poised⟩
  cases executes with
  | go thread =>
    refine others (.inl rest_none) fun other member => ?_
    rw [List.mem_singleton.mp member]
    exact .inl now_none
  | deactivate type =>
    exact others (.inr ⟨_, rest, rfl, type, rest_none⟩) fun _ none => nomatch none
  | finalizeLog | closeLog | renameLog => simp [weight, closing, finalizes, closes] at now_none
  | markThreadStarted | lastStopped | stopped | unlock | initializeLog | beginLog | handleEvent
  | logEvent | signalClients | turn | allSignalled | sending | endActive | endInactive =>
    refine others (.inl ?_) fun _ none => nomatch none
    rw [weights_append, rest_none]
    rfl

/-- The stop event has not been recorded. -/
structure Unstopped (live : LiveSession) : Prop where
  counted : live.Counted
  awaiting : live.Awaiting
  poised : ∀ thread ∈ live.threads, Poised thread
  clean : ∀ event ∈ live.events, event.type ≠ eventSessionStop

theorem renameLog_events (logged : LoggedSession) (sessionFolder : Bytes) :
    (logged.renameLog sessionFolder).session.events = logged.session.events := by
  unfold LoggedSession.renameLog
  split <;> rfl

theorem Ran.unstopped {i : Nat} {now : Time} {statement : Statement} {rest : List Statement}
    {changed : LiveSession} {left : List Statement} {spawned : List (List Statement)}
    (ran : live.Ran i now statement rest changed left spawned next)
    (goesOn : stops statement = 0) (unstopped : live.Unstopped) : next.Unstopped := by
  obtain ⟨counted, awaiting, poised, clean⟩ := unstopped
  refine ⟨ran.counted counted, ran.awaiting counted goesOn awaiting, ran.poised goesOn poised, ?_⟩
  obtain ⟨-, executes, rfl⟩ := ran
  cases executes with
  | handleEvent event =>
    refine List.forall_mem_append.mpr ⟨clean, List.forall_mem_singleton.mpr fun type => ?_⟩
    simp only [stops, show event.type = eventSessionStop from type] at goesOn
    contradiction
  | logEvent | beginLog | finalizeLog =>
    simpa only [events, LoggedSession.logEvent, LoggedSession.appendToLog_session] using clean
  | renameLog => simpa only [events, renameLog_events] using clean
  | markThreadStarted | lastStopped | stopped | unlock | initializeLog | signalClients | turn
  | allSignalled | sending | go | endActive | endInactive | deactivate | closeLog => exact clean

theorem Aside.unstopped (aside : Aside live next) (unstopped : live.Unstopped) :
    next.Unstopped := by
  have sums {M : Type} [AddCommMonoid M] (f : Statement → M) := aside.total f
  obtain ⟨counted, awaiting, poised, clean⟩ := unstopped
  obtain ⟨logged, -, count, threads⟩ := aside
  have more : LiveSession.total endings live.threads ≤ LiveSession.total endings next.threads := by
    obtain same | same := threads
    · rw [same]
    · rw [same, total_append, total_singleton]
      simp [weights, weight, endings]
  refine ⟨?_, ?_, ?_, ?_⟩
  · rw [Counted, count, sums balance rfl]
    exact counted
  · rw [Awaiting, logged, sums stops rfl]
    refine awaiting.imp ?_ id
    rintro ⟨active, silent, due⟩
    exact ⟨active, silent, due.trans_le more⟩
  · obtain same | same := threads
    · rwa [same]
    · rw [same]
      exact List.forall_mem_append.mpr ⟨poised, List.forall_mem_singleton.mpr (.inl rfl)⟩
  · rwa [events, logged]

/-- What a statement relies on. A stop event relies on it that no other event is still to be
handled, that the log has its beginning, and that no other call of `End` has found the session
active; the log relies on it that what was recorded earlier is logged earlier. -/
def Relies (live : LiveSession) : Statement → Prop
  | .handleEvent event => event.type = eventSessionStop →
      total handles live.threads = 1 ∧ total begins live.threads = 0 ∧
        total deactivates live.threads = 0
  | .logEvent index => ∀ earlier < index, earlier ∉ total pending live.threads
  | _ => True

def Undisturbed (live : LiveSession) : LiveAction → Prop
  | .run thread _ => ∀ statement rest,
      live.threads[thread]? = some (statement :: rest) → live.Relies statement
  | _ => True

/-- A log with these entries, that is not finished. -/
def written (before : Bytes) (events : List SessionEvent) : Bytes :=
  before ++ lit "[\n" ++ (events.map LoggedSession.logEntry).flatten

/-- The log is open, where it belongs, and holds the text. -/
structure Writing (live : LiveSession) (text : Bytes) : Prop where
  isOpen : live.logged.isOpen = true
  path : live.logged.path = logPath live.sessionFolder live.logged.session.filename
  holds : live.logged.files.lookup live.logged.path = some text

/-- The log has the first events, and the others are to be logged. -/
structure Logging (before : Bytes) (live : LiveSession) (count : Nat) : Prop where
  writing : live.Writing (written before (live.events.take count))
  within : count ≤ live.events.length
  due : total pending live.threads = List.range' count (live.events.length - count)
  begun : total begins live.threads = 0

/-- The log has no beginning yet: a thread is to open it, or to write its first line. -/
structure Starting (first : Statement) (live : LiveSession) : Prop extends Unstopped live where
  silent : live.events = []
  unbegun : total begins live.threads = 1
  idle : total pending live.threads = 0
  main : ∃ (i : Nat) (early rest : List Statement), (∀ statement ∈ early, plain statement) ∧
    live.threads[i]? = some (early ++ first :: rest) ∧
      total records live.threads = weights records rest

/-- The stop event is the last one. -/
structure Stopped (live : LiveSession) : Prop where
  inactive : live.logged.session.active = false
  handled : total handles live.threads = 0
  begun : total begins live.threads = 0
  alone : total deactivates live.threads = 0
  last : ∃ earlier stop, live.events = earlier ++ [stop] ∧ stop.type = eventSessionStop ∧
    ∀ event ∈ earlier, event.type ≠ eventSessionStop

/-- The stop event is still to be logged, and only then the log is finished. -/
def Leaves (live : LiveSession) : Prop :=
  ∃ (i : Nat) (early rest : List Statement), (∀ statement ∈ early, plain statement) ∧
    live.threads[i]? = some (early ++ .logEvent (live.events.length - 1) :: rest) ∧
      0 < weights finalizes rest

inductive Phase (before : Bytes) (live : LiveSession) : Prop where
  | unopened (starting : live.Starting .initializeLog)
      (content : (live.logged.files.lookup
        (logPath live.sessionFolder live.logged.session.filename)).getD [] = before)
  | opened (starting : live.Starting .beginLog) (writing : live.Writing before)
  | recording (unstopped : live.Unstopped) (count : Nat) (logging : live.Logging before count)
  | ending (stopped : live.Stopped) (count : Nat) (logging : live.Logging before count)
      (due : total finalizes live.threads = 1) (unclosed : total closes live.threads = 0)
      (leaves : count < live.events.length → live.Leaves)
  | complete (stopped : live.Stopped) (logged : total pending live.threads = 0)
      (final : total finalizes live.threads = 0) (closing : total closes live.threads ≤ 1)
      (holds : live.logged.files.lookup live.logged.path =
        some (written before live.events ++ lit "\n]"))
      (path : total closes live.threads = 1 →
        live.logged.path = logPath live.sessionFolder live.logged.session.filename)

/-- The record and the log are as they were. -/
structure SameLog (live next : LiveSession) : Prop where
  files : next.logged.files = live.logged.files
  path : next.logged.path = live.logged.path
  isOpen : next.logged.isOpen = live.logged.isOpen
  filename : next.logged.session.filename = live.logged.session.filename
  events : next.events = live.events
  folder : next.sessionFolder = live.sessionFolder

theorem Quietly.sameLog (quietly : Quietly live next) : SameLog live next := by
  obtain ⟨logged, folder, -, -⟩ := quietly
  exact ⟨by rw [logged], by rw [logged], by rw [logged], by rw [logged],
    by rw [events, events, logged], folder⟩

theorem Aside.quietly (aside : Aside live next) : Quietly live next := by
  have sums {M : Type} [AddCommMonoid M] (f : Statement → M) := aside.total f
  refine ⟨aside.logged, aside.folder, fun f zero => sums f (zero _ rfl), ?_⟩
  intro i before statement rest early loud there
  exact ⟨before, early, aside.thread there⟩

theorem Writing.same {text : Bytes} (writing : live.Writing text) (same : SameLog live next) :
    next.Writing text := by
  obtain ⟨isOpen, path, holds⟩ := writing
  exact ⟨same.isOpen.trans isOpen, by rw [same.path, path, same.folder, same.filename],
    by rw [same.files, same.path, holds]⟩

theorem Logging.same {before : Bytes} {count : Nat} (logging : live.Logging before count)
    (same : SameLog live next) (due : total pending next.threads = total pending live.threads)
    (begun : total begins next.threads = total begins live.threads) :
    next.Logging before count := by
  refine ⟨?_, ?_, ?_, begun.trans logging.begun⟩
  · rw [same.events]
    exact logging.writing.same same
  · rw [same.events]
    exact logging.within
  · rw [due, logging.due, same.events]

/-- What is appended is behind the text. -/
theorem Writing.appended {text data : Bytes} (writing : live.Writing text)
    (logged : next.logged = live.logged.appendToLog data)
    (folder : next.sessionFolder = live.sessionFolder) : next.Writing (text ++ data) := by
  obtain ⟨isOpen, path, holds⟩ := writing
  have opened : live.logged.appendToLog data = { live.logged with
      files := live.logged.files.append live.logged.path data } := if_pos isOpen
  rw [opened] at logged
  refine ⟨by rw [logged]; exact isOpen, by rw [logged, folder]; exact path, ?_⟩
  rw [logged, Files.lookup_append, holds]
  rfl

/-- The index of an event that is about to be logged is among those that are pending. -/
theorem Ran.index_pending {i index : Nat} {now : Time} {rest : List Statement}
    {changed : LiveSession} {left : List Statement} {spawned : List (List Statement)}
    (ran : live.Ran i now (.logEvent index) rest changed left spawned next) :
    index ∈ total pending live.threads := by
  have counts := ran.sums pending
  obtain ⟨-, executes, -⟩ := ran
  cases executes
  simp only [weight, weights, pending, total_nil, add_zero] at counts
  rw [← counts]
  simp

/-- Events are logged in the order in which they were recorded. -/
theorem Logging.logEvent {before : Bytes} {count i index : Nat} {now : Time}
    {rest : List Statement} {changed : LiveSession} {left : List Statement}
    {spawned : List (List Statement)} (logging : live.Logging before count)
    (ran : live.Ran i now (.logEvent index) rest changed left spawned next)
    (relies : live.Relies (.logEvent index)) :
    index = count ∧ count < live.events.length ∧ next.events = live.events ∧
      next.Logging before (count + 1) := by
  obtain ⟨writing, within, due, begun⟩ := logging
  have found := ran.index_pending
  rw [due, Multiset.mem_coe, List.mem_range'_1] at found
  have least : index = count := by
    by_contra later
    have member : count ∈ total pending live.threads := by
      rw [due, Multiset.mem_coe, List.mem_range'_1]
      omega
    exact relies count (by omega) member
  subst least
  have more : index < live.events.length := by omega
  have pendings := ran.sums pending
  have starts := ran.sums begins
  obtain ⟨event, there, logged, folder, nothing⟩ : ∃ event, live.events[index]? = some event ∧
      next.logged = live.logged.logEvent event ∧ next.sessionFolder = live.sessionFolder ∧
      left = [] ∧ spawned = [] := by
    obtain ⟨-, executes, rfl⟩ := ran
    cases executes with
    | @logEvent _ event there => exact ⟨event, there, rfl, rfl, rfl, rfl⟩
  obtain ⟨rfl, rfl⟩ := nothing
  have events_same : next.events = live.events := by
    rw [events, logged, LoggedSession.logEvent, LoggedSession.appendToLog_session]
    rfl
  refine ⟨rfl, more, events_same, ?_, ?_, ?_, ?_⟩
  · have text := writing.appended logged folder
    have taken : live.events.take (index + 1) = live.events.take index ++ [event] := by
      rw [List.take_add_one, there]
      rfl
    rw [events_same, taken]
    simpa only [written, List.map_append, List.flatten_append, List.map_cons, List.map_nil,
      List.flatten_cons, List.flatten_nil, List.append_nil, List.append_assoc] using text
  · rw [events_same]
    exact more
  · have split : List.range' index (live.events.length - index) =
        index :: List.range' (index + 1) (live.events.length - (index + 1)) := by
      rw [show live.events.length - index = live.events.length - (index + 1) + 1 by omega,
        List.range'_succ]
    simp only [weight, weights, total_nil, pending, add_zero] at pendings
    rw [due, split, add_comm, Multiset.singleton_add, ← Multiset.cons_coe]
      at pendings
    rw [events_same]
    exact Multiset.cons_inj_right index |>.mp pendings
  · simpa [weight, weights, begins, begun] using starts

/-- A statement that is not plain is the one that a thread has come to, or leaves it there. -/
theorem Ran.meets {i j : Nat} {now : Time} {statement loud : Statement}
    {rest early rest' : List Statement} {changed : LiveSession} {left : List Statement}
    {spawned : List (List Statement)}
    (ran : live.Ran i now statement rest changed left spawned next)
    (unplain : plain statement = false) (plains : ∀ statement ∈ early, plain statement)
    (there : live.threads[j]? = some (early ++ loud :: rest')) :
    (j = i ∧ early = [] ∧ statement = loud ∧ rest = rest') ∨
      i ≠ j ∧ next.threads[j]? = some (early ++ loud :: rest') := by
  obtain ⟨rfl, same⟩ | apart := ran.thread there
  · cases early with
    | nil =>
      obtain ⟨rfl, rfl⟩ := List.cons.inj same
      exact .inl ⟨rfl, rfl, rfl, rfl⟩
    | cons first early =>
      obtain ⟨rfl, -⟩ := List.cons.inj same
      have first_plain := plains first List.mem_cons_self
      rw [unplain] at first_plain
      contradiction
  · exact .inr apart

theorem weights_middle (f : Statement → Nat) (early : List Statement) (statement : Statement)
    (rest : List Statement) : weight f statement + weights f rest ≤
      weights f (early ++ statement :: rest) := by
  rw [weights_append, weights]
  exact Nat.le_add_left _ _

theorem Starting.quietly {first : Statement} (starting : live.Starting first)
    (later : next.Unstopped) (loud : first.quiet = false) (quietly : Quietly live next) :
    next.Starting first := by
  obtain ⟨-, silent, unbegun, idle, j, early, rest, plains, there, recorded⟩ := starting
  obtain ⟨early, plains, there⟩ := quietly.kept j early first rest plains loud there
  refine ⟨later, quietly.sameLog.events.trans silent, ?_, ?_, j, early, rest, plains, there, ?_⟩
  · rw [quietly.total begins begins_quiet, unbegun]
  · rw [quietly.total pending pending_quiet, idle]
  · rw [quietly.total records records_quiet, recorded]

/-- Until the log has its beginning nothing is recorded. -/
theorem Starting.ran {first statement : Statement} {i : Nat} {now : Time} {rest : List Statement}
    {changed : LiveSession} {left : List Statement} {spawned : List (List Statement)}
    (isFirst : weight begins first = 1 ∧ first.quiet = false) (starting : live.Starting first)
    (ran : live.Ran i now statement rest changed left spawned next)
    (relies : live.Relies statement) :
    (next.Starting first ∧ SameLog live next) ∨
      statement = first ∧ total records live.threads = weights records rest := by
  have ⟨unstopped, silent, unbegun, idle, j, early, rest', plains, there, recorded⟩ := starting
  have goesOn : stops statement = 0 := by
    cases statement with
    | handleEvent event =>
      refine if_neg fun type => ?_
      have enough := (relies type).2.1
      omega
    | _ => rfl
  have later := ran.unstopped goesOn unstopped
  have quietly (silent' : statement.quiet)
      (inactive : statement = .endSession → live.logged.session.active = false) :
      next.Starting first ∧ SameLog live next := by
    have quietly := ran.quietly silent' inactive
    exact ⟨starting.quietly later isFirst.2 quietly, quietly.sameLog⟩
  have restored (unplain : plain statement = false) (apart : statement ≠ first)
      (same : SameLog live next)
      (begins_same : total begins next.threads = total begins live.threads)
      (pending_same : total pending next.threads = total pending live.threads)
      (records_same : total records next.threads = total records live.threads) :
      next.Starting first ∧ SameLog live next := by
    obtain ⟨-, -, same, -⟩ | ⟨-, there⟩ := ran.meets unplain plains there
    · exact absurd same apart
    · exact ⟨⟨later, same.events.trans silent, begins_same.trans unbegun,
        pending_same.trans idle, j, early, rest', plains, there, records_same.trans recorded⟩, same⟩
  have begs := ran.sums begins
  have pends := ran.sums pending
  have recs := ran.sums records
  have executes := ran.executes
  cases executes with
  | endActive active =>
    refine .inl (restored rfl (fun same => ?_) ?_ ?_ ?_ ?_)
    · rw [← same] at isFirst
      exact absurd isFirst.2 (by decide)
    · rw [ran.next_eq]
      exact ⟨rfl, rfl, rfl, rfl, rfl, rfl⟩
    · simpa [weight, weights, begins] using begs
    · simpa [weight, weights, pending] using pends
    · simpa [weight, weights, records] using recs
  | deactivate type =>
    refine .inl (restored rfl (fun same => ?_) ?_ ?_ ?_ ?_)
    · rw [← same] at isFirst
      exact absurd isFirst.1 (by decide)
    · rw [ran.next_eq]
      exact ⟨rfl, rfl, rfl, rfl, rfl, rfl⟩
    · simpa [weight, weights, begins] using begs
    · simpa [weight, weights, pending] using pends
    · simpa [weight, weights, records, type] using recs
  | initializeLog | beginLog =>
    obtain ⟨-, -, same, rfl⟩ | ⟨apart, -⟩ := ran.meets rfl plains there
    · exact .inr ⟨same, recorded⟩
    · have both := weights_add_le_total (f := begins) apart ran.here there
      have other := weights_middle begins early first rest'
      simp only [weights, weight, begins] at both
      omega
  | handleEvent event =>
    have one : records (.handleEvent event) = 1 := by
      simp only [stops, ite_eq_right_iff, one_ne_zero, imp_false] at goesOn
      exact if_neg goesOn
    obtain ⟨-, -, rfl, -⟩ | ⟨apart, -⟩ := ran.meets rfl plains there
    · exact absurd isFirst.1 (by simp [weight, begins])
    · have both := weights_add_le_total (f := records) apart ran.here there
      have other := weights_middle records early first rest'
      simp only [weights, weight, one] at both
      omega
  | logEvent =>
    have found := ran.index_pending
    rw [idle] at found
    exact absurd found (Multiset.notMem_zero _)
  | finalizeLog | closeLog | renameLog =>
    have poised := (poised_cons (unstopped.poised _ (List.mem_of_getElem? ran.here)) goesOn).1
    simp [weight, closing, finalizes, closes] at poised
  | endInactive inactive => exact .inl (quietly rfl fun _ => inactive)
  | _ => exact .inl (quietly rfl (by simp))

/-- The log is opened, and continues what was there. -/
theorem Starting.opens {before : Bytes} {i : Nat} {now : Time} {rest : List Statement}
    {changed : LiveSession} {left : List Statement} {spawned : List (List Statement)}
    (starting : live.Starting .initializeLog)
    (content : (live.logged.files.lookup
      (logPath live.sessionFolder live.logged.session.filename)).getD [] = before)
    (ran : live.Ran i now .initializeLog rest changed left spawned next)
    (recorded : total records live.threads = weights records rest) : Phase before next := by
  have begs := ran.sums begins
  have pends := ran.sums pending
  have recs := ran.sums records
  have here := ran.own
  have later := ran.unstopped rfl starting.toUnstopped
  have executes := ran.executes
  cases executes with
  | initializeLog =>
    refine .opened ⟨later, ?_, ?_, ?_, i, [], rest, ?_, here, ?_⟩ ?_
    · rw [ran.next_eq]
      exact starting.silent
    · simpa [weight, weights, begins, starting.unbegun] using begs
    · simpa [weight, weights, pending, starting.idle] using pends
    · exact List.forall_mem_nil _
    · simpa [weight, weights, records, recorded] using recs
    · rw [ran.next_eq]
      refine ⟨rfl, rfl, ?_⟩
      rw [← content]
      exact Finmap.lookup_insert _

/-- The first line is written. -/
theorem Starting.begins {before : Bytes} {i : Nat} {now : Time} {rest : List Statement}
    {changed : LiveSession} {left : List Statement} {spawned : List (List Statement)}
    (starting : live.Starting .beginLog) (writing : live.Writing before)
    (ran : live.Ran i now .beginLog rest changed left spawned next) : Phase before next := by
  have begs := ran.sums Statement.begins
  have pends := ran.sums pending
  have later := ran.unstopped rfl starting.toUnstopped
  have executes := ran.executes
  cases executes with
  | beginLog =>
    have silent : next.events = [] := by
      rw [ran.next_eq, events, LoggedSession.appendToLog_session]
      exact starting.silent
    have text : next.Writing (before ++ lit "[\n") :=
      writing.appended (by rw [ran.next_eq]) (by rw [ran.next_eq])
    refine .recording later 0 ⟨?_, Nat.zero_le _, ?_, ?_⟩
    · simpa [written, silent] using text
    · rw [silent]
      simpa [weight, weights, pending, starting.idle] using pends
    · simpa [weight, weights, Statement.begins, starting.unbegun] using begs

/-- What is recorded is to be logged. -/
theorem Logging.record {before : Bytes} {count i : Nat} {now : Time} {event : SessionEvent}
    {rest : List Statement} {changed : LiveSession} {left : List Statement}
    {spawned : List (List Statement)} (logging : live.Logging before count)
    (ran : live.Ran i now (.handleEvent event) rest changed left spawned next) :
    next.Logging before count ∧ ∃ stamped, next.events = live.events ++ [stamped] ∧
      stamped.type = event.type := by
  have begs := ran.sums begins
  have pends := ran.sums pending
  obtain ⟨writing, within, due, begun⟩ := logging
  have executes := ran.executes
  cases executes with
  | handleEvent =>
    have added : next.events = live.events ++
        [{ event with timeOffset := live.logged.session.getTimeOffset now }] := by
      rw [ran.next_eq]
      rfl
    refine ⟨⟨?_, ?_, ?_, ?_⟩, _, added, rfl⟩
    · rw [added, List.take_append_of_le_length within, ran.next_eq]
      exact ⟨writing.isOpen, writing.path, writing.holds⟩
    · rw [added, List.length_append]
      exact Nat.le_add_right_of_le within
    · have longer : List.range' count (live.events.length + 1 - count) =
          List.range' count (live.events.length - count) ++ [live.events.length] := by
        rw [show live.events.length + 1 - count = live.events.length - count + 1 by omega,
          List.range'_concat, show count + 1 * (live.events.length - count) = live.events.length
            by omega]
      rw [added, List.length_append, List.length_singleton, longer, ← Multiset.coe_add, ← due]
      simpa [weight, weights, pending] using pends
    · simpa [weight, weights, begins, begun] using begs

/-- Apart from the thread that is to record the stop event, none ends the log. -/
theorem closing_elsewhere {threads : List (List Statement)} {i : Nat} {event : SessionEvent}
    {rest : List Statement} (poised : ∀ thread ∈ threads, Poised thread)
    (here : threads[i]? = some (.handleEvent event :: rest)) (only : total handles threads = 1) :
    total closing (threads.set i []) = 0 := by
  refine List.sum_eq_zero fun n member => ?_
  obtain ⟨thread, present, rfl⟩ := List.mem_map.mp member
  obtain ⟨j, there⟩ := List.mem_iff_getElem?.mp present
  by_cases same : i = j
  · subst same
    rw [List.getElem?_set_self (List.getElem?_eq_some_iff.mp here).1] at there
    rw [← Option.some.inj there]
    rfl
  · rw [List.getElem?_set_ne same] at there
    obtain none | ⟨event', rest', rfl, -⟩ := poised thread (List.mem_of_getElem? there)
    · exact none
    · have both := weights_add_le_total (f := handles) same here there
      simp only [weights, weight, handles] at both
      omega

/-- The stop event is recorded, and the log is left with what comes behind it. -/
theorem Logging.stop {before : Bytes} {count i : Nat} {now : Time} {event : SessionEvent}
    {rest : List Statement} {changed : LiveSession} {left : List Statement}
    {spawned : List (List Statement)} (unstopped : live.Unstopped)
    (logging : live.Logging before count)
    (ran : live.Ran i now (.handleEvent event) rest changed left spawned next)
    (type : event.type = eventSessionStop) (relies : live.Relies (.handleEvent event)) :
    Phase before next := by
  obtain ⟨only, -, alone⟩ := relies type
  obtain ⟨rest', rest_eq, behind⟩ := poised_stop (unstopped.poised _ (List.mem_of_getElem? ran.here)) type
  obtain ⟨later, stamped, added, stamped_type⟩ := logging.record ran
  have elsewhere := closing_elsewhere unstopped.poised ran.here only
  have finals := total_set finalizes ran.here []
  have closed := total_set closes ran.here []
  have finals_elsewhere := total_mono (fun statement => show finalizes statement ≤ closing statement
    by unfold closing; omega) (live.threads.set i [])
  have closed_elsewhere := total_mono (fun statement => show closes statement ≤ closing statement
    by unfold closing; omega) (live.threads.set i [])
  have finals_behind := weights_mono (fun statement => show finalizes statement ≤ closing statement
    by unfold closing; omega) rest'
  have closed_behind := weights_mono (fun statement => show closes statement ≤ closing statement
    by unfold closing; omega) rest'
  have finals' := ran.sums finalizes
  have closed' := ran.sums closes
  have handled := ran.sums handles
  have others := ran.sums deactivates
  have here := ran.own
  have stopsNow : 0 < total stops live.threads := by
    have bound := head_le_total (f := stops) ran.here
    simp only [weight, stops, type, if_true] at bound
    omega
  have inactive : next.logged.session.active = false := by
    have executes := ran.executes
    cases executes with
    | handleEvent =>
      rw [ran.next_eq]
      obtain ⟨-, none, -⟩ | ⟨inactive, -⟩ := unstopped.awaiting
      · omega
      · exact inactive
  have executes := ran.executes
  cases executes with
  | handleEvent =>
    simp [weight, weights, rest_eq, finalizes, closes] at finals closed
    simp [weight, weights, finalizes, closes, handles, deactivates] at finals' closed' handled others
    refine .ending ⟨inactive, by omega, later.begun, by omega, live.events, stamped, added,
      stamped_type.trans type, unstopped.clean⟩ count later (by omega) (by omega) fun _ => ?_
    refine ⟨i, [], .signalClients .newMessage :: rest, List.forall_mem_nil _, ?_, ?_⟩
    · rw [added, List.length_append, List.length_singleton, Nat.add_sub_cancel]
      exact here
    · simp [weight, weights, rest_eq, finalizes]

theorem recording_ran {before : Bytes} {count i : Nat} {now : Time} {statement : Statement}
    {rest : List Statement} {changed : LiveSession} {left : List Statement}
    {spawned : List (List Statement)} (unstopped : live.Unstopped)
    (logging : live.Logging before count)
    (ran : live.Ran i now statement rest changed left spawned next)
    (relies : live.Relies statement) : Phase before next := by
  have quietly (silent : statement.quiet) (goesOn : stops statement = 0)
      (inactive : statement = .endSession → live.logged.session.active = false) :
      Phase before next := by
    have quietly := ran.quietly silent inactive
    exact .recording (ran.unstopped goesOn unstopped) count (logging.same quietly.sameLog
      (quietly.total pending pending_quiet) (quietly.total begins begins_quiet))
  have restored (goesOn : stops statement = 0) (same : SameLog live next)
      (due : total pending next.threads = total pending live.threads)
      (begun : total begins next.threads = total begins live.threads) : Phase before next :=
    .recording (ran.unstopped goesOn unstopped) count (logging.same same due begun)
  have begs := ran.sums begins
  have pends := ran.sums pending
  have executes := ran.executes
  cases executes with
  | endActive active =>
    refine restored rfl ?_ ?_ ?_
    · rw [ran.next_eq]
      exact ⟨rfl, rfl, rfl, rfl, rfl, rfl⟩
    · simpa [weight, weights, pending] using pends
    · simpa [weight, weights, begins] using begs
  | deactivate type =>
    refine restored rfl ?_ ?_ ?_
    · rw [ran.next_eq]
      exact ⟨rfl, rfl, rfl, rfl, rfl, rfl⟩
    · simpa [weight, weights, pending] using pends
    · simpa [weight, weights, begins] using begs
  | initializeLog | beginLog =>
    have bound := head_le_total (f := begins) ran.here
    rw [logging.begun] at bound
    simp [weight, begins] at bound
  | handleEvent event =>
    by_cases type : event.type = eventSessionStop
    · exact logging.stop unstopped ran type relies
    · exact .recording (ran.unstopped (if_neg type) unstopped) count (logging.record ran).1
  | logEvent there =>
    obtain ⟨-, -, -, later⟩ := logging.logEvent ran relies
    exact .recording (ran.unstopped rfl unstopped) (count + 1) later
  | finalizeLog | closeLog | renameLog =>
    have poised := (poised_cons (unstopped.poised _ (List.mem_of_getElem? ran.here)) rfl).1
    simp [weight, closing, finalizes, closes] at poised
  | endInactive inactive => exact quietly rfl rfl fun _ => inactive
  | _ => exact quietly rfl rfl (by simp)

theorem Stopped.quietly (stopped : live.Stopped) (quietly : Quietly live next) : next.Stopped := by
  obtain ⟨inactive, handled, begun, alone, last⟩ := stopped
  refine ⟨?_, ?_, ?_, ?_, ?_⟩
  · rw [quietly.logged, inactive]
  · rw [quietly.total handles handles_quiet, handled]
  · rw [quietly.total begins begins_quiet, begun]
  · rw [quietly.total deactivates deactivates_quiet, alone]
  · rw [quietly.sameLog.events]
    exact last

/-- Once the stop event is the last, only the log is still written. -/
theorem Stopped.ran_cases {i : Nat} {now : Time} {statement : Statement} {rest : List Statement}
    {changed : LiveSession} {left : List Statement} {spawned : List (List Statement)}
    (stopped : live.Stopped) (ran : live.Ran i now statement rest changed left spawned next) :
    Quietly live next ∨ (∃ index, statement = .logEvent index) ∨ statement = .finalizeLog ∨
      statement = .closeLog ∨ statement = .renameLog := by
  have handled := head_le_total (f := handles) ran.here
  have begun := head_le_total (f := begins) ran.here
  have alone := head_le_total (f := deactivates) ran.here
  rw [stopped.handled] at handled
  rw [stopped.begun] at begun
  rw [stopped.alone] at alone
  cases statement with
  | handleEvent event => simp [weight, handles] at handled
  | initializeLog | beginLog => simp [weight, begins] at begun
  | deactivate => simp [weight, deactivates] at alone
  | logEvent index => exact .inr (.inl ⟨index, rfl⟩)
  | finalizeLog => exact .inr (.inr (.inl rfl))
  | closeLog => exact .inr (.inr (.inr (.inl rfl)))
  | renameLog => exact .inr (.inr (.inr (.inr rfl)))
  | _ => exact .inl (ran.quietly rfl fun _ => stopped.inactive)

/-- What is done to the log changes neither the record nor who is to add to it. -/
theorem Stopped.ran {i : Nat} {now : Time} {statement : Statement} {rest : List Statement}
    {changed : LiveSession} {left : List Statement} {spawned : List (List Statement)}
    (stopped : live.Stopped) (ran : live.Ran i now statement rest changed left spawned next)
    (writes : (∃ index, statement = .logEvent index) ∨ statement = .finalizeLog ∨
      statement = .closeLog ∨ statement = .renameLog) :
    next.Stopped ∧ next.events = live.events ∧ next.sessionFolder = live.sessionFolder := by
  obtain ⟨inactive, handled, begun, alone, last⟩ := stopped
  have hands := ran.sums handles
  have begs := ran.sums begins
  have deacts := ran.sums deactivates
  have executes := ran.executes
  have same : next.events = live.events ∧ next.logged.session.active = false ∧
      next.sessionFolder = live.sessionFolder := by
    rw [ran.next_eq, ← inactive]
    obtain ⟨index, rfl⟩ | rfl | rfl | rfl := writes
    all_goals
      cases executes
      simp [events, LoggedSession.logEvent, renameLog_events, LoggedSession.renameLog_active,
        LoggedSession.closeLog]
  obtain ⟨events_same, inactive, folder⟩ := same
  refine ⟨⟨inactive, ?_, ?_, ?_, by rwa [events_same]⟩, events_same, folder⟩
  all_goals
    obtain ⟨index, rfl⟩ | rfl | rfl | rfl := writes
    all_goals
      cases executes
      simp [weight, weights, handles, begins, deactivates] at hands begs deacts
      omega

theorem ending_quietly {before : Bytes} {count : Nat} (stopped : live.Stopped)
    (logging : live.Logging before count) (due : total finalizes live.threads = 1)
    (unclosed : total closes live.threads = 0)
    (leaves : count < live.events.length → live.Leaves) (quietly : Quietly live next) :
    Phase before next := by
  refine .ending (stopped.quietly quietly) count (logging.same quietly.sameLog
    (quietly.total pending pending_quiet) (quietly.total begins begins_quiet)) ?_ ?_ fun more => ?_
  · rw [quietly.total finalizes finalizes_quiet, due]
  · rw [quietly.total closes closes_quiet, unclosed]
  · rw [quietly.sameLog.events] at more
    obtain ⟨j, early, rest, plains, there, behind⟩ := leaves more
    obtain ⟨early, plains, there⟩ := quietly.kept j early _ rest plains rfl there
    exact ⟨j, early, rest, plains, by rwa [quietly.sameLog.events], behind⟩

theorem ending_ran {before : Bytes} {count i : Nat} {now : Time} {statement : Statement}
    {rest : List Statement} {changed : LiveSession} {left : List Statement}
    {spawned : List (List Statement)} (stopped : live.Stopped) (logging : live.Logging before count)
    (due : total finalizes live.threads = 1) (unclosed : total closes live.threads = 0)
    (leaves : count < live.events.length → live.Leaves)
    (ran : live.Ran i now statement rest changed left spawned next)
    (relies : live.Relies statement) : Phase before next := by
  have finals := ran.sums finalizes
  have closed := ran.sums closes
  have bound := head_le_total (f := closes) ran.here
  rw [unclosed] at bound
  obtain quietly | writes := stopped.ran_cases ran
  · exact ending_quietly stopped logging due unclosed leaves quietly
  · obtain ⟨later, events_same, folder⟩ := stopped.ran ran writes
    obtain ⟨index, rfl⟩ | rfl | rfl | rfl := writes
    · -- the next event is logged
      obtain ⟨rfl, -, -, logging'⟩ := logging.logEvent ran relies
      have unchanged : total finalizes next.threads = 1 ∧ total closes next.threads = 0 := by
        have executes := ran.executes
        cases executes
        simp [weight, weights, finalizes, closes] at finals closed
        omega
      refine .ending later (index + 1) logging' unchanged.1 unchanged.2 fun more => ?_
      rw [events_same] at more
      obtain ⟨j, early, rest', plains, there, behind⟩ := leaves (by omega)
      obtain ⟨-, -, same, -⟩ | ⟨-, there⟩ := ran.meets rfl plains there
      · cases same
        omega
      · exact ⟨j, early, rest', plains, by rwa [events_same], behind⟩
    · -- the log is finished: every event has been logged
      have all : ¬ count < live.events.length := by
        intro more
        obtain ⟨j, early, rest', plains, there, behind⟩ := leaves more
        obtain ⟨-, -, same, -⟩ | ⟨apart, -⟩ := ran.meets rfl plains there
        · contradiction
        · have both := weights_add_le_total (f := finalizes) apart ran.here there
          have other := weights_middle finalizes early
            (.logEvent (live.events.length - 1)) rest'
          simp only [weights, weight, finalizes] at both
          omega
      have whole : count = live.events.length := Nat.le_antisymm logging.within (not_lt.mp all)
      have text : next.Writing (written before live.events ++ lit "\n]") := by
        have writing := logging.writing
        rw [whole, List.take_length] at writing
        have executes := ran.executes
        cases executes
        exact writing.appended (by rw [ran.next_eq]) folder
      have nothing : total pending live.threads = 0 := by
        rw [logging.due, whole, Nat.sub_self]
        rfl
      have pends := ran.sums pending
      have executes := ran.executes
      cases executes
      simp [weight, weights, finalizes, closes, pending, nothing] at finals closed pends
      refine .complete later pends (by omega) (by omega) ?_ fun _ => text.path
      rw [events_same]
      exact text.holds
    · simp [weight, closes] at bound
    · simp [weight, closes] at bound

theorem renameLog_holds {logged : LoggedSession} {sessionFolder text : Bytes}
    (holds : logged.files.lookup logged.path = some text)
    (path : logged.path = logPath sessionFolder logged.session.filename) :
    (logged.renameLog sessionFolder).files.lookup (logged.renameLog sessionFolder).path =
      some text := by
  rw [path] at holds
  by_cases short : logged.session.events.length < 10
  · let oldFile := logPath sessionFolder logged.session.filename
    let newFile := oldFile ++ lit ".scan"
    have renamed : logged.renameLog sessionFolder = { logged with
        session := { logged.session with filename := newFile }
        files := logged.files.rename oldFile newFile
        path := newFile } := if_pos short
    have moved := Files.rename_found holds newFile
    rw [renamed]
    change (logged.files.rename oldFile newFile).lookup newFile = some text
    rw [moved, Finmap.lookup_insert]
  · rw [LoggedSession.renameLog, if_neg short, path]
    exact holds

theorem complete_quietly {before : Bytes} (stopped : live.Stopped)
    (logged : total pending live.threads = 0) (final : total finalizes live.threads = 0)
    (closing : total closes live.threads ≤ 1)
    (holds : live.logged.files.lookup live.logged.path =
      some (written before live.events ++ lit "\n]"))
    (path : total closes live.threads = 1 →
      live.logged.path = logPath live.sessionFolder live.logged.session.filename)
    (quietly : Quietly live next) : Phase before next := by
  refine .complete (stopped.quietly quietly) ?_ ?_ ?_ ?_ ?_
  · rw [quietly.total pending pending_quiet, logged]
  · rw [quietly.total finalizes finalizes_quiet, final]
  · rwa [quietly.total closes closes_quiet]
  · rwa [quietly.sameLog.events, quietly.logged]
  · rwa [quietly.total closes closes_quiet, quietly.logged, quietly.folder]

theorem complete_ran {before : Bytes} {i : Nat} {now : Time} {statement : Statement}
    {rest : List Statement} {changed : LiveSession} {left : List Statement}
    {spawned : List (List Statement)} (stopped : live.Stopped)
    (logged : total pending live.threads = 0) (final : total finalizes live.threads = 0)
    (closing : total closes live.threads ≤ 1)
    (holds : live.logged.files.lookup live.logged.path =
      some (written before live.events ++ lit "\n]"))
    (path : total closes live.threads = 1 →
      live.logged.path = logPath live.sessionFolder live.logged.session.filename)
    (ran : live.Ran i now statement rest changed left spawned next) : Phase before next := by
  have pends := ran.sums pending
  have finals := ran.sums finalizes
  have closed := ran.sums closes
  have bound := head_le_total (f := finalizes) ran.here
  rw [final] at bound
  obtain quietly | writes := stopped.ran_cases ran
  · exact complete_quietly stopped logged final closing holds path quietly
  · obtain ⟨later, events_same, folder⟩ := stopped.ran ran writes
    have executes := ran.executes
    obtain ⟨index, rfl⟩ | rfl | rfl | rfl := writes
    · have found := ran.index_pending
      rw [logged] at found
      exact absurd found (Multiset.notMem_zero _)
    · simp [weight, finalizes] at bound
    · cases executes
      simp [weight, weights, finalizes, closes, pending, logged] at finals closed pends
      refine .complete later pends (by omega) (by omega) ?_ fun one => ?_
      · rw [events_same, ran.next_eq]
        exact holds
      · rw [folder, ran.next_eq]
        exact path (by omega)
    · have one := head_le_total (f := closes) ran.here
      cases executes
      simp [weight, weights, finalizes, closes, pending, logged] at finals closed pends one
      refine .complete later pends (by omega) (by omega) ?_ fun more => by omega
      rw [events_same, ran.next_eq]
      exact renameLog_holds holds (path (by omega))

theorem Phase.perform {before : Bytes} (phase : Phase before live)
    (undisturbed : live.Undisturbed action) (performed : live.perform action = some next) :
    Phase before next := by
  obtain ⟨i, now, statement, rest, changed, left, spawned, rfl, ran⟩ | aside :=
    perform_cases performed
  · have relies := undisturbed statement rest ran.here
    cases phase with
    | unopened starting content =>
      obtain ⟨starting', same⟩ | ⟨rfl, recorded⟩ := starting.ran ⟨rfl, rfl⟩ ran relies
      · refine .unopened starting' ?_
        rwa [same.files, same.folder, same.filename]
      · exact starting.opens content ran recorded
    | opened starting writing =>
      obtain ⟨starting', same⟩ | ⟨rfl, -⟩ := starting.ran ⟨rfl, rfl⟩ ran relies
      · exact .opened starting' (writing.same same)
      · exact starting.begins writing ran
    | recording unstopped count logging => exact recording_ran unstopped logging ran relies
    | ending stopped count logging due unclosed leaves =>
      exact ending_ran stopped logging due unclosed leaves ran relies
    | complete stopped logged final closing holds path =>
      exact complete_ran stopped logged final closing holds path ran
  · have quietly := aside.quietly
    have same := quietly.sameLog
    cases phase with
    | unopened starting content =>
      refine .unopened (starting.quietly (aside.unstopped starting.toUnstopped) rfl quietly) ?_
      rwa [same.files, same.folder, same.filename]
    | opened starting writing =>
      exact .opened (starting.quietly (aside.unstopped starting.toUnstopped) rfl quietly)
        (writing.same same)
    | recording unstopped count logging =>
      exact .recording (aside.unstopped unstopped) count (logging.same same
        (quietly.total pending pending_quiet) (quietly.total begins begins_quiet))
    | ending stopped count logging due unclosed leaves =>
      exact ending_quietly stopped logging due unclosed leaves quietly
    | complete stopped logged final closing holds path =>
      exact complete_quietly stopped logged final closing holds path quietly

/-- The record is final, and the log lists it: one stop event, which is the last, and after what
was in the file before the entries of all events in their order. -/
structure Agrees (live : LiveSession) (before : Bytes) : Prop where
  last : ∃ earlier stop, live.events = earlier ++ [stop] ∧ stop.type = eventSessionStop ∧
    ∀ event ∈ earlier, event.type ≠ eventSessionStop
  log : live.logged.files.lookup live.logged.path = some (before ++ lit "[\n" ++
    (live.events.map LoggedSession.logEntry).flatten ++ lit "\n]")

theorem Phase.finished {before : Bytes} (phase : Phase before live)
    (finished : ∀ thread ∈ live.threads, thread = []) : live.Agrees before := by
  cases phase with
  | unopened starting | opened starting =>
    have none := total_finished begins finished
    have one := starting.unbegun
    omega
  | recording unstopped =>
    have none := total_finished endings finished
    have idle := total_finished stops finished
    obtain ⟨-, -, some⟩ | ⟨-, some⟩ := unstopped.awaiting <;> omega
  | ending _ _ _ due =>
    have none := total_finished finalizes finished
    omega
  | complete stopped _ _ _ holds => exact ⟨stopped.last, holds⟩

end LiveSession

namespace Statement

theorem recorded_type (activity : Activity) : activity.event.type ≠ eventSessionStop := by
  cases activity <;> exact of_decide_eq_true rfl

theorem start_ne_stop : eventSessionStart ≠ eventSessionStop := of_decide_eq_true rfl

theorem closing_unseen : Unseen closing where
  marks := rfl
  records activity := by
    simp [closing, record, stops, finalizes, closes, recorded_type]

theorem balance_unseen : Unseen balance := ⟨rfl, fun _ => rfl⟩
theorem begins_unseen : Unseen begins := ⟨rfl, fun _ => rfl⟩
theorem pending_unseen : Unseen pending := ⟨rfl, fun _ => rfl⟩

end Statement

namespace LiveSession
open Statement
variable {live next : LiveSession} {sessionFolder : Bytes} {session : SessionContext}
  {files : Files}

theorem loggedIn_phase (active : session.active = true) (silent : session.events = [])
    (connected : Option ConnectedClient) :
    Phase ((files.lookup (logPath sessionFolder session.filename)).getD [])
      (loggedIn sessionFolder session files connected) := by
  have single {M : Type} [AddCommMonoid M] (f : Statement → M) :
      total f (loggedIn sessionFolder session files connected).threads =
        weights f (handleClientConn connected) := total_singleton f _
  have balanced : weights balance (handleClientConn connected) = 0 :=
    balance_unseen.handleClientConn (fun _ _ => rfl) connected
  have open' : weights closing (handleClientConn connected) = 0 :=
    closing_unseen.handleClientConn (fun event type => by
      simp [closing, stops, finalizes, closes, type, start_ne_stop]) connected
  have onward : 0 < weights endings (handleClientConn connected) := by
    obtain ⟨body, same⟩ : ∃ body, handleClientConn connected = marked body := ⟨_, rfl⟩
    have bound := weights_mono balance_le body
    rw [same, weights_marked] at balanced ⊢
    simp only [balance, endings] at balanced ⊢
    omega
  refine .unopened ⟨⟨?_, ?_, ?_, ?_⟩, silent, ?_, ?_, 0, [.markThreadStarted], _, ?_, rfl, ?_⟩ rfl
  · exact ((single balance).trans balanced).symm
  · refine .inl ⟨active, ?_, ?_⟩
    · have bound := weights_mono (fun statement => show stops statement ≤ closing statement
        by unfold closing; omega) (handleClientConn connected)
      rw [single]
      omega
    · rwa [single]
  · exact List.forall_mem_singleton.mpr (.inl open')
  · intro event member
    rw [events, loggedIn, silent] at member
    contradiction
  · rw [single]
    exact begins_unseen.handleClientConn (fun _ _ => rfl) connected
  · rw [single]
    exact pending_unseen.handleClientConn (fun _ _ => rfl) connected
  · exact List.forall_mem_singleton.mpr rfl
  · rw [single]
    exact (zero_add _).trans (zero_add _)

/-- Where every stop event is the last to be handled and the log is written in order, the
session's end is final and its two records agree. -/
theorem undisturbed_agrees
    (reached : (runs Undisturbed sessionFolder session files).Reachable live)
    (finished : ∀ thread ∈ live.threads, thread = []) :
    live.Agrees ((files.lookup (logPath sessionFolder session.filename)).getD []) := by
  refine Phase.finished ?_ finished
  clear finished
  induction reached with
  | start first =>
    obtain ⟨active, silent, connected, rfl⟩ := first
    exact loggedIn_phase active silent connected
  | next _ step ih => exact ih.perform step.1 step.2

instance decidableRelies (live : LiveSession) :
    (statement : Statement) → Decidable (live.Relies statement)
  | .handleEvent event => inferInstanceAs (Decidable (event.type = eventSessionStop → _ ∧ _ ∧ _))
  | .logEvent index =>
      inferInstanceAs (Decidable (∀ earlier < index, earlier ∉ total pending live.threads))
  | .markThreadStarted | .markThreadStopped | .unlock | .initializeLog | .beginLog
  | .signalClients _ | .ranging .. | .sending .. | .go _ | .endSession | .deactivate | .finalizeLog
  | .closeLog | .renameLog => inferInstanceAs (Decidable True)

/-- Whether a step meets the condition. -/
def admitted (live : LiveSession) : LiveAction → Bool
  | .run thread _ =>
      match live.threads[thread]? with
      | some (statement :: _) => decide (live.Relies statement)
      | _ => true
  | _ => true

theorem undisturbed_of_admitted (admits : live.admitted action = true) :
    live.Undisturbed action := by
  cases action with
  | run thread now =>
    intro statement rest here
    simp only [admitted, here] at admits
    exact of_decide_eq_true admits
  | stop | playSession | view => trivial

/-- A session without viewers, in the current folder. -/
def unseen (logged : LoggedSession) (threadCount : Int) (locked : Bool)
    (threads : List (List Statement)) : LiveSession where
  logged
  sessionFolder := lit "."
  threadCount
  locked
  threads

def stampedStop : SessionEvent :=
  { stopEvent with timeOffset := freshSession.getTimeOffset 0 }

/-- A client with one channel: it asks for a shell, gets a prompt and types a command. -/
def shellClient : ConnectedClient where
  startEvent := { clientHost := lit "10.0.0.7:50000" }
  clientChannels := [{
    channelType := lit "session"
    channelData := []
    channelID := 1
    opened := some {
      outgoingRequests := []
      incomingRequests := [{ requestType := lit "shell", requestPayload := [], requestID := 1 }]
      incoming := [{ stderr := false, bytesRead := 2, data := lit "$ " }]
      outgoing := [{ stderr := false, bytesRead := 3, data := lit "ls\n" }] } }]
  remoteChannels := []
  remoteRequests := []
  clientRequests := []

/-- The turns of its twelve threads, each with the number of its steps. -/
def shellTurns : List (Nat × Nat) := [(0, 8), (1, 2), (2, 6), (3, 3), (2, 1), (4, 10), (2, 2), (5, 2),
  (6, 4), (5, 2), (2, 1), (7, 2), (8, 4), (7, 2), (2, 4), (1, 2), (0, 1), (9, 3), (0, 1), (10, 3),
  (0, 1), (11, 3), (0, 13)]

/-- A client comes, works and goes; each thread ends, and the session with the last. -/
theorem undisturbed_agrees_shell : ∃ live,
    (runs Undisturbed (lit ".") freshSession ∅).Reachable live ∧
      (∀ thread ∈ live.threads, thread = []) ∧ live.events.length = 6 ∧ live.Agrees [] := by
  have start : (runs Undisturbed (lit ".") freshSession ∅).Reachable
      (loggedIn (lit ".") freshSession ∅ (some shellClient)) := .start ⟨rfl, rfl, _, rfl⟩
  have steps : ∀ live action next, admitted live action = true →
      live.perform action = some next →
        (runs Undisturbed (lit ".") freshSession ∅).step live action next :=
    fun _ _ _ admits done => ⟨undisturbed_of_admitted admits, done⟩
  obtain ⟨live, reached, shown⟩ := reachable_of_runAll admitted
    (shellTurns.flatMap fun (thread, steps) => List.replicate steps (.run thread 0))
    (fun live => live.threads.all List.isEmpty && live.events.length == 6) steps start
    (by decide +kernel)
  rw [Bool.and_eq_true, beq_iff_eq, List.all_eq_true] at shown
  have finished : ∀ thread ∈ live.threads, thread = [] := fun thread member =>
    List.isEmpty_iff.mp (shown.1 thread member)
  exact ⟨live, reached, finished, shown.2, undisturbed_agrees reached finished⟩

theorem renameLog_unwritten {logged : LoggedSession} {sessionFolder : Bytes}
    (unwritten : logged.files = ∅) : (logged.renameLog sessionFolder).files = ∅ := by
  unfold LoggedSession.renameLog
  split
  · simp [Files.rename, unwritten]
  · exact unwritten

/-- The proxy is stopped before the log of a client that has just logged in is opened: its stop
event is not logged. -/
theorem stopped_unlogged :
    ¬ ∀ (sessionFolder : Bytes) (session : SessionContext) (files : Files) (live : LiveSession),
      (runs (fun _ _ => True) sessionFolder session files).Reachable live →
        (∀ thread ∈ live.threads, thread = []) →
          live.Agrees ((files.lookup (logPath sessionFolder session.filename)).getD []) := by
  intro agrees
  let main : List Statement := [.markThreadStarted, .initializeLog, .markThreadStopped]
  let first : LoggedSession := { session := freshSession, files := ∅, path := [], isOpen := false }
  let stopped := recorded (inactive first)
  let renamed := stopped.renameLog (lit ".")
  let opened := renamed.openLog (lit ".")
  let begun := opened.appendToLog (lit "[\n")
  let ends : List Statement := [.signalClients .sessionEnd, .finalizeLog]
  have ended : Follows (runs (fun _ _ => True) (lit ".") freshSession ∅).step
      (loggedIn (lit ".") freshSession ∅ none) (.stop :: List.replicate 11 (.run 1 0))
      (unseen renamed 0 false [main, []]) :=
    ⟨unseen first 0 false [main, [.endSession]], ⟨trivial, rfl⟩,
      unseen first 0 false [main, [.deactivate]], ⟨trivial, rfl⟩,
      unseen (inactive first) 0 false [main, .handleEvent stopEvent :: ends], ⟨trivial, rfl⟩,
      unseen stopped 0 false [main, .logEvent 0 :: .signalClients .newMessage :: ends],
      ⟨trivial, rfl⟩,
      unseen stopped 0 false [main, .signalClients .newMessage :: ends], ⟨trivial, rfl⟩,
      unseen stopped 0 false [main, .ranging .newMessage {} 0 :: ends], ⟨trivial, rfl⟩,
      unseen stopped 0 false [main, ends], ⟨trivial, rfl⟩,
      unseen stopped 0 false [main, [.ranging .sessionEnd {} 0, .finalizeLog]], ⟨trivial, rfl⟩,
      unseen stopped 0 false [main, [.finalizeLog]], ⟨trivial, rfl⟩,
      unseen stopped 0 false [main, [.closeLog]], ⟨trivial, rfl⟩,
      unseen stopped 0 false [main, [.renameLog]], ⟨trivial, rfl⟩,
      unseen renamed 0 false [main, []], ⟨trivial, rfl⟩, rfl⟩
  have finished : Follows (runs (fun _ _ => True) (lit ".") freshSession ∅).step
      (unseen renamed 0 false [main, []]) (List.replicate 6 (.run 0 0))
      (unseen begun 0 false [[], []]) :=
    ⟨unseen renamed 1 false [[.initializeLog, .markThreadStopped], []], ⟨trivial, rfl⟩,
      unseen opened 1 false [[.beginLog, .markThreadStopped], []], ⟨trivial, rfl⟩,
      unseen begun 1 false [[.markThreadStopped], []], ⟨trivial, rfl⟩,
      unseen begun 0 true [[.endSession, .unlock], []], ⟨trivial, rfl⟩,
      unseen begun 0 true [[.unlock], []], ⟨trivial, rfl⟩,
      unseen begun 0 false [[], []], ⟨trivial, rfl⟩, rfl⟩
  have log := (agrees _ _ _ _ ((freshSession_reachable.follows ended).follows finished)
    (by simp [unseen])).log
  have unwritten : renamed.files = ∅ := renameLog_unwritten rfl
  let path := logPath (lit ".") renamed.session.filename
  have content : ((renamed.files.openAppend path).append path (lit "[\n")).lookup path =
      some (lit "[\n") := by
    rw [Files.lookup_append, Files.openAppend, Finmap.lookup_insert, unwritten]
    rfl
  have lengths := congrArg (Option.map List.length) (content.symm.trans log)
  simp [lit] at lengths
  exact absurd lengths.2 (by decide)

end LiveSession
end SSHProxyPlus
