import SSHProxyPlus.Replay.Shown

/-! The line breaks of a stream that comes in pieces: what the terminal makes of them depends on
where the stream is cut. -/
namespace SSHProxyPlus
open Go Browser

/-- Each line break, the two characters of one counted once, as the terminal takes it. -/
def breakLines : List Char → List Char
  | [] => []
  | '\r' :: '\n' :: text => '\r' :: '\n' :: breakLines text
  | c :: text => (if isNewline c then ['\r', '\n'] else [c]) ++ breakLines text

/-- The number of line breaks in a text of nothing else. -/
def lineBreaks : List Char → Nat
  | [] => 0
  | '\r' :: '\n' :: text => lineBreaks text + 1
  | _ :: text => lineBreaks text + 1

/-- The characters of a piece, the first of them marked. -/
def markFirst : List Char → List (Char × Bool)
  | [] => []
  | c :: text => (c, true) :: text.map fun d => (d, false)

/-- A stream in pieces: its characters, those marked with which a piece begins. -/
def markChunks (chunks : List (List Char)) : List (Char × Bool) := chunks.flatMap markFirst

/-- The maximal runs of line break characters, also the empty ones between other characters. -/
def newlineRuns (chunks : List (List Char)) : List (List (Char × Bool)) :=
  (markChunks chunks).splitOnP fun item => !isNewline item.1

/-- The number of pieces that have a part of a run. -/
def pieces : List (Char × Bool) → Nat
  | [] => 0
  | _ :: rest => rest.countP (·.2) + 1

/-- In each run there are as many line breaks as pieces. -/
def EvenlyCut (chunks : List (List Char)) : Prop :=
  ∀ run ∈ newlineRuns chunks, pieces run = lineBreaks (run.map Prod.fst)

instance (chunks : List (List Char)) : Decidable (EvenlyCut chunks) :=
  inferInstanceAs (Decidable (∀ run ∈ newlineRuns chunks, _))

def crlf (n : Nat) : List Char := (List.replicate n ['\r', '\n']).flatten

theorem crlf_succ (n : Nat) : crlf (n + 1) = '\r' :: '\n' :: crlf n := rfl

/-- What a page writes for a stream in pieces; `inside` a run of its piece nothing is added. -/
def emit : Bool → List (Char × Bool) → List Char
  | _, [] => []
  | inside, (c, start) :: rest =>
      if isNewline c then (if inside && !start then [] else ['\r', '\n']) ++ emit true rest
      else c :: emit false rest

section Emit
variable {c : Char} {text : List Char} {chunks : List (List Char)} {rest : List (Char × Bool)}

theorem isNewline_iff : isNewline c = true ↔ c = '\r' ∨ c = '\n' := by
  simp [isNewline]

theorem normalize_emit (inside : Bool) (text : List Char) (rest : List (Char × Bool)) :
    ∃ after, emit inside (text.map (fun c => (c, false)) ++ rest) =
      expandNewlines (collapseNewlines inside text) ++ emit after rest := by
  induction text generalizing inside with
  | nil => exact ⟨inside, rfl⟩
  | cons c text ih =>
    rw [List.map_cons, List.cons_append, emit, collapseNewlines]
    split
    · next newline =>
      obtain ⟨after, same⟩ := ih true
      refine ⟨after, ?_⟩
      rw [same]
      cases inside with
      | true => rfl
      | false => exact (List.append_assoc _ _ _).symm
    · next plain =>
      obtain ⟨after, same⟩ := ih false
      refine ⟨after, ?_⟩
      have kept : c ≠ '\n' := fun feed => plain (isNewline_iff.mpr (.inr feed))
      rw [same, expandNewlines, expandNewlines, List.flatMap_cons, if_neg kept]
      rfl

/-- At the beginning of a piece it does not matter what came before. -/
theorem emit_markChunks (inside : Bool) (chunks : List (List Char)) :
    emit inside (markChunks chunks) = emit false (markChunks chunks) := by
  induction chunks with
  | nil => rfl
  | cons chunk chunks ih =>
    cases chunk with
    | nil => exact ih
    | cons c text =>
      change emit inside ((c, true) :: _) = emit false ((c, true) :: _)
      rw [emit, emit, Bool.not_true, Bool.and_false, Bool.and_false]

theorem normalizeNewlines_markChunks (chunks : List (List Char)) :
    chunks.flatMap normalizeNewlines = emit false (markChunks chunks) := by
  induction chunks with
  | nil => rfl
  | cons chunk chunks ih =>
    have split : markChunks (chunk :: chunks) = markFirst chunk ++ markChunks chunks :=
      List.flatMap_cons
    rw [List.flatMap_cons, ih, split]
    cases chunk with
    | nil => rfl
    | cons c text =>
      obtain ⟨after, same⟩ := normalize_emit false (c :: text) (markChunks chunks)
      rw [emit_markChunks] at same
      refine same.symm.trans ?_
      rw [List.map_cons, List.cons_append, markFirst, List.cons_append, emit, emit]
      rfl

/-- A run is written as one line break for each piece. -/
theorem emit_run {run : List (Char × Bool)} (newlines : ∀ item ∈ run, isNewline item.1 = true)
    (after : ∀ inside, emit inside rest = emit false rest) :
    emit true (run ++ rest) = crlf (run.countP (·.2)) ++ emit false rest := by
  induction run with
  | nil => exact after true
  | cons item run ih =>
    obtain ⟨first, others⟩ := List.forall_mem_cons.mp newlines
    obtain ⟨c, start⟩ := item
    rw [List.cons_append, emit, if_pos first, ih others]
    cases start with
    | true => rw [List.countP_cons_of_pos rfl, crlf_succ]; rfl
    | false => rw [List.countP_cons_of_neg Bool.false_ne_true]; rfl

theorem emit_pieces {run : List (Char × Bool)} (newlines : ∀ item ∈ run, isNewline item.1 = true)
    (after : ∀ inside, emit inside rest = emit false rest) :
    emit false (run ++ rest) = crlf (pieces run) ++ emit false rest := by
  cases run with
  | nil => rfl
  | cons item run =>
    obtain ⟨first, others⟩ := List.forall_mem_cons.mp newlines
    obtain ⟨c, start⟩ := item
    rw [List.cons_append, emit, if_pos first, emit_run others after, pieces, crlf_succ]
    rfl

/-- A run holds its line breaks, as no other character completes one. -/
theorem breakLines_run {run text : List Char} (newlines : ∀ c ∈ run, isNewline c = true)
    (after : ∀ c, text.head? = some c → isNewline c = false) :
    breakLines (run ++ text) = crlf (lineBreaks run) ++ breakLines text := by
  fun_induction lineBreaks run with
  | case1 => rfl
  | case2 run ih =>
    have later := ih fun c member => newlines c (List.mem_cons_of_mem _ (List.mem_cons_of_mem _ member))
    rw [crlf_succ, List.cons_append, List.cons_append, breakLines, later]
    rfl
  | case3 c run other ih =>
    obtain ⟨first, others⟩ := List.forall_mem_cons.mp newlines
    have single : ∀ rest, c = '\r' → run ++ text ≠ '\n' :: rest := by
      rintro rest rfl completed
      cases run with
      | nil =>
        have head := after '\n' (by rw [show text = '\n' :: rest from completed]; rfl)
        exact absurd head (by decide)
      | cons d run =>
        obtain ⟨rfl, -⟩ := List.cons.inj completed
        exact other run rfl rfl
    rw [List.cons_append, breakLines.eq_3 _ _ single, if_pos first, ih others, crlf_succ]
    rfl

theorem crlf_injective : Function.Injective crlf := by
  intro n m same
  have lengths := congrArg List.length same
  simpa [crlf] using lengths

/-- Line breaks before a character that is none, as many on both sides. -/
theorem crlf_cons_inj {n m : Nat} {first second : List Char} (plain : isNewline c = false) :
    crlf n ++ c :: first = crlf m ++ c :: second ↔ n = m ∧ first = second := by
  have other : '\r' ≠ c := by
    rintro rfl
    exact absurd plain (by decide)
  induction n generalizing m with
  | zero =>
    cases m with
    | zero => exact (List.cons_inj_right c).trans (by simp)
    | succ m => exact iff_of_false (fun same => other (List.cons.inj same).1.symm) (by simp)
  | succ n ih =>
    cases m with
    | zero => exact iff_of_false (fun same => other (List.cons.inj same).1) (by simp)
    | succ m =>
      simp only [crlf_succ, List.cons_append, List.cons_inj_right, ih, Nat.succ_inj]

/-- The two texts agree run by run. -/
theorem emit_eq_breakLines_iff (items : List (Char × Bool)) :
    emit false items = breakLines (items.map Prod.fst) ↔
      ∀ run ∈ items.splitOnP (fun item => !isNewline item.1),
        pieces run = lineBreaks (run.map Prod.fst) := by
  have within : ∀ run : List (Char × Bool), (∀ item ∈ run, (!isNewline item.1) = false) →
      (∀ item ∈ run, isNewline item.1 = true) ∧ ∀ c ∈ run.map Prod.fst, isNewline c = true := by
    intro run separators
    have newlines : ∀ item ∈ run, isNewline item.1 = true := fun item member =>
      (Bool.not_eq_false' _).mp (separators item member)
    refine ⟨newlines, fun c member => ?_⟩
    obtain ⟨item, there, rfl⟩ := List.mem_map.mp member
    exact newlines item there
  induction size : items.length using Nat.strong_induction_on generalizing items with
  | _ length ih =>
  cases first : items.find? (fun item => !isNewline item.1) with
  | none =>
    have separators : ∀ item ∈ items, (!isNewline item.1) = false := fun item member =>
      Bool.not_eq_true _ ▸ List.find?_eq_none.mp first item member
    obtain ⟨newlines, all⟩ := within items separators
    have written := emit_pieces newlines fun inside => (rfl : emit inside [] = emit false [])
    have whole := breakLines_run all (fun c head => by contradiction : ∀ c, [].head? = some c → _)
    rw [List.append_nil] at written whole
    rw [written, whole, List.splitOnP_eq_singleton separators, List.forall_mem_singleton]
    exact (List.append_left_inj _).trans crlf_injective.eq_iff
  | some item =>
    obtain ⟨plain, run, rest, rfl, before⟩ := List.find?_eq_some_iff_append.mp first
    have separators : ∀ item ∈ run, (!isNewline item.1) = false := fun item member =>
      (Bool.not_eq_true' _).mp (before item member)
    obtain ⟨newlines, all⟩ := within run separators
    obtain ⟨c, start⟩ := item
    have other : isNewline c = false := (Bool.not_eq_true' _).mp plain
    have ends : ∀ inside, emit inside ((c, start) :: rest) = c :: emit false rest := fun inside => by
      rw [emit, if_neg (other ▸ Bool.false_ne_true)]
    have written := emit_pieces newlines fun inside => (ends inside).trans (ends false).symm
    have single : breakLines (c :: rest.map Prod.fst) = c :: breakLines (rest.map Prod.fst) := by
      rw [breakLines.eq_3 _ _ fun _ same => by rw [same] at other; contradiction,
        if_neg (other ▸ Bool.false_ne_true)]
      rfl
    have whole := breakLines_run all
      (fun d head => Option.some.inj head ▸ other :
        ∀ d, (c :: rest.map Prod.fst).head? = some d → isNewline d = false)
    have later := ih rest.length (by simp only [← size, List.length_append, List.length_cons]; omega)
      rest rfl
    rw [written, ends, List.map_append, List.map_cons, whole, single, crlf_cons_inj other,
      List.splitOnP_append_cons_of_forall_mem separators _ plain, List.forall_mem_cons]
    exact and_congr_right fun _ => later

theorem markChunks_chars (chunks : List (List Char)) :
    (markChunks chunks).map Prod.fst = chunks.flatten := by
  induction chunks with
  | nil => rfl
  | cons chunk chunks ih =>
    have split : markChunks (chunk :: chunks) = markFirst chunk ++ markChunks chunks :=
      List.flatMap_cons
    rw [split, List.map_append, ih, List.flatten_cons]
    cases chunk with
    | nil => rfl
    | cons c text => simp [markFirst, Function.comp_def]

/-- The pieces of a stream are written as the stream with its line breaks exactly where each run
of them holds as many as there are pieces that have a part of it. -/
theorem normalizeNewlines_iff (chunks : List (List Char)) :
    chunks.flatMap normalizeNewlines = breakLines chunks.flatten ↔ EvenlyCut chunks := by
  rw [normalizeNewlines_markChunks, ← markChunks_chars]
  exact emit_eq_breakLines_iff (markChunks chunks)

end Emit

/-- The text of an incoming message. -/
def TerminalEvent.chunk (event : TerminalEvent) : Option (List Char) :=
  if event.incoming then atobProperty (event.get "data") else none

theorem TerminalEvent.rendered_chunks (events : List TerminalEvent) :
    events.flatMap TerminalEvent.rendered =
      (events.filterMap TerminalEvent.chunk).flatMap normalizeNewlines := by
  induction events with
  | nil => rfl
  | cons event events ih =>
    rw [List.flatMap_cons, ih, TerminalEvent.rendered]
    cases message : event.incoming with
    | false =>
      have none' : event.chunk = none := if_neg (message ▸ Bool.false_ne_true)
      rw [List.filterMap_cons_none none', if_neg Bool.false_ne_true, List.nil_append]
    | true =>
      have same : event.chunk = atobProperty (event.get "data") := if_pos message
      rw [if_pos rfl]
      cases decoded : atobProperty (event.get "data") with
      | none => rw [List.filterMap_cons_none (same.trans decoded)]; rfl
      | some text => rw [List.filterMap_cons_some (same.trans decoded)]; rfl

namespace TerminalReader

/-- The pieces of the stream in the events that were played. -/
def chunksPlayed (reader : TerminalReader) : List (List Char) :=
  (reader.events.take reader.eventIndex).filterMap TerminalEvent.chunk

/-- Whatever is done to a reader, the terminal has the stream with its line breaks, and nothing
else, exactly if the pieces are cut evenly. -/
theorem performAll_lines_iff (ignoreResize : Bool) (operations : List ReaderOperation)
    (decodable : ∀ events, .loadEvents events ∈ operations → ∀ event ∈ events, event.Decodable) :
    (performAll { ignoreResize } operations).terminal.flatten =
        breakLines (performAll { ignoreResize } operations).chunksPlayed.flatten ↔
      EvenlyCut (performAll { ignoreResize } operations).chunksPlayed := by
  rw [(performAll_shows ignoreResize operations decodable).1, TerminalEvent.rendered_chunks]
  exact normalizeNewlines_iff _

variable {reader : TerminalReader} {event : TerminalEvent} {text : List Char}

theorem chunk_incoming (message : event.chunk = some text) :
    event.incoming = true ∧ atobProperty (event.get "data") = some text := by
  unfold TerminalEvent.chunk at message
  split at message
  · next incoming => exact ⟨incoming, message⟩
  · contradiction

/-- An incoming message is played as it is. -/
theorem chunk_played (message : event.chunk = some text) :
    event.Decodable ∧ event.played = event := by
  obtain ⟨incoming, decoded⟩ := chunk_incoming message
  have kind := ((Bool.and_eq_true _ _).mp incoming).1
  have start := TerminalEvent.kind_unique kind
    (show "new-message".toList ≠ "session-start".toList by decide)
  have resized := TerminalEvent.kind_unique kind
    (show "new-message".toList ≠ "window-resize".toList by decide)
  have request := TerminalEvent.kind_unique kind
    (show "new-message".toList ≠ "new-request".toList by decide)
  have direct : ¬ event.updatesSession := by
    rw [TerminalEvent.updatesSession, start, resized]
    exact Bool.false_ne_true
  refine ⟨⟨fun _ missing => ?_, fun exec => ?_⟩, if_neg direct⟩
  · rw [decoded] at missing
    contradiction
  · rw [TerminalEvent.execRequest, request] at exec
    contradiction

/-- A turn of the player on an incoming message. -/
theorem processNextEvent_message (playing : reader.paused = false)
    (found : reader.events[reader.eventIndex]? = some event) (message : event.chunk = some text) :
    ∃ after, reader.processNextEvent = .ok after ∧ after.events = reader.events ∧
      after.eventIndex = reader.eventIndex + 1 ∧ after.paused = false := by
  obtain ⟨decodable, same⟩ := chunk_played message
  obtain ⟨within, here⟩ := List.getElem?_eq_some_iff.mp found
  rw [processNextEvent_playing playing found, if_pos decodable, writeBuffers_eq _ (· + 1)]
  refine ⟨_, rfl, ?_, rfl, playing⟩
  change reader.events.set reader.eventIndex event.played = reader.events
  rw [same, ← here]
  exact List.set_getElem_self within

/-- Turn by turn the messages are played to the end. -/
theorem processAll_messages (reader : TerminalReader) {chunks : List (List Char)}
    (playing : reader.paused = false)
    (messages : (reader.events.drop reader.eventIndex).map TerminalEvent.chunk = chunks.map some) :
    let after := reader.performAll (List.replicate chunks.length .processNextEvent)
    after.events = reader.events ∧ after.eventIndex = reader.eventIndex + chunks.length := by
  induction chunks generalizing reader with
  | nil => exact ⟨rfl, rfl⟩
  | cons text chunks ih =>
    cases left : reader.events.drop reader.eventIndex with
    | nil =>
      rw [left] at messages
      contradiction
    | cons event rest =>
      rw [left, List.map_cons, List.map_cons] at messages
      obtain ⟨message, others⟩ := List.cons.inj messages
      have found : reader.events[reader.eventIndex]? = some event := by
        rw [← List.head?_drop, left, List.head?_cons]
      obtain ⟨after, processed, events, index, still⟩ :=
        processNextEvent_message playing found message
      have remaining : after.events.drop after.eventIndex = rest := by
        rw [events, index, ← List.drop_drop, left, List.drop_one, List.tail_cons]
      have run := ih after still (remaining.symm ▸ others)
      have first : reader.performAll (List.replicate (chunks.length + 1) .processNextEvent) =
          after.performAll (List.replicate chunks.length .processNextEvent) := by
        rw [List.replicate_succ, TerminalReader.performAll, List.foldl_cons,
          show reader.perform .processNextEvent = .ok after from processed]
        rfl
      rw [List.length_cons, first]
      exact ⟨run.1.trans events, by rw [run.2, index]; omega⟩

/-- The messages are loaded and played to the end. -/
def playThrough (ignoreResize : Bool) (events : List TerminalEvent) : TerminalReader :=
  performAll { ignoreResize }
    (.loadEvents events :: .play :: List.replicate events.length .processNextEvent)

theorem playThrough_chunks {events : List TerminalEvent} {chunks : List (List Char)}
    (messages : events.map TerminalEvent.chunk = chunks.map some) (ignoreResize : Bool) :
    (playThrough ignoreResize events).chunksPlayed = chunks := by
  have size : events.length = chunks.length := by simpa using congrArg List.length messages
  obtain ⟨same, index⟩ := processAll_messages { ignoreResize, events, paused := false }
    rfl messages
  have start : playThrough ignoreResize events =
      performAll { ignoreResize, events, paused := false }
        (List.replicate chunks.length .processNextEvent) := by
    rw [playThrough, size]
    rfl
  rw [start, chunksPlayed, same, index]
  change (events.take (0 + chunks.length)).filterMap TerminalEvent.chunk = chunks
  have decoded := congrArg (List.filterMap id) messages
  rw [List.filterMap_map, List.filterMap_map] at decoded
  rw [Nat.zero_add, ← size, List.take_length]
  exact decoded.trans List.filterMap_some

/-- Messages that are played to the end give the stream with its line breaks, and nothing else,
exactly if the stream is cut evenly; and so do those that were played after whatever else was
done to the reader. -/
theorem streamed_lines_iff (ignoreResize : Bool) {events : List TerminalEvent}
    {chunks : List (List Char)} (messages : events.map TerminalEvent.chunk = chunks.map some) :
    ((playThrough ignoreResize events).terminal.flatten = breakLines chunks.flatten ↔
        EvenlyCut chunks) ∧
      ∀ operations : List ReaderOperation,
        (∀ loaded, .loadEvents loaded ∈ operations → ∀ event ∈ loaded, event.Decodable) →
        let reader := performAll { ignoreResize } operations
        (reader.terminal.flatten = breakLines reader.chunksPlayed.flatten ↔
          EvenlyCut reader.chunksPlayed) := by
  refine ⟨?_, fun operations decodable => performAll_lines_iff ignoreResize operations decodable⟩
  have whole : ∀ event ∈ events, event.Decodable := by
    intro event member
    have among := messages ▸ List.mem_map_of_mem (f := TerminalEvent.chunk) member
    obtain ⟨text, -, message⟩ := List.mem_map.mp among
    exact (chunk_played message.symm).1
  have played := playThrough_chunks messages ignoreResize
  have lines := performAll_lines_iff ignoreResize
    (.loadEvents events :: .play :: List.replicate events.length .processNextEvent)
    fun loaded member => by
      have same : loaded = events := by simpa using member
      exact same ▸ whole
  rwa [← playThrough, played] at lines

end TerminalReader

/-- A greeting with a line break of either kind. -/
def greetingEvents : List TerminalEvent :=
  ["aGkNCg==", "YnkN", "ZQ=="].map fun data =>
    ((Object.empty.set "type" (.text "new-message".toList)).set "direction"
      (.text "incoming".toList)).set "data" (.text data.toList)

def greetingChunks : List (List Char) :=
  ["hi\r\n".toList, "by\r".toList, "e".toList]

theorem streamed_lines_greeting :
    (TerminalReader.playThrough true greetingEvents).terminal.flatten =
      "hi\r\nby\r\ne".toList := by
  have messages : greetingEvents.map TerminalEvent.chunk = greetingChunks.map some := by decide
  exact (TerminalReader.streamed_lines_iff true messages).1.mpr (by decide)

/-- Two line feeds in one message: the blank line is lost. -/
theorem blank_line_lost :
    ¬ ∀ (ignoreResize : Bool) (events : List TerminalEvent) (chunks : List (List Char)),
      events.map TerminalEvent.chunk = chunks.map some →
        (TerminalReader.playThrough ignoreResize events).terminal.flatten =
          breakLines chunks.flatten := by
  intro whole
  have messages : [lineFeedsEvent].map TerminalEvent.chunk = [['\n', '\n']].map some := by decide
  exact absurd (whole false [lineFeedsEvent] [['\n', '\n']] messages) (by decide)

end SSHProxyPlus
