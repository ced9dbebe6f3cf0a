import SSHProxyPlus.Go.Concat
import SSHProxyPlus.Session.Channel
import SSHProxyPlus.Session.Context
import SSHProxyPlus.Transition.Sequential

/-! The record of one stream of a channel. Every read leaves it to a goroutine to record what was
read, and the goroutines get to run in any order. -/
namespace SSHProxyPlus
open Go Transition

/-- What a read delivers, and how much of it the writer takes before it fails, where it does. -/
structure Transfer extends Delivery where
  short : Option Nat := none

/-- What `io.Copy` does next. -/
inductive CopyStep where
  | reading
  | writing (result : ReadResult) (short : Option Nat)
  | done

/-- A stream that is being copied, with the goroutines that are to record its events. The
events are those of the session, each with whether this stream's goroutines appended it. -/
structure StreamCopy where
  transfers : List Transfer
  buff : Bytes
  step : CopyStep := .reading
  forwarded : Bytes := []
  goroutines : List SessionEvent := []
  events : List (SessionEvent × Bool)

inductive CopyAction where
  | read
  | write
  | append (index : Nat) (now : Time)
  | other (event : SessionEvent)

namespace StreamCopy
variable (session : SessionContext) (channel : ChannelWrapper) (user : ProxyUser)
  (fn : FilterRef → Bytes → Bytes)

/-- A `Write` that does not take all, or comes with an error, ends the copying like an error of
the reader. -/
def perform (copy : StreamCopy) : CopyAction → Option StreamCopy
  | .read =>
      match copy.step, copy.transfers with
      | .reading, transfer :: transfers =>
          let result := channel.read user fn copy.buff transfer.toDelivery
          some { copy with
            transfers
            buff := result.buff
            step := .writing result transfer.short
            goroutines := copy.goroutines ++ result.event.toList }
      | _, _ => none
  | .write =>
      match copy.step with
      | .writing result short =>
          some { copy with
            forwarded := copy.forwarded ++ result.handed.take (short.getD result.bytesRead)
            step := if result.err.isSome || 0 < result.bytesRead && short.isSome then .done
              else .reading }
      | _ => none
  | .append index now =>
      copy.goroutines[index]?.map fun event =>
        { copy with
          goroutines := copy.goroutines.eraseIdx index
          events := copy.events ++ [({ event with timeOffset := session.getTimeOffset now }, true)] }
  | .other event => some { copy with events := copy.events ++ [(event, false)] }

/-- The recorded data of the stream, in the order of the session's events. -/
def transcript (copy : StreamCopy) : Bytes :=
  ((copy.events.filter Prod.snd).map fun entry => entry.1.data).flatten

/-- Copying has not begun. -/
def start (buff : Bytes) (transfers : List Transfer) (events : List SessionEvent) : StreamCopy where
  transfers
  buff
  events := events.map fun event => (event, false)

/-- Every goroutine has finished, and what was read has been written. -/
def Settled (copy : StreamCopy) : Prop :=
  copy.goroutines = [] ∧ (copy.step = .reading ∨ copy.step = .done)

/-- In whatever order the goroutines run, the transcript is the traffic. -/
def Transcribes (buff : Bytes) (transfers : List Transfer) : Prop :=
  ∀ events actions final,
    Follows (fun copy action next => copy.perform session channel user fn action = some next)
      (start buff transfers events) actions final →
    final.Settled → final.transcript = final.forwarded

end StreamCopy

namespace Transfer

/-- Nothing is read after this. -/
def last (transfer : Transfer) : Bool :=
  transfer.err.isSome || 0 < transfer.data.length && transfer.short.isSome

def forwarded (transfer : Transfer) : Bytes :=
  transfer.data.take (transfer.short.getD transfer.data.length)

/-- The chunk that is recorded: nothing is where the read came with an error. -/
def chunk (transfer : Transfer) : Option Bytes :=
  if transfer.err.isNone then some transfer.data else none

/-- The transfers up to the last. -/
def carried : List Transfer → List Transfer
  | [] => []
  | transfer :: transfers => transfer :: if transfer.last then [] else carried transfers

/-- What is read is recorded, what is recorded is written, and the order does not matter. -/
structure Faithful (transfers : List Transfer) : Prop where
  written : ∀ transfer ∈ carried transfers, transfer.forwarded = transfer.chunk.getD []
  commuting : ((carried transfers).filterMap chunk).Pairwise Commuting

end Transfer
namespace StreamCopy
variable {session : SessionContext} {channel : ChannelWrapper} {user : ProxyUser}
  {fn : FilterRef → Bytes → Bytes} {transfers : List Transfer} {copy next : StreamCopy}

/-- The data of the stream's events so far. -/
def recorded (copy : StreamCopy) : List Bytes :=
  (copy.events.filter Prod.snd).map fun entry => entry.1.data

/-- Which transfer is under way, and which are still to come. -/
def Stage (copy : StreamCopy) (current rest : List Transfer) : Prop :=
  match copy.step with
  | .reading => current = [] ∧ rest = Transfer.carried copy.transfers
  | .writing result short => ∃ transfer : Transfer, current = [transfer] ∧
      rest = (if transfer.last then [] else Transfer.carried copy.transfers) ∧
      result.handed = transfer.data ∧ result.bytesRead = transfer.data.length ∧
      result.err = transfer.err ∧ short = transfer.short
  | .done => current = [] ∧ rest = []

/-- What has become of the transfers. -/
structure Copied (transfers : List Transfer) (copy : StreamCopy)
    (past current rest : List Transfer) : Prop where
  stage : copy.Stage current rest
  carried : Transfer.carried transfers = past ++ current ++ rest
  forwarded : copy.forwarded = (past.map Transfer.forwarded).flatten
  chunks : (copy.recorded ++ copy.goroutines.map SessionEvent.data).Perm
    ((past ++ current).filterMap Transfer.chunk)

theorem read_bytes (buff : Bytes) (delivery : Delivery) :
    (channel.read user fn buff delivery).bytesRead = delivery.data.length := by
  unfold ChannelWrapper.read
  split <;> rfl

/-- Without filters, a goroutine is left with the chunk. -/
theorem read_event (noFilters : user.channelFilters = []) (buff : Bytes) (transfer : Transfer) :
    (channel.read user fn buff transfer.toDelivery).event.map SessionEvent.data =
      transfer.chunk := by
  unfold ChannelWrapper.read Transfer.chunk
  cases transfer.err with
  | some err => rfl
  | none => simp [ProxyUser.runFilters, noFilters]

theorem carried_cons (transfer : Transfer) (transfers : List Transfer) :
    Transfer.carried (transfer :: transfers) =
      transfer :: if transfer.last then [] else Transfer.carried transfers := rfl

theorem toList_map {α β : Type} (f : α → β) (a : Option α) : a.toList.map f = (a.map f).toList := by
  cases a <;> rfl

theorem filterMap_singleton {α β : Type} (f : α → Option β) (a : α) :
    [a].filterMap f = (f a).toList := by
  cases found : f a <;> simp [found]

/-- One step keeps account of the transfers. -/
theorem Copied.perform {action : CopyAction} {past current rest : List Transfer}
    (noFilters : user.channelFilters = []) (copied : Copied transfers copy past current rest)
    (performed : copy.perform session channel user fn action = some next) :
    ∃ past current rest, Copied transfers next past current rest := by
  obtain ⟨stage, carried, forwarded, chunks⟩ := copied
  unfold StreamCopy.perform at performed
  unfold Stage at stage
  cases action with
  | read =>
    dsimp only at performed
    split at performed
    · next transfer transfers' reading left =>
      rw [reading, left] at stage
      obtain ⟨rfl, rfl⟩ := stage
      obtain rfl := Option.some.inj performed
      refine ⟨past, [transfer], _, ⟨transfer, rfl, rfl, ChannelWrapper.read_handed _ _,
        read_bytes _ _, ChannelWrapper.read_err _ _, rfl⟩, ?_, forwarded, ?_⟩
      · rw [carried, carried_cons, List.append_nil, List.append_assoc]
        rfl
      · rw [List.append_nil] at chunks
        have grown := chunks.append_right transfer.chunk.toList
        rw [List.filterMap_append, filterMap_singleton, List.map_append, toList_map,
          read_event noFilters, ← List.append_assoc]
        exact grown
    · contradiction
  | write =>
    dsimp only at performed
    split at performed
    · next result short writing =>
      rw [writing] at stage
      obtain ⟨transfer, rfl, rfl, handed, bytesRead, err, rfl⟩ := stage
      obtain rfl := Option.some.inj performed
      have last : (result.err.isSome || 0 < result.bytesRead && transfer.short.isSome) =
          transfer.last := by
        rw [err, bytesRead]
        rfl
      refine ⟨past ++ [transfer], [], if transfer.last then [] else Transfer.carried copy.transfers,
        ?_, ?_, ?_, ?_⟩
      · simp only [Stage, last]
        cases transfer.last with
        | true => exact ⟨trivial, rfl⟩
        | false => exact ⟨trivial, rfl⟩
      · rw [carried, List.append_nil]
      · rw [forwarded, handed, bytesRead]
        simp [Transfer.forwarded]
      · rw [List.append_nil]
        exact chunks
    · contradiction
  | append index now =>
    obtain ⟨event, waits, rfl⟩ := Option.map_eq_some_iff.mp performed
    refine ⟨past, current, rest, stage, carried, forwarded, .trans ?_ chunks⟩
    obtain ⟨within, here⟩ := List.getElem?_eq_some_iff.mp waits
    have erased := (List.getElem_cons_eraseIdx_perm within).map SessionEvent.data
    rw [here, List.map_cons] at erased
    simp only [recorded, List.filter_append, List.map_append]
    rw [List.append_assoc]
    exact erased.append_left _
  | other event =>
    obtain rfl := Option.some.inj performed
    refine ⟨past, current, rest, stage, carried, forwarded, ?_⟩
    simpa [recorded, List.filter_append] using chunks

theorem Copied.follows {actions : List CopyAction} {past current rest : List Transfer}
    (noFilters : user.channelFilters = []) (copied : Copied transfers copy past current rest)
    (follows : Follows (fun copy action next =>
      copy.perform session channel user fn action = some next) copy actions next) :
    ∃ past current rest, Copied transfers next past current rest := by
  induction actions generalizing copy past current rest with
  | nil => exact ⟨past, current, rest, follows ▸ copied⟩
  | cons action actions ih =>
    obtain ⟨mid, performed, later⟩ := follows
    obtain ⟨_, _, _, still⟩ := copied.perform noFilters performed
    exact ih still later

theorem copied_start (buff : Bytes) (transfers : List Transfer) (events : List SessionEvent) :
    Copied transfers (start buff transfers events) [] [] (Transfer.carried transfers) := by
  refine ⟨⟨rfl, rfl⟩, rfl, rfl, ?_⟩
  have others : ((events.map fun event => (event, false)).filter Prod.snd) = [] := by simp
  simp [recorded, start, others]

/-- Once no goroutine is left, the record has the chunks of the transfers that are over. -/
theorem Copied.recorded_perm {past current rest : List Transfer}
    (copied : Copied transfers copy past current rest) (settled : copy.Settled) :
    current = [] ∧ copy.recorded.Perm (past.filterMap Transfer.chunk) := by
  obtain ⟨stage, -, -, chunks⟩ := copied
  obtain ⟨finished, step⟩ := settled
  have idle : current = [] := by
    unfold Stage at stage
    obtain step | step := step <;> rw [step] at stage <;> exact stage.1
  rw [finished, idle] at chunks
  simp only [List.map_nil, List.append_nil] at chunks
  exact ⟨idle, chunks⟩

end StreamCopy

namespace Transfer

theorem forwarded_eq_chunks {transfers : List Transfer}
    (written : ∀ transfer ∈ transfers, transfer.forwarded = transfer.chunk.getD []) :
    (transfers.map forwarded).flatten = (transfers.filterMap chunk).flatten := by
  induction transfers with
  | nil => rfl
  | cons transfer transfers ih =>
    obtain ⟨here, later⟩ := List.forall_mem_cons.mp written
    rw [List.map_cons, List.flatten_cons, here, ih later]
    cases shown : transfer.chunk <;> simp [shown]

/-- Only the last transfer can differ from its chunk, so that the sums tell. -/
theorem written_of_flatten {transfers : List Transfer}
    (same : ((carried transfers).filterMap chunk).flatten =
      ((carried transfers).map forwarded).flatten) :
    ∀ transfer ∈ carried transfers, transfer.forwarded = transfer.chunk.getD [] := by
  induction transfers with
  | nil => exact fun transfer none => absurd none List.not_mem_nil
  | cons transfer transfers ih =>
    rw [carried] at same ⊢
    cases ends : transfer.last with
    | true =>
      rw [ends] at same
      refine List.forall_mem_cons.mpr ⟨?_, fun _ none => absurd none List.not_mem_nil⟩
      rw [List.filterMap_cons, List.map_cons, List.flatten_cons] at same
      cases shown : transfer.chunk <;> rw [shown] at same
      · simpa using same.symm
      · simpa using same.symm
    | false =>
      rw [ends] at same
      have clean : transfer.err = none := by
        cases failed : transfer.err <;> simp [last, failed] at ends ⊢
      have whole : transfer.forwarded = transfer.data := by
        cases cut : transfer.short with
        | none => simp [forwarded, cut]
        | some taken =>
          have empty : transfer.data = [] := by simpa [last, clean, cut] using ends
          simp [forwarded, empty]
      have shown : transfer.chunk = some transfer.data := by simp [chunk, clean]
      refine List.forall_mem_cons.mpr ⟨by rw [whole, shown]; rfl, ih ?_⟩
      simpa [shown, whole] using same

end Transfer

namespace StreamCopy
variable {session : SessionContext} {channel : ChannelWrapper} {user : ProxyUser}
  {fn : FilterRef → Bytes → Bytes} {transfers : List Transfer} {copy next : StreamCopy}

/-- All is read and written before any goroutine runs. -/
theorem reads_all (copy : StreamCopy) (reading : copy.step = .reading) : ∃ actions next,
    Follows (fun copy action next => copy.perform session channel user fn action = some next)
      copy actions next ∧ next.events = copy.events ∧
      (next.step = .done ∨ next.step = .reading ∧ next.transfers = []) := by
  generalize left : copy.transfers = transfers
  induction transfers generalizing copy with
  | nil => exact ⟨[], copy, rfl, rfl, .inr ⟨reading, left⟩⟩
  | cons transfer transfers ih =>
    have reads : ∃ mid, copy.perform session channel user fn .read = some mid ∧
        mid.step = .writing (channel.read user fn copy.buff transfer.toDelivery) transfer.short ∧
        mid.transfers = transfers ∧ mid.events = copy.events := by
      simp [perform, reading, left]
    obtain ⟨mid, read, writing, left, events⟩ := reads
    have writes : ∃ next, mid.perform session channel user fn .write = some next ∧
        (next.step = .done ∨ next.step = .reading) ∧
        next.transfers = transfers ∧ next.events = copy.events := by
      simp only [perform, writing, Option.some.injEq, exists_eq_left', left, events, and_true]
      split
      · exact .inl rfl
      · exact .inr rfl
    obtain ⟨next, write, ended | again, left, events⟩ := writes
    · exact ⟨[.read, .write], next, ⟨mid, read, next, write, rfl⟩, events, .inl ended⟩
    · obtain ⟨actions, final, follows, same, ended⟩ := ih next again left
      exact ⟨.read :: .write :: actions, final, ⟨mid, read, next, write, follows⟩,
        same.trans events, ended⟩

/-- The goroutines can run in any order. -/
theorem appends_all {strings : List Bytes} (copy : StreamCopy)
    (same : (copy.goroutines.map SessionEvent.data).Perm strings) : ∃ actions next,
    Follows (fun copy action next => copy.perform session channel user fn action = some next)
      copy actions next ∧ next.goroutines = [] ∧ next.step = copy.step ∧
      next.forwarded = copy.forwarded ∧ next.recorded = copy.recorded ++ strings := by
  induction strings generalizing copy with
  | nil =>
    have finished : copy.goroutines = [] := List.map_eq_nil_iff.mp same.eq_nil
    exact ⟨[], copy, rfl, finished, rfl, rfl, (List.append_nil _).symm⟩
  | cons first strings ih =>
    obtain ⟨event, waits, rfl⟩ :=
      List.mem_map.mp (same.mem_iff.mpr (List.mem_cons_self (a := first)))
    obtain ⟨index, within, here⟩ := List.getElem_of_mem waits
    have erased := (List.getElem_cons_eraseIdx_perm within).map SessionEvent.data
    rw [here, List.map_cons] at erased
    let appended := { event with timeOffset := session.getTimeOffset 0 }
    let mid := { copy with
      goroutines := copy.goroutines.eraseIdx index
      events := copy.events ++ [(appended, true)] }
    have performed : copy.perform session channel user fn (.append index 0) = some mid := by
      simp [perform, List.getElem?_eq_getElem within, here, mid, appended]
    obtain ⟨actions, next, follows, finished, step, forwarded, recorded⟩ :=
      ih mid (erased.trans same).cons_inv
    refine ⟨.append index 0 :: actions, next, ⟨mid, performed, follows⟩, finished, step, forwarded, ?_⟩
    rw [recorded]
    simp [StreamCopy.recorded, mid, appended, List.filter_append]

/-- The transcript of a stream is the traffic in every schedule, if and only if the transfer
that ends it brings nothing that is only forwarded or only recorded, and any two chunks give
the same in either order. -/
theorem transcribes_iff (session : SessionContext) (channel : ChannelWrapper) (user : ProxyUser)
    (fn : FilterRef → Bytes → Bytes) (noFilters : user.channelFilters = []) (buff : Bytes)
    (transfers : List Transfer) :
    Transcribes session channel user fn buff transfers ↔ Transfer.Faithful transfers := by
  constructor
  · intro transcribes
    -- read and write everything, and then let the goroutines run in a given order
    have anyOrder : ∀ strings : List Bytes,
        strings.Perm ((Transfer.carried transfers).filterMap Transfer.chunk) →
          strings.flatten = ((Transfer.carried transfers).map Transfer.forwarded).flatten := by
      intro strings same
      obtain ⟨reads, copy, read, events, ended⟩ :=
        @reads_all session channel user fn (start buff transfers []) rfl
      obtain ⟨past, current, rest, copied⟩ :=
        (copied_start buff transfers []).follows noFilters read
      have silent : copy.recorded = [] := by rw [recorded, events]; rfl
      have whole : current = [] ∧ rest = [] := by
        have stage := copied.stage
        unfold Stage at stage
        obtain done | ⟨reading, left⟩ := ended
        · rwa [done] at stage
        · rw [reading, left] at stage
          exact stage
      obtain ⟨rfl, rfl⟩ := whole
      have past_eq : past = Transfer.carried transfers := by
        rw [copied.carried, List.append_nil, List.append_nil]
      have waiting := copied.chunks
      rw [silent, List.append_nil, past_eq] at waiting
      obtain ⟨appends, final, append, finished, step, forwarded, recorded⟩ :=
        @appends_all session channel user fn strings copy (waiting.trans same.symm)
      have settled : final.Settled := by
        refine ⟨finished, ?_⟩
        rw [step]
        exact ended.symm.imp And.left id
      have follows := follows_append.mpr ⟨copy, read, append⟩
      have shown := transcribes [] (reads ++ appends) final follows settled
      have forwarded_eq := copied.forwarded
      rw [past_eq, ← forwarded, ← shown] at forwarded_eq
      rw [← forwarded_eq, transcript, ← StreamCopy.recorded, recorded, silent]
      rfl
    have written := Transfer.written_of_flatten (anyOrder _ (.refl _))
    refine ⟨written, flatten_perm_iff.mp fun strings same => ?_⟩
    rw [anyOrder strings same, anyOrder _ (.refl _)]
  · rintro ⟨written, commuting⟩ events actions final follows settled
    obtain ⟨past, current, rest, copied⟩ :=
      (copied_start buff transfers events).follows noFilters follows
    obtain ⟨rfl, recorded⟩ := copied.recorded_perm settled
    have early : past.Sublist (Transfer.carried transfers) := by
      rw [copied.carried, List.append_nil]
      exact List.sublist_append_left past rest
    calc final.recorded.flatten
        = (past.filterMap Transfer.chunk).flatten :=
          (flatten_perm recorded.symm (commuting.sublist (early.filterMap _))).symm
      _ = (past.map Transfer.forwarded).flatten :=
          (Transfer.forwarded_eq_chunks fun transfer member =>
            written transfer (early.subset member)).symm
      _ = final.forwarded := copied.forwarded.symm

/-- Two chunks of the same key held down, and then the end of the stream. -/
theorem transcribes_repeated : Transcribes {} ⟨lit "outgoing", lit "stdout", 0⟩ {}
    (fun _ data => data) []
    [{ data := lit "k" }, { data := lit "kkk" }, { data := [], err := some (lit "EOF") }] :=
  (transcribes_iff _ _ {} _ rfl _ _).mpr ⟨by unfold Transfer.carried; decide, by
    have commute : Commuting (lit "k") (lit "kkk") := by
      unfold Commuting
      decide
    exact List.pairwise_pair.mpr commute⟩

/-- Bytes that come with the end of the stream are forwarded and not recorded. -/
theorem last_bytes_unrecorded :
    ¬ ∀ (session : SessionContext) (channel : ChannelWrapper) (user : ProxyUser)
      (fn : FilterRef → Bytes → Bytes), user.channelFilters = [] →
        ∀ (buff : Bytes) (transfers : List Transfer),
          Transcribes session channel user fn buff transfers := by
  intro transcribes
  have transcript := transcribes {} ⟨lit "outgoing", lit "stdout", 0⟩ {} (fun _ data => data) rfl
    [] [{ data := lit "a", err := some (lit "EOF") }] [] [.read, .write] _
    ⟨_, rfl, _, rfl, rfl⟩ ⟨rfl, .inr rfl⟩
  exact absurd transcript (by decide)

end StreamCopy
end SSHProxyPlus
