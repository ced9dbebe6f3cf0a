import SSHProxyPlus.Session.Parts

/-! What comes of the channels of a connection, in whatever order their goroutines take their
steps: each side gets what the other has sent, in its order, and all of it before it is told that
nothing follows. -/
namespace SSHProxyPlus
open Go Transition
namespace Forwarding
variable {user : ProxyUser} {fn : FilterRef → Bytes → Bytes} {n m : Nat} {part : ChannelPart}
  {arrival : NewChannel} {arrivals : List NewChannel} {ended : Bool}

/-! Each channel is the only one that its goroutines do anything for. -/

/-- What the thread does, it does for one channel. -/
def Own (m : Nat) (thread : List (Instruction Forwarding)) : Prop :=
  ∀ label ∈ labels thread, ∃ call, label = .channel m call

@[simp] theorem own_nil : Own m [] := fun _ member => absurd member List.not_mem_nil

@[simp] theorem own_perform {call : ChannelCall} {rest : List (Instruction Forwarding)} :
    Own m (perform m call :: rest) ↔ Own m rest := by
  simp [Own, perform, labels, Instruction.labels]

@[simp] theorem own_await {label : Forwarding} {rest : List (Instruction Forwarding)} :
    Own m (.await label :: rest) ↔ Own m rest := Iff.rfl

@[simp] theorem own_go {started rest : List (Instruction Forwarding)} :
    Own m (.go started :: rest) ↔ Own m started ∧ Own m rest := by
  simp only [Own, labels, Instruction.labels, List.forall_mem_append]

@[simp] theorem own_append {front rest : List (Instruction Forwarding)} :
    Own m (front ++ rest) ↔ Own m front ∧ Own m rest := by
  simp only [Own, labels_append, List.forall_mem_append]

@[simp] theorem own_counted {body : List (Instruction Forwarding)} :
    Own m (counted m body) ↔ Own m body := by
  simp [counted]

theorem own_of_carrying {target : ChannelEnd} {open' : Bool}
    {thread : List (Instruction Forwarding)}
    (carrying : ∀ instruction ∈ thread, Carrying m target open' instruction) : Own m thread := by
  intro label member
  rw [labels_eq_flatMap, List.mem_flatMap] at member
  obtain ⟨instruction, there, performed⟩ := member
  cases carrying instruction there with
  | record activity => exact ⟨_, List.mem_singleton.mp performed⟩
  | perform call traffic aims => exact ⟨_, List.mem_singleton.mp performed⟩
  | wait open' => contradiction

theorem forwardChannel_own (arrival : NewChannel) : Own m (forwardChannel user fn m arrival) := by
  have streams (target : ChannelEnd) (stderr : Bool) (channelID : Int64) (transfers : List Transfer) :
      Own m (copyOf user fn m target stderr channelID transfers) :=
    own_of_carrying (copyStream_carrying _ _ _)
  have requests (target : ChannelEnd) (channelID : Int64) (requests : RequestStream) :
      Own m (handleRequests m target channelID requests) :=
    own_of_carrying (handleRequests_carrying _ _)
  rw [forwardChannel, own_counted, own_perform]
  split
  · simp
  · cases arrival.fate with
    | refused failure => simp
    | notAccepted => simp
    | carried established =>
      simp [carry, bidirectionalChannelClone, copyChannel, streams, requests]

theorem Own.quiet {thread : List (Instruction Forwarding)} (own : Own m thread) (apart : m ≠ n) :
    (labels thread).filter (inPart n part) = [] := by
  refine List.filter_eq_nil_iff.mpr fun label member => ?_
  obtain ⟨call, rfl⟩ := own label member
  simp [inPart, apart]

/-- An instruction that does nothing for a channel. -/
inductive Elsewhere (user : ProxyUser) (fn : FilterRef → Bytes → Bytes) (n : Nat) (ended : Bool) :
    Instruction Forwarding → Prop
  | go (m : Nat) (arrival : NewChannel) (apart : m ≠ n) :
      Elsewhere user fn n ended (.go (forwardChannel user fn m arrival))
  | perform (label : Forwarding) (none : ∀ own call, label ≠ .channel own call) :
      Elsewhere user fn n ended (.perform label)
  | wait (open' : ended = false) : Elsewhere user fn n ended (.await .never)

theorem Elsewhere.quiet {instruction : Instruction Forwarding}
    (elsewhere : Elsewhere user fn n ended instruction) :
    instruction.labels.filter (inPart n part) = [] := by
  cases elsewhere with
  | go m arrival apart => exact (forwardChannel_own arrival).quiet apart
  | perform label none =>
    cases label with
    | channel own call => exact absurd rfl (none own call)
    | _ => rfl
  | wait open' => rfl

theorem quiet_of_elsewhere {thread : List (Instruction Forwarding)}
    (elsewhere : ∀ instruction ∈ thread, Elsewhere user fn n ended instruction) :
    (labels thread).filter (inPart n part) = [] := by
  rw [labels_eq_flatMap, List.filter_flatMap]
  exact List.flatMap_eq_nil_iff.mpr fun instruction member => (elsewhere instruction member).quiet

/-- Of what is done for a connection, one goroutine's part is what is done for the channel. -/
theorem handleChannels_split (there : arrivals[n]? = some arrival) : ∃ before after,
    handleChannels user fn arrivals ended =
      before ++ .go (forwardChannel user fn n arrival) :: after ∧
    (∀ instruction ∈ before, Elsewhere user fn n true instruction) ∧
    ∀ instruction ∈ after, Elsewhere user fn n ended instruction := by
  obtain ⟨inside, same⟩ := List.getElem?_eq_some_iff.mp there
  have whole : arrivals = arrivals.take n ++ arrival :: arrivals.drop (n + 1) := by
    rw [← same, List.cons_getElem_drop_succ, List.take_append_drop]
  have front : (arrivals.take n).length = n := List.length_take_of_le (Nat.le_of_lt inside)
  refine ⟨.perform .markThreadStarted :: (arrivals.take n).zipIdx.map fun arrival =>
      .go (forwardChannel user fn arrival.2 arrival.1),
    ((arrivals.drop (n + 1)).zipIdx (n + 1)).map (fun arrival =>
      .go (forwardChannel user fn arrival.2 arrival.1)) ++
    if ended then [.perform .closeConn, .perform .markThreadStopped] else [.await .never], ?_, ?_, ?_⟩
  · conv_lhs => rw [whole]
    rw [handleChannels, List.zipIdx_append, front, Nat.zero_add, List.zipIdx_cons, List.map_append,
      List.map_cons]
    simp only [List.cons_append, List.append_assoc]
  · intro instruction member
    rcases List.mem_cons.mp member with rfl | member
    · exact .perform _ (by simp)
    · obtain ⟨entry, listed, rfl⟩ := List.mem_map.mp member
      have below := (List.mem_zipIdx listed).2.1
      exact .go _ _ (by omega)
  · intro instruction member
    rcases List.mem_append.mp member with member | member
    · obtain ⟨entry, listed, rfl⟩ := List.mem_map.mp member
      have above := (List.mem_zipIdx listed).1
      exact .go _ _ (by omega)
    · split at member
      · rcases List.mem_cons.mp member with rfl | member
        · exact .perform _ (by simp)
        · rw [List.mem_singleton.mp member]
          exact .perform _ (by simp)
      · next open' =>
        rw [List.mem_singleton.mp member]
        exact .wait (eq_false_of_ne_true open')

theorem handleChannels_part (there : arrivals[n]? = some arrival) :
    (labels (handleChannels user fn arrivals ended)).filter (inPart n part) =
      (arrival.calls part).map (.channel n) := by
  obtain ⟨before, after, whole, first, last⟩ :=
    @handleChannels_split user fn n _ _ ended there
  rw [whole, labels_append, labels, List.filter_append, List.filter_append, quiet_of_elsewhere first,
    quiet_of_elsewhere last, Instruction.labels, forwardChannel_part, List.append_nil, List.nil_append]

theorem handleChannels_inOrder (there : arrivals[n]? = some arrival) :
    InOrder (inPart n part) (handleChannels user fn arrivals ended) := by
  obtain ⟨before, after, whole, first, last⟩ :=
    @handleChannels_split user fn n _ _ ended there
  have quiet {open' : Bool} {thread : List (Instruction Forwarding)}
      (elsewhere : ∀ instruction ∈ thread, Elsewhere user fn n open' instruction)
      (started : List (Instruction Forwarding)) (member : .go started ∈ thread) :
      (labels started).filter (inPart n part) = [] :=
    started_quiet member (quiet_of_elsewhere elsewhere)
  rw [whole]
  refine inOrder_append (inOrder_of_started before (quiet first))
    ⟨forwardChannel_inOrder arrival, inOrder_of_started after (quiet last), fun thread same => ?_⟩
    fun started member => .inl (quiet first started member)
  exact .inr (quiet_of_elsewhere last)

/-- Each part of a channel is done in its order, and no further than it goes. -/
theorem calls_begin {s : Forked Forwarding} (there : arrivals[n]? = some arrival)
    (reached : (Forked.system (handleChannels user fn arrivals ended)).Reachable s) :
    calls n part s.done <+: arrival.calls part := by
  obtain ⟨ahead, whole⟩ := Forked.done_of_reachable (handleChannels_inOrder there) reached
  rw [handleChannels_part there, filter_calls] at whole
  refine ⟨ahead.filterMap (ofChannel n), ?_⟩
  have mapped := congrArg (List.filterMap (ofChannel n)) whole
  have own : ofChannel n ∘ Forwarding.channel n = some := funext fun call => if_pos rfl
  rwa [List.filterMap_append, List.filterMap_map, List.filterMap_map, own, List.filterMap_some,
    List.filterMap_some] at mapped

end Forwarding

/-! What has to be done for a channel before something else is. -/
section Needs
open Forwarding
variable (channel : CarriedChannel) (n : Nat)

/-- Nothing can be done after what does not end. -/
def Forwarding.after (ended : Bool) : Set Forwarding := {label | label = .never ∧ ended = false}

def CarriedChannel.needed : ChannelCall → Set Forwarding
  | .write .. | .forward .. => {.channel n .accept}
  | .doneCopying target => after (Transfer.ends (channel.streams target false))
  | .closeWrite target =>
      {.channel n (.doneCopying target)} ∪ after (Transfer.ends (channel.streams target true))
  | .incomingWriteDone => {.channel n (.closeWrite .incoming)}
  | .destRequestsCompleted => after channel.outgoingRequests.ended
  | .close .incoming => {.channel n .incomingWriteDone, .channel n .destRequestsCompleted}
  | .close .outgoing => {.channel n (.close .incoming)}
  | _ => ∅

def CarriedChannel.needs : Forwarding → Set Forwarding
  | .channel own call => if own = n then channel.needed n call else ∅
  | _ => ∅

variable {channel n} {known : Set Forwarding} {user : ProxyUser} {fn : FilterRef → Bytes → Bytes}

@[simp] theorem needs_own (call : ChannelCall) :
    channel.needs n (.channel n call) = channel.needed n call := if_pos rfl

theorem needed_of_traffic {call : ChannelCall} (traffic : call.traffic = true) :
    channel.needed n call ⊆ {.channel n .accept} := by
  cases call with
  | write target stderr data => exact Set.Subset.refl _
  | forward target position call => exact Set.Subset.refl _
  | markThreadStarted => exact Set.empty_subset _
  | markThreadStopped => exact Set.empty_subset _
  | handleEvent activity => exact Set.empty_subset _
  | _ => contradiction

namespace Forwarding

theorem sound_perform {call : ChannelCall} (allowed : channel.needed n call ⊆ known) :
    (perform n call).Sound (channel.needs n) known := (needs_own call).subset.trans allowed

theorem sounds_of_carrying {target : ChannelEnd} {ended : Bool}
    {thread : List (Instruction Forwarding)}
    (carrying : ∀ instruction ∈ thread, Carrying n target ended instruction)
    (accepted : .channel n .accept ∈ known) : Sounds (channel.needs n) known thread := by
  refine sounds_of_known thread fun label member => ?_
  rw [labels_eq_flatMap, List.mem_flatMap] at member
  obtain ⟨instruction, there, performed⟩ := member
  have allowed (call : ChannelCall) (traffic : call.traffic = true) :
      channel.needs n (.channel n call) ⊆ known := by
    rw [needs_own]
    exact (needed_of_traffic traffic).trans (Set.singleton_subset_iff.mpr accepted)
  cases carrying instruction there with
  | record activity => exact List.mem_singleton.mp performed ▸ allowed _ rfl
  | perform call traffic aims => exact List.mem_singleton.mp performed ▸ allowed call traffic
  | wait open' => contradiction

theorem sounds_counted {body : List (Instruction Forwarding)}
    (sound : Sounds (channel.needs n) known body) :
    Sounds (channel.needs n) known (counted n body) := by
  refine ⟨sound_perform (Set.empty_subset _),
    sounds_append.mpr ⟨sound.mono (Set.subset_insert _ _), sound_perform (Set.empty_subset _), trivial⟩⟩

/-- Where a stream or the requests of an end do not end, what follows never comes. -/
theorem after_learned {ended : Bool} {thread : List (Instruction Forwarding)}
    (waits : ended = false → .await .never ∈ thread) :
    after ended ⊆ learnsAll (channel.needs n) known thread := by
  rintro label ⟨rfl, open'⟩
  exact learned_of_await (waits open')

theorem copyStream_waits {m : Nat} {target : ChannelEnd} {stderr : Bool} (channel : ChannelWrapper)
    (buff : Bytes) (transfers : List Transfer) (open' : Transfer.ends transfers = false) :
    .await .never ∈ copyStream user fn m target stderr channel buff transfers := by
  induction transfers generalizing buff with
  | nil => exact List.mem_singleton_self _
  | cons transfer transfers ih =>
    obtain ⟨goesOn, later⟩ := Bool.or_eq_false_iff.mp open'
    rw [copyStream]
    refine List.mem_append_right _ ?_
    rw [goesOn]
    exact ih _ later

theorem handleRequests_waits {m : Nat} {target : ChannelEnd} (channelID : Int64)
    (requests : RequestStream) (open' : requests.ended = false) :
    .await .never ∈ handleRequests m target channelID requests := by
  simp [handleRequests, counted, open']

theorem copyChannel_sounds (target : ChannelEnd) (channelID : Int64)
    (accepted : .channel n .accept ∈ known) :
    Sounds (channel.needs n) known (copyChannel user fn n target channelID channel) := by
  have streams (stderr : Bool) : Sounds (channel.needs n) known
      (copyOf user fn n target stderr channelID (channel.streams target stderr)) :=
    sounds_of_carrying (copyStream_carrying _ _ _) accepted
  refine sounds_counted ⟨sounds_append.mpr ⟨streams false, sound_perform ?_, trivial⟩,
    sounds_append.mpr ⟨streams true, trivial, sound_perform ?_, trivial⟩⟩
  · exact after_learned (copyStream_waits _ _ _)
  · refine Set.union_subset (Set.singleton_subset_iff.mpr (.inr (Set.mem_insert _ _))) ?_
    exact (after_learned (copyStream_waits _ _ _)).trans Set.subset_union_left

theorem carry_sounds (channelID : Int64) (accepted : .channel n .accept ∈ known) :
    Sounds (channel.needs n) known (carry user fn n channelID channel) := by
  have requests (target : ChannelEnd) (requests : RequestStream) :
      Sounds (channel.needs n) known (handleRequests n target channelID requests) :=
    sounds_of_carrying (handleRequests_carrying _ _) accepted
  have both : Sounds (channel.needs n) known
      (bidirectionalChannelClone user fn n channelID channel) := by
    refine sounds_counted ⟨sounds_append.mpr ⟨copyChannel_sounds _ _ accepted, sound_perform ?_, trivial⟩,
      copyChannel_sounds _ _ accepted, trivial, trivial⟩
    refine Set.singleton_subset_iff.mpr (learned_of_perform ?_)
    simp [copyChannel, counted, perform]
  refine ⟨sounds_append.mpr ⟨requests _ _, sound_perform ?_, trivial⟩, requests _ _,
    sounds_append.mpr ⟨both, trivial, sound_perform ?_, sound_perform ?_, trivial⟩⟩
  · exact after_learned (handleRequests_waits _ _)
  · refine Set.insert_subset (.inl (learned_of_await ?_))
      (Set.singleton_subset_iff.mpr (.inr (Set.mem_insert _ _)))
    simp [bidirectionalChannelClone, counted]
  · exact Set.singleton_subset_iff.mpr (Set.mem_insert _ _)

variable {arrival : NewChannel} {arrivals : List NewChannel} {ended : Bool}

theorem handleChannels_sounds (supported : channelTypeSupported arrival.channelType = true)
    (there : arrivals[n]? = some arrival) (carried : arrival.fate = .carried channel) :
    Sounds (channel.needs n) ∅ (handleChannels user fn arrivals ended) := by
  obtain ⟨before, after, whole, first, last⟩ := @handleChannels_split user fn n _ _ ended there
  have elsewhere {open' : Bool} {known : Set Forwarding} {thread : List (Instruction Forwarding)}
      (elsewhere : ∀ instruction ∈ thread, Elsewhere user fn n open' instruction) :
      Sounds (channel.needs n) known thread := by
    refine sounds_of_known thread fun label member => ?_
    rw [labels_eq_flatMap, List.mem_flatMap] at member
    obtain ⟨instruction, there, performed⟩ := member
    have none : channel.needs n label = ∅ := by
      cases elsewhere instruction there with
      | go m arrival apart =>
        obtain ⟨call, rfl⟩ := forwardChannel_own arrival label performed
        exact if_neg apart
      | perform label none =>
        rw [List.mem_singleton.mp performed]
        cases label with
        | channel own call => exact absurd rfl (none own call)
        | _ => rfl
      | wait open' => contradiction
    exact none.subset.trans (Set.empty_subset _)
  rw [whole]
  refine sounds_append.mpr ⟨elsewhere first, sounds_counted ?_, elsewhere last⟩
  rw [supported, carried]
  refine ⟨sound_perform (Set.empty_subset _), sound_perform (Set.empty_subset _),
    sound_perform (Set.empty_subset _), carry_sounds _ (Set.mem_insert _ _)⟩

theorem handleChannels_ordered {s : Forked Forwarding}
    (supported : channelTypeSupported arrival.channelType = true)
    (there : arrivals[n]? = some arrival) (carried : arrival.fate = .carried channel)
    (reached : (Forked.system (handleChannels user fn arrivals ended)).Reachable s) :
    s.Ordered (channel.needs n) :=
  Forked.ordered_of_reachable (handleChannels_sounds supported there carried) reached

theorem never_undone {s : Forked Forwarding}
    (reached : (Forked.system (handleChannels user fn arrivals ended)).Reachable s) :
    .never ∉ s.done := by
  have quiet : (labels (handleChannels user fn arrivals ended)).filter (· = .never) = [] := by
    refine List.filter_eq_nil_iff.mpr fun label member => ?_
    simp only [handleChannels, List.cons_append, labels, Instruction.labels, labels_append,
      List.nil_append, List.mem_cons, List.mem_append] at member
    rcases member with rfl | started | last
    · simp
    · rw [labels_eq_flatMap, List.flatMap_map, List.mem_flatMap] at started
      obtain ⟨entry, -, performed⟩ := started
      obtain ⟨call, rfl⟩ := forwardChannel_own entry.1 label performed
      simp
    · split at last
      · simp only [labels, Instruction.labels, List.cons_append, List.nil_append, List.mem_cons,
          List.not_mem_nil, or_false] at last
        rcases last with rfl | rfl <;> simp
      · contradiction
  obtain ⟨ahead, whole⟩ := Forked.done_of_reachable (inOrder_of_quiet _ quiet) reached
  rw [quiet] at whole
  have none := (List.append_eq_nil_iff.mp whole).1
  exact fun member => List.filter_eq_nil_iff.mp none _ member (decide_eq_true rfl)

end Forwarding
end Needs

namespace Transfer
variable {target : ChannelEnd} {stderr : Bool} {transfers : List Transfer}

theorem writes_data : (writes target stderr transfers).flatMap ChannelCall.data = total transfers := by
  rw [writes, total]
  induction carried transfers with
  | nil => rfl
  | cons transfer transfers ih =>
    rw [List.filter_cons]
    split
    · rw [List.map_cons, List.flatMap_cons, ih, List.map_cons, List.flatten_cons, ChannelCall.data]
    · next none =>
      have empty : transfer.data = [] := by simpa using none
      have nothing : transfer.forwarded = [] := by rw [forwarded, empty, List.take_nil]
      rw [ih, List.map_cons, List.flatten_cons, nothing, List.nil_append]

theorem ending_data : (writes target stderr transfers ++ [target.ending stderr]).flatMap
    ChannelCall.data = total transfers := by
  have none : (target.ending stderr).data = [] := by cases stderr <;> rfl
  rw [List.flatMap_append, writes_data, List.flatMap_singleton, none, List.append_nil]

theorem ending_fresh : target.ending stderr ∉ writes target stderr transfers := by
  intro member
  obtain ⟨transfer, -, same⟩ := List.mem_map.mp member
  cases stderr <;> contradiction

end Transfer

namespace Forwarding
variable {user : ProxyUser} {fn : FilterRef → Bytes → Bytes} {n : Nat} {part : ChannelPart}
  {arrival : NewChannel} {arrivals : List NewChannel} {ended : Bool} {s : Forked Forwarding}
  {established : CarriedChannel} {target : ChannelEnd} {stderr : Bool}

theorem calls_carried (supported : channelTypeSupported arrival.channelType = true)
    (carried : arrival.fate = .carried established) :
    arrival.calls part =
      (if part = .answer then [.openChannel, .accept] else []) ++ established.calls part := by
  rw [NewChannel.calls, supported, carried]
  rfl

theorem calls_stream (supported : channelTypeSupported arrival.channelType = true)
    (carried : arrival.fate = .carried established) :
    arrival.calls (.stream target stderr) =
      Transfer.writes target stderr (established.streams target stderr) ++ [target.ending stderr] :=
  calls_carried supported carried

theorem mem_calls {call : ChannelCall} {done : List Forwarding} (own : call.part = some part)
    (past : .channel n call ∈ done) : call ∈ calls n part done :=
  List.mem_filterMap.mpr ⟨_, List.mem_filter.mpr ⟨past, by simp [own]⟩, if_pos rfl⟩

theorem done_of_calls {call : ChannelCall} {done : List Forwarding}
    (made : call ∈ calls n part done) : .channel n call ∈ done := by
  obtain ⟨label, kept, same⟩ := List.mem_filterMap.mp made
  cases label with
  | channel own other =>
    by_cases number : own = n
    · rw [ofChannel, if_pos number] at same
      exact number ▸ Option.some.inj same ▸ (List.mem_filter.mp kept).1
    · rw [ofChannel, if_neg number] at same
      contradiction
  | _ => contradiction

/-- Only what is answered is done for a channel that is not carried. -/
theorem carried_of_calls {call : ChannelCall} (made : call ∈ arrival.calls part)
    (other : part ≠ .answer) : channelTypeSupported arrival.channelType = true ∧
      ∃ established, arrival.fate = .carried established := by
  unfold NewChannel.calls at made
  split at made
  · exact absurd made List.not_mem_nil
  · next supported =>
    refine ⟨by simpa using supported, ?_⟩
    split at made
    · exact absurd made List.not_mem_nil
    · exact absurd made List.not_mem_nil
    · next established carried => exact ⟨established, carried⟩

/-- Once the last call of a part has been made, all of the part's have been. -/
theorem calls_complete {front : List ChannelCall} {last : ChannelCall}
    (there : arrivals[n]? = some arrival)
    (reached : (Forked.system (handleChannels user fn arrivals ended)).Reachable s)
    (whole : arrival.calls part = front ++ [last]) (fresh : last ∉ front)
    (own : last.part = some part) (past : .channel n last ∈ s.done) :
    calls n part s.done = front ++ [last] := by
  have made := mem_calls own past
  have begins := whole ▸ @calls_begin user fn n part _ _ ended s there reached
  rcases List.prefix_concat_iff.mp begins with all | short
  · exact all
  · exact absurd (short.mem made) fresh

/-! What is known of a channel once some of its calls have been made. -/
theorem written_closeWrite (earlier : List Forwarding) :
    written n target stderr (earlier ++ [.channel n (.closeWrite target)]) =
      written n target stderr earlier := by
  rw [written, calls, List.filter_append, List.filterMap_append, List.flatMap_append]
  have none : (calls n (.stream target stderr) [.channel n (.closeWrite target)]).flatMap
      ChannelCall.data = [] := by
    rw [calls, List.filter_singleton]
    cases stderr <;> simp [ChannelCall.part, ofChannel, ChannelCall.data]
  rw [calls] at none
  rw [none, List.append_nil, written, calls]

section Known
variable (supported : channelTypeSupported arrival.channelType = true)
  (there : arrivals[n]? = some arrival) (carried : arrival.fate = .carried established)
  (reached : (Forked.system (handleChannels user fn arrivals ended)).Reachable s)
include supported there carried reached

theorem needed_done {call : ChannelCall} (past : .channel n call ∈ s.done) :
    established.needed n call ⊆ {label | label ∈ s.done} :=
  (needs_own call).symm.subset.trans
    ((handleChannels_ordered supported there carried reached).needed past)

theorem stream_complete (past : .channel n (target.ending stderr) ∈ s.done) :
    Transfer.ends (established.streams target stderr) = true ∧
      written n target stderr s.done = Transfer.total (established.streams target stderr) := by
  have whole := @calls_stream arrival established target stderr supported carried
  have own : (target.ending stderr).part = some (.stream target stderr) := by cases stderr <;> rfl
  constructor
  · have known := needed_done supported there carried reached past
    by_contra unended
    have never : .never ∈ established.needed n (target.ending stderr) := by
      have open' := eq_false_of_ne_true unended
      cases stderr with
      | false => exact ⟨rfl, open'⟩
      | true => exact .inr ⟨rfl, open'⟩
    exact never_undone reached (known never)
  · rw [written, calls_complete there reached whole Transfer.ending_fresh own past]
    exact Transfer.ending_data

theorem streams_complete (past : .channel n (.closeWrite target) ∈ s.done) (stderr : Bool) :
    Transfer.ends (established.streams target stderr) = true ∧
      written n target stderr s.done = Transfer.total (established.streams target stderr) := by
  cases stderr with
  | false =>
    have copied : .channel n (.doneCopying target) ∈ s.done :=
      needed_done supported there carried reached past (.inl rfl)
    exact stream_complete supported there carried reached copied
  | true => exact stream_complete supported there carried reached past

theorem requests_complete (past : .channel n .destRequestsCompleted ∈ s.done) :
    established.outgoingRequests.ended = true ∧
      calls n (.requests .incoming) s.done = arrival.calls (.requests .incoming) := by
  have whole : arrival.calls (.requests .incoming) = _ := calls_carried supported carried
  constructor
  · have known := needed_done supported there carried reached past
    by_contra unended
    exact never_undone reached (known ⟨rfl, eq_false_of_ne_true unended⟩)
  · rw [whole]
    exact calls_complete there reached whole (by simp [RequestStream.calls]) rfl past

end Known
end Forwarding

/-! Where the server is done, nothing that the client does keeps a channel open. -/

/-- What is waited for is of a lower rank than what is done after it. -/
def ChannelCall.rank : ChannelCall → Option Nat
  | .openChannel | .accept | .doneCopying .incoming | .destRequestsCompleted => some 0
  | .closeWrite .incoming | .incomingWriteDone => some 1
  | .close _ => some 2
  | _ => none

/-- The server's streams and its requests come to their ends. -/
structure CarriedChannel.ServerEnds (channel : CarriedChannel) : Prop where
  streams : ∀ stderr, Transfer.ends (channel.streams .incoming stderr) = true
  requests : channel.outgoingRequests.ended = true

namespace Forwarding

def rank (n : Nat) : Forwarding → Option Nat
  | .channel own call => if own = n then call.rank else none
  | _ => none

theorem rank_own (call : ChannelCall) : rank n (.channel n call) = call.rank := if_pos rfl

/-- All that is done for the channel but what passes the client's own streams and requests on. -/
def onWay (n : Nat) : Set Forwarding :=
  {label | ∀ own call, label = .channel own call → own = n ∧ call.aimsAt ≠ some .outgoing}

theorem onWay_own {call : ChannelCall} (aims : call.aimsAt ≠ some .outgoing) :
    .channel n call ∈ onWay n := by
  rintro own call' ⟨⟩
  exact ⟨rfl, aims⟩

theorem onWay_aimless {call : ChannelCall} (aims : call.aimsAt = none) :
    .channel n call ∈ onWay n :=
  onWay_own fun same => (Option.some_ne_none _) (same.symm.trans aims)

theorem Carrying.below {open' : Bool} {instruction : Instruction Forwarding} {bound : Nat}
    (carrying : Carrying n .incoming open' instruction) (ends : open' = true) :
    instruction.waitsBelow (rank n) (onWay n) bound := by
  cases carrying with
  | record activity => trivial
  | perform call traffic aims => exact onWay_own fun outgoing => ChannelEnd.noConfusion (aims .outgoing outgoing)
  | wait unended => exact absurd (ends.symm.trans unended) (by decide)

theorem counted_performs {label : Forwarding} {bound : Nat} {body : List (Instruction Forwarding)}
    (performs : Performs (rank n) (onWay n) label bound body) :
    Performs (rank n) (onWay n) label bound (counted n body) :=
  .inr ⟨onWay_aimless rfl, performs_append_left _ performs⟩

theorem counted_below {bound : Nat} {body : List (Instruction Forwarding)}
    (below : ∀ instruction ∈ body, instruction.waitsBelow (rank n) (onWay n) bound) :
    ∀ instruction ∈ counted n body, instruction.waitsBelow (rank n) (onWay n) bound := by
  intro instruction member
  rcases List.mem_append.mp member with member | member
  · rcases List.mem_cons.mp member with rfl | member
    · exact onWay_aimless rfl
    · exact below instruction member
  · rw [List.mem_singleton.mp member]
    exact onWay_aimless rfl

theorem copyOf_below {bound : Nat} {channelID : Int64} {transfers : List Transfer}
    (ends : Transfer.ends transfers = true) :
    ∀ instruction ∈ copyOf user fn n .incoming stderr channelID transfers,
      instruction.waitsBelow (rank n) (onWay n) bound :=
  fun instruction member => (copyStream_carrying _ _ _ instruction member).below ends

theorem copyChannel_below (channelID : Int64) (ends : established.ServerEnds) :
    ∀ instruction ∈ copyChannel user fn n .incoming channelID established,
      instruction.waitsBelow (rank n) (onWay n) 1 := by
  refine counted_below fun instruction member => ?_
  rcases List.mem_append.mp member with member | member
  · rcases List.mem_cons.mp member with rfl | member
    · trivial
    · exact copyOf_below (ends.streams true) instruction member
  · simp only [List.mem_cons, List.not_mem_nil, or_false] at member
    rcases member with rfl | rfl
    · exact ⟨0, rank_own _, Nat.one_pos⟩
    · exact onWay_own (by decide)

theorem copyChannel_performs (channelID : Int64) (ends : established.ServerEnds) :
    Performs (rank n) (onWay n) (.channel n (.doneCopying .incoming)) 0
      (copyChannel user fn n .incoming channelID established) ∧
    Performs (rank n) (onWay n) (.channel n (.closeWrite .incoming)) 1
      (copyChannel user fn n .incoming channelID established) := by
  constructor
  · exact counted_performs (.inl (performs_append_right (copyOf_below (ends.streams false)) (.inl rfl)))
  · refine counted_performs (.inr ⟨trivial, performs_append_right (copyOf_below (ends.streams true)) ?_⟩)
    exact .inr ⟨⟨0, rank_own _, Nat.one_pos⟩, .inl rfl⟩

theorem carry_performs {call : ChannelCall} {bound : Nat} (channelID : Int64)
    (ends : established.ServerEnds) (ranked : call.rank = some bound) (opened : call ≠ .openChannel)
    (accepted : call ≠ .accept) :
    Performs (rank n) (onWay n) (.channel n call) bound (carry user fn n channelID established) := by
  have copies : ∀ {call bound}, Performs (rank n) (onWay n) (.channel n call) bound
      (copyChannel user fn n .incoming channelID established ++ [perform n .incomingWriteDone]) →
      Performs (rank n) (onWay n) (.channel n call) bound (carry user fn n channelID established) :=
    fun performs => .inr ⟨trivial, .inr ⟨trivial, performs_append_left _
      (counted_performs (.inl performs))⟩⟩
  have closes : ∀ {call}, Performs (rank n) (onWay n) (.channel n call) 2
      [perform n (.close .incoming), perform n (.close .outgoing)] →
      Performs (rank n) (onWay n) (.channel n call) 2 (carry user fn n channelID established) := by
    intro call performs
    refine .inr ⟨trivial, .inr ⟨trivial, performs_append_right (counted_below ?_) (.inr ⟨?_, performs⟩)⟩⟩
    · intro instruction member
      simp only [List.mem_cons, List.not_mem_nil, or_false] at member
      rcases member with rfl | rfl | rfl
      · trivial
      · trivial
      · exact ⟨1, rank_own _, Nat.one_lt_two⟩
    · exact ⟨0, rank_own _, Nat.two_pos⟩
  cases call with
  | doneCopying target =>
    cases target with
    | incoming =>
      obtain rfl := Option.some.inj ranked
      exact copies (performs_append_left _ (copyChannel_performs channelID ends).1)
    | outgoing => contradiction
  | closeWrite target =>
    cases target with
    | incoming =>
      obtain rfl := Option.some.inj ranked
      exact copies (performs_append_left _ (copyChannel_performs channelID ends).2)
    | outgoing => contradiction
  | incomingWriteDone =>
    obtain rfl := Option.some.inj ranked
    exact copies (performs_append_right (copyChannel_below channelID ends) (.inl rfl))
  | destRequestsCompleted =>
    obtain rfl := Option.some.inj ranked
    refine .inl (performs_append_right (fun instruction member => ?_) (.inl rfl))
    exact (handleRequests_carrying _ _ instruction member).below ends.requests
  | close target =>
    obtain rfl := Option.some.inj ranked
    cases target with
    | incoming => exact closes (.inl rfl)
    | outgoing => exact closes (.inr ⟨onWay_aimless rfl, .inl rfl⟩)
  | openChannel => exact absurd rfl opened
  | accept => exact absurd rfl accepted
  | _ => contradiction

theorem handleChannels_performs (supported : channelTypeSupported arrival.channelType = true)
    (there : arrivals[n]? = some arrival) (carried : arrival.fate = .carried established)
    (ends : established.ServerEnds) (label : Forwarding) (bound : Nat)
    (ranked : rank n label = some bound) :
    Performs (rank n) (onWay n) label bound (handleChannels user fn arrivals ended) := by
  obtain ⟨before, after, whole, first, -⟩ := @handleChannels_split user fn n _ _ ended there
  cases label with
  | channel own call =>
    have same : own = n := by
      by_contra apart
      rw [rank, if_neg apart] at ranked
      contradiction
    subst same
    rw [rank_own] at ranked
    rw [whole]
    refine performs_append_right (fun instruction member => ?_)
      (.inl (counted_performs (.inr ⟨onWay_aimless rfl, ?_⟩)))
    · cases first instruction member with
      | go m arrival apart => trivial
      | perform label none => exact fun own call same => absurd same (none own call)
      | wait open' => contradiction
    · rw [supported, carried]
      by_cases opened : call = .openChannel
      · exact .inl (opened ▸ rfl)
      · by_cases accepted : call = .accept
        · exact .inr ⟨onWay_aimless rfl, .inl (accepted ▸ rfl)⟩
        · exact .inr ⟨onWay_aimless rfl,
            .inr ⟨onWay_aimless rfl, carry_performs _ ends ranked opened accepted⟩⟩
  | _ => contradiction

/-- What has a rank is on the way as well. -/
theorem onWay_of_rank {label : Forwarding} (ranked : (rank n label).isSome) : label ∈ onWay n := by
  rintro own call rfl
  by_cases same : own = n
  · subst same
    rw [rank_own] at ranked
    refine ⟨rfl, fun outgoing => ?_⟩
    cases call with
    | closeWrite target =>
      obtain rfl := Option.some.inj outgoing
      contradiction
    | _ => contradiction
  · rw [rank, if_neg same] at ranked
    contradiction

/-- A goroutine stands in a call that does not return, and that the channel needs. -/
def Held (n : Nat) (blocked : Set Forwarding) (s : Forked Forwarding) : Prop :=
  ∃ (i : Nat) (label : Forwarding) (rest : List (Instruction Forwarding)),
    s.threads[i]? = some (.perform label :: rest) ∧ label ∈ blocked ∧ label ∈ onWay n

/-- Where no goroutine can go on, all that the channel's ranks name has been done, or is held up. -/
theorem atRest_done (supported : channelTypeSupported arrival.channelType = true)
    (there : arrivals[n]? = some arrival) (carried : arrival.fate = .carried established)
    (ends : established.ServerEnds)
    (reached : (Forked.system (handleChannels user fn arrivals ended)).Reachable s)
    {blocked : Set Forwarding} (rests : AtRest (Forked.stepBut blocked) s)
    (free : ¬ Held n blocked s) {call : ChannelCall} {bound : Nat}
    (ranked : call.rank = some bound) : .channel n call ∈ s.done := by
  have covered := Forked.covered_of_reachable
    (handleChannels_performs supported there carried ends) reached
  rcases covered.atRest rests ((rank_own call).trans ranked) with
    past | ⟨i, label, rest, here, never, needed⟩
  · exact past
  · exact absurd ⟨i, label, rest, here, never, needed.elim id onWay_of_rank⟩ free

theorem atRest_calls (supported : channelTypeSupported arrival.channelType = true)
    (there : arrivals[n]? = some arrival) (carried : arrival.fate = .carried established)
    (ends : established.ServerEnds)
    (reached : (Forked.system (handleChannels user fn arrivals ended)).Reachable s)
    {blocked : Set Forwarding} (rests : AtRest (Forked.stepBut blocked) s)
    (free : ¬ Held n blocked s) :
    calls n .answer s.done = arrival.calls .answer ∧
    (∀ stderr, calls n (.stream .incoming stderr) s.done =
      arrival.calls (.stream .incoming stderr)) ∧
    calls n (.requests .incoming) s.done = arrival.calls (.requests .incoming) := by
  have done {call : ChannelCall} {bound : Nat} (ranked : call.rank = some bound) :
      .channel n call ∈ s.done :=
    atRest_done supported there carried ends reached rests free ranked
  refine ⟨?_, fun stderr => ?_, ?_⟩
  · have whole : arrival.calls .answer = [.openChannel, .accept, .close .incoming] ++
        [.close .outgoing] := calls_carried supported carried
    rw [whole]
    exact calls_complete there reached whole (by decide) rfl (done rfl)
  · have whole := @calls_stream arrival established .incoming stderr supported carried
    rw [whole]
    cases stderr with
    | false => exact calls_complete there reached whole Transfer.ending_fresh rfl (done rfl)
    | true => exact calls_complete there reached whole Transfer.ending_fresh rfl (done rfl)
  · exact (requests_complete supported there carried reached (done rfl)).2

/-- The server says something and ends; the client types something and does not end. -/
def greeting : CarriedChannel where
  incomingRequests := { ended := false }
  streams target stderr :=
    if target = .incoming then
      [{ data := if stderr then [] else lit "hello", err := some (lit "EOF") }]
    else if stderr then [] else [{ data := lit "exit" }]

def greeted : NewChannel where
  channelType := lit "session"
  extraData := []
  channelID := 1
  fate := .carried greeting

def greetedThread : List (Instruction Forwarding) :=
  handleChannels {} (fun _ data => data) [greeted] false

theorem greeting_ends : greeting.ServerEnds where
  streams _ := rfl
  requests := rfl

theorem greeted_arrives : [greeted][0]? = some greeted := rfl

theorem greeted_carried : greeted.fate = .carried greeting := rfl

/-- What the client types never gets to the server. -/
def typing : Set Forwarding := {label | ∃ data, label = .channel 0 (.write .outgoing false data)}

theorem typing_held (s : Forked Forwarding) : ¬ Held 0 typing s := by
  rintro ⟨i, label, rest, -, ⟨data, rfl⟩, onWay⟩
  exact (onWay 0 _ rfl).2 rfl

theorem greeted_settles : ∃ actions s,
    Follows (Forked.system greetedThread).step { threads := [greetedThread] } actions s ∧
      AtRest (Forked.stepBut typing) s := by
  obtain ⟨actions, s, follows, rests⟩ :=
    (Forked.stepBut_lowers typing).settles (s := { threads := [greetedThread] }) trivial
  exact ⟨actions, s, follows.mono fun _ _ _ step => step.1, rests⟩

theorem greeted_closed : ∃ s, (Forked.system greetedThread).Reachable s ∧
    .channel 0 (.close .incoming) ∈ s.done ∧
    .channel 0 (.write .incoming false (lit "hello")) ∈ s.done := by
  obtain ⟨actions, s, follows, rests⟩ := greeted_settles
  have reached := System.Reachable.follows (.start rfl) follows
  have complete := atRest_calls (by decide) greeted_arrives greeted_carried greeting_ends reached
    rests (typing_held s)
  refine ⟨s, reached, @done_of_calls 0 .answer _ _ ?_, @done_of_calls 0 (.stream .incoming false) _ _ ?_⟩
  · rw [complete.1]
    decide
  · rw [complete.2.1]
    decide

/-- What the server has said and asked gets to the client in full before its channel is closed. -/
theorem delivered_before_close (supported : channelTypeSupported arrival.channelType = true)
    (there : arrivals[n]? = some arrival) (carried : arrival.fate = .carried established)
    (reached : (Forked.system (handleChannels user fn arrivals ended)).Reachable s) :
    (∀ target stderr, written n target stderr s.done <+:
      Transfer.total (established.streams target stderr)) ∧
    (∀ target earlier later, s.done = earlier ++ .channel n (.closeWrite target) :: later →
      ∀ stderr, Transfer.ends (established.streams target stderr) = true ∧
        written n target stderr earlier = Transfer.total (established.streams target stderr)) ∧
    ∀ target earlier later, s.done = earlier ++ .channel n (.close target) :: later →
      .channel n (.closeWrite .incoming) ∈ earlier ∧
      (∀ stderr, Transfer.ends (established.streams .incoming stderr) = true ∧
        written n .incoming stderr earlier = Transfer.total (established.streams .incoming stderr)) ∧
      established.outgoingRequests.ended = true ∧
      calls n (.requests .incoming) earlier = arrival.calls (.requests .incoming) := by
  refine ⟨fun target stderr => ?_, fun target earlier later past stderr => ?_,
    fun target earlier later past => ?_⟩
  · rw [← Transfer.ending_data, ← calls_stream supported carried]
    exact (calls_begin there reached).flatMap ChannelCall.data
  · have split : s.done = (earlier ++ [.channel n (.closeWrite target)]) ++ later := by
      rw [past, List.append_assoc, List.singleton_append]
    obtain ⟨r, before, same⟩ := Forked.prior reached split
    have past : .channel n (.closeWrite target) ∈ r.done :=
      same ▸ List.mem_append_right _ (List.mem_singleton_self _)
    obtain ⟨ends, whole⟩ := streams_complete supported there carried before past stderr
    rw [same, written_closeWrite] at whole
    exact ⟨ends, whole⟩
  · have ordered := handleChannels_ordered supported there carried reached
    have known := ordered.before earlier _ later past
    rw [needs_own] at known
    obtain ⟨r, before, rfl⟩ := Forked.prior reached past
    have closing : .channel n .incomingWriteDone ∈ r.done ∧
        .channel n .destRequestsCompleted ∈ r.done := by
      cases target with
      | incoming => exact ⟨known (.inl rfl), known (.inr rfl)⟩
      | outgoing =>
        have closed := needed_done supported there carried before (known rfl)
        exact ⟨closed (.inl rfl), closed (.inr rfl)⟩
    have written := needed_done supported there carried before closing.1 rfl
    exact ⟨written, streams_complete supported there carried before written,
      requests_complete supported there carried before closing.2⟩

theorem delivered_before_close_greeted : ∃ s earlier later,
    (Forked.system greetedThread).Reachable s ∧
    s.done = earlier ++ .channel 0 (.close .incoming) :: later ∧
    written 0 .incoming false earlier = lit "hello" := by
  obtain ⟨s, reached, closed, -⟩ := greeted_closed
  obtain ⟨earlier, later, past⟩ := List.append_of_mem closed
  have delivered := delivered_before_close (by decide) greeted_arrives greeted_carried reached
  exact ⟨s, earlier, later, reached, past, (delivered.2.2 .incoming earlier later past).2.1 false |>.2⟩

/-- A channel is answered once, as its type and the server allow, and nothing passes before that. -/
theorem answered_in_order (there : arrivals[n]? = some arrival)
    (reached : (Forked.system (handleChannels user fn arrivals ended)).Reachable s) :
    calls n .answer s.done <+: arrival.calls .answer ∧
    (.channel n .openChannel ∈ s.done → channelTypeSupported arrival.channelType = true) ∧
    ∀ call part, call.traffic = true → call.part = some part → ∀ earlier later,
      s.done = earlier ++ .channel n call :: later → .channel n .accept ∈ earlier := by
  refine ⟨calls_begin there reached, fun past => ?_,
    fun call part traffic own earlier later past => ?_⟩
  · have planned := (calls_begin there reached).mem (mem_calls rfl past)
    by_contra unsupported
    rw [NewChannel.calls, eq_false_of_ne_true unsupported] at planned
    exact absurd (List.mem_singleton.mp planned) (by simp)
  · have done : .channel n call ∈ s.done :=
      past ▸ List.mem_append_right _ (List.mem_cons_self ..)
    have other : part ≠ .answer := by
      rintro rfl
      cases call with
      | write target stderr data => simp [ChannelCall.part] at own
      | forward target position call => simp [ChannelCall.part] at own
      | _ => contradiction
    obtain ⟨supported, established, carried⟩ :=
      carried_of_calls ((calls_begin there reached).mem (mem_calls own done)) other
    have known := (handleChannels_ordered supported there carried reached).before earlier _ later past
    rw [needs_own] at known
    cases call with
    | write target stderr data => exact known rfl
    | forward target position call => exact known rfl
    | _ => contradiction

theorem answered_in_order_greeted : ∃ s earlier later,
    (Forked.system greetedThread).Reachable s ∧
    s.done = earlier ++ .channel 0 (.write .incoming false (lit "hello")) :: later ∧
    .channel 0 .accept ∈ earlier := by
  obtain ⟨s, reached, -, said⟩ := greeted_closed
  obtain ⟨earlier, later, past⟩ := List.append_of_mem said
  have answered := answered_in_order greeted_arrives reached
  exact ⟨s, earlier, later, reached, past, answered.2.2 _ _ rfl rfl earlier later past⟩

end Forwarding
end SSHProxyPlus
