import SSHProxyPlus.Session.Forwarding

/-! The parts of what is done for a channel: what each of its goroutines does for each part, and that
no part is left to two goroutines at once. -/
namespace SSHProxyPlus
open Go Transition

/-- What is done for a channel that has an order: its answer and its end, what is written to each
stream, and what is sent for the requests of each end. -/
inductive ChannelPart where
  | answer
  | stream (target : ChannelEnd) (stderr : Bool)
  | requests (target : ChannelEnd)
deriving DecidableEq

namespace ChannelCall

def part : ChannelCall → Option ChannelPart
  | .reject .. | .openChannel | .accept | .close _ => some .answer
  | .write target stderr _ => some (.stream target stderr)
  | .doneCopying target => some (.stream target false)
  | .closeWrite target => some (.stream target true)
  | .forward target .. => some (.requests target)
  | .destRequestsCompleted => some (.requests .incoming)
  | _ => none

def data : ChannelCall → Bytes
  | .write _ _ data => data
  | _ => []

/-- The end that the call passes something on to. -/
def aimsAt : ChannelCall → Option ChannelEnd
  | .write target .. | .closeWrite target | .forward target .. => some target
  | _ => none

/-- What is done again and again while a channel is carried. -/
def traffic : ChannelCall → Bool
  | .markThreadStarted | .markThreadStopped | .handleEvent _ | .write .. | .forward .. => true
  | _ => false

end ChannelCall

namespace Forwarding

def inPart (number : Nat) (part : ChannelPart) : Forwarding → Bool
  | .channel own call => own = number && call.part = some part
  | _ => false

def ofChannel (number : Nat) : Forwarding → Option ChannelCall
  | .channel own call => if own = number then some call else none
  | _ => none

/-- What has been done for one part of a channel, in its order. -/
def calls (number : Nat) (part : ChannelPart) (done : List Forwarding) : List ChannelCall :=
  (done.filter (inPart number part)).filterMap (ofChannel number)

/-- The bytes that a stream has been given. -/
def written (number : Nat) (target : ChannelEnd) (stderr : Bool) (done : List Forwarding) : Bytes :=
  (calls number (.stream target stderr) done).flatMap ChannelCall.data

end Forwarding

namespace Transfer

/-- The stream comes to its end. -/
def ends (transfers : List Transfer) : Bool := transfers.any last

/-- All that is read of the stream and taken by the other side. -/
def total (transfers : List Transfer) : Bytes := ((carried transfers).map forwarded).flatten

def writes (target : ChannelEnd) (stderr : Bool) (transfers : List Transfer) : List ChannelCall :=
  ((carried transfers).filter fun transfer => 0 < transfer.data.length).map fun transfer =>
    .write target stderr transfer.forwarded

theorem writes_cons (target : ChannelEnd) (stderr : Bool) (transfer : Transfer)
    (transfers : List Transfer) :
    writes target stderr (transfer :: transfers) =
      (if 0 < transfer.data.length then [.write target stderr transfer.forwarded] else []) ++
        if transfer.last then [] else writes target stderr transfers := by
  rw [writes, StreamCopy.carried_cons, List.filter_cons]
  by_cases some : 0 < transfer.data.length
  · by_cases over' : transfer.last <;> simp [some, over', writes]
  · by_cases over' : transfer.last <;> simp [some, over', writes]

end Transfer

/-- What follows the last write of a stream. -/
def ChannelEnd.ending (target : ChannelEnd) (stderr : Bool) : ChannelCall :=
  if stderr then .closeWrite target else .doneCopying target

def RequestStream.calls (target : ChannelEnd) (requests : RequestStream) : List ChannelCall :=
  requests.arrivals.zipIdx.flatMap fun arrival =>
    (arrival.1.request.forward arrival.1.outcome.ofChannel).1.map fun call =>
      .forward target arrival.2 call

/-- What a channel is carried with, part by part. -/
def CarriedChannel.calls (channel : CarriedChannel) : ChannelPart → List ChannelCall
  | .answer => [.close .incoming, .close .outgoing]
  | .stream target stderr =>
      Transfer.writes target stderr (channel.streams target stderr) ++ [target.ending stderr]
  | .requests .incoming => channel.outgoingRequests.calls .incoming ++ [.destRequestsCompleted]
  | .requests .outgoing => channel.incomingRequests.calls .outgoing

def NewChannel.calls (arrival : NewChannel) (part : ChannelPart) : List ChannelCall :=
  if !channelTypeSupported arrival.channelType then
    if part = .answer then [.reject connectionFailed unableToOpenChannel] else []
  else match arrival.fate with
    | .refused failure => if part = .answer then [.openChannel, failure.reject] else []
    | .notAccepted => if part = .answer then [.openChannel, .accept, .close .outgoing] else []
    | .carried established =>
        (if part = .answer then [.openChannel, .accept] else []) ++ established.calls part

namespace Forwarding
variable {user : ProxyUser} {fn : FilterRef → Bytes → Bytes} {n : Nat} {part : ChannelPart}
  {target : ChannelEnd} {stderr : Bool}

@[simp] theorem inPart_own (call : ChannelCall) :
    inPart n part (.channel n call) = decide (call.part = some part) := by
  simp [inPart]

theorem filter_calls (done : List Forwarding) :
    done.filter (inPart n part) = (calls n part done).map (.channel n) := by
  induction done with
  | nil => rfl
  | cons label done ih =>
    rw [calls, List.filter_cons]
    split
    · next member =>
      cases label with
      | channel own call =>
        obtain ⟨rfl, -⟩ : own = n ∧ call.part = some part := by simpa [inPart] using member
        rw [List.filterMap_cons_some (show ofChannel own (.channel own call) = some call from if_pos rfl),
          List.map_cons]
        exact congrArg _ ih
      | _ => contradiction
    · exact ih

/-! What the goroutines of a channel are given to do. -/

theorem aimless {call : ChannelCall} (aims : call.aimsAt = none) (other : ChannelEnd)
    (same : call.aimsAt = some other) : other = target := by
  rw [aims] at same
  contradiction

/-- An instruction of those that carry a stream or the requests for an end. -/
inductive Carrying (n : Nat) (target : ChannelEnd) (ended : Bool) :
    Instruction Forwarding → Prop
  | record (activity : Activity) :
      Carrying n target ended (.go [perform n (.handleEvent activity)])
  | perform (call : ChannelCall) (traffic : call.traffic = true)
      (aims : ∀ other, call.aimsAt = some other → other = target) :
      Carrying n target ended (perform n call)
  | wait (open' : ended = false) : Carrying n target ended (.await .never)

theorem copyStream_carrying (channel : ChannelWrapper) (buff : Bytes) (transfers : List Transfer) :
    ∀ instruction ∈ copyStream user fn n target stderr channel buff transfers,
      Carrying n target (Transfer.ends transfers) instruction := by
  induction transfers generalizing buff with
  | nil =>
    intro instruction member
    rw [List.mem_singleton.mp member]
    exact .wait rfl
  | cons transfer transfers ih =>
    intro instruction member
    rw [copyStream] at member
    rcases List.mem_append.mp member with member | member
    · rcases List.mem_append.mp member with member | member
      · split at member
        · rw [List.mem_singleton.mp member]
          exact .record _
        · contradiction
      · split at member
        · rw [List.mem_singleton.mp member]
          exact .perform _ rfl fun _ same => (Option.some.inj same).symm
        · contradiction
    · split at member
      · contradiction
      · next goesOn =>
        have same : Transfer.ends (transfer :: transfers) = Transfer.ends transfers := by
          rw [Transfer.ends, List.any_cons, eq_false_of_ne_true goesOn, Bool.false_or, Transfer.ends]
        exact same ▸ ih _ instruction member

theorem handleRequests_carrying (channelID : Int64) (requests : RequestStream) :
    ∀ instruction ∈ handleRequests n target channelID requests,
      Carrying n target requests.ended instruction := by
  intro instruction member
  simp only [handleRequests, counted, forwardRequest, List.cons_append, List.mem_cons,
    List.mem_append, List.mem_flatMap, List.mem_map, List.not_mem_nil, or_false, Option.mem_toList,
    Option.map_eq_some_iff] at member
  rcases member with rfl | (⟨arrival, -, request⟩ | wait) | rfl
  · exact .perform _ rfl (aimless rfl)
  · rcases request with rfl | rfl | (⟨size, -, rfl⟩ | ⟨call, -, rfl⟩) | rfl
    · exact .perform _ rfl (aimless rfl)
    · exact .perform _ rfl (aimless rfl)
    · exact .record _
    · exact .perform _ rfl fun _ same => (Option.some.inj same).symm
    · exact .perform _ rfl (aimless rfl)
  · split at wait
    · contradiction
    · next open' =>
      rw [List.mem_singleton.mp wait]
      exact .wait (eq_false_of_ne_true open')
  · exact .perform _ rfl (aimless rfl)

/-! What each of them does for each part. -/

theorem counted_part (body : List (Instruction Forwarding)) :
    (labels (counted n body)).filter (inPart n part) = (labels body).filter (inPart n part) := by
  simp [counted, perform, labels, labels_append, Instruction.labels, ChannelCall.part]

theorem copyStream_part (channel : ChannelWrapper) (buff : Bytes) (transfers : List Transfer) :
    (labels (copyStream user fn n target stderr channel buff transfers)).filter (inPart n part) =
      if part = .stream target stderr then
        (Transfer.writes target stderr transfers).map (.channel n) else [] := by
  induction transfers generalizing buff with
  | nil => simp [copyStream, labels, Instruction.labels, Transfer.writes, Transfer.carried]
  | cons transfer transfers ih =>
    have wrote : (labels (if 0 < transfer.data.length then
          [perform n (.write target stderr transfer.forwarded)] else [])).filter (inPart n part) =
        if part = .stream target stderr then
          (if 0 < transfer.data.length then [.channel n (.write target stderr transfer.forwarded)]
            else []) else [] := by
      split <;> simp [labels, Instruction.labels, perform, ChannelCall.part, List.filter_cons, eq_comm]
    have recorded (clean : Bool) (activity : Activity) : (labels (if clean = true then
          [.go [perform n (.handleEvent activity)]] else [])).filter (inPart n part) = [] := by
      split <;> simp [labels, Instruction.labels, perform, ChannelCall.part]
    have later : (labels (if transfer.last = true then [] else
          copyStream user fn n target stderr channel
            (channel.read user fn buff transfer.toDelivery).buff transfers)).filter (inPart n part) =
        if transfer.last = true then [] else if part = .stream target stderr then
          (Transfer.writes target stderr transfers).map (.channel n) else [] := by
      split
      · rfl
      · exact ih _
    rw [copyStream, labels_append, labels_append, List.filter_append, List.filter_append, recorded,
      StreamCopy.read_bytes, ChannelWrapper.read_handed, ← Transfer.forwarded, wrote, later,
      Transfer.writes_cons, List.nil_append]
    split
    · rw [List.map_append]
      congr 1 <;> split <;> rfl
    · rw [List.nil_append, ite_self]

theorem handleRequests_part (channelID : Int64) (requests : RequestStream) :
    (labels (handleRequests n target channelID requests)).filter (inPart n part) =
      if part = .requests target then (requests.calls target).map (.channel n) else [] := by
  have each (arrival : ChannelRequest × Nat) :
      (labels (forwardRequest n target channelID arrival.2 arrival.1)).filter (inPart n part) =
        if part = .requests target then
          ((arrival.1.request.forward arrival.1.outcome.ofChannel).1.map fun call =>
            .forward target arrival.2 call).map (.channel n) else [] := by
    rw [forwardRequest, counted_part]
    have spawned (size : Option (UInt32 × UInt32)) : (labels (size.map fun size =>
          Instruction.go [perform n (.handleEvent
            (.windowResize size.2 size.1 arrival.1.requestID))]).toList).filter (inPart n part) = [] := by
      cases size <;> simp [labels, Instruction.labels, perform, ChannelCall.part]
    have forwards (calls : List RequestCall) :
        (labels (calls.map fun call => perform n (.forward target arrival.2 call))).filter
          (inPart n part) = if part = .requests target then
            (calls.map fun call => .forward target arrival.2 call).map (.channel n) else [] := by
      induction calls with
      | nil => simp [labels]
      | cons call calls ih =>
        rw [List.map_cons, labels, List.filter_append, ih]
        split
        · next same => simp [Instruction.labels, perform, ChannelCall.part, same]
        · next apart => simp [Instruction.labels, perform, ChannelCall.part, Ne.symm apart]
    rw [List.cons_append, labels, labels_append, List.filter_append, List.filter_append, spawned,
      forwards, List.nil_append]
    simp [Instruction.labels, perform, ChannelCall.part]
  have never : (labels (if requests.ended = true then [] else [.await Forwarding.never])).filter
      (inPart n part) = [] := by
    split <;> rfl
  rw [handleRequests, counted_part, labels_append, List.filter_append, never, List.append_nil,
    labels_flatMap, List.filter_flatMap]
  simp only [each]
  split
  · rw [RequestStream.calls, List.map_flatMap]
  · exact List.flatMap_eq_nil_iff.mpr fun _ _ => rfl

theorem copyChannel_part (channelID : Int64) (channel : CarriedChannel) :
    (labels (copyChannel user fn n target channelID channel)).filter (inPart n part) =
      if part = .stream target false ∨ part = .stream target true then
        (channel.calls part).map (.channel n) else [] := by
  rw [copyChannel, counted_part]
  simp only [labels, Instruction.labels, labels_append, List.cons_append, List.filter_append, copyOf,
    copyStream_part, perform, inPart_own, List.filter_cons, List.filter_nil, ChannelCall.part]
  cases part with
  | stream t stderr =>
    by_cases same : t = target
    · subst same
      cases stderr <;> simp [CarriedChannel.calls, ChannelEnd.ending]
    · cases stderr <;> simp [same, Ne.symm same]
  | answer => simp
  | requests t => simp

theorem bidirectionalChannelClone_part (channelID : Int64) (channel : CarriedChannel) :
    (labels (bidirectionalChannelClone user fn n channelID channel)).filter (inPart n part) =
      if part matches .stream .. then (channel.calls part).map (.channel n) else [] := by
  rw [bidirectionalChannelClone, counted_part]
  simp only [labels, Instruction.labels, labels_append, List.filter_append, copyChannel_part, perform,
    inPart_own, List.filter_cons, List.filter_nil, ChannelCall.part]
  cases part with
  | stream t stderr => cases t <;> cases stderr <;> simp
  | answer => simp
  | requests t => simp

theorem carry_part (channelID : Int64) (channel : CarriedChannel) :
    (labels (carry user fn n channelID channel)).filter (inPart n part) =
      (channel.calls part).map (.channel n) := by
  rw [carry]
  simp only [labels, Instruction.labels, labels_append, List.cons_append, List.filter_append,
    handleRequests_part, bidirectionalChannelClone_part, perform, inPart_own, List.filter_cons,
    List.filter_nil, ChannelCall.part]
  cases part with
  | stream t stderr => simp
  | answer => simp [CarriedChannel.calls]
  | requests t => cases t <;> simp [CarriedChannel.calls]

theorem forwardChannel_part (arrival : NewChannel) :
    (labels (forwardChannel user fn n arrival)).filter (inPart n part) =
      (arrival.calls part).map (.channel n) := by
  rw [forwardChannel, counted_part, labels, List.filter_append, NewChannel.calls]
  have event : (perform n (.handleEvent (.newChannel arrival.channelType arrival.extraData
      arrival.channelID))).labels.filter (inPart n part) = [] := by
    simp [Instruction.labels, perform, ChannelCall.part]
  rw [event, List.nil_append]
  split
  · simp only [labels, Instruction.labels, perform, List.append_nil, inPart_own, List.filter_cons,
      List.filter_nil, ChannelCall.part]
    by_cases answer : part = .answer <;> simp [answer, eq_comm]
  · have turned : (ChannelPart.answer = part) = (part = .answer) := propext eq_comm
    rw [labels, List.filter_append]
    cases arrival.fate with
    | refused failure =>
      cases failure <;> by_cases answer : part = .answer <;>
        simp [labels, Instruction.labels, perform, OpenFailure.reject, ChannelCall.part, answer, turned]
    | notAccepted =>
      by_cases answer : part = .answer <;>
        simp [labels, Instruction.labels, perform, ChannelCall.part, answer, turned]
    | carried established =>
      simp only [labels, List.filter_append, carry_part]
      by_cases answer : part = .answer <;>
        simp [Instruction.labels, perform, ChannelCall.part, answer, turned]

/-! What is left to which goroutine. -/

theorem Carrying.quiet {ended : Bool} {instruction : Instruction Forwarding}
    (carrying : Carrying n target ended instruction) {started : List (Instruction Forwarding)}
    (same : instruction = .go started) : (labels started).filter (inPart n part) = [] := by
  cases carrying with
  | record activity =>
    obtain rfl := Instruction.go.inj same
    simp [labels, Instruction.labels, Forwarding.perform, ChannelCall.part]
  | perform call traffic aims => contradiction
  | wait open' => contradiction

theorem inOrder_of_carrying {ended : Bool} {thread rest : List (Instruction Forwarding)}
    (carrying : ∀ instruction ∈ thread, Carrying n target ended instruction)
    (last : InOrder (inPart n part) rest) : InOrder (inPart n part) (thread ++ rest) := by
  have quiet (started : List (Instruction Forwarding)) (member : .go started ∈ thread) :
      (labels started).filter (inPart n part) = [] := (carrying _ member).quiet rfl
  exact inOrder_append (inOrder_of_started thread quiet) last fun started member =>
    .inl (quiet started member)

theorem inOrder_plain {thread : List (Instruction Forwarding)}
    (plain : ∀ started, .go started ∉ thread) : InOrder (inPart n part) thread :=
  inOrder_of_started thread fun started member => absurd member (plain started)

theorem counted_inOrder {body : List (Instruction Forwarding)}
    (inOrder : InOrder (inPart n part) body) : InOrder (inPart n part) (counted n body) := by
  have ends : (labels [perform n .markThreadStopped]).filter (inPart n part) = [] := by
    simp [labels, Instruction.labels, perform, ChannelCall.part]
  refine ⟨trivial, inOrder_append inOrder (inOrder_plain (by simp [perform])) fun _ _ => .inr ends, ?_⟩
  intro thread same
  contradiction

theorem copyChannel_inOrder (channelID : Int64) (channel : CarriedChannel) :
    InOrder (inPart n part) (copyChannel user fn n target channelID channel) := by
  refine counted_inOrder ⟨?_, ?_, fun thread same => ?_⟩
  · exact inOrder_of_carrying (copyStream_carrying _ _ _) (inOrder_plain (by simp [perform]))
  · exact inOrder_of_carrying (copyStream_carrying _ _ _) (inOrder_plain (by simp [perform]))
  · obtain rfl := Instruction.go.inj same
    by_cases own : part = .stream target false
    · subst own
      refine .inr ?_
      rw [List.append_eq, labels_append, List.filter_append, copyOf, copyStream_part, if_neg (by simp)]
      simp [labels, Instruction.labels, perform, ChannelCall.part]
    · refine .inl ?_
      rw [labels_append, List.filter_append, copyOf, copyStream_part, if_neg own]
      simp [labels, Instruction.labels, perform, ChannelCall.part, Ne.symm own]

theorem bidirectionalChannelClone_inOrder (channelID : Int64) (channel : CarriedChannel) :
    InOrder (inPart n part) (bidirectionalChannelClone user fn n channelID channel) := by
  have done : (labels [perform n .incomingWriteDone]).filter (inPart n part) = [] := by
    simp [labels, Instruction.labels, perform, ChannelCall.part]
  refine counted_inOrder ⟨?_, ⟨?_, inOrder_plain (by simp), fun thread same => .inr rfl⟩,
    fun thread same => ?_⟩
  · exact inOrder_append (copyChannel_inOrder _ _) (inOrder_plain (by simp [perform])) fun _ _ =>
      .inr done
  · exact copyChannel_inOrder _ _
  · obtain rfl := Instruction.go.inj same
    by_cases own : part = .stream .incoming false ∨ part = .stream .incoming true
    · refine .inr ?_
      rw [labels, List.filter_append, Instruction.labels, copyChannel_part, if_neg]
      · rfl
      · rcases own with rfl | rfl <;> simp
    · refine .inl ?_
      rw [labels_append, List.filter_append, copyChannel_part, if_neg own, done, List.nil_append]

theorem carry_inOrder (channelID : Int64) (channel : CarriedChannel) :
    InOrder (inPart n part) (carry user fn n channelID channel) := by
  refine ⟨?_, ⟨?_, ?_, fun thread same => ?_⟩, fun thread same => ?_⟩
  · exact inOrder_of_carrying (handleRequests_carrying _ _) (inOrder_plain (by simp [perform]))
  · rw [← List.append_nil (handleRequests ..)]
    exact inOrder_of_carrying (handleRequests_carrying _ _) trivial
  · refine inOrder_append (bidirectionalChannelClone_inOrder _ _) (inOrder_plain (by simp [perform]))
      fun thread member => ?_
    cases part with
    | stream t stderr =>
      exact .inr (by simp [labels, Instruction.labels, perform, ChannelCall.part])
    | answer =>
      exact .inl (started_quiet member (by rw [bidirectionalChannelClone_part, if_neg (by simp)]))
    | requests t =>
      exact .inl (started_quiet member (by rw [bidirectionalChannelClone_part, if_neg (by simp)]))
  · obtain rfl := Instruction.go.inj same
    by_cases own : part = .requests .outgoing
    · subst own
      refine .inr ?_
      rw [List.append_eq, labels_append, List.filter_append, bidirectionalChannelClone_part,
        if_neg (by simp)]
      simp [labels, Instruction.labels, perform, ChannelCall.part]
    · exact .inl (by rw [handleRequests_part, if_neg own])
  · obtain rfl := Instruction.go.inj same
    by_cases own : part = .requests .incoming
    · subst own
      refine .inr ?_
      rw [List.append_eq, List.cons_append, labels, List.filter_append, Instruction.labels,
        handleRequests_part, if_neg (by simp), labels_append, List.filter_append,
        bidirectionalChannelClone_part, if_neg (by simp)]
      simp [labels, Instruction.labels, perform, ChannelCall.part]
    · refine .inl ?_
      rw [labels_append, List.filter_append, handleRequests_part, if_neg own]
      simp [labels, Instruction.labels, perform, ChannelCall.part, Ne.symm own]

theorem forwardChannel_inOrder (arrival : NewChannel) :
    InOrder (inPart n part) (forwardChannel user fn n arrival) := by
  refine counted_inOrder ⟨trivial, ?_, fun thread same => by contradiction⟩
  split
  · exact inOrder_plain (by simp [perform])
  · cases arrival.fate with
    | refused failure => exact inOrder_plain (by simp [perform])
    | notAccepted => exact inOrder_plain (by simp [perform])
    | carried established =>
      exact ⟨trivial, ⟨trivial, carry_inOrder _ _, fun thread same => by contradiction⟩,
        fun thread same => by contradiction⟩

end Forwarding
end SSHProxyPlus
