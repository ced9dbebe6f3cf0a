import SSHProxyPlus.Go.Replace
import SSHProxyPlus.Proxy.User
import SSHProxyPlus.Session.Event

/-! A channel of a session as `io.Copy` reads it: the bytes that go on to the other side,
and the events that record them. -/
namespace SSHProxyPlus
open Go

/-- What one read of the wrapped channel delivers; an error may come with the last bytes. -/
structure Delivery where
  data : Bytes
  err : Option Bytes := none

structure ChannelWrapper where
  direction : Bytes
  dataType : Bytes
  channelID : Int64

/-- The filters, one after the other. -/
def ProxyUser.runFilters (user : ProxyUser) (fn : FilterRef → Bytes → Bytes) (data : Bytes) :
    Bytes :=
  user.channelFilters.foldl (fun dataCopy filterFunc => fn filterFunc dataCopy) data

/-- What `Read` leaves in the caller's buffer, what it returns, and the event it hands to
`HandleEvent`. -/
structure ReadResult where
  buff : Bytes
  bytesRead : Nat
  err : Option Bytes
  event : Option SessionEvent

namespace ReadResult

/-- What the caller takes for the bytes that were read. -/
def handed (result : ReadResult) : Bytes := result.buff.take result.bytesRead

/-- The event, where there is one, shows the bytes that are handed on, and their number. -/
def Recorded (result : ReadResult) : Prop :=
  ∀ event, result.event = some event →
    event.data = result.handed ∧ event.size = Int64.ofNat event.data.length

end ReadResult

namespace ChannelWrapper
variable (channel : ChannelWrapper) (user : ProxyUser) (fn : FilterRef → Bytes → Bytes)

def read (buff : Bytes) (delivery : Delivery) : ReadResult :=
  let bytesRead := delivery.data.length
  let filled := delivery.data ++ buff.drop bytesRead
  match delivery.err with
  | some err => { buff := filled, bytesRead, err := some err, event := none }
  | none =>
      let dataCopy := filled.take bytesRead
      let event : SessionEvent := {
        type := eventMessage
        direction := channel.direction
        channelType := channel.dataType
        size := Int64.ofNat bytesRead
        data := user.runFilters fn dataCopy
        channelID := channel.channelID }
      { buff := filled, bytesRead, err := none, event := some event }

/-- The reads of `io.Copy`, into one buffer, until one comes with an error. -/
def copyReads (buff : Bytes) : List Delivery → List ReadResult
  | [] => []
  | delivery :: deliveries =>
      let result := channel.read user fn buff delivery
      result :: if result.err.isNone then copyReads result.buff deliveries else []

/-- The chunks that are read before copying ends. -/
def delivered : List Delivery → List Bytes
  | [] => []
  | delivery :: deliveries =>
      delivery.data :: if delivery.err.isNone then delivered deliveries else []

/-- The filters act on the traffic: what is handed on are the chunks as the filters leave
them, and every event shows what was handed on. -/
structure FiltersTraffic (buff : Bytes) (deliveries : List Delivery) : Prop where
  traffic : ((channel.copyReads user fn buff deliveries).map ReadResult.handed).flatten =
    ((delivered deliveries).map (user.runFilters fn)).flatten
  record : ∀ result ∈ channel.copyReads user fn buff deliveries, result.Recorded

variable {channel user fn}

theorem read_handed (buff : Bytes) (delivery : Delivery) :
    (channel.read user fn buff delivery).handed = delivery.data := by
  unfold read ReadResult.handed
  split
  · exact List.take_left
  · exact List.take_left

theorem read_err (buff : Bytes) (delivery : Delivery) :
    (channel.read user fn buff delivery).err = delivery.err := by
  unfold read
  split
  · next same => exact same.symm
  · next same => exact same.symm

theorem read_recorded {buff : Bytes} {delivery : Delivery} (clean : delivery.err = none) :
    (channel.read user fn buff delivery).Recorded ↔
      user.runFilters fn delivery.data = delivery.data := by
  have handed := @read_handed channel user fn buff delivery
  unfold ReadResult.Recorded
  rw [handed]
  unfold read
  simp only [clean, List.take_left, Option.some.injEq, forall_eq']
  constructor
  · exact fun recorded => recorded.1
  · exact fun same => ⟨same, by rw [same]⟩

/-- The filters act on the traffic exactly where they change nothing. -/
theorem filtersTraffic_iff (channel : ChannelWrapper) (user : ProxyUser)
    (fn : FilterRef → Bytes → Bytes) (buff : Bytes) (deliveries : List Delivery) :
    channel.FiltersTraffic user fn buff deliveries ↔
      ∀ chunk ∈ delivered deliveries, user.runFilters fn chunk = chunk := by
  induction deliveries generalizing buff with
  | nil => exact ⟨fun _ chunk none => absurd none List.not_mem_nil,
      fun _ => ⟨rfl, fun result none => absurd none List.not_mem_nil⟩⟩
  | cons delivery deliveries ih =>
    have handed := @read_handed channel user fn buff delivery
    have err := @read_err channel user fn buff delivery
    cases failed : delivery.err with
    | some text =>
      -- the last bytes come with the error: they are handed on, and no event shows them
      have ends : channel.copyReads user fn buff (delivery :: deliveries) =
          [channel.read user fn buff delivery] := by
        rw [copyReads, err, failed]
        rfl
      have only : delivered (delivery :: deliveries) = [delivery.data] := by
        rw [delivered, failed]
        rfl
      have silent : (channel.read user fn buff delivery).event = none := by
        unfold read
        rw [failed]
      constructor
      · rintro ⟨traffic, -⟩
        rw [ends, only] at traffic
        simp only [List.map_cons, List.map_nil, List.flatten_cons, List.flatten_nil,
          List.append_nil, handed] at traffic
        rw [only]
        exact fun chunk member => (List.mem_singleton.mp member) ▸ traffic.symm
      · intro unchanged
        rw [only] at unchanged
        have same := unchanged delivery.data (List.mem_singleton_self _)
        constructor
        · rw [ends, only]
          simp [handed, same]
        · rw [ends]
          intro result member event shown
          rw [List.mem_singleton.mp member, silent] at shown
          contradiction
    | none =>
      have goesOn : channel.copyReads user fn buff (delivery :: deliveries) =
          channel.read user fn buff delivery ::
            channel.copyReads user fn (channel.read user fn buff delivery).buff deliveries := by
        rw [copyReads, err, failed]
        rfl
      have more : delivered (delivery :: deliveries) = delivery.data :: delivered deliveries := by
        rw [delivered, failed]
        rfl
      have recorded := @read_recorded channel user fn buff delivery failed
      have rest := ih (channel.read user fn buff delivery).buff
      rw [more, List.forall_mem_cons, ← rest]
      constructor
      · rintro ⟨traffic, record⟩
        rw [goesOn] at traffic record
        rw [more] at traffic
        obtain ⟨first, later⟩ := List.forall_mem_cons.mp record
        have same := recorded.mp first
        rw [List.map_cons, List.map_cons, List.flatten_cons, List.flatten_cons, handed, same]
          at traffic
        exact ⟨same, List.append_cancel_left traffic, later⟩
      · rintro ⟨same, traffic, record⟩
        refine ⟨?_, ?_⟩
        · rw [goesOn, more, List.map_cons, List.map_cons, List.flatten_cons, List.flatten_cons,
            handed, same, traffic]
        · rw [goesOn]
          exact List.forall_mem_cons.mpr ⟨recorded.mpr same, record⟩

/-- A filter that replaces `a` by `bb` changes the record of the traffic and not the
traffic. -/
theorem filter_misses_traffic :
    ¬ ∀ (channel : ChannelWrapper) (user : ProxyUser) (fn : FilterRef → Bytes → Bytes)
      (buff : Bytes) (deliveries : List Delivery),
      channel.FiltersTraffic user fn buff deliveries := by
  intro filters
  have traffic := (filters ⟨[], [], 0⟩ { channelFilters := [0] }
    (fun _ => replaceAll (lit "a") (lit "bb")) [0, 0, 0, 0] [{ data := lit "a" }]).traffic
  exact absurd traffic (by decide)

end ChannelWrapper
end SSHProxyPlus
