import SSHProxyPlus.Session.Counters
import SSHProxyPlus.Session.Recording
import SSHProxyPlus.Session.Traffic
import SSHProxyPlus.Transition.Forking

/-! The channels that one side of a session opens, and what carries each of them to the other side:
the goroutines of a channel, what they do, and what they wait for. What the two sides send, and how
their calls end, is given with each channel. A step of a goroutine is a call that has returned; a
call that waits for the other side may never be one. -/
namespace SSHProxyPlus
open Go Transition

deriving instance DecidableEq for Activity

/-- The channel that a side has opened, and the one that is opened for it at the other side. -/
inductive ChannelEnd where
  | incoming
  | outgoing
deriving DecidableEq

inductive ChannelCall where
  | markThreadStarted
  | markThreadStopped
  | handleEvent (activity : Activity)
  | reject (reason : Nat) (message : Bytes)
  | openChannel
  | accept
  | write (target : ChannelEnd) (stderr : Bool) (data : Bytes)
  | closeWrite (target : ChannelEnd)
  /-- What comes of the request that arrives at that position for an end. -/
  | forward (target : ChannelEnd) (position : Nat) (call : RequestCall)
  | close (target : ChannelEnd)
  /-- `close(done_copying)`, of the direction with that end. -/
  | doneCopying (target : ChannelEnd)
  | incomingWriteDone
  | destRequestsCompleted
deriving DecidableEq

/-- What is done for the channels of a connection. -/
inductive Forwarding where
  | channel (number : Nat) (call : ChannelCall)
  | markThreadStarted
  | markThreadStopped
  | closeConn
  /-- Nobody does this: it is what a stream waits for that does not end. -/
  | never
deriving DecidableEq

structure ChannelRequest where
  request : Request
  outcome : RequestOutcome
  requestID : Int64

structure RequestStream where
  arrivals : List ChannelRequest := []
  ended : Bool := true

/-- What an established channel carries. A stream has ended where one of its transfers is the last. -/
structure CarriedChannel where
  incomingRequests : RequestStream := {}
  outgoingRequests : RequestStream := {}
  /-- The streams that are read for that end. -/
  streams (target : ChannelEnd) (stderr : Bool) : List Transfer

inductive OpenFailure where
  | openChannelError (reason : Nat) (message : Bytes)
  | other (message : Bytes)

/-- What becomes of a channel where it is of a supported type. -/
inductive ChannelFate where
  | refused (failure : OpenFailure)
  | notAccepted
  | carried (channel : CarriedChannel)

structure NewChannel where
  channelType : Bytes
  extraData : Bytes
  channelID : Int64
  fate : ChannelFate

def connectionFailed : Nat := 2

def unableToOpenChannel : Bytes := lit "Unable to open channel."

def copyBuffer : Bytes := List.replicate (32 * 1024) 0

/-- The request channel of a channel gives no payload with an answer. -/
def RequestOutcome.ofChannel (outcome : RequestOutcome) : RequestOutcome :=
  { outcome with sent := { outcome.sent with product := [] } }

/-- Width and height, where they can be read. -/
def Request.size (request : Request) : Option (UInt32 × UInt32) :=
  match request.dimensions with
  | .ok size => size
  | .error _ => none

def OpenFailure.reject : OpenFailure → ChannelCall
  | .openChannelError reason message => .reject reason message
  | .other message => .reject connectionFailed message

def ChannelEnd.direction : ChannelEnd → Bytes
  | .incoming => lit "incoming"
  | .outgoing => lit "outgoing"

namespace Forwarding
variable (user : ProxyUser) (fn : FilterRef → Bytes → Bytes) (number : Nat)

def perform (call : ChannelCall) : Instruction Forwarding := .perform (.channel number call)

/-- A function that counts itself as a thread while it runs. -/
def counted (body : List (Instruction Forwarding)) : List (Instruction Forwarding) :=
  perform number .markThreadStarted :: body ++ [perform number .markThreadStopped]

/-- `io.Copy`: a read leaves it to a goroutine to record what it has read. -/
def copyStream (target : ChannelEnd) (stderr : Bool) (channel : ChannelWrapper) :
    Bytes → List Transfer → List (Instruction Forwarding)
  | _, [] => [.await .never]
  | buff, transfer :: transfers =>
      let result := channel.read user fn buff transfer.toDelivery
      let activity := .message (target = .incoming) stderr result.bytesRead
        (user.runFilters fn result.handed) channel.channelID
      (if result.err.isNone then [.go [perform number (.handleEvent activity)]] else []) ++
        (if 0 < result.bytesRead then [perform number (.write target stderr
          (result.handed.take (transfer.short.getD result.bytesRead)))] else []) ++
        if transfer.last then [] else copyStream target stderr channel result.buff transfers

def copyOf (target : ChannelEnd) (stderr : Bool) (channelID : Int64) (transfers : List Transfer) :
    List (Instruction Forwarding) :=
  copyStream user fn number target stderr
    ⟨target.direction, if stderr then lit "stderr" else lit "stdout", channelID⟩ copyBuffer transfers

def copyChannel (target : ChannelEnd) (channelID : Int64) (channel : CarriedChannel) :
    List (Instruction Forwarding) :=
  counted number (
    .go (copyOf user fn number target false channelID (channel.streams target false) ++
      [perform number (.doneCopying target)]) ::
    copyOf user fn number target true channelID (channel.streams target true) ++
    [.await (.channel number (.doneCopying target)), perform number (.closeWrite target)])

def bidirectionalChannelClone (channelID : Int64) (channel : CarriedChannel) :
    List (Instruction Forwarding) :=
  counted number [
    .go (copyChannel user fn number .incoming channelID channel ++
      [perform number .incomingWriteDone]),
    .go (copyChannel user fn number .outgoing channelID channel),
    .await (.channel number .incomingWriteDone)]

def forwardRequest (target : ChannelEnd) (channelID : Int64) (position : Nat)
    (arrival : ChannelRequest) : List (Instruction Forwarding) :=
  let request := arrival.request
  counted number (
    perform number (.handleEvent
      (.newRequest request.requestType request.payload arrival.requestID channelID)) ::
    (request.size.map fun size => .go [perform number (.handleEvent
      (.windowResize size.2 size.1 arrival.requestID))]).toList ++
    (request.forward arrival.outcome.ofChannel).1.map fun call =>
      perform number (.forward target position call))

def handleRequests (target : ChannelEnd) (channelID : Int64) (requests : RequestStream) :
    List (Instruction Forwarding) :=
  counted number (
    (requests.arrivals.zipIdx.flatMap fun arrival =>
      forwardRequest number target channelID arrival.2 arrival.1) ++
    if requests.ended then [] else [.await .never])

def carry (channelID : Int64) (channel : CarriedChannel) : List (Instruction Forwarding) :=
  .go (handleRequests number .incoming channelID channel.outgoingRequests ++
    [perform number .destRequestsCompleted]) ::
  .go (handleRequests number .outgoing channelID channel.incomingRequests) ::
  bidirectionalChannelClone user fn number channelID channel ++
  [.await (.channel number .destRequestsCompleted), perform number (.close .incoming),
    perform number (.close .outgoing)]

def forwardChannel (arrival : NewChannel) : List (Instruction Forwarding) :=
  counted number (
    perform number (.handleEvent
      (.newChannel arrival.channelType arrival.extraData arrival.channelID)) ::
    if !channelTypeSupported arrival.channelType then
      [perform number (.reject connectionFailed unableToOpenChannel)]
    else perform number .openChannel :: match arrival.fate with
      | .refused failure => [perform number failure.reject]
      | .notAccepted => [perform number .accept, perform number (.close .outgoing)]
      | .carried established =>
          perform number .accept :: carry user fn number arrival.channelID established)

/-- The loop ends where the connection does. -/
def handleChannels (arrivals : List NewChannel) (ended : Bool) : List (Instruction Forwarding) :=
  .perform .markThreadStarted ::
  (arrivals.zipIdx.map fun arrival => .go (forwardChannel user fn arrival.2 arrival.1)) ++
  if ended then [.perform .closeConn, .perform .markThreadStopped] else [.await .never]

end Forwarding
end SSHProxyPlus
