import SSHProxyPlus.Go.JsonArray
import SSHProxyPlus.Proxy.Sessions
import SSHProxyPlus.Session.Playback
import Mathlib.Data.Int.Log
import Mathlib.Data.Rat.Floor

/-! What the web server tells about sessions in its lists. -/
namespace SSHProxyPlus
open Go

structure SessionInfo where
  key : Bytes := []
  active : Bool := false
  startTime : Int64 := 0
  length : Int64 := 0
  user : Bytes := []
  secret : Bytes := []

namespace SessionInfo

def fields : List (StructField SessionInfo) := [
  field "Key" (some "key") stringCodec key fun x i => { i with key := x },
  field "Active" (some "active") boolCodec active fun x i => { i with active := x },
  field "Start_time" (some "start") intCodec startTime fun x i => { i with startTime := x },
  field "Length" (some "length") intCodec length fun x i => { i with length := x },
  field "User" (some "user,omitempty") stringCodec user fun x i => { i with user := x },
  field "Secret" (some "secret,omitempty") stringCodec secret fun x i => { i with secret := x }]

def codec : Codec SessionInfo := structCodec {} fields

end SessionInfo

/-- The integer next to a number; of two that are as near, the even one. -/
def roundHalfEven (q : ℚ) : ℤ :=
  let below := ⌊q⌋
  if q - below < 1 / 2 then below
  else if 1 / 2 < q - below then below + 1
  else if below % 2 = 0 then below
  else below + 1

/-- The `float64` next to a number of an exponent within its range. -/
def roundFloat (q : ℚ) : ℚ :=
  let unit := (2 : ℚ) ^ (Int.log 2 |q| - 52)
  roundHalfEven (q / unit) * unit

/-- `int64(duration.Seconds())`: the seconds as a `float64`, without their fraction. -/
def wholeSeconds (duration : Int) : Int64 :=
  let seconds := roundFloat (duration.tdiv (10 ^ 9) + roundFloat (duration.tmod (10 ^ 9) / 10 ^ 9))
  Int64.ofInt (seconds.num.tdiv seconds.den)

example : wholeSeconds 16777216999999999 = 16777217 := by decide +kernel

def SessionContext.webInfo (session : SessionContext) (sessionKey user secret : Bytes) (now : Time) :
    SessionInfo where
  key := sessionKey
  user := user
  secret := secret
  active := session.active
  startTime := session.getStartTimeAsUnix
  length := wholeSeconds
    (durationBetween session.startTime (if session.active then now else session.stopTime))

def buildWebSessionInfoList (heap : SessionHeap) (sessions : GoMap Bytes SessionRef)
    (sessionsKeys : List Bytes) (user secret : Bytes) (now : Time) :
    Except Panic (List SessionInfo) :=
  sessionsKeys.mapM fun sessionKey =>
    if sessionKey = [] then .ok {}
    else do
      let ref ← deref (sessions.lookup sessionKey)
      return (heap.session ref).webInfo sessionKey user secret now

/-- What the web server sees of the sessions when it looks. -/
structure Observation where
  allSessions : MapVar Bytes SessionRef := none
  userSessions : MapVar Bytes (GoMap Bytes SessionRef) := none
  heap : SessionHeap := []
  order : RangeOrder Bytes := sortedOrder byteRank
  now : Time := 0
  /-- What a session that is played sends to the viewer's signal channel. -/
  signal : Option Signal := none

namespace ProxyContext

def withSessions (proxy : ProxyContext) (seen : Observation) : ProxyContext :=
  { proxy with allSessions := seen.allSessions, userSessions := seen.userSessions }

def getAllSessionInfo (proxy : ProxyContext) (seen : Observation) (activeOnly : Bool) :
    Except Panic (List SessionInfo) :=
  let current := proxy.withSessions seen
  let sessionsKeys :=
    if activeOnly then current.listAllActiveSessions seen.heap seen.order
    else current.listAllSessions seen.heap seen.order
  buildWebSessionInfoList seen.heap current.allSessions.content sessionsKeys [] [] seen.now

def getUserSessionInfo (proxy : ProxyContext) (seen : Observation) (viewer : ProxySessionViewer) :
    Except Panic (List SessionInfo) := do
  let (sessions, sessionsKeys) ← viewer.getSessions (proxy.withSessions seen) seen.heap seen.order
  let user ← deref viewer.user
  buildWebSessionInfoList seen.heap sessions sessionsKeys user.getKey viewer.secret seen.now

end ProxyContext

theorem buildWebSessionInfoList_length {heap : SessionHeap} {sessions : GoMap Bytes SessionRef}
    {sessionsKeys : List Bytes} {user secret : Bytes} {now : Time} {infos : List SessionInfo}
    (built : buildWebSessionInfoList heap sessions sessionsKeys user secret now = .ok infos) :
    infos.length = sessionsKeys.length := by
  unfold buildWebSessionInfoList at built
  induction sessionsKeys generalizing infos with
  | nil =>
    cases Except.ok.inj built
    rfl
  | cons key keys ih =>
    rw [List.mapM_cons] at built
    obtain ⟨info, -, rest⟩ := of_bind_ok built
    obtain ⟨later, builtLater, done⟩ := of_bind_ok rest
    cases Except.ok.inj done
    exact congrArg Nat.succ (ih builtLater)

end SSHProxyPlus
