import SSHProxyPlus.Go.Nil
import SSHProxyPlus.Proxy.User
import SSHProxyPlus.Session.Event

/-! A session: one client's connection through the proxy. -/
namespace SSHProxyPlus
open Go

/-- Nanoseconds since the Unix epoch. -/
abbrev Time := Int

/-- Go's zero time, the start of the year 1. -/
def zeroTime : Time := -62135596800 * 10 ^ 9

/-- `Time.Sub`, which stays within the range of a duration. -/
def durationBetween (start now : Time) : Int := max (-2 ^ 63) (min (2 ^ 63 - 1) (now - start))

def unixSeconds (t : Time) : Int64 := Int64.ofInt (t / 10 ^ 9)

/-- Sessions are shared by pointer between the maps of a proxy and its threads. -/
abbrev SessionRef := Nat

structure SessionContext where
  /-- The session's `proxy` pointer: nil until the password callback sets it. -/
  linked : Bool := false
  clientHost : Bytes := []
  clientUsername : Bytes := []
  clientPassword : Bytes := []
  active : Bool := false
  startTime : Time := zeroTime
  stopTime : Time := zeroTime
  filename : Bytes := []
  events : List SessionEvent := []
  user : Option ProxyUser := none
  sessionID : Bytes := []

namespace SessionContext

def getID (session : SessionContext) : Bytes := session.sessionID

def getStartTimeAsUnix (session : SessionContext) : Int64 := unixSeconds session.startTime

/-- The source reads the start time here as well. -/
def getStopTimeAsUnix (session : SessionContext) : Int64 := unixSeconds session.startTime

def getTimeOffset (session : SessionContext) (now : Time) : Int64 :=
  Int64.ofInt ((durationBetween session.startTime now).tdiv (10 ^ 6))

def addEvent (session : SessionContext) (event : SessionEvent) (now : Time) : SessionContext :=
  { session with events := session.events ++ [{ event with timeOffset := session.getTimeOffset now }] }

/-- `HandleEvent` on the session itself. Its first goroutine reads the callbacks of the
session's user. -/
def handleEvent (session : SessionContext) (event : SessionEvent) (now : Time) :
    Except Panic SessionContext := do
  let _ ← deref session.user
  return session.addEvent event now

/-- The name `finalizeLog` leaves: short logs are renamed. -/
def finalizeLog (session : SessionContext) (sessionFolder : Bytes) : SessionContext :=
  if session.events.length < 10 then
    { session with filename := sessionFolder ++ lit "/" ++ session.filename ++ lit ".scan" }
  else session

/-- `End`: nothing for a session that is not active. -/
def endSession (session : SessionContext) (sessionFolder : Bytes) (now : Time) :
    Except Panic SessionContext :=
  if session.active then do
    let stopped := { session with active := false, stopTime := now }
    let event := { type := eventSessionStop, stopTime := stopped.getStopTimeAsUnix }
    let recorded ← stopped.handleEvent event now
    let _ ← deref (if session.linked then some () else none)
    return recorded.finalizeLog sessionFolder
  else return session

end SessionContext
end SSHProxyPlus
