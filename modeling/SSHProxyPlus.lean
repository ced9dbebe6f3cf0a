import SSHProxyPlus.Controller.Atomicity
import SSHProxyPlus.Controller.HookKeys
import SSHProxyPlus.Controller.Listening
import SSHProxyPlus.Controller.Message
import SSHProxyPlus.Controller.ProxyIDs
import SSHProxyPlus.Controller.Removal
import SSHProxyPlus.Controller.Runs
import SSHProxyPlus.Controller.Saving
import SSHProxyPlus.Controller.Serializability
import SSHProxyPlus.Controller.Socket
import SSHProxyPlus.Controller.Stalling
import SSHProxyPlus.Controller.Stopping
import SSHProxyPlus.Controller.Unauthenticated
import SSHProxyPlus.Proxy.Authentication
import SSHProxyPlus.Proxy.Linking
import SSHProxyPlus.Proxy.Revocation
import SSHProxyPlus.Proxy.SessionStore
import SSHProxyPlus.Proxy.Visibility
import SSHProxyPlus.Proxy.VisitOrder
import SSHProxyPlus.Replay.Recorded
import SSHProxyPlus.Replay.Seeking
import SSHProxyPlus.Replay.Shown
import SSHProxyPlus.Session.Channel
import SSHProxyPlus.Session.Farewell
import SSHProxyPlus.Session.Filters
import SSHProxyPlus.Session.FinishedLog
import SSHProxyPlus.Session.Playback
import SSHProxyPlus.Session.SharedFilters
import SSHProxyPlus.Session.Shutdown
import SSHProxyPlus.Session.Traffic
import SSHProxyPlus.Web.Confidentiality
import SSHProxyPlus.Session.Callbacks
import SSHProxyPlus.Session.Counters
import SSHProxyPlus.Session.Offsets
import SSHProxyPlus.Session.Records
import SSHProxyPlus.Session.Dimensions
import SSHProxyPlus.Controller.ClientList
import SSHProxyPlus.Page.Links
import SSHProxyPlus.Controller.ViewerLookups
import SSHProxyPlus.Replay.Buffering
import SSHProxyPlus.Replay.Keystrokes
import SSHProxyPlus.Page.Player
import SSHProxyPlus.Replay.Streaming
import SSHProxyPlus.Replay.Timers
import SSHProxyPlus.Session.Round
import SSHProxyPlus.Session.Stranding
import SSHProxyPlus.Page.Alike
import SSHProxyPlus.Session.Delivery
import SSHProxyPlus.Page.SignedLinks
import SSHProxyPlus.Page.FinishedSessions
