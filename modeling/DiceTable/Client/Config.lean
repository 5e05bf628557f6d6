import DiceTable.Feed.Basic
import DiceTable.Session.Machine
import DiceTable.Text.Lowercase
import DiceTable.Wire.Format

/-!
# Settings

Where a client connects to, how long it waits, and how much it keeps.  Settings may come from
anywhere, also from the environment; they are made valid before use.
-/

namespace DiceTable

/-- The settings of a client. -/
structure Config where
  socketUrl : String := "wss://api.critcast.com"
  wireFormat : WireFormat := .socketIo
  serverUrl : String := "https://api.critcast.com"
  connectTimeout : Duration := Machine.defaultTimeout
  requestTimeout : Duration := .ofSeconds 30
  feedCapacity : Nat := Feed.defaultCapacity
  appName : String := "CritCast Client"
  appVersion : String := "0.1.0"
  commandBuffer : Nat := 64
  eventBuffer : Nat := 256
  deriving DecidableEq, Repr

/-- The framing with this name; blanks around it and the case of its letters do not matter. -/
def WireFormat.ofName? (name : String) : Option WireFormat :=
  let name := String.ofList ((Text.trimBlanks name.toList).map Text.lowercaseAscii)
  if name = "socket.io" ∨ name = "socketio" then some .socketIo
  else if name = "json" ∨ name = "json-frames" then some .jsonFrames
  else none

namespace Config

/-- The largest feed that a client keeps. -/
def maxFeedCapacity : Nat := 1000

/-- The settings in an environment; what is not set there, or makes no sense, is as usual. -/
def ofEnvironment (lookup : String → Option String) : Config :=
  let usual : Config := {}
  { usual with
    socketUrl := (lookup "CRITCAST_SOCKET_URL").getD usual.socketUrl
    serverUrl := (lookup "CRITCAST_SERVER_URL").getD usual.serverUrl
    wireFormat :=
      ((lookup "CRITCAST_WIRE_FORMAT").bind WireFormat.ofName?).getD usual.wireFormat }

/-- A duration, or the usual one in place of none at all. -/
def positiveOr (usual given : Duration) : Duration := if given.nanoseconds = 0 then usual else given

/-- The settings made valid. -/
def validated (c : Config) : Config :=
  let usual : Config := {}
  { c with
    socketUrl := Text.trim c.socketUrl
    serverUrl := Text.dropSlashes (Text.trim c.serverUrl)
    connectTimeout := positiveOr usual.connectTimeout c.connectTimeout
    requestTimeout := positiveOr usual.requestTimeout c.requestTimeout
    feedCapacity := min (max c.feedCapacity 1) maxFeedCapacity
    commandBuffer := max c.commandBuffer 1
    eventBuffer := max c.eventBuffer 1 }

/-- The source of the rolls that the client makes. -/
def rollSource (c : Config) : RollSource where
  kind := .app
  label := some c.appName
  version := some c.appVersion

/-- The address that rolls are submitted to. -/
def ingestUrl (serverUrl : String) : String := Text.dropSlashes serverUrl ++ "/api/v1/ingest"

end Config

end DiceTable
