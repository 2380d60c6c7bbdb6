import QuietRoute.Json
import QuietRoute.Network.RouteSearch
import QuietRoute.Stomp.StompServer
import Mathlib.Data.Finset.Insert

/-! The network monitor: its handlers of network events and of quiet-route clients, and its runs over
the callbacks that the STOMP server posts. -/
namespace QuietRoute

inductive NetworkMonitorError
  | kOk | kUndefinedError | kCouldNotConnectToStompClient | kCouldNotParsePassengerEvent
  | kCouldNotParseQuietRouteRequest | kCouldNotRecordPassengerEvent | kCouldNotStartStompServer
  | kCouldNotSubscribeToPassengerEvents | kFailedNetworkLayoutFileDownload
  | kFailedNetworkLayoutFileParsing | kFailedTransportNetworkConstruction | kMissingCaCertFile
  | kMissingNetworkLayoutFile | kStompClientDisconnected | kStompServerClientDisconnected
  | kStompServerDisconnected
  deriving DecidableEq

/-- The part of the configuration that the handlers read. -/
structure NetworkMonitorConfig where
  quietRouteMaxSlowdownPc : ℚ
  quietRouteMinQuietnessPc : ℚ
  quietRouteMaxNPaths : ℕ

/-- The libraries that the monitor rests on. `parseDatetime` tells whether a text is a date. -/
structure Libraries where
  std : StdLibrary
  json : JsonLibrary
  parseDatetime : Bytes → Bool
  ids : IdGenerator

def TravelStep.toJson (step : TravelStep) : Json :=
  .object [(ascii "start_station_id",.string step.startStationId),
    (ascii "end_station_id",.string step.endStationId),(ascii "line_id",.string step.lineId),
    (ascii "route_id",.string step.routeId),(ascii "travel_time",.integer step.travelTime.toNat)]

def TravelRoute.toJson (route : TravelRoute) : Json :=
  .object [(ascii "start_station_id",.string route.startStationId),
    (ascii "end_station_id",.string route.endStationId),
    (ascii "total_travel_time",.integer route.totalTravelTime.toNat),
    (ascii "steps",.array (route.steps.map TravelStep.toJson))]

/-- `from_json`: the date must be one without its last character. -/
def PassengerEvent.fromJson (parseDatetime : Bytes → Bool) (src : Json) : Option PassengerEvent := do
  let stationId ← src.stringAt (ascii "station_id")
  let type ← src.stringAt (ascii "passenger_event")
  let datetimeZ ← src.stringAt (ascii "datetime")
  if parseDatetime datetimeZ.dropLast then
    return ⟨stationId,if type = ascii "in" then .enter else .exit⟩
  else none

structure NetworkMonitor (Session : Type) where
  server : StompServer Session
  network : TransportNetwork
  config : NetworkMonitorConfig
  connectedClients : Finset Bytes
  lastErrorCode : NetworkMonitorError
  lastTravelRoute : TravelRoute

/-- What happens to a monitor. A `true` stands for the error of a WebSocket operation. -/
inductive Event (Session : Type)
  | sessionConnect (ec : Bool) (wsSession : Session)
  | sessionMessage (unspecified : Unspecified) (ec : Bool) (wsSession : Session) (msg : Bytes)
  | sessionDisconnect (ec : Bool) (wsSession : Session)
  | serverDisconnect (ec : Bool)
  | networkEvents (msg : Bytes)
  | execute (unspecified : Unspecified)

namespace NetworkMonitor

variable {Session : Type} [DecidableEq Session] (libs : Libraries)

def started (kHost : Bytes) (network : TransportNetwork) (config : NetworkMonitorConfig) :
    NetworkMonitor Session :=
  ⟨.started kHost,network,config,∅,.kOk,.none⟩

def quietRouteDestination : Bytes := ascii "/quiet-route"

def onNetworkEventsMessage (monitor : NetworkMonitor Session) (msg : Bytes) :
    NetworkMonitor Session :=
  match libs.json.parse msg >>= PassengerEvent.fromJson libs.parseDatetime with
  | none => {monitor with lastErrorCode := .kCouldNotParsePassengerEvent}
  | some event =>
    let (ok,network) := monitor.network.recordPassengerEvent event
    {monitor with
      network := network
      lastErrorCode := if ok then .kOk else .kCouldNotRecordPassengerEvent}

def onQuietRouteClientConnect (monitor : NetworkMonitor Session) (connectionId : Bytes) :
    NetworkMonitor Session :=
  {monitor with connectedClients := insert connectionId monitor.connectedClients, lastErrorCode := .kOk}

def parseRequest (message : Bytes) : Option (Id × Id) := do
  let messageJson ← libs.json.parse message
  let startStationId ← messageJson.stringAt (ascii "start_station_id")
  let endStationId ← messageJson.stringAt (ascii "end_station_id")
  return (startStationId,endStationId)

def dismiss (unspecified : Unspecified) (monitor : NetworkMonitor Session) (connectionId : Bytes) :
    NetworkMonitor Session :=
  {monitor with
    server := monitor.server.close unspecified connectionId
    connectedClients := monitor.connectedClients.erase connectionId}

/-- `none` when the route search or the library leaves by an exception. -/
def onQuietRouteClientMessage (unspecified : Unspecified) (monitor : NetworkMonitor Session)
    (connectionId destination requestId message : Bytes) : Option (NetworkMonitor Session) :=
  if destination ≠ quietRouteDestination then some (monitor.dismiss unspecified connectionId)
  else
    match parseRequest libs message with
    | none =>
      let failed := {monitor with lastErrorCode := .kCouldNotParseQuietRouteRequest}
      some (failed.dismiss unspecified connectionId)
    | some (startStationId,endStationId) => do
      let travelRoute ← monitor.network.getQuietTravelRoute libs.std startStationId endStationId
        monitor.config.quietRouteMaxSlowdownPc monitor.config.quietRouteMinQuietnessPc
        monitor.config.quietRouteMaxNPaths
      let travelRouteText ← libs.json.dump travelRoute.toJson
      let (_,server) := monitor.server.send libs.ids unspecified connectionId
        quietRouteDestination travelRouteText requestId
      return {monitor with server := server, lastErrorCode := .kOk, lastTravelRoute := travelRoute}

def onQuietRouteClientDisconnect (monitor : NetworkMonitor Session) (connectionId : Bytes) :
    NetworkMonitor Session :=
  {monitor with
    connectedClients := monitor.connectedClients.erase connectionId
    lastErrorCode := .kStompServerClientDisconnected}

def onQuietRouteDisconnect (monitor : NetworkMonitor Session) : NetworkMonitor Session :=
  {monitor with lastErrorCode := .kStompServerDisconnected}

def handle (unspecified : Unspecified) (monitor : NetworkMonitor Session) :
    Callback → Option (NetworkMonitor Session)
  | .onClientConnect _ id => some (monitor.onQuietRouteClientConnect id)
  | .onClientMessage _ id destination requestId message =>
    monitor.onQuietRouteClientMessage libs unspecified id destination requestId message
  | .onClientDisconnect _ id => some (monitor.onQuietRouteClientDisconnect id)
  | .onDisconnect _ => some monitor.onQuietRouteDisconnect

/-- The monitor after its first posted callback has left the queue. -/
def dequeue (monitor : NetworkMonitor Session) (rest : List Callback) : NetworkMonitor Session :=
  {monitor with server := {monitor.server with posted := rest}}

/-- `none` when nothing is posted to execute, or when the event leaves by an exception. -/
def step (monitor : NetworkMonitor Session) : Event Session → Option (NetworkMonitor Session)
  | .sessionConnect ec wsSession =>
    some {monitor with server := monitor.server.onWsSessionConnect libs.ids ec wsSession}
  | .sessionMessage unspecified ec wsSession msg =>
    (monitor.server.onWsSessionMessage unspecified ec wsSession msg).map
      fun server => {monitor with server := server}
  | .sessionDisconnect ec wsSession =>
    some {monitor with server := monitor.server.onWsSessionDisconnect ec wsSession}
  | .serverDisconnect ec => some {monitor with server := monitor.server.onWsDisconnect ec}
  | .networkEvents msg => some (monitor.onNetworkEventsMessage libs msg)
  | .execute unspecified =>
    match monitor.server.posted with
    | [] => none
    | callback::rest => (monitor.dequeue rest).handle libs unspecified callback

/-- A session that connects is a new one, not among those that the server holds. -/
def Announces (monitor : NetworkMonitor Session) : Event Session → Prop
  | .sessionConnect _ wsSession => monitor.server.connections.find wsSession = none
  | _ => True

/-- The monitors of the runs in which every step meets a condition. -/
inductive Reaches (condition : NetworkMonitor Session → Event Session → Prop) :
    NetworkMonitor Session → Prop
  | started (kHost : Bytes) (network : TransportNetwork) (config : NetworkMonitorConfig) :
      Reaches condition (started kHost network config)
  | step {monitor monitor' : NetworkMonitor Session} {event : Event Session}
      (h : Reaches condition monitor) (hannounces : monitor.Announces event)
      (hcondition : condition monitor event) (hstep : monitor.step libs event = some monitor') :
      Reaches condition monitor'

end NetworkMonitor
end QuietRoute
