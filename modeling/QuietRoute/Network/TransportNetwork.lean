import QuietRoute.Bytes
import QuietRoute.Containers.UnorderedMap

/-! The underground network: stations as graph nodes, one edge for every hop of every route.
Stations are shared nodes of the graph; a node is named by its id, which `stations_` maps
one-to-one. An object that is compared by its pointer carries a number for it. -/
namespace QuietRoute

abbrev Id := Bytes

structure Station where
  id : Id
  name : Bytes

structure Route where
  id : Id
  direction : Bytes
  lineId : Id
  startStationId : Id
  endStationId : Id
  stops : List Id

structure Line where
  id : Id
  name : Bytes
  routes : List Route

inductive PassengerEventType
  | enter | exit
  deriving DecidableEq

structure PassengerEvent where
  stationId : Id
  type : PassengerEventType

/-- `ptr` is the address of the object, `line` the id of the line it belongs to. -/
structure RouteInternal where
  ptr : ℕ
  id : Id
  line : Id
  stops : List Id
  deriving DecidableEq

/-- `hop` is the position in the route's stops at which the edge was made; together with the
route it tells apart any two edge objects. -/
structure GraphEdge where
  route : RouteInternal
  hop : ℕ
  nextStop : Id
  travelTime : UInt32
  deriving DecidableEq

structure GraphNode where
  id : Id
  name : Bytes
  passengerCount : ℤ
  edges : List GraphEdge

structure LineInternal where
  id : Id
  name : Bytes
  routes : UnorderedMap Id RouteInternal

structure TransportNetwork where
  stations : UnorderedMap Id GraphNode
  lines : UnorderedMap Id LineInternal

namespace TransportNetwork

def empty : TransportNetwork := ⟨.empty,.empty⟩

variable (nw : TransportNetwork)

def getStation (stationId : Id) : Option GraphNode := nw.stations.find stationId

def getLine (lineId : Id) : Option LineInternal := nw.lines.find lineId

def getRoute (lineId routeId : Id) : Option RouteInternal :=
  (nw.getLine lineId).bind fun line => line.routes.find routeId

def edgesFrom (stationId : Id) : List GraphEdge := ((nw.getStation stationId).map (·.edges)).getD []

def updateEdges (stationId : Id) (f : List GraphEdge → List GraphEdge) : TransportNetwork :=
  {nw with stations := nw.stations.modify stationId fun node => {node with edges := f node.edges}}

def addStation (station : Station) : Bool × TransportNetwork :=
  if (nw.getStation station.id).isSome then (false,nw)
  else (true,{nw with stations := nw.stations.emplace station.id ⟨station.id,station.name,0,[]⟩})

def routePtrs : List ℕ :=
  nw.stations.entries.flatMap (fun e => e.2.edges.map (·.route.ptr)) ++
    nw.lines.entries.flatMap (fun e => e.2.routes.entries.map (·.2.ptr))

/-- `make_shared` returns an address that no live object has. -/
def freshPtr (line : LineInternal) : ℕ :=
  (nw.routePtrs ++ line.routes.entries.map (·.2.ptr)).foldr max 0 + 1

/-- `make_shared<RouteInternal>`. -/
def makeRoute (route : Route) (line : LineInternal) : RouteInternal :=
  ⟨nw.freshPtr line,route.id,line.id,route.stops⟩

/-- The loop over `idx`: every stop but the last gets an edge to the next one. -/
def addEdges (route : RouteInternal) : ℕ → List Id → TransportNetwork → TransportNetwork
  | idx, thisStop::nextStop::stops, nw =>
    addEdges route (idx+1) (nextStop::stops)
      (nw.updateEdges thisStop (· ++ [⟨route,idx,nextStop,0⟩]))
  | _, _, nw => nw

/-- `none` is undefined behaviour: without stops, the bound `stops.size() - 1` of the loop
wraps around and `stops[0]` is read. -/
def addRouteToLine (route : Route) (line : LineInternal) :
    Option (Bool × TransportNetwork × LineInternal) :=
  if (line.routes.find route.id).isSome then some (false,nw,line)
  else if route.stops.any fun stopId => (nw.getStation stopId).isNone then some (false,nw,line)
  else if route.stops = [] then none
  else
    let routeInternal := nw.makeRoute route line
    some (true,addEdges routeInternal 0 route.stops nw,
      {line with routes := line.routes.set route.id routeInternal})

/-- The loop of `addLine`. Edges of earlier routes stay when a later route fails. -/
def addRoutes : List Route → TransportNetwork → LineInternal →
    Option (Bool × TransportNetwork × LineInternal)
  | [], nw, line => some (true,nw,line)
  | route::routes, nw, line =>
    match nw.addRouteToLine route line with
    | none => none
    | some (false,nw',line') => some (false,nw',line')
    | some (true,nw',line') => addRoutes routes nw' line'

def addLine (line : Line) : Option (Bool × TransportNetwork) :=
  if (nw.getLine line.id).isSome then some (false,nw)
  else
    match addRoutes line.routes nw ⟨line.id,line.name,.empty⟩ with
    | none => none
    | some (false,nw',_) => some (false,nw')
    | some (true,nw',lineInternal) =>
      some (true,{nw' with lines := nw'.lines.emplace line.id lineInternal})

def recordPassengerEvent (event : PassengerEvent) : Bool × TransportNetwork :=
  if (nw.getStation event.stationId).isNone then (false,nw)
  else
    let change : ℤ := match event.type with
      | .enter => 1
      | .exit => -1
    (true,{nw with stations := nw.stations.modify event.stationId fun node =>
      {node with passengerCount := node.passengerCount+change}})

/-- `none` is the `runtime_error` for an unknown station. -/
def getPassengerCount (station : Id) : Option ℤ := (nw.getStation station).map (·.passengerCount)

/-- The entry of a route that ends at the station; `none` when the route has no last stop. -/
def routeEndingAt (station : Id) (route : RouteInternal) : Option (List Id) :=
  route.stops.getLast?.map fun endStop => if endStop = station then [route.id] else []

def getRoutesServingStation (station : Id) : Option (List Id) :=
  match nw.getStation station with
  | none => some []
  | some node => do
    let routes := nw.lines.entries.flatMap fun line => line.2.routes.entries.map Prod.snd
    let ending ← routes.mapM (routeEndingAt station)
    return node.edges.map (·.route.id) ++ ending.flatten

/-- The lambda of `setTravelTime`, for one direction. -/
def setEdgeTimes (start stop : Id) (travelTime : UInt32) : Bool × TransportNetwork :=
  ((nw.edgesFrom start).any fun edge => edge.nextStop = stop,
    nw.updateEdges start fun edges => edges.map fun edge =>
      if edge.nextStop = stop then {edge with travelTime := travelTime} else edge)

def setTravelTime (stationA stationB : Id) (travelTime : UInt32) : Bool × TransportNetwork :=
  if (nw.getStation stationA).isNone || (nw.getStation stationB).isNone then (false,nw)
  else
    let forth := nw.setEdgeTimes stationA stationB travelTime
    let back := forth.2.setEdgeTimes stationB stationA travelTime
    (forth.1 || back.1,back.2)

def getTravelTime (stationA stationB : Id) : UInt32 :=
  if (nw.getStation stationA).isNone || (nw.getStation stationB).isNone then 0
  else
    match (nw.edgesFrom stationA).find? fun edge => edge.nextStop = stationB with
    | some edge => edge.travelTime
    | none =>
      match (nw.edgesFrom stationB).find? fun edge => edge.nextStop = stationA with
      | some edge => edge.travelTime
      | none => 0

def findEdgeForRoute (stop : Id) (route : RouteInternal) : Option GraphEdge :=
  (nw.edgesFrom stop).find? fun edge => edge.route.ptr = route.ptr

/-- The walk along the stops of a route, accumulating from `stationA` on. -/
def routeTravelTime (route : RouteInternal) (stationA stationB : Id) :
    List Id → Bool → UInt32 → UInt32
  | [], _, _ => 0
  | stop::stops, foundA, travelTime =>
    let foundA := foundA || stop = stationA
    if stop = stationB then travelTime
    else if foundA then
      match nw.findEdgeForRoute stop route with
      | none => 0
      | some edge => routeTravelTime route stationA stationB stops foundA (travelTime+edge.travelTime)
    else routeTravelTime route stationA stationB stops foundA travelTime

/-- The four-argument overload of `getTravelTime`. -/
def getRouteTravelTime (line route stationA stationB : Id) : UInt32 :=
  match nw.getRoute line route with
  | none => 0
  | some routeInternal =>
    if (nw.getStation stationA).isNone || (nw.getStation stationB).isNone then 0
    else nw.routeTravelTime routeInternal stationA stationB routeInternal.stops false 0

end TransportNetwork
end QuietRoute
