import QuietRoute.Network.TransportNetwork
import QuietRoute.Containers.PriorityQueue
import QuietRoute.Arithmetic.Rounding
import Mathlib.Data.Rat.Floor
import Mathlib.Data.List.Sort

/-! Route search: Dijkstra's algorithm over stops, Yen's enumeration of the fastest paths, and
the choice of the most quiet one. `none` marks undefined behaviour, an exception, or a path
reconstruction that never reaches its start. -/
namespace QuietRoute

/-- A station together with the edge that was taken to reach it. -/
structure PathStop where
  node : Id
  edge : Option GraphEdge
  deriving DecidableEq

abbrev PathStopDist := PathStop × UInt32

abbrev Path := List PathStopDist

/-- `path.back().second`. -/
def pathTime (path : Path) : UInt32 := (path.getLast?.map Prod.snd).getD 0

/-- What the C++ standard library leaves open: which of several nearest elements is on top of a
priority queue, the iteration order of a hash map, and the order of equal elements after a sort; and
how the platform rounds a `double`. `PathStopDistCmp` and `PathCmp` compare by `>`, so that the least
time comes out first. -/
structure StdLibrary where
  rounding : FloatingPoint.Rounding 53
  stopQueue : PriorityQueue PathStopDist fun a b => a.2.toNat < b.2.toNat
  pathQueue : PriorityQueue Path fun a b => (pathTime a).toNat < (pathTime b).toNat
  iterate : Path → Path
  iterate_perm : ∀ entries, (iterate entries).Perm entries
  sort : Path → Path
  sort_perm : ∀ stops, (sort stops).Perm stops
  sort_descending : ∀ stops, (sort stops).Pairwise fun a b => b.2.toNat ≤ a.2.toNat

/-- One such library: unsorted lists as queues, and maps iterated in insertion order. Doubles are
rounded to nearest. -/
def StdLibrary.simple : StdLibrary where
  rounding := .nearest 53
  stopQueue := .ofKey fun stop : PathStopDist => stop.2.toNat
  pathQueue := .ofKey fun path : Path => (pathTime path).toNat
  iterate := id
  iterate_perm := fun _ => List.Perm.refl _
  sort := List.insertionSort fun a b => b.2.toNat ≤ a.2.toNat
  sort_perm := fun stops => List.perm_insertionSort _ stops
  sort_descending := fun stops => by
    have htotal : Std.Total fun a b : PathStopDist => b.2.toNat ≤ a.2.toNat :=
      ⟨fun a b => le_total _ _⟩
    have htrans : IsTrans PathStopDist fun a b => b.2.toNat ≤ a.2.toNat :=
      ⟨fun a b c hab hbc => hbc.trans hab⟩
    exact List.pairwise_insertionSort _ stops

structure TravelStep where
  startStationId : Id
  endStationId : Id
  lineId : Id
  routeId : Id
  travelTime : UInt32
  deriving DecidableEq

structure TravelRoute where
  startStationId : Id
  endStationId : Id
  totalTravelTime : UInt32
  steps : List TravelStep
  deriving DecidableEq

/-- The default-constructed `TravelRoute {}`. -/
def TravelRoute.none : TravelRoute := ⟨[],[],0,[]⟩

/-- The data structures of one run of Dijkstra's algorithm. -/
structure SearchState (lib : StdLibrary) where
  distFromA : UnorderedMap PathStop UInt32
  previousStop : UnorderedMap PathStop PathStop
  nodesToVisit : lib.stopQueue.Queue

def initialSearch (lib : StdLibrary) (stopA : PathStopDist) : SearchState lib where
  distFromA := UnorderedMap.empty.set stopA.1 stopA.2
  previousStop := .empty
  nodesToVisit := lib.stopQueue.push stopA lib.stopQueue.empty

def GraphEdge.target (edge : GraphEdge) : PathStop := ⟨edge.nextStop,some edge⟩

/-- Five minutes for a change of route; nothing when no edge led here. -/
def changePenalty : Option GraphEdge → GraphEdge → UInt32
  | none, _ => 0
  | some edge, neighborEdge => if edge.route.ptr = neighborEdge.route.ptr then 0 else 5

def SearchState.improve {lib : StdLibrary} (st : SearchState lib) (currStop neighbor : PathStop)
    (neighborDistFromA : UInt32) : SearchState lib where
  distFromA := st.distFromA.set neighbor neighborDistFromA
  previousStop := st.previousStop.set neighbor currStop
  nodesToVisit := lib.stopQueue.push (neighbor,neighborDistFromA) st.nodesToVisit

/-- The body of the loop over the neighbor edges. -/
def relax {lib : StdLibrary} (excludedStops : List PathStop) (currStop : PathStop)
    (currentDistFromA : UInt32) (st : SearchState lib) (neighborEdge : GraphEdge) :
    SearchState lib :=
  let neighbor := neighborEdge.target
  if neighbor ∈ excludedStops then st
  else
    let neighborDistFromA :=
      currentDistFromA+neighborEdge.travelTime+changePenalty currStop.edge neighborEdge
    match st.distFromA.find neighbor with
    | none => st.improve currStop neighbor neighborDistFromA
    | some dist =>
      if neighborDistFromA < dist then st.improve currStop neighbor neighborDistFromA else st

/-- `while (stop.node != stationA)`: collect the path backwards. A chain of predecessors longer
than `distFromA` has entries runs in a circle. -/
def SearchState.assemblePath {lib : StdLibrary} (st : SearchState lib) (stationA : Id) :
    ℕ → PathStop → Path → Option Path
  | 0, stop, path => if stop.node = stationA then some path else none
  | fuel+1, stop, path =>
    if stop.node = stationA then some path
    else do
      let prev ← st.previousStop.find stop
      let distance ← st.distFromA.find prev
      st.assemblePath stationA fuel prev ((prev,distance)::path)

/-- The steps of an itinerary; `none` when a stop after the first has no edge. -/
def travelSteps : Path → Option (List TravelStep)
  | prevStop::currStop::path => do
    let edge ← currStop.1.edge
    let steps ← travelSteps (currStop::path)
    return ⟨prevStop.1.node,currStop.1.node,edge.route.line,edge.route.id,edge.travelTime⟩::steps
  | _ => some []

def assembleTravelRoute (stationA stationB : Id) (path : Path) : Option TravelRoute :=
  (travelSteps path).map fun steps => ⟨stationA,stationB,pathTime path,steps⟩

def stayAt (station : Id) : TravelRoute := ⟨station,station,0,[⟨station,station,[],[],0⟩]⟩

/-- `static_cast<unsigned int>` of a real number, undefined outside of the target's range. -/
def toUnsigned (x : ℚ) : Option UInt32 :=
  if -1 < x ∧ x < 2^32 then some (UInt32.ofNat ⌊x⌋₊) else none

theorem toUnsigned_of_floor_lt {x : ℚ} (hx : 0 ≤ x) (h : ⌊x⌋₊ < 2^32) :
    ∃ t, toUnsigned x = some t ∧ t.toNat = ⌊x⌋₊ := by
  have hneg : -1 < x := neg_one_lt_zero.trans_le hx
  have hlt : x < 2^32 := by
    have hcast := (Nat.floor_lt hx).mp h
    exact_mod_cast hcast
  refine ⟨UInt32.ofNat ⌊x⌋₊,?_,?_⟩
  · rw [toUnsigned,if_pos ⟨hneg,hlt⟩]
  · rw [UInt32.toNat_ofNat',Nat.mod_eq_of_lt h]

/-! The limits: a whole number times a factor, in doubles, rounded down. -/
namespace StdLibrary

variable (lib : StdLibrary) {q q' p p' : ℚ} {n : ℕ}

def timeLimit (minTravelTime : ℕ) (maxSlowdownPc : ℚ) : ℕ :=
  ⌊lib.rounding.product minTravelTime (1+maxSlowdownPc)⌋₊

def crowdingLimit (minCrowding : ℕ) (minQuietnessPc : ℚ) : ℕ :=
  ⌊lib.rounding.product minCrowding (1-minQuietnessPc)⌋₊

theorem le_timeLimit (hn : n < 2^32) (hq : 0 ≤ q) : n ≤ lib.timeLimit n q :=
  Nat.le_floor (lib.rounding.le_product (by omega) (by omega) (by linarith))

theorem timeLimit_mono (n : ℕ) (hqq' : q ≤ q') : lib.timeLimit n q ≤ lib.timeLimit n q' :=
  Nat.floor_mono (lib.rounding.product_mono n (by linarith))

theorem toUnsigned_timeLimit (hq : 0 ≤ q) (hT : lib.timeLimit n q < 2^32) :
    ∃ t, toUnsigned (lib.rounding.product n (1+q)) = some t ∧ t.toNat = lib.timeLimit n q :=
  toUnsigned_of_floor_lt (lib.rounding.product_nonneg n (by linarith)) hT

theorem crowdingLimit_le (hn : n < 2^32) (hp : 0 ≤ p) : lib.crowdingLimit n p ≤ n :=
  Nat.floor_le_of_le (lib.rounding.product_le (by omega) (by omega) (by linarith))

theorem crowdingLimit_anti (n : ℕ) (hpp' : p' ≤ p) : lib.crowdingLimit n p ≤ lib.crowdingLimit n p' :=
  Nat.floor_mono (lib.rounding.product_mono n (by linarith))

theorem toUnsigned_crowdingLimit (hn : n < 2^32) (hp₀ : 0 ≤ p) (hp₁ : p ≤ 1) :
    ∃ t, toUnsigned (lib.rounding.product n (1-p)) = some t ∧ t.toNat = lib.crowdingLimit n p :=
  toUnsigned_of_floor_lt (lib.rounding.product_nonneg n (by linarith))
    ((lib.crowdingLimit_le hn hp₀).trans_lt hn)

end StdLibrary

namespace TransportNetwork

variable (lib : StdLibrary) (nw : TransportNetwork)

/-- One iteration of the search, for the entry taken from the queue. -/
def visit (stationB : Id) (excludedStops : List PathStop) (curr : PathStopDist)
    (st : SearchState lib) : SearchState lib :=
  if curr.1.node = stationB then st
  else (nw.edgesFrom curr.1.node).foldl (relax excludedStops curr.1 curr.2) st

def searchLoop (stationB : Id) (excludedStops : List PathStop) :
    ℕ → SearchState lib → SearchState lib
  | 0, st => st
  | fuel+1, st =>
    match lib.stopQueue.pop st.nodesToVisit with
    | none => st
    | some (curr,rest) => searchLoop stationB excludedStops fuel
        (nw.visit lib stationB excludedStops curr {st with nodesToVisit := rest})

def edgeCount : ℕ := (nw.stations.entries.map fun e => e.2.edges.length).sum

/-- Every push lowers the 32-bit distance of a stop, so that the queue runs empty before this. -/
def searchFuel : ℕ := nw.edgeCount*2^32+1

def search (stopA : PathStopDist) (stationB : Id) (excludedStops : List PathStop) :
    SearchState lib :=
  nw.searchLoop lib stationB excludedStops nw.searchFuel (initialSearch lib stopA)

/-- The private overload of `GetFastestTravelRoute`; an empty path when there is none. -/
def getFastestTravelRouteInternal (stopA : PathStopDist) (stationB : Id)
    (excludedStops : List PathStop) : Option Path :=
  if stopA.1.node = stationB then some [(⟨stopA.1.node,none⟩,0)]
  else
    let st := nw.search lib stopA stationB excludedStops
    let pathsToB := lib.sort ((lib.iterate st.distFromA.entries).filter fun e => e.1.node = stationB)
    match pathsToB.getLast? with
    | none => some []
    | some fastestPathToB =>
      st.assemblePath stopA.1.node st.distFromA.size fastestPathToB.1 [fastestPathToB]

def getFastestTravelRoute (stationAId stationBId : Id) : Option TravelRoute :=
  if (nw.getStation stationAId).isNone || (nw.getStation stationBId).isNone then
    some TravelRoute.none
  else if stationAId = stationBId then some (stayAt stationAId)
  else do
    let path ← nw.getFastestTravelRouteInternal lib (⟨stationAId,none⟩,0) stationBId []
    if path = [] then return ⟨stationAId,stationBId,0,[]⟩
    assembleTravelRoute stationAId stationBId path

/-- The stops that follow the root path in the paths found so far. The comparison covers the
`idx` stops before the spur node, and not the spur node. -/
def removedStops (fastestPaths : List Path) (lastFastestPath : Path) (idx : ℕ) : List PathStop :=
  fastestPaths.filterMap fun path =>
    if idx+1 < path.length ∧ path.take idx = lastFastestPath.take idx then
      path[idx+1]?.map Prod.fst
    else none

/-- The body of the loop over the spur nodes: search on from there and queue the result. -/
def addPotentialPath (stationB : Id) (fastestPaths : List Path) (lastFastestPath : Path)
    (potentialPaths : lib.pathQueue.Queue) (idx : ℕ) : Option lib.pathQueue.Queue := do
  let spurNode ← lastFastestPath[idx]?
  let spurPath ← nw.getFastestTravelRouteInternal lib spurNode stationB
    (removedStops fastestPaths lastFastestPath idx)
  if spurPath = [] then return potentialPaths
  return lib.pathQueue.push (lastFastestPath.take idx ++ spurPath) potentialPaths

/-- Pop potential paths until one is new; `none` when there is none within the time limit. -/
def selectKthPath (maxTravelTime : UInt32) (fastestPaths : List Path) :
    ℕ → lib.pathQueue.Queue → Option (Path × lib.pathQueue.Queue)
  | 0, _ => none
  | fuel+1, potentialPaths =>
    match lib.pathQueue.pop potentialPaths with
    | none => none
    | some (kthPath,rest) =>
      if maxTravelTime < pathTime kthPath then none
      else if kthPath ∈ fastestPaths then selectKthPath maxTravelTime fastestPaths fuel rest
      else some (kthPath,rest)

/-- `while (fastestPaths.size() < maxNPaths)`; the counter is the number of paths still wanted. -/
def enumeratePaths (stationB : Id) (maxTravelTime : UInt32) :
    ℕ → List Path → lib.pathQueue.Queue → Option (List Path)
  | 0, fastestPaths, _ => some fastestPaths
  | wanted+1, fastestPaths, potentialPaths => do
    let lastFastestPath ← fastestPaths.getLast?
    let potentialPaths ← (List.range (lastFastestPath.length-1)).foldlM
      (nw.addPotentialPath lib stationB fastestPaths lastFastestPath) potentialPaths
    match selectKthPath lib maxTravelTime fastestPaths
        (lib.pathQueue.elems potentialPaths).card potentialPaths with
    | none => some fastestPaths
    | some (kthPath,rest) =>
      enumeratePaths stationB maxTravelTime wanted (fastestPaths ++ [kthPath]) rest

def getFastestTravelRoutes (stationA stationB : Id) (maxSlowdownPc : ℚ) (maxNPaths : ℕ) :
    Option (List Path) := do
  let fastestPath ← nw.getFastestTravelRouteInternal lib (⟨stationA,none⟩,0) stationB []
  if fastestPath = [] then return []
  let maxTravelTime ← toUnsigned (lib.rounding.product (pathTime fastestPath).toNat (1+maxSlowdownPc))
  nw.enumeratePaths lib stationB maxTravelTime (maxNPaths-1) [fastestPath] lib.pathQueue.empty

/-- A signed 64-bit count added to an unsigned 32-bit total. -/
def getPathCrowding (path : Path) : UInt32 :=
  path.foldl (fun total stop => UInt32.ofInt
    (total.toNat+((nw.getStation stop.1.node).map (·.passengerCount)).getD 0)) 0

/-- The loop that looks for a path quieter than all before it. -/
def selectQuietPath (maxCrowding : UInt32) : List Path → Path × UInt32 → Path × UInt32
  | [], best => best
  | path::paths, best =>
    let crowding := nw.getPathCrowding path
    if maxCrowding < crowding then selectQuietPath maxCrowding paths best
    else if crowding < best.2 then selectQuietPath maxCrowding paths (path,crowding)
    else selectQuietPath maxCrowding paths best

/-- The path whose itinerary `getQuietTravelRoute` returns, among the enumerated ones. -/
def mostQuietPath (minQuietnessPc : ℚ) (fastestPath : Path) (paths : List Path) : Option Path := do
  let minCrowding := nw.getPathCrowding fastestPath
  let maxCrowding ← toUnsigned (lib.rounding.product minCrowding.toNat (1-minQuietnessPc))
  return (nw.selectQuietPath maxCrowding paths (fastestPath,minCrowding)).1

def getQuietTravelRoute (stationAId stationBId : Id) (maxSlowdownPc minQuietnessPc : ℚ)
    (maxNPaths : ℕ) : Option TravelRoute :=
  if (nw.getStation stationAId).isNone || (nw.getStation stationBId).isNone then
    some TravelRoute.none
  else if stationAId = stationBId then some (stayAt stationAId)
  else do
    match ← nw.getFastestTravelRoutes lib stationAId stationBId maxSlowdownPc maxNPaths with
    | [] => return ⟨stationAId,stationBId,0,[]⟩
    | fastestPath::paths =>
      assembleTravelRoute stationAId stationBId
        (← nw.mostQuietPath lib minQuietnessPc fastestPath paths)

end TransportNetwork
end QuietRoute
