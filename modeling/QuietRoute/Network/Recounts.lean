import QuietRoute.Network.RouteSearch
import QuietRoute.Network.Invariants

/-! A network with other passenger counts. It answers every question about lines, times and fastest
routes as before. -/
namespace QuietRoute

def PassengerEventType.change : PassengerEventType → ℤ
  | .enter => 1
  | .exit => -1

namespace TransportNetwork

def recount (nw : TransportNetwork) (change : Id → ℤ) : TransportNetwork :=
  {nw with stations := nw.stations.mapWithKey fun S node =>
    {node with passengerCount := node.passengerCount+change S}}

variable {lib : StdLibrary} {nw : TransportNetwork} {change change' : Id → ℤ}

theorem getStation_recount (S : Id) : (nw.recount change).getStation S = (nw.getStation S).map fun node =>
    {node with passengerCount := node.passengerCount+change S} :=
  UnorderedMap.find_mapWithKey _ _ S

@[simp] theorem isNone_getStation_recount (S : Id) :
    ((nw.recount change).getStation S).isNone = (nw.getStation S).isNone := by
  rw [getStation_recount,Option.isNone_map]

@[simp] theorem edgesFrom_recount (S : Id) : (nw.recount change).edgesFrom S = nw.edgesFrom S := by
  rw [edgesFrom,getStation_recount,Option.map_map]
  rfl

@[simp] theorem getRoute_recount (line route : Id) :
    (nw.recount change).getRoute line route = nw.getRoute line route := rfl

theorem getPassengerCount_recount (S : Id) :
    (nw.recount change).getPassengerCount S = (nw.getPassengerCount S).map (· + change S) := by
  rw [getPassengerCount,getStation_recount,getPassengerCount,Option.map_map,Option.map_map]
  rfl

theorem eq_of_entries {nw' : TransportNetwork} (hstations : nw.stations.entries = nw'.stations.entries)
    (hlines : nw.lines = nw'.lines) : nw = nw' := by
  cases nw
  cases nw'
  congr
  exact UnorderedMap.ext hstations

theorem recount_recount :
    (nw.recount change).recount change' = nw.recount fun S => change S+change' S := by
  refine eq_of_entries ?_ rfl
  simp only [recount,UnorderedMap.mapWithKey,List.map_map]
  refine List.map_congr_left fun entry _ => ?_
  simp [add_assoc]

theorem recount_zero (h : ∀ S, change S = 0) : nw.recount change = nw := by
  refine eq_of_entries ?_ rfl
  simp only [recount,UnorderedMap.mapWithKey,h,add_zero]
  exact List.map_id' _

theorem recordPassengerEvent_eq (nw : TransportNetwork) (event : PassengerEvent) :
    (nw.recordPassengerEvent event).2 = nw.recount fun S =>
      if event.stationId = S then event.type.change else 0 := by
  rw [recordPassengerEvent]
  split_ifs with hunknown
  · have hnone : event.stationId ∉ nw.stations.entries.map Prod.fst := by
      rw [← UnorderedMap.find_eq_none_iff]
      exact Option.isNone_iff_eq_none.mp hunknown
    refine eq_of_entries ?_ rfl
    simp only [recount,UnorderedMap.mapWithKey]
    refine ((List.map_congr_left fun entry hentry => ?_).trans (List.map_id _)).symm
    have hne : event.stationId ≠ entry.1 := fun heq => hnone (heq ▸ List.mem_map_of_mem hentry)
    simp [hne]
  · refine eq_of_entries ?_ rfl
    simp only [recount,UnorderedMap.mapWithKey,UnorderedMap.modify]
    refine List.map_congr_left fun entry _ => ?_
    by_cases heq : entry.1 = event.stationId
    · rw [if_pos heq,if_pos heq.symm]
      cases event.type <;> rfl
    · rw [if_neg heq,if_neg (Ne.symm heq),add_zero]

/-! What does not look at the counts. -/

@[simp] theorem getTravelTime_recount (stationA stationB : Id) :
    (nw.recount change).getTravelTime stationA stationB = nw.getTravelTime stationA stationB := by
  simp only [getTravelTime,isNone_getStation_recount,edgesFrom_recount]

theorem routeTravelTime_recount (route : RouteInternal) (stationA stationB : Id) (stops : List Id)
    (foundA : Bool) (travelTime : UInt32) :
    (nw.recount change).routeTravelTime route stationA stationB stops foundA travelTime =
      nw.routeTravelTime route stationA stationB stops foundA travelTime := by
  induction stops generalizing foundA travelTime with
  | nil => rfl
  | cons stop stops ih => simp only [routeTravelTime,findEdgeForRoute,edgesFrom_recount,ih]

@[simp] theorem getRouteTravelTime_recount (line route stationA stationB : Id) :
    (nw.recount change).getRouteTravelTime line route stationA stationB =
      nw.getRouteTravelTime line route stationA stationB := by
  simp only [getRouteTravelTime,getRoute_recount,isNone_getStation_recount,routeTravelTime_recount]

@[simp] theorem getRoutesServingStation_recount (station : Id) :
    (nw.recount change).getRoutesServingStation station = nw.getRoutesServingStation station := by
  rw [getRoutesServingStation,getStation_recount,getRoutesServingStation]
  cases nw.getStation station <;> rfl

theorem searchLoop_recount (stationB : Id) (excludedStops : List PathStop) (fuel : ℕ)
    (st : SearchState lib) : (nw.recount change).searchLoop lib stationB excludedStops fuel st =
      nw.searchLoop lib stationB excludedStops fuel st := by
  induction fuel generalizing st with
  | zero => rfl
  | succ fuel ih => simp only [searchLoop,visit,edgesFrom_recount,ih]

theorem searchFuel_recount : (nw.recount change).searchFuel = nw.searchFuel := by
  simp [searchFuel,edgeCount,recount,UnorderedMap.mapWithKey,Function.comp_def]

@[simp] theorem getFastestTravelRouteInternal_recount (stopA : PathStopDist) (stationB : Id)
    (excludedStops : List PathStop) :
    (nw.recount change).getFastestTravelRouteInternal lib stopA stationB excludedStops =
      nw.getFastestTravelRouteInternal lib stopA stationB excludedStops := by
  simp only [getFastestTravelRouteInternal,search,searchLoop_recount,searchFuel_recount]

@[simp] theorem getFastestTravelRoute_recount (stationA stationB : Id) :
    (nw.recount change).getFastestTravelRoute lib stationA stationB =
      nw.getFastestTravelRoute lib stationA stationB := by
  simp only [getFastestTravelRoute,isNone_getStation_recount,getFastestTravelRouteInternal_recount]

theorem enumeratePaths_recount (stationB : Id) (maxTravelTime : UInt32) (wanted : ℕ)
    (fastestPaths : List Path) (potentialPaths : lib.pathQueue.Queue) :
    (nw.recount change).enumeratePaths lib stationB maxTravelTime wanted fastestPaths potentialPaths =
      nw.enumeratePaths lib stationB maxTravelTime wanted fastestPaths potentialPaths := by
  have hspur : (nw.recount change).addPotentialPath lib = nw.addPotentialPath lib := by
    funext stationB fastestPaths lastFastestPath potentialPaths idx
    simp only [addPotentialPath,getFastestTravelRouteInternal_recount]
  induction wanted generalizing fastestPaths potentialPaths with
  | zero => rfl
  | succ wanted ih => simp only [enumeratePaths,hspur,ih]

@[simp] theorem getFastestTravelRoutes_recount (stationA stationB : Id) (maxSlowdownPc : ℚ)
    (maxNPaths : ℕ) :
    (nw.recount change).getFastestTravelRoutes lib stationA stationB maxSlowdownPc maxNPaths =
      nw.getFastestTravelRoutes lib stationA stationB maxSlowdownPc maxNPaths := by
  simp only [getFastestTravelRoutes,getFastestTravelRouteInternal_recount,enumeratePaths_recount]

end TransportNetwork
end QuietRoute
