import QuietRoute.Network.Crowding
import QuietRoute.Network.TravelTimes

/-! The ids in an itinerary are ids of the network: what holds of all of these holds of all of those. -/
namespace QuietRoute

variable {valid : Id → Prop} {lib : StdLibrary} {nw : TransportNetwork}

def PathStop.Names (valid : Id → Prop) (stop : PathStop) : Prop :=
  valid stop.node ∧ ∀ edge, stop.edge = some edge → valid edge.route.line ∧ valid edge.route.id

def TravelStep.Names (valid : Id → Prop) (step : TravelStep) : Prop :=
  valid step.startStationId ∧ valid step.endStationId ∧ valid step.lineId ∧ valid step.routeId

/-- All ids in an itinerary satisfy a condition. -/
structure TravelRoute.Names (valid : Id → Prop) (route : TravelRoute) : Prop where
  start : valid route.startStationId
  finish : valid route.endStationId
  steps : ∀ step ∈ route.steps, step.Names valid

structure TransportNetwork.Names (valid : Id → Prop) (nw : TransportNetwork) : Prop where
  stations : ∀ id, (nw.getStation id).isSome → valid id
  edges : ∀ id, ∀ edge ∈ nw.edgesFrom id,
    valid edge.nextStop ∧ valid edge.route.line ∧ valid edge.route.id

def SearchState.Names (valid : Id → Prop) (st : SearchState lib) : Prop :=
  ∀ stop, st.distFromA.find stop ≠ none → stop.Names valid

def Path.Names (valid : Id → Prop) (path : Path) : Prop := ∀ stop ∈ path, stop.1.Names valid

theorem TransportNetwork.Names.recordPassengerEvent (h : nw.Names valid) (event : PassengerEvent) :
    (nw.recordPassengerEvent event).2.Names valid := by
  refine ⟨fun id hid => h.stations id ?_,fun id => ?_⟩
  · rwa [← nw.isSome_getStation_recordPassengerEvent event id]
  · rw [edgesFrom_recordPassengerEvent]
    exact h.edges id

theorem TransportNetwork.Names.target (h : nw.Names valid) {id : Id} {edge : GraphEdge}
    (hedge : edge ∈ nw.edgesFrom id) : edge.target.Names valid := by
  obtain ⟨hnext,hline,hroute⟩ := h.edges id edge hedge
  refine ⟨hnext,fun edge' heq => ?_⟩
  obtain rfl : edge = edge' := Option.some.inj heq
  exact ⟨hline,hroute⟩

theorem SearchState.Names.improve {st : SearchState lib} (h : st.Names valid)
    {currStop neighbor : PathStop} (hneighbor : neighbor.Names valid) (dist : UInt32) :
    (st.improve currStop neighbor dist).Names valid := by
  intro stop hstop
  rw [SearchState.improve,UnorderedMap.find_set] at hstop
  split_ifs at hstop with heq
  · exact heq ▸ hneighbor
  · exact h stop hstop

theorem SearchState.Names.relax {st : SearchState lib} (h : st.Names valid)
    {excludedStops : List PathStop} {currStop : PathStop} {dist : UInt32} {edge : GraphEdge}
    (htarget : edge.target.Names valid) : (relax excludedStops currStop dist st edge).Names valid := by
  rw [QuietRoute.relax]
  simp only
  split
  · exact h
  · split
    · exact h.improve htarget _
    · split
      · exact h.improve htarget _
      · exact h

theorem SearchState.Names.foldl_relax {excludedStops : List PathStop} {currStop : PathStop}
    {dist : UInt32} {edges : List GraphEdge} (hedges : ∀ edge ∈ edges, edge.target.Names valid)
    {st : SearchState lib} (h : st.Names valid) :
    (edges.foldl (QuietRoute.relax excludedStops currStop dist) st).Names valid := by
  induction edges generalizing st with
  | nil => exact h
  | cons edge edges ih =>
    rw [List.foldl_cons]
    exact ih (fun e he => hedges e (List.mem_cons_of_mem _ he))
      (h.relax (hedges edge List.mem_cons_self))

theorem SearchState.Names.assemblePath {st : SearchState lib} (h : st.Names valid) {stationA : Id}
    {fuel : ℕ} {stop : PathStop} {path path' : Path} (hpath : path.Names valid)
    (hassemble : st.assemblePath stationA fuel stop path = some path') : path'.Names valid := by
  induction fuel generalizing stop path with
  | zero =>
    rw [SearchState.assemblePath] at hassemble
    split_ifs at hassemble
    exact Option.some.inj hassemble ▸ hpath
  | succ fuel ih =>
    rw [SearchState.assemblePath] at hassemble
    split_ifs at hassemble
    · exact Option.some.inj hassemble ▸ hpath
    · simp only [Option.bind_eq_bind,Option.bind_eq_some_iff] at hassemble
      obtain ⟨prev,-,distance,hdistance,hrest⟩ := hassemble
      refine ih (fun s hs => ?_) hrest
      rcases List.mem_cons.mp hs with rfl | hs
      · exact h prev (by simp [hdistance])
      · exact hpath s hs

namespace TransportNetwork

theorem Names.searchLoop (h : nw.Names valid) {stationB : Id} {excludedStops : List PathStop}
    (fuel : ℕ) {st : SearchState lib} (hst : st.Names valid) :
    (nw.searchLoop lib stationB excludedStops fuel st).Names valid := by
  induction fuel generalizing st with
  | zero => exact hst
  | succ fuel ih =>
    rw [TransportNetwork.searchLoop]
    split
    · exact hst
    · apply ih
      rw [visit]
      split_ifs
      · exact hst
      · exact SearchState.Names.foldl_relax (fun edge hedge => h.target hedge) hst

theorem Names.getFastestTravelRouteInternal (h : nw.Names valid) {stopA : PathStopDist}
    (hstart : stopA.1.Names valid) {stationB : Id} {excludedStops : List PathStop} {path : Path}
    (hpath : nw.getFastestTravelRouteInternal lib stopA stationB excludedStops = some path) :
    path.Names valid := by
  rw [TransportNetwork.getFastestTravelRouteInternal] at hpath
  split_ifs at hpath
  · rw [← Option.some.inj hpath]
    intro stop hstop
    rw [List.mem_singleton.mp hstop]
    exact ⟨hstart.1,fun edge hedge => absurd hedge (by simp)⟩
  · have hsearch : (nw.search lib stopA stationB excludedStops).Names valid := by
      apply h.searchLoop
      intro stop hstop
      rw [initialSearch,UnorderedMap.find_set] at hstop
      split_ifs at hstop with heq
      · exact heq ▸ hstart
      · exact absurd rfl hstop
    simp only at hpath
    split at hpath
    · rw [← Option.some.inj hpath]
      exact fun stop hstop => absurd hstop List.not_mem_nil
    · rename_i last hlast
      refine hsearch.assemblePath (fun stop hstop => ?_) hpath
      obtain rfl := List.mem_singleton.mp hstop
      have hmem := List.mem_filter.mp ((lib.sort_perm _).mem_iff.mp (List.mem_of_getLast? hlast))
      have hfind := (UnorderedMap.find_eq_some_iff _).mpr ((lib.iterate_perm _).mem_iff.mp hmem.1)
      exact hsearch stop.1 (by simp [hfind])

def Queued (lib : StdLibrary) (valid : Id → Prop) (potentialPaths : lib.pathQueue.Queue) : Prop :=
  ∀ path ∈ lib.pathQueue.elems potentialPaths, Path.Names valid path

theorem Names.addPotentialPaths (h : nw.Names valid) {stationB : Id} {fastestPaths : List Path}
    {lastFastestPath : Path} (hlast : lastFastestPath.Names valid) (indices : List ℕ)
    {potentialPaths potentialPaths' : lib.pathQueue.Queue} (hqueue : Queued lib valid potentialPaths)
    (hfold : indices.foldlM (nw.addPotentialPath lib stationB fastestPaths lastFastestPath)
      potentialPaths = some potentialPaths') : Queued lib valid potentialPaths' := by
  induction indices generalizing potentialPaths with
  | nil => exact Option.some.inj hfold ▸ hqueue
  | cons idx indices ih =>
    rw [List.foldlM_cons] at hfold
    simp only [Option.bind_eq_bind,Option.bind_eq_some_iff] at hfold
    obtain ⟨next,hnext,hfold⟩ := hfold
    refine ih ?_ hfold
    rw [addPotentialPath] at hnext
    simp only [Option.bind_eq_bind,Option.bind_eq_some_iff] at hnext
    obtain ⟨spurNode,hspur,spurPath,hspurPath,hnext⟩ := hnext
    split_ifs at hnext
    · exact Option.some.inj hnext ▸ hqueue
    · rw [← Option.some.inj hnext]
      intro path hpath
      rw [lib.pathQueue.elems_push,Multiset.mem_cons] at hpath
      rcases hpath with rfl | hold
      · intro stop hstop
        rcases List.mem_append.mp hstop with hroot | hnew
        · exact hlast stop (List.mem_of_mem_take hroot)
        · exact h.getFastestTravelRouteInternal
            (hlast spurNode (List.mem_of_getElem? hspur)) hspurPath stop hnew
      · exact hqueue path hold

theorem names_selectKthPath {maxTravelTime : UInt32} {fastestPaths : List Path} (fuel : ℕ)
    {potentialPaths rest : lib.pathQueue.Queue} {kthPath : Path}
    (hqueue : Queued lib valid potentialPaths)
    (hselect : selectKthPath lib maxTravelTime fastestPaths fuel potentialPaths = some (kthPath,rest)) :
    kthPath.Names valid ∧ Queued lib valid rest := by
  induction fuel generalizing potentialPaths with
  | zero => simp [selectKthPath] at hselect
  | succ fuel ih =>
    rw [selectKthPath] at hselect
    split at hselect
    · cases hselect
    · rename_i path next hpop
      have helems := lib.pathQueue.pop_some _ _ _ hpop
      have hnext : Queued lib valid next :=
        fun p hp => hqueue p (helems ▸ Multiset.mem_cons_of_mem hp)
      split_ifs at hselect
      · exact ih hnext hselect
      · obtain ⟨rfl,rfl⟩ := Prod.mk.inj (Option.some.inj hselect)
        exact ⟨hqueue path (helems ▸ Multiset.mem_cons_self path _),hnext⟩

theorem Names.enumeratePaths (h : nw.Names valid) {stationB : Id} {maxTravelTime : UInt32}
    (wanted : ℕ) {fastestPaths paths : List Path} {potentialPaths : lib.pathQueue.Queue}
    (hfound : ∀ path ∈ fastestPaths, Path.Names valid path) (hqueue : Queued lib valid potentialPaths)
    (hpaths : nw.enumeratePaths lib stationB maxTravelTime wanted fastestPaths potentialPaths =
      some paths) : ∀ path ∈ paths, Path.Names valid path := by
  induction wanted generalizing fastestPaths potentialPaths with
  | zero => exact Option.some.inj hpaths ▸ hfound
  | succ wanted ih =>
    rw [TransportNetwork.enumeratePaths] at hpaths
    simp only [Option.bind_eq_bind,Option.bind_eq_some_iff] at hpaths
    obtain ⟨last,hlast,next,hnext,hpaths⟩ := hpaths
    have hqueue' := h.addPotentialPaths (hfound last (List.mem_of_getLast? hlast)) _ hqueue hnext
    split at hpaths
    · exact Option.some.inj hpaths ▸ hfound
    · rename_i kthPath rest hselect
      obtain ⟨hkth,hrest⟩ := names_selectKthPath _ hqueue' hselect
      refine ih (fun path hpath => ?_) hrest hpaths
      rcases List.mem_append.mp hpath with hold | hnew
      · exact hfound path hold
      · exact List.mem_singleton.mp hnew ▸ hkth

theorem Names.getFastestTravelRoutes (h : nw.Names valid) {stationA stationB : Id}
    (hstart : valid stationA) {maxSlowdownPc : ℚ} {maxNPaths : ℕ} {paths : List Path}
    (hpaths : nw.getFastestTravelRoutes lib stationA stationB maxSlowdownPc maxNPaths = some paths) :
    ∀ path ∈ paths, Path.Names valid path := by
  rw [TransportNetwork.getFastestTravelRoutes] at hpaths
  simp only [Option.bind_eq_bind,Option.bind_eq_some_iff] at hpaths
  obtain ⟨fastestPath,hfastest,hpaths⟩ := hpaths
  have hnames := h.getFastestTravelRouteInternal
    ⟨hstart,fun edge hedge => absurd hedge (by simp)⟩ hfastest
  split_ifs at hpaths
  · rw [← Option.some.inj hpaths]
    exact fun path hpath => absurd hpath List.not_mem_nil
  · simp only [Option.bind_eq_some_iff] at hpaths
    obtain ⟨maxTravelTime,-,hpaths⟩ := hpaths
    refine h.enumeratePaths _ (fun path hpath => ?_) (fun path hpath => ?_) hpaths
    · exact List.mem_singleton.mp hpath ▸ hnames
    · rw [lib.pathQueue.elems_empty] at hpath
      exact absurd hpath (Multiset.notMem_zero path)

end TransportNetwork

theorem Path.Names.travelSteps {path : Path} (h : path.Names valid) {steps : List TravelStep}
    (hsteps : travelSteps path = some steps) : ∀ step ∈ steps, step.Names valid := by
  induction path generalizing steps with
  | nil =>
    rw [← Option.some.inj hsteps]
    exact fun step hstep => absurd hstep List.not_mem_nil
  | cons prevStop path ih =>
    cases path with
    | nil =>
      rw [← Option.some.inj hsteps]
      exact fun step hstep => absurd hstep List.not_mem_nil
    | cons currStop path =>
      rw [QuietRoute.travelSteps] at hsteps
      simp only [Option.bind_eq_bind,Option.bind_eq_some_iff,Option.pure_def,Option.some.injEq] at hsteps
      obtain ⟨edge,hedge,rest,hrest,rfl⟩ := hsteps
      have htail : Path.Names valid (currStop::path) :=
        fun stop hstop => h stop (List.mem_cons_of_mem _ hstop)
      obtain ⟨hcurr,hedges⟩ := h currStop (List.mem_cons_of_mem _ List.mem_cons_self)
      intro step hstep
      rcases List.mem_cons.mp hstep with rfl | hstep
      · exact ⟨(h prevStop List.mem_cons_self).1,hcurr,hedges edge hedge⟩
      · exact ih htail hrest step hstep

namespace TransportNetwork

theorem Names.getQuietTravelRoute (h : nw.Names valid) (hempty : valid []) {stationA stationB : Id}
    {maxSlowdownPc minQuietnessPc : ℚ} {maxNPaths : ℕ} {route : TravelRoute}
    (hroute : nw.getQuietTravelRoute lib stationA stationB maxSlowdownPc minQuietnessPc maxNPaths =
      some route) : route.Names valid := by
  rw [TransportNetwork.getQuietTravelRoute] at hroute
  split_ifs at hroute with hunknown heq
  · rw [← Option.some.inj hroute]
    exact ⟨hempty,hempty,fun step hstep => absurd hstep List.not_mem_nil⟩
  all_goals
    simp only [Bool.or_eq_true,Option.isNone_iff_eq_none,not_or] at hunknown
    have hA : valid stationA := h.stations stationA (Option.isSome_iff_ne_none.mpr hunknown.1)
    have hB : valid stationB := h.stations stationB (Option.isSome_iff_ne_none.mpr hunknown.2)
  · rw [← Option.some.inj hroute]
    refine ⟨hA,hA,fun step hstep => ?_⟩
    rw [List.mem_singleton.mp hstep]
    exact ⟨hA,hA,hempty,hempty⟩
  · simp only [Option.bind_eq_bind,Option.bind_eq_some_iff] at hroute
    obtain ⟨paths,hpaths,hroute⟩ := hroute
    have hnames := h.getFastestTravelRoutes hA hpaths
    cases paths with
    | nil =>
      rw [← Option.some.inj hroute]
      exact ⟨hA,hB,fun step hstep => absurd hstep List.not_mem_nil⟩
    | cons fastestPath paths =>
      simp only [Option.bind_eq_some_iff] at hroute
      obtain ⟨path,hpath,hroute⟩ := hroute
      obtain ⟨steps,hsteps,rfl⟩ := Option.map_eq_some_iff.mp hroute
      exact ⟨hA,hB,(hnames path (mostQuietPath_mem hpath)).travelSteps hsteps⟩

end TransportNetwork
end QuietRoute
