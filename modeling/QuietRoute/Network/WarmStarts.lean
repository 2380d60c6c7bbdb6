import QuietRoute.Network.FastestRoute
import QuietRoute.Network.UniformTimes

/-! The internal search from any stop: it starts with a time and with an edge that was taken before, and
leaves out some stops. -/
namespace QuietRoute

open BestFirst TransportNetwork

namespace TransportNetwork

def LinesListOnce (lines : List Json) : Prop := ∀ lineJson ∈ lines, ∀ line,
  Line.ofJson lineJson = some line → (Call.addLine line).distinctStops = true

def ListsStopsOnce (_ : TransportNetwork) : Operation → Prop
  | .call c => c.distinctStops = true
  | .fromJson src => ∀ lines, src.field (ascii "lines") = some lines → LinesListOnce lines.elements

theorem WellFormed.fromJson {nw : TransportNetwork} {src : Json} {loaded : Loaded Bool}
    (h : nw.WellFormed) (honce : nw.ListsStopsOnce (.fromJson src))
    (hload : nw.fromJson src = some loaded) : loaded.2.WellFormed := by
  have hline : ∀ (nw : TransportNetwork) line ok nw', nw.WellFormed →
      (Call.addLine line).distinctStops = true → nw.addLine line = some (ok,nw') → nw'.WellFormed :=
    fun nw line ok nw' h hdistinct hadd => h.run hdistinct hadd
  refine @fromJson_keeps nw WellFormed _ (fun lines _ => LinesListOnce lines)
    (fun _ station h => h.addStation station) hline ?_ (fun _ A B t h => h.setTravelTime A B t) src
    loaded h (fun _ lines _ _ _ hlines => honce lines hlines) hload
  intro lineJson lines nw line honce hjson
  exact ⟨honce lineJson List.mem_cons_self line hjson,
    fun _ _ lineJson' hmem => honce lineJson' (List.mem_cons_of_mem _ hmem)⟩

theorem RunsTo.wellFormed {nw : TransportNetwork} (h : RunsTo ListsStopsOnce nw) : nw.WellFormed := by
  induction h with
  | empty => exact wellFormed_empty
  | @step nw nw' operation _ honce hstep ih =>
    cases operation with
    | call c =>
      obtain ⟨⟨ok,next⟩,hrun,rfl⟩ := Option.map_eq_some_iff.mp hstep
      exact ih.run honce hrun
    | fromJson src =>
      obtain ⟨loaded,hload,rfl⟩ := Option.map_eq_some_iff.mp hstep
      exact ih.fromJson honce hload

theorem Built.runsTo {nw : TransportNetwork} (h : nw.Built) : RunsTo ListsStopsOnce nw := by
  induction h with
  | empty => exact .empty
  | @call nw nw' c _ hdistinct hrun ih =>
    have honce : ListsStopsOnce nw (.call c) := hdistinct
    exact .step ih honce (by rw [perform,hrun]; rfl)

end TransportNetwork

/-- A path that starts exactly at `stopA`, along a walk of least time that takes no excluded stop. -/
structure IsWarmStarted (nw : TransportNetwork) (stopA : PathStopDist) (stationB : Id)
    (excludedStops : List PathStop) (path : Path) (edges : List GraphEdge) : Prop where
  walk : IsWalk nw stopA.1.node edges stationB
  avoids : ∀ edge ∈ edges, edge.target ∉ excludedStops
  head : path.head? = some stopA
  stops : path.tail.map Prod.fst = edges.map GraphEdge.target
  leaves : ∀ stop ∈ path.tail, stop.1.node ≠ stopA.1.node
  times : ∀ i stop, path[i]? = some stop →
    stop.2.toNat = stopA.2.toNat+walkTime stopA.1.edge (edges.take i)
  least : ∀ edges', IsWalk nw stopA.1.node edges' stationB →
    (∀ edge ∈ edges', edge.target ∉ excludedStops) →
      (pathTime path).toNat ≤ stopA.2.toNat+walkTime stopA.1.edge edges'

variable {nw : TransportNetwork} {stopA : PathStopDist} {stationB : Id} {excludedStops : List PathStop}
  {path : Path} {edges : List GraphEdge}

theorem map_fst_pathFrom (stop : PathStopDist) (edges : List GraphEdge) :
    (pathFrom stop edges).map Prod.fst = stop.1::edges.map GraphEdge.target := by
  induction edges generalizing stop with
  | nil => rfl
  | cons edge edges ih =>
    rw [pathFrom_cons,List.map_cons,ih (takeEdge stop edge),List.map_cons]
    rfl

theorem times_pathFrom (hfits : stopA.2.toNat+walkTime stopA.1.edge edges < 2^32) {i : ℕ}
    {stop : PathStopDist} (hstop : (pathFrom stopA edges)[i]? = some stop) :
    stop.2.toNat = stopA.2.toNat+walkTime stopA.1.edge (edges.take i) := by
  have hsplit := walkTime_append stopA (edges.take i) (edges.drop i)
  rw [List.take_append_drop] at hsplit
  rw [pathFrom,List.getElem?_scanl] at hstop
  split_ifs at hstop
  rw [← Option.some.inj hstop]
  exact toNat_foldl_takeEdge (by omega)

theorem reach_of_avoiding (hne : stopA.1.node ≠ stationB) (hwalk : IsWalk nw stopA.1.node edges stationB)
    (havoids : ∀ edge ∈ edges, edge.target ∉ excludedStops) : ∃ b : PathStop × ℕ,
      b.1.node = stationB ∧ b.2 ≤ stopA.2.toNat+walkTime stopA.1.edge edges ∧
        Relation.ReflTransGen (Advance (nw.moves stationB excludedStops)) (label stopA) b :=
  reach_of_walk hne hwalk havoids

theorem IsFastest.isWarmStarted (hne : stopA.1.node ≠ stationB)
    (h : IsFastest nw stopA stationB excludedStops path) :
    ∃ edges, IsWarmStarted nw stopA stationB excludedStops path edges := by
  obtain ⟨rest,rfl⟩ := List.head?_eq_some_iff.mp h.head
  obtain ⟨edges,hpath,hjourney,havoids,htime⟩ := journey_of_chain h.chain h.last
  have hfits : stopA.2.toNat+walkTime stopA.1.edge edges < 2^32 := htime ▸ UInt32.toNat_lt _
  have hstops := map_fst_pathFrom stopA edges
  rw [← hpath] at hstops
  refine ⟨edges,hjourney.isWalk,havoids,rfl,(List.cons.inj hstops).2,?_,?_,?_⟩
  · intro stop hstop hnode
    have hfresh := (List.nodup_cons.mp h.loopless).1
    exact hfresh (List.mem_map.mpr ⟨stop,hstop,hnode⟩)
  · intro i stop hstop
    rw [hpath] at hstop
    exact times_pathFrom hfits hstop
  · intro edges' hwalk' havoids'
    obtain ⟨b,hb,hle,hreach⟩ := reach_of_avoiding hne hwalk' havoids'
    exact (h.optimal b hb hreach).trans hle

/-- From any stop, with any initial time and any excluded stops, the search returns a fastest path that
starts exactly there, or an empty one when all walks take an excluded stop. -/
theorem getFastestTravelRouteInternal_optimal (lib : StdLibrary) (hnw : RunsTo ListsStopsOnce nw)
    (stopA : PathStopDist) (excludedStops : List PathStop) (hne : stopA.1.node ≠ stationB)
    (hfits : nw.searchFits lib stopA stationB excludedStops = true) :
    ∃ path, nw.getFastestTravelRouteInternal lib stopA stationB excludedStops = some path ∧
      (path = [] ↔ ¬∃ edges, IsWalk nw stopA.1.node edges stationB ∧
        ∀ edge ∈ edges, edge.target ∉ excludedStops) ∧
      (path ≠ [] → ∃ edges, IsWarmStarted nw stopA stationB excludedStops path edges) := by
  obtain ⟨path,hpath,hspec⟩ := getFastestTravelRouteInternal_spec hnw.wellFormed hne hfits
  refine ⟨path,hpath,?_⟩
  rcases hspec with ⟨rfl,hnone⟩ | hfast
  · refine ⟨⟨fun _ => ?_,fun _ => rfl⟩,fun hnonempty => absurd rfl hnonempty⟩
    rintro ⟨edges,hwalk,havoids⟩
    obtain ⟨b,hb,-,hreach⟩ := reach_of_avoiding hne hwalk havoids
    exact hnone b hb hreach
  · obtain ⟨edges,hwarm⟩ := hfast.isWarmStarted hne
    have hnonempty : path ≠ [] := by
      rintro rfl
      exact absurd hwarm.head (by simp)
    exact ⟨⟨fun h => absurd h hnonempty,fun h => absurd ⟨edges,hwarm.walk,hwarm.avoids⟩ h⟩,
      fun _ => ⟨edges,hwarm⟩⟩

/-- From the stop on the red line, at three minutes, without the blue line at `B`: five more for the
change, and seven on the yellow line. -/
theorem getFastestTravelRouteInternal_optimal_change : ∃ path edges,
    (networkOf changeCalls).getFastestTravelRouteInternal .simple (⟨ascii "X",some redEdge⟩,3)
      (ascii "B") [blueEdge.target] = some path ∧
      IsWarmStarted (networkOf changeCalls) (⟨ascii "X",some redEdge⟩,3) (ascii "B") [blueEdge.target]
        path edges ∧ pathTime path = 3+5+2+5 := by
  have hother : IsWalk (networkOf changeCalls) (ascii "X") yellowEdges (ascii "B") ∧
      ∀ edge ∈ yellowEdges, edge.target ∉ [blueEdge.target] := by decide +kernel
  have htime : ((networkOf changeCalls).getFastestTravelRouteInternal .simple
      (⟨ascii "X",some redEdge⟩,3) (ascii "B") [blueEdge.target]).map pathTime = some 15 := by
    decide +kernel
  obtain ⟨path,hpath,hempty,hwarm⟩ := getFastestTravelRouteInternal_optimal .simple
    (built_networkOf changeCalls).runsTo (⟨ascii "X",some redEdge⟩,3) [blueEdge.target]
    (by decide : ascii "X" ≠ ascii "B") (by decide +kernel)
  obtain ⟨edges,hedges⟩ := hwarm fun hnil => hempty.mp hnil ⟨_,hother⟩
  rw [hpath] at htime
  exact ⟨path,edges,hpath,hedges,Option.some.inj htime⟩

end QuietRoute
