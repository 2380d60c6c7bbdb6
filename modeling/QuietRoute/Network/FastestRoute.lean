import QuietRoute.Network.FastestPath

/-! The public fastest-route query against the walks of the network. -/
namespace QuietRoute

open BestFirst TransportNetwork

/-- A built network with three ways from `A` to `B`: over `X` by the red line and on by the blue or by
the yellow one, and the green line, which is slower than to change. -/
def changeCalls : List TransportNetwork.Call :=
  [.addStation ⟨ascii "A",[]⟩,.addStation ⟨ascii "X",[]⟩,.addStation ⟨ascii "Y",[]⟩,
    .addStation ⟨ascii "B",[]⟩,
    .addLine ⟨ascii "red",[],[⟨ascii "r",[],ascii "red",ascii "A",ascii "X",[ascii "A",ascii "X"]⟩]⟩,
    .addLine ⟨ascii "blue",[],[⟨ascii "b",[],ascii "blue",ascii "X",ascii "B",[ascii "X",ascii "B"]⟩]⟩,
    .addLine ⟨ascii "yellow",[],[⟨ascii "y",[],ascii "yellow",ascii "X",ascii "B",
      [ascii "X",ascii "Y",ascii "B"]⟩]⟩,
    .addLine ⟨ascii "green",[],[⟨ascii "g",[],ascii "green",ascii "A",ascii "B",[ascii "A",ascii "B"]⟩]⟩,
    .setTravelTime (ascii "A") (ascii "X") 3,.setTravelTime (ascii "X") (ascii "B") 4,
    .setTravelTime (ascii "X") (ascii "Y") 2,.setTravelTime (ascii "Y") (ascii "B") 5,
    .setTravelTime (ascii "A") (ascii "B") 20]

/-- The edge of the red line, which the traveller arrives by at `X`. -/
def redEdge : GraphEdge := ⟨⟨1,ascii "r",ascii "red",[ascii "A",ascii "X"]⟩,0,ascii "X",3⟩

def blueEdge : GraphEdge := ⟨⟨2,ascii "b",ascii "blue",[ascii "X",ascii "B"]⟩,0,ascii "B",4⟩

def yellowRoute : RouteInternal := ⟨3,ascii "y",ascii "yellow",[ascii "X",ascii "Y",ascii "B"]⟩

def yellowEdges : List GraphEdge := [⟨yellowRoute,0,ascii "Y",2⟩,⟨yellowRoute,1,ascii "B",5⟩]

theorem reach_of_walk_none {nw : TransportNetwork} {stationA stationB : Id} {edges : List GraphEdge}
    (hne : stationA ≠ stationB) (hwalk : IsWalk nw stationA edges stationB) :
    ∃ b : PathStop × ℕ, b.1.node = stationB ∧ b.2 ≤ walkCost edges ∧
      Relation.ReflTransGen (Advance (nw.moves stationB [])) (label (⟨stationA,none⟩,0)) b := by
  have hstay : ∀ edge ∈ edges, edge.target ∉ ([] : List PathStop) := by simp
  obtain ⟨b,hb,hle,hr⟩ := @reach_of_walk nw stationB [] ⟨stationA,none⟩ 0 edges hne hwalk hstay
  have hcost : 0+walkTime none edges = walkCost edges := by rw [walkTime_none,Nat.zero_add]
  exact ⟨b,hb,hle.trans hcost.le,hr⟩

theorem assembleTravelRoute_of_shortest {nw : TransportNetwork} {stationA stationB : Id} {path : Path}
    (hne : stationA ≠ stationB) (hshort : IsShortest nw (⟨stationA,none⟩,0) stationB [] path) :
    ∃ edges, IsWalk nw stationA edges stationB ∧ path ≠ [] ∧
      assembleTravelRoute stationA stationB path =
        some ⟨stationA,stationB,pathTime path,walkSteps stationA edges⟩ ∧
      (pathTime path).toNat = walkCost edges ∧
        ∀ edges', IsWalk nw stationA edges' stationB → walkCost edges ≤ walkCost edges' := by
  obtain ⟨rest,rfl⟩ := List.head?_eq_some_iff.mp hshort.head
  obtain ⟨edges,hpath,hjourney,-,htime⟩ := journey_of_chain hshort.chain hshort.last
  have hsteps := travelSteps_pathFrom (⟨stationA,none⟩,0) edges
  rw [← hpath] at hsteps
  simp only [walkTime_none,UInt32.toNat_zero,Nat.zero_add] at htime
  refine ⟨edges,hjourney.isWalk,by simp,by rw [assembleTravelRoute,hsteps,Option.map_some],htime,?_⟩
  intro edges' hwalk'
  obtain ⟨b,hb,hle,hr⟩ := reach_of_walk_none hne hwalk'
  rw [← htime]
  exact (hshort.optimal b hb hr).trans hle

theorem getFastestTravelRoute_eq (lib : StdLibrary) {nw : TransportNetwork} {stationA stationB : Id}
    (hA : (nw.getStation stationA).isSome) (hB : (nw.getStation stationB).isSome)
    (hne : stationA ≠ stationB) : nw.getFastestTravelRoute lib stationA stationB =
      (nw.getFastestTravelRouteInternal lib (⟨stationA,none⟩,0) stationB []).bind fun path =>
        if path = [] then some ⟨stationA,stationB,0,[]⟩
        else assembleTravelRoute stationA stationB path := by
  have hguard : ¬((nw.getStation stationA).isNone || (nw.getStation stationB).isNone) = true := by
    cases hsA : nw.getStation stationA <;> cases hsB : nw.getStation stationB <;> simp_all
  unfold TransportNetwork.getFastestTravelRoute
  rw [if_neg hguard,if_neg hne]
  rfl

/-- Fastest routes are optimal and assembled from the stored edges, for every choice that the
standard library leaves open. -/
theorem getFastestTravelRoute_optimal (lib : StdLibrary) {nw : TransportNetwork} (hnw : nw.Built)
    {stationA stationB : Id} (hA : (nw.getStation stationA).isSome)
    (hB : (nw.getStation stationB).isSome) (hne : stationA ≠ stationB)
    (hfits : nw.searchFits lib (⟨stationA,none⟩,0) stationB [] = true) :
    ∃ route, nw.getFastestTravelRoute lib stationA stationB = some route ∧
      ((¬∃ edges, IsWalk nw stationA edges stationB) → route = ⟨stationA,stationB,0,[]⟩) ∧
      ((∃ edges, IsWalk nw stationA edges stationB) →
        route.startStationId = stationA ∧ route.endStationId = stationB ∧
        ∃ edges, IsWalk nw stationA edges stationB ∧ route.steps = walkSteps stationA edges ∧
          route.totalTravelTime.toNat = walkCost edges ∧
          ∀ edges', IsWalk nw stationA edges' stationB → walkCost edges ≤ walkCost edges') := by
  obtain ⟨path,hpath,hspec⟩ := getFastestTravelRouteInternal_spec hnw.wellFormed hne hfits
  rw [getFastestTravelRoute_eq lib hA hB hne,hpath,Option.bind_some]
  rcases hspec with ⟨rfl,hnone⟩ | hfast
  · refine ⟨⟨stationA,stationB,0,[]⟩,rfl,fun _ => rfl,?_⟩
    rintro ⟨edges,hwalk⟩
    obtain ⟨b,hb,-,hr⟩ := reach_of_walk_none hne hwalk
    exact absurd hr (hnone b hb)
  · obtain ⟨edges,hwalk,hnonempty,hroute,htime,hleast⟩ :=
      assembleTravelRoute_of_shortest hne hfast.isShortest
    rw [if_neg hnonempty,hroute]
    exact ⟨_,rfl,fun h => absurd ⟨edges,hwalk⟩ h,fun _ => ⟨rfl,rfl,edges,hwalk,rfl,htime,hleast⟩⟩

/-- Three minutes on the red line, five for the change, four minutes on the blue line. -/
theorem getFastestTravelRoute_optimal_change :
    IsWalk (networkOf changeCalls) (ascii "A") [redEdge,blueEdge] (ascii "B") ∧
      (networkOf changeCalls).getFastestTravelRoute .simple (ascii "A") (ascii "B") =
        some ⟨ascii "A",ascii "B",12,walkSteps (ascii "A") [redEdge,blueEdge]⟩ ∧
      walkCost [redEdge,blueEdge] = 12 ∧
      ∀ edges, IsWalk (networkOf changeCalls) (ascii "A") edges (ascii "B") → 12 ≤ walkCost edges := by
  have hwalk : IsWalk (networkOf changeCalls) (ascii "A") [redEdge,blueEdge] (ascii "B") := by
    decide +kernel
  have hroute : (networkOf changeCalls).getFastestTravelRoute .simple (ascii "A") (ascii "B") =
      some ⟨ascii "A",ascii "B",12,walkSteps (ascii "A") [redEdge,blueEdge]⟩ := by decide +kernel
  obtain ⟨route,hsome,-,hconnected⟩ := getFastestTravelRoute_optimal .simple
    (built_networkOf changeCalls) (by decide +kernel) (by decide +kernel) (by decide)
    (by decide +kernel : (networkOf changeCalls).searchFits .simple (⟨ascii "A",none⟩,0) (ascii "B") [] =
      true)
  obtain ⟨-,-,edges,-,-,htime,hleast⟩ := hconnected ⟨_,hwalk⟩
  obtain rfl := Option.some.inj (hroute.symm.trans hsome)
  rw [← htime] at hleast
  exact ⟨hwalk,hroute,by decide,hleast⟩

end QuietRoute
