import QuietRoute.Network.SearchInvariant
import QuietRoute.Network.Invariants

/-! Walks along stored edges, what they cost, and how the search records them. A walk that comes
back to a station has changed the route on the way, since no route lists a stop twice. -/
namespace QuietRoute

open BestFirst

/-- The edges lead from `A` to `B`, each stored at the station it leaves from. -/
def IsWalk (nw : TransportNetwork) : Id → List GraphEdge → Id → Prop
  | A, [], B => A = B
  | A, edge::edges, B => edge ∈ nw.edgesFrom A ∧ IsWalk nw edge.nextStop edges B

instance decidableIsWalk (nw : TransportNetwork) :
    ∀ A edges B, Decidable (IsWalk nw A edges B)
  | A, [], B => inferInstanceAs (Decidable (A = B))
  | A, edge::edges, B =>
    have := decidableIsWalk nw edge.nextStop edges B
    inferInstanceAs (Decidable (edge ∈ nw.edgesFrom A ∧ IsWalk nw edge.nextStop edges B))

/-- A walk that meets `B` only at its end, as the search makes them. -/
def IsJourney (nw : TransportNetwork) (stationB : Id) : Id → List GraphEdge → Prop
  | A, [] => A = stationB
  | A, edge::edges =>
    A ≠ stationB ∧ edge ∈ nw.edgesFrom A ∧ IsJourney nw stationB edge.nextStop edges

def stopAfter (A : Id) (edges : List GraphEdge) : Id := edges.foldl (fun _ edge => edge.nextStop) A

def walkStations (A : Id) (edges : List GraphEdge) : List Id := A::edges.map GraphEdge.nextStop

/-- The pairs of consecutive edges that belong to different routes; by `Built.ptr_eq_iff`, to
routes of different lines or with different ids. -/
def routeChanges : List GraphEdge → ℕ
  | edge::next::edges =>
    (if edge.route.ptr = next.route.ptr then 0 else 1)+routeChanges (next::edges)
  | _ => 0

/-- Travel times, and five minutes for every change of route. -/
def walkCost (edges : List GraphEdge) : ℕ :=
  (edges.map fun edge => edge.travelTime.toNat).sum+5*routeChanges edges

def walkSteps : Id → List GraphEdge → List TravelStep
  | _, [] => []
  | A, edge::edges =>
    ⟨A,edge.nextStop,edge.route.line,edge.route.id,edge.travelTime⟩::walkSteps edge.nextStop edges

/-- The cost of a walk for a traveller who arrived by the edge `prev`. -/
def walkTime : Option GraphEdge → List GraphEdge → ℕ
  | _, [] => 0
  | prev, edge::edges =>
    edge.travelTime.toNat+(changePenalty prev edge).toNat+walkTime (some edge) edges

theorem walkTime_some (prev : GraphEdge) (edges : List GraphEdge) :
    walkTime (some prev) edges+prev.travelTime.toNat = walkCost (prev::edges) := by
  induction edges generalizing prev with
  | nil => simp [walkTime,walkCost,routeChanges]
  | cons edge edges ih =>
    have h := ih edge
    have hfive : (5 : UInt32).toNat = 5 := rfl
    simp only [walkTime,walkCost,routeChanges,changePenalty,List.map_cons,List.sum_cons] at h ⊢
    split_ifs
    · rw [UInt32.toNat_zero]; omega
    · omega

theorem walkTime_none (edges : List GraphEdge) : walkTime none edges = walkCost edges := by
  cases edges with
  | nil => simp [walkTime,walkCost,routeChanges]
  | cons edge edges =>
    have h := walkTime_some edge edges
    simp only [walkTime,changePenalty,UInt32.toNat_zero]
    omega

variable {nw : TransportNetwork} {stationB : Id} {excludedStops : List PathStop}

/-- A walk to `B` that avoids the excluded stops reaches `B` for the first time at no greater
cost by moves of the search. -/
theorem reach_of_walk {stop : PathStop} {d : ℕ} {edges : List GraphEdge}
    (hne : stop.node ≠ stationB) (hwalk : IsWalk nw stop.node edges stationB)
    (hex : ∀ edge ∈ edges, edge.target ∉ excludedStops) :
    ∃ b : PathStop × ℕ, b.1.node = stationB ∧ b.2 ≤ d+walkTime stop.edge edges ∧
      Relation.ReflTransGen (Advance (nw.moves stationB excludedStops)) (stop,d) b := by
  induction edges generalizing stop d with
  | nil => exact absurd hwalk hne
  | cons edge edges ih =>
    obtain ⟨hedge,hrest⟩ := hwalk
    have hstep : Advance (nw.moves stationB excludedStops) (stop,d)
        (edge.target,d+moveTime stop edge) :=
      ⟨_,⟨hne,edge,hedge,rfl,hex edge (by simp),rfl⟩,rfl⟩
    have htime : walkTime stop.edge (edge::edges) =
        moveTime stop edge+walkTime (some edge) edges := rfl
    by_cases hB : edge.nextStop = stationB
    · exact ⟨_,hB,by omega,Relation.ReflTransGen.single hstep⟩
    · obtain ⟨b,hb,hle,hreach⟩ := @ih edge.target (d+moveTime stop edge) hB hrest
        fun e he => hex e (List.mem_cons_of_mem edge he)
      have hedge' : edge.target.edge = some edge := rfl
      rw [hedge'] at hle
      exact ⟨b,hb,by omega,Relation.ReflTransGen.head hstep hreach⟩

/-- The stop an edge leads to, with the time at which the traveller gets there. -/
def takeEdge (stop : PathStopDist) (edge : GraphEdge) : PathStopDist :=
  (edge.target,stop.2+edge.travelTime+changePenalty stop.1.edge edge)

def pathFrom (stop : PathStopDist) (edges : List GraphEdge) : Path := edges.scanl takeEdge stop

theorem pathFrom_cons (stop : PathStopDist) (edge : GraphEdge) (edges : List GraphEdge) :
    pathFrom stop (edge::edges) = stop::pathFrom (takeEdge stop edge) edges := List.scanl_cons

theorem head?_pathFrom (stop : PathStopDist) (edges : List GraphEdge) :
    (pathFrom stop edges).head? = some stop := List.head?_scanl

def pathEdges (path : Path) : List GraphEdge := path.filterMap (·.1.edge)

@[simp] theorem pathEdges_pathFrom (stop : PathStopDist) (edges : List GraphEdge) :
    pathEdges (pathFrom stop edges) = stop.1.edge.toList ++ edges := by
  induction edges generalizing stop with
  | nil => cases h : stop.1.edge <;> simp [pathFrom,pathEdges,h]
  | cons edge edges ih =>
    have hrest := ih (takeEdge stop edge)
    have hprev : (takeEdge stop edge).1.edge = some edge := rfl
    simp only [pathFrom,pathEdges,List.scanl_cons,List.filterMap_cons,hprev] at hrest ⊢
    cases h : stop.1.edge <;> simp [hrest]

@[simp] theorem map_node_pathFrom (stop : PathStopDist) (edges : List GraphEdge) :
    (pathFrom stop edges).map (·.1.node) = walkStations stop.1.node edges := by
  induction edges generalizing stop with
  | nil => rfl
  | cons edge edges ih =>
    have hrest := ih (takeEdge stop edge)
    have hnode : (takeEdge stop edge).1.node = edge.nextStop := rfl
    simp only [pathFrom,walkStations,List.scanl_cons,List.map_cons] at hrest ⊢
    rw [hrest,hnode]

@[simp] theorem length_pathFrom (stop : PathStopDist) (edges : List GraphEdge) :
    (pathFrom stop edges).length = edges.length+1 := List.length_scanl

@[simp] theorem pathTime_pathFrom (stop : PathStopDist) (edges : List GraphEdge) :
    pathTime (pathFrom stop edges) = (edges.foldl takeEdge stop).2 := by
  simp [pathTime,pathFrom,List.getLast?_scanl]

@[simp] theorem node_foldl_takeEdge (stop : PathStopDist) (edges : List GraphEdge) :
    (edges.foldl takeEdge stop).1.node = stopAfter stop.1.node edges := by
  induction edges generalizing stop with
  | nil => rfl
  | cons edge edges ih => exact ih (takeEdge stop edge)

theorem travelSteps_pathFrom (stop : PathStopDist) (edges : List GraphEdge) :
    travelSteps (pathFrom stop edges) = some (walkSteps stop.1.node edges) := by
  induction edges generalizing stop with
  | nil => rfl
  | cons edge edges ih =>
    have hrest := ih (takeEdge stop edge)
    obtain ⟨path,hpath⟩ := List.head?_eq_some_iff.mp (head?_pathFrom (takeEdge stop edge) edges)
    rw [hpath] at hrest
    simp only [pathFrom_cons,hpath,travelSteps,hrest]
    rfl

theorem toNat_foldl_takeEdge {stop : PathStopDist} {edges : List GraphEdge}
    (h : stop.2.toNat+walkTime stop.1.edge edges < 2^32) :
    (edges.foldl takeEdge stop).2.toNat = stop.2.toNat+walkTime stop.1.edge edges := by
  induction edges generalizing stop with
  | nil => rfl
  | cons edge edges ih =>
    have htime : walkTime stop.1.edge (edge::edges) =
        moveTime stop.1 edge+walkTime (some edge) edges := rfl
    have hexact : (takeEdge stop edge).2.toNat = exactTime stop edge :=
      toNat_neighborDist (by unfold exactTime; omega)
    have hprev : (takeEdge stop edge).1.edge = some edge := rfl
    unfold exactTime at hexact
    rw [List.foldl_cons,ih (by rw [hexact,hprev]; omega),hexact,hprev]
    omega

theorem walkTime_append (stop : PathStopDist) (edges edges' : List GraphEdge) :
    walkTime stop.1.edge (edges ++ edges') = walkTime stop.1.edge edges+
      walkTime (edges.foldl takeEdge stop).1.edge edges' := by
  induction edges generalizing stop with
  | nil => simp [walkTime]
  | cons edge edges ih =>
    have hrest := ih (takeEdge stop edge)
    have hprev : (takeEdge stop edge).1.edge = some edge := rfl
    rw [hprev] at hrest
    simp only [List.cons_append,walkTime,List.foldl_cons,hrest]
    omega

theorem IsJourney.isWalk {A : Id} {edges : List GraphEdge} (h : IsJourney nw stationB A edges) :
    IsWalk nw A edges stationB := by
  induction edges generalizing A with
  | nil => exact h
  | cons edge edges ih => exact ⟨h.2.1,ih h.2.2⟩

/-- A chain of moves to `B` records a journey, at its exact times. -/
theorem journey_of_chain {stop : PathStopDist} {path : Path}
    (h : ((stop::path).map label).IsChain (Advance (nw.moves stationB excludedStops)))
    (hlast : ∀ last, (stop::path).getLast? = some last → last.1.node = stationB) :
    ∃ edges, stop::path = pathFrom stop edges ∧ IsJourney nw stationB stop.1.node edges ∧
      (∀ edge ∈ edges, edge.target ∉ excludedStops) ∧
      (pathTime (stop::path)).toNat = stop.2.toNat+walkTime stop.1.edge edges := by
  induction path generalizing stop with
  | nil => exact ⟨[],rfl,hlast stop rfl,by simp,by simp [pathTime,walkTime]⟩
  | cons next path ih =>
    obtain ⟨⟨w,⟨hB,edge,hedge,htarget,hexcl,hw⟩,htime⟩,hrest⟩ := List.isChain_cons_cons.mp h
    have hlast' : ∀ last, (next::path).getLast? = some last → last.1.node = stationB :=
      fun last hl => hlast last (by rwa [List.getLast?_cons_cons])
    obtain ⟨edges,hpath,hjourney,hex,hsum⟩ := ih hrest hlast'
    have hstop : next.1 = edge.target := htarget
    have hexact : next.2.toNat = exactTime stop edge := htime.trans (by rw [hw]; rfl)
    have hnext : next = takeEdge stop edge := by
      have hfits : exactTime stop edge < 2^32 := hexact ▸ next.2.toNat_lt
      refine Prod.ext hstop (UInt32.toNat_inj.mp ?_)
      rw [hexact,← toNat_neighborDist hfits]
      rfl
    have hnode : next.1.node = edge.nextStop := congrArg PathStop.node hstop
    have hprev : next.1.edge = some edge := congrArg PathStop.edge hstop
    refine ⟨edge::edges,?_,⟨hB,hedge,hnode ▸ hjourney⟩,?_,?_⟩
    · rw [hpath,hnext,pathFrom_cons]
    · intro e he
      rcases List.mem_cons.mp he with rfl | he
      · rw [← hstop]; exact hexcl
      · exact hex e he
    · have hshift : pathTime (stop::next::path) = pathTime (next::path) := by
        simp [pathTime,List.getLast?_cons_cons]
      rw [hshift,hsum,hexact,hprev]
      simp only [walkTime,exactTime,moveTime]
      omega

/-- On the same route, the next edge makes the next hop: a stop has one position on its route. -/
theorem hop_succ_of_same_route (hwf : nw.WellFormed) {S : Id} {last edge : GraphEdge}
    (hlast : last ∈ nw.edgesFrom S) (hedge : edge ∈ nw.edgesFrom last.nextStop)
    (hptr : last.route.ptr = edge.route.ptr) : edge.hop = last.hop+1 := by
  have hsame := hwf.same_route _ _ last hlast edge hedge hptr
  have hsource := (hwf.hop _ edge hedge).1
  have harrive := (hwf.hop _ last hlast).2
  rw [← hsame,← harrive] at hsource
  have hlt : edge.hop < last.route.stops.length := by
    rw [harrive] at hsource
    exact (List.getElem?_eq_some_iff.mp hsource).1
  exact (List.getElem?_inj hlt (hwf.nodup _ last hlast)).mp hsource

/-- As long as the route is not changed, the hops count up along its stops. -/
theorem same_route_or_change (hwf : nw.WellFormed) {x : PathStop × ℕ} {first : GraphEdge} {S : Id}
    (hfirst : first ∈ nw.edgesFrom S) (hx : x.1 = first.target) {b : PathStop × ℕ}
    (h : Relation.ReflTransGen (Advance (nw.moves stationB excludedStops)) x b) :
    x.2+5 ≤ b.2 ∨ (x.2 ≤ b.2 ∧ ∃ last S', last ∈ nw.edgesFrom S' ∧ b.1 = last.target ∧
      last.route = first.route ∧ first.hop ≤ last.hop) := by
  induction h with
  | refl => exact Or.inr ⟨le_rfl,first,S,hfirst,hx,rfl,le_rfl⟩
  | @tail b c _ hbc ih =>
    obtain ⟨w,⟨-,edge,hedge,hc,-,hw⟩,hcw⟩ := hbc
    rcases ih with hchange | ⟨hle,last,S',hlast,hb,hroute,hhop⟩
    · left; omega
    · have hnode : b.1.node = last.nextStop := congrArg PathStop.node hb
      have hprev : b.1.edge = some last := congrArg PathStop.edge hb
      by_cases hptr : last.route.ptr = edge.route.ptr
      · right
        have hsame := hwf.same_route _ _ last hlast edge hedge hptr
        have hpos := hop_succ_of_same_route hwf hlast (hnode ▸ hedge) hptr
        exact ⟨by omega,edge,b.1.node,hedge,hc,by rw [← hsame,hroute],by omega⟩
      · left
        have hpen : (changePenalty b.1.edge edge).toNat = 5 := by
          rw [hprev]
          simp [changePenalty,hptr]
        unfold moveTime at hw
        omega

/-- Coming back to a station costs at least one change of route. -/
theorem return_cost (hwf : nw.WellFormed) {a b : PathStop × ℕ}
    (h : Relation.TransGen (Advance (nw.moves stationB excludedStops)) a b)
    (hnode : a.1.node = b.1.node) : a.2+5 ≤ b.2 := by
  obtain ⟨x,⟨w,⟨-,edge,hedge,hx,-,-⟩,hxw⟩,hrest⟩ := Relation.TransGen.head'_iff.mp h
  rcases same_route_or_change hwf hedge hx hrest with hchange | ⟨_,last,S',hlast,hb,hroute,hhop⟩
  · omega
  · have hstart := (hwf.hop _ edge hedge).1
    have harrive := (hwf.hop _ last hlast).2
    have hback : last.nextStop = a.1.node := by rw [hnode,hb]; rfl
    rw [hback,hroute,← hstart] at harrive
    have hlt : last.hop+1 < edge.route.stops.length := by
      rw [hstart] at harrive
      exact (List.getElem?_eq_some_iff.mp harrive).1
    have hpos := (List.getElem?_inj hlt (hwf.nodup _ edge hedge)).mp harrive
    omega

end QuietRoute
