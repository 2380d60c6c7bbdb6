import QuietRoute.Network.TransportNetwork
import Mathlib.Tactic

/-! Which edges a network holds after each operation, and what that keeps true of every
network built by successful calls. -/
namespace QuietRoute

/-- The edges a route makes, each with the station it leaves from. -/
def routeEdges (route : RouteInternal) : ℕ → List Id → List (Id × GraphEdge)
  | idx, thisStop::nextStop::stops =>
    (thisStop,⟨route,idx,nextStop,0⟩)::routeEdges route (idx+1) (nextStop::stops)
  | _, _ => []

theorem mem_routeEdges {route : RouteInternal} {idx : ℕ} {stops : List Id} {e : Id × GraphEdge}
    (h : e ∈ routeEdges route idx stops) :
    e.2.route = route ∧ ∃ i, e.2.hop = idx+i ∧ stops[i]? = some e.1 ∧
      stops[i+1]? = some e.2.nextStop := by
  induction stops generalizing idx with
  | nil => simp [routeEdges] at h
  | cons a stops ih =>
    cases stops with
    | nil => simp [routeEdges] at h
    | cons b stops =>
      rcases List.mem_cons.mp h with rfl | h
      · exact ⟨rfl,0,rfl,rfl,rfl⟩
      · obtain ⟨hr,i,hi,hthis,hnext⟩ := ih h
        exact ⟨hr,i+1,by omega,by simpa using hthis,by simpa using hnext⟩

namespace TransportNetwork

variable {nw nw' : TransportNetwork}

theorem isSome_getStation_updateEdges (nw : TransportNetwork) (k S : Id)
    (f : List GraphEdge → List GraphEdge) :
    ((nw.updateEdges k f).getStation S).isSome = (nw.getStation S).isSome := by
  simp only [getStation,updateEdges,UnorderedMap.find_modify]
  split_ifs <;> simp

theorem edgesFrom_updateEdges (nw : TransportNetwork) (k S : Id)
    (f : List GraphEdge → List GraphEdge) :
    (nw.updateEdges k f).edgesFrom S =
      if k = S ∧ (nw.getStation S).isSome then f (nw.edgesFrom S) else nw.edgesFrom S := by
  simp only [edgesFrom,getStation,updateEdges,UnorderedMap.find_modify]
  by_cases hk : k = S
  · simp only [hk,if_true,true_and]
    cases nw.stations.find S <;> simp
  · simp [hk]

theorem edgesFrom_addStation (nw : TransportNetwork) (station : Station) (S : Id) :
    (nw.addStation station).2.edgesFrom S = nw.edgesFrom S := by
  unfold addStation
  split_ifs with h
  · rfl
  · simp only [edgesFrom,getStation,UnorderedMap.find_emplace]
    by_cases hS : station.id = S
    · subst S
      have hnone : nw.stations.find station.id = none := by simpa [getStation] using h
      simp [hnone]
    · simp [hS]

theorem edgesFrom_addEdges (route : RouteInternal) (idx : ℕ) (stops : List Id)
    (nw : TransportNetwork) (hstops : ∀ s ∈ stops, (nw.getStation s).isSome) (S : Id) :
    (addEdges route idx stops nw).edgesFrom S = nw.edgesFrom S ++
      ((routeEdges route idx stops).filter fun e => e.1 = S).map Prod.snd := by
  induction stops generalizing idx nw with
  | nil => simp [addEdges,routeEdges]
  | cons a stops ih =>
    cases stops with
    | nil => simp [addEdges,routeEdges]
    | cons b stops =>
      have hrest : ∀ s ∈ b::stops, ((nw.updateEdges a (· ++ [⟨route,idx,b,0⟩])).getStation s).isSome := by
        intro s hs
        rw [isSome_getStation_updateEdges]
        exact hstops s (List.mem_cons_of_mem a hs)
      rw [addEdges,ih _ _ hrest,edgesFrom_updateEdges,routeEdges]
      by_cases ha : a = S
      · subst a
        simp [hstops S (by simp)]
      · simp [ha]

theorem lines_addStation (nw : TransportNetwork) (station : Station) :
    (nw.addStation station).2.lines = nw.lines := by
  unfold addStation
  split_ifs <;> rfl

theorem lines_setTravelTime (nw : TransportNetwork) (stationA stationB : Id) (t : UInt32) :
    (nw.setTravelTime stationA stationB t).2.lines = nw.lines := by
  unfold setTravelTime
  split_ifs <;> rfl

theorem lines_recordPassengerEvent (nw : TransportNetwork) (event : PassengerEvent) :
    (nw.recordPassengerEvent event).2.lines = nw.lines := by
  unfold recordPassengerEvent
  split_ifs <;> rfl

theorem addEdges_keeps {β : Type} {view : TransportNetwork → β}
    (hview : ∀ nw k f, view (updateEdges nw k f) = view nw) (route : RouteInternal) (idx : ℕ)
    (stops : List Id) (nw : TransportNetwork) : view (addEdges route idx stops nw) = view nw := by
  induction stops generalizing idx nw with
  | nil => rfl
  | cons a stops ih =>
    cases stops with
    | nil => rfl
    | cons b stops => rw [addEdges,ih,hview]

theorem lines_addEdges (route : RouteInternal) (idx : ℕ) (stops : List Id)
    (nw : TransportNetwork) : (addEdges route idx stops nw).lines = nw.lines :=
  @addEdges_keeps _ lines (fun _ _ _ => rfl) route idx stops nw

theorem addRouteToLine_eq_true {route : Route} {line line' : LineInternal}
    (h : nw.addRouteToLine route line = some (true,nw',line')) :
    line.routes.find route.id = none ∧ (∀ s ∈ route.stops, (nw.getStation s).isSome) ∧
      route.stops ≠ [] ∧
      nw' = addEdges (nw.makeRoute route line) 0 route.stops nw ∧
      line' = {line with routes := line.routes.set route.id (nw.makeRoute route line)} := by
  unfold addRouteToLine at h
  split_ifs at h with hdup hstop hempty
  · simp at h
  · simp at h
  · simp only [Option.some.injEq,Prod.mk.injEq,true_and] at h
    refine ⟨by simpa using hdup,?_,hempty,h.1.symm,h.2.symm⟩
    intro s hs
    by_contra hn
    exact hstop (List.any_eq_true.mpr ⟨s,hs,by simpa using hn⟩)

theorem addRouteToLine_eq_false {route : Route} {line line' : LineInternal}
    (h : nw.addRouteToLine route line = some (false,nw',line')) :
    nw' = nw ∧ ((line.routes.find route.id).isSome ∨
      ∃ s ∈ route.stops, nw.getStation s = none) := by
  unfold addRouteToLine at h
  split_ifs at h with hdup hstop hempty
  · simp only [Option.some.injEq,Prod.mk.injEq,true_and] at h
    exact ⟨h.1.symm,Or.inl hdup⟩
  · simp only [Option.some.injEq,Prod.mk.injEq,true_and] at h
    obtain ⟨s,hs,hn⟩ := List.any_eq_true.mp hstop
    exact ⟨h.1.symm,Or.inr ⟨s,hs,by simpa using hn⟩⟩
  · simp at h

theorem addRoutes_cons {route : Route} {routes : List Route} {line line' : LineInternal} {ok : Bool}
    (h : addRoutes (route::routes) nw line = some (ok,nw',line')) :
    (ok = false ∧ nw' = nw ∧ nw.addRouteToLine route line = some (false,nw',line')) ∨
    ∃ next line'', nw.addRouteToLine route line = some (true,next,line'') ∧
      addRoutes routes next line'' = some (ok,nw',line') := by
  simp only [addRoutes] at h
  split at h
  · simp at h
  · rename_i hfalse
    simp only [Option.some.injEq,Prod.mk.injEq] at h
    obtain ⟨rfl,rfl,rfl⟩ := h
    exact Or.inl ⟨rfl,(addRouteToLine_eq_false hfalse).1,hfalse⟩
  · rename_i htrue
    exact Or.inr ⟨_,_,htrue,h⟩

theorem addRoutes_keeps {β : Type} {view : TransportNetwork → β}
    (hview : ∀ nw k f, view (updateEdges nw k f) = view nw) {routes : List Route}
    {line line' : LineInternal} {ok : Bool}
    (h : addRoutes routes nw line = some (ok,nw',line')) : view nw' = view nw := by
  induction routes generalizing nw line with
  | nil =>
    simp only [addRoutes,Option.some.injEq,Prod.mk.injEq] at h
    rw [h.2.1]
  | cons route routes ih =>
    rcases addRoutes_cons h with ⟨-,rfl,-⟩ | ⟨next,line'',htrue,hrest⟩
    · rfl
    · obtain ⟨-,-,-,rfl,-⟩ := addRouteToLine_eq_true htrue
      rw [ih hrest,addEdges_keeps hview]

theorem lines_addRoutes {routes : List Route} {line line' : LineInternal} {ok : Bool}
    (h : addRoutes routes nw line = some (ok,nw',line')) :
    nw'.lines = nw.lines :=
  @addRoutes_keeps nw nw' _ lines (fun _ _ _ => rfl) _ _ _ _ h

theorem le_foldr_max {n : ℕ} {ns : List ℕ} (h : n ∈ ns) : n ≤ ns.foldr max 0 := by
  induction ns with
  | nil => simp at h
  | cons m ns ih =>
    rcases List.mem_cons.mp h with rfl | h
    · exact le_max_left _ _
    · exact (ih h).trans (le_max_right _ _)

theorem exists_entry_of_edge {S : Id} {e : GraphEdge} (he : e ∈ nw.edgesFrom S) :
    ∃ node, (S,node) ∈ nw.stations.entries ∧ e ∈ node.edges := by
  cases hS : nw.getStation S with
  | none => simp [edgesFrom,hS] at he
  | some node =>
    exact ⟨node,(UnorderedMap.find_eq_some_iff nw.stations).mp hS,by simpa [edgesFrom,hS] using he⟩

theorem ptr_lt_freshPtr {S : Id} {e : GraphEdge} (he : e ∈ nw.edgesFrom S) (line : LineInternal) :
    e.route.ptr < nw.freshPtr line := by
  refine Nat.lt_succ_of_le (le_foldr_max (List.mem_append_left _ (List.mem_append_left _ ?_)))
  obtain ⟨node,hmem,hedge⟩ := exists_entry_of_edge he
  exact List.mem_flatMap.mpr ⟨(S,node),hmem,List.mem_map.mpr ⟨e,hedge,rfl⟩⟩

/-- Edges follow their routes: consecutive hops, over distinct stops, and one route for each
address. -/
structure WellFormed (nw : TransportNetwork) : Prop where
  hop : ∀ S, ∀ e ∈ nw.edgesFrom S,
    e.route.stops[e.hop]? = some S ∧ e.route.stops[e.hop+1]? = some e.nextStop
  nodup : ∀ S, ∀ e ∈ nw.edgesFrom S, e.route.stops.Nodup
  same_route : ∀ S S', ∀ e ∈ nw.edgesFrom S, ∀ e' ∈ nw.edgesFrom S',
    e.route.ptr = e'.route.ptr → e.route = e'.route

theorem wellFormed_empty : WellFormed empty := by
  constructor <;> simp [edgesFrom,getStation,empty]

theorem WellFormed.of_edges (h : WellFormed nw)
    (hedges : ∀ S, ∀ e ∈ nw'.edgesFrom S, ∃ e₀ ∈ nw.edgesFrom S,
      e.route = e₀.route ∧ e.hop = e₀.hop ∧ e.nextStop = e₀.nextStop) : WellFormed nw' where
  hop := by
    intro S e he
    obtain ⟨e₀,he₀,hr,hh,hn⟩ := hedges S e he
    rw [hr,hh,hn]
    exact h.hop S e₀ he₀
  nodup := by
    intro S e he
    obtain ⟨e₀,he₀,hr,-⟩ := hedges S e he
    rw [hr]
    exact h.nodup S e₀ he₀
  same_route := by
    intro S S' e he e' he' hp
    obtain ⟨e₀,he₀,hr,-⟩ := hedges S e he
    obtain ⟨e₁,he₁,hr',-⟩ := hedges S' e' he'
    rw [hr,hr'] at hp ⊢
    exact h.same_route S S' e₀ he₀ e₁ he₁ hp

theorem mem_edgesFrom_setEdgeTimes {start stop S : Id} {t : UInt32} {e : GraphEdge}
    (he : e ∈ (nw.setEdgeTimes start stop t).2.edgesFrom S) :
    ∃ e₀ ∈ nw.edgesFrom S, e.route = e₀.route ∧ e.hop = e₀.hop ∧ e.nextStop = e₀.nextStop := by
  simp only [setEdgeTimes,edgesFrom_updateEdges] at he
  split_ifs at he
  · obtain ⟨e₀,he₀,rfl⟩ := List.mem_map.mp he
    refine ⟨e₀,he₀,?_⟩
    split_ifs <;> exact ⟨rfl,rfl,rfl⟩
  · exact ⟨e,he,rfl,rfl,rfl⟩

theorem WellFormed.setEdgeTimes (h : WellFormed nw) (start stop : Id) (t : UInt32) :
    WellFormed (nw.setEdgeTimes start stop t).2 :=
  h.of_edges fun _ _ he => mem_edgesFrom_setEdgeTimes he

theorem WellFormed.setTravelTime (h : WellFormed nw) (stationA stationB : Id) (t : UInt32) :
    WellFormed (nw.setTravelTime stationA stationB t).2 := by
  unfold TransportNetwork.setTravelTime
  split_ifs
  · exact h
  · exact (h.setEdgeTimes _ _ _).setEdgeTimes _ _ _

theorem WellFormed.addStation (h : WellFormed nw) (station : Station) :
    WellFormed (nw.addStation station).2 := by
  refine h.of_edges fun S e he => ⟨e,?_,rfl,rfl,rfl⟩
  rwa [edgesFrom_addStation] at he

theorem WellFormed.addRouteToLine (h : WellFormed nw) {route : Route} {line line' : LineInternal}
    (hd : route.stops.Nodup) (hadd : nw.addRouteToLine route line = some (true,nw',line')) :
    WellFormed nw' := by
  obtain ⟨-,hstops,-,rfl,-⟩ := addRouteToLine_eq_true hadd
  set r := nw.makeRoute route line with hr
  have hedge : ∀ S, ∀ e ∈ (addEdges r 0 route.stops nw).edgesFrom S, e ∈ nw.edgesFrom S ∨
      (e.route = r ∧ route.stops[e.hop]? = some S ∧ route.stops[e.hop+1]? = some e.nextStop) := by
    intro S e he
    rw [edgesFrom_addEdges r 0 _ _ hstops] at he
    rcases List.mem_append.mp he with he | he
    · exact Or.inl he
    · obtain ⟨p,hp,rfl⟩ := List.mem_map.mp he
      obtain ⟨hp,hS⟩ := List.mem_filter.mp hp
      obtain ⟨hroute,i,hi,hthis,hnext⟩ := mem_routeEdges hp
      simp only [Nat.zero_add,decide_eq_true_eq] at hi hS
      rw [← hS,hi]
      exact Or.inr ⟨hroute,hthis,hnext⟩
  refine ⟨?_,?_,?_⟩
  · intro S e he
    rcases hedge S e he with he | ⟨hroute,hthis,hnext⟩
    · exact h.hop S e he
    · rw [hroute,hr]; exact ⟨hthis,hnext⟩
  · intro S e he
    rcases hedge S e he with he | ⟨hroute,-⟩
    · exact h.nodup S e he
    · rw [hroute,hr]; exact hd
  · intro S S' e he e' he' hp
    -- an old edge cannot carry the new address
    rcases hedge S e he with he | ⟨hroute,-⟩ <;> rcases hedge S' e' he' with he' | ⟨hroute',-⟩
    · exact h.same_route S S' e he e' he' hp
    · have := ptr_lt_freshPtr he line
      rw [hp,hroute'] at this
      exact absurd this (lt_irrefl _)
    · have := ptr_lt_freshPtr he' line
      rw [← hp,hroute] at this
      exact absurd this (lt_irrefl _)
    · rw [hroute,hroute']

theorem WellFormed.addRoutes {routes : List Route} {line line' : LineInternal} {ok : Bool}
    (h : WellFormed nw) (hd : ∀ r ∈ routes, r.stops.Nodup)
    (hadd : addRoutes routes nw line = some (ok,nw',line')) : WellFormed nw' := by
  induction routes generalizing nw line with
  | nil =>
    simp only [TransportNetwork.addRoutes,Option.some.injEq,Prod.mk.injEq] at hadd
    rw [← hadd.2.1]; exact h
  | cons r routes ih =>
    rcases addRoutes_cons hadd with ⟨-,rfl,-⟩ | ⟨next,line'',htrue,hrest⟩
    · exact h
    · exact ih (h.addRouteToLine (hd r (by simp)) htrue)
        (fun r' hr' => hd r' (List.mem_cons_of_mem r hr')) hrest

theorem WellFormed.addLine {line : Line} {ok : Bool} (h : WellFormed nw)
    (hd : ∀ r ∈ line.routes, r.stops.Nodup) (hadd : nw.addLine line = some (ok,nw')) :
    WellFormed nw' := by
  unfold TransportNetwork.addLine at hadd
  split_ifs at hadd
  · simp only [Option.some.injEq,Prod.mk.injEq] at hadd
    rw [← hadd.2]; exact h
  · split at hadd
    · simp at hadd
    · rename_i hroutes
      simp only [Option.some.injEq,Prod.mk.injEq] at hadd
      rw [← hadd.2]; exact h.addRoutes hd hroutes
    · rename_i hroutes
      simp only [Option.some.injEq,Prod.mk.injEq] at hadd
      rw [← hadd.2]
      exact (h.addRoutes hd hroutes).of_edges fun S e he => ⟨e,he,rfl,rfl,rfl⟩

theorem edgesFrom_recordPassengerEvent (nw : TransportNetwork) (event : PassengerEvent) (S : Id) :
    (nw.recordPassengerEvent event).2.edgesFrom S = nw.edgesFrom S := by
  unfold recordPassengerEvent
  split_ifs
  · rfl
  · simp only [edgesFrom,getStation,UnorderedMap.find_modify]
    split_ifs
    · cases nw.stations.find S <;> rfl
    · rfl

theorem WellFormed.recordPassengerEvent (h : WellFormed nw) (event : PassengerEvent) :
    WellFormed (nw.recordPassengerEvent event).2 := by
  refine h.of_edges fun S e he => ⟨e,?_,rfl,rfl,rfl⟩
  rwa [edgesFrom_recordPassengerEvent] at he

inductive Call
  | addStation (station : Station)
  | addLine (line : Line)
  | setTravelTime (stationA stationB : Id) (travelTime : UInt32)
  | recordPassengerEvent (event : PassengerEvent)

/-- The returned flag and the network after a call. -/
def run (nw : TransportNetwork) : Call → Option (Bool × TransportNetwork)
  | .addStation station => some (nw.addStation station)
  | .addLine line => nw.addLine line
  | .setTravelTime stationA stationB travelTime =>
    some (nw.setTravelTime stationA stationB travelTime)
  | .recordPassengerEvent event => some (nw.recordPassengerEvent event)

/-- A documented precondition: every stop of a route appears only once. -/
def Call.distinctStops : Call → Bool
  | .addLine line => line.routes.all fun route => decide route.stops.Nodup
  | _ => true

/-- The networks built by successful calls with distinct stops on every route. -/
inductive Built : TransportNetwork → Prop
  | empty : Built empty
  | call {nw nw' : TransportNetwork} (c : Call) : Built nw → c.distinctStops = true →
    nw.run c = some (true,nw') → Built nw'

def build (nw : TransportNetwork) : List Call → Option TransportNetwork
  | [] => some nw
  | c::calls =>
    match nw.run c with
    | some (true,nw') => if c.distinctStops then nw'.build calls else none
    | _ => none

theorem build_append (nw : TransportNetwork) (calls later : List Call) :
    nw.build (calls ++ later) = (nw.build calls).bind fun nw' => nw'.build later := by
  induction calls generalizing nw with
  | nil => rfl
  | cons c calls ih =>
    rw [List.cons_append,build,build]
    split
    · split_ifs
      · exact ih _
      · rfl
    · rfl

theorem Built.build (h : Built nw) {calls : List Call} (hb : nw.build calls = some nw') :
    Built nw' := by
  induction calls generalizing nw with
  | nil =>
    rw [← Option.some.inj hb]; exact h
  | cons c calls ih =>
    simp only [TransportNetwork.build] at hb
    split at hb
    · rename_i next hrun
      split_ifs at hb with hd
      exact ih (.call c h hd hrun) hb
    · simp at hb

def networkOf (calls : List Call) : TransportNetwork := (empty.build calls).getD empty

theorem build_networkOf {calls : List Call} (h : (empty.build calls).isSome) :
    empty.build calls = some (networkOf calls) := by
  obtain ⟨nw,hnw⟩ := Option.isSome_iff_exists.mp h
  rw [networkOf,hnw,Option.getD_some]

theorem built_networkOf (calls : List Call) : (networkOf calls).Built := by
  unfold networkOf
  cases hb : empty.build calls with
  | none => exact .empty
  | some nw => exact Built.empty.build hb

theorem WellFormed.run (h : WellFormed nw) {c : Call} {ok : Bool} (hd : c.distinctStops = true)
    (hrun : nw.run c = some (ok,nw')) : WellFormed nw' := by
  cases c with
  | addStation station =>
    have hw := h.addStation station
    rwa [Option.some.inj hrun] at hw
  | addLine line =>
    refine h.addLine (fun r hr => ?_) hrun
    simpa using List.all_eq_true.mp hd r hr
  | setTravelTime a b t =>
    have hw := h.setTravelTime a b t
    rwa [Option.some.inj hrun] at hw
  | recordPassengerEvent event =>
    have hw := h.recordPassengerEvent event
    rwa [Option.some.inj hrun] at hw

theorem Built.wellFormed (h : Built nw) : WellFormed nw := by
  induction h with
  | empty => exact wellFormed_empty
  | call c _ hd hrun ih => exact ih.run hd hrun

/-! In a built network a route is named by its line and its id. -/

/-- The edges belong to routes of the network, or to routes of the line under construction. -/
def RegisteredWith (nw : TransportNetwork) (line : LineInternal) : Prop :=
  ∀ S, ∀ e ∈ nw.edgesFrom S, nw.getRoute e.route.line e.route.id = some e.route ∨
    (e.route.line = line.id ∧ line.routes.find e.route.id = some e.route)

def Registered (nw : TransportNetwork) : Prop :=
  ∀ S, ∀ e ∈ nw.edgesFrom S, nw.getRoute e.route.line e.route.id = some e.route

theorem getRoute_congr (h : nw'.lines = nw.lines) (line route : Id) :
    nw'.getRoute line route = nw.getRoute line route := by
  simp only [getRoute,getLine,h]

theorem RegisteredWith.addRouteToLine {route : Route} {line line' : LineInternal}
    (h : nw.RegisteredWith line) (hadd : nw.addRouteToLine route line = some (true,nw',line')) :
    nw'.RegisteredWith line' ∧ nw'.lines = nw.lines ∧ line'.id = line.id := by
  obtain ⟨hnew,hstops,-,rfl,rfl⟩ := addRouteToLine_eq_true hadd
  have hlines := lines_addEdges (nw.makeRoute route line) 0 route.stops nw
  refine ⟨?_,hlines,rfl⟩
  intro S e he
  rw [edgesFrom_addEdges _ 0 _ _ hstops] at he
  rw [getRoute_congr hlines]
  rcases List.mem_append.mp he with he | he
  · rcases h S e he with hreg | ⟨hline,hfind⟩
    · exact Or.inl hreg
    · have hne : route.id ≠ e.route.id := by
        intro hid
        rw [← hid,hnew] at hfind
        simp at hfind
      exact Or.inr ⟨hline,by rw [UnorderedMap.find_set_ne _ _ hne]; exact hfind⟩
  · obtain ⟨p,hp,rfl⟩ := List.mem_map.mp he
    have hroute := (mem_routeEdges (List.mem_filter.mp hp).1).1
    rw [hroute]
    exact Or.inr ⟨rfl,UnorderedMap.find_set_self _ _ _⟩

theorem RegisteredWith.addRoutes {routes : List Route} {line line' : LineInternal}
    (h : nw.RegisteredWith line) (hadd : addRoutes routes nw line = some (true,nw',line')) :
    nw'.RegisteredWith line' ∧ nw'.lines = nw.lines ∧ line'.id = line.id := by
  induction routes generalizing nw line with
  | nil =>
    simp only [TransportNetwork.addRoutes,Option.some.injEq,Prod.mk.injEq,true_and] at hadd
    rw [← hadd.1,← hadd.2]
    exact ⟨h,rfl,rfl⟩
  | cons r routes ih =>
    rcases addRoutes_cons hadd with ⟨hfalse,-⟩ | ⟨next,line'',htrue,hrest⟩
    · simp at hfalse
    · obtain ⟨h',hlines',hid'⟩ := h.addRouteToLine htrue
      obtain ⟨h'',hlines'',hid''⟩ := ih h' hrest
      exact ⟨h'',hlines''.trans hlines',hid''.trans hid'⟩

theorem Registered.addLine {line : Line} (h : nw.Registered)
    (hadd : nw.addLine line = some (true,nw')) : nw'.Registered := by
  unfold TransportNetwork.addLine at hadd
  split_ifs at hadd with hdup
  · simp at hadd
  · split at hadd
    · simp at hadd
    · simp at hadd
    · rename_i next lineInternal hroutes
      simp only [Option.some.injEq,Prod.mk.injEq,true_and] at hadd
      have hnone : nw.getLine line.id = none := by simpa using hdup
      have hstart : nw.RegisteredWith ⟨line.id,line.name,.empty⟩ := fun S e he => Or.inl (h S e he)
      obtain ⟨hreg,hlines,hid⟩ := hstart.addRoutes hroutes
      have hfind : ∀ id, nw'.getLine id = if line.id = id then some lineInternal else nw.getLine id := by
        intro id
        have hnone' : next.lines.find line.id = none := by rw [hlines]; exact hnone
        rw [← hadd]
        simp only [getLine,UnorderedMap.find_emplace,hnone',Option.getD_none]
        rw [hlines]
      intro S e he
      have he' : e ∈ next.edgesFrom S := by rw [← hadd] at he; exact he
      rcases hreg S e he' with hold | ⟨hline,hnew⟩
      · rw [getRoute_congr hlines] at hold
        have hne : line.id ≠ e.route.line := by
          intro heq
          simp [getRoute,← heq,hnone] at hold
        simpa [getRoute,hfind,hne] using hold
      · have heq : line.id = e.route.line := hid.symm.trans hline.symm
        simpa [getRoute,hfind,heq] using hnew

theorem Registered.of_edges (h : nw.Registered) (hlines : nw'.lines = nw.lines)
    (hedges : ∀ S, ∀ e ∈ nw'.edgesFrom S, ∃ e₀ ∈ nw.edgesFrom S, e.route = e₀.route) :
    nw'.Registered := by
  intro S e he
  obtain ⟨e₀,he₀,hr⟩ := hedges S e he
  rw [getRoute_congr hlines,hr]
  exact h S e₀ he₀

theorem Registered.setEdgeTimes (h : nw.Registered) (start stop : Id) (t : UInt32) :
    (nw.setEdgeTimes start stop t).2.Registered :=
  h.of_edges rfl fun _ _ he => by
    obtain ⟨e₀,he₀,hr,-⟩ := mem_edgesFrom_setEdgeTimes he
    exact ⟨e₀,he₀,hr⟩

theorem Built.registered (h : Built nw) : nw.Registered := by
  induction h with
  | empty => intro S e he; simp [edgesFrom,getStation,TransportNetwork.empty] at he
  | @call nw nw' c _ _ hrun ih =>
    cases c with
    | addStation station =>
      have hnw' : (nw.addStation station).2 = nw' := congrArg Prod.snd (Option.some.inj hrun)
      rw [← hnw']
      refine ih.of_edges (lines_addStation nw station) fun S e he => ⟨e,?_,rfl⟩
      rwa [edgesFrom_addStation] at he
    | addLine line => exact ih.addLine hrun
    | setTravelTime a b t =>
      have hnw' : (nw.setTravelTime a b t).2 = nw' := congrArg Prod.snd (Option.some.inj hrun)
      rw [← hnw',TransportNetwork.setTravelTime]
      split_ifs
      · exact ih
      · exact (ih.setEdgeTimes _ _ _).setEdgeTimes _ _ _
    | recordPassengerEvent event =>
      have hnw' : (nw.recordPassengerEvent event).2 = nw' := congrArg Prod.snd (Option.some.inj hrun)
      rw [← hnw']
      refine ih.of_edges (lines_recordPassengerEvent nw event) fun S e he => ⟨e,?_,rfl⟩
      rwa [edgesFrom_recordPassengerEvent] at he

/-- Two edges of a built network belong to one route object exactly when line and id agree. -/
theorem Built.ptr_eq_iff (h : Built nw) {S S' : Id} {e e' : GraphEdge} (he : e ∈ nw.edgesFrom S)
    (he' : e' ∈ nw.edgesFrom S') : e.route.ptr = e'.route.ptr ↔
      e.route.line = e'.route.line ∧ e.route.id = e'.route.id := by
  constructor
  · intro hp
    rw [h.wellFormed.same_route S S' e he e' he' hp]
    exact ⟨rfl,rfl⟩
  · rintro ⟨hline,hid⟩
    have hreg := h.registered S e he
    rw [hline,hid,h.registered S' e' he'] at hreg
    rw [Option.some.inj hreg]

end TransportNetwork
end QuietRoute
