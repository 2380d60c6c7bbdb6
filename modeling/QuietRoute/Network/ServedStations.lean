import QuietRoute.Network.AddedLines
import QuietRoute.Network.FailedAddLine

/-! The routes that serve a station. The answer takes a route from its edge at the station, or from
its end there; a route of distinct stops has one of the two for every stop. -/
namespace QuietRoute

theorem getLast?_or_mem_dropLast {α : Type} {a : α} {l : List α} (h : a ∈ l) :
    a ∈ l.dropLast ∨ l.getLast? = some a := by
  by_cases hlast : l.getLast? = some a
  · exact Or.inr hlast
  · exact Or.inl (List.mem_dropLast_of_mem_of_ne_getLast? h fun heq => hlast heq.symm)

theorem getLast?_ne_of_mem_dropLast {α : Type} {a : α} {l : List α} (hnodup : l.Nodup)
    (h : a ∈ l.dropLast) : l.getLast? ≠ some a := by
  intro hlast
  obtain ⟨front,rfl⟩ := List.getLast?_eq_some_iff.mp hlast
  rw [List.dropLast_concat] at h
  exact (List.nodup_append.mp hnodup).2.2 a h a (List.mem_singleton_self a) rfl

theorem filter_or_perm {α : Type} {l : List α} {p q r : α → Bool}
    (hor : ∀ a ∈ l, r a = (p a || q a)) (hdisjoint : ∀ a ∈ l, p a = true → q a = false) :
    (l.filter p ++ l.filter q).Perm (l.filter r) := by
  have hp : l.filter p = (l.filter r).filter p := by
    rw [List.filter_filter]
    refine List.filter_congr fun a ha => ?_
    rw [hor a ha]
    cases p a <;> simp
  have hq : l.filter q = (l.filter r).filter fun a => !p a := by
    rw [List.filter_filter]
    refine List.filter_congr fun a ha => ?_
    rw [hor a ha]
    cases hpa : p a with
    | false => simp
    | true => simp [hdisjoint a ha hpa]
  rw [hp,hq]
  exact List.filter_append_perm p (l.filter r)

namespace TransportNetwork

variable {nw nw' : TransportNetwork} {lines : List Line} {S : Id}

/-- The answer for another order in which the routes of all lines are met. -/
def routesServing (nw : TransportNetwork) (routes : List RouteInternal) (station : Id) :
    Option (List Id) :=
  match nw.getStation station with
  | none => some []
  | some node => do
    let ending ← routes.mapM (routeEndingAt station)
    return node.edges.map (·.route.id) ++ ending.flatten

theorem routesServing_allRoutes (nw : TransportNetwork) (station : Id) :
    nw.routesServing nw.allRoutes station = nw.getRoutesServingStation station := rfl

/-- The ids of the routes that satisfy a condition, one entry each. -/
def idsWhere (routes : List Route) (p : Route → Bool) : List Id := (routes.filter p).map Route.id

theorem idsWhere_eq_flatMap (routes : List Route) (p : Route → Bool) :
    idsWhere routes p = routes.flatMap fun route => if p route then [route.id] else [] := by
  induction routes with
  | nil => rfl
  | cons route routes ih =>
    rw [List.flatMap_cons,← ih,idsWhere,List.filter_cons]
    split_ifs <;> rfl

/-! The edges at a station. -/

theorem ids_leavingEdges {route : RouteInternal} (hnodup : route.stops.Nodup) (S : Id) :
    (leavingEdges route S).map (·.route.id) =
      if S ∈ route.stops.dropLast then [route.id] else [] := by
  have hcount : (leavingEdges route S).length = route.stops.dropLast.count S := by
    rw [leavingEdges,List.length_map,← fst_routeEdges route 0,List.count,List.countP_map,
      List.countP_eq_length_filter]
    exact congrArg List.length (List.filter_congr fun e _ => (beq_eq_decide e.1 S).symm)
  have hids : ∀ id ∈ (leavingEdges route S).map (·.route.id), id = route.id := by
    intro id hid
    obtain ⟨e,he,rfl⟩ := List.mem_map.mp hid
    rw [(mem_leavingEdges he).1]
  have hdistinct : route.stops.dropLast.Nodup := hnodup.sublist (List.dropLast_sublist _)
  rw [List.eq_replicate_of_mem hids,List.length_map,hcount,hdistinct.count]
  split_ifs <;> rfl

theorem Makes.ids_edges {lineId : Id} {routes : List Route} {new : List (Id × RouteInternal)}
    (h : nw.Makes nw' lineId routes new) (hnodup : ∀ route ∈ routes, route.stops.Nodup) (S : Id) :
    (nw'.edgesFrom S).map (·.route.id) = (nw.edgesFrom S).map (·.route.id) ++
      idsWhere routes fun route => S ∈ route.stops.dropLast := by
  rw [h.edgesFrom_eq,List.map_append,List.map_flatMap,idsWhere_eq_flatMap]
  congr 1
  have hview := h.view
  clear h
  induction new generalizing routes with
  | nil =>
    obtain rfl := List.map_eq_nil_iff.mp hview.symm
    rfl
  | cons e new ih =>
    cases routes with
    | nil => cases hview
    | cons route routes =>
      obtain ⟨hhead,htail⟩ := List.cons.inj hview
      have hid : e.2.id = route.id := congrArg (fun view => view.2.2.1) hhead
      have hstops : e.2.stops = route.stops := congrArg (fun view => view.2.2.2) hhead
      have hdistinct : e.2.stops.Nodup := hstops ▸ hnodup route List.mem_cons_self
      rw [List.flatMap_cons,List.flatMap_cons,ids_leavingEdges hdistinct,hid,hstops,
        ih (fun r hr => hnodup r (List.mem_cons_of_mem route hr)) htail]
      simp only [decide_eq_true_eq]

/-! Runs in which all lines are added in full. -/

def AddsInFull (_ : TransportNetwork) : Call → Bool → Prop
  | .addLine line, ok => (Call.addLine line).distinctStops = true ∧ ok = true
  | .addStation _, _ => True
  | .setTravelTime _ _ _, _ => True
  | .recordPassengerEvent _, _ => True

def addedRoutes (lines : List Line) : List Route := lines.flatMap Line.routes

/-- A station has one edge for each added route that goes on from there. -/
structure EdgeForEach (lines : List Line) (nw : TransportNetwork) : Prop where
  distinct : ∀ route ∈ addedRoutes lines, route.stops.Nodup
  ids : ∀ S, (nw.edgesFrom S).map (·.route.id) =
    idsWhere (addedRoutes lines) fun route => S ∈ route.stops.dropLast

theorem EdgeForEach.of_edges (h : EdgeForEach lines nw)
    (hedges : ∀ S, (nw'.edgesFrom S).map (·.route.id) = (nw.edgesFrom S).map (·.route.id)) :
    EdgeForEach lines nw' := ⟨h.distinct,fun S => (hedges S).trans (h.ids S)⟩

theorem EdgeForEach.addLine {line : Line} (h : EdgeForEach lines nw)
    (hdistinct : ∀ route ∈ line.routes, route.stops.Nodup)
    (hadd : nw.addLine line = some (true,nw')) : EdgeForEach (lines ++ [line]) nw' := by
  obtain ⟨new,hmakes,-⟩ := makes_addLine hadd
  have hroutes : addedRoutes (lines ++ [line]) = addedRoutes lines ++ line.routes := by
    rw [addedRoutes,List.flatMap_append,List.flatMap_singleton]
    rfl
  refine ⟨?_,fun S => ?_⟩
  · intro route hroute
    rw [hroutes] at hroute
    rcases List.mem_append.mp hroute with hold | hnew
    · exact h.distinct route hold
    · exact hdistinct route hnew
  · rw [hmakes.ids_edges hdistinct,h.ids,hroutes,idsWhere,idsWhere,idsWhere,List.filter_append,
      List.map_append]

theorem ids_setTravelTime (nw : TransportNetwork) (A B : Id) (t : UInt32) (S : Id) :
    ((nw.setTravelTime A B t).2.edgesFrom S).map (·.route.id) =
      (nw.edgesFrom S).map (·.route.id) := by
  by_cases hknown : (nw.getStation A).isSome ∧ (nw.getStation B).isSome
  · rw [edgesFrom_setTravelTime hknown.1 hknown.2,List.map_map]
    apply List.map_congr_left
    intro e _
    simp only [Function.comp_apply]
    split_ifs <;> rfl
  · rw [setTravelTime_unknown hknown]

theorem edgeForEach_of_run (h : LogsCalls AddsInFull ([],empty) (lines,nw)) :
    EdgeForEach lines nw := by
  refine invariant_of_run ⟨by simp [addedRoutes],fun S => rfl⟩ ?_ h
  intro lines nw c ok nw' hfull hallowed hrun
  cases c with
  | addStation station =>
    obtain rfl : (nw.addStation station).2 = nw' := congrArg Prod.snd (Option.some.inj hrun)
    rw [Call.adds,List.append_nil]
    exact hfull.of_edges fun S => by rw [edgesFrom_addStation]
  | addLine line =>
    obtain ⟨hdistinct,rfl⟩ := hallowed
    refine hfull.addLine (fun route hroute => ?_) hrun
    simpa using List.all_eq_true.mp hdistinct route hroute
  | setTravelTime A B t =>
    obtain rfl : (nw.setTravelTime A B t).2 = nw' := congrArg Prod.snd (Option.some.inj hrun)
    rw [Call.adds,List.append_nil]
    exact hfull.of_edges (ids_setTravelTime nw A B t)
  | recordPassengerEvent event =>
    obtain rfl : (nw.recordPassengerEvent event).2 = nw' :=
      congrArg Prod.snd (Option.some.inj hrun)
    rw [Call.adds,List.append_nil]
    exact hfull.of_edges fun S => by rw [edgesFrom_recordPassengerEvent]

/-! The routes that end at a station. -/

theorem allRoutes_eq (nw : TransportNetwork) : nw.allRoutes = nw.routeTable.map Prod.snd := by
  rw [allRoutes,routeTable,List.map_flatMap]
  simp only [List.map_map]
  rfl

theorem Holds.allRoutes (h : Holds lines nw) :
    nw.allRoutes.map (fun route => (route.id,route.stops)) =
      (addedRoutes lines).map fun route => (route.id,route.stops) := by
  have htable := congrArg (List.map fun view => view.2.2) h.table
  rw [List.map_map,List.map_flatMap] at htable
  rw [allRoutes_eq,List.map_map,addedRoutes,List.map_flatMap]
  refine htable.trans ?_
  simp only [lineView,List.map_map]
  rfl

theorem Holds.ending (h : Holds lines nw) {routes : List RouteInternal}
    (hroutes : routes.Perm nw.allRoutes) (S : Id) :
    ∃ ending, routes.mapM (routeEndingAt S) = some ending ∧
      ending.flatten.Perm (idsWhere (addedRoutes lines) fun route => route.stops.getLast? = some S) := by
  let entry : Id × List Id → List Id := fun view => if view.2.getLast? = some S then [view.1] else []
  have hall : ∀ r ∈ nw.allRoutes, r.stops ≠ [] := by
    intro r hr
    have hmem := List.mem_map_of_mem (f:=fun route => (route.id,route.stops)) hr
    rw [h.allRoutes] at hmem
    obtain ⟨route,hroute,hview⟩ := List.mem_map.mp hmem
    obtain ⟨line,hline,hroute⟩ := List.mem_flatMap.mp hroute
    have hstops : route.stops = r.stops := congrArg Prod.snd hview
    rw [← hstops]
    exact h.nonempty line hline route hroute
  have hending : ∀ r ∈ routes, routeEndingAt S r = some (entry (r.id,r.stops)) := by
    intro r hr
    have hlast := List.getLast?_eq_some_getLast (hall r (hroutes.mem_iff.mp hr))
    rw [routeEndingAt,hlast,Option.map_some]
    simp only [entry,hlast,Option.some.injEq]
  have hmap : ∀ l : List RouteInternal, (∀ r ∈ l, routeEndingAt S r = some (entry (r.id,r.stops))) →
      l.mapM (routeEndingAt S) = some (l.map fun r => entry (r.id,r.stops)) := by
    intro l hl
    induction l with
    | nil => rfl
    | cons r l ih =>
      rw [List.mapM_cons,hl r List.mem_cons_self,ih fun r' hr' => hl r' (List.mem_cons_of_mem r hr')]
      rfl
  refine ⟨_,hmap routes hending,?_⟩
  have hperm := (hroutes.map fun r => (r.id,r.stops)).flatMap_right entry
  rw [h.allRoutes,List.flatMap_map,List.flatMap_map] at hperm
  rw [← List.flatMap_def,idsWhere_eq_flatMap]
  simpa only [entry,decide_eq_true_eq] using hperm

/-- Every added route is listed once for each station that it serves, and nothing else is. -/
theorem getRoutesServingStation_perm (h : LogsCalls AddsInFull ([],empty) (lines,nw)) (S : Id) :
    nw.getRoutesServingStation S = nw.routesServing nw.allRoutes S ∧
    ∀ routes, routes.Perm nw.allRoutes → ∃ ids, nw.routesServing routes S = some ids ∧
      ids.Perm (idsWhere (addedRoutes lines) fun route => S ∈ route.stops) := by
  refine ⟨(routesServing_allRoutes nw S).symm,fun routes hroutes => ?_⟩
  have hholds := holds_of_run h
  have hfull := edgeForEach_of_run h
  rw [routesServing]
  cases hS : nw.getStation S with
  | none =>
    refine ⟨[],rfl,?_⟩
    have hnone : (addedRoutes lines).filter (fun route => S ∈ route.stops) = [] := by
      refine List.filter_eq_nil_iff.mpr fun route hroute hmem => ?_
      obtain ⟨line,hline,hroute⟩ := List.mem_flatMap.mp hroute
      have hknown := hholds.known line hline route hroute S (by simpa using hmem)
      simp [hS] at hknown
    rw [idsWhere,hnone]
    exact .refl _
  | some node =>
    obtain ⟨ending,hending,hperm⟩ := hholds.ending hroutes S
    have hedges : nw.edgesFrom S = node.edges := by simp [edgesFrom,hS]
    refine ⟨_,by simp only [hending]; rfl,?_⟩
    rw [← hedges,hfull.ids S]
    refine (hperm.append_left _).trans ?_
    rw [idsWhere,idsWhere,← List.map_append]
    refine (filter_or_perm (fun route hroute => ?_) fun route hroute hmem => ?_).map Route.id
    · rw [Bool.eq_iff_iff,Bool.or_eq_true,decide_eq_true_iff,decide_eq_true_iff,decide_eq_true_iff]
      refine ⟨getLast?_or_mem_dropLast,fun hor => ?_⟩
      rcases hor with hmem | hlast
      · exact List.mem_of_mem_dropLast hmem
      · exact List.mem_of_getLast? hlast
    · rw [decide_eq_true_eq] at hmem
      exact decide_eq_false (getLast?_ne_of_mem_dropLast (hfull.distinct route hroute) hmem)

def oneWay : List Call :=
  [.addStation ⟨ascii "A",[]⟩,.addStation ⟨ascii "B",[]⟩,
    .addLine ⟨ascii "red",[],[⟨ascii "r",[],ascii "red",ascii "A",ascii "B",[ascii "A",ascii "B"]⟩]⟩]

theorem getRoutesServingStation_perm_oneWay : ∃ ids,
    (networkOf oneWay).getRoutesServingStation (ascii "B") = some ids ∧ ids.Perm [ascii "r"] := by
  have hadds : ∀ nw, ∀ c ∈ oneWay, AddsInFull nw c true := fun _ =>
    List.forall_mem_cons.mpr ⟨trivial,List.forall_mem_cons.mpr ⟨trivial,
      List.forall_mem_singleton.mpr ⟨by decide,rfl⟩⟩⟩
  have hrun := @logsCalls_of_build _ _ [] AddsInFull _ hadds
    (build_networkOf (by decide +kernel))
  obtain ⟨hget,hperm⟩ := getRoutesServingStation_perm hrun (ascii "B")
  obtain ⟨ids,hids,hperm⟩ := hperm _ (.refl _)
  exact ⟨ids,hget.trans hids,hperm.trans (.of_eq (by decide))⟩

end TransportNetwork
end QuietRoute
