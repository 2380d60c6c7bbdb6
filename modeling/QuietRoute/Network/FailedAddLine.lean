import QuietRoute.Network.RouteSearch
import QuietRoute.Network.Invariants

/-! A failed `addLine` keeps the edges of the routes before the one it fails on. It goes unnoticed
exactly if these routes have no edges. -/
namespace QuietRoute
namespace TransportNetwork

variable {nw nw' : TransportNetwork} {line line' : LineInternal} {routes : List Route}

/-- The networks that any calls with defined behaviour lead to. -/
inductive Reachable : TransportNetwork → Prop
  | empty : Reachable empty
  | call {nw nw' : TransportNetwork} {ok : Bool} (c : Call) : Reachable nw →
    nw.run c = some (ok,nw') → Reachable nw'

def runAll (nw : TransportNetwork) : List Call → Option (List Bool × TransportNetwork)
  | [] => some ([],nw)
  | c::calls => do
    let (ok,nw') ← nw.run c
    let (oks,final) ← nw'.runAll calls
    return (ok::oks,final)

structure SameAnswers (nw nw' : TransportNetwork) : Prop where
  getPassengerCount : ∀ station, nw.getPassengerCount station = nw'.getPassengerCount station
  getRoutesServingStation : ∀ station,
    nw.getRoutesServingStation station = nw'.getRoutesServingStation station
  getTravelTime : ∀ stationA stationB,
    nw.getTravelTime stationA stationB = nw'.getTravelTime stationA stationB
  getRouteTravelTime : ∀ line route stationA stationB,
    nw.getRouteTravelTime line route stationA stationB =
      nw'.getRouteTravelTime line route stationA stationB
  getFastestTravelRoute : ∀ lib stationA stationB,
    nw.getFastestTravelRoute lib stationA stationB = nw'.getFastestTravelRoute lib stationA stationB
  getQuietTravelRoute : ∀ lib stationA stationB maxSlowdownPc minQuietnessPc maxNPaths,
    nw.getQuietTravelRoute lib stationA stationB maxSlowdownPc minQuietnessPc maxNPaths =
      nw'.getQuietTravelRoute lib stationA stationB maxSlowdownPc minQuietnessPc maxNPaths

/-- No later calls and no queries after them tell the networks apart. -/
def Indistinguishable (nw nw' : TransportNetwork) : Prop :=
  ∀ calls, Option.Rel (fun a b => a.1 = b.1 ∧ SameAnswers a.2 b.2) (nw.runAll calls)
    (nw'.runAll calls)

theorem indistinguishable_refl (nw : TransportNetwork) : Indistinguishable nw nw := by
  intro calls
  cases nw.runAll calls with
  | none => exact .none
  | some final => exact .some ⟨rfl,⟨fun _ => rfl,fun _ => rfl,fun _ _ => rfl,fun _ _ _ _ => rfl,
      fun _ _ _ => rfl,fun _ _ _ _ _ _ => rfl⟩⟩

def Refused (nw : TransportNetwork) (routes : UnorderedMap Id RouteInternal) (route : Route) : Prop :=
  (routes.find route.id).isSome ∨ ∃ stop ∈ route.stops, nw.getStation stop = none

/-- The routes before the first one that is refused, all of a single stop. -/
def SingleStopsBefore (nw : TransportNetwork) (routes : List Route) : Prop :=
  ∃ pre route post, routes = pre ++ route::post ∧ (∀ r ∈ pre, r.stops.length = 1) ∧
    ((∃ r ∈ pre, r.id = route.id) ∨ ∃ stop ∈ route.stops, nw.getStation stop = none)

theorem addEdges_single (route : RouteInternal) {stops : List Id} (h : stops.length = 1) :
    addEdges route 0 stops nw = nw := by
  obtain ⟨stop,rfl⟩ := List.length_eq_one_iff.mp h
  rfl

theorem addRoutes_single {pre post : List Route} {route : Route} {ok : Bool}
    (hsingle : ∀ r ∈ pre, r.stops.length = 1)
    (hrefused : (∃ r ∈ pre, r.id = route.id) ∨ Refused nw line.routes route)
    (h : addRoutes (pre ++ route::post) nw line = some (ok,nw',line')) : nw' = nw := by
  induction pre generalizing line with
  | nil =>
    rcases addRoutes_cons h with ⟨-,hnw,-⟩ | ⟨next,line'',htrue,-⟩
    · exact hnw
    · obtain ⟨hnew,hknown,-⟩ := addRouteToLine_eq_true htrue
      rcases hrefused with ⟨r,hr,-⟩ | hdup | ⟨stop,hstop,hnone⟩
      · simp at hr
      · simp [hnew] at hdup
      · have hsome := hknown stop hstop
        simp [hnone] at hsome
  | cons first pre ih =>
    rcases addRoutes_cons h with ⟨-,hnw,-⟩ | ⟨next,line'',htrue,hrest⟩
    · exact hnw
    · obtain ⟨-,-,-,hnw,hline⟩ := addRouteToLine_eq_true htrue
      rw [addEdges_single _ (hsingle first (by simp))] at hnw
      rw [hnw] at hrest
      refine ih (fun r hr => hsingle r (List.mem_cons_of_mem first hr)) ?_ hrest
      -- the route just added is now one that a later route can repeat
      have hfind : ∀ id, ((line.routes.set first.id (nw.makeRoute first line)).find id).isSome =
          (first.id = id ∨ (line.routes.find id).isSome) := by
        intro id
        rw [UnorderedMap.find_set]
        by_cases hid : first.id = id <;> simp [hid]
      rcases hrefused with ⟨r,hr,hid⟩ | hdup | hstop
      · rcases List.mem_cons.mp hr with rfl | hr
        · right; left
          rw [hline]
          exact (hfind route.id).mpr (Or.inl hid)
        · exact Or.inl ⟨r,hr,hid⟩
      · right; left
        rw [hline]
        exact (hfind route.id).mpr (Or.inr hdup)
      · exact Or.inr (Or.inr hstop)

theorem length_edgesFrom_addRoutes {ok : Bool}
    (h : addRoutes routes nw line = some (ok,nw',line')) (S : Id) :
    (nw.edgesFrom S).length ≤ (nw'.edgesFrom S).length := by
  induction routes generalizing nw line with
  | nil =>
    simp only [addRoutes,Option.some.injEq,Prod.mk.injEq] at h
    rw [h.2.1]
  | cons route routes ih =>
    rcases addRoutes_cons h with ⟨-,rfl,-⟩ | ⟨next,line'',htrue,hrest⟩
    · exact le_rfl
    · obtain ⟨-,hknown,-,rfl,-⟩ := addRouteToLine_eq_true htrue
      have hmono := ih hrest
      rw [edgesFrom_addEdges _ 0 _ _ hknown,List.length_append] at hmono
      exact (Nat.le_add_right _ _).trans hmono

/-- A failed call found only single stops before the refused route, or left an edge behind. -/
theorem addRoutes_eq_false (h : addRoutes routes nw line = some (false,nw',line')) :
    (∃ pre route post, routes = pre ++ route::post ∧ (∀ r ∈ pre, r.stops.length = 1) ∧
      ((∃ r ∈ pre, r.id = route.id) ∨ Refused nw line.routes route)) ∨
    ∃ S, (nw.getStation S).isSome ∧ (nw.edgesFrom S).length < (nw'.edgesFrom S).length := by
  induction routes generalizing nw line with
  | nil => simp [addRoutes] at h
  | cons first routes ih =>
    rcases addRoutes_cons h with ⟨-,-,hfalse⟩ | ⟨next,line'',htrue,hrest⟩
    · left
      exact ⟨[],first,routes,rfl,by simp,Or.inr (addRouteToLine_eq_false hfalse).2⟩
    · obtain ⟨-,hknown,hne,rfl,rfl⟩ := addRouteToLine_eq_true htrue
      cases hstops : first.stops with
      | nil => exact absurd hstops hne
      | cons start stops =>
        cases stops with
        | nil =>
          have hone : first.stops.length = 1 := by rw [hstops]; rfl
          rw [addEdges_single _ hone] at hrest
          refine (ih hrest).imp_left ?_
          rintro ⟨pre,route,post,rfl,hsingle,hrefused⟩
          refine ⟨first::pre,route,post,rfl,?_,?_⟩
          · intro r hr
            rcases List.mem_cons.mp hr with rfl | hr
            · simp [hstops]
            · exact hsingle r hr
          · rcases hrefused with ⟨r,hr,hid⟩ | hdup | hstop
            · exact Or.inl ⟨r,List.mem_cons_of_mem first hr,hid⟩
            · by_cases hid : first.id = route.id
              · exact Or.inl ⟨first,by simp,hid⟩
              · rw [UnorderedMap.find_set_ne _ _ hid] at hdup
                exact Or.inr (Or.inl hdup)
            · exact Or.inr (Or.inr hstop)
        | cons next stops =>
          right
          refine ⟨start,hknown start (by simp [hstops]),?_⟩
          have hmono := length_edgesFrom_addRoutes hrest start
          have hnew : (nw.edgesFrom start).length <
              ((addEdges (nw.makeRoute first line) 0 first.stops nw).edgesFrom start).length := by
            rw [edgesFrom_addEdges _ 0 _ _ hknown,List.length_append,hstops]
            simp [routeEdges]
          exact hnew.trans_le hmono

/-! A registered route has a last stop, which the query for the routes of a station looks at. -/

theorem stops_ne_nil_addRoutes {ok : Bool}
    (h : addRoutes routes nw line = some (ok,nw',line'))
    (hline : ∀ id r, line.routes.find id = some r → r.stops ≠ []) :
    ∀ id r, line'.routes.find id = some r → r.stops ≠ [] := by
  induction routes generalizing nw line with
  | nil =>
    simp only [addRoutes,Option.some.injEq,Prod.mk.injEq] at h
    rwa [← h.2.2]
  | cons route routes ih =>
    rcases addRoutes_cons h with ⟨-,-,hfalse⟩ | ⟨next,line'',htrue,hrest⟩
    · unfold addRouteToLine at hfalse
      split_ifs at hfalse <;> simp at hfalse <;> rwa [← hfalse.2]
    · obtain ⟨-,-,hne,-,rfl⟩ := addRouteToLine_eq_true htrue
      refine ih hrest fun id r hr => ?_
      rw [UnorderedMap.find_set] at hr
      split_ifs at hr
      · rw [← Option.some.inj hr]
        exact hne
      · exact hline id r hr

theorem Reachable.stops_ne_nil (h : nw.Reachable) :
    ∀ lineId routeId r, nw.getRoute lineId routeId = some r → r.stops ≠ [] := by
  induction h with
  | empty => intro lineId routeId r hr; simp [getRoute,getLine,TransportNetwork.empty] at hr
  | @call nw nw' ok c _ hrun ih =>
    have hkeep : nw'.lines = nw.lines → ∀ lineId routeId r,
        nw'.getRoute lineId routeId = some r → r.stops ≠ [] := by
      intro hlines lineId routeId r hr
      rw [getRoute_congr hlines] at hr
      exact ih lineId routeId r hr
    cases c with
    | addStation station =>
      have hnw' : (nw.addStation station).2 = nw' := congrArg Prod.snd (Option.some.inj hrun)
      exact hkeep (by rw [← hnw',lines_addStation])
    | setTravelTime a b t =>
      have hnw' : (nw.setTravelTime a b t).2 = nw' := congrArg Prod.snd (Option.some.inj hrun)
      exact hkeep (by rw [← hnw',lines_setTravelTime])
    | recordPassengerEvent event =>
      have hnw' : (nw.recordPassengerEvent event).2 = nw' := congrArg Prod.snd (Option.some.inj hrun)
      exact hkeep (by rw [← hnw',lines_recordPassengerEvent])
    | addLine newLine =>
      rw [TransportNetwork.run,addLine] at hrun
      split_ifs at hrun with hdup
      · simp only [Option.some.injEq,Prod.mk.injEq] at hrun
        exact hkeep (by rw [hrun.2])
      · cases hroutes : addRoutes newLine.routes nw ⟨newLine.id,newLine.name,.empty⟩ with
        | none => simp [hroutes] at hrun
        | some result =>
          obtain ⟨added,next,lineInternal⟩ := result
          have hlines := lines_addRoutes hroutes
          cases added with
          | false =>
            simp only [hroutes,Option.some.injEq,Prod.mk.injEq] at hrun
            exact hkeep (by rw [← hrun.2,hlines])
          | true =>
            simp only [hroutes,Option.some.injEq,Prod.mk.injEq] at hrun
            have hnew := stops_ne_nil_addRoutes hroutes (by simp)
            intro lineId routeId r hr
            rw [← hrun.2,getRoute,getLine,UnorderedMap.find_emplace,hlines] at hr
            split_ifs at hr with hid
            · have hnone : nw.lines.find newLine.id = none := by simpa [getLine] using hdup
              rw [hnone,Option.getD_none,Option.bind_some] at hr
              exact hnew routeId r hr
            · exact ih lineId routeId r hr

def allRoutes (nw : TransportNetwork) : List RouteInternal :=
  nw.lines.entries.flatMap fun line => line.2.routes.entries.map Prod.snd

theorem Reachable.exists_ending (h : nw.Reachable) (station : Id) :
    ∃ ending, nw.allRoutes.mapM (routeEndingAt station) = some ending := by
  have hall : ∀ r ∈ nw.allRoutes, r.stops ≠ [] := by
    intro r hr
    obtain ⟨line,hline,hmem⟩ := List.mem_flatMap.mp hr
    obtain ⟨route,hroute,rfl⟩ := List.mem_map.mp hmem
    have hfind : nw.getLine line.1 = some line.2 := (UnorderedMap.find_eq_some_iff _).mpr hline
    have hget : nw.getRoute line.1 route.1 = some route.2 := by
      rw [getRoute,hfind]
      exact (UnorderedMap.find_eq_some_iff _).mpr hroute
    exact h.stops_ne_nil _ _ _ hget
  generalize nw.allRoutes = routes at hall
  induction routes with
  | nil => exact ⟨[],rfl⟩
  | cons r routes ih =>
    obtain ⟨ending,hending⟩ := ih fun r' hr' => hall r' (List.mem_cons_of_mem r hr')
    obtain ⟨last,hlast⟩ : ∃ last, r.stops.getLast? = some last :=
      ⟨_,List.getLast?_eq_some_getLast (hall r List.mem_cons_self)⟩
    refine ⟨(if last = station then [r.id] else [])::ending,?_⟩
    rw [List.mapM_cons,hending,routeEndingAt,hlast]
    rfl

theorem getRoutesServingStation_eq {station : Id} (h : (nw.getStation station).isSome)
    {ending : List (List Id)} (hending : nw.allRoutes.mapM (routeEndingAt station) = some ending) :
    nw.getRoutesServingStation station =
      some ((nw.edgesFrom station).map (·.route.id) ++ ending.flatten) := by
  obtain ⟨node,hnode⟩ := Option.isSome_iff_exists.mp h
  unfold allRoutes at hending
  simp only [getRoutesServingStation,edgesFrom,hnode,hending]
  rfl

theorem Reachable.not_sameAnswers (h : nw.Reachable) (hlines : nw'.lines = nw.lines) {S : Id}
    (hS : (nw.getStation S).isSome) (hlt : (nw.edgesFrom S).length < (nw'.edgesFrom S).length) :
    ¬SameAnswers nw nw' := by
  intro hsame
  obtain ⟨ending,hending⟩ := h.exists_ending S
  have hS' : (nw'.getStation S).isSome := by
    cases hnone : nw'.getStation S with
    | none => simp [edgesFrom,hnone] at hlt
    | some node => rfl
  have hending' : nw'.allRoutes.mapM (routeEndingAt S) = some ending := by
    rw [← hending,allRoutes,allRoutes,hlines]
  have heq := hsame.getRoutesServingStation S
  rw [getRoutesServingStation_eq hS hending,getRoutesServingStation_eq hS' hending',
    Option.some.injEq,List.append_left_inj] at heq
  have hlen := congrArg List.length heq
  rw [List.length_map,List.length_map] at hlen
  omega

/-- A failed call goes unnoticed exactly if the line is known already or all routes before the
refused one have a single stop. -/
theorem addLine_unnoticed_iff (hnw : nw.Reachable) {newLine : Line}
    (hfail : nw.addLine newLine = some (false,nw')) :
    Indistinguishable nw nw' ↔
      (nw.getLine newLine.id).isSome ∨ nw.SingleStopsBefore newLine.routes := by
  rw [addLine] at hfail
  split_ifs at hfail with hdup
  · simp only [Option.some.injEq,Prod.mk.injEq,true_and] at hfail
    rw [hfail]
    exact ⟨fun _ => Or.inl (hfail ▸ hdup),fun _ => indistinguishable_refl nw'⟩
  · cases hroutes : addRoutes newLine.routes nw ⟨newLine.id,newLine.name,.empty⟩ with
    | none => simp [hroutes] at hfail
    | some result =>
      obtain ⟨added,next,lineInternal⟩ := result
      cases added with
      | true => simp [hroutes] at hfail
      | false =>
        simp only [hroutes,Option.some.injEq,Prod.mk.injEq,true_and] at hfail
        subst hfail
        constructor
        · intro hind
          right
          rcases addRoutes_eq_false hroutes with ⟨pre,route,post,hsplit,hsingle,hrefused⟩ |
            ⟨S,hS,hlt⟩
          · refine ⟨pre,route,post,hsplit,hsingle,hrefused.imp_right fun h => ?_⟩
            exact h.resolve_left (by simp)
          · obtain ⟨-,hsame⟩ := Option.rel_some_some.mp (hind [])
            exact absurd hsame (hnw.not_sameAnswers (lines_addRoutes hroutes) hS hlt)
        · rintro (hknown | ⟨pre,route,post,hsplit,hsingle,hrefused⟩)
          · exact absurd hknown hdup
          · rw [hsplit] at hroutes
            rw [addRoutes_single hsingle (hrefused.imp_right Or.inr) hroutes]
            exact indistinguishable_refl nw

def twoStations : List Call := [.addStation ⟨ascii "A",[]⟩,.addStation ⟨ascii "B",[]⟩]

/-- A line whose second route goes to an unknown station. -/
def lineBeyond (stops : List Id) : Line :=
  ⟨ascii "red",[],[⟨ascii "r",[],ascii "red",ascii "A",ascii "B",stops⟩,
    ⟨ascii "s",[],ascii "red",ascii "B",ascii "C",[ascii "B",ascii "C"]⟩]⟩

theorem Built.reachable (h : nw.Built) : nw.Reachable := by
  induction h with
  | empty => exact .empty
  | call c _ _ hrun ih => exact .call c ih hrun

theorem addLine_unnoticed_single :
    Indistinguishable (networkOf twoStations)
      ((((networkOf twoStations).addLine (lineBeyond [ascii "A"])).map Prod.snd).getD empty) := by
  have hflag : ((networkOf twoStations).addLine (lineBeyond [ascii "A"])).map Prod.fst =
      some false := by decide +kernel
  obtain ⟨⟨ok,nw'⟩,hadd,rfl⟩ := Option.map_eq_some_iff.mp hflag
  rw [hadd]
  refine (addLine_unnoticed_iff (built_networkOf twoStations).reachable hadd).mpr (Or.inr ?_)
  refine ⟨[_],_,[],rfl,by decide,Or.inr ⟨ascii "C",by decide,?_⟩⟩
  rw [← Option.isNone_iff_eq_none]
  decide +kernel

/-- The edge of the first route stays when the second one is refused. -/
theorem addLine_noticed : ¬∀ (nw nw' : TransportNetwork) (newLine : Line), nw.Reachable →
    (∀ r ∈ newLine.routes, r.stops ≠ []) → nw.addLine newLine = some (false,nw') →
    Indistinguishable nw nw' := by
  intro hclaim
  have hrun : (((networkOf twoStations).addLine (lineBeyond [ascii "A",ascii "B"])).map
      fun result => (result.1,result.2.getRoutesServingStation (ascii "A"))) =
        some (false,some [ascii "r"]) := by decide +kernel
  have hbefore : (networkOf twoStations).getRoutesServingStation (ascii "A") = some [] := by
    decide +kernel
  obtain ⟨⟨ok,nw'⟩,hadd,hafter⟩ := Option.map_eq_some_iff.mp hrun
  obtain ⟨rfl,hafter⟩ := Prod.mk.inj hafter
  have hind := hclaim _ nw' _ (built_networkOf twoStations).reachable (by decide) hadd []
  obtain ⟨-,hsame⟩ := Option.rel_some_some.mp hind
  have heq := hsame.getRoutesServingStation (ascii "A")
  rw [hbefore,hafter] at heq
  simp at heq

end TransportNetwork
end QuietRoute
