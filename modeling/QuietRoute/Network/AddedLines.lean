import QuietRoute.Network.TravelTimes
import Mathlib.Logic.Relation

/-! The lines that were added, against what the network holds of them: an entry for every route,
and edges for its hops. -/
namespace QuietRoute

theorem fst_routeEdges (route : RouteInternal) (idx : ℕ) (stops : List Id) :
    (routeEdges route idx stops).map Prod.fst = stops.dropLast := by
  induction stops generalizing idx with
  | nil => rfl
  | cons a stops ih =>
    cases stops with
    | nil => rfl
    | cons b stops => rw [routeEdges,List.map_cons,ih,List.dropLast_cons_cons]

namespace TransportNetwork

variable {nw nw' : TransportNetwork} {line line' : LineInternal} {routes : List Route} {ok : Bool}

def leavingEdges (route : RouteInternal) (S : Id) : List GraphEdge :=
  ((routeEdges route 0 route.stops).filter fun e => e.1 = S).map Prod.snd

theorem mem_leavingEdges {route : RouteInternal} {S : Id} {e : GraphEdge}
    (h : e ∈ leavingEdges route S) : e.route = route ∧ Hop route.stops S e.nextStop := by
  obtain ⟨p,hp,rfl⟩ := List.mem_map.mp h
  obtain ⟨hp,hS⟩ := List.mem_filter.mp hp
  obtain ⟨hroute,i,-,hthis,hnext⟩ := mem_routeEdges hp
  rw [decide_eq_true_eq] at hS
  exact ⟨hroute,i,hS ▸ hthis,hnext⟩

theorem exists_leavingEdge {route : RouteInternal} {A B : Id} (h : Hop route.stops A B) :
    ∃ e ∈ leavingEdges route A, e.nextStop = B := by
  obtain ⟨e,he,hnext⟩ := exists_routeEdge route 0 h
  exact ⟨e,List.mem_map.mpr ⟨(A,e),List.mem_filter.mpr ⟨he,by simp⟩,rfl⟩,hnext⟩

/-- The routes of all lines, under the ids they are found by. -/
def routeTable (nw : TransportNetwork) : List ((Id × Id) × RouteInternal) :=
  nw.lines.entries.flatMap fun line =>
    line.2.routes.entries.map fun route => ((line.1,route.1),route.2)

theorem mem_routeTable {lineId routeId : Id} {route : RouteInternal} :
    ((lineId,routeId),route) ∈ nw.routeTable ↔ nw.getRoute lineId routeId = some route := by
  simp only [routeTable,List.mem_flatMap,List.mem_map,getRoute,getLine,Option.bind_eq_some_iff,
    UnorderedMap.find_eq_some_iff]
  constructor
  · rintro ⟨line,hline,entry,hentry,heq⟩
    obtain ⟨hids,rfl⟩ := Prod.mk.inj heq
    obtain ⟨rfl,rfl⟩ := Prod.mk.inj hids
    exact ⟨line.2,hline,hentry⟩
  · rintro ⟨line,hline,hroute⟩
    exact ⟨(lineId,line),hline,(routeId,route),hroute,rfl⟩

/-- What of a stored route is known from the line it was added with. -/
def tableView (e : (Id × Id) × RouteInternal) : (Id × Id) × Id × Id × List Id :=
  (e.1,e.2.line,e.2.id,e.2.stops)

def lineView (line : Line) : List ((Id × Id) × Id × Id × List Id) :=
  line.routes.map fun route => ((line.id,route.id),line.id,route.id,route.stops)

/-! What a line adds. -/

/-- `nw'` is `nw` with the edges of new routes. -/
structure Makes (nw nw' : TransportNetwork) (lineId : Id) (routes : List Route)
    (new : List (Id × RouteInternal)) : Prop where
  view : new.map (fun e => tableView ((lineId,e.1),e.2)) =
    routes.map fun route => ((lineId,route.id),lineId,route.id,route.stops)
  edgesFrom_eq : ∀ S, nw'.edgesFrom S =
    nw.edgesFrom S ++ new.flatMap fun e => leavingEdges e.2 S
  known : ∀ route ∈ routes, ∀ stop ∈ route.stops, (nw.getStation stop).isSome
  isSome_getStation : ∀ S, (nw'.getStation S).isSome = (nw.getStation S).isSome
  nonempty : ∀ route ∈ routes, route.stops ≠ []

theorem makes_addRoutes (h : addRoutes routes nw line = some (true,nw',line')) :
    line'.id = line.id ∧ ∃ new, line'.routes.entries = line.routes.entries ++ new ∧
      nw.Makes nw' line.id routes new := by
  induction routes generalizing nw line with
  | nil =>
    simp only [addRoutes,Option.some.injEq,Prod.mk.injEq,true_and] at h
    obtain ⟨rfl,rfl⟩ := h
    exact ⟨rfl,[],by simp,by constructor <;> simp⟩
  | cons route routes ih =>
    rcases addRoutes_cons h with ⟨hfalse,-⟩ | ⟨next,line'',htrue,hrest⟩
    · cases hfalse
    · obtain ⟨hnew,hknown,hne,rfl,rfl⟩ := addRouteToLine_eq_true htrue
      obtain ⟨hid,new,hentries,hmakes⟩ := ih hrest
      have hsome := isSome_getStation_addEdges (nw.makeRoute route line) 0 route.stops nw
      refine ⟨hid,(route.id,nw.makeRoute route line)::new,?_,?_,?_,?_,?_,?_⟩
      · rw [hentries,UnorderedMap.entries_set_new _ hnew,List.append_assoc]
        rfl
      · rw [List.map_cons,List.map_cons,hmakes.view]
        rfl
      · intro S
        rw [hmakes.edgesFrom_eq,edgesFrom_addEdges _ 0 _ _ hknown,List.append_assoc]
        rfl
      · intro r hr stop hstop
        rcases List.mem_cons.mp hr with rfl | hr
        · exact hknown stop hstop
        · rw [← hsome stop]
          exact hmakes.known r hr stop hstop
      · exact fun S => (hmakes.isSome_getStation S).trans (hsome S)
      · intro r hr
        rcases List.mem_cons.mp hr with rfl | hr
        · exact hne
        · exact hmakes.nonempty r hr

theorem makes_addLine {newLine : Line} (h : nw.addLine newLine = some (true,nw')) :
    ∃ new, nw.Makes nw' newLine.id newLine.routes new ∧
      nw'.routeTable = nw.routeTable ++ new.map fun e => ((newLine.id,e.1),e.2) := by
  rw [addLine] at h
  split_ifs at h with hdup
  · cases congrArg Prod.fst (Option.some.inj h)
  · cases hroutes : addRoutes newLine.routes nw ⟨newLine.id,newLine.name,.empty⟩ with
    | none => simp [hroutes] at h
    | some result =>
      obtain ⟨added,next,lineInternal⟩ := result
      cases added with
      | false => simp [hroutes] at h
      | true =>
        simp only [hroutes,Option.some.injEq,Prod.mk.injEq,true_and] at h
        obtain ⟨-,new,hentries,hmakes⟩ := makes_addRoutes hroutes
        have hlines : next.lines = nw.lines := lines_addRoutes hroutes
        have hnone : nw.lines.find newLine.id = none := by simpa [getLine] using hdup
        refine ⟨new,⟨hmakes.view,fun S => ?_,hmakes.known,fun S => ?_,hmakes.nonempty⟩,?_⟩
        · rw [← h]
          exact hmakes.edgesFrom_eq S
        · rw [← h]
          exact hmakes.isSome_getStation S
        · have hnew : lineInternal.routes.entries = new := hentries
          rw [← h]
          simp only [routeTable,hlines,UnorderedMap.entries_emplace_new _ hnone,
            List.flatMap_append,List.flatMap_singleton,hnew]

theorem lines_addLine_false {newLine : Line} (h : nw.addLine newLine = some (false,nw')) :
    nw'.lines = nw.lines := by
  rw [addLine] at h
  split_ifs at h
  · rw [show nw = nw' from congrArg Prod.snd (Option.some.inj h)]
  · cases hroutes : addRoutes newLine.routes nw ⟨newLine.id,newLine.name,.empty⟩ with
    | none => simp [hroutes] at h
    | some result =>
      obtain ⟨added,next,lineInternal⟩ := result
      cases added with
      | true => simp [hroutes] at h
      | false =>
        simp only [hroutes,Option.some.injEq,Prod.mk.injEq,true_and] at h
        rw [← h,lines_addRoutes hroutes]

/-! Runs that log the lines they add. -/

def Call.adds : Call → Bool → List Line
  | .addLine line, ok => if ok then [line] else []
  | .addStation _, _ => []
  | .setTravelTime _ _ _, _ => []
  | .recordPassengerEvent _, _ => []

/-- A call that is allowed where it is made and with the flag it returns. -/
def LogsCall (allowed : TransportNetwork → Call → Bool → Prop)
    (st st' : List Line × TransportNetwork) : Prop :=
  ∃ c ok, allowed st.2 c ok ∧ st.2.run c = some (ok,st'.2) ∧ st'.1 = st.1 ++ c.adds ok

abbrev LogsCalls (allowed : TransportNetwork → Call → Bool → Prop) :=
  Relation.ReflTransGen (LogsCall allowed)

/-- The network holds the added lines: their routes in its table, and an edge for every hop. -/
structure Holds (lines : List Line) (nw : TransportNetwork) : Prop where
  table : nw.routeTable.map tableView = lines.flatMap lineView
  known : ∀ line ∈ lines, ∀ route ∈ line.routes, ∀ stop ∈ route.stops, (nw.getStation stop).isSome
  nonempty : ∀ line ∈ lines, ∀ route ∈ line.routes, route.stops ≠ []
  edges : ∀ e ∈ nw.routeTable, ∀ A B, Hop e.2.stops A B →
    ∃ edge ∈ nw.edgesFrom A, edge.route = e.2 ∧ edge.nextStop = B

variable {lines : List Line} {allowed : TransportNetwork → Call → Bool → Prop}

theorem holds_empty : Holds [] empty := by
  constructor <;> simp [routeTable,empty,UnorderedMap.empty]

theorem Holds.of_kept (h : Holds lines nw) (hlines : nw'.lines = nw.lines)
    (hknown : ∀ S, (nw.getStation S).isSome → (nw'.getStation S).isSome)
    (hedges : ∀ S, ∀ e ∈ nw.edgesFrom S, ∃ e' ∈ nw'.edgesFrom S,
      e'.route = e.route ∧ e'.nextStop = e.nextStop) : Holds lines nw' := by
  have htable : nw'.routeTable = nw.routeTable := by simp only [routeTable,hlines]
  refine ⟨htable ▸ h.table,fun line hl r hr stop hs => hknown stop (h.known line hl r hr stop hs),
    h.nonempty,fun e he A B hhop => ?_⟩
  obtain ⟨edge,hedge,hroute,hnext⟩ := h.edges e (htable ▸ he) A B hhop
  obtain ⟨edge',hedge',hroute',hnext'⟩ := hedges A edge hedge
  exact ⟨edge',hedge',hroute'.trans hroute,hnext'.trans hnext⟩

theorem mem_lineViews {lineId routeId : Id} {stops : List Id} :
    ((lineId,routeId),lineId,routeId,stops) ∈ lines.flatMap lineView ↔
      ∃ line ∈ lines, line.id = lineId ∧ ∃ route ∈ line.routes, route.id = routeId ∧
        route.stops = stops := by
  rw [List.mem_flatMap]
  refine exists_congr fun line => and_congr_right fun _ => ?_
  rw [lineView,List.mem_map]
  constructor
  · rintro ⟨route,hroute,hview⟩
    obtain ⟨hids,hview⟩ := Prod.mk.inj hview
    obtain ⟨hline,hid⟩ := Prod.mk.inj hids
    exact ⟨hline,route,hroute,hid,congrArg (fun view => view.2.2) hview⟩
  · rintro ⟨rfl,route,hroute,rfl,rfl⟩
    exact ⟨route,hroute,rfl⟩

theorem Holds.exists_stored (h : Holds lines nw) {line : Line} (hline : line ∈ lines) {route : Route}
    (hroute : route ∈ line.routes) :
    ∃ stored, nw.getRoute line.id route.id = some stored ∧ stored.stops = route.stops := by
  have hmem := mem_lineViews.mpr ⟨line,hline,rfl,route,hroute,rfl,rfl⟩
  rw [← h.table] at hmem
  obtain ⟨⟨ids,stored⟩,he,hview⟩ := List.mem_map.mp hmem
  obtain ⟨rfl,hview⟩ := Prod.mk.inj hview
  exact ⟨stored,mem_routeTable.mp he,congrArg (fun view => view.2.2) hview⟩

theorem Holds.exists_added (h : Holds lines nw) {lineId routeId : Id} {stored : RouteInternal}
    (hget : nw.getRoute lineId routeId = some stored) :
    ∃ line ∈ lines, line.id = lineId ∧ ∃ route ∈ line.routes, route.id = routeId ∧
      route.stops = stored.stops := by
  have hmem := List.mem_map_of_mem (f:=tableView) (mem_routeTable.mpr hget)
  rw [h.table] at hmem
  have hids : stored.line = lineId ∧ stored.id = routeId := by
    obtain ⟨line,hline,hview⟩ := List.mem_flatMap.mp hmem
    obtain ⟨route,hroute,hview⟩ := List.mem_map.mp hview
    obtain ⟨hids,hview⟩ := Prod.mk.inj hview
    obtain ⟨hline',hid'⟩ := Prod.mk.inj hids
    obtain ⟨hline'',hview⟩ := Prod.mk.inj hview
    obtain ⟨hid'',-⟩ := Prod.mk.inj hview
    exact ⟨hline''.symm.trans hline',hid''.symm.trans hid'⟩
  rw [tableView,hids.1,hids.2] at hmem
  exact mem_lineViews.mp hmem

theorem Holds.addLine (h : Holds lines nw) {newLine : Line}
    (hadd : nw.addLine newLine = some (true,nw')) : Holds (lines ++ [newLine]) nw' := by
  obtain ⟨new,hmakes,htable⟩ := makes_addLine hadd
  refine ⟨?_,?_,?_,?_⟩
  · rw [htable,List.map_append,h.table,List.flatMap_append,List.flatMap_singleton,List.map_map]
    exact congrArg (lines.flatMap lineView ++ ·) hmakes.view
  · intro line hline route hroute stop hstop
    rw [hmakes.isSome_getStation]
    rcases List.mem_append.mp hline with hline | hline
    · exact h.known line hline route hroute stop hstop
    · obtain rfl := List.mem_singleton.mp hline
      exact hmakes.known route hroute stop hstop
  · intro line hline
    rcases List.mem_append.mp hline with hline | hline
    · exact h.nonempty line hline
    · obtain rfl := List.mem_singleton.mp hline
      exact hmakes.nonempty
  · intro e he A B hhop
    rw [htable] at he
    rw [hmakes.edgesFrom_eq]
    rcases List.mem_append.mp he with he | he
    · obtain ⟨edge,hedge,hspec⟩ := h.edges e he A B hhop
      exact ⟨edge,List.mem_append_left _ hedge,hspec⟩
    · obtain ⟨entry,hentry,rfl⟩ := List.mem_map.mp he
      obtain ⟨edge,hedge,hnext⟩ := exists_leavingEdge hhop
      refine ⟨edge,List.mem_append_right _ ?_,(mem_leavingEdges hedge).1,hnext⟩
      exact List.mem_flatMap.mpr ⟨entry,hentry,hedge⟩

theorem Holds.setTravelTime (h : Holds lines nw) (A B : Id) (t : UInt32) :
    Holds lines (nw.setTravelTime A B t).2 := by
  refine h.of_kept (lines_setTravelTime nw A B t)
    (fun S hS => by rwa [isSome_getStation_setTravelTime]) fun S e he => ?_
  by_cases hknown : (nw.getStation A).isSome ∧ (nw.getStation B).isSome
  · rw [edgesFrom_setTravelTime hknown.1 hknown.2]
    refine ⟨_,List.mem_map.mpr ⟨e,he,rfl⟩,?_⟩
    split_ifs <;> exact ⟨rfl,rfl⟩
  · rw [setTravelTime_unknown hknown]
    exact ⟨e,he,rfl,rfl⟩

theorem Holds.run (h : Holds lines nw) {c : Call} (hrun : nw.run c = some (ok,nw')) :
    Holds (lines ++ c.adds ok) nw' := by
  cases c with
  | addStation station =>
    obtain rfl : (nw.addStation station).2 = nw' := congrArg Prod.snd (Option.some.inj hrun)
    rw [Call.adds,List.append_nil]
    refine h.of_kept (lines_addStation nw station) (fun S hS => ?_) fun S e he => ?_
    · exact (isSome_getStation_addStation nw station S).mpr (Or.inr hS)
    · exact ⟨e,by rwa [edgesFrom_addStation],rfl,rfl⟩
  | addLine newLine =>
    cases ok with
    | true => exact h.addLine hrun
    | false =>
      rw [Call.adds,if_neg (by simp),List.append_nil]
      have hext := extends_addLine hrun
      exact h.of_kept (lines_addLine_false hrun)
        (fun S hS => by rwa [hext.isSome_getStation]) fun S e he => ⟨e,hext.kept S e he,rfl,rfl⟩
  | setTravelTime A B t =>
    obtain rfl : (nw.setTravelTime A B t).2 = nw' := congrArg Prod.snd (Option.some.inj hrun)
    rw [Call.adds,List.append_nil]
    exact h.setTravelTime A B t
  | recordPassengerEvent event =>
    obtain rfl : (nw.recordPassengerEvent event).2 = nw' :=
      congrArg Prod.snd (Option.some.inj hrun)
    rw [Call.adds,List.append_nil]
    refine h.of_kept (lines_recordPassengerEvent nw event)
      (fun S hS => by rwa [isSome_getStation_recordPassengerEvent]) fun S e he => ?_
    exact ⟨e,by rwa [edgesFrom_recordPassengerEvent],rfl,rfl⟩

theorem logsCalls_of_build {calls : List Call}
    (hallowed : ∀ nw, ∀ c ∈ calls, allowed nw c true) (h : nw.build calls = some nw') :
    LogsCalls allowed (lines,nw) (lines ++ calls.flatMap (·.adds true),nw') := by
  induction calls generalizing nw lines with
  | nil =>
    rw [← Option.some.inj h,List.flatMap_nil,List.append_nil]
  | cons c calls ih =>
    rw [build] at h
    split at h
    · rename_i next hrun
      split_ifs at h
      have hrest := @ih next (lines ++ c.adds true)
        (fun nw d hd => hallowed nw d (List.mem_cons_of_mem c hd)) h
      rw [List.append_assoc] at hrest
      rw [List.flatMap_cons]
      exact .head ⟨c,true,hallowed nw c List.mem_cons_self,hrun,rfl⟩ hrest
    · cases h

theorem logsCalls_mono {allowed' : TransportNetwork → Call → Bool → Prop}
    {st st' : List Line × TransportNetwork} (h : LogsCalls allowed st st')
    (hsub : ∀ nw c ok, allowed nw c ok → allowed' nw c ok) : LogsCalls allowed' st st' := by
  refine Relation.ReflTransGen.mono (fun st st' hstep => ?_) _ _ h
  obtain ⟨c,ok,hallowed,hrest⟩ := hstep
  exact ⟨c,ok,hsub _ c ok hallowed,hrest⟩

theorem invariant_of_run {holds : List Line → TransportNetwork → Prop}
    {st st' : List Line × TransportNetwork} (hstart : holds st.1 st.2)
    (hstep : ∀ lines nw c ok nw', holds lines nw → allowed nw c ok → nw.run c = some (ok,nw') →
      holds (lines ++ c.adds ok) nw')
    (h : LogsCalls allowed st st') : holds st'.1 st'.2 := by
  induction h with
  | refl => exact hstart
  | tail _ hlast ih =>
    obtain ⟨c,ok,hallowed,hrun,hlog⟩ := hlast
    rw [hlog]
    exact hstep _ _ c ok _ ih hallowed hrun

theorem holds_of_run (h : LogsCalls allowed ([],empty) (lines,nw)) : Holds lines nw :=
  invariant_of_run holds_empty (fun _ _ _ _ _ hholds _ hrun => hholds.run hrun) h

theorem wellFormed_of_run (hdistinct : ∀ nw c ok, allowed nw c ok → c.distinctStops = true)
    (h : LogsCalls allowed ([],empty) (lines,nw)) : nw.WellFormed :=
  @invariant_of_run _ (fun _ => WellFormed) _ _ wellFormed_empty
    (fun _ nw c ok _ hwf hallowed hrun => hwf.run (hdistinct nw c ok hallowed) hrun) h

end TransportNetwork
end QuietRoute
