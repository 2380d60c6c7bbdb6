import QuietRoute.Network.Invariants
import Mathlib.Data.Sym.Sym2

/-! The travel times of a network as a function of unordered pairs of stations, and what the
operations do to it. -/
namespace QuietRoute

/-- `B` comes right after `A`. -/
def Hop (stops : List Id) (A B : Id) : Prop := ∃ i, stops[i]? = some A ∧ stops[i+1]? = some B

theorem exists_routeEdge {stops : List Id} {A B : Id} (route : RouteInternal) (idx : ℕ)
    (h : Hop stops A B) : ∃ e, (A,e) ∈ routeEdges route idx stops ∧ e.nextStop = B := by
  obtain ⟨i,hA,hB⟩ := h
  induction stops generalizing idx i with
  | nil => simp at hA
  | cons a stops ih =>
    cases stops with
    | nil => simp at hB
    | cons b stops =>
      cases i with
      | zero =>
        simp only [List.getElem?_cons_zero,List.getElem?_cons_succ,Option.some.injEq] at hA hB
        exact ⟨⟨route,idx,b,0⟩,by simp [routeEdges,hA],hB⟩
      | succ i =>
        obtain ⟨e,he,hnext⟩ := ih (idx+1) i (by simpa using hA) (by simpa using hB)
        exact ⟨e,List.mem_cons_of_mem _ he,hnext⟩

theorem travelTime_routeEdges {route : RouteInternal} {idx : ℕ} {stops : List Id}
    {e : Id × GraphEdge} (h : e ∈ routeEdges route idx stops) : e.2.travelTime = 0 := by
  induction stops generalizing idx with
  | nil => simp [routeEdges] at h
  | cons a stops ih =>
    cases stops with
    | nil => simp [routeEdges] at h
    | cons b stops =>
      rcases List.mem_cons.mp h with rfl | h
      · rfl
      · exact ih h

namespace TransportNetwork

variable {nw nw' : TransportNetwork} {line line' : LineInternal} {routes : List Route} {ok : Bool}

/-! The stations stay the same while lines are added and times are set. -/

theorem isSome_getStation_addEdges (route : RouteInternal) (idx : ℕ) (stops : List Id)
    (nw : TransportNetwork) (S : Id) :
    ((addEdges route idx stops nw).getStation S).isSome = (nw.getStation S).isSome :=
  @addEdges_keeps _ (fun nw => (nw.getStation S).isSome)
    (fun nw k f => isSome_getStation_updateEdges nw k S f) route idx stops nw

theorem isSome_getStation_setTravelTime (nw : TransportNetwork) (A B : Id) (t : UInt32) (S : Id) :
    ((nw.setTravelTime A B t).2.getStation S).isSome = (nw.getStation S).isSome := by
  rw [setTravelTime]
  split_ifs
  · rfl
  · simp only [setEdgeTimes,isSome_getStation_updateEdges]

/-! The edges that a line adds. -/

/-- The routes before the first one that is refused. -/
def acceptedRoutes (nw : TransportNetwork) : List Id → List Route → List Route
  | _, [] => []
  | taken, route::routes =>
    if route.id ∈ taken ∨ ∃ stop ∈ route.stops, nw.getStation stop = none then []
    else route::nw.acceptedRoutes (route.id::taken) routes

def newRoutes (nw : TransportNetwork) (line : Line) : List Route :=
  if (nw.getLine line.id).isSome then [] else nw.acceptedRoutes [] line.routes

/-- `nw'` has the edges of `nw` and, without a travel time, those of some routes. -/
structure Extends (nw nw' : TransportNetwork) (routes : List Route) : Prop where
  isSome_getStation : ∀ S, (nw'.getStation S).isSome = (nw.getStation S).isSome
  kept : ∀ S, ∀ e ∈ nw.edgesFrom S, e ∈ nw'.edgesFrom S
  added : ∀ route ∈ routes, ∀ A B, Hop route.stops A B →
    ∃ e ∈ nw'.edgesFrom A, e.nextStop = B ∧ e.travelTime = 0
  cases : ∀ S, ∀ e ∈ nw'.edgesFrom S, e ∈ nw.edgesFrom S ∨
    e.travelTime = 0 ∧ ∃ route ∈ routes, Hop route.stops S e.nextStop
  known : ∀ route ∈ routes, ∀ stop ∈ route.stops, (nw.getStation stop).isSome

theorem extends_nil (nw : TransportNetwork) : nw.Extends nw [] := by
  constructor <;> simp +contextual

theorem Extends.trans {next : TransportNetwork} {routes' : List Route} (h : nw.Extends next routes)
    (h' : next.Extends nw' routes') : nw.Extends nw' (routes ++ routes') where
  isSome_getStation S := (h'.isSome_getStation S).trans (h.isSome_getStation S)
  kept S e he := h'.kept S e (h.kept S e he)
  added r hr A B hhop := by
    rcases List.mem_append.mp hr with hr | hr
    · obtain ⟨e,he,hspec⟩ := h.added r hr A B hhop
      exact ⟨e,h'.kept A e he,hspec⟩
    · exact h'.added r hr A B hhop
  cases S e he := by
    rcases h'.cases S e he with he | ⟨htime,r,hr,hhop⟩
    · exact (h.cases S e he).imp_right fun ⟨htime,r,hr,hhop⟩ =>
        ⟨htime,r,List.mem_append_left _ hr,hhop⟩
    · exact Or.inr ⟨htime,r,List.mem_append_right _ hr,hhop⟩
  known r hr stop hstop := by
    rcases List.mem_append.mp hr with hr | hr
    · exact h.known r hr stop hstop
    · rw [← h.isSome_getStation stop]
      exact h'.known r hr stop hstop

theorem extends_addRouteToLine {route : Route}
    (h : nw.addRouteToLine route line = some (true,nw',line')) : nw.Extends nw' [route] := by
  obtain ⟨-,hknown,-,rfl,-⟩ := addRouteToLine_eq_true h
  have hedges := edgesFrom_addEdges (nw.makeRoute route line) 0 route.stops nw hknown
  refine ⟨isSome_getStation_addEdges _ 0 _ nw,?_,?_,?_,?_⟩
  · intro S e he
    rw [hedges]
    exact List.mem_append_left _ he
  · intro r hr A B hhop
    obtain rfl := List.mem_singleton.mp hr
    obtain ⟨e,he,hnext⟩ := exists_routeEdge (nw.makeRoute r line) 0 hhop
    refine ⟨e,?_,hnext,travelTime_routeEdges he⟩
    rw [hedges]
    refine List.mem_append_right _ (List.mem_map.mpr ⟨(A,e),?_,rfl⟩)
    simpa using he
  · intro S e he
    rw [hedges] at he
    rcases List.mem_append.mp he with he | he
    · exact Or.inl he
    · obtain ⟨p,hp,rfl⟩ := List.mem_map.mp he
      obtain ⟨hp,hS⟩ := List.mem_filter.mp hp
      obtain ⟨-,i,-,hthis,hnext⟩ := mem_routeEdges hp
      rw [decide_eq_true_eq] at hS
      exact Or.inr ⟨travelTime_routeEdges hp,route,List.mem_singleton_self route,i,hS ▸ hthis,hnext⟩
  · intro r hr
    obtain rfl := List.mem_singleton.mp hr
    exact hknown

theorem acceptedRoutes_congr (h : ∀ S, (nw'.getStation S).isSome = (nw.getStation S).isSome)
    (taken : List Id) (routes : List Route) :
    nw'.acceptedRoutes taken routes = nw.acceptedRoutes taken routes := by
  have hnone : ∀ S, nw'.getStation S = none ↔ nw.getStation S = none := by
    intro S
    rw [← Option.not_isSome_iff_eq_none,← Option.not_isSome_iff_eq_none,h]
  induction routes generalizing taken with
  | nil => rfl
  | cons route routes ih => simp only [acceptedRoutes,hnone,ih]

theorem extends_addRoutes {taken : List Id}
    (htaken : ∀ id, (line.routes.find id).isSome ↔ id ∈ taken)
    (h : addRoutes routes nw line = some (ok,nw',line')) :
    nw.Extends nw' (nw.acceptedRoutes taken routes) := by
  induction routes generalizing nw line taken with
  | nil =>
    simp only [addRoutes,Option.some.injEq,Prod.mk.injEq] at h
    rw [h.2.1]
    exact extends_nil nw'
  | cons route routes ih =>
    rcases addRoutes_cons h with ⟨-,rfl,hfalse⟩ | ⟨next,line'',htrue,hrest⟩
    · have hrefused := (addRouteToLine_eq_false hfalse).2
      rw [htaken] at hrefused
      rw [acceptedRoutes,if_pos hrefused]
      exact extends_nil nw'
    · have hstep := extends_addRouteToLine htrue
      obtain ⟨hnew,hknown,-,-,rfl⟩ := addRouteToLine_eq_true htrue
      have haccepted : ¬(route.id ∈ taken ∨ ∃ stop ∈ route.stops, nw.getStation stop = none) := by
        rintro (hdup | ⟨stop,hstop,hnone⟩)
        · rw [← htaken,hnew] at hdup
          cases hdup
        · have hsome := hknown stop hstop
          rw [hnone] at hsome
          cases hsome
      rw [acceptedRoutes,if_neg haccepted,← acceptedRoutes_congr hstep.isSome_getStation]
      refine hstep.trans (ih (fun id => ?_) hrest)
      rw [UnorderedMap.find_set,List.mem_cons]
      by_cases hid : route.id = id
      · simp [hid]
      · rw [if_neg hid,htaken]
        simp [Ne.symm hid]

theorem extends_addLine {newLine : Line} (h : nw.addLine newLine = some (ok,nw')) :
    nw.Extends nw' (nw.newRoutes newLine) := by
  rw [addLine] at h
  rw [newRoutes]
  split_ifs at h ⊢ with hdup
  · have hsame : nw = nw' := congrArg Prod.snd (Option.some.inj h)
    rw [hsame]
    exact extends_nil nw'
  · cases hroutes : addRoutes newLine.routes nw ⟨newLine.id,newLine.name,.empty⟩ with
    | none => simp [hroutes] at h
    | some result =>
      obtain ⟨added,next,lineInternal⟩ := result
      have hext := extends_addRoutes (by simp : ∀ id, _ ↔ id ∈ []) hroutes
      cases added with
      | false =>
        simp only [hroutes,Option.some.injEq,Prod.mk.injEq] at h
        rw [← h.2]
        exact hext
      | true =>
        simp only [hroutes,Option.some.injEq,Prod.mk.injEq] at h
        rw [← h.2]
        exact ⟨hext.isSome_getStation,hext.kept,hext.added,hext.cases,hext.known⟩

/-! Times for pairs of stations. -/

/-- Every edge takes the time of the two stations it joins, and both are known. -/
structure Timed (nw : TransportNetwork) (time : Sym2 Id → UInt32) : Prop where
  travelTime_eq : ∀ S, ∀ e ∈ nw.edgesFrom S, e.travelTime = time s(S,e.nextStop)
  known : ∀ S, ∀ e ∈ nw.edgesFrom S, (nw.getStation e.nextStop).isSome

def Joined (nw : TransportNetwork) (A B : Id) : Prop :=
  (∃ e ∈ nw.edgesFrom A, e.nextStop = B) ∨ ∃ e ∈ nw.edgesFrom B, e.nextStop = A

variable {time : Sym2 Id → UInt32}

theorem timed_empty (time : Sym2 Id → UInt32) : Timed empty time := by
  constructor <;> simp [edgesFrom,getStation,empty]

theorem isSome_getStation_of_mem {S : Id} {e : GraphEdge} (he : e ∈ nw.edgesFrom S) :
    (nw.getStation S).isSome := by
  cases hS : nw.getStation S with
  | none => simp [edgesFrom,hS] at he
  | some node => rfl

theorem Timed.getTravelTime_eq (h : nw.Timed time) (A B : Id) :
    (nw.Joined A B → nw.getTravelTime A B = time s(A,B)) ∧
      (¬nw.Joined A B → nw.getTravelTime A B = 0) := by
  have hguard : nw.Joined A B → ¬((nw.getStation A).isNone || (nw.getStation B).isNone) = true := by
    rintro (⟨e,he,rfl⟩ | ⟨e,he,rfl⟩)
    · simp [Option.isSome_iff_ne_none.mp (isSome_getStation_of_mem he),
        Option.isSome_iff_ne_none.mp (h.known A e he)]
    · simp [Option.isSome_iff_ne_none.mp (isSome_getStation_of_mem he),
        Option.isSome_iff_ne_none.mp (h.known B e he)]
  rw [getTravelTime]
  cases hforth : (nw.edgesFrom A).find? fun edge => edge.nextStop = B with
  | some edge =>
    have hedge := List.mem_of_find?_eq_some hforth
    have hB : edge.nextStop = B := by simpa using List.find?_some hforth
    have hjoined : nw.Joined A B := Or.inl ⟨edge,hedge,hB⟩
    refine ⟨fun _ => ?_,fun hnot => absurd hjoined hnot⟩
    rw [if_neg (hguard hjoined),← hB]
    exact h.travelTime_eq A edge hedge
  | none =>
    have hno : ∀ e ∈ nw.edgesFrom A, e.nextStop ≠ B := by simpa using hforth
    cases hback : (nw.edgesFrom B).find? fun edge => edge.nextStop = A with
    | some edge =>
      have hedge := List.mem_of_find?_eq_some hback
      have hA : edge.nextStop = A := by simpa using List.find?_some hback
      have hjoined : nw.Joined A B := Or.inr ⟨edge,hedge,hA⟩
      refine ⟨fun _ => ?_,fun hnot => absurd hjoined hnot⟩
      rw [if_neg (hguard hjoined),← hA,Sym2.eq_swap]
      exact h.travelTime_eq B edge hedge
    | none =>
      have hno' : ∀ e ∈ nw.edgesFrom B, e.nextStop ≠ A := by simpa using hback
      refine ⟨?_,fun _ => by simp⟩
      rintro (⟨e,he,hB⟩ | ⟨e,he,hA⟩)
      · exact absurd hB (hno e he)
      · exact absurd hA (hno' e he)

theorem joined_comm {A B : Id} : nw.Joined A B ↔ nw.Joined B A := or_comm

theorem Timed.getTravelTime_comm (h : nw.Timed time) (A B : Id) :
    nw.getTravelTime A B = nw.getTravelTime B A := by
  by_cases hjoined : nw.Joined A B
  · rw [(h.getTravelTime_eq A B).1 hjoined,(h.getTravelTime_eq B A).1 (joined_comm.mp hjoined),
      Sym2.eq_swap]
  · rw [(h.getTravelTime_eq A B).2 hjoined,
      (h.getTravelTime_eq B A).2 fun hback => hjoined (joined_comm.mp hback)]

theorem Timed.extends (h : nw.Timed time) (hext : nw.Extends nw' routes)
    (hzero : ∀ route ∈ routes, ∀ A B, Hop route.stops A B → time s(A,B) = 0) :
    nw'.Timed time where
  travelTime_eq S e he := by
    rcases hext.cases S e he with he | ⟨htime,route,hroute,hhop⟩
    · exact h.travelTime_eq S e he
    · rw [htime,hzero route hroute S e.nextStop hhop]
  known S e he := by
    rw [hext.isSome_getStation]
    rcases hext.cases S e he with he | ⟨-,route,hroute,i,-,hnext⟩
    · exact h.known S e he
    · exact hext.known route hroute e.nextStop (List.mem_of_getElem? hnext)

theorem Timed.of_edgesFrom (h : nw.Timed time) (hedges : ∀ S, nw'.edgesFrom S = nw.edgesFrom S)
    (hknown : ∀ S, (nw.getStation S).isSome → (nw'.getStation S).isSome) : nw'.Timed time where
  travelTime_eq S e he := h.travelTime_eq S e (hedges S ▸ he)
  known S e he := hknown e.nextStop (h.known S e (hedges S ▸ he))

theorem isSome_getStation_addStation (nw : TransportNetwork) (station : Station) (S : Id) :
    ((nw.addStation station).2.getStation S).isSome ↔ station.id = S ∨ (nw.getStation S).isSome := by
  rw [addStation]
  split_ifs with hdup
  · exact ⟨Or.inr,fun h => h.elim (fun hid => hid ▸ hdup) id⟩
  · simp only [getStation,UnorderedMap.find_emplace]
    by_cases hid : station.id = S <;> simp [hid]

theorem Timed.addStation (h : nw.Timed time) (station : Station) :
    (nw.addStation station).2.Timed time :=
  h.of_edgesFrom (edgesFrom_addStation nw station) fun S hS =>
    (isSome_getStation_addStation nw station S).mpr (Or.inr hS)

theorem isSome_getStation_recordPassengerEvent (nw : TransportNetwork) (event : PassengerEvent)
    (S : Id) :
    ((nw.recordPassengerEvent event).2.getStation S).isSome = (nw.getStation S).isSome := by
  rw [recordPassengerEvent]
  split_ifs
  · rfl
  · simp only [getStation,UnorderedMap.find_modify]
    split_ifs <;> simp

theorem Timed.recordPassengerEvent (h : nw.Timed time) (event : PassengerEvent) :
    (nw.recordPassengerEvent event).2.Timed time :=
  h.of_edgesFrom (edgesFrom_recordPassengerEvent nw event) fun S hS => by
    rwa [isSome_getStation_recordPassengerEvent]

theorem edgesFrom_setEdgeTimes (nw : TransportNetwork) (start stop : Id) (t : UInt32) (S : Id) :
    (nw.setEdgeTimes start stop t).2.edgesFrom S = (nw.edgesFrom S).map fun e =>
      if start = S ∧ e.nextStop = stop then {e with travelTime := t} else e := by
  simp only [setEdgeTimes,edgesFrom_updateEdges]
  by_cases hS : start = S
  · cases hnode : nw.getStation S with
    | none => simp [edgesFrom,hnode]
    | some node => simp [hS]
  · simp [hS]

theorem edgesFrom_setTravelTime {A B : Id} (hA : (nw.getStation A).isSome)
    (hB : (nw.getStation B).isSome) (t : UInt32) (S : Id) :
    (nw.setTravelTime A B t).2.edgesFrom S = (nw.edgesFrom S).map fun e =>
      if s(S,e.nextStop) = s(A,B) then {e with travelTime := t} else e := by
  have hguard : ¬((nw.getStation A).isNone || (nw.getStation B).isNone) = true := by
    simp [Option.isSome_iff_ne_none.mp hA,Option.isSome_iff_ne_none.mp hB]
  simp only [setTravelTime,if_neg hguard,edgesFrom_setEdgeTimes,List.map_map]
  apply List.map_congr_left
  intro e _
  simp only [Function.comp_apply,Sym2.eq_iff]
  by_cases hforth : A = S ∧ e.nextStop = B
  · by_cases hback : B = S ∧ e.nextStop = A <;> simp [hforth]
  · by_cases hback : B = S ∧ e.nextStop = A
    · rw [if_neg hforth,if_pos hback,if_pos]
      exact Or.inr ⟨hback.1.symm,hback.2⟩
    · rw [if_neg hforth,if_neg hback,if_neg]
      rintro (⟨rfl,hnext⟩ | ⟨rfl,hnext⟩)
      · exact hforth ⟨rfl,hnext⟩
      · exact hback ⟨rfl,hnext⟩

theorem nextStop_setTravelTime {A B : Id} (hA : (nw.getStation A).isSome)
    (hB : (nw.getStation B).isSome) (t : UInt32) (S T : Id) :
    (∃ e ∈ (nw.setTravelTime A B t).2.edgesFrom S, e.nextStop = T) ↔
      ∃ e ∈ nw.edgesFrom S, e.nextStop = T := by
  have hnext : ∀ e : GraphEdge, (if s(S,e.nextStop) = s(A,B) then
      {e with travelTime := t} else e).nextStop = e.nextStop := by
    intro e
    split_ifs <;> rfl
  simp only [edgesFrom_setTravelTime hA hB,List.mem_map,exists_exists_and_eq_and,hnext]

theorem Timed.setTravelTime (h : nw.Timed time) {A B : Id} (hA : (nw.getStation A).isSome)
    (hB : (nw.getStation B).isSome) (t : UInt32) :
    (nw.setTravelTime A B t).2.Timed (Function.update time s(A,B) t) where
  travelTime_eq S e he := by
    rw [edgesFrom_setTravelTime hA hB] at he
    obtain ⟨e₀,he₀,rfl⟩ := List.mem_map.mp he
    by_cases hpair : s(S,e₀.nextStop) = s(A,B)
    · rw [if_pos hpair,hpair,Function.update_self]
    · rw [if_neg hpair,Function.update_of_ne hpair]
      exact h.travelTime_eq S e₀ he₀
  known S e he := by
    rw [edgesFrom_setTravelTime hA hB] at he
    obtain ⟨e₀,he₀,rfl⟩ := List.mem_map.mp he
    rw [isSome_getStation_setTravelTime]
    have hnext := h.known S e₀ he₀
    split_ifs <;> exact hnext

theorem setTravelTime_unknown {A B : Id}
    (h : ¬((nw.getStation A).isSome ∧ (nw.getStation B).isSome)) (t : UInt32) :
    nw.setTravelTime A B t = (false,nw) := by
  rw [TransportNetwork.setTravelTime,if_pos]
  cases hA : nw.getStation A <;> cases hB : nw.getStation B <;> simp_all

theorem joined_setTravelTime (nw : TransportNetwork) (A B : Id) (t : UInt32) {C D : Id} :
    (nw.setTravelTime A B t).2.Joined C D ↔ nw.Joined C D := by
  by_cases hknown : (nw.getStation A).isSome ∧ (nw.getStation B).isSome
  · rw [Joined,nextStop_setTravelTime hknown.1 hknown.2,nextStop_setTravelTime hknown.1 hknown.2,
      Joined]
  · rw [setTravelTime_unknown hknown]

theorem not_guard {A B : Id} (h : (nw.getStation A).isSome ∧ (nw.getStation B).isSome) :
    ¬((nw.getStation A).isNone || (nw.getStation B).isNone) = true := by
  simp [Option.isSome_iff_ne_none.mp h.1,Option.isSome_iff_ne_none.mp h.2]

theorem setTravelTime_eq_true_iff (nw : TransportNetwork) (A B : Id) (t : UInt32) :
    (nw.setTravelTime A B t).1 = true ↔
      ((nw.getStation A).isSome ∧ (nw.getStation B).isSome) ∧ nw.Joined A B := by
  by_cases hknown : (nw.getStation A).isSome ∧ (nw.getStation B).isSome
  · have hany : ∀ (nw : TransportNetwork) (start stop : Id),
        (nw.setEdgeTimes start stop t).1 = true ↔ ∃ e ∈ nw.edgesFrom start, e.nextStop = stop := by
      intro nw start stop
      simp [setEdgeTimes]
    have hnext : ∀ e : GraphEdge, (if A = B ∧ e.nextStop = B then
        {e with travelTime := t} else e).nextStop = e.nextStop := by
      intro e
      split_ifs <;> rfl
    rw [setTravelTime,if_neg (not_guard hknown),Bool.or_eq_true,hany,hany,Joined]
    simp only [edgesFrom_setEdgeTimes,List.mem_map,exists_exists_and_eq_and,hnext]
    exact ⟨fun h => ⟨hknown,h⟩,And.right⟩
  · rw [setTravelTime_unknown hknown]
    exact ⟨fun hfalse => by simp at hfalse,fun h => absurd h.1 hknown⟩

end TransportNetwork
end QuietRoute
