import QuietRoute.Network.AddedLines
import QuietRoute.Network.UniformTimes

/-! The travel time along a route. The walk over its stops counts from `A` on and answers at `B`;
what it counts are the times of the single hops, as long as all lines are added before times are
set. -/
namespace QuietRoute

theorem Hop.cons {stops : List Id} {X Y : Id} (h : Hop stops X Y) (first : Id) :
    Hop (first::stops) X Y := by
  obtain ⟨i,hX,hY⟩ := h
  exact ⟨i+1,hX,hY⟩

theorem Hop.append {stops : List Id} {X Y : Id} (h : Hop stops X Y) (pre : List Id) :
    Hop (pre ++ stops) X Y := by
  induction pre with
  | nil => exact h
  | cons first pre ih => exact ih.cons first

namespace TransportNetwork

variable {nw nw' : TransportNetwork} {lines : List Line} {route : RouteInternal} {A B : Id}

def hopSum (nw : TransportNetwork) : List Id → ℕ
  | X::Y::stops => (nw.getTravelTime X Y).toNat+nw.hopSum (Y::stops)
  | _ => 0

/-- `B` comes after `A`, with some stops in between. -/
def Between (stops : List Id) (A B : Id) (between : List Id) : Prop :=
  ∃ pre post, stops = pre ++ A::(between ++ B::post)

/-- Each stop but the last has one edge for the route, with the time of the hop. -/
def HopEdges (nw : TransportNetwork) (route : RouteInternal) (stops : List Id) : Prop :=
  ∀ X Y, Hop stops X Y →
    ∃ edge, nw.findEdgeForRoute X route = some edge ∧ edge.travelTime = nw.getTravelTime X Y

/-! The walk. -/

theorem routeTravelTime_missing {stops : List Id} (hB : B ∉ stops) (foundA : Bool)
    (travelTime : UInt32) : nw.routeTravelTime route A B stops foundA travelTime = 0 := by
  induction stops generalizing foundA travelTime with
  | nil => rfl
  | cons stop stops ih =>
    obtain ⟨hne,hrest⟩ := not_or.mp (mt List.mem_cons.mpr hB)
    simp only [routeTravelTime,if_neg (Ne.symm hne)]
    split_ifs
    · cases nw.findEdgeForRoute stop route with
      | none => rfl
      | some edge => exact ih hrest _ _
    · exact ih hrest _ _

theorem routeTravelTime_before {pre stops : List Id} (hA : A ∉ pre) (hB : B ∉ pre) :
    nw.routeTravelTime route A B (pre ++ stops) false 0 =
      nw.routeTravelTime route A B stops false 0 := by
  induction pre with
  | nil => rfl
  | cons stop pre ih =>
    obtain ⟨hneA,hrestA⟩ := not_or.mp (mt List.mem_cons.mpr hA)
    obtain ⟨hneB,hrestB⟩ := not_or.mp (mt List.mem_cons.mpr hB)
    rw [List.cons_append,routeTravelTime]
    simp only [if_neg (Ne.symm hneB),decide_eq_false (Ne.symm hneA),Bool.or_false,Bool.false_eq_true,
      if_false]
    exact ih hrestA hrestB

theorem routeTravelTime_counting {stop : Id} {between post : List Id} {travelTime : UInt32}
    (hedges : HopEdges nw route (stop::(between ++ B::post))) (hstop : stop ≠ B)
    (hB : B ∉ between)
    (hfits : travelTime.toNat+nw.hopSum (stop::(between ++ [B])) < 2^32) :
    (nw.routeTravelTime route A B (stop::(between ++ B::post)) true travelTime).toNat =
      travelTime.toNat+nw.hopSum (stop::(between ++ [B])) := by
  induction between generalizing stop travelTime with
  | nil =>
    obtain ⟨edge,hfind,htime⟩ := hedges stop B ⟨0,rfl,rfl⟩
    simp only [List.nil_append,hopSum,Nat.add_zero] at hfits ⊢
    simp only [routeTravelTime,Bool.true_or,if_neg hstop,if_true,hfind,htime]
    rw [UInt32.toNat_add,Nat.mod_eq_of_lt hfits]
  | cons next between ih =>
    obtain ⟨edge,hfind,htime⟩ := hedges stop next ⟨0,rfl,rfl⟩
    obtain ⟨hnext,hrest⟩ := not_or.mp (mt List.mem_cons.mpr hB)
    have hsum : nw.hopSum (stop::(next::between ++ [B])) =
        (nw.getTravelTime stop next).toNat+nw.hopSum (next::(between ++ [B])) := rfl
    rw [hsum] at hfits
    have hadd : (travelTime+edge.travelTime).toNat =
        travelTime.toNat+(nw.getTravelTime stop next).toNat := by
      rw [htime,UInt32.toNat_add]
      exact Nat.mod_eq_of_lt (by omega)
    rw [routeTravelTime]
    simp only [Bool.true_or,if_neg hstop,if_true,hfind]
    rw [List.cons_append,ih (fun X Y hhop => hedges X Y (hhop.cons stop)) (Ne.symm hnext) hrest
      (by rw [hadd]; omega),hadd,hsum]
    omega

theorem routeTravelTime_sum {stops between : List Id} (hedges : HopEdges nw route stops)
    (hnodup : stops.Nodup) (h : Between stops A B between)
    (hfits : nw.hopSum (A::(between ++ [B])) < 2^32) :
    (nw.routeTravelTime route A B stops false 0).toNat = nw.hopSum (A::(between ++ [B])) := by
  obtain ⟨pre,post,rfl⟩ := h
  obtain ⟨-,hrest,hdisjoint⟩ := List.nodup_append.mp hnodup
  obtain ⟨hA,hmid⟩ := List.nodup_cons.mp hrest
  have hne : A ≠ B := by
    rintro rfl
    exact hA (by simp)
  have hB : B ∉ between := fun hmem =>
    (List.nodup_append.mp hmid).2.2 B hmem B List.mem_cons_self rfl
  have hAfirst : A ∉ pre := fun hmem => hdisjoint A hmem A List.mem_cons_self rfl
  have hBfirst : B ∉ pre := fun hmem => hdisjoint B hmem B (by simp) rfl
  have hstart : nw.routeTravelTime route A B (A::(between ++ B::post)) false 0 =
      nw.routeTravelTime route A B (A::(between ++ B::post)) true 0 := by
    simp only [routeTravelTime,Bool.false_or,Bool.true_or,decide_true]
  have hcount := @routeTravelTime_counting nw route A B A between post 0
    (fun X Y hhop => hedges X Y (hhop.append pre)) hne hB (by simpa using hfits)
  rw [routeTravelTime_before hAfirst hBfirst,hstart,hcount]
  simp

theorem routeTravelTime_zero {stops : List Id} (h : ∀ between, ¬Between stops A B between) :
    nw.routeTravelTime route A B stops false 0 = 0 := by
  by_cases hB : B ∈ stops
  · obtain ⟨pre,post,rfl,hfirst⟩ := List.eq_append_cons_of_mem hB
    have hA : A ∉ pre := by
      intro hmem
      obtain ⟨before,between,rfl⟩ := List.append_of_mem hmem
      exact h between ⟨before,post,by simp⟩
    rw [routeTravelTime_before hA hfirst,routeTravelTime]
    simp
  · exact routeTravelTime_missing hB false 0

/-! The edges of a route. -/

theorem hopEdges_of_timed (hwf : nw.WellFormed) (hholds : Holds lines nw) (htimed : nw.IsTimed)
    {lineId routeId : Id} (hget : nw.getRoute lineId routeId = some route) :
    HopEdges nw route route.stops := by
  rintro X Y ⟨i,hX,hY⟩
  obtain ⟨own,hown,hroute,-⟩ := hholds.edges _ (mem_routeTable.mpr hget) X Y ⟨i,hX,hY⟩
  have hsome : (nw.findEdgeForRoute X route).isSome := by
    rw [findEdgeForRoute,List.find?_isSome]
    exact ⟨own,hown,by simp [hroute]⟩
  obtain ⟨edge,hfind⟩ := Option.isSome_iff_exists.mp hsome
  have hedge := List.mem_of_find?_eq_some hfind
  have hptr : edge.route.ptr = route.ptr := by simpa using List.find?_some hfind
  have hsame : edge.route = route :=
    (hwf.same_route X X edge hedge own hown (by rw [hptr,hroute])).trans hroute
  obtain ⟨hthis,hnext⟩ := hwf.hop X edge hedge
  have hnodup := hwf.nodup X edge hedge
  rw [hsame] at hthis hnext hnodup
  -- a stop has one position on the route
  have hpos : edge.hop = i := by
    have hlt := (List.getElem?_eq_some_iff.mp hthis).1
    exact (List.getElem?_inj hlt hnodup).mp (hthis.trans hX.symm)
  rw [hpos,hY,Option.some.injEq] at hnext
  obtain ⟨time,htime⟩ := htimed
  exact ⟨edge,hfind,by rw [hnext]; exact htime.search_time hedge⟩

theorem Between.hop {stops between : List Id} (h : Between stops A B between) :
    ∃ Y, Hop stops A Y := by
  obtain ⟨pre,post,rfl⟩ := h
  cases between with
  | nil => exact ⟨B,Hop.append ⟨0,rfl,rfl⟩ pre⟩
  | cons Y between => exact ⟨Y,Hop.append ⟨0,rfl,rfl⟩ pre⟩

/-! Runs that add all lines before they set times. -/

def BeforeTimes (_ : TransportNetwork) : Call → Bool → Prop
  | .addLine line, _ => (Call.addLine line).distinctStops = true
  | .setTravelTime _ _ _, _ => False
  | .addStation _, _ => True
  | .recordPassengerEvent _, _ => True

def AfterLines (_ : TransportNetwork) : Call → Bool → Prop
  | .addLine _, _ => False
  | .setTravelTime _ _ _, _ => True
  | .addStation _, _ => True
  | .recordPassengerEvent _, _ => True

theorem BeforeTimes.distinctStops {c : Call} {ok : Bool} (h : nw.BeforeTimes c ok) :
    c.distinctStops = true := by
  cases c with
  | addLine line => exact h
  | addStation station => rfl
  | setTravelTime A B t => rfl
  | recordPassengerEvent event => rfl

theorem AfterLines.distinctStops {c : Call} {ok : Bool} (h : nw.AfterLines c ok) :
    c.distinctStops = true := by
  cases c with
  | addLine line => exact absurd h id
  | addStation station => rfl
  | setTravelTime A B t => rfl
  | recordPassengerEvent event => rfl

theorem timed_zero_of_run (h : LogsCalls BeforeTimes ([],empty) (lines,nw)) :
    nw.Timed fun _ => 0 := by
  refine @invariant_of_run _ (fun _ nw => nw.Timed fun _ => 0) _ _ (timed_empty _) ?_ h
  intro lines nw c ok nw' htimed hbefore hrun
  cases c with
  | addStation station =>
    obtain rfl : (nw.addStation station).2 = nw' := congrArg Prod.snd (Option.some.inj hrun)
    exact htimed.addStation station
  | addLine line => exact htimed.extends (extends_addLine hrun) fun _ _ _ _ _ => rfl
  | setTravelTime A B t => exact absurd hbefore id
  | recordPassengerEvent event =>
    obtain rfl : (nw.recordPassengerEvent event).2 = nw' :=
      congrArg Prod.snd (Option.some.inj hrun)
    exact htimed.recordPassengerEvent event

theorem isTimed_of_run {st : List Line × TransportNetwork} (hstart : st.2.IsTimed)
    (h : LogsCalls AfterLines st (lines,nw)) : nw.IsTimed := by
  refine @invariant_of_run _ (fun _ => IsTimed) _ _ hstart ?_ h
  intro lines nw c ok nw' htimed hafter hrun
  refine htimed.run ?_ hrun
  cases c with
  | addLine line => exact absurd hafter id
  | addStation station => exact trivial
  | setTravelTime A B t => exact trivial
  | recordPassengerEvent event => exact trivial

/-- The time on a route is the sum over its hops from `A` to `B`, and 0 if `B` does not come
after `A` on a known route. -/
theorem getRouteTravelTime_eq_sum {laid : List Line × TransportNetwork}
    (hlaid : LogsCalls BeforeTimes ([],empty) laid) (htimed : LogsCalls AfterLines laid (lines,nw))
    (lineId routeId A B : Id) :
    (∀ line ∈ lines, line.id = lineId → ∀ route ∈ line.routes, route.id = routeId →
      ∀ between, Between route.stops A B between → nw.hopSum (A::(between ++ [B])) < 2^32 →
        (nw.getRouteTravelTime lineId routeId A B).toNat = nw.hopSum (A::(between ++ [B]))) ∧
    ((¬∃ line ∈ lines, line.id = lineId ∧ ∃ route ∈ line.routes, route.id = routeId ∧
      ∃ between, Between route.stops A B between) →
        nw.getRouteTravelTime lineId routeId A B = 0) := by
  have hrun : LogsCalls (fun _ c _ => c.distinctStops = true) ([],empty) (lines,nw) :=
    (logsCalls_mono hlaid fun _ _ _ => BeforeTimes.distinctStops).trans
      (logsCalls_mono htimed fun _ _ _ => AfterLines.distinctStops)
  have hwf := wellFormed_of_run (fun _ _ _ h => h) hrun
  have hholds := holds_of_run hrun
  have hist := isTimed_of_run ⟨_,timed_zero_of_run hlaid⟩ htimed
  constructor
  · rintro line hline rfl route hroute rfl between hbetween hfits
    obtain ⟨stored,hget,hstops⟩ := hholds.exists_stored hline hroute
    rw [← hstops] at hbetween
    have hedges := hopEdges_of_timed hwf hholds hist hget
    have hmem : A ∈ route.stops ∧ B ∈ route.stops := by
      obtain ⟨pre,post,heq⟩ := hbetween
      rw [← hstops,heq]
      simp
    have hknown : (nw.getStation A).isSome ∧ (nw.getStation B).isSome :=
      ⟨hholds.known line hline route hroute A hmem.1,hholds.known line hline route hroute B hmem.2⟩
    have hnodup : stored.stops.Nodup := by
      obtain ⟨Y,hhop⟩ := hbetween.hop
      obtain ⟨edge,hedge,hsame,-⟩ := hholds.edges _ (mem_routeTable.mpr hget) A Y hhop
      have hdistinct := hwf.nodup A edge hedge
      rwa [hsame] at hdistinct
    rw [getRouteTravelTime,hget]
    simp only [if_neg (not_guard hknown)]
    exact routeTravelTime_sum hedges hnodup hbetween hfits
  · intro hnot
    rw [getRouteTravelTime]
    cases hget : nw.getRoute lineId routeId with
    | none => rfl
    | some stored =>
      obtain ⟨line,hline,hid,route,hroute,hid',hstops⟩ := hholds.exists_added hget
      simp only
      split_ifs
      · rfl
      · apply routeTravelTime_zero
        intro between hbetween
        exact hnot ⟨line,hline,hid,route,hroute,hid',between,hstops ▸ hbetween⟩

/-- A line of three stops. -/
def threeStops : List Call :=
  [.addStation ⟨ascii "A",[]⟩,.addStation ⟨ascii "X",[]⟩,.addStation ⟨ascii "B",[]⟩,
    .addLine ⟨ascii "red",[],[⟨ascii "r",[],ascii "red",ascii "A",ascii "B",
      [ascii "A",ascii "X",ascii "B"]⟩]⟩]

def threeStopsTimes : List Call :=
  [.setTravelTime (ascii "A") (ascii "X") 3,.setTravelTime (ascii "X") (ascii "B") 4]

/-- Three minutes and four minutes there, and no way back. -/
theorem getRouteTravelTime_eq_sum_threeStops :
    ((networkOf (threeStops ++ threeStopsTimes)).getRouteTravelTime (ascii "red") (ascii "r") (ascii "A")
      (ascii "B")).toNat = 3+4 ∧
    (networkOf (threeStops ++ threeStopsTimes)).getRouteTravelTime (ascii "red") (ascii "r") (ascii "B")
      (ascii "A") = 0 := by
  have hlaying := @build_networkOf threeStops (by decide +kernel)
  have htiming := @build_networkOf (threeStops ++ threeStopsTimes) (by decide +kernel)
  rw [build_append,hlaying,Option.bind_some] at htiming
  have hbefore : ∀ nw, ∀ c ∈ threeStops, BeforeTimes nw c true := fun _ =>
    List.forall_mem_cons.mpr ⟨trivial,List.forall_mem_cons.mpr ⟨trivial,List.forall_mem_cons.mpr
      ⟨trivial,List.forall_mem_singleton.mpr (by decide : (Call.addLine _).distinctStops = true)⟩⟩⟩
  have hafter : ∀ nw, ∀ c ∈ threeStopsTimes, AfterLines nw c true := fun _ =>
    List.forall_mem_cons.mpr ⟨trivial,List.forall_mem_singleton.mpr trivial⟩
  have hlaid := @logsCalls_of_build _ _ [] BeforeTimes _ hbefore hlaying
  have htimed := @logsCalls_of_build _ _ ([] ++ threeStops.flatMap (·.adds true)) _ _ hafter htiming
  have hsum := getRouteTravelTime_eq_sum hlaid htimed (ascii "red") (ascii "r")
  have hhops : (networkOf (threeStops ++ threeStopsTimes)).hopSum [ascii "A",ascii "X",ascii "B"] = 3+4 :=
    by decide +kernel
  constructor
  · have hthere := (hsum (ascii "A") (ascii "B")).1 _ (List.mem_singleton_self _) rfl _
      (List.mem_singleton_self _) rfl [ascii "X"] ⟨[],[],rfl⟩
    rw [List.singleton_append,hhops] at hthere
    exact hthere (by decide)
  · refine (hsum (ascii "B") (ascii "A")).2 ?_
    rintro ⟨line,hline,-,route,hroute,-,between,pre,post,hstops⟩
    obtain rfl := List.mem_singleton.mp hline
    obtain rfl := List.mem_singleton.mp hroute
    -- `A` comes first and only there
    have hafterA : ascii "A" ∉ [ascii "X",ascii "B"] := by decide
    have hhead : ascii "A" ≠ ascii "B" := by decide
    cases pre with
    | nil => exact hhead (List.cons.inj hstops).1
    | cons first pre =>
      have hrest := (List.cons.inj hstops).2
      exact hafterA (hrest ▸ by simp)

end TransportNetwork
end QuietRoute
