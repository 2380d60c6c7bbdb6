import QuietRoute.Network.AddedLines
import QuietRoute.Network.FailedAddLine
import QuietRoute.Network.UniformTimes

/-! `SetTravelTime` as an update of one unordered pair of stations. It answers for the edges of the
network, which are those of the added lines unless a failed `addLine` has left some behind. -/
namespace QuietRoute
namespace TransportNetwork

variable {nw nw' : TransportNetwork} {A B C D : Id} {t u : UInt32}

/-! One direction. -/

theorem setEdgeTimes_comm (nw : TransportNetwork) {start stop start' stop' : Id} {t t' : UInt32}
    (h : (start,stop) ≠ (start',stop') ∨ t = t') :
    ((nw.setEdgeTimes start stop t).2.setEdgeTimes start' stop' t').2 =
      ((nw.setEdgeTimes start' stop' t').2.setEdgeTimes start stop t).2 := by
  simp only [setEdgeTimes,updateEdges]
  congr 1
  apply UnorderedMap.modify_comm
  by_cases hstart : start = start'
  · right
    intro node
    simp only [List.map_map]
    congr 1
    apply List.map_congr_left
    intro e _
    simp only [Function.comp_apply]
    by_cases hstop : e.nextStop = stop
    · by_cases hstop' : e.nextStop = stop'
      · have hsame := h.resolve_left fun hne => hne (by rw [hstart,← hstop,hstop'])
        obtain rfl : stop = stop' := hstop.symm.trans hstop'
        simp [hstop,hsame]
      · simp [hstop,hstop.symm.trans_ne hstop']
    · by_cases hstop' : e.nextStop = stop'
      · simp [hstop',hstop'.symm.trans_ne hstop]
      · simp [hstop,hstop']
  · exact Or.inl hstart

theorem setEdgeTimes_id {start stop : Id} (h : ∀ e ∈ nw.edgesFrom start, e.nextStop ≠ stop)
    (t : UInt32) : (nw.setEdgeTimes start stop t).2 = nw := by
  simp only [setEdgeTimes,updateEdges]
  have hsame : nw.stations.modify start (fun node => {node with edges := node.edges.map fun edge =>
      if edge.nextStop = stop then {edge with travelTime := t} else edge}) = nw.stations := by
    apply UnorderedMap.modify_id
    intro node hnode
    have hedges : nw.edgesFrom start = node.edges := by simp [edgesFrom,getStation,hnode]
    rw [hedges] at h
    have hmap : (node.edges.map fun edge =>
        if edge.nextStop = stop then {edge with travelTime := t} else edge) = node.edges :=
      (List.map_congr_left fun e he => if_neg (h e he)).trans (List.map_id _)
    rw [hmap]
  rw [hsame]

/-! Both directions. -/

theorem setTravelTime_snd (h : (nw.getStation A).isSome ∧ (nw.getStation B).isSome) (t : UInt32) :
    (nw.setTravelTime A B t).2 = ((nw.setEdgeTimes A B t).2.setEdgeTimes B A t).2 := by
  rw [setTravelTime,if_neg (not_guard h)]

theorem setTravelTime_symm (nw : TransportNetwork) (A B : Id) (t : UInt32) :
    nw.setTravelTime A B t = nw.setTravelTime B A t := by
  refine Prod.ext ?_ ?_
  · rw [Bool.eq_iff_iff,setTravelTime_eq_true_iff,setTravelTime_eq_true_iff,joined_comm,
      @and_comm (nw.getStation A).isSome]
  · by_cases hknown : (nw.getStation A).isSome ∧ (nw.getStation B).isSome
    · rw [setTravelTime_snd hknown,setTravelTime_snd hknown.symm]
      exact setEdgeTimes_comm nw (Or.inr rfl)
    · rw [setTravelTime_unknown hknown,setTravelTime_unknown (mt And.symm hknown)]

theorem setTravelTime_fails (h : (nw.setTravelTime A B t).1 = false) :
    (nw.setTravelTime A B t).2 = nw := by
  by_cases hknown : (nw.getStation A).isSome ∧ (nw.getStation B).isSome
  · have hnot : ¬nw.Joined A B := fun hjoined => by
      rw [(setTravelTime_eq_true_iff nw A B t).mpr ⟨hknown,hjoined⟩] at h
      cases h
    have hforth : ∀ e ∈ nw.edgesFrom A, e.nextStop ≠ B := fun e he hB => hnot (Or.inl ⟨e,he,hB⟩)
    have hback : ∀ e ∈ nw.edgesFrom B, e.nextStop ≠ A := fun e he hA => hnot (Or.inr ⟨e,he,hA⟩)
    rw [setTravelTime_snd hknown,setEdgeTimes_id hforth,setEdgeTimes_id hback]
  · rw [setTravelTime_unknown hknown]

theorem setTravelTime_comm (nw : TransportNetwork) (hne : s(C,D) ≠ s(A,B)) (t u : UInt32) :
    ((nw.setTravelTime A B t).2.setTravelTime C D u).2 =
      ((nw.setTravelTime C D u).2.setTravelTime A B t).2 := by
  by_cases hAB : (nw.getStation A).isSome ∧ (nw.getStation B).isSome
  · by_cases hCD : (nw.getStation C).isSome ∧ (nw.getStation D).isSome
    · have hCD' : ((nw.setTravelTime A B t).2.getStation C).isSome ∧
          ((nw.setTravelTime A B t).2.getStation D).isSome := by
        rwa [isSome_getStation_setTravelTime,isSome_getStation_setTravelTime]
      have hAB' : ((nw.setTravelTime C D u).2.getStation A).isSome ∧
          ((nw.setTravelTime C D u).2.getStation B).isSome := by
        rwa [isSome_getStation_setTravelTime,isSome_getStation_setTravelTime]
      have hpairs : ∀ X Y, s(X,Y) = s(A,B) → (X,Y) ≠ (C,D) ∧ (X,Y) ≠ (D,C) := by
        intro X Y hXY
        constructor
        · rintro heq
          obtain ⟨rfl,rfl⟩ := Prod.mk.inj heq
          exact hne hXY
        · rintro heq
          obtain ⟨rfl,rfl⟩ := Prod.mk.inj heq
          exact hne (Sym2.eq_swap.trans hXY)
      obtain ⟨hforth,hforth'⟩ := hpairs A B rfl
      obtain ⟨hback,hback'⟩ := hpairs B A Sym2.eq_swap
      rw [setTravelTime_snd hCD',setTravelTime_snd hAB',setTravelTime_snd hAB,setTravelTime_snd hCD]
      -- the two updates of the one pair move past those of the other, one at a time
      rw [setEdgeTimes_comm _ (Or.inl hback),setEdgeTimes_comm nw (Or.inl hforth),
        setEdgeTimes_comm _ (Or.inl hback'),
        setEdgeTimes_comm (nw.setEdgeTimes C D u).2 (Or.inl hforth')]
    · have hCD' : ¬(((nw.setTravelTime A B t).2.getStation C).isSome ∧
          ((nw.setTravelTime A B t).2.getStation D).isSome) := by
        rwa [isSome_getStation_setTravelTime,isSome_getStation_setTravelTime]
      rw [setTravelTime_unknown hCD,setTravelTime_unknown hCD']
  · have hAB' : ¬(((nw.setTravelTime C D u).2.getStation A).isSome ∧
        ((nw.setTravelTime C D u).2.getStation B).isSome) := by
      rwa [isSome_getStation_setTravelTime,isSome_getStation_setTravelTime]
    rw [setTravelTime_unknown hAB,setTravelTime_unknown hAB']

/-! What the queries answer afterwards. -/

theorem getTravelTime_of_joined (hknown : (nw.getStation A).isSome ∧ (nw.getStation B).isSome)
    (hjoined : nw.Joined A B)
    (htime : ∀ S, ∀ e ∈ nw.edgesFrom S, s(S,e.nextStop) = s(A,B) → e.travelTime = t) :
    nw.getTravelTime A B = t := by
  rw [getTravelTime,if_neg (not_guard hknown)]
  cases hforth : (nw.edgesFrom A).find? fun edge => edge.nextStop = B with
  | some edge =>
    have hB : edge.nextStop = B := by simpa using List.find?_some hforth
    exact htime A edge (List.mem_of_find?_eq_some hforth) (by rw [hB])
  | none =>
    have hno : ∀ e ∈ nw.edgesFrom A, e.nextStop ≠ B := by simpa using hforth
    cases hback : (nw.edgesFrom B).find? fun edge => edge.nextStop = A with
    | some edge =>
      have hA : edge.nextStop = A := by simpa using List.find?_some hback
      exact htime B edge (List.mem_of_find?_eq_some hback) (by rw [hA,Sym2.eq_swap])
    | none =>
      have hno' : ∀ e ∈ nw.edgesFrom B, e.nextStop ≠ A := by simpa using hback
      rcases hjoined with ⟨e,he,hB⟩ | ⟨e,he,hA⟩
      · exact absurd hB (hno e he)
      · exact absurd hA (hno' e he)

theorem travelTime_setTravelTime (hknown : (nw.getStation A).isSome ∧ (nw.getStation B).isSome)
    {S : Id} {e : GraphEdge} (he : e ∈ (nw.setTravelTime A B t).2.edgesFrom S)
    (hpair : s(S,e.nextStop) = s(A,B)) : e.travelTime = t := by
  rw [edgesFrom_setTravelTime hknown.1 hknown.2] at he
  obtain ⟨e₀,he₀,rfl⟩ := List.mem_map.mp he
  split_ifs at hpair ⊢ with hsame
  · rfl
  · exact absurd hpair hsame

def ofOtherPair (A B S : Id) (e : GraphEdge) : Bool := decide (s(S,e.nextStop) ≠ s(A,B))

theorem ofOtherPair_iff {S : Id} {e : GraphEdge} :
    ofOtherPair A B S e = true ↔ s(S,e.nextStop) ≠ s(A,B) := decide_eq_true_iff

theorem filter_edgesFrom_setTravelTime (nw : TransportNetwork) (A B : Id) (t : UInt32) (S : Id) :
    ((nw.setTravelTime A B t).2.edgesFrom S).filter (ofOtherPair A B S) =
      (nw.edgesFrom S).filter (ofOtherPair A B S) := by
  by_cases hknown : (nw.getStation A).isSome ∧ (nw.getStation B).isSome
  · rw [edgesFrom_setTravelTime hknown.1 hknown.2]
    induction nw.edgesFrom S with
    | nil => rfl
    | cons e edges ih =>
      by_cases hpair : s(S,e.nextStop) = s(A,B)
      · have hdrop : ∀ e' : GraphEdge, e'.nextStop = e.nextStop → ¬ofOtherPair A B S e' = true :=
          fun e' he' => mt ofOtherPair_iff.mp (not_not.mpr (he' ▸ hpair))
        rw [List.map_cons,if_pos hpair,List.filter_cons_of_neg (hdrop {e with travelTime := t} rfl),
          List.filter_cons_of_neg (hdrop e rfl)]
        exact ih
      · have hkeep : ofOtherPair A B S e = true := ofOtherPair_iff.mpr hpair
        rw [List.map_cons,if_neg hpair,List.filter_cons_of_pos hkeep,List.filter_cons_of_pos hkeep,
          ih]
  · rw [setTravelTime_unknown hknown]

theorem find?_congr_of_filter {edges edges' : List GraphEdge} {p q : GraphEdge → Bool}
    (hpq : ∀ e, p e = true → q e = true) (h : edges'.filter q = edges.filter q) :
    edges'.find? p = edges.find? p := by
  have hfilter : ∀ l : List GraphEdge, l.find? p = (l.filter q).find? p := by
    intro l
    rw [List.find?_filter]
    congr 1
    ext e
    cases hp : p e with
    | false => simp
    | true => simp [hpq e hp]
  rw [hfilter edges',hfilter edges,h]

theorem getTravelTime_setTravelTime_ne (nw : TransportNetwork) (hne : s(C,D) ≠ s(A,B)) (t : UInt32) :
    (nw.setTravelTime A B t).2.getTravelTime C D = nw.getTravelTime C D := by
  have hnone : ∀ S, ((nw.setTravelTime A B t).2.getStation S).isNone = (nw.getStation S).isNone := by
    intro S
    rw [← Option.not_isSome,← Option.not_isSome,isSome_getStation_setTravelTime]
  have hforth : ∀ e : GraphEdge, decide (e.nextStop = D) = true → ofOtherPair A B C e = true := by
    intro e he
    rw [decide_eq_true_eq] at he
    rw [ofOtherPair_iff,he]
    exact hne
  have hback : ∀ e : GraphEdge, decide (e.nextStop = C) = true → ofOtherPair A B D e = true := by
    intro e he
    rw [decide_eq_true_eq] at he
    rw [ofOtherPair_iff,he,Sym2.eq_swap]
    exact hne
  simp only [getTravelTime,hnone,
    find?_congr_of_filter hforth (filter_edgesFrom_setTravelTime nw A B t C),
    find?_congr_of_filter hback (filter_edgesFrom_setTravelTime nw A B t D)]

/-! The law, and when it holds. -/

/-- The stations are consecutive, in either order, in a route of an added line. -/
def Adjacent (lines : List Line) (A B : Id) : Prop :=
  ∃ line ∈ lines, ∃ route ∈ line.routes, Hop route.stops A B ∨ Hop route.stops B A

/-- Setting the time of a pair of stations is a symmetric, local update. -/
structure UpdatesPair (lines : List Line) (nw : TransportNetwork) (A B : Id) (t : UInt32) :
    Prop where
  succeeds_iff : (nw.setTravelTime A B t).1 = true ↔
    ((nw.getStation A).isSome ∧ (nw.getStation B).isSome) ∧ Adjacent lines A B
  sets : (nw.setTravelTime A B t).1 = true →
    (nw.setTravelTime A B t).2.getTravelTime A B = t ∧
    (nw.setTravelTime A B t).2.getTravelTime B A = t ∧
    ∀ S, ∀ e ∈ (nw.setTravelTime A B t).2.edgesFrom S, s(S,e.nextStop) = s(A,B) → e.travelTime = t
  keeps : ∀ C D, s(C,D) ≠ s(A,B) →
    (nw.setTravelTime A B t).2.getTravelTime C D = nw.getTravelTime C D
  keeps_edges : ∀ S, ((nw.setTravelTime A B t).2.edgesFrom S).filter (ofOtherPair A B S) =
    (nw.edgesFrom S).filter (ofOtherPair A B S)
  fails : (nw.setTravelTime A B t).1 = false → (nw.setTravelTime A B t).2 = nw
  symm : nw.setTravelTime A B t = nw.setTravelTime B A t
  comm : ∀ C D u, s(C,D) ≠ s(A,B) → ((nw.setTravelTime A B t).2.setTravelTime C D u).2 =
    ((nw.setTravelTime C D u).2.setTravelTime A B t).2

/-- The stations are joined by edges of routes that no added line has. -/
def LeftBehind (lines : List Line) (nw : TransportNetwork) (A B : Id) : Prop :=
  ((nw.getStation A).isSome ∧ (nw.getStation B).isSome) ∧ nw.Joined A B ∧ ¬Adjacent lines A B

theorem setTravelTime_sets (h : (nw.setTravelTime A B t).1 = true) :
    (nw.setTravelTime A B t).2.getTravelTime A B = t ∧
    (nw.setTravelTime A B t).2.getTravelTime B A = t ∧
    ∀ S, ∀ e ∈ (nw.setTravelTime A B t).2.edgesFrom S, s(S,e.nextStop) = s(A,B) →
      e.travelTime = t := by
  obtain ⟨hknown,hjoined⟩ := (setTravelTime_eq_true_iff nw A B t).mp h
  have htime : ∀ S, ∀ e ∈ (nw.setTravelTime A B t).2.edgesFrom S, s(S,e.nextStop) = s(A,B) →
      e.travelTime = t := fun S e he => travelTime_setTravelTime hknown he
  -- the flag of a second call shows that the edges are still there
  have hagain : ((nw.setTravelTime A B t).2.setTravelTime A B t).1 = true := by
    rw [setTravelTime_eq_true_iff,isSome_getStation_setTravelTime,isSome_getStation_setTravelTime]
    exact ⟨hknown,(joined_setTravelTime nw A B t).mpr hjoined⟩
  obtain ⟨hknown',hjoined'⟩ := (setTravelTime_eq_true_iff _ A B t).mp hagain
  refine ⟨getTravelTime_of_joined hknown' hjoined' htime,?_,htime⟩
  refine getTravelTime_of_joined hknown'.symm (joined_comm.mp hjoined') fun S e he hpair => ?_
  exact htime S e he (hpair.trans Sym2.eq_swap)

theorem joined_of_adjacent {lines : List Line} (h : Holds lines nw) (hadj : Adjacent lines A B) :
    nw.Joined A B := by
  obtain ⟨line,hline,route,hroute,hhop⟩ := hadj
  obtain ⟨stored,hget,hstops⟩ := h.exists_stored hline hroute
  have hmem := mem_routeTable.mpr hget
  rw [← hstops] at hhop
  rcases hhop with hhop | hhop
  · obtain ⟨edge,hedge,-,hnext⟩ := h.edges _ hmem A B hhop
    exact Or.inl ⟨edge,hedge,hnext⟩
  · obtain ⟨edge,hedge,-,hnext⟩ := h.edges _ hmem B A hhop
    exact Or.inr ⟨edge,hedge,hnext⟩

theorem updatesPair_iff {lines : List Line} (h : Holds lines nw) (A B : Id) (t : UInt32) :
    UpdatesPair lines nw A B t ↔ ¬LeftBehind lines nw A B := by
  constructor
  · rintro hupdates ⟨hknown,hjoined,hadj⟩
    have htrue := (setTravelTime_eq_true_iff nw A B t).mpr ⟨hknown,hjoined⟩
    exact hadj (hupdates.succeeds_iff.mp htrue).2
  · intro hleft
    refine ⟨?_,setTravelTime_sets,fun C D hne => getTravelTime_setTravelTime_ne nw hne t,
      filter_edgesFrom_setTravelTime nw A B t,setTravelTime_fails,setTravelTime_symm nw A B t,
      fun C D u hne => setTravelTime_comm nw hne t u⟩
    rw [setTravelTime_eq_true_iff]
    refine and_congr_right fun hknown => ⟨fun hjoined => ?_,joined_of_adjacent h⟩
    by_contra hadj
    exact hleft ⟨hknown,hjoined,hadj⟩

/-! Runs in which no failed call leaves edges. -/

/-- A line that is refused adds no route of more than one stop before. -/
def LeavesNothing (nw : TransportNetwork) : Call → Bool → Prop
  | .addLine line, ok => ok = false → ∀ route ∈ nw.newRoutes line, route.stops.length ≤ 1
  | .addStation _, _ => True
  | .setTravelTime _ _ _, _ => True
  | .recordPassengerEvent _, _ => True

def EdgesAdded (lines : List Line) (nw : TransportNetwork) : Prop :=
  ∀ S, ∀ e ∈ nw.edgesFrom S, ∃ line ∈ lines, ∃ route ∈ line.routes, Hop route.stops S e.nextStop

theorem mem_of_mem_acceptedRoutes {taken : List Id} {routes : List Route} {route : Route}
    (h : route ∈ nw.acceptedRoutes taken routes) : route ∈ routes := by
  induction routes generalizing taken with
  | nil => simp [acceptedRoutes] at h
  | cons first routes ih =>
    rw [acceptedRoutes] at h
    split_ifs at h
    · cases h
    · rcases List.mem_cons.mp h with rfl | h
      · exact List.mem_cons_self
      · exact List.mem_cons_of_mem first (ih h)

theorem mem_of_mem_newRoutes {line : Line} {route : Route} (h : route ∈ nw.newRoutes line) :
    route ∈ line.routes := by
  rw [newRoutes] at h
  split_ifs at h
  · cases h
  · exact mem_of_mem_acceptedRoutes h

theorem EdgesAdded.of_edges {lines : List Line} (h : EdgesAdded lines nw)
    (hedges : ∀ S, ∀ e ∈ nw'.edgesFrom S, ∃ e₀ ∈ nw.edgesFrom S, e.nextStop = e₀.nextStop) :
    EdgesAdded lines nw' := by
  intro S e he
  obtain ⟨e₀,he₀,hnext⟩ := hedges S e he
  rw [hnext]
  exact h S e₀ he₀

theorem EdgesAdded.run {lines : List Line} {ok : Bool} (h : EdgesAdded lines nw) {c : Call}
    (hleaves : nw.LeavesNothing c ok) (hrun : nw.run c = some (ok,nw')) :
    EdgesAdded (lines ++ c.adds ok) nw' := by
  cases c with
  | addStation station =>
    obtain rfl : (nw.addStation station).2 = nw' := congrArg Prod.snd (Option.some.inj hrun)
    rw [Call.adds,List.append_nil]
    exact h.of_edges fun S e he => ⟨e,by rwa [edgesFrom_addStation] at he,rfl⟩
  | addLine line =>
    intro S e he
    rcases (extends_addLine hrun).cases S e he with hold | ⟨-,route,hroute,hhop⟩
    · obtain ⟨line',hline',hspec⟩ := h S e hold
      exact ⟨line',List.mem_append_left _ hline',hspec⟩
    · cases ok with
      | true =>
        exact ⟨line,List.mem_append_right _ (List.mem_singleton_self line),route,
          mem_of_mem_newRoutes hroute,hhop⟩
      | false =>
        obtain ⟨i,-,hnext⟩ := hhop
        have hlong := (List.getElem?_eq_some_iff.mp hnext).1
        have hshort := hleaves rfl route hroute
        omega
  | setTravelTime A B t =>
    obtain rfl : (nw.setTravelTime A B t).2 = nw' := congrArg Prod.snd (Option.some.inj hrun)
    rw [Call.adds,List.append_nil]
    refine h.of_edges fun S e he => ?_
    by_cases hknown : (nw.getStation A).isSome ∧ (nw.getStation B).isSome
    · rw [edgesFrom_setTravelTime hknown.1 hknown.2] at he
      obtain ⟨e₀,he₀,rfl⟩ := List.mem_map.mp he
      refine ⟨e₀,he₀,?_⟩
      split_ifs <;> rfl
    · rw [setTravelTime_unknown hknown] at he
      exact ⟨e,he,rfl⟩
  | recordPassengerEvent event =>
    obtain rfl : (nw.recordPassengerEvent event).2 = nw' :=
      congrArg Prod.snd (Option.some.inj hrun)
    rw [Call.adds,List.append_nil]
    exact h.of_edges fun S e he => ⟨e,by rwa [edgesFrom_recordPassengerEvent] at he,rfl⟩

theorem edgesAdded_of_run {lines : List Line}
    (h : LogsCalls LeavesNothing ([],empty) (lines,nw)) : EdgesAdded lines nw := by
  refine invariant_of_run ?_ (fun _ _ _ _ _ hadded hleaves hrun => hadded.run hleaves hrun) h
  intro S e he
  simp [edgesFrom,getStation,empty] at he

/-- The law holds for the pairs that no failed call has left joined; there are none of those in a
run whose failed calls leave nothing. -/
theorem setTravelTime_local {allowed : TransportNetwork → Call → Bool → Prop} {lines : List Line}
    (h : LogsCalls allowed ([],empty) (lines,nw)) :
    (∀ A B t, UpdatesPair lines nw A B t ↔ ¬LeftBehind lines nw A B) ∧
      ((∀ nw c ok, allowed nw c ok → nw.LeavesNothing c ok) →
        ∀ A B t, UpdatesPair lines nw A B t) := by
  have hholds := holds_of_run h
  refine ⟨updatesPair_iff hholds,fun hallowed A B t => (updatesPair_iff hholds A B t).mpr ?_⟩
  rintro ⟨-,hjoined,hadj⟩
  have hadded := edgesAdded_of_run (logsCalls_mono h hallowed)
  rcases hjoined with ⟨e,he,rfl⟩ | ⟨e,he,rfl⟩
  · obtain ⟨line,hline,route,hroute,hhop⟩ := hadded A e he
    exact hadj ⟨line,hline,route,hroute,Or.inl hhop⟩
  · obtain ⟨line,hline,route,hroute,hhop⟩ := hadded B e he
    exact hadj ⟨line,hline,route,hroute,Or.inr hhop⟩

theorem setTravelTime_local_timedLine : ∃ lines nw, UpdatesPair lines nw (ascii "A") (ascii "B") 7 ∧
    Adjacent lines (ascii "A") (ascii "B") := by
  have hbuild := @build_networkOf timedLine (by decide +kernel)
  have hrun := @logsCalls_of_build _ _ [] LeavesNothing _ (fun nw c _ => ?_) hbuild
  · refine ⟨_,_,(setTravelTime_local hrun).2 (fun _ _ _ h => h) _ _ 7,?_⟩
    exact ⟨_,List.mem_singleton_self _,_,List.mem_singleton_self _,Or.inl ⟨0,rfl,rfl⟩⟩
  · cases c with
    | addLine line => exact fun h => absurd h (by simp)
    | addStation station => exact trivial
    | setTravelTime A B t => exact trivial
    | recordPassengerEvent event => exact trivial

/-- After the second route of a line is refused, the stops of the first one can be given a time. -/
theorem setTravelTime_leftBehind : ¬∀ lines nw,
    LogsCalls (fun _ c _ => c.distinctStops = true) ([],empty) (lines,nw) →
    ∀ A B t, UpdatesPair lines nw A B t := by
  intro hclaim
  have hbuild := @build_networkOf twoStations (by decide +kernel)
  have hflags : ((networkOf twoStations).addLine (lineBeyond [ascii "A",ascii "B"])).map
      (fun result => (result.1,(result.2.setTravelTime (ascii "A") (ascii "B") 5).1)) =
        some (false,true) := by decide +kernel
  obtain ⟨⟨ok,nw⟩,hadd,hflags⟩ := Option.map_eq_some_iff.mp hflags
  obtain ⟨rfl,htrue⟩ := Prod.mk.inj hflags
  have hrun : LogsCalls (fun _ c _ => c.distinctStops = true) ([],empty) ([],nw) :=
    (logsCalls_of_build (fun _ => by decide) hbuild).tail
      ⟨.addLine (lineBeyond [ascii "A",ascii "B"]),false,by decide,hadd,rfl⟩
  obtain ⟨-,line,hline,-⟩ := (hclaim [] nw hrun (ascii "A") (ascii "B") 5).succeeds_iff.mp htrue
  cases hline

end TransportNetwork
end QuietRoute
