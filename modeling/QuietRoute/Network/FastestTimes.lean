import QuietRoute.Network.AddedLines
import QuietRoute.Network.PathEnumeration
import QuietRoute.Network.FastestRoute

/-! Fastest times between stations: how they add up on the way, what new lines do to them, and how
much a new travel time can change them. -/
namespace QuietRoute

open BestFirst TransportNetwork

variable {lib lib' : StdLibrary} {nw nw' : TransportNetwork} {A B S : Id}
  {edges before after : List GraphEdge} {s t : ℕ}

/-! Walks in two parts. -/

theorem isWalk_append : IsWalk nw A (before ++ after) B ↔
    IsWalk nw A before (stopAfter A before) ∧ IsWalk nw (stopAfter A before) after B := by
  induction before generalizing A with
  | nil => simp [IsWalk,stopAfter]
  | cons edge before ih =>
    simp only [List.cons_append,IsWalk,ih,stopAfter,List.foldl_cons,and_assoc]

theorem stopAfter_isWalk (h : IsWalk nw A edges B) : stopAfter A edges = B := by
  induction edges generalizing A with
  | nil => exact h
  | cons edge edges ih => exact ih h.2

theorem IsWalk.append (h : IsWalk nw A before S) (h' : IsWalk nw S after B) :
    IsWalk nw A (before ++ after) B := by
  rw [isWalk_append,stopAfter_isWalk h]
  exact ⟨h,h'⟩

theorem routeChanges_append (before after : List GraphEdge) :
    routeChanges before+routeChanges after ≤ routeChanges (before ++ after) ∧
      routeChanges (before ++ after) ≤ routeChanges before+routeChanges after+1 := by
  induction before with
  | nil => simp [routeChanges]
  | cons edge before ih =>
    cases before with
    | nil =>
      cases after with
      | nil => simp [routeChanges]
      | cons next after =>
        simp only [List.cons_append,List.nil_append,routeChanges]
        split_ifs <;> omega
    | cons next before =>
      simp only [List.cons_append,routeChanges] at ih ⊢
      omega

theorem walkCost_append (before after : List GraphEdge) :
    walkCost before+walkCost after ≤ walkCost (before ++ after) ∧
      walkCost (before ++ after) ≤ walkCost before+walkCost after+5 := by
  obtain ⟨hle,hge⟩ := routeChanges_append before after
  simp only [walkCost,List.map_append,List.sum_append]
  omega

/-! The cost of an itinerary, by the lines and routes that its steps name. -/

def stepChanges : List TravelStep → ℕ
  | step::next::steps =>
    (if step.lineId = next.lineId ∧ step.routeId = next.routeId then 0 else 1)+stepChanges (next::steps)
  | _ => 0

def stepsCost (steps : List TravelStep) : ℕ :=
  (steps.map fun step => step.travelTime.toNat).sum+5*stepChanges steps

theorem stepsCost_walkSteps (hnw : nw.Built) (h : IsWalk nw A edges B) :
    stepsCost (walkSteps A edges) = walkCost edges := by
  have htimes : (walkSteps A edges).map (fun step => step.travelTime.toNat) =
      edges.map fun edge => edge.travelTime.toNat := by
    clear h
    induction edges generalizing A with
    | nil => rfl
    | cons edge edges ih => exact congrArg _ ih
  have hchanges : stepChanges (walkSteps A edges) = routeChanges edges := by
    clear htimes
    induction edges generalizing A with
    | nil => rfl
    | cons edge edges ih =>
      cases edges with
      | nil => rfl
      | cons next edges =>
        have hroutes := hnw.ptr_eq_iff h.1 h.2.1
        have hrest := ih h.2
        simp only [walkSteps,stepChanges,routeChanges,hroutes] at hrest ⊢
        rw [hrest]
  rw [stepsCost,walkCost,htimes,hchanges]

theorem length_walkSteps (A : Id) (edges : List GraphEdge) :
    (walkSteps A edges).length = edges.length := by
  induction edges generalizing A with
  | nil => rfl
  | cons edge edges ih => exact congrArg _ (ih edge.nextStop)

/-! The reported times. -/

/-- Both stations are known, and no accumulated time of a search between them reaches `2^32`. -/
structure Searchable (lib : StdLibrary) (nw : TransportNetwork) (A B : Id) : Prop where
  start : (nw.getStation A).isSome
  finish : (nw.getStation B).isSome
  fits : A ≠ B → nw.searchFits lib (⟨A,none⟩,0) B [] = true

def fastestTime (lib : StdLibrary) (nw : TransportNetwork) (A B : Id) : Option ℕ := do
  let route ← nw.getFastestTravelRoute lib A B
  if route.steps = [] then none else some route.totalTravelTime.toNat

/-- The fastest route follows a loopless walk of least cost, unless there is no walk. -/
theorem getFastestTravelRoute_cases (hwf : nw.WellFormed) (h : Searchable lib nw A B) (hne : A ≠ B) :
    (nw.getFastestTravelRoute lib A B = some ⟨A,B,0,[]⟩ ∧ ¬∃ edges, IsWalk nw A edges B) ∨
      ∃ edges, ∃ total : UInt32, nw.getFastestTravelRoute lib A B = some ⟨A,B,total,walkSteps A edges⟩ ∧
        IsWalk nw A edges B ∧ (walkStations A edges).Nodup ∧ total.toNat = walkCost edges ∧
          IsLeast (walkCosts nw A B) (walkCost edges) := by
  have hstart : ((⟨A,none⟩,0) : PathStopDist).1.node ≠ B := hne
  obtain ⟨path,hpath,hspec⟩ := getFastestTravelRouteInternal_spec hwf hstart (h.fits hne)
  rw [getFastestTravelRoute_eq lib h.start h.finish hne,hpath,Option.bind_some]
  rcases hspec with ⟨rfl,hnone⟩ | hfast
  · exact Or.inl ⟨rfl,not_isWalk_of_unreachable hne hnone⟩
  · obtain ⟨edges,hrecords,hnodup,hleast⟩ := exists_fastest hne hfast
    have hnonempty : path ≠ [] := by
      rintro rfl
      exact absurd hfast.head (by simp)
    rw [if_neg hnonempty]
    refine Or.inr ⟨edges,pathTime path,?_,hrecords.journey.isWalk,hnodup,hrecords.time,hleast⟩
    have hsteps := travelSteps_pathFrom (⟨A,none⟩,0) edges
    rw [assembleTravelRoute,hrecords.eq,pathOf,hsteps]
    rfl

theorem getFastestTravelRoute_self (h : (nw.getStation A).isSome) :
    nw.getFastestTravelRoute lib A A = some (stayAt A) := by
  have hguard : ¬((nw.getStation A).isNone || (nw.getStation A).isNone) = true := by
    simp [Option.isSome_iff_ne_none.mp h]
  rw [getFastestTravelRoute,if_neg hguard,if_pos rfl]

theorem fastestTime_self (h : (nw.getStation A).isSome) : fastestTime lib nw A A = some 0 := by
  rw [fastestTime,getFastestTravelRoute_self h]
  rfl

/-- The reported time is the least cost of a walk. -/
theorem fastestTime_eq_some_iff (hwf : nw.WellFormed) (h : Searchable lib nw A B) :
    fastestTime lib nw A B = some t ↔ IsLeast (walkCosts nw A B) t := by
  by_cases hne : A = B
  · subst hne
    have hleast : IsLeast (walkCosts nw A A) 0 := ⟨⟨[],rfl,rfl⟩,fun _ _ => Nat.zero_le _⟩
    rw [fastestTime_self h.start]
    constructor
    · rintro ⟨⟩
      exact hleast
    · exact fun ht => congrArg some (hleast.unique ht)
  · rcases getFastestTravelRoute_cases hwf h hne with
      ⟨hroute,hnone⟩ | ⟨edges,total,hroute,hwalk,-,htotal,hleast⟩
    · simp only [fastestTime,hroute,Option.bind_eq_bind,Option.bind_some,if_true]
      constructor
      · rintro ⟨⟩
      · rintro ⟨⟨edges,hwalk,-⟩,-⟩
        exact absurd ⟨edges,hwalk⟩ hnone
    · have hsteps : walkSteps A edges ≠ [] := by
        intro hnil
        have hlength := length_walkSteps A edges
        rw [hnil] at hlength
        obtain rfl : edges = [] := List.length_eq_zero_iff.mp hlength.symm
        exact hne hwalk
      simp only [fastestTime,hroute,Option.bind_eq_bind,Option.bind_some,if_neg hsteps,htotal,
        Option.some.injEq]
      constructor
      · rintro rfl
        exact hleast
      · exact hleast.unique

theorem exists_fastestTime (hwf : nw.WellFormed) (h : Searchable lib nw A B)
    (hwalk : IsWalk nw A edges B) :
    ∃ t, fastestTime lib nw A B = some t ∧ t ≤ walkCost edges := by
  obtain ⟨t,hleast⟩ : ∃ t, IsLeast (walkCosts nw A B) t := by
    have hnonempty : (walkCosts nw A B).Nonempty := ⟨_,edges,hwalk,rfl⟩
    exact ⟨_,Nat.sInf_mem hnonempty,fun cost hcost => Nat.sInf_le hcost⟩
  exact ⟨t,(fastestTime_eq_some_iff hwf h).mpr hleast,hleast.2 ⟨edges,hwalk,rfl⟩⟩

theorem exists_loopless (hwf : nw.WellFormed) (h : Searchable lib nw A B)
    (ht : fastestTime lib nw A B = some t) :
    ∃ edges, IsWalk nw A edges B ∧ (walkStations A edges).Nodup ∧ walkCost edges = t := by
  have hleast := (fastestTime_eq_some_iff hwf h).mp ht
  by_cases hne : A = B
  · subst hne
    have hzero : t = 0 := Nat.le_zero.mp (hleast.2 ⟨[],rfl,rfl⟩)
    exact ⟨[],rfl,List.nodup_singleton A,hzero.symm⟩
  · rcases getFastestTravelRoute_cases hwf h hne with ⟨-,hnone⟩ | ⟨edges,-,-,hwalk,hnodup,-,hleast'⟩
    · obtain ⟨edges,hwalk,-⟩ := hleast.1
      exact absurd ⟨edges,hwalk⟩ hnone
    · exact ⟨edges,hwalk,hnodup,hleast'.unique hleast⟩

/-! On the way. -/

theorem exists_split_of_steps {steps later : List TravelStep} {step : TravelStep}
    (h : walkSteps A edges = steps ++ step::later) : ∃ before after, edges = before ++ after ∧
      walkSteps A before = steps ++ [step] ∧ stopAfter A before = step.endStationId := by
  induction steps generalizing A edges with
  | nil =>
    cases edges with
    | nil => cases h
    | cons edge edges =>
      obtain ⟨rfl,-⟩ := List.cons.inj h
      exact ⟨[edge],edges,rfl,rfl,rfl⟩
  | cons first steps ih =>
    cases edges with
    | nil => cases h
    | cons edge edges =>
      obtain ⟨rfl,hrest⟩ := List.cons.inj h
      obtain ⟨before,after,rfl,hsteps,hstop⟩ := ih hrest
      exact ⟨edge::before,after,rfl,congrArg _ hsteps,hstop⟩

/-- No detour over `S` is faster than the fastest route by more than a change of route, and at `S` the
fastest route is behind the fastest one to there by no more than that. -/
theorem fastestTime_via (lib : StdLibrary) (hnw : nw.Built) (hAS : Searchable lib nw A S)
    (hSB : Searchable lib nw S B) (hAB : Searchable lib nw A B) :
    (∀ s t, fastestTime lib nw A S = some s → fastestTime lib nw S B = some t →
      ∃ total, fastestTime lib nw A B = some total ∧ total ≤ s+t+5) ∧
    ∀ route steps step later, nw.getFastestTravelRoute lib A B = some route →
      route.steps = steps ++ step::later → step.endStationId = S →
        ∃ s, fastestTime lib nw A S = some s ∧ s ≤ stepsCost (steps ++ [step]) ∧
          stepsCost (steps ++ [step]) ≤ s+5 := by
  have hwf := hnw.wellFormed
  constructor
  · intro s t hs ht
    obtain ⟨before,hbefore,-,rfl⟩ := exists_loopless hwf hAS hs
    obtain ⟨after,hafter,-,rfl⟩ := exists_loopless hwf hSB ht
    obtain ⟨total,htotal,hle⟩ := exists_fastestTime hwf hAB (hbefore.append hafter)
    exact ⟨total,htotal,hle.trans (walkCost_append before after).2⟩
  · intro route steps step later hroute hsplit hstop
    by_cases hne : A = B
    · subst hne
      rw [getFastestTravelRoute_self hAB.start] at hroute
      rw [← Option.some.inj hroute,stayAt] at hsplit
      obtain ⟨rfl,rfl,-⟩ : steps = [] ∧ step = ⟨A,A,[],[],0⟩ ∧ later = [] := by
        cases steps with
        | nil => simpa [eq_comm] using hsplit
        | cons first steps => simp at hsplit
      subst hstop
      exact ⟨0,fastestTime_self hAB.start,Nat.zero_le _,Nat.zero_le _⟩
    · rcases getFastestTravelRoute_cases hwf hAB hne with
        ⟨hnone,-⟩ | ⟨edges,total,hsome,hwalk,-,-,hleast⟩
      · rw [Option.some.inj (hroute.symm.trans hnone)] at hsplit
        simp at hsplit
      · rw [Option.some.inj (hroute.symm.trans hsome)] at hsplit
        obtain ⟨before,after,rfl,hsteps,hend⟩ := exists_split_of_steps hsplit
        obtain rfl : stopAfter A before = S := hend.trans hstop
        obtain ⟨hbefore,hafter⟩ := isWalk_append.mp hwalk
        obtain ⟨s,hs,hle⟩ := exists_fastestTime hwf hAS hbefore
        rw [← hsteps,stepsCost_walkSteps hnw hbefore]
        refine ⟨s,hs,hle,?_⟩
        -- a faster way to the station would make the whole way faster
        obtain ⟨faster,hfaster,-,rfl⟩ := exists_loopless hwf hAS hs
        have htotal := hleast.2 ⟨faster ++ after,hfaster.append hafter,rfl⟩
        have hjoined := (walkCost_append before after).1
        have hother := (walkCost_append faster after).2
        omega

instance (lib : StdLibrary) (nw : TransportNetwork) (A B : Id) : Decidable (Searchable lib nw A B) :=
  decidable_of_iff ((nw.getStation A).isSome ∧ (nw.getStation B).isSome ∧
    (A ≠ B → nw.searchFits lib (⟨A,none⟩,0) B [] = true))
    ⟨fun ⟨hstart,hfinish,hfits⟩ => ⟨hstart,hfinish,hfits⟩,fun h => ⟨h.start,h.finish,h.fits⟩⟩

/-- At `X` the fastest route to `B` is no later than a detour allows. -/
theorem fastestTime_via_change :
    (∃ total, fastestTime .simple (networkOf changeCalls) (ascii "A") (ascii "B") = some total ∧
      total ≤ 3+4+5) ∧
    ∃ route step later, (networkOf changeCalls).getFastestTravelRoute .simple (ascii "A") (ascii "B") =
        some route ∧ route.steps = step::later ∧ step.endStationId = ascii "X" ∧
      ∃ s, fastestTime .simple (networkOf changeCalls) (ascii "A") (ascii "X") = some s ∧
        s ≤ stepsCost [step] ∧ stepsCost [step] ≤ s+5 := by
  obtain ⟨hdetour,hway⟩ := fastestTime_via (A := ascii "A") (S := ascii "X") (B := ascii "B") .simple
    (built_networkOf changeCalls) (by decide +kernel) (by decide +kernel) (by decide +kernel)
  have hroute : (networkOf changeCalls).getFastestTravelRoute .simple (ascii "A") (ascii "B") =
      some ⟨ascii "A",ascii "B",12,walkSteps (ascii "A") [redEdge,blueEdge]⟩ := by decide +kernel
  exact ⟨hdetour 3 4 (by decide +kernel) (by decide +kernel),_,_,_,hroute,rfl,rfl,
    hway _ [] _ _ hroute rfl rfl⟩

/-! Networks that grow. -/

namespace TransportNetwork

/-- A call that takes nothing away and changes no travel time. -/
def Call.grows : Call → Bool
  | .setTravelTime _ _ _ => false
  | .addStation _ | .addLine _ | .recordPassengerEvent _ => true

abbrev Grows : TransportNetwork → TransportNetwork → Prop := Relation.ReflTransGen fun nw nw' =>
  ∃ c : Call, c.grows = true ∧ c.distinctStops = true ∧ nw.run c = some (true,nw')

/-- Stations, lines and edges are kept, and new edges are of new lines. -/
structure Grown (nw nw' : TransportNetwork) : Prop where
  line : ∀ lineId, nw'.getLine lineId = none → nw.getLine lineId = none
  kept : ∀ S, ∀ e ∈ nw.edgesFrom S, e ∈ nw'.edgesFrom S
  new : ∀ S, ∀ e ∈ nw'.edgesFrom S, e ∈ nw.edgesFrom S ∨ nw.getLine e.route.line = none

theorem Grown.trans {next : TransportNetwork} (h : Grown nw next) (h' : Grown next nw') :
    Grown nw nw' where
  line lineId hnone := h.line lineId (h'.line lineId hnone)
  kept S e he := h'.kept S e (h.kept S e he)
  new S e he := by
    rcases h'.new S e he with hold | hnew
    · exact h.new S e hold
    · exact Or.inr (h.line _ hnew)

theorem Grown.of_same (hlines : nw'.lines = nw.lines) (hedges : ∀ S, nw'.edgesFrom S = nw.edgesFrom S) :
    Grown nw nw' where
  line lineId hnone := by rwa [getLine,← hlines]
  kept S e he := hedges S ▸ he
  new S e he := Or.inl (hedges S ▸ he)

theorem getLine_addLine {line : Line} (h : nw.addLine line = some (true,nw')) :
    nw.getLine line.id = none ∧ ∀ lineId, nw'.getLine lineId = none → nw.getLine lineId = none := by
  rw [addLine] at h
  split_ifs at h with hdup
  · cases congrArg Prod.fst (Option.some.inj h)
  · have hnone : nw.getLine line.id = none := by simpa using hdup
    refine ⟨hnone,fun lineId hnew => ?_⟩
    split at h
    · cases h
    · cases congrArg Prod.fst (Option.some.inj h)
    · rename_i next lineInternal hroutes
      obtain rfl := (Prod.mk.inj (Option.some.inj h)).2
      rw [getLine,UnorderedMap.find_emplace,lines_addRoutes hroutes] at hnew
      split_ifs at hnew
      exact hnew

theorem grown_addLine {line : Line} (h : nw.addLine line = some (true,nw')) : Grown nw nw' := by
  obtain ⟨hline,hlines⟩ := getLine_addLine h
  obtain ⟨new,hmakes,-⟩ := makes_addLine h
  refine ⟨hlines,fun S e he => ?_,fun S e he => ?_⟩
  · rw [hmakes.edgesFrom_eq]
    exact List.mem_append_left _ he
  · rw [hmakes.edgesFrom_eq] at he
    rcases List.mem_append.mp he with hold | hnew
    · exact Or.inl hold
    · obtain ⟨route,hroute,hleaving⟩ := List.mem_flatMap.mp hnew
      have hview := List.mem_map_of_mem (f := fun e => tableView ((line.id,e.1),e.2)) hroute
      rw [hmakes.view] at hview
      obtain ⟨added,-,heq⟩ := List.mem_map.mp hview
      simp only [tableView,Prod.mk.injEq] at heq
      rw [(mem_leavingEdges hleaving).1,← heq.2.1]
      exact Or.inr hline

theorem grown_of_grows (h : Grows nw nw') : Grown nw nw' := by
  induction h with
  | refl => exact .of_same rfl fun _ => rfl
  | tail _ hcall ih =>
    obtain ⟨c,hgrows,-,hrun⟩ := hcall
    refine ih.trans ?_
    cases c with
    | addStation station =>
      obtain rfl : (TransportNetwork.addStation _ station).2 = _ :=
        congrArg Prod.snd (Option.some.inj hrun)
      exact .of_same (lines_addStation _ _) (edgesFrom_addStation _ _)
    | addLine line => exact grown_addLine hrun
    | setTravelTime => cases hgrows
    | recordPassengerEvent event =>
      obtain rfl : (TransportNetwork.recordPassengerEvent _ event).2 = _ :=
        congrArg Prod.snd (Option.some.inj hrun)
      exact .of_same (lines_recordPassengerEvent _ _) (edgesFrom_recordPassengerEvent _ _)

theorem grows_of_build {calls : List Call} (hcalls : ∀ c ∈ calls, c.grows = true)
    (h : nw.build calls = some nw') : Grows nw nw' := by
  induction calls generalizing nw with
  | nil => exact Option.some.inj h ▸ .refl
  | cons c calls ih =>
    rw [build] at h
    split at h
    · rename_i next hrun
      split_ifs at h with hdistinct
      exact .head ⟨c,hcalls c List.mem_cons_self,hdistinct,hrun⟩
        (ih (fun c' hmem => hcalls c' (List.mem_cons_of_mem _ hmem)) h)
    · cases h

theorem Grows.built (h : Grows nw nw') (hnw : nw.Built) : nw'.Built := by
  induction h with
  | refl => exact hnw
  | tail _ hcall ih =>
    obtain ⟨c,-,hdistinct,hrun⟩ := hcall
    exact ih.call c hdistinct hrun

end TransportNetwork

theorem isWalk_of_kept (h : ∀ S, ∀ e ∈ nw.edgesFrom S, e ∈ nw'.edgesFrom S)
    (hwalk : IsWalk nw A edges B) : IsWalk nw' A edges B := by
  induction edges generalizing A with
  | nil => exact hwalk
  | cons edge edges ih => exact ⟨h A edge hwalk.1,ih hwalk.2⟩

theorem isWalk_or_new (h : Grown nw nw') (hwalk : IsWalk nw' A edges B) :
    IsWalk nw A edges B ∨ ∃ step ∈ walkSteps A edges, nw.getLine step.lineId = none := by
  induction edges generalizing A with
  | nil => exact Or.inl hwalk
  | cons edge edges ih =>
    rcases h.new A edge hwalk.1 with hold | hnew
    · rcases ih hwalk.2 with hrest | ⟨step,hmem,hline⟩
      · exact Or.inl ⟨hold,hrest⟩
      · exact Or.inr ⟨step,List.mem_cons_of_mem _ hmem,hline⟩
    · exact Or.inr ⟨_,List.mem_cons_self,hnew⟩

/-- New stations and lines never slow anybody down, and who is faster then takes a new line. -/
theorem fastestTime_grows (lib lib' : StdLibrary) (hnw : nw.Built) (hgrows : Grows nw nw')
    (h : Searchable lib nw A B) (h' : Searchable lib' nw' A B) (ht : fastestTime lib nw A B = some t) :
    ∃ t', fastestTime lib' nw' A B = some t' ∧ t' ≤ t ∧ (t' < t →
      ∃ route, nw'.getFastestTravelRoute lib' A B = some route ∧
        ∃ step ∈ route.steps, nw.getLine step.lineId = none) := by
  have hgrown := grown_of_grows hgrows
  have hwf' := (hgrows.built hnw).wellFormed
  obtain ⟨edges,hwalk,-,rfl⟩ := exists_loopless hnw.wellFormed h ht
  obtain ⟨t',ht',hle⟩ := exists_fastestTime hwf' h' (isWalk_of_kept hgrown.kept hwalk)
  refine ⟨t',ht',hle,fun hfaster => ?_⟩
  have hne : A ≠ B := by
    rintro rfl
    rw [fastestTime_self h.start] at ht
    exact Nat.not_lt_zero _ (Option.some.inj ht ▸ hfaster)
  have hleast' := (fastestTime_eq_some_iff hwf' h').mp ht'
  rcases getFastestTravelRoute_cases hwf' h' hne with
    ⟨-,hnone⟩ | ⟨edges',total,hroute,hwalk',-,-,hbest⟩
  · exact absurd ⟨edges,isWalk_of_kept hgrown.kept hwalk⟩ hnone
  · refine ⟨_,hroute,(isWalk_or_new hgrown hwalk').resolve_left fun hold => ?_⟩
    have hslow := ((fastestTime_eq_some_iff hnw.wellFormed h).mp ht).2 ⟨edges',hold,rfl⟩
    have hsame := hbest.unique hleast'
    omega

/-- Another line between the same stations, whose times are not set yet. -/
def parallelCalls : List Call :=
  [.addLine ⟨ascii "grey",[],[⟨ascii "p",[],ascii "grey",ascii "A",ascii "B",[ascii "A",ascii "B"]⟩]⟩]

/-- The new line is faster, and taken. -/
theorem fastestTime_grows_parallel : ∃ nw', (networkOf changeCalls).build parallelCalls = some nw' ∧
    ∃ t', fastestTime .simple nw' (ascii "A") (ascii "B") = some t' ∧ t' < 12 ∧
      ∃ route, nw'.getFastestTravelRoute .simple (ascii "A") (ascii "B") = some route ∧
        ∃ step ∈ route.steps, (networkOf changeCalls).getLine step.lineId = none := by
  have hany : ((networkOf changeCalls).build parallelCalls).any fun nw' =>
      Searchable .simple nw' (ascii "A") (ascii "B") ∧
        fastestTime .simple nw' (ascii "A") (ascii "B") = some 0 := by decide +kernel
  obtain ⟨nw',hbuild,hnew⟩ := (Option.any_eq_true _ _).mp hany
  obtain ⟨hsearchable,htime⟩ := of_decide_eq_true hnew
  obtain ⟨t',ht',-,hroute⟩ := fastestTime_grows .simple .simple (built_networkOf changeCalls)
    (grows_of_build (by decide) hbuild) (by decide +kernel) hsearchable
    (by decide +kernel : fastestTime .simple (networkOf changeCalls) (ascii "A") (ascii "B") = some 12)
  have hfaster : t' < 12 := by
    rw [← Option.some.inj (htime.symm.trans ht')]
    decide
  exact ⟨nw',hbuild,t',ht',hfaster,hroute hfaster⟩

/-! A new travel time between two stations. -/

section NewTime

variable {C D : Id} {old new : UInt32}

/-- An edge that leaves `S`, with the new time if it joins `C` and `D`. -/
def retimed (C D : Id) (new : UInt32) (S : Id) (edge : GraphEdge) : GraphEdge :=
  if s(S,edge.nextStop) = s(C,D) then {edge with travelTime := new} else edge

def retime (C D : Id) (new : UInt32) : Id → List GraphEdge → List GraphEdge
  | _, [] => []
  | S, edge::edges => retimed C D new S edge::retime C D new edge.nextStop edges

@[simp] theorem nextStop_retimed (S : Id) (edge : GraphEdge) :
    (retimed C D new S edge).nextStop = edge.nextStop := by
  rw [retimed]
  split_ifs <;> rfl

@[simp] theorem route_retimed (S : Id) (edge : GraphEdge) :
    (retimed C D new S edge).route = edge.route := by
  rw [retimed]
  split_ifs <;> rfl

@[simp] theorem routeChanges_retime (A : Id) (edges : List GraphEdge) :
    routeChanges (retime C D new A edges) = routeChanges edges := by
  induction edges generalizing A with
  | nil => rfl
  | cons edge edges ih =>
    cases edges with
    | nil => rfl
    | cons next edges =>
      have hrest := ih edge.nextStop
      simp only [retime,routeChanges,route_retimed] at hrest ⊢
      rw [hrest]

@[simp] theorem walkStations_retime (A : Id) (edges : List GraphEdge) :
    walkStations A (retime C D new A edges) = walkStations A edges := by
  induction edges generalizing A with
  | nil => rfl
  | cons edge edges ih =>
    have hrest := ih edge.nextStop
    simp only [walkStations,retime,List.map_cons,nextStop_retimed] at hrest ⊢
    rw [hrest]

theorem isWalk_retime (hedges : ∀ S, nw'.edgesFrom S = (nw.edgesFrom S).map (retimed C D new S)) :
    IsWalk nw' A before B ↔ ∃ edges, before = retime C D new A edges ∧ IsWalk nw A edges B := by
  induction before generalizing A with
  | nil =>
    constructor
    · exact fun h => ⟨[],rfl,h⟩
    · rintro ⟨edges,heq,h⟩
      cases edges with
      | nil => exact h
      | cons edge edges => cases heq
  | cons next before ih =>
    constructor
    · rintro ⟨hnext,hrest⟩
      rw [hedges] at hnext
      obtain ⟨edge,hedge,rfl⟩ := List.mem_map.mp hnext
      rw [nextStop_retimed] at hrest
      obtain ⟨edges,rfl,hwalk⟩ := ih.mp hrest
      exact ⟨edge::edges,rfl,hedge,hwalk⟩
    · rintro ⟨edges,heq,h⟩
      cases edges with
      | nil => cases heq
      | cons edge edges =>
        obtain ⟨rfl,rfl⟩ := List.cons.inj heq
        refine ⟨hedges A ▸ List.mem_map_of_mem h.1,?_⟩
        rw [nextStop_retimed]
        exact ih.mpr ⟨edges,rfl,h.2⟩

theorem retime_of_notMem (hpair : S = C ∨ S = D) (hS : S ∉ walkStations A edges) :
    retime C D new A edges = edges := by
  induction edges generalizing A with
  | nil => rfl
  | cons edge edges ih =>
    simp only [walkStations,List.map_cons,List.mem_cons,not_or] at hS
    obtain ⟨hA,hnext,hrest⟩ := hS
    have hother : s(A,edge.nextStop) ≠ s(C,D) := by
      intro heq
      rcases Sym2.eq_iff.mp heq with ⟨rfl,rfl⟩ | ⟨rfl,rfl⟩
      · exact hpair.elim hA hnext
      · exact hpair.elim hnext hA
    rw [retime,retimed,if_neg hother,ih (by simp [walkStations,hnext,hrest])]

theorem walkCost_retime (hold : ∀ S, ∀ e ∈ nw.edgesFrom S, s(S,e.nextStop) = s(C,D) → e.travelTime = old)
    (hwalk : IsWalk nw A edges B) (hnodup : (walkStations A edges).Nodup) :
    walkCost (retime C D new A edges) ≤ walkCost edges+(new.toNat-old.toNat) ∧
      walkCost edges ≤ walkCost (retime C D new A edges)+(old.toNat-new.toNat) := by
  have htimes : ((retime C D new A edges).map fun edge => edge.travelTime.toNat).sum ≤
      (edges.map fun edge => edge.travelTime.toNat).sum+(new.toNat-old.toNat) ∧
      (edges.map fun edge => edge.travelTime.toNat).sum ≤
        ((retime C D new A edges).map fun edge => edge.travelTime.toNat).sum+(old.toNat-new.toNat) := by
    induction edges generalizing A with
    | nil => exact ⟨Nat.zero_le _,Nat.zero_le _⟩
    | cons edge edges ih =>
      obtain ⟨hA,hrest⟩ := List.nodup_cons.mp hnodup
      by_cases hpair : s(A,edge.nextStop) = s(C,D)
      · have hside : A = C ∨ A = D := by
          rcases Sym2.eq_iff.mp hpair with ⟨rfl,-⟩ | ⟨rfl,-⟩
          · exact Or.inl rfl
          · exact Or.inr rfl
        rw [retime,retime_of_notMem hside hA,retimed,if_pos hpair]
        simp only [List.map_cons,List.sum_cons,hold A edge hwalk.1 hpair]
        omega
      · obtain ⟨hmore,hless⟩ := ih hwalk.2 hrest
        rw [retime,retimed,if_neg hpair]
        simp only [List.map_cons,List.sum_cons]
        omega
  simp only [walkCost,routeChanges_retime]
  omega

/-- A new travel time between two stations changes no fastest time by more than it changes itself. -/
theorem fastestTime_setTravelTime (lib lib' : StdLibrary) (hnw : nw.Built)
    (hold : ∀ S, ∀ e ∈ nw.edgesFrom S, s(S,e.nextStop) = s(C,D) → e.travelTime = old)
    (h : Searchable lib nw A B) (h' : Searchable lib' (nw.setTravelTime C D new).2 A B)
    (ht : fastestTime lib nw A B = some t) :
    ∃ t', fastestTime lib' (nw.setTravelTime C D new).2 A B = some t' ∧
      t' ≤ t+(new.toNat-old.toNat) ∧ t ≤ t'+(old.toNat-new.toNat) := by
  have hwf := hnw.wellFormed
  by_cases hknown : (nw.getStation C).isSome ∧ (nw.getStation D).isSome
  · have hwf' := hwf.setTravelTime C D new
    have hedges : ∀ S, (nw.setTravelTime C D new).2.edgesFrom S =
        (nw.edgesFrom S).map (retimed C D new S) := edgesFrom_setTravelTime hknown.1 hknown.2 new
    obtain ⟨edges,hwalk,hnodup,rfl⟩ := exists_loopless hwf h ht
    obtain ⟨t',ht',hle⟩ := exists_fastestTime hwf' h' ((isWalk_retime hedges).mpr ⟨edges,rfl,hwalk⟩)
    refine ⟨t',ht',hle.trans (walkCost_retime hold hwalk hnodup).1,?_⟩
    obtain ⟨best,hbest,hnodup',rfl⟩ := exists_loopless hwf' h' ht'
    obtain ⟨edges',rfl,hwalk'⟩ := (isWalk_retime hedges).mp hbest
    rw [walkStations_retime] at hnodup'
    have hleast := ((fastestTime_eq_some_iff hwf h).mp ht).2 ⟨edges',hwalk',rfl⟩
    exact hleast.trans (walkCost_retime hold hwalk' hnodup').2
  · rw [congrArg Prod.snd (setTravelTime_unknown hknown new)] at h' ⊢
    have hleast := (fastestTime_eq_some_iff hwf h).mp ht
    exact ⟨t,(fastestTime_eq_some_iff hwf h').mpr hleast,Nat.le_add_right _ _,Nat.le_add_right _ _⟩

/-- Eleven minutes more between `X` and `B`, which the yellow line goes round in three more. -/
theorem fastestTime_setTravelTime_change : ∃ t', fastestTime .simple
    ((networkOf changeCalls).setTravelTime (ascii "X") (ascii "B") 15).2 (ascii "A") (ascii "B") =
      some t' ∧ t' = 15 ∧ t' ≤ 12+(15-4) ∧ 12 ≤ t'+(4-15) := by
  have hold : ∀ S, ∀ e ∈ (networkOf changeCalls).edgesFrom S,
      s(S,e.nextStop) = s(ascii "X",ascii "B") → e.travelTime = 4 := by
    intro S e he
    have hall : ∀ entry ∈ (networkOf changeCalls).stations.entries, ∀ e ∈ entry.2.edges,
      s(entry.1,e.nextStop) = s(ascii "X",ascii "B") → e.travelTime = 4 := by decide +kernel
    obtain ⟨node,hnode,hedge⟩ := exists_entry_of_edge he
    exact hall _ hnode e hedge
  have hnew : fastestTime .simple ((networkOf changeCalls).setTravelTime (ascii "X") (ascii "B") 15).2
      (ascii "A") (ascii "B") = some 15 := by decide +kernel
  obtain ⟨t',ht',hbounds⟩ := fastestTime_setTravelTime .simple .simple (built_networkOf changeCalls)
    hold (by decide +kernel) (by decide +kernel : Searchable .simple
      ((networkOf changeCalls).setTravelTime (ascii "X") (ascii "B") 15).2 (ascii "A") (ascii "B"))
    (by decide +kernel : fastestTime .simple (networkOf changeCalls) (ascii "A") (ascii "B") = some 12)
  exact ⟨t',ht',Option.some.inj (ht'.symm.trans hnew),hbounds⟩

end NewTime
end QuietRoute
