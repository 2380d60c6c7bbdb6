import QuietRoute.Network.SoundPaths
import QuietRoute.Network.MissedPaths
import Mathlib.Data.Set.Finite.List
import Mathlib.Data.Set.List

/-! The enumeration ends by itself. A walk that stays on one route is no longer than the route,
and a change costs five minutes, so that finitely many walks keep a time limit; every iteration
finds a new one of them. -/
namespace QuietRoute

open BestFirst TransportNetwork

variable {lib : StdLibrary} {cast : UnsignedCast} {check : SpurCheck} {nw : TransportNetwork} {A B : Id}
  {q : ℚ} {K T : ℕ} {st st' : Enumeration} {walk : List GraphEdge}

theorem finite_edges (nw : TransportNetwork) : {edge | ∃ S, edge ∈ nw.edgesFrom S}.Finite := by
  have hlist := (nw.stations.entries.flatMap fun e => e.2.edges).finite_toSet
  refine hlist.subset ?_
  rintro edge ⟨S,hedge⟩
  obtain ⟨node,hmem,hnode⟩ := exists_entry_of_edge hedge
  exact List.mem_flatMap.mpr ⟨(S,node),hmem,hnode⟩

theorem exists_longest_route (nw : TransportNetwork) :
    ∃ longest, ∀ S, ∀ edge ∈ nw.edgesFrom S, edge.route.stops.length ≤ longest := by
  have himage := (finite_edges nw).image fun edge => edge.route.stops.length
  obtain ⟨longest,hlongest⟩ := himage.bddAbove
  exact ⟨longest,fun S edge hedge => hlongest ⟨edge,⟨S,hedge⟩,rfl⟩⟩

/-- The edges of a walk, with the hops made on its first route before, fill one route for every
change and one more. -/
theorem length_add_hop_le (hwf : nw.WellFormed) {longest : ℕ}
    (hlongest : ∀ S, ∀ edge ∈ nw.edgesFrom S, edge.route.stops.length ≤ longest)
    {edge : GraphEdge} (h : IsWalk nw A (edge::walk) B) :
    (edge::walk).length+edge.hop ≤ (routeChanges (edge::walk)+1)*longest := by
  induction walk generalizing A edge with
  | nil =>
    have hhop := (List.getElem?_eq_some_iff.mp (hwf.hop A edge h.1).1).1
    have hlong := hlongest A edge h.1
    simp only [List.length_cons,List.length_nil,routeChanges,Nat.zero_add,Nat.one_mul]
    omega
  | cons next walk ih =>
    have hrest := ih h.2
    have hhop := (List.getElem?_eq_some_iff.mp (hwf.hop A edge h.1).1).1
    have hlong := hlongest A edge h.1
    by_cases hptr : edge.route.ptr = next.route.ptr
    · have hpos := hop_succ_of_same_route hwf h.1 h.2.1 hptr
      simp only [routeChanges,if_pos hptr,List.length_cons,Nat.zero_add] at hrest ⊢
      omega
    · have hmul : (1+routeChanges (next::walk)+1)*longest =
          (routeChanges (next::walk)+1)*longest+longest := by ring
      simp only [routeChanges,if_neg hptr]
      rw [hmul]
      simp only [List.length_cons] at hrest ⊢
      omega

theorem finite_walks (hwf : nw.WellFormed) (A B : Id) (c : ℕ) :
    {walk | IsWalk nw A walk B ∧ walkCost walk ≤ c}.Finite := by
  obtain ⟨longest,hlongest⟩ := exists_longest_route nw
  have hedges := (finite_edges nw).to_subtype
  have hshort := (List.finite_length_le {edge | ∃ S, edge ∈ nw.edgesFrom S}
    ((c+1)*longest)).image (List.map Subtype.val)
  refine hshort.subset ?_
  rintro walk ⟨hwalk,hcost⟩
  have hlen : walk.length ≤ (c+1)*longest := by
    cases walk with
    | nil => exact Nat.zero_le _
    | cons edge walk =>
      have hfill := length_add_hop_le hwf hlongest hwalk
      have hchanges : routeChanges (edge::walk) ≤ c := by
        unfold walkCost at hcost
        omega
      have hmul := Nat.mul_le_mul_right longest (Nat.succ_le_succ hchanges)
      exact (Nat.le_add_right _ _).trans (hfill.trans hmul)
  have hmem : walk ∈ Set.range (List.map ((↑) : {edge | ∃ S, edge ∈ nw.edgesFrom S} → GraphEdge)) := by
    rw [Set.range_list_map_coe]
    intro edge hedge
    obtain ⟨S,-,hS⟩ := exists_source hwalk hedge
    exact ⟨S,hS⟩
  obtain ⟨edges,rfl⟩ := hmem
  rw [List.length_map] at hlen
  exact ⟨edges,hlen,rfl⟩

theorem length_le_of_foundWithin {fastestPath : Path} {c : ℕ} {walks : Finset (List GraphEdge)}
    (hwalks : ∀ walk, IsWalk nw A walk B → walkCost walk ≤ c → walk ∈ walks)
    (hfirst : (pathTime fastestPath).toNat ≤ c) (hT : T ≤ c) (hstored : Stored nw A B st)
    (h : FoundWithin T fastestPath st) : st.1.length ≤ walks.card := by
  have hedges : ∀ path ∈ st.1, path = pathOf A (pathEdges path) ∧ pathEdges path ∈ walks := by
    intro path hpath
    obtain ⟨edges,hrec⟩ := hstored.1 path hpath
    have hle : (pathTime path).toNat ≤ c := by
      rcases h.within path hpath with rfl | hle
      · exact hfirst
      · exact hle.trans hT
    rw [hrec.time] at hle
    rw [hrec.eq,pathEdges_pathOf]
    exact ⟨rfl,hwalks edges hrec.journey.isWalk hle⟩
  have hnodup : (st.1.map pathEdges).Nodup := by
    refine h.nodup.map_on fun path hpath path' hpath' heq => ?_
    rw [(hedges path hpath).1,(hedges path' hpath').1,heq]
  have hcard := List.toFinset_card_of_nodup hnodup
  rw [List.length_map] at hcard
  rw [← hcard]
  refine Finset.card_le_card fun walk hwalk => ?_
  obtain ⟨path,hpath,rfl⟩ := List.mem_map.mp (List.mem_toFinset.mp hwalk)
  exact (hedges path hpath).2

/-- An enumeration that stops short of the wanted number of paths does not depend on it. -/
theorem enumeration_stop {maxTravelTime : UInt32} {wanted wanted' : ℕ} (hle : wanted ≤ wanted')
    {fastestPaths paths : List Path} {potentialPaths : lib.pathQueue.Queue}
    (h : nw.enumeratePaths lib B maxTravelTime wanted fastestPaths potentialPaths = some paths)
    (hlen : paths.length < fastestPaths.length+wanted) :
    nw.enumeratePaths lib B maxTravelTime wanted' fastestPaths potentialPaths = some paths ∧
      nw.enumerationPasses lib check B maxTravelTime wanted' fastestPaths potentialPaths =
        nw.enumerationPasses lib check B maxTravelTime wanted fastestPaths potentialPaths := by
  induction wanted generalizing wanted' fastestPaths potentialPaths with
  | zero =>
    rw [← Option.some.inj h] at hlen
    exact absurd hlen (lt_irrefl _)
  | succ wanted ih =>
    obtain ⟨more,rfl⟩ : ∃ more, wanted' = more+1 := ⟨wanted'-1,by omega⟩
    obtain ⟨last,hlast,hrest⟩ := Option.bind_eq_some_iff.mp h
    obtain ⟨queue,hqueue,hselect⟩ := Option.bind_eq_some_iff.mp hrest
    simp only [enumeratePaths,enumerationPasses,hlast,hqueue,Option.bind_eq_bind,Option.bind_some,
      Option.all_some]
    cases hkth : selectKthPath lib maxTravelTime fastestPaths (lib.pathQueue.elems queue).card
        queue with
    | none =>
      rw [hkth] at hselect
      exact ⟨hselect,rfl⟩
    | some kthPath =>
      rw [hkth] at hselect
      have hlen' : paths.length < (fastestPaths ++ [kthPath.1]).length+wanted := by
        rw [List.length_append,List.length_singleton]
        omega
      obtain ⟨hpaths,hfits⟩ := ih (Nat.le_of_succ_le_succ hle) hselect hlen'
      exact ⟨hpaths,by rw [Option.all_some,Option.all_some,hfits]⟩

theorem getFastestTravelRoutesWith_stop {K' : ℕ} (hle : K ≤ K') {paths : List Path}
    (h : nw.getFastestTravelRoutesWith lib cast A B q K = some paths) (hlen : paths.length < K) :
    nw.getFastestTravelRoutesWith lib cast A B q K' = some paths ∧
      nw.routesFitWith lib cast A B q K' = nw.routesFitWith lib cast A B q K := by
  obtain ⟨fastestPath,hpath,hrest⟩ := Option.bind_eq_some_iff.mp h
  simp only [getFastestTravelRoutesWith,routesFitWith,routesPass,hpath,Option.bind_eq_bind,
    Option.bind_some,Option.all_some]
  by_cases hnil : fastestPath = []
  · rw [if_pos hnil] at hrest
    exact ⟨by rw [if_pos hnil]; exact hrest,by simp [hnil]⟩
  · rw [if_neg hnil] at hrest ⊢
    have hlen' : paths.length < [fastestPath].length+(K-1) := by
      rw [List.length_singleton]
      omega
    obtain ⟨hpaths,hfits⟩ := enumeration_stop (Nat.sub_le_sub_right hle 1) hrest hlen'
    exact ⟨hpaths,by rw [hfits]⟩

/-- The searches empty their queue, and the enumeration finds no more than a number of paths that
does not depend on how many are wanted. If more are wanted, its loop ends by the break. -/
theorem getFastestTravelRoutes_terminates (lib : StdLibrary) (cast : UnsignedCast) (hnw : nw.Built)
    (hne : A ≠ B) (q : ℚ) :
    (∀ stopA excludedStops,
      lib.stopQueue.elems (nw.search lib stopA B excludedStops).nodesToVisit = 0) ∧
    ∃ bound, ∀ K, nw.routesFitWith lib cast A B q K = true →
      ∃ paths, nw.getFastestTravelRoutesWith lib cast A B q K = some paths ∧
        paths.length ≤ bound ∧ (bound < K → ∀ K', K ≤ K' →
          nw.getFastestTravelRoutesWith lib cast A B q K' = some paths) := by
  refine ⟨fun stopA excludedStops => search_done lib nw stopA B excludedStops,?_⟩
  have hwf := hnw.wellFormed
  set fastestTime := pathTime
    ((nw.getFastestTravelRouteInternal lib (⟨A,none⟩,0) B []).getD []) with hfastest
  have hfinite := finite_walks hwf A B
    (max fastestTime.toNat (cast.convert (lib.rounding.product fastestTime.toNat (1+q))).toNat)
  refine ⟨hfinite.toFinset.card,fun K hfits => ?_⟩
  rcases getFastestTravelRoutesWith_run hwf hne hfits (Bool.and_eq_true_iff.mp hfits).2 with
    ⟨hpaths,-⟩ | ⟨fastestPath,first,paths,queue,hinternal,hrec,-,-,hpaths,hrun,-⟩
  · refine ⟨[],hpaths,Nat.zero_le _,fun hK K' hle => ?_⟩
    exact (getFastestTravelRoutesWith_stop hle hpaths (Nat.zero_lt_of_lt hK)).1
  · rw [hinternal,Option.getD_some] at hfastest
    simp only [← hfastest] at hrun
    have hinit : Stored nw A B ([fastestPath],0) := ⟨by simpa using ⟨first,hrec⟩,by simp⟩
    have hfound := (FoundWithin.start _ fastestPath).run hrun
    have hlen := length_le_of_foundWithin
      (fun walk hwalk hcost => hfinite.mem_toFinset.mpr ⟨hwalk,hcost⟩)
      (hfastest ▸ le_max_left _ _) (le_max_right _ _) (hinit.run hrun) hfound
    refine ⟨paths,hpaths,hlen,fun hK K' hle => ?_⟩
    exact (getFastestTravelRoutesWith_stop hle hpaths (hlen.trans_lt hK)).1

/-- Three ways are found, however many are wanted. -/
theorem getFastestTravelRoutes_terminates_branching : ∃ K paths, 3 ≤ paths.length ∧ ∀ K', K ≤ K' →
    (networkOf branchingCalls).getFastestTravelRoutesWith .simple .toZero (ascii "A") (ascii "B") 4 K' =
      some paths := by
  obtain ⟨-,bound,hbound⟩ := getFastestTravelRoutes_terminates .simple .toZero
    (built_networkOf branchingCalls) (A:=ascii "A") (B:=ascii "B") (by decide) 4
  have hshort : ((networkOf branchingCalls).getFastestTravelRoutesWith .simple .toZero (ascii "A")
      (ascii "B") 4 4).any fun paths => paths.length = 3 := by
    decide +kernel
  obtain ⟨paths,hpaths,hthree⟩ := (Option.any_eq_true _ _).mp hshort
  rw [decide_eq_true_eq] at hthree
  have hlen : paths.length < 4 := by omega
  obtain ⟨hmore,hfits⟩ := getFastestTravelRoutesWith_stop (le_max_right (bound+1) 4) hpaths hlen
  obtain ⟨found,hfound,-,hstop⟩ := hbound (max (bound+1) 4) (hfits.trans (by decide +kernel))
  obtain rfl := Option.some.inj (hmore.symm.trans hfound)
  exact ⟨max (bound+1) 4,paths,hthree.ge,hstop (Nat.lt_of_succ_le (le_max_left (bound+1) 4))⟩

end QuietRoute
