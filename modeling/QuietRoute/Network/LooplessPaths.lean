import QuietRoute.Network.PathEnumeration
import QuietRoute.Network.FastestRoute
import QuietRoute.Network.Crowding

/-! When all recommended routes are loopless. A spur search is not kept off the stations of its root
path; a route repeats a station if one comes back there within the time limit. -/
namespace QuietRoute

open TransportNetwork

/-- The spur search, if it keeps the limit, does not come back to a station of the root path. -/
def TransportNetwork.spurKeepsOff (lib : StdLibrary) (nw : TransportNetwork) (stationB : Id)
    (maxTravelTime : UInt32) : SpurCheck :=
  fun fastestPaths lastFastestPath idx spurNode =>
    (nw.getFastestTravelRouteInternal lib spurNode stationB
      (removedStops fastestPaths lastFastestPath idx)).all fun spurPath =>
        maxTravelTime < pathTime spurPath ||
          spurPath.all fun stop => !((lastFastestPath.take idx).map (·.1.node)).contains stop.1.node

variable {lib : StdLibrary} {cast : UnsignedCast} {nw : TransportNetwork} {A B : Id} {q : ℚ} {K : ℕ}
  {maxTravelTime : UInt32} {st st' : Enumeration} {last candidate : List GraphEdge} {idx : ℕ}
  {path : Path} {fastestPaths paths : List Path}

theorem pathTime_append (root : Path) {spurPath : Path} (hsome : spurPath ≠ []) :
    pathTime (root ++ spurPath) = pathTime spurPath := by
  rw [pathTime,pathTime,List.getLast?_append_of_ne_nil root hsome]

/-! Then the routes are loopless. -/

theorem Queues.loopless (h : Queues lib nw A B fastestPaths last idx path candidate)
    (hlast : IsJourney nw B A last) (hidx : idx < last.length) (hloop : (walkStations A last).Nodup)
    (hcheck : nw.spurKeepsOff lib B maxTravelTime fastestPaths (pathOf A last) idx
      (spurStop A last idx) = true) :
    maxTravelTime < pathTime path ∨ (walkStations A candidate).Nodup := by
  have hroot := h.deviation.root
  have hlong : idx < candidate.length := by
    rw [h.deviation.journey.lt_length_iff,hroot]
    exact hlast.lt_length_iff.mp hidx
  have hpath := @take_pathOf_append A last idx hidx.le (candidate.drop idx)
  rw [← hroot,List.take_append_drop] at hpath
  have htime : pathTime path = pathTime (pathFrom (spurStop A last idx) (candidate.drop idx)) := by
    have hsome : pathFrom (spurStop A last idx) (candidate.drop idx) ≠ [] := by
      rw [← List.length_pos_iff,length_pathFrom]
      exact Nat.succ_pos _
    rw [h.eq,← hpath,pathTime_append _ hsome]
  rw [spurKeepsOff,h.search,Option.all_some,Bool.or_eq_true,decide_eq_true_eq,List.all_eq_true,
    ← htime] at hcheck
  refine hcheck.imp_right fun hoff => ?_
  rw [map_node_take_pathOf] at hoff
  rw [walkStations_split A hlong.le,take_walkStations_congr A hroot,hroot]
  refine List.Nodup.append ((List.take_sublist idx _).nodup hloop) h.deviation.loopless ?_
  intro S hS hrest
  rw [← node_spurStop,← map_node_pathFrom] at hrest
  obtain ⟨stop,hstop,rfl⟩ := List.mem_map.mp hrest
  simpa [hS] using hoff stop hstop

/-- The paths found are loopless, and so are the potential paths that keep the limit. -/
structure LooplessSoFar (nw : TransportNetwork) (A B : Id) (maxTravelTime : UInt32)
    (st : Enumeration) : Prop where
  found : ∀ path ∈ st.1, ∃ edges, Records nw A B path edges ∧ (walkStations A edges).Nodup
  potential : ∀ path ∈ st.2, ∃ edges, Records nw A B path edges ∧
    (maxTravelTime < pathTime path ∨ (walkStations A edges).Nodup)

theorem LooplessSoFar.step (h : LooplessSoFar nw A B maxTravelTime st)
    (hstep : Step lib (nw.spurKeepsOff lib B maxTravelTime) nw A B maxTravelTime.toNat st st') :
    LooplessSoFar nw A B maxTravelTime st' := by
  cases hstep with
  | @mk fastestPaths last potentialPaths queue rest kthPath hlast hspurs hsel =>
    obtain ⟨edges,hrec,hloop⟩ := h.found _ (List.mem_of_getLast? hlast)
    obtain rfl := pathOf_injective A hrec.eq
    have hqueue : LooplessSoFar nw A B maxTravelTime (fastestPaths,queue) := by
      refine ⟨h.found,fun path hpath => ?_⟩
      rcases hspurs.added path hpath with hold | ⟨idx,hidx,candidate,hqueues⟩
      · exact h.potential path hold
      · have hdev := hqueues.deviation
        exact ⟨candidate,⟨hqueues.eq,hdev.journey,hdev.fits⟩,hqueues.loopless hrec.journey
          (List.mem_range.mp hidx) hloop (hspurs.passed idx hidx)⟩
    obtain ⟨kth,hkth,hkthLoop⟩ := hqueue.potential kthPath hsel.mem
    have hwithin : ¬maxTravelTime < pathTime kthPath :=
      UInt32.not_lt.mpr (UInt32.le_iff_toNat_le.mpr hsel.within)
    refine ⟨fun path hpath => ?_,fun path hpath => hqueue.potential path (hsel.rest_sub path hpath)⟩
    rcases List.mem_append.mp hpath with hold | hnew
    · exact h.found path hold
    · rw [List.mem_singleton.mp hnew]
      exact ⟨kth,hkth,hkthLoop.resolve_left hwithin⟩

theorem LooplessSoFar.run (h : LooplessSoFar nw A B maxTravelTime st)
    (hrun : Relation.ReflTransGen
      (Step lib (nw.spurKeepsOff lib B maxTravelTime) nw A B maxTravelTime.toNat) st st') :
    LooplessSoFar nw A B maxTravelTime st' := by
  induction hrun with
  | refl => exact h
  | tail _ hstep ih => exact ih.step hstep

/-! And only then, unless the number of paths cuts the enumeration off. -/

theorem Selects.found {kthPath : Path} {potential rest : Multiset Path}
    (h : Selects maxTravelTime.toNat fastestPaths potential kthPath rest)
    (hfound : ∀ path ∈ fastestPaths ++ [kthPath], path ∈ paths)
    (hrest : ∀ path ∈ rest, path ∈ paths ∨ maxTravelTime < pathTime path) :
    ∀ path ∈ potential, path ∈ paths ∨ maxTravelTime < pathTime path := by
  intro path hpath
  by_cases hknown : path ∈ fastestPaths
  · exact Or.inl (hfound path (List.mem_append_left _ hknown))
  · rcases h.rest_keep path hpath hknown with rfl | hkept
    · exact Or.inl (hfound path (by simp))
    · exact hrest path hkept

end QuietRoute
