import QuietRoute.Network.PathEnumeration
import QuietRoute.Network.FastestRoute
import QuietRoute.Search.Deviations

/-! When the enumeration misses nothing. The stops removed for a spur search are those after all
paths that share the stops before the spur node, whether or not they share the spur node. Yen's
algorithm compares the spur node as well, and removes the stations of the root path. Nothing is missed
where its searches find nothing faster. -/
namespace QuietRoute

open BestFirst TransportNetwork Deviations

variable {lib : StdLibrary} {check : SpurCheck} {nw : TransportNetwork} {A B : Id} {path : Path}
  {edges walk last : List GraphEdge} {fastestPaths : List Path} {idx T : ℕ}
  {st st' : Enumeration} {maxTravelTime : UInt32}

namespace TransportNetwork

def stopsAt (nw : TransportNetwork) (stationIds : List Id) : List PathStop :=
  (nw.stations.entries.flatMap fun e => e.2.edges.map GraphEdge.target).filter
    fun stop => stationIds.contains stop.node

/-- What Yen's algorithm removes: the next stops of the paths that share the root path with the spur
node, and the stations of the root path. -/
def yenStops (nw : TransportNetwork) (fastestPaths : List Path) (lastFastestPath : Path) (idx : ℕ) :
    List PathStop :=
  nextStops (idx+1) fastestPaths lastFastestPath idx ++
    nw.stopsAt ((lastFastestPath.take idx).map (·.1.node))

/-- If the search of Yen's algorithm finds a path within the limit, that of the code finds one that is
no slower. No time accumulated by the two reaches `2^32`. -/
def spurKeepsUp (lib : StdLibrary) (nw : TransportNetwork) (stationB : Id) (maxTravelTime : UInt32) :
    SpurCheck :=
  fun fastestPaths lastFastestPath idx spurNode =>
    let removed := removedStops fastestPaths lastFastestPath idx
    let yen := nw.yenStops fastestPaths lastFastestPath idx
    nw.searchFits lib spurNode stationB removed && nw.searchFits lib spurNode stationB yen &&
      (nw.getFastestTravelRouteInternal lib spurNode stationB yen).all fun yenPath =>
        yenPath = [] || maxTravelTime < pathTime yenPath ||
          (nw.getFastestTravelRouteInternal lib spurNode stationB removed).any fun spurPath =>
            spurPath ≠ [] && pathTime spurPath ≤ pathTime yenPath

end TransportNetwork

theorem target_injective : Function.Injective GraphEdge.target := by
  intro edge edge' h
  exact Option.some.inj (congrArg PathStop.edge h)

theorem exists_source {S : Id} (h : IsWalk nw S walk B) {edge : GraphEdge} (hedge : edge ∈ walk) :
    ∃ S' ∈ walkStations S walk, edge ∈ nw.edgesFrom S' := by
  induction walk generalizing S with
  | nil => simp at hedge
  | cons first walk ih =>
    rcases List.mem_cons.mp hedge with rfl | hrest
    · exact ⟨S,by simp [walkStations],h.1⟩
    · obtain ⟨S',hS',hmem⟩ := ih h.2 hrest
      exact ⟨S',List.mem_cons_of_mem S hS',hmem⟩

theorem source_unique (hwf : nw.WellFormed) {S S' : Id} {edge : GraphEdge}
    (h : edge ∈ nw.edgesFrom S) (h' : edge ∈ nw.edgesFrom S') : S = S' := by
  have hS := (hwf.hop S edge h).1
  rw [(hwf.hop S' edge h').1] at hS
  exact (Option.some.inj hS).symm

theorem not_mem_of_loopless (hwf : nw.WellFormed) {S : Id} {first edge : GraphEdge}
    (h : IsWalk nw S (first::walk) B) (hloop : (walkStations S (first::walk)).Nodup)
    (hedge : edge ∈ nw.edgesFrom S) : edge ∉ walk := by
  intro hmem
  obtain ⟨S',hS',hsource⟩ := exists_source h.2 hmem
  rw [← source_unique hwf hedge hsource] at hS'
  exact (List.nodup_cons.mp hloop).1 hS'

theorem loopless_drop (h : (walkStations A walk).Nodup) (idx : ℕ) :
    (walkStations (stopAfter A (walk.take idx)) (walk.drop idx)).Nodup := by
  induction walk generalizing A idx with
  | nil => simp [walkStations]
  | cons edge walk ih =>
    cases idx with
    | zero => exact h
    | succ idx => exact ih (List.nodup_cons.mp h).2 idx

/-- The search of Yen's algorithm at the stop where a missing walk leaves the last path is free to find
it. -/
theorem avoids_of_leaves (hwf : nw.WellFormed) (hwalk : IsJourney nw B A walk)
    (hloop : (walkStations A walk).Nodup)
    (hstored : ∀ path ∈ fastestPaths, ∃ edges, Records nw A B path edges)
    (hparts : PartsAt idx walk last) (hleft : LeftBy idx {edges | pathOf A edges ∈ fastestPaths} walk) :
    Avoids (nw.yenStops fastestPaths (pathOf A last) idx) idx walk := by
  have hpaths : ∀ path ∈ fastestPaths, ∃ edges, path = pathOf A edges :=
    fun path hpath => (hstored path hpath).imp fun edges h => h.eq
  intro edge hedge hremoved
  rcases List.mem_append.mp hremoved with hnext | hroot
  · obtain ⟨other,hother,htake,edge',hget,htarget⟩ := (mem_nextStops hpaths).mp hnext
    obtain rfl := target_injective htarget
    obtain ⟨edges,hrec⟩ := hstored _ hother
    obtain rfl := pathOf_injective A hrec.eq
    -- the removed stop follows the spur node, where the walk goes on differently
    have hsame : other.take idx = walk.take idx := htake.trans hparts.1
    have hne : other[idx]? ≠ walk[idx]? := fun h =>
      hleft other hother ((take_succ_eq_iff hsame).mpr h)
    have hsource := hrec.journey.drop idx
    rw [drop_eq_cons hget,hsame] at hsource
    cases hfirst : walk[idx]? with
    | none =>
      rw [List.drop_eq_nil_of_le (List.getElem?_eq_none_iff.mp hfirst)] at hedge
      simp at hedge
    | some first =>
      have hrest := hwalk.isWalk.drop idx
      have hlooprest := loopless_drop hloop idx
      rw [drop_eq_cons hfirst] at hrest hlooprest hedge
      rcases List.mem_cons.mp hedge with rfl | hmem
      · exact hne (hget.trans hfirst.symm)
      · exact not_mem_of_loopless hwf hrest hlooprest hsource.2.1 hmem
  · -- the walk does not come back to the root path
    have hmem := List.contains_iff_mem.mp (List.mem_filter.mp hroot).2
    rw [map_node_take_pathOf,← take_walkStations_congr A hparts.1.symm] at hmem
    have hidx : idx ≤ walk.length := by
      by_contra hlong
      rw [List.drop_eq_nil_of_le (not_le.mp hlong).le] at hedge
      exact absurd hedge List.not_mem_nil
    rw [walkStations_split A hidx] at hloop
    refine (List.disjoint_of_nodup_append hloop) hmem ?_
    exact List.mem_cons_of_mem _ (List.mem_map_of_mem hedge)

/-- Then the search of the code finds a way that is no dearer, if that is within the limit. -/
theorem exists_no_dearer (hwf : nw.WellFormed) (hlast : IsJourney nw B A last)
    (hcost : walkCost last < 2^32) (hidx : idx < last.length)
    (hcheck : nw.spurKeepsUp lib B maxTravelTime fastestPaths (pathOf A last) idx
      (spurStop A last idx) = true)
    (htake : walk.take idx = last.take idx) (hwalk : IsWalk nw A walk B)
    (hwithin : walkCost walk ≤ maxTravelTime.toNat)
    (hav : Avoids (nw.yenStops fastestPaths (pathOf A last) idx) idx walk) :
    ∃ other, other.take idx = last.take idx ∧ IsWalk nw A other B ∧
      Avoids (removedStops fastestPaths (pathOf A last) idx) idx other ∧
      walkCost other ≤ walkCost walk := by
  simp only [spurKeepsUp,Bool.and_eq_true] at hcheck
  obtain ⟨⟨hfits,hyenFits⟩,hcheck⟩ := hcheck
  obtain ⟨yenPath,hyen,hyenSpec⟩ := spurSearch_spec hwf hlast hcost hidx hyenFits
  obtain ⟨spurPath,hspur,hspurSpec⟩ := spurSearch_spec hwf hlast hcost hidx hfits
  rw [hyen,hspur,Option.all_some,Option.any_some] at hcheck
  rcases hyenSpec with ⟨-,hnone⟩ | ⟨hyenCons,candidate,-,-,hyenTime,hdev⟩
  · exact absurd hav (hnone walk htake hwalk)
  · have hle : (pathTime yenPath).toNat ≤ walkCost walk := hyenTime ▸ hdev.optimal walk htake hwalk hav
    have hfast : ¬maxTravelTime < pathTime yenPath :=
      UInt32.not_lt.mpr (UInt32.le_iff_toNat_le.mpr (hle.trans hwithin))
    simp only [hyenCons,hfast,decide_false,Bool.false_or,Bool.and_eq_true,decide_eq_true_eq] at hcheck
    rcases hspurSpec with ⟨hnil,-⟩ | ⟨-,other,-,-,htime,hother⟩
    · exact absurd hnil hcheck.1
    · have htimes := UInt32.le_iff_toNat_le.mp hcheck.2
      rw [htime] at htimes
      exact ⟨other,hother.root,hother.journey.isWalk,hother.avoids,htimes.trans hle⟩

/-! A missing walk over the run of the enumeration. -/

/-- The walks recorded in a list of paths, and in a bag of paths. -/
def recorded (A : Id) (paths : List Path) : Set (List GraphEdge) := {edges | pathOf A edges ∈ paths}
def pending (A : Id) (paths : Multiset Path) : Set (List GraphEdge) :=
  {edges | pathOf A edges ∈ paths}

/-- While a walk is missing, no path found is dearer, and it is covered or leaves the last path. -/
structure Missing (A : Id) (walk : List GraphEdge) (st : Enumeration) : Prop where
  cheaper : ∀ path ∈ st.1, (pathTime path).toNat ≤ walkCost walk
  covered : Covered walkCost (recorded A st.1) (pending A st.2) walk ∨
    ∃ last, st.1.getLast? = some (pathOf A last) ∧ Due (recorded A st.1) last walk

theorem recorded_append (paths : List Path) (edges : List GraphEdge) :
    recorded A (paths ++ [pathOf A edges]) = insert edges (recorded A paths) := by
  ext edges'
  show pathOf A edges' ∈ paths ++ [pathOf A edges] ↔ edges' = edges ∨ pathOf A edges' ∈ paths
  rw [List.mem_append,List.mem_singleton,(pathOf_injective A).eq_iff]
  exact or_comm

theorem IsDeviation.new {candidate : List GraphEdge} (hlast : IsJourney nw B A last)
    (hidx : idx < last.length) (hpaths : ∀ path ∈ fastestPaths, ∃ edges, path = pathOf A edges)
    (h : IsDeviation nw A B (removedStops fastestPaths (pathOf A last) idx) last idx candidate) :
    pathOf A candidate ∉ fastestPaths := by
  intro hmem
  have hlong : idx < candidate.length := by
    rw [h.journey.lt_length_iff,h.root]
    exact hlast.lt_length_iff.mp hidx
  have hget := List.getElem?_eq_getElem hlong
  have hav := h.avoids candidate[idx] (by rw [drop_eq_cons hget]; exact List.mem_cons_self)
  exact hav ((mem_nextStops hpaths).mpr ⟨candidate,hmem,take_eq_of_le (Nat.sub_le idx 1) h.root,
    candidate[idx],hget,rfl⟩)

theorem Spurs.covered (hwf : nw.WellFormed) (hwalk : IsJourney nw B A walk)
    (hloop : (walkStations A walk).Nodup) {potentialPaths queue : Multiset Path}
    (hstored : Stored nw A B (fastestPaths,potentialPaths))
    (hlast : fastestPaths.getLast? = some (pathOf A last))
    (hspurs : Spurs lib (nw.spurKeepsUp lib B maxTravelTime) nw A B fastestPaths last
      (List.range last.length) potentialPaths queue)
    (hmissing : Missing A walk (fastestPaths,potentialPaths))
    (hwithin : walkCost walk ≤ maxTravelTime.toNat) :
    Covered walkCost (recorded A fastestPaths) (pending A queue) walk := by
  rcases hmissing.covered with hcov | ⟨last',hlast',idx,hparts,hleft⟩
  · exact hcov.mono fun edges hmem => hspurs.keep _ hmem
  · have heq : last' = last := pathOf_injective A (Option.some.inj (hlast'.symm.trans hlast))
    rw [heq] at hparts
    have hmem := List.mem_of_getLast? hlast
    obtain ⟨edges,hrec⟩ := hstored.1 _ hmem
    obtain rfl := pathOf_injective A hrec.eq
    -- neither journey is a part of the other
    have hidx : idx < last.length := by
      rw [hrec.journey.lt_length_iff,hparts.1,← hwalk.lt_length_iff]
      by_contra hshort
      have hB := mt hwalk.lt_length_iff.mpr hshort
      rw [← hparts.1] at hB
      have hshort' := mt hrec.journey.lt_length_iff.mp hB
      exact hparts.2 ((List.getElem?_eq_none (not_lt.mp hshort')).trans
        (List.getElem?_eq_none (not_lt.mp hshort)).symm)
    have hav := avoids_of_leaves hwf hwalk hloop hstored.1 hparts hleft
    have hrange := List.mem_range.mpr hidx
    obtain ⟨other,hroot,hother,hotherAv,hle⟩ := exists_no_dearer hwf hrec.journey hrec.fits hidx
      (hspurs.passed idx hrange) hparts.1.symm hwalk.isWalk hwithin hav
    obtain ⟨path,hpath,candidate,hqueues⟩ := hspurs.found idx hrange other hroot hother hotherAv
    obtain rfl := hqueues.eq
    have hdev := hqueues.deviation
    have hnew := hdev.new hrec.journey hidx fun path hpath => (hstored.1 path hpath).imp
      fun edges h => h.eq
    exact ⟨idx,hleft,candidate,hpath,hnew,hdev.root.trans hparts.1,
      (hdev.optimal other hroot hother hotherAv).trans hle⟩

/-- A step finds a missing walk or leaves it missing. -/
theorem Missing.step (hwf : nw.WellFormed) (hwalk : IsJourney nw B A walk)
    (hloop : (walkStations A walk).Nodup) (hwithin : walkCost walk ≤ maxTravelTime.toNat)
    (hstored : Stored nw A B st) (hmissing : Missing A walk st)
    (hstep : Step lib (nw.spurKeepsUp lib B maxTravelTime) nw A B maxTravelTime.toNat st st') :
    pathOf A walk ∈ st'.1 ∨ Missing A walk st' := by
  cases hstep with
  | @mk fastestPaths last potentialPaths queue rest kthPath hlast hspurs hsel =>
    have hcov := hspurs.covered hwf hwalk hloop hstored hlast hmissing hwithin
    obtain ⟨kth,hkth⟩ := (hspurs.stored hstored).2 kthPath hsel.mem
    rw [hkth.eq] at hsel ⊢
    by_cases hfound : kth = walk
    · exact Or.inl (by simp [hfound])
    · right
      have hle : (pathTime (pathOf A kth)).toNat ≤ walkCost walk := by
        obtain ⟨i,-,candidate,hmem,hnew,-,hcost⟩ := hcov
        have htime := toNat_pathTime A ((hcost.trans hwithin).trans_lt maxTravelTime.toNat_lt)
        exact (hsel.first _ hmem hnew).trans (htime.le.trans hcost)
      refine ⟨?_,?_⟩
      · intro path hpath
        rcases List.mem_append.mp hpath with hold | hnew
        · exact hmissing.cheaper path hold
        · rw [List.mem_singleton.mp hnew]; exact hle
      · rw [recorded_append]
        refine (hcov.found_insert hfound ?_).imp_right fun hdue => ⟨kth,by simp,hdue⟩
        intro candidate hmem hnew
        exact (hsel.rest_keep _ hmem hnew).imp_left fun h => pathOf_injective A h

theorem Missing.run (hwf : nw.WellFormed) (hwalk : IsJourney nw B A walk)
    (hloop : (walkStations A walk).Nodup) (hwithin : walkCost walk ≤ maxTravelTime.toNat)
    (hstored : Stored nw A B st) (hmissing : pathOf A walk ∈ st.1 ∨ Missing A walk st)
    (hrun : Relation.ReflTransGen
      (Step lib (nw.spurKeepsUp lib B maxTravelTime) nw A B maxTravelTime.toNat) st st') :
    Stored nw A B st' ∧ (pathOf A walk ∈ st'.1 ∨ Missing A walk st') := by
  induction hrun with
  | refl => exact ⟨hstored,hmissing⟩
  | tail _ hstep ih =>
    obtain ⟨hstored',hmissing'⟩ := ih
    refine ⟨hstep.stored hstored',?_⟩
    cases hmissing' with
    | inl hfound => exact Or.inl (hstep.found_mono _ hfound)
    | inr hmiss => exact hmiss.step hwf hwalk hloop hwithin hstored' hstep

/-- Red goes over `X`, from where there is blue as well; green goes straight. -/
def branchingCalls : List Call :=
  [.addStation ⟨ascii "A",[]⟩,.addStation ⟨ascii "X",[]⟩,.addStation ⟨ascii "B",[]⟩,
    .addLine ⟨ascii "red",[],[⟨ascii "r",[],ascii "red",ascii "A",ascii "B",
      [ascii "A",ascii "X",ascii "B"]⟩]⟩,
    .addLine ⟨ascii "blue",[],[⟨ascii "b",[],ascii "blue",ascii "X",ascii "B",[ascii "X",ascii "B"]⟩]⟩,
    .addLine ⟨ascii "green",[],[⟨ascii "g",[],ascii "green",ascii "A",ascii "B",[ascii "A",ascii "B"]⟩]⟩,
    .setTravelTime (ascii "A") (ascii "X") 1,.setTravelTime (ascii "X") (ascii "B") 2,
    .setTravelTime (ascii "A") (ascii "B") 5]

end QuietRoute
