import QuietRoute.Network.FastestPath

/-! The records of walks that the enumeration works on: their stops, their times, their parts
before and after a spur node, and the stops removed there. -/
namespace QuietRoute

open BestFirst TransportNetwork

/-- A walk from `A` as the enumeration records it. -/
def pathOf (A : Id) (edges : List GraphEdge) : Path := pathFrom (⟨A,none⟩,0) edges

@[simp] theorem pathEdges_pathOf (A : Id) (edges : List GraphEdge) :
    pathEdges (pathOf A edges) = edges := by simp [pathOf]

theorem pathOf_injective (A : Id) : Function.Injective (pathOf A) := by
  intro edges edges' h
  rw [← pathEdges_pathOf A edges,h,pathEdges_pathOf]

structure Records (nw : TransportNetwork) (A B : Id) (path : Path) (edges : List GraphEdge) :
    Prop where
  eq : path = pathOf A edges
  journey : IsJourney nw B A edges
  fits : walkCost edges < 2^32

variable {nw : TransportNetwork} {A B : Id} {path : Path} {edges walk last : List GraphEdge}
  {fastestPaths : List Path} {idx : ℕ}

theorem toNat_pathTime (A : Id) (h : walkCost edges < 2^32) :
    (pathTime (pathOf A edges)).toNat = walkCost edges := by
  rw [← walkTime_none] at h ⊢
  have hfits : ((⟨A,none⟩,0) : PathStopDist).2.toNat+walkTime none edges < 2^32 := by
    simpa using h
  have htime := toNat_foldl_takeEdge hfits
  simpa [pathOf] using htime

theorem Records.time (h : Records nw A B path edges) : (pathTime path).toNat = walkCost edges := by
  rw [h.eq,toNat_pathTime A h.fits]

def spurStop (A : Id) (edges : List GraphEdge) (idx : ℕ) : PathStopDist :=
  (edges.take idx).foldl takeEdge (⟨A,none⟩,0)

theorem getElem?_pathOf (h : idx ≤ edges.length) :
    (pathOf A edges)[idx]? = some (spurStop A edges idx) := by
  rw [pathOf,pathFrom,List.getElem?_scanl,if_pos h]
  rfl

@[simp] theorem node_spurStop : (spurStop A edges idx).1.node = stopAfter A (edges.take idx) := by
  simp [spurStop]

theorem walkCost_split (A : Id) (edges : List GraphEdge) (idx : ℕ) :
    walkCost edges = walkTime none (edges.take idx)+
      walkTime (spurStop A edges idx).1.edge (edges.drop idx) := by
  have happend := walkTime_append (⟨A,none⟩,0) (edges.take idx) (edges.drop idx)
  rw [List.take_append_drop] at happend
  rw [← walkTime_none]
  exact happend

theorem toNat_spurStop (h : walkCost edges < 2^32) :
    (spurStop A edges idx).2.toNat = walkTime none (edges.take idx) := by
  have hsplit := walkCost_split A edges idx
  have htime := @toNat_foldl_takeEdge (⟨A,none⟩,0) (edges.take idx)
    (by simpa using (by omega : walkTime none (edges.take idx) < 2^32))
  simpa [spurStop] using htime

theorem IsWalk.drop (h : IsWalk nw A walk B) (idx : ℕ) :
    IsWalk nw (stopAfter A (walk.take idx)) (walk.drop idx) B := by
  induction walk generalizing A idx with
  | nil => simpa [stopAfter] using h
  | cons edge walk ih =>
    cases idx with
    | zero => exact h
    | succ idx => exact ih h.2 idx

theorem IsJourney.drop (h : IsJourney nw B A walk) (idx : ℕ) :
    IsJourney nw B (stopAfter A (walk.take idx)) (walk.drop idx) := by
  induction walk generalizing A idx with
  | nil => simpa [stopAfter] using h
  | cons edge walk ih =>
    cases idx with
    | zero => exact h
    | succ idx => exact ih h.2.2 idx

/-- The search does not pass `B`, so that a journey is not over before its last stop. -/
theorem IsJourney.lt_length_iff (h : IsJourney nw B A walk) :
    idx < walk.length ↔ stopAfter A (walk.take idx) ≠ B := by
  have hdrop := h.drop idx
  rw [← not_le,← List.drop_eq_nil_iff,not_iff_not]
  constructor
  · intro hnil
    rwa [hnil] at hdrop
  · intro hB
    cases hrest : walk.drop idx with
    | nil => rfl
    | cons edge rest =>
      rw [hrest] at hdrop
      exact absurd hB hdrop.1

theorem IsJourney.replace (h : IsJourney nw B A walk) (hidx : idx < walk.length)
    (hrest : IsJourney nw B (stopAfter A (walk.take idx)) edges) :
    IsJourney nw B A (walk.take idx ++ edges) := by
  induction walk generalizing A idx with
  | nil => simp at hidx
  | cons edge walk ih =>
    cases idx with
    | zero => exact hrest
    | succ idx => exact ⟨h.1,h.2.1,ih h.2.2 (Nat.lt_of_succ_lt_succ hidx) hrest⟩

theorem spurStop_congr (h : walk.take idx = last.take idx) :
    spurStop A walk idx = spurStop A last idx := by
  unfold spurStop
  rw [h]

theorem take_pathOf (A : Id) (edges edges' : List GraphEdge) (idx : ℕ) :
    (pathOf A edges).take idx = (pathOf A edges').take idx ↔
      edges.take (idx-1) = edges'.take (idx-1) := by
  cases idx with
  | zero => simp
  | succ idx =>
    rw [pathOf,pathOf,pathFrom,pathFrom,List.take_scanl,List.take_scanl,Nat.add_sub_cancel]
    exact (pathOf_injective A).eq_iff

theorem pathFrom_append (stop : PathStopDist) (edges edges' : List GraphEdge) :
    pathFrom stop (edges ++ edges') =
      (pathFrom stop edges).take edges.length ++ pathFrom (edges.foldl takeEdge stop) edges' := by
  induction edges generalizing stop with
  | nil => simp
  | cons edge edges ih =>
    rw [List.cons_append,pathFrom_cons,pathFrom_cons,ih (takeEdge stop edge)]
    rfl

theorem take_pathOf_append (hidx : idx ≤ last.length) (edges : List GraphEdge) :
    (pathOf A last).take idx ++ pathFrom (spurStop A last idx) edges =
      pathOf A (last.take idx ++ edges) := by
  have hlen : (last.take idx).length = idx := by simp [hidx]
  have htake : (pathOf A last).take idx = (pathOf A (last.take idx)).take idx := by
    rw [take_pathOf,List.take_take,Nat.min_eq_left (Nat.sub_le idx 1)]
  have happend := pathFrom_append (⟨A,none⟩,0) (last.take idx) edges
  rw [hlen] at happend
  rw [htake]
  exact happend.symm

/-! The stations of a root path. -/

theorem map_node_take_pathOf (A : Id) (edges : List GraphEdge) (idx : ℕ) :
    ((pathOf A edges).take idx).map (·.1.node) = (walkStations A edges).take idx := by
  rw [List.map_take,pathOf,map_node_pathFrom]

theorem take_walkStations_congr (A : Id) (h : walk.take idx = last.take idx) :
    (walkStations A walk).take idx = (walkStations A last).take idx := by
  cases idx with
  | zero => rfl
  | succ idx =>
    have hmap := congrArg (List.map GraphEdge.nextStop) (congrArg (List.take idx) h)
    simpa [walkStations,List.map_take,List.take_take] using hmap

theorem walkStations_split (A : Id) (h : idx ≤ walk.length) :
    walkStations A walk = (walkStations A walk).take idx ++
      walkStations (stopAfter A (walk.take idx)) (walk.drop idx) := by
  induction walk generalizing A idx with
  | nil =>
    obtain rfl := Nat.le_zero.mp h
    rfl
  | cons edge walk ih =>
    cases idx with
    | zero => rfl
    | succ idx => exact congrArg (A :: ·) (ih edge.nextStop (Nat.le_of_succ_le_succ h))

/-! The stops that a spur search has to avoid. -/

theorem getElem?_succ_pathOf (h : idx < edges.length) :
    (pathOf A edges)[idx+1]?.map Prod.fst = some edges[idx].target := by
  rw [pathOf,pathFrom,List.getElem?_succ_scanl,List.getElem?_scanl,if_pos h.le,
    List.getElem?_eq_getElem h]
  rfl

/-- The next stops, after a spur node, of the paths that share so many stops with the last one. -/
def nextStops (shared : ℕ) (fastestPaths : List Path) (lastFastestPath : Path) (idx : ℕ) :
    List PathStop :=
  fastestPaths.filterMap fun path =>
    if idx+1 < path.length ∧ path.take shared = lastFastestPath.take shared then
      path[idx+1]?.map Prod.fst
    else none

theorem mem_nextStops (hstored : ∀ path ∈ fastestPaths, ∃ edges, path = pathOf A edges)
    {shared : ℕ} {stop : PathStop} : stop ∈ nextStops shared fastestPaths (pathOf A last) idx ↔
      ∃ edges, pathOf A edges ∈ fastestPaths ∧ edges.take (shared-1) = last.take (shared-1) ∧
        ∃ edge, edges[idx]? = some edge ∧ stop = edge.target := by
  unfold nextStops
  rw [List.mem_filterMap]
  constructor
  · rintro ⟨path,hmem,hstop⟩
    obtain ⟨edges,rfl⟩ := hstored path hmem
    split_ifs at hstop with hif
    have hlt : idx < edges.length := by simpa [pathOf] using hif.1
    rw [getElem?_succ_pathOf hlt] at hstop
    exact ⟨edges,hmem,(take_pathOf A edges last shared).mp hif.2,edges[idx],
      List.getElem?_eq_getElem hlt,(Option.some.inj hstop).symm⟩
  · rintro ⟨edges,hmem,htake,edge,hedge,rfl⟩
    obtain ⟨hlt,rfl⟩ := List.getElem?_eq_some_iff.mp hedge
    refine ⟨_,hmem,?_⟩
    rw [if_pos ⟨by simpa [pathOf] using hlt,(take_pathOf A edges last shared).mpr htake⟩]
    exact getElem?_succ_pathOf hlt

end QuietRoute
