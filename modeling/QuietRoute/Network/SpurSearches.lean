import QuietRoute.Network.RecordedPaths

/-! The spur searches of an iteration. Each one adds to the queue a fastest deviation from the last
path, among those that take no removed stop. -/
namespace QuietRoute

open BestFirst TransportNetwork

variable {lib : StdLibrary} {nw : TransportNetwork} {A B : Id} {path : Path}
  {walk last : List GraphEdge} {removed : List PathStop} {fastestPaths : List Path} {idx : ℕ}

/-- No edge of the walk after its stop `idx` leads to a removed stop. -/
def Avoids (removed : List PathStop) (idx : ℕ) (walk : List GraphEdge) : Prop :=
  ∀ edge ∈ walk.drop idx, edge.target ∉ removed

/-- A journey that a search from stop `idx` of `last` finds. -/
structure IsDeviation (nw : TransportNetwork) (A B : Id) (removed : List PathStop)
    (last : List GraphEdge) (idx : ℕ) (candidate : List GraphEdge) : Prop where
  root : candidate.take idx = last.take idx
  journey : IsJourney nw B A candidate
  fits : walkCost candidate < 2^32
  avoids : Avoids removed idx candidate
  loopless : (walkStations (stopAfter A (last.take idx)) (candidate.drop idx)).Nodup
  optimal : ∀ walk, walk.take idx = last.take idx → IsWalk nw A walk B → Avoids removed idx walk →
    walkCost candidate ≤ walkCost walk

theorem reach_of_avoids (hlast : IsJourney nw B A last) (hfits : walkCost last < 2^32)
    (hidx : idx < last.length) (htake : walk.take idx = last.take idx) (hwalk : IsWalk nw A walk B)
    (hav : Avoids removed idx walk) :
    ∃ b : PathStop × ℕ, b.1.node = B ∧ b.2 ≤ walkCost walk ∧ Relation.ReflTransGen
      (Advance (nw.moves B removed)) (label (spurStop A last idx)) b := by
  have hne : (spurStop A last idx).1.node ≠ B := by
    rw [node_spurStop]
    exact hlast.lt_length_iff.mp hidx
  have hrest := hwalk.drop idx
  rw [htake,← node_spurStop] at hrest
  obtain ⟨b,hb,hle,hreach⟩ := @reach_of_walk nw B _ (spurStop A last idx).1
    (spurStop A last idx).2.toNat _ hne hrest hav
  have hcost := walkCost_split A walk idx
  have htime : (spurStop A last idx).2.toNat = _ := toNat_spurStop hfits
  rw [htake,spurStop_congr htake,← htime] at hcost
  exact ⟨b,hb,by omega,hreach⟩

theorem isDeviation_of_isFastest {spurPath : Path} (hlast : IsJourney nw B A last)
    (hfits : walkCost last < 2^32) (hidx : idx < last.length)
    (h : IsFastest nw (spurStop A last idx) B removed spurPath) :
    ∃ candidate, spurPath = pathFrom (spurStop A last idx) (candidate.drop idx) ∧
      (pathOf A last).take idx ++ spurPath = pathOf A candidate ∧
      (pathTime spurPath).toNat = walkCost candidate ∧
      IsDeviation nw A B removed last idx candidate := by
  obtain ⟨rest,hrest⟩ := List.head?_eq_some_iff.mp h.head
  have hchain := h.chain
  have hend := h.last
  rw [hrest] at hchain hend
  obtain ⟨edges,hpath,hjourney,havoid,htime⟩ := journey_of_chain hchain hend
  rw [← hrest] at hpath htime
  rw [node_spurStop] at hjourney
  have hlen : (last.take idx).length = idx := by simp [hidx.le]
  have hroot : (last.take idx ++ edges).take idx = last.take idx := by
    rw [List.take_append_of_le_length hlen.ge,List.take_take,Nat.min_self]
  have hdrop : (last.take idx ++ edges).drop idx = edges := by
    rw [List.drop_append_of_le_length hlen.ge,List.drop_eq_nil_of_le hlen.le,List.nil_append]
  have hcost : (pathTime spurPath).toNat = walkCost (last.take idx ++ edges) := by
    rw [htime,toNat_spurStop hfits,walkCost_split A (last.take idx ++ edges) idx,hroot,hdrop,
      spurStop_congr hroot]
  refine ⟨last.take idx ++ edges,?_,?_,hcost,hroot,hlast.replace hidx hjourney,?_,?_,?_,?_⟩
  · rw [hdrop]; exact hpath
  · rw [hpath,take_pathOf_append hidx.le]
  · rw [← hcost]; exact UInt32.toNat_lt _
  · unfold Avoids
    rw [hdrop]; exact havoid
  · rw [hdrop,← node_spurStop,← map_node_pathFrom,← hpath]
    exact h.loopless
  · intro walk htake hwalk hav
    obtain ⟨b,hb,hle,hreach⟩ := reach_of_avoids hlast hfits hidx htake hwalk hav
    rw [← hcost]
    exact (h.optimal b hb hreach).trans hle

/-- What a search from stop `idx` of `last` finds: nothing if no walk avoids the removed stops, or a
deviation. -/
theorem spurSearch_spec (hwf : nw.WellFormed) (hlast : IsJourney nw B A last)
    (hcost : walkCost last < 2^32) (hidx : idx < last.length)
    (hfits : nw.searchFits lib (spurStop A last idx) B removed = true) :
    ∃ spurPath, nw.getFastestTravelRouteInternal lib (spurStop A last idx) B removed = some spurPath ∧
      (spurPath = [] ∧ (∀ walk, walk.take idx = last.take idx → IsWalk nw A walk B →
        ¬Avoids removed idx walk) ∨
      spurPath ≠ [] ∧ ∃ candidate, spurPath = pathFrom (spurStop A last idx) (candidate.drop idx) ∧
        (pathOf A last).take idx ++ spurPath = pathOf A candidate ∧
        (pathTime spurPath).toNat = walkCost candidate ∧
        IsDeviation nw A B removed last idx candidate) := by
  have hne : (spurStop A last idx).1.node ≠ B := by
    rw [node_spurStop]
    exact hlast.lt_length_iff.mp hidx
  obtain ⟨spurPath,hspur,hspec⟩ := getFastestTravelRouteInternal_spec hwf hne hfits
  refine ⟨spurPath,hspur,?_⟩
  rcases hspec with ⟨rfl,hnone⟩ | hfast
  · refine Or.inl ⟨rfl,fun walk htake hwalk hav => ?_⟩
    obtain ⟨b,hb,-,hreach⟩ := reach_of_avoids hlast hcost hidx htake hwalk hav
    exact hnone b hb hreach
  · refine Or.inr ⟨?_,isDeviation_of_isFastest hlast hcost hidx hfast⟩
    rintro rfl
    simpa using hfast.head

/-- What the spur search from stop `idx` of `last` adds to the potential paths. -/
structure Queues (lib : StdLibrary) (nw : TransportNetwork) (A B : Id) (fastestPaths : List Path)
    (last : List GraphEdge) (idx : ℕ) (path : Path) (candidate : List GraphEdge) : Prop where
  eq : path = pathOf A candidate
  search : nw.getFastestTravelRouteInternal lib (spurStop A last idx) B
    (removedStops fastestPaths (pathOf A last) idx) =
      some (pathFrom (spurStop A last idx) (candidate.drop idx))
  deviation : IsDeviation nw A B (removedStops fastestPaths (pathOf A last) idx) last idx candidate

theorem addPotentialPath_spec (hwf : nw.WellFormed) {potentialPaths : lib.pathQueue.Queue}
    (hlast : IsJourney nw B A last) (hcost : walkCost last < 2^32) (hidx : idx < last.length)
    (hfits : nw.searchFits lib (spurStop A last idx) B
      (removedStops fastestPaths (pathOf A last) idx) = true) :
    ∃ queue, nw.addPotentialPath lib B fastestPaths (pathOf A last) potentialPaths idx = some queue ∧
      ((lib.pathQueue.elems queue = lib.pathQueue.elems potentialPaths ∧
        ∀ walk, walk.take idx = last.take idx → IsWalk nw A walk B →
          ¬Avoids (removedStops fastestPaths (pathOf A last) idx) idx walk) ∨
      ∃ path candidate, Queues lib nw A B fastestPaths last idx path candidate ∧
        lib.pathQueue.elems queue = path ::ₘ lib.pathQueue.elems potentialPaths) := by
  obtain ⟨spurPath,hspur,hspec⟩ := spurSearch_spec hwf hlast hcost hidx hfits
  simp only [TransportNetwork.addPotentialPath,getElem?_pathOf hidx.le,hspur,Option.bind_eq_bind,
    Option.bind_some]
  rcases hspec with ⟨rfl,hnone⟩ | ⟨hcons,candidate,hpath,hcandidate,-,hdev⟩
  · exact ⟨potentialPaths,rfl,Or.inl ⟨rfl,hnone⟩⟩
  · rw [if_neg hcons]
    exact ⟨_,rfl,Or.inr ⟨_,candidate,⟨hcandidate,hpath ▸ hspur,hdev⟩,lib.pathQueue.elems_push _ _⟩⟩

/-- A check of a spur search: of the paths found so far, the last of them, the index and the node. -/
abbrev SpurCheck := List Path → Path → ℕ → PathStopDist → Bool

/-- The potential paths before and after the spur searches from the stops `idxs` of `last`, which
pass the check. -/
structure Spurs (lib : StdLibrary) (check : SpurCheck) (nw : TransportNetwork) (A B : Id)
    (fastestPaths : List Path) (last : List GraphEdge) (idxs : List ℕ)
    (potentialPaths queue : Multiset Path) : Prop where
  passed : ∀ idx ∈ idxs, check fastestPaths (pathOf A last) idx (spurStop A last idx) = true
  keep : ∀ path ∈ potentialPaths, path ∈ queue
  added : ∀ path ∈ queue, path ∈ potentialPaths ∨ ∃ idx ∈ idxs, ∃ candidate,
    Queues lib nw A B fastestPaths last idx path candidate
  found : ∀ idx ∈ idxs, ∀ walk, walk.take idx = last.take idx → IsWalk nw A walk B →
    Avoids (removedStops fastestPaths (pathOf A last) idx) idx walk →
    ∃ path ∈ queue, ∃ candidate, Queues lib nw A B fastestPaths last idx path candidate

variable {check : SpurCheck} {idxs : List ℕ} {potentialPaths queue : Multiset Path}

/-- First of all a search that finds nothing. -/
theorem Spurs.skip (h : Spurs lib check nw A B fastestPaths last idxs potentialPaths queue)
    (hcheck : check fastestPaths (pathOf A last) idx (spurStop A last idx) = true)
    (hnone : ∀ walk, walk.take idx = last.take idx → IsWalk nw A walk B →
      ¬Avoids (removedStops fastestPaths (pathOf A last) idx) idx walk) :
    Spurs lib check nw A B fastestPaths last (idx::idxs) potentialPaths queue where
  passed := List.forall_mem_cons.mpr ⟨hcheck,h.passed⟩
  keep := h.keep
  added path hpath := (h.added path hpath).imp_right fun ⟨i,hi,hadded⟩ =>
    ⟨i,List.mem_cons_of_mem idx hi,hadded⟩
  found := List.forall_mem_cons.mpr
    ⟨fun walk htake hwalk hav => absurd hav (hnone walk htake hwalk),h.found⟩

/-- First of all a search that queues a path. -/
theorem Spurs.push {next : Path} {candidate : List GraphEdge}
    (h : Spurs lib check nw A B fastestPaths last idxs (next ::ₘ potentialPaths) queue)
    (hcheck : check fastestPaths (pathOf A last) idx (spurStop A last idx) = true)
    (hnext : Queues lib nw A B fastestPaths last idx next candidate) :
    Spurs lib check nw A B fastestPaths last (idx::idxs) potentialPaths queue where
  passed := List.forall_mem_cons.mpr ⟨hcheck,h.passed⟩
  keep path hpath := h.keep path (Multiset.mem_cons_of_mem hpath)
  added path hpath := by
    rcases h.added path hpath with hold | ⟨i,hi,hadded⟩
    · rcases Multiset.mem_cons.mp hold with rfl | hold
      · exact Or.inr ⟨idx,List.mem_cons_self,candidate,hnext⟩
      · exact Or.inl hold
    · exact Or.inr ⟨i,List.mem_cons_of_mem idx hi,hadded⟩
  found := List.forall_mem_cons.mpr ⟨fun _ _ _ _ =>
    ⟨next,h.keep next (Multiset.mem_cons_self _ _),candidate,hnext⟩,h.found⟩

theorem spurs_foldlM (hwf : nw.WellFormed) (hlast : IsJourney nw B A last)
    (hcost : walkCost last < 2^32) (idxs : List ℕ) (hidxs : ∀ idx ∈ idxs, idx < last.length ∧
      nw.searchFits lib (spurStop A last idx) B
        (removedStops fastestPaths (pathOf A last) idx) = true)
    (hcheck : ∀ idx ∈ idxs, check fastestPaths (pathOf A last) idx (spurStop A last idx) = true)
    (potentialPaths : lib.pathQueue.Queue) :
    ∃ queue, idxs.foldlM (nw.addPotentialPath lib B fastestPaths (pathOf A last)) potentialPaths =
      some queue ∧ Spurs lib check nw A B fastestPaths last idxs
        (lib.pathQueue.elems potentialPaths) (lib.pathQueue.elems queue) := by
  induction idxs generalizing potentialPaths with
  | nil => exact ⟨potentialPaths,rfl,hcheck,fun _ h => h,fun _ h => Or.inl h,by simp⟩
  | cons idx idxs ih =>
    obtain ⟨hidx,hfits⟩ := hidxs idx (by simp)
    obtain ⟨queue,hqueue,hadd⟩ := @addPotentialPath_spec lib nw A B last fastestPaths idx hwf
      potentialPaths hlast hcost hidx hfits
    obtain ⟨queue',hqueue',hspurs⟩ := ih (fun i hi => hidxs i (List.mem_cons_of_mem idx hi))
      (fun i hi => hcheck i (List.mem_cons_of_mem idx hi)) queue
    have hpassed := hcheck idx List.mem_cons_self
    refine ⟨queue',?_,?_⟩
    · rw [List.foldlM_cons,hqueue]
      exact hqueue'
    · rcases hadd with ⟨hsame,hnone⟩ | ⟨next,candidate,hnext,hpush⟩
      · rw [hsame] at hspurs
        exact hspurs.skip hpassed hnone
      · rw [hpush] at hspurs
        exact hspurs.push hpassed hnext

end QuietRoute
