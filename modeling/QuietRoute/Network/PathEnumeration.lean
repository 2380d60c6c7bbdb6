import QuietRoute.Network.SpurSearches

/-! The path enumeration: which path is selected, and the enumeration as a run of steps, for every
implementation of the queues. What is checked of the spur searches holds in each step. -/
namespace QuietRoute

open BestFirst TransportNetwork

variable {lib : StdLibrary} {check : SpurCheck} {nw : TransportNetwork} {A B : Id} {path : Path}
  {last : List GraphEdge} {fastestPaths : List Path} {T : ℕ}

/-! The selection. -/

/-- The path that is selected, and the potential paths that remain. -/
structure Selects (maxTravelTime : ℕ) (fastestPaths : List Path) (queue : Multiset Path)
    (kthPath : Path) (rest : Multiset Path) : Prop where
  mem : kthPath ∈ queue
  new : kthPath ∉ fastestPaths
  within : (pathTime kthPath).toNat ≤ maxTravelTime
  first : ∀ path ∈ queue, path ∉ fastestPaths → (pathTime kthPath).toNat ≤ (pathTime path).toNat
  rest_sub : ∀ path ∈ rest, path ∈ queue
  rest_keep : ∀ path ∈ queue, path ∉ fastestPaths → path = kthPath ∨ path ∈ rest

def Exhausted (maxTravelTime : ℕ) (fastestPaths : List Path) (queue : Multiset Path) : Prop :=
  ∀ path ∈ queue, path ∈ fastestPaths ∨ maxTravelTime < (pathTime path).toNat

theorem mem_rest_of_known {kthPath : Path} {rest : Multiset Path}
    (hknown : kthPath ∈ fastestPaths) (hpath : path ∈ kthPath ::ₘ rest)
    (hnew : path ∉ fastestPaths) : path ∈ rest := by
  refine (Multiset.mem_cons.mp hpath).resolve_left ?_
  rintro rfl
  exact hnew hknown

theorem Exhausted.cons_known {kthPath : Path} {rest : Multiset Path}
    (h : Exhausted T fastestPaths rest) (hknown : kthPath ∈ fastestPaths) :
    Exhausted T fastestPaths (kthPath ::ₘ rest) := by
  intro path hpath
  by_cases hnew : path ∈ fastestPaths
  · exact Or.inl hnew
  · exact h path (mem_rest_of_known hknown hpath hnew)

theorem Selects.cons_known {kthPath kthPath' : Path} {rest rest' : Multiset Path}
    (h : Selects T fastestPaths rest kthPath' rest') (hknown : kthPath ∈ fastestPaths) :
    Selects T fastestPaths (kthPath ::ₘ rest) kthPath' rest' where
  mem := Multiset.mem_cons_of_mem h.mem
  new := h.new
  within := h.within
  first path hpath hnew := h.first path (mem_rest_of_known hknown hpath hnew) hnew
  rest_sub path hpath := Multiset.mem_cons_of_mem (h.rest_sub path hpath)
  rest_keep path hpath hnew := h.rest_keep path (mem_rest_of_known hknown hpath hnew) hnew

theorem Selects.of_first {kthPath : Path} {rest : Multiset Path}
    (hnew : kthPath ∉ fastestPaths) (hT : (pathTime kthPath).toNat ≤ T)
    (hfirst : ∀ path ∈ kthPath ::ₘ rest, (pathTime kthPath).toNat ≤ (pathTime path).toNat) :
    Selects T fastestPaths (kthPath ::ₘ rest) kthPath rest where
  mem := Multiset.mem_cons_self _ _
  new := hnew
  within := hT
  first path hpath _ := hfirst path hpath
  rest_sub _ hpath := Multiset.mem_cons_of_mem hpath
  rest_keep _ hpath _ := Multiset.mem_cons.mp hpath

theorem selectKthPath_spec (maxTravelTime : UInt32) (fastestPaths : List Path) (fuel : ℕ)
    (queue : lib.pathQueue.Queue) (hfuel : (lib.pathQueue.elems queue).card ≤ fuel) :
    (selectKthPath lib maxTravelTime fastestPaths fuel queue = none ∧
      Exhausted maxTravelTime.toNat fastestPaths (lib.pathQueue.elems queue)) ∨
    ∃ kthPath rest, selectKthPath lib maxTravelTime fastestPaths fuel queue = some (kthPath,rest) ∧
      Selects maxTravelTime.toNat fastestPaths (lib.pathQueue.elems queue) kthPath
        (lib.pathQueue.elems rest) := by
  induction fuel generalizing queue with
  | zero =>
    have hempty := Multiset.card_eq_zero.mp (Nat.le_zero.mp hfuel)
    exact Or.inl ⟨rfl,by simp [Exhausted,hempty]⟩
  | succ fuel ih =>
    simp only [selectKthPath]
    cases hpop : lib.pathQueue.pop queue with
    | none => exact Or.inl ⟨rfl,by simp [Exhausted,lib.pathQueue.pop_none queue hpop]⟩
    | some top =>
      obtain ⟨kthPath,rest⟩ := top
      have helems := lib.pathQueue.pop_some queue kthPath rest hpop
      have hfirst : ∀ path ∈ lib.pathQueue.elems queue,
          (pathTime kthPath).toNat ≤ (pathTime path).toNat :=
        fun path hpath => not_lt.mp (lib.pathQueue.pop_first queue kthPath rest hpop path hpath)
      simp only [UInt32.lt_iff_toNat_lt]
      split_ifs with hslow hknown
      · exact Or.inl ⟨rfl,fun path hpath => Or.inr (hslow.trans_le (hfirst path hpath))⟩
      · have hcard : (lib.pathQueue.elems rest).card ≤ fuel := by
          rw [helems,Multiset.card_cons] at hfuel
          omega
        rw [helems]
        rcases ih rest hcard with ⟨hnone,hex⟩ | ⟨kthPath',rest',hsome,hsel⟩
        · exact Or.inl ⟨hnone,hex.cons_known hknown⟩
        · exact Or.inr ⟨kthPath',rest',hsome,hsel.cons_known hknown⟩
      · rw [helems] at hfirst ⊢
        exact Or.inr ⟨kthPath,rest,rfl,.of_first hknown (not_lt.mp hslow) hfirst⟩

/-! Runs of the enumeration. -/

abbrev Enumeration := List Path × Multiset Path

inductive Step (lib : StdLibrary) (check : SpurCheck) (nw : TransportNetwork) (A B : Id) (T : ℕ) :
    Enumeration → Enumeration → Prop
  | mk {fastestPaths : List Path} {last : List GraphEdge} {potentialPaths queue rest : Multiset Path}
    {kthPath : Path} : fastestPaths.getLast? = some (pathOf A last) →
    Spurs lib check nw A B fastestPaths last (List.range last.length) potentialPaths queue →
    Selects T fastestPaths queue kthPath rest →
    Step lib check nw A B T (fastestPaths,potentialPaths) (fastestPaths ++ [kthPath],rest)

/-- The spur searches of the next iteration leave nothing to select. -/
def Stuck (lib : StdLibrary) (check : SpurCheck) (nw : TransportNetwork) (A B : Id) (T : ℕ)
    (st : Enumeration) : Prop :=
  ∃ last queue, st.1.getLast? = some (pathOf A last) ∧
    Spurs lib check nw A B st.1 last (List.range last.length) st.2 queue ∧ Exhausted T st.1 queue

def Stored (nw : TransportNetwork) (A B : Id) (st : Enumeration) : Prop :=
  (∀ path ∈ st.1, ∃ edges, Records nw A B path edges) ∧
    ∀ path ∈ st.2, ∃ edges, Records nw A B path edges

theorem Spurs.stored {potentialPaths queue : Multiset Path} {idxs : List ℕ}
    (h : Spurs lib check nw A B fastestPaths last idxs potentialPaths queue)
    (hst : Stored nw A B (fastestPaths,potentialPaths)) : Stored nw A B (fastestPaths,queue) := by
  refine ⟨hst.1,fun path hpath => ?_⟩
  rcases h.added path hpath with hold | ⟨idx,-,candidate,hnew⟩
  · exact hst.2 path hold
  · exact ⟨candidate,hnew.eq,hnew.deviation.journey,hnew.deviation.fits⟩

theorem Stored.select {queue rest : Multiset Path} {kthPath : Path}
    (hst : Stored nw A B (fastestPaths,queue)) (h : Selects T fastestPaths queue kthPath rest) :
    Stored nw A B (fastestPaths ++ [kthPath],rest) := by
  refine ⟨fun path hpath => ?_,fun path hpath => hst.2 path (h.rest_sub path hpath)⟩
  rcases List.mem_append.mp hpath with hold | hnew
  · exact hst.1 path hold
  · rw [List.mem_singleton.mp hnew]
    exact hst.2 kthPath h.mem

theorem Step.stored {st st' : Enumeration} (h : Step lib check nw A B T st st') (hst : Stored nw A B st) :
    Stored nw A B st' := by
  cases h with
  | mk hlast hspurs hsel => exact (hspurs.stored hst).select hsel

theorem Stored.run {st st' : Enumeration} (h : Stored nw A B st)
    (hrun : Relation.ReflTransGen (Step lib check nw A B T) st st') : Stored nw A B st' := by
  induction hrun with
  | refl => exact h
  | tail _ hstep ih => exact hstep.stored ih

theorem Step.length {st st' : Enumeration} (h : Step lib check nw A B T st st') :
    st'.1.length = st.1.length+1 := by
  cases h with
  | mk => exact List.length_append

theorem Step.found_mono {st st' : Enumeration} (h : Step lib check nw A B T st st') :
    ∀ path ∈ st.1, path ∈ st'.1 := by
  cases h with
  | mk => exact fun path hpath => List.mem_append_left _ hpath

theorem length_le_of_run {st st' : Enumeration}
    (h : Relation.ReflTransGen (Step lib check nw A B T) st st') :
    st.1.length ≤ st'.1.length := by
  induction h with
  | refl => exact le_rfl
  | tail _ hstep ih => rw [hstep.length]; exact Nat.le_succ_of_le ih

/-! The enumeration. -/

namespace TransportNetwork

def spursPass (check : SpurCheck) (fastestPaths : List Path) (lastFastestPath : Path) : Bool :=
  (List.range (lastFastestPath.length-1)).all fun idx =>
    lastFastestPath[idx]?.all (check fastestPaths lastFastestPath idx)

def enumerationPasses (lib : StdLibrary) (check : SpurCheck) (nw : TransportNetwork) (stationB : Id)
    (maxTravelTime : UInt32) : ℕ → List Path → lib.pathQueue.Queue → Bool
  | 0, _, _ => true
  | wanted+1, fastestPaths, potentialPaths =>
    fastestPaths.getLast?.all fun lastFastestPath =>
      spursPass check fastestPaths lastFastestPath &&
        ((List.range (lastFastestPath.length-1)).foldlM
          (nw.addPotentialPath lib stationB fastestPaths lastFastestPath) potentialPaths).all
        fun queue => (selectKthPath lib maxTravelTime fastestPaths
          (lib.pathQueue.elems queue).card queue).all fun kthPath =>
            enumerationPasses lib check nw stationB maxTravelTime wanted (fastestPaths ++ [kthPath.1])
              kthPath.2

/-- No time accumulated by a spur search reaches `2^32`. -/
def spurFits (lib : StdLibrary) (nw : TransportNetwork) (stationB : Id) : SpurCheck :=
  fun fastestPaths lastFastestPath idx spurNode =>
    nw.searchFits lib spurNode stationB (removedStops fastestPaths lastFastestPath idx)

end TransportNetwork

theorem spursPass_pathOf (hpass : spursPass check fastestPaths (pathOf A last) = true) {idx : ℕ}
    (hidx : idx < last.length) : check fastestPaths (pathOf A last) idx (spurStop A last idx) = true := by
  have hlen : (pathOf A last).length-1 = last.length := by rw [pathOf,length_pathFrom]; rfl
  have hcheck := List.all_eq_true.mp hpass idx (by rwa [hlen,List.mem_range])
  rwa [getElem?_pathOf hidx.le,Option.all_some] at hcheck

/-- The enumeration is a run of steps, up to the wanted number of paths or until it is stuck. -/
theorem enumeratePaths_run (hwf : nw.WellFormed) (maxTravelTime : UInt32) (wanted : ℕ)
    (fastestPaths : List Path) (potentialPaths : lib.pathQueue.Queue) (hne : fastestPaths ≠ [])
    (hst : Stored nw A B (fastestPaths,lib.pathQueue.elems potentialPaths))
    (hfits : nw.enumerationPasses lib (nw.spurFits lib B) B maxTravelTime wanted fastestPaths
      potentialPaths = true)
    (hpass : nw.enumerationPasses lib check B maxTravelTime wanted fastestPaths potentialPaths = true) :
    ∃ paths queue, nw.enumeratePaths lib B maxTravelTime wanted fastestPaths potentialPaths =
        some paths ∧
      Relation.ReflTransGen (Step lib check nw A B maxTravelTime.toNat)
        (fastestPaths,lib.pathQueue.elems potentialPaths) (paths,queue) ∧
      paths.length ≤ fastestPaths.length+wanted ∧ (paths.length = fastestPaths.length+wanted ∨
        Stuck lib check nw A B maxTravelTime.toNat (paths,queue)) := by
  induction wanted generalizing fastestPaths potentialPaths with
  | zero => exact ⟨fastestPaths,_,rfl,Relation.ReflTransGen.refl,le_rfl,Or.inl rfl⟩
  | succ wanted ih =>
    obtain ⟨lastPath,hget⟩ : ∃ path, fastestPaths.getLast? = some path :=
      ⟨_,List.getLast?_eq_some_getLast hne⟩
    obtain ⟨last,hrec⟩ := hst.1 lastPath (List.mem_of_getLast? hget)
    obtain rfl := hrec.eq
    have hlen : (pathOf A last).length-1 = last.length := by rw [pathOf,length_pathFrom]; rfl
    simp only [enumerationPasses,hget,Option.all_some,Bool.and_eq_true] at hfits hpass
    obtain ⟨hspursFit,hfits⟩ := hfits
    obtain ⟨hspursPass,hpass⟩ := hpass
    obtain ⟨queue,hqueue,hspurs⟩ := spurs_foldlM hwf hrec.journey hrec.fits (List.range last.length)
      (fun idx hidx => ⟨List.mem_range.mp hidx,spursPass_pathOf hspursFit (List.mem_range.mp hidx)⟩)
      (fun idx hidx => spursPass_pathOf hspursPass (List.mem_range.mp hidx)) potentialPaths
    rw [← hlen] at hqueue
    simp only [enumeratePaths,hget,hqueue,Option.bind_eq_bind,Option.bind_some]
    rw [hqueue,Option.all_some] at hfits hpass
    rcases selectKthPath_spec maxTravelTime fastestPaths _ queue le_rfl with
      ⟨hnone,hex⟩ | ⟨kthPath,rest,hsome,hsel⟩
    · rw [hnone]
      exact ⟨fastestPaths,_,rfl,Relation.ReflTransGen.refl,by omega,
        Or.inr ⟨last,_,hget,hspurs,hex⟩⟩
    · rw [hsome] at hfits hpass ⊢
      have hstep : Step lib check nw A B maxTravelTime.toNat
          (fastestPaths,lib.pathQueue.elems potentialPaths)
          (fastestPaths ++ [kthPath],lib.pathQueue.elems rest) := .mk hget hspurs hsel
      obtain ⟨paths,final,hpaths,hrun,hlen',hend⟩ := ih (fastestPaths ++ [kthPath]) rest (by simp)
        (hstep.stored hst) hfits hpass
      rw [List.length_append,List.length_singleton] at hlen' hend
      refine ⟨paths,final,hpaths,.head hstep hrun,by omega,?_⟩
      exact hend.imp_left fun h => by omega

/-! The enumeration from the fastest path on. -/

def walkCosts (nw : TransportNetwork) (A B : Id) : Set ℕ :=
  {cost | ∃ walk, IsWalk nw A walk B ∧ walkCost walk = cost}

theorem not_isWalk_of_unreachable (hne : A ≠ B) (h : ∀ b : PathStop × ℕ, b.1.node = B →
    ¬Relation.ReflTransGen (Advance (nw.moves B [])) (label (⟨A,none⟩,0)) b) :
    ¬∃ walk, IsWalk nw A walk B := by
  rintro ⟨walk,hwalk⟩
  obtain ⟨b,hb,-,hreach⟩ := @reach_of_walk nw B [] ⟨A,none⟩ 0 walk hne hwalk (by simp)
  exact h b hb hreach

theorem exists_fastest (hne : A ≠ B) (h : IsFastest nw (⟨A,none⟩,0) B [] path) :
    ∃ first, Records nw A B path first ∧ (walkStations A first).Nodup ∧
      IsLeast (walkCosts nw A B) (walkCost first) := by
  obtain ⟨rest,rfl⟩ := List.head?_eq_some_iff.mp h.head
  obtain ⟨first,hpath,hjourney,-,htime⟩ := journey_of_chain h.chain h.last
  have hcost : (pathTime (((⟨A,none⟩,0) : PathStopDist)::rest)).toNat = walkCost first := by
    rw [htime]
    simp [walkTime_none]
  have hloop := h.loopless
  rw [hpath,map_node_pathFrom] at hloop
  refine ⟨first,⟨hpath,hjourney,hcost ▸ UInt32.toNat_lt _⟩,hloop,⟨first,hjourney.isWalk,rfl⟩,?_⟩
  rintro cost ⟨walk,hwalk,rfl⟩
  obtain ⟨b,hb,hle,hreach⟩ := @reach_of_walk nw B [] ⟨A,none⟩ 0 walk hne hwalk (by simp)
  rw [walkTime_none,Nat.zero_add] at hle
  exact hcost ▸ (h.optimal b hb hreach).trans hle

/-- The conversion of a real number that a platform compiles `static_cast<unsigned int>` to: some
value or other where the cast is undefined. -/
structure UnsignedCast where
  convert : ℚ → UInt32
  agrees : ∀ x t, toUnsigned x = some t → convert x = t

def UnsignedCast.toZero : UnsignedCast where
  convert x := (toUnsigned x).getD 0
  agrees x t h := by rw [h,Option.getD_some]

variable {cast : UnsignedCast} {q : ℚ} {K : ℕ}

theorem UnsignedCast.le_floor (cast : UnsignedCast) {x : ℚ} (hx : 0 ≤ x) (t : UInt32)
    (h : t.toNat ≤ (cast.convert x).toNat) : t.toNat ≤ ⌊x⌋₊ := by
  by_cases hfloor : ⌊x⌋₊ < 2^32
  · obtain ⟨limit,hlimit,hnat⟩ := toUnsigned_of_floor_lt hx hfloor
    rwa [cast.agrees x limit hlimit,hnat] at h
  · exact t.toNat_lt.le.trans (not_lt.mp hfloor)

namespace TransportNetwork

/-- `getFastestTravelRoutes` with the time limit that the platform's conversion yields. -/
def getFastestTravelRoutesWith (lib : StdLibrary) (cast : UnsignedCast) (nw : TransportNetwork)
    (stationA stationB : Id) (maxSlowdownPc : ℚ) (maxNPaths : ℕ) : Option (List Path) := do
  let fastestPath ← nw.getFastestTravelRouteInternal lib (⟨stationA,none⟩,0) stationB []
  if fastestPath = [] then return []
  let maxTravelTime := cast.convert
    (lib.rounding.product (pathTime fastestPath).toNat (1+maxSlowdownPc))
  nw.enumeratePaths lib stationB maxTravelTime (maxNPaths-1) [fastestPath] lib.pathQueue.empty

def routesPass (lib : StdLibrary) (cast : UnsignedCast) (check : UInt32 → SpurCheck)
    (nw : TransportNetwork) (stationA stationB : Id) (maxSlowdownPc : ℚ) (maxNPaths : ℕ) : Bool :=
  (nw.getFastestTravelRouteInternal lib (⟨stationA,none⟩,0) stationB []).all fun fastestPath =>
    let maxTravelTime := cast.convert
      (lib.rounding.product (pathTime fastestPath).toNat (1+maxSlowdownPc))
    fastestPath = [] || nw.enumerationPasses lib (check maxTravelTime) stationB maxTravelTime
      (maxNPaths-1) [fastestPath] lib.pathQueue.empty

/-- No time accumulated by any search of the enumeration reaches `2^32`. -/
def routesFitWith (lib : StdLibrary) (cast : UnsignedCast) (nw : TransportNetwork)
    (stationA stationB : Id) (maxSlowdownPc : ℚ) (maxNPaths : ℕ) : Bool :=
  nw.searchFits lib (⟨stationA,none⟩,0) stationB [] &&
    nw.routesPass lib cast (fun _ => nw.spurFits lib stationB) stationA stationB maxSlowdownPc maxNPaths

/-- The same where the cast of the time limit is defined. -/
def routesFit (lib : StdLibrary) (nw : TransportNetwork) (stationA stationB : Id)
    (maxSlowdownPc : ℚ) (maxNPaths : ℕ) : Bool :=
  nw.searchFits lib (⟨stationA,none⟩,0) stationB [] &&
    (nw.getFastestTravelRouteInternal lib (⟨stationA,none⟩,0) stationB []).all fun fastestPath =>
      fastestPath = [] ||
        (toUnsigned (lib.rounding.product (pathTime fastestPath).toNat (1+maxSlowdownPc))).all
          fun maxTravelTime => nw.enumerationPasses lib (nw.spurFits lib stationB) stationB
            maxTravelTime (maxNPaths-1) [fastestPath] lib.pathQueue.empty

/-- Where the cast is defined, every conversion gives the result of `getFastestTravelRoutes`. -/
theorem getFastestTravelRoutesWith_eq {paths : List Path}
    (h : nw.getFastestTravelRoutes lib A B q K = some paths) :
    nw.getFastestTravelRoutesWith lib cast A B q K = some paths := by
  obtain ⟨fastestPath,hpath,hrest⟩ := Option.bind_eq_some_iff.mp h
  simp only [getFastestTravelRoutesWith,hpath,Option.bind_eq_bind,Option.bind_some]
  split_ifs at hrest ⊢
  · exact hrest
  · obtain ⟨limit,hlimit,hpaths⟩ := Option.bind_eq_some_iff.mp hrest
    rwa [cast.agrees _ limit hlimit]

end TransportNetwork

variable {limited : UInt32 → SpurCheck}

/-- What the enumeration leaves: nothing if there is no way, or a run from the fastest path. -/
theorem getFastestTravelRoutesWith_run (hwf : nw.WellFormed) (hne : A ≠ B)
    (hfits : nw.routesFitWith lib cast A B q K = true)
    (hpass : nw.routesPass lib cast limited A B q K = true) :
    (nw.getFastestTravelRoutesWith lib cast A B q K = some [] ∧ ¬∃ walk, IsWalk nw A walk B) ∨
    ∃ fastestPath first paths queue,
      nw.getFastestTravelRouteInternal lib (⟨A,none⟩,0) B [] = some fastestPath ∧
      Records nw A B fastestPath first ∧ (walkStations A first).Nodup ∧
      IsLeast (walkCosts nw A B) (walkCost first) ∧
      nw.getFastestTravelRoutesWith lib cast A B q K = some paths ∧
      let maxTravelTime := cast.convert (lib.rounding.product (pathTime fastestPath).toNat (1+q))
      Relation.ReflTransGen (Step lib (limited maxTravelTime) nw A B maxTravelTime.toNat)
        ([fastestPath],0) (paths,queue) ∧
      paths.length ≤ 1+(K-1) ∧ (paths.length = 1+(K-1) ∨
        Stuck lib (limited maxTravelTime) nw A B maxTravelTime.toNat (paths,queue)) := by
  obtain ⟨hsearch,hfits⟩ := Bool.and_eq_true_iff.mp hfits
  have hstart : ((⟨A,none⟩,0) : PathStopDist).1.node ≠ B := hne
  obtain ⟨fastestPath,hpath,hspec⟩ := getFastestTravelRouteInternal_spec hwf hstart hsearch
  rcases hspec with ⟨rfl,hnone⟩ | hfast
  · refine Or.inl ⟨?_,not_isWalk_of_unreachable hne hnone⟩
    simp only [getFastestTravelRoutesWith,hpath,Option.bind_eq_bind,Option.bind_some,if_true]
    rfl
  · obtain ⟨first,hrec,hloop,hleast⟩ := exists_fastest hne hfast
    have hcons : fastestPath ≠ [] := by
      rintro rfl
      simpa using hfast.head
    rw [routesPass,hpath,Option.all_some,Bool.or_eq_true,decide_eq_true_eq] at hfits hpass
    have hempty := lib.pathQueue.elems_empty
    obtain ⟨paths,queue,hpaths,hrun,hlen,hend⟩ := enumeratePaths_run hwf
      (cast.convert (lib.rounding.product (pathTime fastestPath).toNat (1+q))) (K-1) [fastestPath]
      lib.pathQueue.empty (by simp) ⟨by simpa using ⟨first,hrec⟩,by simp [hempty]⟩
      (hfits.resolve_left hcons) (hpass.resolve_left hcons)
    rw [hempty] at hrun
    refine Or.inr ⟨fastestPath,first,paths,queue,hpath,hrec,hloop,hleast,?_,hrun,hlen,hend⟩
    simp only [getFastestTravelRoutesWith,hpath,Option.bind_eq_bind,Option.bind_some,if_neg hcons]
    exact hpaths

theorem toUnsigned_of_fastest (hwf : nw.WellFormed) (hne : A ≠ B)
    (hsearch : nw.searchFits lib (⟨A,none⟩,0) B [] = true) (hq : 0 ≤ q)
    (hT : ∀ fastest, IsLeast (walkCosts nw A B) fastest → lib.timeLimit fastest q < 2^32)
    (hpath : nw.getFastestTravelRouteInternal lib (⟨A,none⟩,0) B [] = some path) (hcons : path ≠ []) :
    ∃ t, toUnsigned (lib.rounding.product (pathTime path).toNat (1+q)) = some t := by
  have hstart : ((⟨A,none⟩,0) : PathStopDist).1.node ≠ B := hne
  obtain ⟨path',hpath',hspec⟩ := getFastestTravelRouteInternal_spec hwf hstart hsearch
  obtain rfl : path = path' := Option.some.inj (hpath.symm.trans hpath')
  rcases hspec with ⟨hnil,-⟩ | hfast
  · exact absurd hnil hcons
  · obtain ⟨first,hrec,-,hleast⟩ := exists_fastest hne hfast
    rw [hrec.time]
    exact (lib.toUnsigned_timeLimit hq (hT _ hleast)).imp fun _ h => h.1

theorem getFastestTravelRoutes_of_limit (hwf : nw.WellFormed) (hne : A ≠ B)
    (hsearch : nw.searchFits lib (⟨A,none⟩,0) B [] = true) (hq : 0 ≤ q)
    (hT : ∀ fastest, IsLeast (walkCosts nw A B) fastest → lib.timeLimit fastest q < 2^32) :
    nw.getFastestTravelRoutes lib A B q K = nw.getFastestTravelRoutesWith lib cast A B q K := by
  simp only [getFastestTravelRoutes,getFastestTravelRoutesWith,Option.bind_eq_bind]
  refine Option.bind_congr fun path hpath => ?_
  split_ifs with hnil
  · rfl
  · obtain ⟨t,ht⟩ := toUnsigned_of_fastest hwf hne hsearch hq hT hpath hnil
    rw [ht,Option.bind_some,cast.agrees _ t ht]

theorem routesFitWith_of_routesFit (hwf : nw.WellFormed) (hne : A ≠ B) (hq : 0 ≤ q)
    (hT : ∀ fastest, IsLeast (walkCosts nw A B) fastest → lib.timeLimit fastest q < 2^32)
    (hfits : nw.routesFit lib A B q K = true) : nw.routesFitWith lib cast A B q K = true := by
  obtain ⟨hsearch,hfits⟩ := Bool.and_eq_true_iff.mp hfits
  refine Bool.and_eq_true_iff.mpr ⟨hsearch,?_⟩
  cases hpath : nw.getFastestTravelRouteInternal lib (⟨A,none⟩,0) B [] with
  | none => rw [routesPass,hpath,Option.all_none]
  | some path =>
    rw [hpath,Option.all_some,Bool.or_eq_true,decide_eq_true_eq] at hfits
    rw [routesPass,hpath,Option.all_some,Bool.or_eq_true,decide_eq_true_eq]
    by_cases hnil : path = []
    · exact Or.inl hnil
    · obtain ⟨t,ht⟩ := toUnsigned_of_fastest hwf hne hsearch hq hT hpath hnil
      rw [ht,Option.all_some] at hfits
      rw [cast.agrees _ t ht]
      exact Or.inr (hfits.resolve_left hnil)

theorem getFastestTravelRoutes_run (hwf : nw.WellFormed) (hne : A ≠ B) (hq : 0 ≤ q)
    (hfits : nw.routesFit lib A B q K = true)
    (hpass : nw.routesPass lib cast limited A B q K = true) {fastest : ℕ}
    (hfastest : IsLeast (walkCosts nw A B) fastest) (hT : lib.timeLimit fastest q < 2^32) :
    ∃ maxTravelTime first paths queue, maxTravelTime.toNat = lib.timeLimit fastest q ∧
      Records nw A B (pathOf A first) first ∧ (walkStations A first).Nodup ∧
      walkCost first = fastest ∧ nw.getFastestTravelRoutes lib A B q K = some paths ∧
      Relation.ReflTransGen (Step lib (limited maxTravelTime) nw A B (lib.timeLimit fastest q))
        ([pathOf A first],0) (paths,queue) ∧
      paths.length ≤ 1+(K-1) ∧ (paths.length = 1+(K-1) ∨
        Stuck lib (limited maxTravelTime) nw A B (lib.timeLimit fastest q) (paths,queue)) := by
  have hlimit : ∀ cost, IsLeast (walkCosts nw A B) cost → lib.timeLimit cost q < 2^32 :=
    fun cost hcost => hcost.unique hfastest ▸ hT
  have hwith := @routesFitWith_of_routesFit lib nw A B cast q K hwf hne hq hlimit hfits
  rcases getFastestTravelRoutesWith_run hwf hne hwith hpass with ⟨-,hnone⟩ |
    ⟨fastestPath,first,paths,queue,-,hrec,hloop,hleast,hpaths,hrun,hlen,hend⟩
  · obtain ⟨walk,hwalk,-⟩ := hfastest.1
    exact absurd ⟨walk,hwalk⟩ hnone
  · have hcost := hleast.unique hfastest
    obtain ⟨t,ht,htNat⟩ := lib.toUnsigned_timeLimit hq hT
    rw [hrec.time,hcost,cast.agrees _ t ht,htNat] at hrun hend
    obtain rfl := hrec.eq
    rw [← getFastestTravelRoutes_of_limit hwf hne (Bool.and_eq_true_iff.mp hwith).1 hq hlimit] at hpaths
    exact ⟨t,first,paths,queue,htNat,hrec,hloop,hcost,hpaths,hrun,hlen,hend⟩

end QuietRoute
