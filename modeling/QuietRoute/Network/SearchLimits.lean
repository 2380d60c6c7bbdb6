import QuietRoute.Network.QuietSelection

/-! What the limits of a route search do. Tighter ones cut the enumeration off, and wider ones never
make the quiet route more crowded. -/
namespace QuietRoute
namespace TransportNetwork

variable {lib : StdLibrary} {nw : TransportNetwork} {A B : Id} {q q' p p' : ℚ} {K K' wanted : ℕ}
  {maxTravelTime maxTravelTime' : UInt32} {fastestPaths paths more : List Path}
  {potentialPaths : lib.pathQueue.Queue} {path : Path}

/-! The enumeration. -/

theorem selectKthPath_le (hle : maxTravelTime ≤ maxTravelTime')
    (hknown : ∀ path ∈ fastestPaths, pathTime path ≤ maxTravelTime) (fuel : ℕ) :
    selectKthPath lib maxTravelTime fastestPaths fuel potentialPaths =
      (selectKthPath lib maxTravelTime' fastestPaths fuel potentialPaths).filter
        fun next => pathTime next.1 ≤ maxTravelTime := by
  induction fuel generalizing potentialPaths with
  | zero => rfl
  | succ fuel ih =>
    rw [selectKthPath,selectKthPath]
    cases lib.pathQueue.pop potentialPaths with
    | none => rfl
    | some next =>
      obtain ⟨kthPath,rest⟩ := next
      simp only
      by_cases hslow : maxTravelTime < pathTime kthPath
      · -- a path that is known is not too slow
        have hnew : kthPath ∉ fastestPaths :=
          fun hmem => UInt32.not_lt.mpr (hknown kthPath hmem) hslow
        rw [if_pos hslow,if_neg hnew]
        split_ifs
        · rfl
        · simp [Option.filter,hslow]
      · have hfits : ¬maxTravelTime' < pathTime kthPath :=
          UInt32.not_lt.mpr (UInt32.le_trans (UInt32.not_lt.mp hslow) hle)
        rw [if_neg hslow,if_neg hfits]
        split_ifs
        · exact ih
        · simp [Option.filter,UInt32.not_lt.mp hslow]

/-- The enumeration under tighter limits is the start of the other one. -/
theorem enumeratePaths_le (hle : maxTravelTime ≤ maxTravelTime') {wanted' : ℕ}
    (hwanted : wanted ≤ wanted')
    (hknown : ∀ path ∈ fastestPaths, pathTime path ≤ maxTravelTime)
    (h : nw.enumeratePaths lib B maxTravelTime' wanted' fastestPaths potentialPaths =
      some (fastestPaths ++ more)) :
    nw.enumeratePaths lib B maxTravelTime wanted fastestPaths potentialPaths = some (fastestPaths ++
      (more.takeWhile fun path => pathTime path ≤ maxTravelTime).take wanted) := by
  induction wanted generalizing wanted' fastestPaths potentialPaths more with
  | zero => simp [enumeratePaths]
  | succ wanted ih =>
    obtain ⟨wanted',rfl⟩ := Nat.exists_eq_add_of_le' (Nat.one_le_of_lt hwanted)
    simp only [enumeratePaths,Option.bind_eq_bind,Option.bind_eq_some_iff] at h ⊢
    obtain ⟨lastFastestPath,hlast,queue,hqueue,h⟩ := h
    refine ⟨lastFastestPath,hlast,queue,hqueue,?_⟩
    rw [selectKthPath_le hle hknown]
    split at h
    · rename_i hnone
      obtain rfl : more = [] := by simpa using h
      rw [hnone]
      simp
    · rename_i kthPath rest hselect
      obtain ⟨later,hlater,-⟩ := enumeratePaths_adds h
      obtain rfl : more = kthPath::later := by simpa using hlater
      rw [hselect]
      by_cases hslow : pathTime kthPath ≤ maxTravelTime
      · have hknown' : ∀ path ∈ fastestPaths ++ [kthPath], pathTime path ≤ maxTravelTime := by
          intro path hpath
          rcases List.mem_append.mp hpath with hold | hnew
          · exact hknown path hold
          · exact List.mem_singleton.mp hnew ▸ hslow
        rw [List.append_cons fastestPaths kthPath later] at h
        have hrest := ih (Nat.le_of_succ_le_succ hwanted) hknown' h
        simpa [Option.filter,hslow] using hrest
      · simp [Option.filter,hslow]

/-- The paths within tighter limits: the fastest one, and others as long as they are fast enough. The
limit is the one that the code computes. -/
def withinLimits (lib : StdLibrary) (maxSlowdownPc : ℚ) (maxNPaths : ℕ) : List Path → List Path
  | [] => []
  | fastestPath::paths => fastestPath::(paths.takeWhile fun path =>
      (pathTime path).toNat ≤ lib.timeLimit (pathTime fastestPath).toNat maxSlowdownPc).take (maxNPaths-1)

theorem withinLimits_isPrefix (q : ℚ) (K : ℕ) (paths : List Path) :
    withinLimits lib q K paths <+: paths := by
  cases paths with
  | nil => exact List.prefix_rfl
  | cons fastestPath paths =>
    refine List.prefix_cons_inj fastestPath |>.mpr ?_
    exact (List.take_prefix _ _).trans (List.takeWhile_prefix _)

/-- Limits only cut the enumeration off, wherever the first limits have let it come. -/
theorem getFastestTravelRoutes_limits (lib : StdLibrary) (nw : TransportNetwork) (A B : Id) (hq : 0 ≤ q)
    (hle : q ≤ q') (hK : K ≤ K') (h : nw.getFastestTravelRoutes lib A B q' K' = some paths) :
    nw.getFastestTravelRoutes lib A B q K = some (withinLimits lib q K paths) ∧
      (withinLimits lib q K paths).length ≤ max 1 K := by
  have hlen : (withinLimits lib q K paths).length ≤ max 1 K := by
    cases paths with
    | nil => exact Nat.zero_le _
    | cons fastestPath paths =>
      have htake := List.length_take_le (K-1) (paths.takeWhile fun path =>
        (pathTime path).toNat ≤ lib.timeLimit (pathTime fastestPath).toNat q)
      simp only [withinLimits,List.length_cons]
      omega
  refine ⟨?_,hlen⟩
  simp only [getFastestTravelRoutes,Option.bind_eq_bind,Option.bind_eq_some_iff] at h ⊢
  obtain ⟨fastestPath,hfastest,h⟩ := h
  refine ⟨fastestPath,hfastest,?_⟩
  split_ifs at h ⊢ with hempty
  · rw [← Option.some.inj h]
    rfl
  · rw [Option.bind_eq_some_iff] at h ⊢
    obtain ⟨maxTravelTime',hmax',h⟩ := h
    have hfloor' : maxTravelTime'.toNat = lib.timeLimit (pathTime fastestPath).toNat q' :=
      toNat_of_toUnsigned (lib.rounding.product_nonneg _ (by linarith)) hmax'
    have hmono := lib.timeLimit_mono (pathTime fastestPath).toNat hle
    have hfits : lib.timeLimit (pathTime fastestPath).toNat q < 2^32 :=
      hmono.trans_lt (hfloor' ▸ maxTravelTime'.toNat_lt)
    obtain ⟨maxTravelTime,hmax,hfloor⟩ := lib.toUnsigned_timeLimit hq hfits
    refine ⟨maxTravelTime,hmax,?_⟩
    obtain ⟨more,hmore,-⟩ := enumeratePaths_adds h
    obtain rfl : paths = fastestPath::more := by simpa using hmore
    have hle' : maxTravelTime ≤ maxTravelTime' := by
      rw [UInt32.le_iff_toNat_le,hfloor,hfloor']
      exact hmono
    have hknown : ∀ path ∈ [fastestPath], pathTime path ≤ maxTravelTime := by
      intro path hpath
      rw [List.mem_singleton.mp hpath,UInt32.le_iff_toNat_le,hfloor]
      exact lib.le_timeLimit (UInt32.toNat_lt _) hq
    rw [enumeratePaths_le hle' (Nat.sub_le_sub_right hK 1) hknown h]
    simp only [withinLimits,UInt32.le_iff_toNat_le,hfloor,List.singleton_append]

/-- Of the two ways only the fastest is left when no more time is given. -/
theorem getFastestTravelRoutes_limits_crowded : ∃ paths,
    (networkOf crowdedCalls).getFastestTravelRoutes .simple (ascii "A") (ascii "B") 1 1000 = some paths ∧
      (networkOf crowdedCalls).getFastestTravelRoutes .simple (ascii "A") (ascii "B") 0 5 =
        some (withinLimits .simple 0 5 paths) ∧
      paths.map pathTime = [2,3] ∧ (withinLimits .simple 0 5 paths).map pathTime = [2] := by
  have hrun : ((networkOf crowdedCalls).getFastestTravelRoutes .simple (ascii "A") (ascii "B") 1
      1000).any fun paths => paths.map pathTime = [2,3] ∧
        (withinLimits .simple 0 5 paths).map pathTime = [2] := by decide +kernel
  obtain ⟨paths,hpaths,htimes⟩ := (Option.any_eq_true _ _).mp hrun
  exact ⟨paths,hpaths,(getFastestTravelRoutes_limits .simple _ _ _ (le_refl 0) (by norm_num)
    (by norm_num) hpaths).1,of_decide_eq_true htimes⟩

/-! Where the enumerated paths start. -/

def StartsAt (A : Id) (path : Path) : Prop := path.head?.map (·.1.node) = some A

theorem startsAt_assemblePath {st : SearchState lib} {fuel : ℕ} {stop : PathStop} {assembled : Path}
    (hstart : StartsAt stop.node path) (h : st.assemblePath A fuel stop path = some assembled) :
    StartsAt A assembled := by
  induction fuel generalizing stop path with
  | zero =>
    rw [SearchState.assemblePath] at h
    split_ifs at h with hA
    exact Option.some.inj h ▸ hA ▸ hstart
  | succ fuel ih =>
    rw [SearchState.assemblePath] at h
    split_ifs at h with hA
    · exact Option.some.inj h ▸ hA ▸ hstart
    · simp only [Option.bind_eq_bind,Option.bind_eq_some_iff] at h
      obtain ⟨prev,-,distance,-,h⟩ := h
      refine ih ?_ h
      rfl

theorem startsAt_internal {stopA : PathStopDist} {excludedStops : List PathStop}
    (h : nw.getFastestTravelRouteInternal lib stopA B excludedStops = some path) (hempty : path ≠ []) :
    StartsAt stopA.1.node path := by
  rw [getFastestTravelRouteInternal] at h
  split_ifs at h with heq
  · rw [← Option.some.inj h]
    rfl
  · simp only at h
    split at h
    · exact absurd (Option.some.inj h).symm hempty
    · refine startsAt_assemblePath ?_ h
      rfl

theorem startsAt_addPotentialPaths {lastFastestPath : Path} (hlast : StartsAt A lastFastestPath)
    (idxs : List ℕ) {queue : lib.pathQueue.Queue}
    (hqueue : ∀ path ∈ lib.pathQueue.elems potentialPaths, StartsAt A path)
    (h : idxs.foldlM (nw.addPotentialPath lib B fastestPaths lastFastestPath) potentialPaths =
      some queue) : ∀ path ∈ lib.pathQueue.elems queue, StartsAt A path := by
  induction idxs generalizing potentialPaths with
  | nil => exact Option.some.inj h ▸ hqueue
  | cons idx idxs ih =>
    simp only [List.foldlM_cons,Option.bind_eq_bind,Option.bind_eq_some_iff] at h
    obtain ⟨next,hnext,h⟩ := h
    refine ih ?_ h
    simp only [addPotentialPath,Option.bind_eq_bind,Option.bind_eq_some_iff] at hnext
    obtain ⟨spurNode,hspur,spurPath,hspurPath,hnext⟩ := hnext
    split_ifs at hnext
    · exact Option.some.inj hnext ▸ hqueue
    · rw [← Option.some.inj hnext]
      intro path hpath
      rw [lib.pathQueue.elems_push,Multiset.mem_cons] at hpath
      rcases hpath with rfl | hold
      · cases lastFastestPath with
        | nil => cases hspur
        | cons first tail =>
          cases idx with
          | zero =>
            obtain rfl : first = spurNode := Option.some.inj hspur
            exact Option.some.inj hlast ▸ startsAt_internal hspurPath ‹_›
          | succ idx => exact hlast
      · exact hqueue path hold

theorem selectKthPath_mem (fuel : ℕ) {rest : lib.pathQueue.Queue}
    (h : selectKthPath lib maxTravelTime fastestPaths fuel potentialPaths = some (path,rest)) :
    path ∈ lib.pathQueue.elems potentialPaths ∧
      lib.pathQueue.elems rest ⊆ lib.pathQueue.elems potentialPaths := by
  induction fuel generalizing potentialPaths with
  | zero => cases h
  | succ fuel ih =>
    rw [selectKthPath] at h
    split at h
    · cases h
    · rename_i kthPath next hpop
      have helems := lib.pathQueue.pop_some _ _ _ hpop
      have hsub : lib.pathQueue.elems next ⊆ lib.pathQueue.elems potentialPaths :=
        helems ▸ Multiset.subset_cons _ _
      split_ifs at h
      · obtain ⟨hmem,hrest⟩ := ih h
        exact ⟨hsub hmem,fun path hpath => hsub (hrest hpath)⟩
      · obtain ⟨rfl,rfl⟩ := Prod.mk.inj (Option.some.inj h)
        exact ⟨helems ▸ Multiset.mem_cons_self _ _,hsub⟩

theorem startsAt_enumeratePaths (hfound : ∀ path ∈ fastestPaths, StartsAt A path)
    (hqueue : ∀ path ∈ lib.pathQueue.elems potentialPaths, StartsAt A path)
    (h : nw.enumeratePaths lib B maxTravelTime wanted fastestPaths potentialPaths = some paths) :
    ∀ path ∈ paths, StartsAt A path := by
  induction wanted generalizing fastestPaths potentialPaths with
  | zero => exact Option.some.inj h ▸ hfound
  | succ wanted ih =>
    simp only [enumeratePaths,Option.bind_eq_bind,Option.bind_eq_some_iff] at h
    obtain ⟨last,hlast,queue,hpotential,h⟩ := h
    have hqueue' := startsAt_addPotentialPaths (hfound last (List.mem_of_getLast? hlast)) _ hqueue
      hpotential
    split at h
    · exact Option.some.inj h ▸ hfound
    · rename_i kthPath rest hselect
      obtain ⟨hmem,hrest⟩ := selectKthPath_mem _ hselect
      refine ih (fun path hpath => ?_) (fun path hpath => hqueue' path (hrest hpath)) h
      rcases List.mem_append.mp hpath with hold | hnew
      · exact hfound path hold
      · exact List.mem_singleton.mp hnew ▸ hqueue' kthPath hmem

theorem startsAt_getFastestTravelRoutes (h : nw.getFastestTravelRoutes lib A B q K = some paths) :
    ∀ path ∈ paths, StartsAt A path := by
  simp only [getFastestTravelRoutes,Option.bind_eq_bind,Option.bind_eq_some_iff] at h
  obtain ⟨fastestPath,hfastest,h⟩ := h
  split_ifs at h
  · rw [← Option.some.inj h]
    exact fun path hpath => absurd hpath List.not_mem_nil
  · rw [Option.bind_eq_some_iff] at h
    obtain ⟨maxTravelTime,-,h⟩ := h
    refine startsAt_enumeratePaths (fun path hpath => ?_) (fun path hpath => ?_) h
    · exact List.mem_singleton.mp hpath ▸ startsAt_internal hfastest ‹_›
    · rw [lib.pathQueue.elems_empty] at hpath
      exact absurd hpath (Multiset.notMem_zero path)

/-! The passengers that an itinerary meets. -/

def stationsOf (route : TravelRoute) : List Id := route.startStationId::route.steps.map (·.endStationId)

/-- Their passenger counts, as far as an unsigned total keeps them. -/
def crowdingOf (nw : TransportNetwork) (route : TravelRoute) : ℤ :=
  ((stationsOf route).map fun S => (nw.getPassengerCount S).getD 0).sum % 2^32

theorem endStations_travelSteps {steps : List TravelStep} (h : travelSteps path = some steps) :
    steps.map (·.endStationId) = path.tail.map (·.1.node) := by
  induction path generalizing steps with
  | nil =>
    rw [← Option.some.inj h]
    rfl
  | cons prevStop path ih =>
    cases path with
    | nil =>
      rw [← Option.some.inj h]
      rfl
    | cons currStop path =>
      simp only [travelSteps,Option.bind_eq_bind,Option.bind_eq_some_iff,Option.pure_def,
        Option.some.injEq] at h
      obtain ⟨edge,-,rest,hrest,rfl⟩ := h
      simpa using ih hrest

theorem crowdingOf_assemble {route : TravelRoute} (hstart : StartsAt A path)
    (h : assembleTravelRoute A B path = some route) : nw.crowdingOf route = nw.keptCrowding path := by
  obtain ⟨steps,hsteps,rfl⟩ := Option.map_eq_some_iff.mp h
  obtain ⟨first,hhead,hfirst⟩ := Option.map_eq_some_iff.mp hstart
  obtain ⟨tail,rfl⟩ := List.head?_eq_some_iff.mp hhead
  simp only [crowdingOf,stationsOf,keptCrowding,exactCrowding,endStations_travelSteps hsteps,
    List.map_cons,List.tail_cons,hfirst,List.map_map]
  rfl

/-! The selection. -/

/-- Less quietness demanded selects the same path, or a quieter one that was not quiet enough. -/
theorem selectQuietPath_le {maxCrowding maxCrowding' : UInt32} (hle : maxCrowding ≤ maxCrowding')
    {best best' : Path × UInt32}
    (h : best' = best ∨ maxCrowding < best'.2 ∧ best'.2 < best.2) (paths : List Path) :
    nw.selectQuietPath maxCrowding' paths best' = nw.selectQuietPath maxCrowding paths best ∨
      maxCrowding < (nw.selectQuietPath maxCrowding' paths best').2 ∧
        (nw.selectQuietPath maxCrowding' paths best').2 <
          (nw.selectQuietPath maxCrowding paths best).2 := by
  induction paths generalizing best best' with
  | nil => exact h
  | cons path paths ih =>
    simp only [selectQuietPath]
    by_cases hloud : maxCrowding < nw.getPathCrowding path
    · rw [if_pos hloud]
      split_ifs with hloud' hless
      · exact ih h
      · refine ih (Or.inr ⟨hloud,?_⟩)
        rcases h with rfl | ⟨-,hbetter⟩
        · exact hless
        · exact UInt32.lt_trans hless hbetter
      · exact ih h
    · have hquiet : ¬maxCrowding' < nw.getPathCrowding path :=
        UInt32.not_lt.mpr (UInt32.le_trans (UInt32.not_lt.mp hloud) hle)
      rw [if_neg hloud,if_neg hquiet]
      rcases h with rfl | ⟨hworse,hbetter⟩
      · split_ifs
        · exact ih (Or.inl rfl)
        · exact ih (Or.inl rfl)
      · -- what is quiet enough for both is quieter than what is not
        have hless := UInt32.lt_of_le_of_lt (UInt32.not_lt.mp hloud) hworse
        rw [if_pos hless,if_pos (UInt32.lt_trans hless hbetter)]
        exact ih (Or.inl rfl)

theorem selectQuietPath_append (maxCrowding : UInt32) (paths more : List Path) (best : Path × UInt32) :
    nw.selectQuietPath maxCrowding (paths ++ more) best =
      nw.selectQuietPath maxCrowding more (nw.selectQuietPath maxCrowding paths best) := by
  induction paths generalizing best with
  | nil => rfl
  | cons path paths ih =>
    simp only [List.cons_append,selectQuietPath]
    split_ifs <;> exact ih _

theorem selectQuietPath_improves (maxCrowding : UInt32) (paths : List Path) (best : Path × UInt32) :
    nw.selectQuietPath maxCrowding paths best = best ∨
      (nw.selectQuietPath maxCrowding paths best).2 < best.2 := by
  induction paths generalizing best with
  | nil => exact Or.inl rfl
  | cons path paths ih =>
    simp only [selectQuietPath]
    split_ifs with hloud hless
    · exact ih best
    · rcases ih (path,nw.getPathCrowding path) with hsame | hbetter
      · rw [hsame]
        exact Or.inr hless
      · exact Or.inr (UInt32.lt_trans hbetter hless)
    · exact ih best

theorem selectQuietPath_snd (maxCrowding : UInt32) (paths : List Path) {best : Path × UInt32}
    (hbest : best.2 = nw.getPathCrowding best.1) :
    (nw.selectQuietPath maxCrowding paths best).2 =
      nw.getPathCrowding (nw.selectQuietPath maxCrowding paths best).1 := by
  induction paths generalizing best with
  | nil => exact hbest
  | cons path paths ih =>
    simp only [selectQuietPath]
    split_ifs
    · exact ih hbest
    · exact ih rfl
    · exact ih hbest

/-- With more paths to choose from and less quietness demanded, the selection is the same or better. -/
theorem selectQuietPath_limits {maxCrowding maxCrowding' : UInt32} (hle : maxCrowding ≤ maxCrowding')
    (paths later : List Path) (best : Path × UInt32) :
    nw.selectQuietPath maxCrowding' (paths ++ later) best = nw.selectQuietPath maxCrowding paths best ∨
      (nw.selectQuietPath maxCrowding' (paths ++ later) best).2 <
        (nw.selectQuietPath maxCrowding paths best).2 := by
  rw [selectQuietPath_append]
  have hfewer := @selectQuietPath_le nw maxCrowding maxCrowding' hle best best (Or.inl rfl) paths
  rcases selectQuietPath_improves maxCrowding' later (nw.selectQuietPath maxCrowding' paths best) with
    hsame | hbetter
  · rw [hsame]
    exact hfewer.imp_right And.right
  · refine Or.inr ?_
    rcases hfewer with hsame | ⟨-,hless⟩
    · exact hsame ▸ hbetter
    · exact UInt32.lt_trans hbetter hless

theorem mostQuietPath_le {fastestPath quietPath quietPath' : Path} (hp : p ≤ 1) (hle : p' ≤ p)
    (hinit : paths <+: more)
    (h : nw.mostQuietPath lib p fastestPath paths = some quietPath)
    (h' : nw.mostQuietPath lib p' fastestPath more = some quietPath') :
    quietPath' = quietPath ∨ nw.keptCrowding quietPath' < nw.keptCrowding quietPath := by
  simp only [mostQuietPath,Option.bind_eq_bind,Option.bind_eq_some_iff,Option.pure_def,
    Option.some.injEq] at h h'
  obtain ⟨maxCrowding,hmax,rfl⟩ := h
  obtain ⟨maxCrowding',hmax',rfl⟩ := h'
  obtain ⟨later,rfl⟩ := hinit
  have hlimit : maxCrowding ≤ maxCrowding' := by
    rw [UInt32.le_iff_toNat_le,toNat_of_toUnsigned (lib.rounding.product_nonneg _ (by linarith)) hmax,
      toNat_of_toUnsigned (lib.rounding.product_nonneg _ (by linarith)) hmax']
    exact lib.crowdingLimit_anti _ hle
  rcases selectQuietPath_limits hlimit paths later (fastestPath,nw.getPathCrowding fastestPath) with
    hsame | hless
  · exact Or.inl (congrArg Prod.fst hsame)
  · rw [selectQuietPath_snd _ _ rfl,selectQuietPath_snd _ _ rfl,getPathCrowding_lt_iff] at hless
    exact Or.inr hless

/-- Whoever accepts more detours, more candidates and less quietness gets the same itinerary, or one
that is less crowded. -/
theorem getQuietTravelRoute_limits (lib : StdLibrary) (nw : TransportNetwork) (A B : Id) (hq : 0 ≤ q)
    (hqq' : q ≤ q') (hp : p ≤ 1) (hpp' : p' ≤ p) (hK : K ≤ K') {route route' : TravelRoute}
    (h : nw.getQuietTravelRoute lib A B q p K = some route)
    (h' : nw.getQuietTravelRoute lib A B q' p' K' = some route') :
    route' = route ∨ nw.crowdingOf route' < nw.crowdingOf route := by
  rw [getQuietTravelRoute] at h h'
  split_ifs at h h' with hguard hne
  · exact Or.inl (Option.some.inj (h'.symm.trans h))
  · exact Or.inl (Option.some.inj (h'.symm.trans h))
  simp only [Option.bind_eq_bind,Option.bind_eq_some_iff] at h h'
  obtain ⟨paths',hpaths',h'⟩ := h'
  obtain ⟨paths,hpaths,h⟩ := h
  obtain rfl : withinLimits lib q K paths' = paths :=
    Option.some.inj ((getFastestTravelRoutes_limits lib nw A B hq hqq' hK hpaths').1.symm.trans hpaths)
  cases paths' with
  | nil => exact Or.inl (Option.some.inj (h'.symm.trans h))
  | cons fastestPath paths' =>
    simp only [withinLimits,Option.bind_eq_some_iff] at h h'
    obtain ⟨quietPath,hquiet,hroute⟩ := h
    obtain ⟨quietPath',hquiet',hroute'⟩ := h'
    have hstarts := startsAt_getFastestTravelRoutes hpaths'
    have hfewer := @withinLimits_isPrefix lib q K (fastestPath::paths')
    have hmem' := mostQuietPath_mem hquiet'
    have hmem := hfewer.subset (mostQuietPath_mem hquiet)
    rcases mostQuietPath_le hp hpp' (List.prefix_cons_inj fastestPath |>.mp hfewer) hquiet hquiet' with
      rfl | hless
    · exact Or.inl (Option.some.inj (hroute'.symm.trans hroute))
    · rw [crowdingOf_assemble (hstarts _ hmem) hroute,crowdingOf_assemble (hstarts _ hmem') hroute']
      exact Or.inr hless

theorem getQuietTravelRoute_limits_crowded : ∃ route route',
    (networkOf crowdedCalls).getQuietTravelRoute .simple (ascii "A") (ascii "B") 0 (1/2) 5 = some route ∧
      (networkOf crowdedCalls).getQuietTravelRoute .simple (ascii "A") (ascii "B") 1 (1/2) 1000 =
        some route' ∧ route' ≠ route ∧
          (networkOf crowdedCalls).crowdingOf route' < (networkOf crowdedCalls).crowdingOf route := by
  have hdiffer : ((networkOf crowdedCalls).getQuietTravelRoute .simple (ascii "A") (ascii "B") 0 (1/2)
      5).any fun route => ((networkOf crowdedCalls).getQuietTravelRoute .simple (ascii "A") (ascii "B") 1
        (1/2) 1000).any fun route' => route' ≠ route := by decide +kernel
  obtain ⟨route,hroute,hany⟩ := (Option.any_eq_true _ _).mp hdiffer
  obtain ⟨route',hroute',hne⟩ := (Option.any_eq_true _ _).mp hany
  have hne' : route' ≠ route := of_decide_eq_true hne
  exact ⟨route,route',hroute,hroute',hne',(getQuietTravelRoute_limits .simple _ _ _ (le_refl 0)
    (by norm_num) (by norm_num) (le_refl _) (by norm_num) hroute hroute').resolve_left hne'⟩

end TransportNetwork
end QuietRoute
