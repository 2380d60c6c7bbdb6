import QuietRoute.Network.LooplessPaths

/-! Which of the enumerated paths becomes the quiet route, in exact sums. -/
namespace QuietRoute

theorem exists_split_of_argmin {α : Type} {f : α → ℤ} {l : List α} {m : α}
    (h : l.argmin f = some m) : ∃ before after, l = before ++ m::after ∧
      (∀ a ∈ before, f m < f a) ∧ ∀ a ∈ after, f m ≤ f a := by
  induction l with
  | nil => cases h
  | cons a l ih =>
    rw [List.argmin_cons] at h
    cases hmin : l.argmin f with
    | none =>
      rw [hmin] at h
      obtain rfl := List.argmin_eq_none.mp hmin
      obtain rfl : a = m := Option.some.inj h
      exact ⟨[],[],rfl,by simp,by simp⟩
    | some c =>
      simp only [hmin] at h
      split_ifs at h with hless
      · obtain rfl : c = m := Option.some.inj h
        obtain ⟨before,after,rfl,hbefore,hafter⟩ := ih hmin
        exact ⟨a::before,after,rfl,List.forall_mem_cons.mpr ⟨hless,hbefore⟩,hafter⟩
      · obtain rfl : a = m := Option.some.inj h
        refine ⟨[],l,rfl,by simp,fun b hb => ?_⟩
        exact (not_lt.mp hless).trans (List.le_of_mem_argmin hb hmin)

namespace TransportNetwork

variable {lib : StdLibrary} {nw : TransportNetwork} {A B : Id} {q p : ℚ} {K : ℕ}
  {fastestPath path : Path} {paths : List Path}

/-- A path that the loop of the quiet route would take over the fastest one. -/
def Quieter (nw : TransportNetwork) (maxCrowding : ℚ) (fastestPath path : Path) : Prop :=
  nw.exactCrowding path ≤ ⌊maxCrowding⌋ ∧ nw.exactCrowding path < nw.exactCrowding fastestPath

instance (maxCrowding : ℚ) : Decidable (nw.Quieter maxCrowding fastestPath path) :=
  inferInstanceAs (Decidable (_ ∧ _))

/-! The enumerated paths. -/

theorem selectKthPath_time {maxTravelTime : UInt32} {fastestPaths : List Path} {fuel : ℕ}
    {potentialPaths rest : lib.pathQueue.Queue}
    (h : selectKthPath lib maxTravelTime fastestPaths fuel potentialPaths = some (path,rest)) :
    pathTime path ≤ maxTravelTime := by
  induction fuel generalizing potentialPaths with
  | zero => cases h
  | succ fuel ih =>
    rw [selectKthPath] at h
    split at h
    · cases h
    · split_ifs at h with hslow hknown
      · exact ih h
      · obtain ⟨rfl,-⟩ := Prod.mk.inj (Option.some.inj h)
        exact UInt32.not_lt.mp hslow

theorem enumeratePaths_adds {maxTravelTime : UInt32} {wanted : ℕ} {fastestPaths : List Path}
    {potentialPaths : lib.pathQueue.Queue}
    (h : nw.enumeratePaths lib B maxTravelTime wanted fastestPaths potentialPaths = some paths) :
    ∃ more, paths = fastestPaths ++ more ∧ ∀ path ∈ more, pathTime path ≤ maxTravelTime := by
  induction wanted generalizing fastestPaths potentialPaths with
  | zero => exact ⟨[],by rw [List.append_nil,Option.some.inj h],by simp⟩
  | succ wanted ih =>
    simp only [enumeratePaths,Option.bind_eq_bind,Option.bind_eq_some_iff] at h
    obtain ⟨lastFastestPath,-,queue,-,h⟩ := h
    split at h
    · exact ⟨[],by rw [List.append_nil,Option.some.inj h],by simp⟩
    · rename_i kthPath rest hselect
      obtain ⟨more,rfl,hmore⟩ := ih h
      refine ⟨kthPath::more,by simp,List.forall_mem_cons.mpr ⟨selectKthPath_time hselect,hmore⟩⟩

theorem getFastestTravelRoutes_cases (h : nw.getFastestTravelRoutes lib A B q K = some paths) :
    ∃ fastestPath, nw.getFastestTravelRouteInternal lib (⟨A,none⟩,0) B [] = some fastestPath ∧
      (fastestPath = [] ∧ paths = [] ∨ fastestPath ≠ [] ∧ ∃ maxTravelTime more,
        toUnsigned (lib.rounding.product (pathTime fastestPath).toNat (1+q)) = some maxTravelTime ∧
          paths = fastestPath::more ∧ ∀ path ∈ more, pathTime path ≤ maxTravelTime) := by
  simp only [getFastestTravelRoutes,Option.bind_eq_bind,Option.bind_eq_some_iff] at h
  obtain ⟨fastestPath,hfastest,h⟩ := h
  refine ⟨fastestPath,hfastest,?_⟩
  split_ifs at h with hempty
  · exact Or.inl ⟨hempty,(Option.some.inj h).symm⟩
  · rw [Option.bind_eq_some_iff] at h
    obtain ⟨maxTravelTime,hmax,h⟩ := h
    obtain ⟨more,rfl,hmore⟩ := enumeratePaths_adds h
    exact Or.inr ⟨hempty,maxTravelTime,more,hmax,rfl,hmore⟩

theorem getFastestTravelRoute_eq (hA : (nw.getStation A).isSome) (hB : (nw.getStation B).isSome)
    (hne : A ≠ B) (hempty : fastestPath ≠ [])
    (hfastest : nw.getFastestTravelRouteInternal lib (⟨A,none⟩,0) B [] = some fastestPath) :
    nw.getFastestTravelRoute lib A B = assembleTravelRoute A B fastestPath := by
  have hguard : ¬((nw.getStation A).isNone || (nw.getStation B).isNone) = true := by
    simp [Option.isSome_iff_ne_none.mp hA,Option.isSome_iff_ne_none.mp hB]
  rw [getFastestTravelRoute,if_neg hguard,if_neg hne,hfastest]
  simp only [Option.bind_eq_bind,Option.bind_some,if_neg hempty]

theorem totalTravelTime_eq {route : TravelRoute} (h : assembleTravelRoute A B path = some route) :
    route.totalTravelTime = pathTime path := by
  obtain ⟨steps,-,rfl⟩ := Option.map_eq_some_iff.mp h
  rfl

theorem toNat_of_toUnsigned {x : ℚ} {t : UInt32} (hx : 0 ≤ x) (h : toUnsigned x = some t) :
    t.toNat = ⌊x⌋₊ := by
  rw [toUnsigned] at h
  split_ifs at h with hrange
  have hfloor : ⌊x⌋₊ < 2^32 := by
    rw [Nat.floor_lt hx]
    exact_mod_cast hrange.2
  rw [← Option.some.inj h,UInt32.toNat_ofNat',Nat.mod_eq_of_lt hfloor]

/-! The selected path. -/

section Counts

variable (hcounts : ∀ S n, nw.getPassengerCount S = some n → 0 ≤ n)

include hcounts

theorem exactCrowding_nonneg (path : Path) : 0 ≤ nw.exactCrowding path := by
  refine List.sum_nonneg fun n hn => ?_
  obtain ⟨stop,-,rfl⟩ := List.mem_map.mp hn
  cases hnode : nw.getStation stop.1.node with
  | none => exact le_rfl
  | some node => exact hcounts stop.1.node _ (by rw [getPassengerCount,hnode]; rfl)

theorem keptCrowding_eq (hfits : nw.exactCrowding path < 2^32) :
    nw.keptCrowding path = nw.exactCrowding path :=
  Int.emod_eq_of_lt (exactCrowding_nonneg hcounts path) hfits

theorem quieterOf_iff {maxCrowding : ℚ} (hmax : 0 ≤ maxCrowding)
    (hfastest : nw.exactCrowding fastestPath < 2^32) (hfits : nw.exactCrowding path < 2^32) :
    nw.keptCrowding path ≤ (⌊maxCrowding⌋₊ : ℕ) ∧ nw.keptCrowding path < nw.keptCrowding fastestPath ↔
      nw.Quieter maxCrowding fastestPath path := by
  rw [keptCrowding_eq hcounts hfastest,keptCrowding_eq hcounts hfits,Quieter,
    Int.natCast_floor_eq_floor hmax]

/-- The limit for the crowding, in doubles. -/
def maxCrowding (lib : StdLibrary) (nw : TransportNetwork) (p : ℚ) (fastestPath : Path) : ℚ :=
  lib.rounding.product (nw.exactCrowding fastestPath).toNat (1-p)

theorem crowdingLimit_eq (hfastest : nw.exactCrowding fastestPath < 2^32) :
    lib.crowdingLimit (nw.getPathCrowding fastestPath).toNat p = ⌊nw.maxCrowding lib p fastestPath⌋₊ := by
  have htotal := @toNat_getPathCrowding nw fastestPath
  rw [keptCrowding_eq hcounts hfastest] at htotal
  rw [StdLibrary.crowdingLimit,maxCrowding,← htotal,Int.toNat_natCast]

/-- The selected path is the first of the least crowded ones, if that is quieter than the fastest
path, and the fastest path otherwise. -/
theorem mostQuietPath_cases (hp₀ : 0 ≤ p) (hp₁ : p ≤ 1)
    (hfits : ∀ path ∈ fastestPath::paths, nw.exactCrowding path < 2^32) :
    (∃ before quietPath after, paths = before ++ quietPath::after ∧
      nw.Quieter (nw.maxCrowding lib p fastestPath) fastestPath quietPath ∧
      (∀ path ∈ before, nw.exactCrowding quietPath < nw.exactCrowding path) ∧
      (∀ path ∈ after, nw.exactCrowding quietPath ≤ nw.exactCrowding path) ∧
      nw.mostQuietPath lib p fastestPath paths = some quietPath) ∨
    (∀ path ∈ paths, ¬nw.Quieter (nw.maxCrowding lib p fastestPath) fastestPath path) ∧
      nw.mostQuietPath lib p fastestPath paths = some fastestPath := by
  have hfastest := hfits fastestPath List.mem_cons_self
  have hpaths : ∀ path ∈ paths, nw.exactCrowding path < 2^32 :=
    fun path hpath => hfits path (List.mem_cons_of_mem _ hpath)
  rw [mostQuietPath_eq hp₀ hp₁,crowdingLimit_eq hcounts hfastest]
  cases hmin : paths.argmin nw.keptCrowding with
  | none =>
    obtain rfl := List.argmin_eq_none.mp hmin
    exact Or.inr ⟨by simp,rfl⟩
  | some least =>
    have hmem := List.argmin_mem hmin
    have hmax : 0 ≤ nw.maxCrowding lib p fastestPath := lib.rounding.product_nonneg _ (by linarith)
    have hiff := quieterOf_iff hcounts hmax hfastest (hpaths least hmem)
    by_cases hquiet : nw.Quieter (nw.maxCrowding lib p fastestPath) fastestPath least
    · left
      obtain ⟨before,after,rfl,hbefore,hafter⟩ := exists_split_of_argmin hmin
      have hkept : ∀ path ∈ before ++ least::after, nw.keptCrowding path = nw.exactCrowding path :=
        fun path hpath => keptCrowding_eq hcounts (hpaths path hpath)
      refine ⟨before,least,after,rfl,hquiet,?_,?_,?_⟩
      · intro path hpath
        rw [← hkept least hmem,← hkept path (List.mem_append_left _ hpath)]
        exact hbefore path hpath
      · intro path hpath
        rw [← hkept least hmem,← hkept path
          (List.mem_append_right _ (List.mem_cons_of_mem _ hpath))]
        exact hafter path hpath
      · simp only [quieterOf]
        rw [if_pos (hiff.mpr hquiet)]
    · right
      refine ⟨fun path hpath hquieter => hquiet ?_,?_⟩
      · have hle := List.le_of_mem_argmin hpath hmin
        rw [keptCrowding_eq hcounts (hpaths least hmem),keptCrowding_eq hcounts (hpaths path hpath)]
          at hle
        exact ⟨hle.trans hquieter.1,hle.trans_lt hquieter.2⟩
      · simp only [quieterOf]
        rw [if_neg (fun h => hquiet (hiff.mp h))]

end Counts

/-- The quiet route in terms of the enumerated paths and the two limits. -/
structure SelectsQuietest (lib : StdLibrary) (nw : TransportNetwork) (A B : Id) (q p : ℚ) (K : ℕ)
    (maxTravelTime maxCrowding : ℚ) (fastestPath : Path) (paths : List Path) : Prop where
  first : nw.getFastestTravelRoute lib A B = assembleTravelRoute A B fastestPath
  quietest : (∃ path ∈ paths, nw.Quieter maxCrowding fastestPath path) →
    ∃ before quietPath after, paths = before ++ quietPath::after ∧
      nw.Quieter maxCrowding fastestPath quietPath ∧
      (∀ path ∈ before, nw.exactCrowding quietPath < nw.exactCrowding path) ∧
      (∀ path ∈ after, nw.exactCrowding quietPath ≤ nw.exactCrowding path) ∧
      nw.getQuietTravelRoute lib A B q p K = assembleTravelRoute A B quietPath
  otherwise : (¬∃ path ∈ paths, nw.Quieter maxCrowding fastestPath path) →
    nw.getQuietTravelRoute lib A B q p K = nw.getFastestTravelRoute lib A B
  notTooSlow : ∀ route, nw.getQuietTravelRoute lib A B q p K = some route →
    route.totalTravelTime.toNat ≤ ⌊maxTravelTime⌋₊
  lessCrowded : ∀ route, nw.getQuietTravelRoute lib A B q p K = some route →
    nw.getFastestTravelRoute lib A B ≠ some route → ∃ path ∈ paths,
      assembleTravelRoute A B path = some route ∧ (nw.exactCrowding path : ℚ) ≤ maxCrowding

theorem selectsQuietest_of_paths (hA : (nw.getStation A).isSome) (hB : (nw.getStation B).isSome)
    (hne : A ≠ B) (hq : 0 ≤ q) (hp₀ : 0 ≤ p) (hp₁ : p ≤ 1)
    (hcounts : ∀ S n, nw.getPassengerCount S = some n → 0 ≤ n)
    (hpaths : nw.getFastestTravelRoutes lib A B q K = some (fastestPath::paths))
    (hfits : ∀ path ∈ fastestPath::paths, nw.exactCrowding path < 2^32) :
    SelectsQuietest lib nw A B q p K (lib.rounding.product (pathTime fastestPath).toNat (1+q))
      (nw.maxCrowding lib p fastestPath) fastestPath paths := by
  have hguard : ¬((nw.getStation A).isNone || (nw.getStation B).isNone) = true := by
    simp [Option.isSome_iff_ne_none.mp hA,Option.isSome_iff_ne_none.mp hB]
  obtain ⟨path₀,hinternal,⟨-,hnil⟩ | ⟨hempty,maxTravelTime,more,hmax,heq,hslow⟩⟩ :=
    getFastestTravelRoutes_cases hpaths
  · cases hnil
  obtain ⟨rfl,rfl⟩ := List.cons.inj heq
  have hfirst := getFastestTravelRoute_eq hA hB hne hempty hinternal
  have hquiet : ∀ quietPath, nw.mostQuietPath lib p fastestPath paths = some quietPath →
      nw.getQuietTravelRoute lib A B q p K = assembleTravelRoute A B quietPath := by
    intro quietPath hmost
    rw [getQuietTravelRoute,if_neg hguard,if_neg hne]
    simp only [hpaths,hmost,Option.bind_eq_bind,Option.bind_some]
  have hlimit := toNat_of_toUnsigned (lib.rounding.product_nonneg _ (by linarith)) hmax
  rcases @mostQuietPath_cases lib nw p fastestPath paths hcounts hp₀ hp₁ hfits with
    ⟨before,quietPath,after,hsplit,hquieter,hbefore,hafter,hmost⟩ | ⟨hnone,hmost⟩
  · have hmem : quietPath ∈ paths := by
      rw [hsplit]
      exact List.mem_append_right before List.mem_cons_self
    refine ⟨hfirst,fun _ => ⟨before,quietPath,after,hsplit,hquieter,hbefore,hafter,hquiet _ hmost⟩,
      fun hno => absurd ⟨quietPath,hmem,hquieter⟩ hno,?_,?_⟩
    · intro route hroute
      rw [hquiet _ hmost] at hroute
      rw [totalTravelTime_eq hroute,← hlimit]
      exact UInt32.le_iff_toNat_le.mp (hslow quietPath hmem)
    · intro route hroute _
      rw [hquiet _ hmost] at hroute
      exact ⟨quietPath,hmem,hroute,Int.le_floor.mp hquieter.1⟩
  · refine ⟨hfirst,?_,fun _ => (hquiet _ hmost).trans hfirst.symm,?_,?_⟩
    · rintro ⟨path,hpath,hquieter⟩
      exact absurd hquieter (hnone path hpath)
    · intro route hroute
      rw [hquiet _ hmost] at hroute
      rw [totalTravelTime_eq hroute]
      exact lib.le_timeLimit (UInt32.toNat_lt _) hq
    · intro route hroute hother
      rw [hquiet _ hmost,← hfirst] at hroute
      exact absurd hroute hother

theorem getFastestTravelRoutes_assembled (hnw : nw.Built) (hne : A ≠ B) (hq : 0 ≤ q)
    (hfits : nw.routesFit lib A B q K = true)
    (hT : ∀ fastest, IsLeast (walkCosts nw A B) fastest → lib.timeLimit fastest q < 2^32)
    (hconnected : ∃ walk, IsWalk nw A walk B) :
    ∃ fastestPath paths, nw.getFastestTravelRoutes lib A B q K = some (fastestPath::paths) ∧
      ∀ path ∈ fastestPath::paths, (assembleTravelRoute A B path).isSome := by
  obtain ⟨walk,hwalk⟩ := hconnected
  have hcosts : (walkCosts nw A B).Nonempty := ⟨_,walk,hwalk,rfl⟩
  have hleast := isLeast_csInf hcosts
  have hwith := @routesFitWith_of_routesFit lib nw A B .toZero q K hnw.wellFormed hne hq hT hfits
  obtain ⟨-,first,paths,queue,-,hfirst,-,-,hpaths,hrun,-⟩ := getFastestTravelRoutes_run hnw.wellFormed
    hne hq hfits (Bool.and_eq_true_iff.mp hwith).2 hleast (hT _ hleast)
  have hstart : Stored nw A B ([pathOf A first],0) := ⟨by simpa using ⟨first,hfirst⟩,by simp⟩
  have hstored := hstart.run hrun
  have hlen := length_le_of_run hrun
  cases paths with
  | nil => exact absurd hlen (by simp)
  | cons fastestPath paths =>
    refine ⟨fastestPath,paths,hpaths,fun path hpath => ?_⟩
    obtain ⟨edges,hrec⟩ := hstored.1 path hpath
    rw [hrec.eq,assembleTravelRoute,pathOf,travelSteps_pathFrom]
    rfl

/-- The quiet route is the first of the least crowded enumerated paths, if that is quiet enough, and
the fastest route otherwise. The limits are those of the doubles, and the exact ones where nothing is
rounded. The searches return if no accumulated time reaches `2^32`. -/
theorem getQuietTravelRoute_selects (lib : StdLibrary) (nw : TransportNetwork) (A B : Id)
    (hA : (nw.getStation A).isSome) (hB : (nw.getStation B).isSome) (hne : A ≠ B) (q p : ℚ)
    (hq : 0 ≤ q) (hp₀ : 0 ≤ p) (hp₁ : p ≤ 1) (K : ℕ)
    (hcounts : ∀ S n, nw.getPassengerCount S = some n → 0 ≤ n) :
    (∀ fastestPath paths,
      nw.getFastestTravelRoutes lib A B q K = some (fastestPath::paths) →
      (∀ path ∈ fastestPath::paths, nw.exactCrowding path < 2^32) →
      SelectsQuietest lib nw A B q p K (lib.rounding.product (pathTime fastestPath).toNat (1+q))
          (lib.rounding.product (nw.exactCrowding fastestPath).toNat (1-p)) fastestPath paths ∧
        ((∀ x, lib.rounding.round x = x) →
          SelectsQuietest lib nw A B q p K ((pathTime fastestPath).toNat*(1+q))
            (nw.exactCrowding fastestPath*(1-p)) fastestPath paths)) ∧
    (nw.Built → nw.routesFit lib A B q K = true →
      (∀ fastest, IsLeast (walkCosts nw A B) fastest → lib.timeLimit fastest q < 2^32) →
      (∃ walk, IsWalk nw A walk B) →
      ∃ fastestPath paths, nw.getFastestTravelRoutes lib A B q K = some (fastestPath::paths) ∧
        ∀ path ∈ fastestPath::paths, (assembleTravelRoute A B path).isSome) := by
  refine ⟨fun fastestPath paths hpaths hfits => ?_,fun hnw hfits hT hconnected =>
    getFastestTravelRoutes_assembled hnw hne hq hfits hT hconnected⟩
  have hselects := selectsQuietest_of_paths hA hB hne hq hp₀ hp₁ hcounts hpaths hfits
  refine ⟨hselects,fun hexact => ?_⟩
  have hnonneg := Int.toNat_of_nonneg (exactCrowding_nonneg hcounts fastestPath)
  have hcast : ((nw.exactCrowding fastestPath).toNat : ℚ) = nw.exactCrowding fastestPath := by
    exact_mod_cast congrArg (Int.cast (R:=ℚ)) hnonneg
  rwa [maxCrowding,lib.rounding.product_of_exact hexact,lib.rounding.product_of_exact hexact,hcast]
    at hselects

/-- Two passengers wait in `Y` on the faster way, and none in `X` on the other. -/
def crowdedCalls : List Call :=
  [.addStation ⟨ascii "A",[]⟩,.addStation ⟨ascii "X",[]⟩,.addStation ⟨ascii "Y",[]⟩,
    .addStation ⟨ascii "B",[]⟩,
    .addLine ⟨ascii "red",[],[⟨ascii "r",[],ascii "red",ascii "A",ascii "B",
      [ascii "A",ascii "Y",ascii "B"]⟩]⟩,
    .addLine ⟨ascii "blue",[],[⟨ascii "b",[],ascii "blue",ascii "A",ascii "B",
      [ascii "A",ascii "X",ascii "B"]⟩]⟩,
    .setTravelTime (ascii "A") (ascii "Y") 1,.setTravelTime (ascii "Y") (ascii "B") 1,
    .setTravelTime (ascii "A") (ascii "X") 2,.setTravelTime (ascii "X") (ascii "B") 1,
    .recordPassengerEvent ⟨ascii "Y",.enter⟩,.recordPassengerEvent ⟨ascii "Y",.enter⟩]

theorem getQuietTravelRoute_selects_crowded :
    let nw := networkOf crowdedCalls
    ∃ fastestPath paths, ∃ quietPath ∈ paths,
      nw.getFastestTravelRoutes .simple (ascii "A") (ascii "B") 1 1000 = some (fastestPath::paths) ∧
        nw.Quieter 1 fastestPath quietPath ∧
          nw.getQuietTravelRoute .simple (ascii "A") (ascii "B") 1 (1/2) 1000 =
            assembleTravelRoute (ascii "A") (ascii "B") quietPath := by
  intro nw
  have hrun : (nw.getFastestTravelRoutes .simple (ascii "A") (ascii "B") 1 1000).any fun paths =>
      (∀ path ∈ paths, nw.exactCrowding path < 2^32) ∧ ∃ fastestPath ∈ paths.head?,
        StdLibrary.simple.rounding.product (nw.exactCrowding fastestPath).toNat (1-1/2) = 1 ∧
          ∃ path ∈ paths.tail, nw.Quieter 1 fastestPath path := by
    decide +kernel
  have hcounts : ∀ S n, nw.getPassengerCount S = some n → 0 ≤ n := by
    intro S n hn
    obtain ⟨node,hnode,rfl⟩ := Option.map_eq_some_iff.mp hn
    have hall : ∀ e ∈ nw.stations.entries, 0 ≤ e.2.passengerCount := by decide +kernel
    exact hall _ (nw.stations.find_eq_some_iff.mp hnode)
  have hA : (nw.getStation (ascii "A")).isSome := by decide +kernel
  have hB : (nw.getStation (ascii "B")).isSome := by decide +kernel
  obtain ⟨hselects,-⟩ := getQuietTravelRoute_selects .simple nw (ascii "A") (ascii "B") hA hB
    (by decide) 1 (1/2) (by norm_num) (by norm_num) (by norm_num) 1000 hcounts
  obtain ⟨paths,hpaths,hrun⟩ := (Option.any_eq_true _ _).mp hrun
  obtain ⟨hfits,fastestPath,hhead,hone,hquieter⟩ := of_decide_eq_true hrun
  obtain ⟨paths,rfl⟩ := List.head?_eq_some_iff.mp hhead
  have hquietest := (hselects fastestPath paths hpaths hfits).1.quietest
  rw [hone] at hquietest
  obtain ⟨before,quietPath,after,hsplit,hquiet,-,-,hroute⟩ := hquietest hquieter
  refine ⟨fastestPath,paths,quietPath,?_,hpaths,hquiet,hroute⟩
  rw [hsplit]
  exact List.mem_append_right before List.mem_cons_self

end TransportNetwork
end QuietRoute
