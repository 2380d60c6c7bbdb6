import QuietRoute.Network.PathEnumeration
import QuietRoute.Network.FastestRoute

/-! Soundness of the enumerated paths. A path is spliced from the front of an earlier path and a
search that goes on from there; it is a journey of the network with exact times, whatever the
conversion of the time limit yields where the cast is undefined. -/
namespace QuietRoute

open BestFirst TransportNetwork

variable {lib : StdLibrary} {cast : UnsignedCast} {check : SpurCheck} {nw : TransportNetwork} {A B : Id}
  {q : ℚ} {K T : ℕ} {st st' : Enumeration}

/-! What is promised of a path. -/

/-- A change of route at a stop: none at the start, where no edge has led. -/
def ChangesRoute (prev : Option GraphEdge) (edge : GraphEdge) : Prop :=
  ∃ before ∈ prev, before.route.ptr ≠ edge.route.ptr

instance decidableChangesRoute (prev : Option GraphEdge) (edge : GraphEdge) :
    Decidable (ChangesRoute prev edge) :=
  inferInstanceAs (Decidable (∃ before ∈ prev, before.route.ptr ≠ edge.route.ptr))

/-- The next stop is reached by an edge stored at the station of this one, after the time of the
edge and five minutes for a change. -/
def IsHop (nw : TransportNetwork) (prev next : PathStopDist) : Prop :=
  ∃ edge ∈ nw.edgesFrom prev.1.node, next.1 = ⟨edge.nextStop,some edge⟩ ∧
    next.2.toNat = prev.2.toNat+edge.travelTime.toNat+
      if ChangesRoute prev.1.edge edge then 5 else 0

structure IsSound (nw : TransportNetwork) (A B : Id) (maxTravelTime : ℕ) (path : Path) : Prop where
  start : path.head? = some (⟨A,none⟩,0)
  finish : path.getLast?.map (·.1.node) = some B
  before : ∀ stop ∈ path.dropLast, stop.1.node ≠ B
  hops : path.IsChain (IsHop nw)
  within : (pathTime path).toNat ≤ maxTravelTime

theorem toNat_changePenalty (prev : Option GraphEdge) (edge : GraphEdge) :
    (changePenalty prev edge).toNat = if ChangesRoute prev edge then 5 else 0 := by
  cases prev with
  | none => rfl
  | some prev =>
    have hchange : ChangesRoute (some prev) edge ↔ prev.route.ptr ≠ edge.route.ptr := by
      simp [ChangesRoute]
    by_cases hsame : prev.route.ptr = edge.route.ptr
    · rw [if_neg (mt hchange.mp (not_not.mpr hsame))]
      simp [changePenalty,hsame]
    · rw [if_pos (hchange.mpr hsame)]
      simp [changePenalty,hsame]

theorem isHop_takeEdge {stop : PathStopDist} {edge : GraphEdge}
    (hedge : edge ∈ nw.edgesFrom stop.1.node) (hfits : exactTime stop edge < 2^32) :
    IsHop nw stop (takeEdge stop edge) := by
  refine ⟨edge,hedge,rfl,?_⟩
  have hexact : (takeEdge stop edge).2.toNat = exactTime stop edge := toNat_neighborDist hfits
  rw [hexact,← toNat_changePenalty]
  unfold exactTime moveTime
  omega

theorem isChain_pathFrom {stop : PathStopDist} {edges : List GraphEdge}
    (h : IsJourney nw B stop.1.node edges)
    (hfits : stop.2.toNat+walkTime stop.1.edge edges < 2^32) :
    (pathFrom stop edges).IsChain (IsHop nw) := by
  induction edges generalizing stop with
  | nil => exact List.isChain_singleton stop
  | cons edge edges ih =>
    obtain ⟨-,hedge,hrest⟩ := h
    have htime : walkTime stop.1.edge (edge::edges) =
        moveTime stop.1 edge+walkTime (some edge) edges := rfl
    have hexact : (takeEdge stop edge).2.toNat = exactTime stop edge :=
      toNat_neighborDist (by unfold exactTime; omega)
    have hprev : (takeEdge stop edge).1.edge = some edge := rfl
    have hchain := @ih (takeEdge stop edge) hrest (by rw [hexact,hprev]; unfold exactTime; omega)
    obtain ⟨path,hpath⟩ := List.head?_eq_some_iff.mp (head?_pathFrom (takeEdge stop edge) edges)
    rw [hpath] at hchain
    rw [pathFrom_cons,hpath]
    exact List.isChain_cons_cons.mpr ⟨isHop_takeEdge hedge (by unfold exactTime; omega),hchain⟩

theorem before_of_journey {stop : PathStopDist} {edges : List GraphEdge}
    (h : IsJourney nw B stop.1.node edges) :
    ∀ entry ∈ (pathFrom stop edges).dropLast, entry.1.node ≠ B := by
  induction edges generalizing stop with
  | nil => simp [pathFrom]
  | cons edge edges ih =>
    obtain ⟨path,hpath⟩ := List.head?_eq_some_iff.mp (head?_pathFrom (takeEdge stop edge) edges)
    have hrest := @ih (takeEdge stop edge) h.2.2
    rw [pathFrom_cons]
    rw [hpath] at hrest ⊢
    rw [List.dropLast_cons_cons]
    intro entry hentry
    rcases List.mem_cons.mp hentry with rfl | hentry
    · exact h.1
    · exact hrest entry hentry

theorem stopAfter_of_walk {edges : List GraphEdge} (h : IsWalk nw A edges B) :
    stopAfter A edges = B := by
  induction edges generalizing A with
  | nil => exact h
  | cons edge edges ih => exact ih h.2

theorem Records.isSound {path : Path} {edges : List GraphEdge} (h : Records nw A B path edges)
    (hT : (pathTime path).toNat ≤ T) : IsSound nw A B T path := by
  have hfits : ((⟨A,none⟩,0) : PathStopDist).2.toNat+walkTime none edges < 2^32 := by
    simpa [walkTime_none] using h.fits
  refine ⟨?_,?_,?_,?_,hT⟩
  · rw [h.eq]; exact head?_pathFrom _ _
  · rw [h.eq,pathOf,pathFrom,List.getLast?_scanl,Option.map_some,node_foldl_takeEdge,
      stopAfter_of_walk h.journey.isWalk]
  · rw [h.eq]; exact before_of_journey h.journey
  · rw [h.eq]; exact isChain_pathFrom h.journey hfits

/-! What is found over a run. -/

/-- The fastest path comes first, no path is found twice, and the later ones keep the limit. -/
structure FoundWithin (T : ℕ) (fastestPath : Path) (st : Enumeration) : Prop where
  head : st.1.head? = some fastestPath
  nodup : st.1.Nodup
  within : ∀ path ∈ st.1, path = fastestPath ∨ (pathTime path).toNat ≤ T

theorem FoundWithin.start (T : ℕ) (fastestPath : Path) :
    FoundWithin T fastestPath ([fastestPath],0) where
  head := rfl
  nodup := List.nodup_singleton fastestPath
  within _ hpath := Or.inl (List.mem_singleton.mp hpath)

theorem FoundWithin.step {fastestPath : Path} (h : FoundWithin T fastestPath st)
    (hstep : Step lib check nw A B T st st') : FoundWithin T fastestPath st' := by
  cases hstep with
  | @mk fastestPaths last potentialPaths queue rest kthPath hlast hspurs hsel =>
    refine ⟨?_,?_,?_⟩
    · obtain ⟨tail,rfl⟩ := List.head?_eq_some_iff.mp h.head
      rfl
    · exact h.nodup.append (List.nodup_singleton kthPath)
        (List.disjoint_singleton.mpr hsel.new)
    · intro path hpath
      rcases List.mem_append.mp hpath with hold | hnew
      · exact h.within path hold
      · rw [List.mem_singleton.mp hnew]
        exact Or.inr hsel.within

theorem FoundWithin.run {fastestPath : Path} (h : FoundWithin T fastestPath st)
    (hrun : Relation.ReflTransGen (Step lib check nw A B T) st st') : FoundWithin T fastestPath st' := by
  induction hrun with
  | refl => exact h
  | tail _ hstep ih => exact ih.step hstep

/-- Every enumerated path is sound, and the list is what it should be. The limit is the one that the
product of doubles yields. -/
theorem getFastestTravelRoutes_sound (lib : StdLibrary) (cast : UnsignedCast) (hnw : nw.Built)
    (hne : A ≠ B) (hq : 0 ≤ q) (hfits : nw.routesFitWith lib cast A B q K = true) :
    ∃ paths, nw.getFastestTravelRoutesWith lib cast A B q K = some paths ∧
      (∀ paths', nw.getFastestTravelRoutes lib A B q K = some paths' → paths' = paths) ∧
      (paths = [] ↔ ¬∃ walk, IsWalk nw A walk B) ∧ paths.length ≤ max 1 K ∧ paths.Nodup ∧
      ∀ fastestPath, paths.head? = some fastestPath →
        nw.getFastestTravelRouteInternal lib (⟨A,none⟩,0) B [] = some fastestPath ∧
        ∀ path ∈ paths, IsSound nw A B (lib.timeLimit (pathTime fastestPath).toNat q) path := by
  have hsame : ∀ paths, nw.getFastestTravelRoutesWith lib cast A B q K = some paths →
      ∀ paths', nw.getFastestTravelRoutes lib A B q K = some paths' → paths' = paths :=
    fun paths hpaths paths' hpaths' =>
      Option.some.inj ((getFastestTravelRoutesWith_eq hpaths').symm.trans hpaths)
  rcases getFastestTravelRoutesWith_run hnw.wellFormed hne hfits (Bool.and_eq_true_iff.mp hfits).2 with
    ⟨hpaths,hnone⟩ | ⟨fastestPath,first,paths,queue,hinternal,hrec,-,-,hpaths,hrun,hlen,-⟩
  · exact ⟨[],hpaths,hsame [] hpaths,by simpa using hnone,by simp,List.nodup_nil,by simp⟩
  · have hfound := (FoundWithin.start _ fastestPath).run hrun
    have hinit : Stored nw A B ([fastestPath],0) := ⟨by simpa using ⟨first,hrec⟩,by simp⟩
    have hstored := hinit.run hrun
    have hsome : paths ≠ [] := by
      rintro rfl
      simpa using hfound.head
    refine ⟨paths,hpaths,hsame paths hpaths,?_,by omega,hfound.nodup,?_⟩
    · exact ⟨fun hnil => absurd hnil hsome,fun hnone => absurd ⟨first,hrec.journey.isWalk⟩ hnone⟩
    · intro fastestPath' hhead
      obtain rfl : fastestPath' = fastestPath := Option.some.inj (hhead.symm.trans hfound.head)
      refine ⟨hinternal,fun path hpath => ?_⟩
      obtain ⟨edges,hrec'⟩ := hstored.1 path hpath
      apply hrec'.isSound
      rcases hfound.within path hpath with rfl | hle
      · exact lib.le_timeLimit (UInt32.toNat_lt _) hq
      · exact cast.le_floor (lib.rounding.product_nonneg _ (by linarith)) _ hle

/-- Ten minutes from `A` to `B`, and seventeen over `X`. -/
def longerWayCalls : List Call :=
  [.addStation ⟨ascii "A",[]⟩,.addStation ⟨ascii "X",[]⟩,.addStation ⟨ascii "B",[]⟩,
    .addLine ⟨ascii "red",[],[⟨ascii "r",[],ascii "red",ascii "A",ascii "B",[ascii "A",ascii "B"]⟩]⟩,
    .addLine ⟨ascii "blue",[],[⟨ascii "b",[],ascii "blue",ascii "A",ascii "B",
      [ascii "A",ascii "X",ascii "B"]⟩]⟩,
    .setTravelTime (ascii "A") (ascii "B") 10,.setTravelTime (ascii "A") (ascii "X") 8,
    .setTravelTime (ascii "X") (ascii "B") 9]

/-- The double next to seven tenths, which is a little less. -/
def sevenTenths : ℚ := 6305039478318694/2^53

theorem getFastestTravelRoutes_sound_rounded : ∃ fastestPath longerPath,
    (networkOf longerWayCalls).getFastestTravelRoutesWith .simple .toZero (ascii "A") (ascii "B")
        sevenTenths 1000 = some [fastestPath,longerPath] ∧
      IsSound (networkOf longerWayCalls) (ascii "A") (ascii "B") 17 longerPath ∧
      pathTime longerPath = 17 ∧ longerPath.length = 3 := by
  obtain ⟨paths,hpaths,-,-,-,-,hsound⟩ := getFastestTravelRoutes_sound .simple .toZero
    (built_networkOf longerWayCalls) (A:=ascii "A") (B:=ascii "B") (q:=sevenTenths) (K:=1000)
    (by decide) (by norm_num [sevenTenths]) (by decide +kernel)
  have hrun : ((networkOf longerWayCalls).getFastestTravelRoutesWith .simple .toZero (ascii "A")
      (ascii "B") sevenTenths 1000).map (List.map fun path => (path.length,pathTime path)) =
        some [(2,10),(3,17)] := by
    decide +kernel
  rw [hpaths,Option.map_some,Option.some.injEq] at hrun
  obtain ⟨fastestPath,rest,rfl,hfastest,hrest⟩ := List.map_eq_cons_iff.mp hrun
  obtain ⟨longerPath,rest,rfl,hlonger,hnil⟩ := List.map_eq_cons_iff.mp hrest
  obtain rfl := List.map_eq_nil_iff.mp hnil
  obtain ⟨-,hten⟩ := Prod.mk.inj hfastest
  obtain ⟨hlen,hseventeen⟩ := Prod.mk.inj hlonger
  have hlimit : StdLibrary.simple.timeLimit (10 : UInt32).toNat sevenTenths = 17 := by decide +kernel
  have hwithin := (hsound fastestPath rfl).2 longerPath (by simp)
  rw [hten,hlimit] at hwithin
  exact ⟨fastestPath,longerPath,hpaths,hwithin,hseventeen,hlen⟩

/-- The longer way is beyond the limit of seven tenths more, but not beyond the one in doubles. -/
theorem getFastestTravelRoutes_exceeds : ¬∀ (lib : StdLibrary) (nw : TransportNetwork) (A B : Id),
    nw.Built → A ≠ B → ∀ q : ℚ, 0 ≤ q → ∀ K, nw.routesFit lib A B q K = true → ∀ paths fastestPath,
    nw.getFastestTravelRoutes lib A B q K = some paths → paths.head? = some fastestPath →
    ∀ path ∈ paths, (pathTime path).toNat ≤ ⌊((pathTime fastestPath).toNat : ℚ)*(1+q)⌋₊ := by
  intro hclaim
  have hrun : ((networkOf longerWayCalls).getFastestTravelRoutes .simple (ascii "A") (ascii "B")
      sevenTenths 1000).map (List.map fun path => pathTime path) = some [10,17] := by
    decide +kernel
  obtain ⟨paths,hpaths,htimes⟩ := Option.map_eq_some_iff.mp hrun
  obtain ⟨fastestPath,rest,rfl,hfastest,hrest⟩ := List.map_eq_cons_iff.mp htimes
  obtain ⟨longerPath,rest,rfl,hlonger,-⟩ := List.map_eq_cons_iff.mp hrest
  have hle := hclaim .simple _ _ _ (built_networkOf longerWayCalls) (by decide) sevenTenths
    (by norm_num [sevenTenths]) 1000 (by decide +kernel) _ fastestPath hpaths rfl longerPath (by simp)
  rw [hfastest,hlonger] at hle
  have hexact : ⌊((10 : UInt32).toNat : ℚ)*(1+sevenTenths)⌋₊ = 16 := by decide +kernel
  rw [hexact] at hle
  exact absurd hle (by decide)

end QuietRoute
