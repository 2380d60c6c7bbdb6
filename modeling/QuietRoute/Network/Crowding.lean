import QuietRoute.Network.RouteSearch
import QuietRoute.Network.Invariants
import Mathlib.Data.List.MinMax
import Mathlib.Tactic

/-! Crowding in exact integers against the unsigned totals of the code. A total is the exact sum
modulo `2^32`; the selected path is the first of least total, if that is quiet enough. -/
namespace QuietRoute
namespace TransportNetwork

variable (lib : StdLibrary) (nw : TransportNetwork)

/-- The sum of the passenger counts over the stations of a path. -/
def exactCrowding (path : Path) : ℤ :=
  (path.map fun stop => ((nw.getStation stop.1.node).map (·.passengerCount)).getD 0).sum

/-- The part of the exact sum that an unsigned total keeps. -/
def keptCrowding (path : Path) : ℤ := nw.exactCrowding path % 2^32

/-- The candidate, if it is within the limit and has a smaller total than `best`. -/
def quieterOf (maxCrowding : ℕ) (best : Path) : Option Path → Path
  | none => best
  | some path =>
    if nw.keptCrowding path ≤ maxCrowding ∧ nw.keptCrowding path < nw.keptCrowding best then path
    else best

variable {lib nw} {A B : Id} {path path' : Path} {paths : List Path}

theorem toNat_ofInt (x : ℤ) : ((UInt32.ofInt x).toNat : ℤ) = x % 2^32 := by
  have hnonneg : 0 ≤ x % 2^32 := Int.emod_nonneg x (by norm_num)
  have hlt : x % 2^32 < 2^32 := Int.emod_lt_of_pos x (by norm_num)
  rw [UInt32.ofInt,UInt32.toNat_ofNat',Nat.mod_eq_of_lt (by omega),Int.toNat_of_nonneg hnonneg]

theorem toNat_getPathCrowding (path : Path) :
    ((nw.getPathCrowding path).toNat : ℤ) = nw.keptCrowding path := by
  have hfold : ∀ total : UInt32, ((path.foldl (fun total stop => UInt32.ofInt (total.toNat+
      ((nw.getStation stop.1.node).map (·.passengerCount)).getD 0)) total).toNat : ℤ) =
      (total.toNat+nw.exactCrowding path) % 2^32 := by
    induction path with
    | nil =>
      intro total
      have hlt := total.toNat_lt
      simp only [List.foldl_nil,exactCrowding,List.map_nil,List.sum_nil,add_zero]
      rw [Int.emod_eq_of_lt (by omega) (by omega)]
    | cons stop path ih =>
      intro total
      rw [List.foldl_cons,ih,toNat_ofInt,Int.emod_add_emod,exactCrowding,exactCrowding,List.map_cons,
        List.sum_cons,add_assoc]
  have htotal := hfold 0
  simpa [keptCrowding,getPathCrowding] using htotal

theorem keptCrowding_nonneg (path : Path) : 0 ≤ nw.keptCrowding path :=
  Int.emod_nonneg _ (by norm_num)

theorem keptCrowding_lt (path : Path) : nw.keptCrowding path < 2^32 :=
  Int.emod_lt_of_pos _ (by norm_num)

theorem getPathCrowding_lt_iff :
    nw.getPathCrowding path < nw.getPathCrowding path' ↔
      nw.keptCrowding path < nw.keptCrowding path' := by
  rw [← toNat_getPathCrowding,← toNat_getPathCrowding,UInt32.lt_iff_toNat_lt,Int.ofNat_lt]

/-- The selection loop finds the first path of least total, if it is within the limit. -/
theorem selectQuietPath_eq (maxCrowding : UInt32) (paths : List Path) (best : Path) :
    (nw.selectQuietPath maxCrowding paths (best,nw.getPathCrowding best)).1 =
      nw.quieterOf maxCrowding.toNat best (paths.argmin nw.keptCrowding) := by
  induction paths generalizing best with
  | nil => rfl
  | cons path paths ih =>
    have hmax : maxCrowding < nw.getPathCrowding path ↔
        (maxCrowding.toNat : ℤ) < nw.keptCrowding path := by
      rw [← toNat_getPathCrowding,UInt32.lt_iff_toNat_lt,Int.ofNat_lt]
    simp only [selectQuietPath,List.argmin_cons,hmax,getPathCrowding_lt_iff]
    cases hmin : paths.argmin nw.keptCrowding with
    | none =>
      rw [hmin] at ih
      split_ifs with hslow hless <;> rw [ih] <;> simp only [quieterOf]
      · rw [if_neg (by omega)]
      · rw [if_pos (by omega)]
      · rw [if_neg (by omega)]
    | some least =>
      rw [hmin] at ih
      dsimp only
      split_ifs with hslow hfirst hless hfirst hfirst <;> rw [ih] <;> simp only [quieterOf]
      · rw [if_neg (by omega),if_neg (by omega)]
      · split_ifs <;> first | rfl | omega
      · rw [if_neg (by omega),if_pos (by omega)]
      · rw [if_neg (by omega),if_neg (by omega)]

theorem quieterOf_mem (maxCrowding : ℕ) {best : Path} {candidate : Option Path}
    (h : ∀ path ∈ candidate, path ∈ paths) :
    nw.quieterOf maxCrowding best candidate ∈ best::paths := by
  cases candidate with
  | none => exact List.mem_cons_self
  | some path =>
    simp only [quieterOf]
    split_ifs
    · exact List.mem_cons_of_mem best (h path rfl)
    · exact List.mem_cons_self

theorem keptCrowding_quieterOf_le (maxCrowding : ℕ) (best : Path) (candidate : Option Path) :
    nw.keptCrowding (nw.quieterOf maxCrowding best candidate) ≤ nw.keptCrowding best := by
  cases candidate with
  | none => exact le_rfl
  | some path =>
    simp only [quieterOf]
    split_ifs with hquieter
    · exact hquieter.2.le
    · exact le_rfl

theorem mostQuietPath_mem {minQuietnessPc : ℚ} {fastestPath quietPath : Path}
    (h : nw.mostQuietPath lib minQuietnessPc fastestPath paths = some quietPath) :
    quietPath ∈ fastestPath::paths := by
  simp only [mostQuietPath,Option.bind_eq_bind,Option.bind_eq_some_iff,selectQuietPath_eq,
    Option.pure_def,Option.some.injEq] at h
  obtain ⟨maxCrowding,-,rfl⟩ := h
  exact quieterOf_mem _ fun path hpath => List.argmin_mem hpath

theorem mostQuietPath_eq {minQuietnessPc : ℚ} (h₀ : 0 ≤ minQuietnessPc) (h₁ : minQuietnessPc ≤ 1)
    (fastestPath : Path) (paths : List Path) :
    nw.mostQuietPath lib minQuietnessPc fastestPath paths = some (nw.quieterOf
      (lib.crowdingLimit (nw.getPathCrowding fastestPath).toNat minQuietnessPc) fastestPath
      (paths.argmin nw.keptCrowding)) := by
  obtain ⟨maxCrowding,hmax,htoNat⟩ :=
    lib.toUnsigned_crowdingLimit (nw.getPathCrowding fastestPath).toNat_lt h₀ h₁
  simp only [mostQuietPath,hmax,Option.bind_eq_bind,Option.bind_some,selectQuietPath_eq,htoNat]
  rfl

def OrderedExactly (nw : TransportNetwork) (path path' : Path) : Prop :=
  nw.getPathCrowding path ≤ nw.getPathCrowding path' ↔ nw.exactCrowding path ≤ nw.exactCrowding path'

/-- A sum with more multiples of `2^32` leaves a greater rest. -/
def KeepsOrder (nw : TransportNetwork) (path path' : Path) : Prop :=
  nw.exactCrowding path/2^32 < nw.exactCrowding path'/2^32 →
    nw.exactCrowding path % 2^32 < nw.exactCrowding path' % 2^32

theorem orderedExactly_iff (path path' : Path) :
    nw.OrderedExactly path path' ∧ nw.OrderedExactly path' path ↔
      nw.KeepsOrder path path' ∧ nw.KeepsOrder path' path := by
  have htotals : ∀ p p' : Path, nw.getPathCrowding p ≤ nw.getPathCrowding p' ↔
      nw.exactCrowding p % 2^32 ≤ nw.exactCrowding p' % 2^32 := by
    intro p p'
    rw [← keptCrowding,← keptCrowding,← toNat_getPathCrowding,← toNat_getPathCrowding,
      UInt32.le_iff_toNat_le,Int.ofNat_le]
  have hpath := Int.mul_ediv_add_emod (nw.exactCrowding path) (2^32)
  have hpath' := Int.mul_ediv_add_emod (nw.exactCrowding path') (2^32)
  have hlt : nw.exactCrowding path % 2^32 < 2^32 := keptCrowding_lt path
  have hlt' : nw.exactCrowding path' % 2^32 < 2^32 := keptCrowding_lt path'
  have hnonneg : 0 ≤ nw.exactCrowding path % 2^32 := keptCrowding_nonneg path
  have hnonneg' : 0 ≤ nw.exactCrowding path' % 2^32 := keptCrowding_nonneg path'
  unfold OrderedExactly KeepsOrder
  rw [htotals,htotals]
  omega

/-- The totals order the enumerated paths as their exact sums do, and so the quiet route is no more
crowded than the fastest one, exactly if no sum with more multiples of `2^32` leaves a smaller rest. -/
theorem getQuietTravelRoute_quieter_iff (lib : StdLibrary) (nw : TransportNetwork)
    (hA : (nw.getStation A).isSome) (hB : (nw.getStation B).isSome) (hne : A ≠ B)
    {maxSlowdownPc minQuietnessPc : ℚ} (h₀ : 0 ≤ minQuietnessPc) (h₁ : minQuietnessPc ≤ 1)
    {maxNPaths : ℕ} {fastestPath : Path}
    (hpaths : nw.getFastestTravelRoutes lib A B maxSlowdownPc maxNPaths = some (fastestPath::paths)) :
    (∃ quietPath ∈ fastestPath::paths,
      nw.mostQuietPath lib minQuietnessPc fastestPath paths = some quietPath ∧
      nw.getQuietTravelRoute lib A B maxSlowdownPc minQuietnessPc maxNPaths =
        assembleTravelRoute A B quietPath ∧
      (nw.exactCrowding quietPath ≤ nw.exactCrowding fastestPath ∧
        (∀ path ∈ fastestPath::paths, ∀ path' ∈ fastestPath::paths, nw.OrderedExactly path path') ↔
        ∀ path ∈ fastestPath::paths, ∀ path' ∈ fastestPath::paths, nw.KeepsOrder path path')) ∧
    ∀ path path', nw.OrderedExactly path path' ∧ nw.OrderedExactly path' path ↔
      nw.KeepsOrder path path' ∧ nw.KeepsOrder path' path := by
  refine ⟨?_,orderedExactly_iff⟩
  have hmost := @mostQuietPath_eq lib nw minQuietnessPc h₀ h₁ fastestPath paths
  have hmem := @quieterOf_mem nw paths (lib.crowdingLimit (nw.getPathCrowding fastestPath).toNat
    minQuietnessPc) fastestPath (paths.argmin nw.keptCrowding) fun path hpath => List.argmin_mem hpath
  refine ⟨_,hmem,hmost,?_,?_⟩
  · have hguard : ¬((nw.getStation A).isNone || (nw.getStation B).isNone) = true := by
      simp [Option.isSome_iff_ne_none.mp hA,Option.isSome_iff_ne_none.mp hB]
    rw [getQuietTravelRoute,if_neg hguard,if_neg hne]
    simp only [hpaths,hmost,Option.bind_eq_bind,Option.bind_some]
  · constructor
    · rintro ⟨-,hordered⟩ path hpath path' hpath'
      exact ((orderedExactly_iff path path').mp
        ⟨hordered path hpath path' hpath',hordered path' hpath' path hpath⟩).1
    · intro hkeeps
      have hordered : ∀ path ∈ fastestPath::paths, ∀ path' ∈ fastestPath::paths,
          nw.OrderedExactly path path' := fun path hpath path' hpath' =>
        ((orderedExactly_iff path path').mpr
          ⟨hkeeps path hpath path' hpath',hkeeps path' hpath' path hpath⟩).1
      refine ⟨(hordered _ hmem fastestPath List.mem_cons_self).mp ?_,hordered⟩
      rw [UInt32.le_iff_toNat_le,← Int.ofNat_le,toNat_getPathCrowding,toNat_getPathCrowding]
      exact keptCrowding_quieterOf_le _ _ _

/-- Two ways from `A` to `B`, of one minute and, over `X`, of two. -/
def detourCalls (events : List PassengerEvent) : List Call :=
  [.addStation ⟨ascii "A",[]⟩,.addStation ⟨ascii "X",[]⟩,.addStation ⟨ascii "B",[]⟩,
    .addLine ⟨ascii "red",[],[⟨ascii "r",[],ascii "red",ascii "A",ascii "B",[ascii "A",ascii "B"]⟩]⟩,
    .addLine ⟨ascii "blue",[],[⟨ascii "b",[],ascii "blue",ascii "A",ascii "B",
      [ascii "A",ascii "X",ascii "B"]⟩]⟩,
    .setTravelTime (ascii "A") (ascii "B") 1,.setTravelTime (ascii "A") (ascii "X") 1,
    .setTravelTime (ascii "X") (ascii "B") 1] ++ events.map .recordPassengerEvent

/-- Five passengers in `A`, and one who has left `X`: the quiet route is the detour. -/
theorem getQuietTravelRoute_quieter_detour :
    let nw := networkOf (detourCalls (⟨ascii "X",.exit⟩::List.replicate 5 ⟨ascii "A",.enter⟩))
    ∃ fastestPath paths quietPath,
      nw.getFastestTravelRoutes .simple (ascii "A") (ascii "B") 1 1000 = some (fastestPath::paths) ∧
      nw.getQuietTravelRoute .simple (ascii "A") (ascii "B") 1 0 1000 =
        assembleTravelRoute (ascii "A") (ascii "B") quietPath ∧
      quietPath ≠ fastestPath ∧ nw.exactCrowding quietPath ≤ nw.exactCrowding fastestPath := by
  intro nw
  have hrun : (nw.getFastestTravelRoutes .simple (ascii "A") (ascii "B") 1 1000).any fun paths =>
      paths ≠ [] ∧ (∀ path ∈ paths, nw.exactCrowding path/2^32 = 0) ∧
        ∀ fastestPath ∈ paths.head?,
          nw.mostQuietPath .simple 0 fastestPath paths.tail ≠ some fastestPath := by
    decide +kernel
  obtain ⟨paths,hpaths,hrun⟩ := (Option.any_eq_true _ _).mp hrun
  obtain ⟨hcons,hzero,hother⟩ := of_decide_eq_true hrun
  obtain ⟨fastestPath,paths,rfl⟩ := List.exists_cons_of_ne_nil hcons
  obtain ⟨⟨quietPath,-,hmost,hroute,hiff⟩,-⟩ := getQuietTravelRoute_quieter_iff .simple nw
    (by decide +kernel : (nw.getStation (ascii "A")).isSome)
    (by decide +kernel : (nw.getStation (ascii "B")).isSome) (by decide) le_rfl zero_le_one hpaths
  refine ⟨fastestPath,paths,quietPath,hpaths,hroute,?_,(hiff.mpr ?_).1⟩
  · rintro rfl
    exact hother quietPath rfl hmost
  · intro path hpath path' hpath' hless
    rw [hzero path hpath,hzero path' hpath'] at hless
    exact absurd hless (lt_irrefl _)

/-- One passenger who left `A` makes the sum of the fastest path negative and its total huge. -/
theorem getQuietTravelRoute_crowded : ¬∀ (lib : StdLibrary) (nw : TransportNetwork) (A B : Id),
    nw.Built → A ≠ B → (nw.getStation A).isSome → (nw.getStation B).isSome →
    ∀ maxSlowdownPc minQuietnessPc : ℚ, 0 ≤ maxSlowdownPc → 0 ≤ minQuietnessPc →
    minQuietnessPc ≤ 1 → ∀ maxNPaths fastestPath paths quietPath,
    nw.getFastestTravelRoutes lib A B maxSlowdownPc maxNPaths = some (fastestPath::paths) →
    nw.mostQuietPath lib minQuietnessPc fastestPath paths = some quietPath →
    nw.exactCrowding quietPath ≤ nw.exactCrowding fastestPath := by
  intro hclaim
  let calls := detourCalls (⟨ascii "A",.exit⟩::List.replicate 6 ⟨ascii "X",.enter⟩)
  have hrun : (((networkOf calls).getFastestTravelRoutes .simple (ascii "A") (ascii "B") 1 1000).bind
      fun paths => paths.head?.bind fun fastestPath =>
        ((networkOf calls).mostQuietPath .simple (1/10) fastestPath paths.tail).bind fun quietPath =>
          some ((networkOf calls).exactCrowding fastestPath,
            (networkOf calls).exactCrowding quietPath)) = some (-1,5) := by
    decide +kernel
  have hA : ((networkOf calls).getStation (ascii "A")).isSome := by decide +kernel
  have hB : ((networkOf calls).getStation (ascii "B")).isSome := by decide +kernel
  simp only [Option.bind_eq_some_iff,Option.some.injEq,Prod.mk.injEq] at hrun
  obtain ⟨paths,hpaths,fastestPath,hhead,quietPath,hquiet,hfastest,hcrowded⟩ := hrun
  obtain ⟨rest,rfl⟩ := List.head?_eq_some_iff.mp hhead
  have hle := hclaim .simple _ _ _ (built_networkOf calls) (by decide) hA hB 1 (1/10)
    zero_le_one (by norm_num) (by norm_num) 1000 fastestPath rest quietPath hpaths hquiet
  rw [hfastest,hcrowded] at hle
  norm_num at hle

end TransportNetwork
end QuietRoute
