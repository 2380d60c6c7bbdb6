import QuietRoute.Network.FastestRoute
import QuietRoute.Search.Trails

/-! The fastest-route query on networks with any times. Times are added up in 32 bits without a check,
so that its answer is exact when no sum along the walks that the search pursues wraps around. No
route needs to list its stops only once for this. -/
namespace QuietRoute

open BestFirst TransportNetwork

/-- The walks that the search can pursue, by the stops and times that they lead to, take less than
`2^32` with any one further edge. -/
def TransportNetwork.NeverWraps (nw : TransportNetwork) (stopA : PathStopDist) (stationB : Id)
    (excludedStops : List PathStop) : Prop :=
  ∀ a y w, Pursued (nw.moves stationB excludedStops) stopA.1 stopA.2.toNat a →
    nw.moves stationB excludedStops a.1 y w → a.2+w < 2^32

/-- The query returns the itinerary of a walk and its exact cost, and no walk costs less. -/
def ReportsExactly (lib : StdLibrary) (nw : TransportNetwork) (stationA stationB : Id) : Prop :=
  ∃ route, nw.getFastestTravelRoute lib stationA stationB = some route ∧
    route.startStationId = stationA ∧ route.endStationId = stationB ∧
    ∃ edges, IsWalk nw stationA edges stationB ∧ route.steps = walkSteps stationA edges ∧
      route.totalTravelTime.toNat = walkCost edges ∧
      ∀ edges', IsWalk nw stationA edges' stationB → walkCost edges ≤ walkCost edges'

variable {lib : StdLibrary} {nw : TransportNetwork} {stationA stationB : Id}
  {excludedStops : List PathStop} {stopA : PathStopDist} {st : SearchState lib}
  {rank : PathStop → ℕ} {clock level : ℕ}

theorem visitFits_of_neverWraps (h : nw.NeverWraps stopA stationB excludedStops) {curr : PathStopDist}
    (hcurr : Pursued (nw.moves stationB excludedStops) stopA.1 stopA.2.toNat (label curr)) :
    nw.visitFits stationB excludedStops curr = true :=
  visitFits_iff.mpr fun hB edge hedge hex =>
    h (label curr) edge.target (moveTime curr.1 edge) hcurr ⟨hB,edge,hedge,rfl,hex,rfl⟩

theorem searchLoop_pursuit (hwraps : nw.NeverWraps stopA stationB excludedStops) (fuel : ℕ)
    (h : Invariant (nw.moves stationB excludedStops) stopA.1 stopA.2.toNat st.labels rank clock level
      noneOwed)
    (hpursuit : Pursuit (nw.moves stationB excludedStops) stopA.1 stopA.2.toNat st.labels)
    (hstarted : label stopA ∈ st.labels.queue → st.labels.queue = {label stopA}) :
    nw.loopFits lib stationB excludedStops fuel st = true ∧
      Pursuit (nw.moves stationB excludedStops) stopA.1 stopA.2.toNat
        (nw.searchLoop lib stationB excludedStops fuel st).labels := by
  induction fuel generalizing st rank clock level with
  | zero => exact ⟨rfl,hpursuit⟩
  | succ fuel ih =>
    rw [TransportNetwork.loopFits,TransportNetwork.searchLoop]
    cases hpop : lib.stopQueue.pop st.nodesToVisit with
    | none => exact ⟨rfl,hpursuit⟩
    | some e =>
      obtain ⟨curr,rest⟩ := e
      have hqueue := queue_of_pop hpop
      have hcurr := hpursuit.pursued (label curr) (by rw [hqueue]; exact Multiset.mem_cons_self _ _)
      have hfits := visitFits_of_neverWraps hwraps hcurr
      have hrest := start_not_mem_rest hqueue hstarted
      obtain ⟨rank',clock',level',h',hpursuit',hstarted'⟩ :=
        visit_keeps (keptFrom_pursuit hcurr) h hpop hfits ⟨hpursuit.pop hqueue,hrest⟩
      obtain ⟨hloop,hend⟩ := ih h' hpursuit' fun hmem => absurd hmem hstarted'
      exact ⟨by simp only [hfits,hloop,Bool.and_true],hend⟩

theorem search_pursuit (lib : StdLibrary) (hwraps : nw.NeverWraps stopA stationB excludedStops) :
    nw.searchFits lib stopA stationB excludedStops = true ∧
      Pursuit (nw.moves stationB excludedStops) stopA.1 stopA.2.toNat
        (nw.search lib stopA stationB excludedStops).labels := by
  refine searchLoop_pursuit hwraps nw.searchFuel (invariant_initialSearch stopA) ?_ ?_
  · rw [labels_initial]
    exact pursuit_initial _ _
  · intro _
    rw [labels_initial]
    rfl

/-- Stops of one route without a change: the route of the edge that led to a stop. -/
theorem lined_moves (nw : TransportNetwork) (stationA stationB : Id) (excludedStops : List PathStop) :
    Lined (nw.moves stationB excludedStops) ⟨stationA,none⟩
      (fun stop => stop.edge.map fun edge => edge.route.ptr) where
  source := by
    rintro x w ⟨-,edge,-,hstart,-⟩
    exact absurd (congrArg PathStop.edge hstart) (by simp [GraphEdge.target])
  line_eq := by
    rintro p x y w ⟨-,prev,-,rfl,-⟩ ⟨-,edge,-,rfl,-,hzero⟩
    have hsame : (changePenalty (some prev) edge).toNat = 0 := by
      unfold moveTime at hzero
      exact (Nat.add_eq_zero_iff.mp hzero.symm).2
    simp only [changePenalty] at hsame
    split_ifs at hsame with hroute
    · simpa [GraphEdge.target] using hroute
    · exact absurd hsame (by decide)
  weight_eq := by
    rintro x y z w w' hline ⟨-,edge,-,rfl,-,rfl⟩ ⟨-,edge',-,htarget,-,rfl⟩
    obtain rfl : edge = edge' := Option.some.inj (congrArg PathStop.edge htarget)
    have hpenalty : changePenalty x.edge edge = changePenalty y.edge edge := by
      cases hx : x.edge <;> cases hy : y.edge <;> simp [hx,hy,changePenalty] at hline ⊢
      rw [hline]
    rw [moveTime,moveTime,hpenalty]

/-- A library that takes favoured entries from the queue first among those at the same time. -/
def StdLibrary.favouring (favoured : PathStop × ℕ → Prop) [DecidablePred favoured] : StdLibrary :=
  {StdLibrary.simple with
    stopQueue := .favouring (fun stop : PathStopDist => stop.2.toNat) fun stop => favoured (label stop)}

theorem favoured_of_pop {favoured : PathStop × ℕ → Prop} [DecidablePred favoured]
    {st : SearchState (.favouring favoured)} {curr : PathStopDist}
    {rest : (StdLibrary.favouring favoured).stopQueue.Queue}
    (hpop : (StdLibrary.favouring favoured).stopQueue.pop st.nodesToVisit = some (curr,rest))
    {e : PathStop × ℕ} (he : e ∈ st.labels.queue) (htime : e.2 = curr.2.toNat) (hfavoured : favoured e) :
    favoured (label curr) := by
  obtain ⟨stop,hstop,rfl⟩ := exists_of_mem_queue he
  exact PriorityQueue.favoured_of_pop (fun stop : PathStopDist => stop.2.toNat)
    (fun stop => favoured (label stop)) hpop hstop htime hfavoured

/-- Such a library pursues a trail that it favours to the end, unless a sum wraps around. -/
theorem visit_awaits {entry : ℕ → PathStop × ℕ} {length i : ℕ} {curr : PathStopDist}
    {rest : lib.stopQueue.Queue}
    (htrail : Trail (nw.moves stationB excludedStops) ⟨stationA,none⟩ 0 entry length)
    (hlong : ∃ y w, nw.moves stationB excludedStops (entry length).1 y w ∧ 2^32 ≤ (entry length).2+w)
    (hfavours : entry i ∈ st.labels.queue → (entry i).2 = curr.2.toNat →
      ∃ l ≤ length, entry l = label curr)
    (h : Invariant (nw.moves stationB excludedStops) ⟨stationA,none⟩ 0 st.labels rank clock level
      noneOwed) (hawaits : Awaits entry length st.labels i)
    (hpop : lib.stopQueue.pop st.nodesToVisit = some (curr,rest))
    (hfits : nw.visitFits stationB excludedStops curr = true) :
    ∃ rank' clock' level', Invariant (nw.moves stationB excludedStops) ⟨stationA,none⟩ 0
      (nw.visit lib stationB excludedStops curr {st with nodesToVisit := rest}).labels
      rank' clock' level' noneOwed ∧ ∃ j, Awaits entry length
        (nw.visit lib stationB excludedStops curr {st with nodesToVisit := rest}).labels j := by
  have hline := lined_moves nw stationA stationB excludedStops
  have hqueue := queue_of_pop hpop
  have hmin := le_of_pop hpop _ hawaits.queued
  by_cases hpopped : ∃ l, i ≤ l ∧ l ≤ length ∧ entry l = label curr
  · obtain ⟨l,hil,hl,hcurr⟩ := hpopped
    rcases hl.eq_or_lt with rfl | hlt
    · -- the sum that wraps around
      obtain ⟨y,w,⟨hB,edge,hedge,rfl,hex,rfl⟩,hle⟩ := hlong
      rw [hcurr] at hB hedge hle
      exact absurd (visitFits_iff.mp hfits hB edge hedge hex) (not_lt.mpr hle)
    · have hdist := htrail.dist_eq h hlt (by rw [hqueue,hcurr]; exact Multiset.mem_cons_self _ _)
      have hkept := htrail.keptFrom_passes hline hlt
      rw [hcurr] at hkept
      obtain ⟨rank',clock',level',h',hpasses⟩ := visit_keeps hkept h hpop hfits
        ⟨hdist,hawaits.ahead.mono (hil.trans (Nat.le_succ l)),Or.inr (hawaits.ahead l hil hlt)⟩
      exact ⟨rank',clock',level',h',htrail.awaits_of_passes h' hlt hpasses⟩
  · have hne : entry i ≠ label curr := fun heq => hpopped ⟨i,le_rfl,hawaits.le,heq⟩
    have hrest : entry i ∈ ({st with nodesToVisit := rest} : SearchState lib).labels.queue := by
      have hmem := hawaits.queued
      rw [hqueue] at hmem
      exact (Multiset.mem_cons.mp hmem).resolve_left hne
    have hkept := htrail.keptFrom_awaits (i := i) (x := curr.1) hline hmin (by
      intro j hij hj heq
      have hle := htrail.weight_le hij hj.le
      obtain ⟨l,hl,hcurr⟩ := hfavours hawaits.queued (by omega)
      refine ⟨l,?_,hcurr⟩
      by_contra hjl
      exact hpopped ⟨l,by omega,hl,hcurr⟩)
    obtain ⟨rank',clock',level',h',hawaits'⟩ := visit_keeps hkept h hpop hfits
      ⟨hawaits.le,hrest,hawaits.ahead⟩
    exact ⟨rank',clock',level',h',i,hawaits'⟩

theorem searchLoop_awaits {entry : ℕ → PathStop × ℕ} {length : ℕ}
    (htrail : Trail (nw.moves stationB excludedStops) ⟨stationA,none⟩ 0 entry length)
    (hlong : ∃ y w, nw.moves stationB excludedStops (entry length).1 y w ∧ 2^32 ≤ (entry length).2+w)
    (hfavours : ∀ (st : SearchState lib) curr rest i,
      lib.stopQueue.pop st.nodesToVisit = some (curr,rest) → i ≤ length →
        entry i ∈ st.labels.queue → (entry i).2 = curr.2.toNat → ∃ l ≤ length, entry l = label curr)
    (fuel : ℕ)
    (h : Invariant (nw.moves stationB excludedStops) ⟨stationA,none⟩ 0 st.labels rank clock level
      noneOwed) (hawaits : ∃ i, Awaits entry length st.labels i)
    (hfits : nw.loopFits lib stationB excludedStops fuel st = true) :
    ∃ i, Awaits entry length (nw.searchLoop lib stationB excludedStops fuel st).labels i := by
  induction fuel generalizing st rank clock level with
  | zero => exact hawaits
  | succ fuel ih =>
    rw [TransportNetwork.searchLoop]
    rw [TransportNetwork.loopFits] at hfits
    cases hpop : lib.stopQueue.pop st.nodesToVisit with
    | none => exact hawaits
    | some e =>
      obtain ⟨curr,rest⟩ := e
      simp only [hpop,Bool.and_eq_true] at hfits
      obtain ⟨i,hi⟩ := hawaits
      obtain ⟨rank',clock',level',h',hawaits'⟩ := visit_awaits htrail hlong
        (hfavours st curr rest i hpop hi.le) h hi hpop hfits.1
      exact ih h' hawaits' hfits.2

/-- Nothing on the way wraps around exactly when no addition of the search does, whichever way the
library breaks ties. -/
theorem neverWraps_iff : nw.NeverWraps (⟨stationA,none⟩,0) stationB excludedStops ↔
    ∀ lib, nw.searchFits lib (⟨stationA,none⟩,0) stationB excludedStops = true := by
  constructor
  · exact fun hwraps lib => (search_pursuit lib hwraps).1
  · intro hfits a y w ha hmove
    by_contra hlong
    obtain ⟨length,entry,htrail,rfl⟩ := Pursued.exists_trail ha
    have hinitial : Awaits entry length (initialSearch
        (.favouring fun e => ∃ i ≤ length, entry i = e) (⟨stationA,none⟩,0)).labels 0 := by
      rw [labels_initial]
      exact htrail.awaits_initial (lined_moves nw stationA stationB excludedStops)
    obtain ⟨i,hawaits⟩ := searchLoop_awaits htrail ⟨y,w,hmove,not_lt.mp hlong⟩
      (fun _ _ _ i hpop hi hqueued htime => favoured_of_pop hpop hqueued htime ⟨i,hi,rfl⟩)
      nw.searchFuel (invariant_initialSearch (⟨stationA,none⟩,0)) ⟨0,hinitial⟩ (hfits _)
    -- but the queue runs empty
    obtain ⟨stop,hstop,-⟩ := exists_of_mem_queue hawaits.queued
    have hdone := search_done (.favouring fun e => ∃ i ≤ length, entry i = e) nw (⟨stationA,none⟩,0)
      stationB excludedStops
    exact Multiset.notMem_zero stop (hdone ▸ hstop)

/-- From its first station the search takes every edge at no greater time than later on. -/
theorem dominated_start {stop : PathStop} (hnode : stop.node = stationA) :
    Dominated (nw.moves stationB excludedStops) ⟨stationA,none⟩ stop := by
  rintro y w ⟨hB,edge,hedge,hy,hex,rfl⟩
  rw [hnode] at hB hedge
  refine ⟨moveTime ⟨stationA,none⟩ edge,?_,hB,edge,hedge,hy,hex,rfl⟩
  simp only [moveTime,changePenalty,UInt32.toNat_zero]
  omega

theorem tail_ne_start {path : Path}
    (hpursuit : Pursuit (nw.moves stationB excludedStops) ⟨stationA,none⟩ 0 st.labels)
    (hchain : (path.map label).IsChain
      (Link (nw.moves stationB excludedStops) ⟨stationA,none⟩ st.labels rank))
    (hlast : ∀ last, path.getLast? = some last → last.1.node ≠ stationA) :
    ∀ a ∈ path.tail, a.1.node ≠ stationA := by
  intro a ha hnode
  obtain ⟨i,hi,rfl⟩ := List.getElem_of_mem ha
  rw [List.length_tail] at hi
  rw [List.getElem_tail] at hnode
  have hlink : ∀ j (hj : j+1 < path.length), Link (nw.moves stationB excludedStops) ⟨stationA,none⟩
      st.labels rank (label path[j]) (label path[j+1]) := by
    intro j hj
    have h := List.isChain_iff_getElem.mp hchain j (by simpa using hj)
    rwa [List.getElem_map,List.getElem_map] at h
  by_cases hend : i+1+1 = path.length
  · refine hlast path[i+1] ?_ hnode
    have hidx : path.length-1 = i+1 := by omega
    rw [List.getLast?_eq_getElem?,hidx]
    exact List.getElem?_eq_getElem _
  · have hprev := (hlink (i+1) (by omega)).prev_eq
    exact (hlink i (by omega)).ne_start (hpursuit.apart _ _ hprev (dominated_start hnode))

/-- A search without wrapped sums returns a path of least time, or an empty one if there is none. -/
theorem getFastestTravelRouteInternal_of_neverWraps (lib : StdLibrary) (hne : stationA ≠ stationB)
    (hwraps : nw.NeverWraps (⟨stationA,none⟩,0) stationB []) :
    ∃ path, nw.getFastestTravelRouteInternal lib (⟨stationA,none⟩,0) stationB [] = some path ∧
      ((path = [] ∧ ∀ b : PathStop × ℕ, b.1.node = stationB →
        ¬Relation.ReflTransGen (Advance (nw.moves stationB [])) (label (⟨stationA,none⟩,0)) b) ∨
      IsShortest nw (⟨stationA,none⟩,0) stationB [] path) := by
  obtain ⟨hfits,hpursuit⟩ := search_pursuit lib hwraps
  obtain ⟨rank,clock,level,hinv⟩ := search_invariant (⟨stationA,none⟩,0) hfits
  obtain ⟨path,hpath,hspec⟩ := getFastestTravelRouteInternal_of_assembles (fun _ => True) hne hinv
    fun e hfind hB => by
      obtain ⟨pre,hstart,hchain,hassemble⟩ := exists_links hinv hfind
      refine ⟨pre,hassemble (tail_ne_start hpursuit hchain ?_),hstart,
        hchain.imp fun _ _ hl => hl.advance,trivial⟩
      intro last hlast
      rw [List.getLast?_concat,Option.some.injEq] at hlast
      rw [← hlast,hB]
      exact hne.symm
  exact ⟨path,hpath,hspec.imp_right And.left⟩

/-- The walks that the search can pursue stay below `2^32` exactly when no addition wraps around,
whichever way ties are broken. The answer is exact then; and it can only be when some walk takes less
than `2^32`. -/
theorem getFastestTravelRoute_exact (lib : StdLibrary) (nw : TransportNetwork) {stationA stationB : Id}
    (hA : (nw.getStation stationA).isSome) (hB : (nw.getStation stationB).isSome)
    (hne : stationA ≠ stationB) (hconnected : ∃ edges, IsWalk nw stationA edges stationB) :
    (nw.NeverWraps (⟨stationA,none⟩,0) stationB [] ↔
      ∀ lib', nw.searchFits lib' (⟨stationA,none⟩,0) stationB [] = true) ∧
      (nw.NeverWraps (⟨stationA,none⟩,0) stationB [] → ReportsExactly lib nw stationA stationB) ∧
      (ReportsExactly lib nw stationA stationB →
        ∃ edges, IsWalk nw stationA edges stationB ∧ walkCost edges < 2^32) := by
  refine ⟨neverWraps_iff,?_,?_⟩
  · intro hwraps
    obtain ⟨path,hpath,hspec⟩ := getFastestTravelRouteInternal_of_neverWraps lib hne hwraps
    rw [ReportsExactly,getFastestTravelRoute_eq lib hA hB hne,hpath,Option.bind_some]
    rcases hspec with ⟨-,hnone⟩ | hshort
    · obtain ⟨edges,hwalk⟩ := hconnected
      obtain ⟨b,hb,-,hr⟩ := reach_of_walk_none hne hwalk
      exact absurd hr (hnone b hb)
    · obtain ⟨edges,hwalk,hnonempty,hroute,htime,hleast⟩ :=
        assembleTravelRoute_of_shortest hne hshort
      rw [if_neg hnonempty,hroute]
      exact ⟨_,rfl,rfl,rfl,edges,hwalk,rfl,htime,hleast⟩
  · rintro ⟨route,-,-,-,edges,hwalk,-,htime,-⟩
    exact ⟨edges,hwalk,htime ▸ route.totalTravelTime.toNat_lt⟩

/-- Where every edge leads to a station later by its time and a change, no walk goes on for ever, and
none wraps around. -/
theorem neverWraps_of_schedule {schedule : Id → ℕ} (hfits : ∀ S, schedule S < 2^32)
    (hedges : ∀ S, ∀ edge ∈ nw.edgesFrom S,
      schedule S+edge.travelTime.toNat+5 ≤ schedule edge.nextStop) :
    nw.NeverWraps (⟨stationA,none⟩,0) stationB excludedStops := by
  have hmove : ∀ (x y : PathStop) w, nw.moves stationB excludedStops x y w →
      schedule x.node+w ≤ schedule y.node := by
    rintro x y w ⟨-,edge,hedge,rfl,-,rfl⟩
    have htime := hedges x.node edge hedge
    have hchange := changePenalty_le x.edge edge
    simp only [moveTime,GraphEdge.target]
    omega
  have hlater : ∀ a, Pursued (nw.moves stationB excludedStops) ⟨stationA,none⟩ 0 a →
      a.2 ≤ schedule a.1.node := by
    intro a ha
    induction ha with
    | refl => exact Nat.zero_le _
    | @tail a b _ hab ih =>
      obtain ⟨w,hstep,hb⟩ := hab.advance
      rw [hb]
      exact (Nat.add_le_add_right ih w).trans (hmove _ _ _ hstep)
  intro a y w ha hstep
  exact ((Nat.add_le_add_right (hlater a ha) w).trans (hmove _ _ _ hstep)).trans_lt (hfits y.node)

theorem getFastestTravelRoute_exact_change :
    ReportsExactly .simple (networkOf changeCalls) (ascii "A") (ascii "B") := by
  let schedule : Id → ℕ := fun S =>
    if S = ascii "A" then 0 else if S = ascii "X" then 8 else if S = ascii "Y" then 15 else 25
  have hfits : ∀ S, schedule S < 2^32 := by
    intro S
    simp only [schedule]
    split_ifs <;> omega
  have hedges : ∀ S, ∀ edge ∈ (networkOf changeCalls).edgesFrom S,
      schedule S+edge.travelTime.toNat+5 ≤ schedule edge.nextStop := by
    intro S edge hedge
    have hall : ∀ entry ∈ (networkOf changeCalls).stations.entries, ∀ edge ∈ entry.2.edges,
        schedule entry.1+edge.travelTime.toNat+5 ≤ schedule edge.nextStop := by decide +kernel
    obtain ⟨node,hnode,hmem⟩ := exists_entry_of_edge hedge
    exact hall _ hnode edge hmem
  exact (getFastestTravelRoute_exact .simple (networkOf changeCalls) (by decide +kernel)
    (by decide +kernel) (by decide)
    ⟨[redEdge,blueEdge],by decide +kernel⟩).2.1 (neverWraps_of_schedule hfits hedges)

/-- Two hops of `2^31` each. -/
def longCalls : List Call :=
  [.addStation ⟨ascii "A",[]⟩,.addStation ⟨ascii "X",[]⟩,.addStation ⟨ascii "B",[]⟩,
    .addLine ⟨ascii "red",[],
      [⟨ascii "r",[],ascii "red",ascii "A",ascii "B",[ascii "A",ascii "X",ascii "B"]⟩]⟩,
    .setTravelTime (ascii "A") (ascii "X") 2147483648,
    .setTravelTime (ascii "X") (ascii "B") 2147483648]

def longRoute : RouteInternal := ⟨1,ascii "r",ascii "red",[ascii "A",ascii "X",ascii "B"]⟩

def longWalk : List GraphEdge :=
  [⟨longRoute,0,ascii "X",2147483648⟩,⟨longRoute,1,ascii "B",2147483648⟩]

theorem sum_walkSteps_le (A : Id) (edges : List GraphEdge) :
    ((walkSteps A edges).map fun step => step.travelTime.toNat).sum ≤ walkCost edges := by
  have hsteps : (walkSteps A edges).map (fun step => step.travelTime.toNat) =
      edges.map fun edge => edge.travelTime.toNat := by
    induction edges generalizing A with
    | nil => rfl
    | cons edge edges ih => rw [walkSteps,List.map_cons,ih,List.map_cons]
  rw [hsteps]
  exact Nat.le_add_right _ _

/-- The total of these two hops is reported as 0. -/
theorem getFastestTravelRoute_wraps : ¬∀ (lib : StdLibrary) (nw : TransportNetwork)
    (stationA stationB : Id), nw.Built → (nw.getStation stationA).isSome →
      (nw.getStation stationB).isSome → stationA ≠ stationB →
        (∃ edges, IsWalk nw stationA edges stationB) → ReportsExactly lib nw stationA stationB := by
  intro hclaim
  have htotal : ((networkOf longCalls).getFastestTravelRoute .simple (ascii "A") (ascii "B")).map
      (fun route => (route.totalTravelTime,
        (route.steps.map fun step => step.travelTime.toNat).sum)) = some (0,2^32) := by
    decide +kernel
  have hwalk : IsWalk (networkOf longCalls) (ascii "A") longWalk (ascii "B") := by decide +kernel
  obtain ⟨route,hroute,-,-,edges,-,hsteps,hcost,-⟩ := hclaim .simple (networkOf longCalls)
    (ascii "A") (ascii "B") (built_networkOf longCalls) (by decide +kernel) (by decide +kernel)
    (by decide) ⟨longWalk,hwalk⟩
  rw [hroute,Option.map_some,Option.some.injEq,Prod.mk.injEq] at htotal
  have hle := sum_walkSteps_le (ascii "A") edges
  rw [← hsteps,htotal.2,← hcost,htotal.1] at hle
  exact absurd hle (by decide)

end QuietRoute
