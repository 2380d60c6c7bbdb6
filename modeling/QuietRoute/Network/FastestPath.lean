import QuietRoute.Network.Walks

/-! The internal search returns a fastest path: optimal among the walks that avoid the excluded
stops, starting exactly where it was told to, and meeting no station twice. -/
namespace QuietRoute

open BestFirst

structure IsFastest (nw : TransportNetwork) (stopA : PathStopDist) (stationB : Id)
    (excludedStops : List PathStop) (path : Path) : Prop where
  head : path.head? = some stopA
  last : ∀ last, path.getLast? = some last → last.1.node = stationB
  chain : (path.map label).IsChain (Advance (nw.moves stationB excludedStops))
  loopless : (path.map (·.1.node)).Nodup
  optimal : ∀ b : PathStop × ℕ, b.1.node = stationB →
    Relation.ReflTransGen (Advance (nw.moves stationB excludedStops)) (label stopA) b →
    (pathTime path).toNat ≤ b.2

/-- What it promises also when a route lists a stop twice: a path of least time. -/
structure IsShortest (nw : TransportNetwork) (stopA : PathStopDist) (stationB : Id)
    (excludedStops : List PathStop) (path : Path) : Prop where
  head : path.head? = some stopA
  last : ∀ last, path.getLast? = some last → last.1.node = stationB
  chain : (path.map label).IsChain (Advance (nw.moves stationB excludedStops))
  optimal : ∀ b : PathStop × ℕ, b.1.node = stationB →
    Relation.ReflTransGen (Advance (nw.moves stationB excludedStops)) (label stopA) b →
    (pathTime path).toNat ≤ b.2

variable {lib : StdLibrary} {nw : TransportNetwork} {stationB : Id}
  {excludedStops : List PathStop} {stopA : PathStopDist} {st : SearchState lib}
  {rank : PathStop → ℕ}

theorem IsFastest.isShortest {path : Path} (h : IsFastest nw stopA stationB excludedStops path) :
    IsShortest nw stopA stationB excludedStops path := ⟨h.head,h.last,h.chain,h.optimal⟩

/-- A traveller who could have continued from an earlier visit of a station would have been
faster, or as fast and expanded earlier. -/
theorem nodup_stations_of_links (hwf : nw.WellFormed) {s : PathStop} {ls : State PathStop}
    {path : List (PathStop × ℕ)}
    (h : path.IsChain (Link (nw.moves stationB excludedStops) s ls rank))
    (hlast : ∀ last, path.getLast? = some last → last.1.node = stationB) :
    (path.map (·.1.node)).Nodup := by
  have hadvance : path.Pairwise (Relation.TransGen (Advance (nw.moves stationB excludedStops))) :=
    (h.imp fun _ _ hl => Relation.TransGen.single hl.advance).pairwise
  have hlink : ∀ i (hi : i+1 < path.length),
      Link (nw.moves stationB excludedStops) s ls rank path[i] path[i+1] :=
    fun i hi => List.isChain_iff_getElem.mp h i hi
  rw [List.Nodup,List.pairwise_map,List.pairwise_iff_getElem]
  intro i j hi hj hij hnode
  have hcost := return_cost hwf (List.pairwise_iff_getElem.mp hadvance i j hi hj hij) hnode
  obtain ⟨_,⟨hnotB,-⟩,-⟩ := (hlink i (by omega)).advance
  by_cases hend : j+1 = path.length
  · have hB := hlast path[j] (by rw [List.getLast?_eq_getElem?,← hend]; simp)
    exact hnotB (hnode.trans hB)
  · have hnext := hlink j (by omega)
    obtain ⟨w,⟨-,edge,hedge,htarget,hex,hw⟩,htime⟩ := hnext.advance
    have hmove : nw.moves stationB excludedStops path[i].1 path[j+1].1 (moveTime path[i].1 edge) :=
      ⟨hnotB,edge,hnode ▸ hedge,htarget,hex,rfl⟩
    have hstrict := hnext.strict path[i].1 path[i].2 _ (hlink i (by omega)).tail_dist
      (by omega) hmove
    have hpen := changePenalty_le path[i].1.edge edge
    unfold moveTime at hstrict hw
    omega

theorem exists_path_of_links {s : PathStop} {pre : List (PathStop × ℕ)} {stop : PathStop × ℕ}
    (h : (pre ++ [stop]).IsChain (Link (nw.moves stationB excludedStops) s st.labels rank)) :
    ∃ path : Path, path.map label = pre := by
  have hmem : ∀ e ∈ pre, e ∈ Set.range label := by
    intro e he
    obtain ⟨i,hi,rfl⟩ := List.getElem_of_mem he
    have hlink := List.isChain_iff_getElem.mp h i (by simpa using hi)
    have hdist := hlink.tail_dist
    rw [List.getElem_append_left hi] at hdist
    obtain ⟨d,-,hd⟩ := Option.map_eq_some_iff.mp hdist
    exact ⟨(pre[i].1,d),Prod.ext rfl hd⟩
  have hrange : pre ∈ Set.range (List.map label) := by
    rw [Set.range_list_map]
    exact hmem
  exact hrange

/-- Walking the predecessors collects the path, as long as only its head is at the station the
loop looks for. -/
theorem assemblePath_of_links {s : PathStop} (stationA : Id) (pre : Path) (stop : PathStopDist)
    (path : Path) (fuel : ℕ) (hfuel : pre.length ≤ fuel)
    (h : ((pre ++ [stop]).map label).IsChain
      (Link (nw.moves stationB excludedStops) s st.labels rank))
    (hhead : ∀ e, (pre ++ [stop]).head? = some e → e.1.node = stationA)
    (htail : ∀ e ∈ (pre ++ [stop]).tail, e.1.node ≠ stationA) :
    st.assemblePath stationA fuel stop.1 path = some (pre ++ path) := by
  induction pre using List.reverseRecOn generalizing stop path fuel with
  | nil =>
    have hstop : stop.1.node = stationA := hhead stop rfl
    cases fuel <;> simp [SearchState.assemblePath,hstop]
  | append_singleton pre p ih =>
    cases fuel with
    | zero => simp at hfuel
    | succ fuel =>
      have hsplit : pre ++ [p] ++ [stop] = (pre ++ [p]) ++ [stop] := rfl
      have hne : stop.1.node ≠ stationA := by
        apply htail
        cases pre <;> simp
      have hlink : Link (nw.moves stationB excludedStops) s st.labels rank (label p) (label stop) := by
        rw [List.map_append,List.isChain_append] at h
        exact h.2.2 (label p) (by simp) (label stop) (by simp)
      have hprev : st.previousStop.find stop.1 = some p.1 := hlink.prev_eq
      have hdist : st.distFromA.find p.1 = some p.2 := by
        obtain ⟨d,hd,hnat⟩ := Option.map_eq_some_iff.mp hlink.tail_dist
        have hd' : st.distFromA.find p.1 = some d := hd
        rw [hd',UInt32.toNat_inj.mp hnat]
      have hrec := ih p (p::path) fuel (by simpa using hfuel)
        (by rw [List.map_append,List.isChain_append] at h; exact h.1)
        (by
          intro e he
          apply hhead
          rw [List.head?_append,he]; rfl)
        (by
          intro e he
          apply htail
          rw [List.tail_append_of_ne_nil (by simp)]
          exact List.mem_append_left _ he)
      simp only [SearchState.assemblePath,if_neg hne,hprev,hdist,Option.bind_eq_bind,
        Option.bind_some,hrec,List.append_assoc,List.singleton_append]

theorem getLast?_pathsToB (lib : StdLibrary) (dist : UnorderedMap PathStop UInt32) (stationB : Id) :
    let pathsToB := lib.sort ((lib.iterate dist.entries).filter fun e => e.1.node = stationB)
    (pathsToB.getLast? = none ∧ ∀ stop d, dist.find stop = some d → stop.node ≠ stationB) ∨
    ∃ e, pathsToB.getLast? = some e ∧ dist.find e.1 = some e.2 ∧ e.1.node = stationB ∧
      ∀ stop d, dist.find stop = some d → stop.node = stationB → e.2.toNat ≤ d.toNat := by
  intro pathsToB
  have hmem : ∀ e, e ∈ pathsToB ↔ dist.find e.1 = some e.2 ∧ e.1.node = stationB := by
    intro e
    rw [(lib.sort_perm _).mem_iff,List.mem_filter,(lib.iterate_perm _).mem_iff,
      UnorderedMap.find_eq_some_iff,decide_eq_true_eq]
  cases hlast : pathsToB.getLast? with
  | none =>
    left
    refine ⟨rfl,fun stop d hd hB => ?_⟩
    have he := (hmem (stop,d)).mpr ⟨hd,hB⟩
    rw [List.getLast?_eq_none_iff.mp hlast] at he
    simp at he
  | some e =>
    right
    have he := (hmem e).mp (List.mem_of_getLast? hlast)
    refine ⟨e,rfl,he.1,he.2,fun stop d hd hB => ?_⟩
    obtain ⟨front,hfront⟩ := List.getLast?_eq_some_iff.mp hlast
    have hsorted : pathsToB.Pairwise fun a b => b.2.toNat ≤ a.2.toNat := lib.sort_descending _
    have hin := (hmem (stop,d)).mpr ⟨hd,hB⟩
    rw [hfront] at hsorted hin
    rcases List.mem_append.mp hin with hin | hin
    · exact (List.pairwise_append.mp hsorted).2.2 _ hin e (by simp)
    · rw [← List.mem_singleton.mp hin]

theorem length_le_size_of_links {s : PathStop} {pre : Path} {stop : PathStopDist}
    (h : ((pre ++ [stop]).map label).IsChain
      (Link (nw.moves stationB excludedStops) s st.labels rank)) :
    pre.length ≤ st.distFromA.size := by
  have hrank : (((pre ++ [stop]).map label).map fun e => rank e.1).Pairwise (· < ·) := by
    rw [List.pairwise_map]
    have hlt : ((pre ++ [stop]).map label).IsChain fun a b => rank a.1 < rank b.1 :=
      h.imp fun _ _ hl => hl.rank_lt
    have htrans : IsTrans (PathStop × ℕ) fun a b => rank a.1 < rank b.1 :=
      ⟨fun _ _ _ hab hbc => lt_trans hab hbc⟩
    exact hlt.pairwise
  have hnodup : (pre.map Prod.fst).Nodup := by
    rw [List.map_map,List.map_append,List.pairwise_append,List.pairwise_map] at hrank
    rw [List.Nodup,List.pairwise_map]
    exact hrank.1.imp fun hab he => by simp [label,he] at hab
  have hfind : ∀ k ∈ pre.map Prod.fst, st.distFromA.find k ≠ none := by
    intro k hk
    obtain ⟨e,he,rfl⟩ := List.mem_map.mp hk
    obtain ⟨i,hi,rfl⟩ := List.getElem_of_mem he
    have hlink := List.isChain_iff_getElem.mp h i (by simpa using hi)
    have hdist := hlink.tail_dist
    simp only [List.getElem_map,List.getElem_append_left hi] at hdist
    obtain ⟨d,hd,-⟩ := Option.map_eq_some_iff.mp hdist
    rw [show (label pre[i]).1 = pre[i].1 from rfl] at hd
    simp [hd]
  simpa using UnorderedMap.length_le_size st.distFromA hnodup hfind

/-- The predecessors recorded by a search lead from a stop back to its start; the path is assembled if
it does not come back to the station of the start. -/
theorem exists_links {clock level : ℕ}
    (hinv : Invariant (nw.moves stationB excludedStops) stopA.1 stopA.2.toNat st.labels rank clock
      level noneOwed) {e : PathStopDist} (hfind : st.distFromA.find e.1 = some e.2) :
    ∃ pre, (pre ++ [e]).head? = some stopA ∧
      ((pre ++ [e]).map label).IsChain
        (Link (nw.moves stationB excludedStops) stopA.1 st.labels rank) ∧
      ((∀ a ∈ (pre ++ [e]).tail, a.1.node ≠ stopA.1.node) →
        st.assemblePath stopA.1.node st.distFromA.size e.1 [e] = some (pre ++ [e])) := by
  have hdist : st.labels.dist e.1 = some e.2.toNat := by simp [SearchState.labels,hfind]
  obtain ⟨links,hhead,hchain⟩ := hinv.path_to hdist
  obtain ⟨pre,rfl⟩ := exists_path_of_links hchain
  have hpath : pre.map label ++ [(e.1,e.2.toNat)] = (pre ++ [e]).map label := by
    simp [label]
  rw [hpath] at hchain hhead
  have hstart : (pre ++ [e]).head? = some stopA := by
    rw [List.head?_map] at hhead
    obtain ⟨a,ha,hla⟩ := Option.map_eq_some_iff.mp hhead
    rw [ha,label_injective hla]
  refine ⟨pre,hstart,hchain,fun htail => ?_⟩
  refine assemblePath_of_links stopA.1.node pre e [e] _ (length_le_size_of_links hchain) hchain
    ?_ htail
  intro a ha
  rw [hstart] at ha
  rw [Option.some.inj ha]

/-- Without a stop listed twice on a route, the path does not come back to any station. -/
theorem exists_assemblePath {clock level : ℕ} (hwf : nw.WellFormed)
    (hinv : Invariant (nw.moves stationB excludedStops) stopA.1 stopA.2.toNat st.labels rank clock
      level noneOwed) {e : PathStopDist} (hfind : st.distFromA.find e.1 = some e.2)
    (hB : e.1.node = stationB) :
    ∃ pre, st.assemblePath stopA.1.node st.distFromA.size e.1 [e] = some (pre ++ [e]) ∧
      (pre ++ [e]).head? = some stopA ∧
      ((pre ++ [e]).map label).IsChain (Advance (nw.moves stationB excludedStops)) ∧
      ((pre ++ [e]).map (·.1.node)).Nodup := by
  obtain ⟨pre,hstart,hchain,hassemble⟩ := exists_links hinv hfind
  have hloop : ((pre ++ [e]).map (·.1.node)).Nodup := by
    have h := nodup_stations_of_links hwf hchain (by
      intro last hl
      simp only [List.map_append,List.map_cons,List.map_nil,List.getLast?_concat,
        Option.some.injEq] at hl
      rw [← hl]; exact hB)
    simpa [List.map_map,Function.comp_def,label] using h
  refine ⟨pre,hassemble ?_,hstart,hchain.imp fun _ _ hl => hl.advance,hloop⟩
  intro a ha hnode
  obtain ⟨rest,hrest⟩ := List.head?_eq_some_iff.mp hstart
  rw [hrest] at ha hloop
  have hfresh := (List.nodup_cons.mp hloop).1
  exact hfresh (List.mem_map.mpr ⟨a,ha,hnode⟩)

/-- When the paths to the target are assembled, the search returns one of least time, or an empty one
if there is none. -/
theorem getFastestTravelRouteInternal_of_assembles {clock level : ℕ} (keeps : Path → Prop)
    (hne : stopA.1.node ≠ stationB)
    (hinv : Invariant (nw.moves stationB excludedStops) stopA.1 stopA.2.toNat
      (nw.search lib stopA stationB excludedStops).labels rank clock level noneOwed)
    (hassembles : ∀ e : PathStopDist,
      (nw.search lib stopA stationB excludedStops).distFromA.find e.1 = some e.2 →
      e.1.node = stationB → ∃ pre,
        (nw.search lib stopA stationB excludedStops).assemblePath stopA.1.node
          (nw.search lib stopA stationB excludedStops).distFromA.size e.1 [e] = some (pre ++ [e]) ∧
        (pre ++ [e]).head? = some stopA ∧
        ((pre ++ [e]).map label).IsChain (Advance (nw.moves stationB excludedStops)) ∧
        keeps (pre ++ [e])) :
    ∃ path, nw.getFastestTravelRouteInternal lib stopA stationB excludedStops = some path ∧
      ((path = [] ∧ ∀ b : PathStop × ℕ, b.1.node = stationB →
        ¬Relation.ReflTransGen (Advance (nw.moves stationB excludedStops)) (label stopA) b) ∨
      (IsShortest nw stopA stationB excludedStops path ∧ keeps path)) := by
  set st := nw.search lib stopA stationB excludedStops with hst
  have hempty : st.labels.queue = 0 := by
    have hdone : lib.stopQueue.elems st.nodesToVisit = 0 := search_done lib nw _ _ _
    simp [SearchState.labels,hdone]
  have hreach := fun (b : PathStop × ℕ) hb => hinv.optimal hempty (b:=b) hb
  have hlabel : ∀ stop n, st.labels.dist stop = some n →
      ∃ d, st.distFromA.find stop = some d ∧ d.toNat = n := fun stop n hn =>
    Option.map_eq_some_iff.mp hn
  unfold TransportNetwork.getFastestTravelRouteInternal
  rw [if_neg hne]
  simp only [← hst]
  rcases getLast?_pathsToB lib st.distFromA stationB with ⟨hnone,hall⟩ | ⟨e,hsome,hfind,hB,hleast⟩
  · rw [hnone]
    refine ⟨[],rfl,Or.inl ⟨rfl,fun b hb hwalk => ?_⟩⟩
    obtain ⟨n,hn,-⟩ := hreach b hwalk
    obtain ⟨d,hd,-⟩ := hlabel b.1 n hn
    exact hall b.1 d hd hb
  · rw [hsome]
    obtain ⟨pre,hassemble,hstart,hchain,hkeeps⟩ := hassembles e hfind hB
    refine ⟨pre ++ [e],hassemble,Or.inr ⟨⟨hstart,?_,hchain,?_⟩,hkeeps⟩⟩
    · intro last hl
      rw [List.getLast?_concat,Option.some.injEq] at hl
      rw [← hl]; exact hB
    · intro b hb hwalk
      obtain ⟨n,hn,hle⟩ := hreach b hwalk
      obtain ⟨d,hd,rfl⟩ := hlabel b.1 n hn
      have hmin := hleast b.1 d hd hb
      simpa [pathTime] using hmin.trans hle

/-- The search returns normally; its path is empty exactly when the target is out of reach, and
otherwise a fastest one. -/
theorem getFastestTravelRouteInternal_spec (hwf : nw.WellFormed) (hne : stopA.1.node ≠ stationB)
    (hfits : nw.searchFits lib stopA stationB excludedStops = true) :
    ∃ path, nw.getFastestTravelRouteInternal lib stopA stationB excludedStops = some path ∧
      ((path = [] ∧ ∀ b : PathStop × ℕ, b.1.node = stationB →
        ¬Relation.ReflTransGen (Advance (nw.moves stationB excludedStops)) (label stopA) b) ∨
      IsFastest nw stopA stationB excludedStops path) := by
  obtain ⟨rank,clock,level,hinv⟩ := search_invariant stopA hfits
  obtain ⟨path,hpath,hspec⟩ := getFastestTravelRouteInternal_of_assembles
    (fun path => (path.map (·.1.node)).Nodup) hne hinv
      fun e hfind hB => exists_assemblePath hwf hinv hfind hB
  refine ⟨path,hpath,hspec.imp_right ?_⟩
  rintro ⟨hshort,hloop⟩
  exact ⟨hshort.head,hshort.last,hshort.chain,hloop,hshort.optimal⟩

end QuietRoute
