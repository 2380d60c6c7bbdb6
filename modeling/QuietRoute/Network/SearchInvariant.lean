import QuietRoute.Network.RouteSearch
import QuietRoute.Search.BestFirst
import Mathlib.Tactic

/-! The search refines best-first search over stops: as long as no accumulated time reaches
`2^32`, its maps and its queue are the labels of `BestFirst`. It ends for every network. -/
namespace QuietRoute

open BestFirst

/-- Weight of an edge taken from a stop, the change of route included. -/
def moveTime (stop : PathStop) (edge : GraphEdge) : ℕ :=
  edge.travelTime.toNat+(changePenalty stop.edge edge).toNat

theorem changePenalty_le (prev : Option GraphEdge) (edge : GraphEdge) :
    (changePenalty prev edge).toNat ≤ 5 := by
  cases prev with
  | none => simp [changePenalty]
  | some p => simp only [changePenalty]; split_ifs <;> simp

/-- The moves open to the search: not from the target station, and to no excluded stop. -/
def TransportNetwork.moves (nw : TransportNetwork) (stationB : Id) (excludedStops : List PathStop)
    (x y : PathStop) (w : ℕ) : Prop :=
  x.node ≠ stationB ∧ ∃ edge ∈ nw.edgesFrom x.node,
    y = edge.target ∧ y ∉ excludedStops ∧ w = moveTime x edge

def label (stop : PathStopDist) : PathStop × ℕ := (stop.1,stop.2.toNat)

theorem label_injective : Function.Injective label := by
  intro a b h
  have h₁ : a.1 = b.1 := congrArg (·.1) h
  have h₂ : a.2.toNat = b.2.toNat := congrArg (·.2) h
  exact Prod.ext h₁ (UInt32.toNat_inj.mp h₂)

def SearchState.labels {lib : StdLibrary} (st : SearchState lib) : State PathStop where
  dist := fun stop => (st.distFromA.find stop).map (·.toNat)
  prev := st.previousStop.find
  queue := (lib.stopQueue.elems st.nodesToVisit).map label

theorem labels_improve {lib : StdLibrary} (st : SearchState lib) (curr neighbor : PathStop)
    (d : UInt32) :
    (st.improve curr neighbor d).labels = st.labels.improve curr neighbor d.toNat := by
  have hdist : (st.improve curr neighbor d).labels.dist =
      Function.update st.labels.dist neighbor (some d.toNat) := by
    funext stop
    by_cases h : neighbor = stop
    · simp [SearchState.labels,SearchState.improve,h]
    · simp [SearchState.labels,SearchState.improve,UnorderedMap.find_set,h,Ne.symm h]
  have hprev : (st.improve curr neighbor d).labels.prev =
      Function.update st.labels.prev neighbor (some curr) := by
    funext stop
    by_cases h : neighbor = stop
    · simp [SearchState.labels,SearchState.improve,h]
    · simp [SearchState.labels,SearchState.improve,UnorderedMap.find_set,h,Ne.symm h]
  have hqueue : (st.improve curr neighbor d).labels.queue =
      (neighbor,d.toNat) ::ₘ st.labels.queue := by
    simp [SearchState.labels,SearchState.improve,lib.stopQueue.elems_push,label]
  unfold State.improve
  rw [← hdist,← hprev,← hqueue]

/-- The moves of `curr` along `edges` that are still to be relaxed. -/
def owedTo (curr : PathStop) (excludedStops : List PathStop) (edges : List GraphEdge)
    (x y : PathStop) (w : ℕ) : Prop :=
  x = curr ∧ ∃ edge ∈ edges, y = edge.target ∧ y ∉ excludedStops ∧ w = moveTime curr edge

/-- The time at a neighbor, before it is reduced modulo `2^32`. -/
def exactTime (curr : PathStopDist) (edge : GraphEdge) : ℕ := curr.2.toNat+moveTime curr.1 edge

theorem toNat_neighborDist {curr : PathStopDist} {edge : GraphEdge}
    (h : exactTime curr edge < 2^32) :
    (curr.2+edge.travelTime+changePenalty curr.1.edge edge).toNat = exactTime curr edge := by
  unfold exactTime moveTime at *
  rw [UInt32.toNat_add,UInt32.toNat_add,Nat.mod_add_mod,Nat.mod_eq_of_lt (by omega)]
  omega

theorem relax_excluded {lib : StdLibrary} {excludedStops : List PathStop} (curr : PathStopDist)
    (st : SearchState lib) {edge : GraphEdge} (h : edge.target ∈ excludedStops) :
    relax excludedStops curr.1 curr.2 st edge = st := by
  simp only [relax,if_pos h]

/-- What relaxing an edge does, in terms of exact times. -/
theorem relax_eq {lib : StdLibrary} {excludedStops : List PathStop} (curr : PathStopDist)
    (st : SearchState lib) {edge : GraphEdge} (h : edge.target ∉ excludedStops)
    (hfits : exactTime curr edge < 2^32) :
    ∃ d : UInt32, d.toNat = exactTime curr edge ∧
      (((∀ dy, st.labels.dist edge.target = some dy → exactTime curr edge < dy) ∧
        relax excludedStops curr.1 curr.2 st edge = st.improve curr.1 edge.target d) ∨
      ∃ dy, st.labels.dist edge.target = some dy ∧ dy ≤ exactTime curr edge ∧
        relax excludedStops curr.1 curr.2 st edge = st) := by
  have hd := toNat_neighborDist hfits
  refine ⟨_,hd,?_⟩
  simp only [relax,if_neg h]
  cases hfind : st.distFromA.find edge.target with
  | none =>
    left
    refine ⟨?_,rfl⟩
    intro dy hdy
    simp [SearchState.labels,hfind] at hdy
  | some dist =>
    have hdist : st.labels.dist edge.target = some dist.toNat := by
      simp [SearchState.labels,hfind]
    simp only [UInt32.lt_iff_toNat_lt,hd]
    by_cases hlt : exactTime curr edge < dist.toNat
    · left
      refine ⟨?_,by rw [if_pos hlt]⟩
      intro dy hdy
      rw [hdist] at hdy
      rwa [← Option.some.inj hdy]
    · right
      exact ⟨dist.toNat,hdist,by omega,by rw [if_neg hlt]⟩

section loop

variable {lib : StdLibrary} {nw : TransportNetwork} {stationB : Id} {excludedStops : List PathStop}
  {start : PathStop} {d₀ : ℕ} {st : SearchState lib} {rank : PathStop → ℕ} {clock level : ℕ}
  {keeps : State PathStop → Prop}

theorem owed_mono {owed owed' : PathStop → PathStop → ℕ → Prop} {ls : State PathStop}
    (h : Invariant (nw.moves stationB excludedStops) start d₀ ls rank clock level owed)
    (himp : ∀ x y w, nw.moves stationB excludedStops x y w → owed x y w → owed' x y w) :
    Invariant (nw.moves stationB excludedStops) start d₀ ls rank clock level owed' := by
  refine ⟨h.start,h.level_ge,h.queued,?_,h.parent,h.ranked⟩
  intro x d hx
  exact (h.settled x d hx).imp_right fun hs =>
    ⟨hs.1,fun y w hy => (hs.2 y w hy).imp_left (himp x y w hy)⟩

theorem relax_keeps {curr : PathStopDist} {edge : GraphEdge} {edges : List GraphEdge}
    (hkept : KeptFrom (nw.moves stationB excludedStops) start d₀ curr.1 curr.2.toNat keeps)
    (h : Invariant (nw.moves stationB excludedStops) start d₀ st.labels rank clock curr.2.toNat
      (owedTo curr.1 excludedStops (edge::edges)))
    (hcurr : st.labels.dist curr.1 = some curr.2.toNat) (hB : curr.1.node ≠ stationB)
    (hedge : edge ∈ nw.edgesFrom curr.1.node)
    (hfits : edge.target ∉ excludedStops → exactTime curr edge < 2^32) (hst : keeps st.labels) :
    ∃ rank' clock', Invariant (nw.moves stationB excludedStops) start d₀
      (relax excludedStops curr.1 curr.2 st edge).labels rank' clock' curr.2.toNat
      (owedTo curr.1 excludedStops edges) ∧
      (relax excludedStops curr.1 curr.2 st edge).labels.dist curr.1 = some curr.2.toNat ∧
      keeps (relax excludedStops curr.1 curr.2 st edge).labels := by
  by_cases hex : edge.target ∈ excludedStops
  · rw [relax_excluded curr st hex]
    refine ⟨rank,clock,owed_mono h ?_,hcurr,hst⟩
    rintro x y w - ⟨rfl,e,he,rfl,hy,hw⟩
    rcases List.mem_cons.mp he with rfl | he
    · exact absurd hex hy
    · exact ⟨rfl,e,he,rfl,hy,hw⟩
  · have howed : ∀ a b c, owedTo curr.1 excludedStops (edge::edges) a b c →
        owedTo curr.1 excludedStops edges a b c ∨
          (a = curr.1 ∧ b = edge.target ∧ c = moveTime curr.1 edge) := by
      rintro a b c ⟨rfl,e,he,rfl,hy,rfl⟩
      rcases List.mem_cons.mp he with rfl | he
      · exact Or.inr ⟨rfl,rfl,rfl⟩
      · exact Or.inl ⟨rfl,e,he,rfl,hy,rfl⟩
    obtain ⟨d,hd,⟨hbetter,heq⟩ | ⟨dy,hdy,hle,heq⟩⟩ := relax_eq curr st hex (hfits hex)
    · have hne : curr.1 ≠ edge.target := by
        intro he
        have := hbetter curr.2.toNat (he ▸ hcurr)
        unfold exactTime at this
        omega
      have hmove : nw.moves stationB excludedStops curr.1 edge.target (moveTime curr.1 edge) :=
        ⟨hB,edge,hedge,rfl,hex,rfl⟩
      have hcur : ∀ a b c, owedTo curr.1 excludedStops (edge::edges) a b c → a = curr.1 :=
        fun a b c ho => ho.1
      rw [heq,labels_improve,hd]
      refine ⟨_,_,h.relax_improve hcurr hmove hbetter hcur howed,?_,
        hkept _ _ _ _ _ _ h hcurr hmove hbetter hcur hst⟩
      simpa [State.improve,hne] using hcurr
    · rw [heq]
      exact ⟨rank,clock,h.relax_keep hcurr hdy hle howed,hcurr,hst⟩

theorem foldl_relax_keeps {curr : PathStopDist} {edges : List GraphEdge}
    (hkept : KeptFrom (nw.moves stationB excludedStops) start d₀ curr.1 curr.2.toNat keeps)
    (h : Invariant (nw.moves stationB excludedStops) start d₀ st.labels rank clock curr.2.toNat
      (owedTo curr.1 excludedStops edges))
    (hcurr : st.labels.dist curr.1 = some curr.2.toNat) (hB : curr.1.node ≠ stationB)
    (hedges : ∀ edge ∈ edges, edge ∈ nw.edgesFrom curr.1.node ∧
      (edge.target ∉ excludedStops → exactTime curr edge < 2^32)) (hst : keeps st.labels) :
    ∃ rank' clock', Invariant (nw.moves stationB excludedStops) start d₀
      (edges.foldl (relax excludedStops curr.1 curr.2) st).labels rank' clock' curr.2.toNat
      noneOwed ∧ keeps (edges.foldl (relax excludedStops curr.1 curr.2) st).labels := by
  induction edges generalizing st rank clock with
  | nil =>
    refine ⟨rank,clock,owed_mono h ?_,hst⟩
    rintro x y w - ⟨-,e,he,-⟩
    simp at he
  | cons edge edges ih =>
    have hedge := hedges edge (by simp)
    obtain ⟨rank',clock',h',hcurr',hst'⟩ := relax_keeps hkept h hcurr hB hedge.1 hedge.2 hst
    exact ih h' hcurr' (fun e he => hedges e (List.mem_cons_of_mem edge he)) hst'

theorem foldl_relax_settled {curr : PathStopDist} {edges : List GraphEdge}
    (h : ∀ edge ∈ edges, edge.target ∉ excludedStops → exactTime curr edge < 2^32 ∧
      ∃ dy, st.labels.dist edge.target = some dy ∧ dy ≤ exactTime curr edge) :
    edges.foldl (relax excludedStops curr.1 curr.2) st = st := by
  induction edges with
  | nil => rfl
  | cons edge edges ih =>
    have hkeep : relax excludedStops curr.1 curr.2 st edge = st := by
      by_cases hex : edge.target ∈ excludedStops
      · exact relax_excluded curr st hex
      · obtain ⟨hfits,dy,hdy,hle⟩ := h edge (by simp) hex
        obtain ⟨d,-,⟨hbetter,-⟩ | ⟨-,-,-,heq⟩⟩ := relax_eq curr st hex hfits
        · have := hbetter dy hdy
          omega
        · exact heq
    rw [List.foldl_cons,hkeep]
    exact ih fun e he => h e (List.mem_cons_of_mem edge he)

def TransportNetwork.visitFits (nw : TransportNetwork) (stationB : Id)
    (excludedStops : List PathStop) (curr : PathStopDist) : Bool :=
  curr.1.node = stationB || (nw.edgesFrom curr.1.node).all fun edge =>
    edge.target ∈ excludedStops || exactTime curr edge < 2^32

def TransportNetwork.loopFits (lib : StdLibrary) (nw : TransportNetwork) (stationB : Id)
    (excludedStops : List PathStop) : ℕ → SearchState lib → Bool
  | 0, _ => true
  | fuel+1, st =>
    match lib.stopQueue.pop st.nodesToVisit with
    | none => true
    | some (curr,rest) => nw.visitFits stationB excludedStops curr &&
        nw.loopFits lib stationB excludedStops fuel
          (nw.visit lib stationB excludedStops curr {st with nodesToVisit := rest})

/-- No time accumulated by the search reaches `2^32`. -/
def TransportNetwork.searchFits (lib : StdLibrary) (nw : TransportNetwork) (stopA : PathStopDist)
    (stationB : Id) (excludedStops : List PathStop) : Bool :=
  nw.loopFits lib stationB excludedStops nw.searchFuel (initialSearch lib stopA)

theorem visitFits_iff {curr : PathStopDist} :
    nw.visitFits stationB excludedStops curr = true ↔ (curr.1.node ≠ stationB →
      ∀ edge ∈ nw.edgesFrom curr.1.node, edge.target ∉ excludedStops →
        exactTime curr edge < 2^32) := by
  simp only [TransportNetwork.visitFits,Bool.or_eq_true,decide_eq_true_eq,List.all_eq_true]
  constructor
  · intro h hB edge he hex
    exact ((h.resolve_left hB) edge he).resolve_left hex
  · intro h
    by_cases hB : curr.1.node = stationB
    · exact Or.inl hB
    · refine Or.inr fun edge he => ?_
      by_cases hex : edge.target ∈ excludedStops
      · exact Or.inl hex
      · exact Or.inr (h hB edge he hex)

theorem queue_of_pop {curr : PathStopDist} {rest : lib.stopQueue.Queue}
    (hpop : lib.stopQueue.pop st.nodesToVisit = some (curr,rest)) : st.labels.queue =
      label curr ::ₘ ({st with nodesToVisit := rest} : SearchState lib).labels.queue := by
  simp [SearchState.labels,lib.stopQueue.pop_some _ _ _ hpop]

theorem exists_of_mem_queue {e : PathStop × ℕ} (he : e ∈ st.labels.queue) :
    ∃ stop ∈ lib.stopQueue.elems st.nodesToVisit, label stop = e := Multiset.mem_map.mp he

theorem le_of_pop {curr : PathStopDist} {rest : lib.stopQueue.Queue}
    (hpop : lib.stopQueue.pop st.nodesToVisit = some (curr,rest)) :
    ∀ e ∈ st.labels.queue, curr.2.toNat ≤ e.2 := by
  intro e he
  obtain ⟨b,hb,rfl⟩ := exists_of_mem_queue he
  exact not_lt.mp (lib.stopQueue.pop_first _ _ _ hpop b hb)

/-- One iteration keeps the invariant, for a current and for a stale entry, and whatever the
improvements from a current entry keep. -/
theorem visit_keeps {curr : PathStopDist} {rest : lib.stopQueue.Queue}
    (hkept : KeptFrom (nw.moves stationB excludedStops) start d₀ curr.1 curr.2.toNat keeps)
    (h : Invariant (nw.moves stationB excludedStops) start d₀ st.labels rank clock level noneOwed)
    (hpop : lib.stopQueue.pop st.nodesToVisit = some (curr,rest))
    (hfits : nw.visitFits stationB excludedStops curr = true)
    (hrest : keeps ({st with nodesToVisit := rest} : SearchState lib).labels) :
    ∃ rank' clock' level', Invariant (nw.moves stationB excludedStops) start d₀
      (nw.visit lib stationB excludedStops curr {st with nodesToVisit := rest}).labels
      rank' clock' level' noneOwed ∧
      keeps (nw.visit lib stationB excludedStops curr {st with nodesToVisit := rest}).labels := by
  have hqueue := queue_of_pop hpop
  have hmin := le_of_pop hpop
  have hpopped : {st.labels with
      queue := ({st with nodesToVisit := rest} : SearchState lib).labels.queue} =
      ({st with nodesToVisit := rest} : SearchState lib).labels := rfl
  obtain ⟨d',hd',hle⟩ := (h.queued curr.1 curr.2.toNat (by simp [hqueue,label])).2
  rcases hle.eq_or_lt with rfl | hlt
  · have hinv := h.pop_current hqueue hmin hd'
    rw [hpopped] at hinv
    unfold TransportNetwork.visit
    split_ifs with hB
    · refine ⟨rank,clock,_,owed_mono hinv ?_,hrest⟩
      rintro x y w ⟨hx,-⟩ rfl
      exact absurd hB hx
    · have howed : Invariant (nw.moves stationB excludedStops) start d₀
          ({st with nodesToVisit := rest} : SearchState lib).labels rank clock curr.2.toNat
          (owedTo curr.1 excludedStops (nw.edgesFrom curr.1.node)) := by
        refine owed_mono hinv ?_
        rintro x y w ⟨-,e,he,hy,hex,hw⟩ rfl
        exact ⟨rfl,e,he,hy,hex,hw⟩
      have hfold := foldl_relax_keeps hkept howed hd' hB
        (fun e he => ⟨he,visitFits_iff.mp hfits hB e he⟩) hrest
      exact hfold.imp fun rank' hr => hr.imp fun clock' hc => ⟨_,hc⟩
  · obtain ⟨hinv,hsettled⟩ := h.pop_stale hqueue hmin hd' hlt
    rw [hpopped] at hinv
    refine ⟨rank,clock,curr.2.toNat,?_⟩
    unfold TransportNetwork.visit
    split_ifs with hB
    · exact ⟨hinv,hrest⟩
    · rw [foldl_relax_settled]
      · exact ⟨hinv,hrest⟩
      · intro e he hex
        refine ⟨visitFits_iff.mp hfits hB e he hex,?_⟩
        exact hsettled e.target (moveTime curr.1 e) ⟨hB,e,he,rfl,hex,rfl⟩

theorem searchLoop_invariant (fuel : ℕ)
    (h : Invariant (nw.moves stationB excludedStops) start d₀ st.labels rank clock level noneOwed)
    (hfits : nw.loopFits lib stationB excludedStops fuel st = true) :
    ∃ rank' clock' level', Invariant (nw.moves stationB excludedStops) start d₀
      (nw.searchLoop lib stationB excludedStops fuel st).labels rank' clock' level' noneOwed := by
  induction fuel generalizing st rank clock level with
  | zero => exact ⟨rank,clock,level,h⟩
  | succ fuel ih =>
    simp only [TransportNetwork.searchLoop,TransportNetwork.loopFits] at *
    cases hpop : lib.stopQueue.pop st.nodesToVisit with
    | none => exact ⟨rank,clock,level,h⟩
    | some e =>
      simp only [hpop,Bool.and_eq_true] at hfits
      obtain ⟨rank',clock',level',h',-⟩ :=
        visit_keeps (keptFrom_true start e.1.1 d₀ e.1.2.toNat) h hpop hfits.1 trivial
      exact ih h' hfits.2

theorem labels_initial (stopA : PathStopDist) :
    (initialSearch lib stopA).labels = .initial stopA.1 stopA.2.toNat := by
  have hdist : (initialSearch lib stopA).labels.dist =
      (State.initial stopA.1 stopA.2.toNat).dist := by
    funext stop
    by_cases h : stopA.1 = stop
    · simp [SearchState.labels,initialSearch,State.initial,UnorderedMap.find_set,h]
    · simp [SearchState.labels,initialSearch,State.initial,UnorderedMap.find_set,h,Ne.symm h]
  have hqueue : (initialSearch lib stopA).labels.queue =
      (State.initial stopA.1 stopA.2.toNat).queue := by
    simp [SearchState.labels,initialSearch,State.initial,lib.stopQueue.elems_push,
      lib.stopQueue.elems_empty,label]
  calc (initialSearch lib stopA).labels
      = ⟨(initialSearch lib stopA).labels.dist,fun _ => none,
          (initialSearch lib stopA).labels.queue⟩ := rfl
    _ = _ := by rw [hdist,hqueue]; rfl

theorem invariant_initialSearch (stopA : PathStopDist) :
    Invariant (nw.moves stationB excludedStops) stopA.1 stopA.2.toNat
      (initialSearch lib stopA).labels (fun _ => 0) 1 stopA.2.toNat noneOwed := by
  rw [labels_initial]
  exact invariant_initial _ _

theorem search_invariant (stopA : PathStopDist)
    (hfits : nw.searchFits lib stopA stationB excludedStops = true) :
    ∃ rank clock level, Invariant (nw.moves stationB excludedStops) stopA.1 stopA.2.toNat
      (nw.search lib stopA stationB excludedStops).labels rank clock level noneOwed :=
  searchLoop_invariant nw.searchFuel (invariant_initialSearch stopA) hfits

/-! The search ends for every network, also when times wrap around: a push lowers the recorded
32-bit time of its stop. -/

def SearchState.slack (st : SearchState lib) (stop : PathStop) : ℕ :=
  ((st.distFromA.find stop).map (·.toNat)).getD (2^32)

def TransportNetwork.targets (nw : TransportNetwork) : List PathStop :=
  nw.stations.entries.flatMap fun e => e.2.edges.map GraphEdge.target

/-- An upper bound for the number of iterations left. -/
def TransportNetwork.pending (nw : TransportNetwork) (st : SearchState lib) : ℕ :=
  (lib.stopQueue.elems st.nodesToVisit).card+(nw.targets.map st.slack).sum

theorem length_targets (nw : TransportNetwork) : nw.targets.length = nw.edgeCount := by
  simp [TransportNetwork.targets,TransportNetwork.edgeCount,List.length_flatMap]

theorem target_mem_targets {S : Id} {edge : GraphEdge} (h : edge ∈ nw.edgesFrom S) :
    edge.target ∈ nw.targets := by
  cases hS : nw.getStation S with
  | none => simp [TransportNetwork.edgesFrom,hS] at h
  | some node =>
    have hnode : (S,node) ∈ nw.stations.entries := (UnorderedMap.find_eq_some_iff _).mp hS
    have hedge : edge ∈ node.edges := by simpa [TransportNetwork.edgesFrom,hS] using h
    exact List.mem_flatMap.mpr ⟨_,hnode,List.mem_map_of_mem hedge⟩

theorem slack_le (st : SearchState lib) (stop : PathStop) : st.slack stop ≤ 2^32 := by
  unfold SearchState.slack
  cases st.distFromA.find stop with
  | none => simp
  | some d => simpa using d.toNat_lt.le

theorem pending_improve {curr neighbor : PathStop} {d : UInt32} (h : neighbor ∈ nw.targets)
    (hlt : d.toNat < st.slack neighbor) : nw.pending (st.improve curr neighbor d) ≤ nw.pending st := by
  have hcard : (lib.stopQueue.elems (st.improve curr neighbor d).nodesToVisit).card =
      (lib.stopQueue.elems st.nodesToVisit).card+1 := by
    simp [SearchState.improve,lib.stopQueue.elems_push]
  have hself : (st.improve curr neighbor d).slack neighbor = d.toNat := by
    simp [SearchState.slack,SearchState.improve]
  have hsum : (nw.targets.map (st.improve curr neighbor d).slack).sum <
      (nw.targets.map st.slack).sum := by
    apply List.sum_lt_sum
    · intro stop _
      by_cases he : neighbor = stop
      · rw [← he,hself]; exact hlt.le
      · simp [SearchState.slack,SearchState.improve,UnorderedMap.find_set,he]
    · exact ⟨neighbor,h,by rw [hself]; exact hlt⟩
  unfold TransportNetwork.pending
  omega

theorem pending_relax {curr : PathStop} {d : UInt32} {edge : GraphEdge}
    (h : edge.target ∈ nw.targets) :
    nw.pending (relax excludedStops curr d st edge) ≤ nw.pending st := by
  simp only [relax]
  split_ifs
  · exact le_rfl
  · split
    · rename_i hnone
      refine pending_improve h ?_
      rw [SearchState.slack,hnone]
      exact UInt32.toNat_lt _
    · rename_i dist hsome
      split_ifs with hlt
      · refine pending_improve h ?_
        simpa [SearchState.slack,hsome] using UInt32.lt_iff_toNat_lt.mp hlt
      · exact le_rfl

theorem pending_visit (curr : PathStopDist) (st : SearchState lib) :
    nw.pending (nw.visit lib stationB excludedStops curr st) ≤ nw.pending st := by
  have hfold : ∀ edges : List GraphEdge, (∀ e ∈ edges, e ∈ nw.edgesFrom curr.1.node) →
      ∀ st : SearchState lib,
      nw.pending (edges.foldl (relax excludedStops curr.1 curr.2) st) ≤ nw.pending st := by
    intro edges
    induction edges with
    | nil => exact fun _ _ => le_rfl
    | cons e edges ih =>
      intro hmem st
      have hrest := ih (fun e' he' => hmem e' (List.mem_cons_of_mem e he'))
        (relax excludedStops curr.1 curr.2 st e)
      exact hrest.trans (pending_relax (target_mem_targets (hmem e (by simp))))
  unfold TransportNetwork.visit
  split_ifs
  · exact le_rfl
  · exact hfold _ (fun _ he => he) st

theorem searchLoop_done (fuel : ℕ) (st : SearchState lib) (h : nw.pending st ≤ fuel) :
    lib.stopQueue.elems (nw.searchLoop lib stationB excludedStops fuel st).nodesToVisit = 0 := by
  induction fuel generalizing st with
  | zero =>
    have hcard : (lib.stopQueue.elems st.nodesToVisit).card = 0 := by
      unfold TransportNetwork.pending at h
      omega
    exact Multiset.card_eq_zero.mp hcard
  | succ fuel ih =>
    simp only [TransportNetwork.searchLoop]
    cases hpop : lib.stopQueue.pop st.nodesToVisit with
    | none => exact lib.stopQueue.pop_none _ hpop
    | some e =>
      refine ih _ ((pending_visit e.1 _).trans ?_)
      have helems := lib.stopQueue.pop_some _ _ _ hpop
      have hpending : nw.pending st = nw.pending {st with nodesToVisit := e.2}+1 := by
        have hslack : SearchState.slack {st with nodesToVisit := e.2} = st.slack := rfl
        unfold TransportNetwork.pending
        rw [helems,Multiset.card_cons,hslack]
        exact Nat.add_right_comm _ _ _
      omega

/-- The bound on the iterations is never reached. -/
theorem search_done (lib : StdLibrary) (nw : TransportNetwork) (stopA : PathStopDist)
    (stationB : Id) (excludedStops : List PathStop) :
    lib.stopQueue.elems (nw.search lib stopA stationB excludedStops).nodesToVisit = 0 := by
  refine searchLoop_done _ _ ?_
  have hcard : (lib.stopQueue.elems (initialSearch lib stopA).nodesToVisit).card = 1 := by
    simp [initialSearch,lib.stopQueue.elems_push,lib.stopQueue.elems_empty]
  have hsum : (nw.targets.map (initialSearch lib stopA).slack).sum ≤ nw.targets.length*2^32 := by
    have h := List.sum_le_card_nsmul (nw.targets.map (initialSearch lib stopA).slack) (2^32) (by
      intro n hn
      obtain ⟨stop,-,rfl⟩ := List.mem_map.mp hn
      exact slack_le _ stop)
    simpa using h
  unfold TransportNetwork.pending TransportNetwork.searchFuel
  rw [length_targets] at hsum
  omega

end loop

end QuietRoute
