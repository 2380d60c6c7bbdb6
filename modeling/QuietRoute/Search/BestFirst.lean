import Mathlib.Data.Multiset.AddSub
import Mathlib.Data.List.Chain
import Mathlib.Logic.Function.Basic
import Mathlib.Logic.Relation

/-! Best-first search over a weighted graph, as a label-correcting loop: an improved node is
queued again and its stale entries stay in the queue. The graph is any relation
`step x y w`, "there is a move from `x` to `y` of weight `w`". -/
namespace QuietRoute
namespace BestFirst

variable {V : Type} (step : V → V → ℕ → Prop)

/-- One move, with the accumulated weight carried along. -/
def Advance (a b : V × ℕ) : Prop := ∃ w, step a.1 b.1 w ∧ b.2 = a.2+w

structure State (V : Type) where
  dist : V → Option ℕ
  prev : V → Option V
  queue : Multiset (V × ℕ)

/-- `b` got its final label from `a`. The last field says that ties are broken in favour of
the predecessor that was expanded first. -/
structure Link (s : V) (st : State V) (rank : V → ℕ) (a b : V × ℕ) : Prop where
  tail_dist : st.dist a.1 = some a.2
  head_dist : st.dist b.1 = some b.2
  ne_start : b.1 ≠ s
  prev_eq : st.prev b.1 = some a.1
  rank_lt : rank a.1 < rank b.1
  advance : Advance step a b
  strict : ∀ q dq w, st.dist q = some dq → dq < a.2 → step q b.1 w → b.2 < dq+w

/-- The loop invariant. `level` is the distance of the entry popped last, `rank` the time of a
node's last improvement, and `owed` the moves of the current node that are still to be relaxed. -/
structure Invariant (s : V) (d₀ : ℕ) (st : State V) (rank : V → ℕ) (clock level : ℕ)
    (owed : V → V → ℕ → Prop) : Prop where
  start : st.dist s = some d₀
  level_ge : d₀ ≤ level
  queued : ∀ x d, (x,d) ∈ st.queue → level ≤ d ∧ ∃ d', st.dist x = some d' ∧ d' ≤ d
  settled : ∀ x d, st.dist x = some d → (x,d) ∈ st.queue ∨ (d ≤ level ∧
    ∀ y w, step x y w → owed x y w ∨ ∃ d', st.dist y = some d' ∧ d' ≤ d+w)
  parent : ∀ x d, st.dist x = some d → x ≠ s →
    ∃ p dp, dp ≤ level ∧ Link step s st rank (p,dp) (x,d)
  ranked : ∀ x, st.dist x ≠ none → rank x < clock

/-- No move is owed between two iterations. -/
def noneOwed : V → V → ℕ → Prop := fun _ _ _ => False

variable {step} {s : V} {d₀ : ℕ} {st : State V} {rank : V → ℕ} {clock level : ℕ}
  {owed : V → V → ℕ → Prop}

def State.initial [DecidableEq V] (s : V) (d₀ : ℕ) : State V where
  dist := fun x => if x = s then some d₀ else none
  prev := fun _ => none
  queue := {(s,d₀)}

theorem invariant_initial [DecidableEq V] (s : V) (d₀ : ℕ) :
    Invariant step s d₀ (.initial s d₀) (fun _ => 0) 1 d₀ noneOwed where
  start := by simp [State.initial]
  level_ge := le_rfl
  queued := by
    intro x d h
    obtain ⟨rfl,rfl⟩ : x = s ∧ d = d₀ := by simpa [State.initial] using h
    exact ⟨le_rfl,d,by simp [State.initial],le_rfl⟩
  settled := by
    intro x d h
    left
    have hx : x = s := by by_contra hx; simp [State.initial,hx] at h
    simpa [State.initial,hx,eq_comm] using h
  parent := by
    intro x d h hx
    simp [State.initial,hx] at h
  ranked := fun _ _ => Nat.zero_lt_one

/-- Labels at or below the level are final: an entry of the queue that improves on nothing
was settled before. -/
theorem Invariant.settled_of_lt (h : Invariant step s d₀ st rank clock level owed) {x : V} {d : ℕ}
    (hx : st.dist x = some d) (hd : d < level) :
    ∀ y w, step x y w → owed x y w ∨ ∃ d', st.dist y = some d' ∧ d' ≤ d+w := by
  rcases h.settled x d hx with hq | ⟨_,hy⟩
  · have := (h.queued x d hq).1
    omega
  · exact hy

/-- Popping an entry whose label is current: its moves become owed. -/
theorem Invariant.pop_current (h : Invariant step s d₀ st rank clock level noneOwed)
    {x : V} {d : ℕ} {rest : Multiset (V × ℕ)} (hq : st.queue = (x,d) ::ₘ rest)
    (hmin : ∀ e ∈ st.queue, d ≤ e.2) (hx : st.dist x = some d) :
    Invariant step s d₀ {st with queue := rest} rank clock d (fun y _ _ => y = x) where
  start := h.start
  level_ge := h.level_ge.trans (h.queued x d (by simp [hq])).1
  queued := fun y e he =>
    ⟨hmin (y,e) (by simp [hq,he]),(h.queued y e (by simp [hq,he])).2⟩
  settled := by
    intro y e hy
    rcases h.settled y e hy with hm | ⟨hle,hm⟩
    · rw [hq] at hm
      rcases Multiset.mem_cons.mp hm with he | hm
      · obtain ⟨rfl,rfl⟩ := Prod.mk.inj he
        exact Or.inr ⟨le_rfl,fun _ _ _ => Or.inl rfl⟩
      · exact Or.inl hm
    · have hl := (h.queued x d (by simp [hq])).1
      exact Or.inr ⟨hle.trans hl,fun z w hz => Or.inr ((hm z w hz).resolve_left id)⟩
  parent := by
    intro y e hy hne
    obtain ⟨p,dp,hle,hl⟩ := h.parent y e hy hne
    exact ⟨p,dp,hle.trans (h.queued x d (by simp [hq])).1,
      hl.tail_dist,hl.head_dist,hl.ne_start,hl.prev_eq,hl.rank_lt,hl.advance,hl.strict⟩
  ranked := h.ranked

/-- Popping a stale entry: its node is settled, so that no relaxation will change anything. -/
theorem Invariant.pop_stale (h : Invariant step s d₀ st rank clock level noneOwed)
    {x : V} {d d' : ℕ} {rest : Multiset (V × ℕ)} (hq : st.queue = (x,d) ::ₘ rest)
    (hmin : ∀ e ∈ st.queue, d ≤ e.2) (hx : st.dist x = some d') (hd : d' < d) :
    Invariant step s d₀ {st with queue := rest} rank clock d noneOwed ∧
      ∀ y w, step x y w → ∃ dy, st.dist y = some dy ∧ dy ≤ d+w := by
  have hl := (h.queued x d (by simp [hq])).1
  constructor
  · refine ⟨h.start,h.level_ge.trans hl,?_,?_,?_,h.ranked⟩
    · intro y e he
      exact ⟨hmin (y,e) (by simp [hq,he]),(h.queued y e (by simp [hq,he])).2⟩
    · intro y e hy
      rcases h.settled y e hy with hm | ⟨hle,hm⟩
      · rw [hq] at hm
        rcases Multiset.mem_cons.mp hm with he | hm
        · obtain ⟨rfl,rfl⟩ := Prod.mk.inj he
          rw [hx] at hy
          have := Option.some.inj hy
          omega
        · exact Or.inl hm
      · exact Or.inr ⟨hle.trans hl,hm⟩
    · intro y e hy hne
      obtain ⟨p,dp,hle,hk⟩ := h.parent y e hy hne
      exact ⟨p,dp,hle.trans hl,
        hk.tail_dist,hk.head_dist,hk.ne_start,hk.prev_eq,hk.rank_lt,hk.advance,hk.strict⟩
  · intro y w hy
    rcases h.settled x d' hx with hm | ⟨_,hm⟩
    · have := hmin (x,d') hm
      simp only at this
      omega
    · obtain ⟨dy,hdy,hle⟩ := (hm y w hy).resolve_left id
      exact ⟨dy,hdy,by omega⟩

/-- The update made when a move reaches `y` with the smaller weight `d`. -/
def State.improve [DecidableEq V] (st : State V) (x y : V) (d : ℕ) : State V where
  dist := Function.update st.dist y (some d)
  prev := Function.update st.prev y (some x)
  queue := (y,d) ::ₘ st.queue

/-- A move that does not improve its target is paid off without any update. -/
theorem Invariant.relax_keep (h : Invariant step s d₀ st rank clock level owed)
    {owed' : V → V → ℕ → Prop} {x y : V} {d w dy : ℕ} (hx : st.dist x = some d)
    (hy : st.dist y = some dy) (hle : dy ≤ d+w)
    (howed : ∀ a b c, owed a b c → owed' a b c ∨ (a = x ∧ b = y ∧ c = w)) :
    Invariant step s d₀ st rank clock level owed' := by
  refine ⟨h.start,h.level_ge,h.queued,?_,h.parent,h.ranked⟩
  intro a e ha
  rcases h.settled a e ha with hm | ⟨hle',hm⟩
  · exact Or.inl hm
  · refine Or.inr ⟨hle',fun b c hb => ?_⟩
    rcases hm b c hb with ho | hd
    · rcases howed a b c ho with ho | ⟨rfl,rfl,rfl⟩
      · exact Or.inl ho
      · rw [hx] at ha
        obtain rfl := Option.some.inj ha
        exact Or.inr ⟨dy,hy,hle⟩
    · exact Or.inr hd

section

variable [DecidableEq V] {x y : V} {w : ℕ}

@[simp] theorem improve_dist_self (st : State V) (x y : V) (d : ℕ) :
    (st.improve x y d).dist y = some d := by simp [State.improve]

theorem improve_dist_of_ne {a : V} (st : State V) (x : V) (d : ℕ) (h : a ≠ y) :
    (st.improve x y d).dist a = st.dist a := by simp [State.improve,h]

@[simp] theorem improve_prev_self (st : State V) (x y : V) (d : ℕ) :
    (st.improve x y d).prev y = some x := by simp [State.improve]

theorem improve_prev_of_ne {a : V} (st : State V) (x : V) (d : ℕ) (h : a ≠ y) :
    (st.improve x y d).prev a = st.prev a := by simp [State.improve,h]

omit [DecidableEq V] in
theorem ne_of_le_level (hbetter : ∀ dy, st.dist y = some dy → level+w < dy) {a : V} {e : ℕ}
    (ha : st.dist a = some e) (he : e ≤ level) : a ≠ y := by
  rintro rfl
  have hlt := hbetter e ha
  omega

theorem dist_of_improve_lt {a : V} {e : ℕ} (ha : (st.improve x y (level+w)).dist a = some e)
    (he : e < level) : st.dist a = some e := by
  by_cases hay : a = y
  · rw [hay,improve_dist_self] at ha
    have heq := Option.some.inj ha
    omega
  · rwa [improve_dist_of_ne st x _ hay] at ha

theorem Invariant.improve_queued (h : Invariant step s d₀ st rank clock level owed)
    (hbetter : ∀ dy, st.dist y = some dy → level+w < dy) (a : V) (e : ℕ)
    (ha : (a,e) ∈ (st.improve x y (level+w)).queue) :
    level ≤ e ∧ ∃ d, (st.improve x y (level+w)).dist a = some d ∧ d ≤ e := by
  rcases Multiset.mem_cons.mp ha with he | ha
  · obtain ⟨rfl,rfl⟩ := Prod.mk.inj he
    exact ⟨Nat.le_add_right _ _,_,improve_dist_self st x _ _,le_rfl⟩
  · obtain ⟨hl,d,hd,hle⟩ := h.queued a e ha
    refine ⟨hl,?_⟩
    by_cases hay : a = y
    · subst a
      exact ⟨level+w,improve_dist_self st x y _,((hbetter d hd).le).trans hle⟩
    · exact ⟨d,(improve_dist_of_ne st x _ hay).trans hd,hle⟩

theorem reach_of_improve (hbetter : ∀ dy, st.dist y = some dy → level+w < dy) {b : V} {bound : ℕ}
    (hb : ∃ d, st.dist b = some d ∧ d ≤ bound) :
    ∃ d, (st.improve x y (level+w)).dist b = some d ∧ d ≤ bound := by
  obtain ⟨d,hd,hle⟩ := hb
  by_cases hby : b = y
  · subst b
    exact ⟨level+w,improve_dist_self st x y _,((hbetter d hd).le).trans hle⟩
  · exact ⟨d,(improve_dist_of_ne st x _ hby).trans hd,hle⟩

theorem Invariant.improve_settled (h : Invariant step s d₀ st rank clock level owed)
    {owed' : V → V → ℕ → Prop} (hx : st.dist x = some level)
    (hbetter : ∀ dy, st.dist y = some dy → level+w < dy)
    (howed : ∀ a b c, owed a b c → owed' a b c ∨ (a = x ∧ b = y ∧ c = w)) (a : V) (e : ℕ)
    (ha : (st.improve x y (level+w)).dist a = some e) :
    (a,e) ∈ (st.improve x y (level+w)).queue ∨ (e ≤ level ∧ ∀ b c, step a b c → owed' a b c ∨
      ∃ d, (st.improve x y (level+w)).dist b = some d ∧ d ≤ e+c) := by
  by_cases hay : a = y
  · subst a
    rw [improve_dist_self] at ha
    obtain rfl := Option.some.inj ha
    exact Or.inl (Multiset.mem_cons_self _ _)
  · rw [improve_dist_of_ne st x _ hay] at ha
    rcases h.settled a e ha with hm | ⟨hle,hm⟩
    · exact Or.inl (Multiset.mem_cons_of_mem hm)
    · refine Or.inr ⟨hle,?_⟩
      intro b c hb
      rcases hm b c hb with ho | hreach
      · rcases howed a b c ho with ho | ⟨rfl,rfl,rfl⟩
        · exact Or.inl ho
        · -- the move that is being relaxed
          rw [hx] at ha
          obtain rfl := Option.some.inj ha
          exact Or.inr ⟨_,improve_dist_self st a b _,le_rfl⟩
      · exact Or.inr (reach_of_improve hbetter hreach)

theorem Invariant.improve_link (h : Invariant step s d₀ st rank clock level owed)
    (hx : st.dist x = some level) (hstep : step x y w)
    (hbetter : ∀ dy, st.dist y = some dy → level+w < dy) (hcur : ∀ a b c, owed a b c → a = x)
    (hne : y ≠ s) :
    Link step s (st.improve x y (level+w)) (Function.update rank y clock) (x,level) (y,level+w) := by
  have hxy : x ≠ y := ne_of_le_level hbetter hx le_rfl
  refine ⟨(improve_dist_of_ne st x _ hxy).trans hx,improve_dist_self st x y _,hne,
    improve_prev_self st x y _,?_,⟨w,hstep,rfl⟩,?_⟩
  · simpa [hxy] using h.ranked x (by simp [hx])
  · -- an earlier node is settled, so that it has relaxed its own move to `y` already
    intro q dq c hq hlt hc
    have hq' := dist_of_improve_lt hq hlt
    rcases h.settled_of_lt hq' hlt y c hc with ho | ⟨d,hd,hle⟩
    · rw [hcur q y c ho,hx] at hq'
      have heq := Option.some.inj hq'
      simp only at hlt
      omega
    · have hlt' := hbetter d hd
      simp only
      omega

theorem Link.improve {p a : V × ℕ} (hl : Link step s st rank p a) (hp : p.2 ≤ level) (ha : a.1 ≠ y)
    (hbetter : ∀ dy, st.dist y = some dy → level+w < dy) :
    Link step s (st.improve x y (level+w)) (Function.update rank y clock) p a := by
  have hpy : p.1 ≠ y := ne_of_le_level hbetter hl.tail_dist hp
  refine ⟨(improve_dist_of_ne st x _ hpy).trans hl.tail_dist,
    (improve_dist_of_ne st x _ ha).trans hl.head_dist,hl.ne_start,
    (improve_prev_of_ne st x _ ha).trans hl.prev_eq,?_,hl.advance,?_⟩
  · simpa [hpy,ha] using hl.rank_lt
  · intro q dq c hq hlt hc
    exact hl.strict q dq c (dist_of_improve_lt hq (lt_of_lt_of_le hlt hp)) hlt hc

/-- A move of the current node that improves its target. -/
theorem Invariant.relax_improve (h : Invariant step s d₀ st rank clock level owed)
    {owed' : V → V → ℕ → Prop} (hx : st.dist x = some level) (hstep : step x y w)
    (hbetter : ∀ dy, st.dist y = some dy → level+w < dy) (hcur : ∀ a b c, owed a b c → a = x)
    (howed : ∀ a b c, owed a b c → owed' a b c ∨ (a = x ∧ b = y ∧ c = w)) :
    Invariant step s d₀ (st.improve x y (level+w)) (Function.update rank y clock) (clock+1)
      level owed' where
  start := (improve_dist_of_ne st x _ (ne_of_le_level hbetter h.start h.level_ge)).trans h.start
  level_ge := h.level_ge
  queued := h.improve_queued hbetter
  settled := h.improve_settled hx hbetter howed
  parent := by
    intro a e ha hne
    by_cases hay : a = y
    · subst a
      rw [improve_dist_self] at ha
      obtain rfl := Option.some.inj ha
      exact ⟨x,level,le_rfl,h.improve_link hx hstep hbetter hcur hne⟩
    · rw [improve_dist_of_ne st x _ hay] at ha
      obtain ⟨p,dp,hle,hl⟩ := h.parent a e ha hne
      exact ⟨p,dp,hle,hl.improve hle hay hbetter⟩
  ranked := by
    intro a ha
    by_cases hay : a = y
    · simp [hay]
    · rw [improve_dist_of_ne st x _ hay] at ha
      simpa [hay] using (h.ranked a ha).trans (Nat.lt_succ_self clock)

end

/-- Once the queue is empty, no walk is shorter than the label of its end. -/
theorem Invariant.optimal (h : Invariant step s d₀ st rank clock level noneOwed)
    (hq : st.queue = 0) {b : V × ℕ} (hb : Relation.ReflTransGen (Advance step) (s,d₀) b) :
    ∃ d, st.dist b.1 = some d ∧ d ≤ b.2 := by
  induction hb with
  | refl => exact ⟨d₀,h.start,le_rfl⟩
  | @tail a b _ hab ih =>
    obtain ⟨d,hd,hle⟩ := ih
    obtain ⟨w,hw,hbw⟩ := hab
    rcases h.settled a.1 d hd with hm | ⟨_,hm⟩
    · simp [hq] at hm
    · obtain ⟨d',hd',hle'⟩ := (hm b.1 w hw).resolve_left id
      exact ⟨d',hd',by omega⟩

/-- Following the predecessors from a labelled node leads back to the start. -/
theorem Invariant.path_to (h : Invariant step s d₀ st rank clock level owed) {x : V} {d : ℕ}
    (hx : st.dist x = some d) :
    ∃ path, (path ++ [(x,d)]).head? = some (s,d₀) ∧
      (path ++ [(x,d)]).IsChain (Link step s st rank) := by
  induction hr : rank x using Nat.strong_induction_on generalizing x d with
  | _ r ih =>
    by_cases hs : x = s
    · subst x
      rw [h.start] at hx
      obtain rfl := Option.some.inj hx
      exact ⟨[],rfl,by simp⟩
    · obtain ⟨p,dp,_,hl⟩ := h.parent x d hx hs
      obtain ⟨path,hhead,hchain⟩ := ih (rank p) (hr ▸ hl.rank_lt) hl.tail_dist rfl
      refine ⟨path ++ [(p,dp)],?_,?_⟩
      · rw [List.head?_append,hhead]; rfl
      · rw [List.isChain_append]
        refine ⟨hchain,by simp,?_⟩
        intro a ha b hb
        simp only [List.getLast?_concat,Option.mem_def,Option.some.injEq,List.head?_cons] at ha hb
        subst ha; subst hb
        exact hl

theorem Invariant.reachable (h : Invariant step s d₀ st rank clock level owed) {x : V} {d : ℕ}
    (hx : st.dist x = some d) : Relation.ReflTransGen (Advance step) (s,d₀) (x,d) := by
  obtain ⟨path,hhead,hchain⟩ := h.path_to hx
  obtain ⟨links,hlinks⟩ := List.head?_eq_some_iff.mp hhead
  rw [hlinks] at hchain
  refine List.relationReflTransGen_of_exists_isChain_cons links
    (hchain.imp fun _ _ hl => hl.advance) ?_
  simp only [← hlinks,List.getLast_concat]

/-- What every improvement from `x` at its label `level` keeps of the labels. -/
def KeptFrom [DecidableEq V] (step : V → V → ℕ → Prop) (s : V) (d₀ : ℕ) (x : V) (level : ℕ)
    (keeps : State V → Prop) : Prop :=
  ∀ st rank clock owed y w, Invariant step s d₀ st rank clock level owed →
    st.dist x = some level → step x y w → (∀ dy, st.dist y = some dy → level+w < dy) →
      (∀ a b c, owed a b c → a = x) → keeps st → keeps (st.improve x y (level+w))

theorem keptFrom_true [DecidableEq V] (s x : V) (d₀ level : ℕ) :
    KeptFrom step s d₀ x level fun _ => True := fun _ _ _ _ _ _ _ _ _ _ _ _ => trivial

/-! Which entries can be queued, and which nodes never become predecessors. -/

variable (step) in
/-- A move that is faster than all moves to the same node from the start and from nodes that are
reached before. -/
structure Pursues (s : V) (d₀ : ℕ) (a b : V × ℕ) : Prop where
  advance : Advance step a b
  start : ∀ b', a ≠ (s,d₀) → Advance step (s,d₀) b' → b'.1 = b.1 → b.2 < b'.2
  first : ∀ a' b', Relation.ReflTransGen (Advance step) (s,d₀) a' → a'.2 < a.2 →
    Advance step a' b' → b'.1 = b.1 → b.2 < b'.2

variable (step) in
/-- The entries that a search from `s` can queue: those that such moves lead to. -/
def Pursued (s : V) (d₀ : ℕ) (b : V × ℕ) : Prop :=
  Relation.ReflTransGen (Pursues step s d₀) (s,d₀) b

variable (step) in
/-- Every move from `p` can be made from `s` at no greater weight. -/
def Dominated (s p : V) : Prop := ∀ y w, step p y w → ∃ w', w' ≤ w ∧ step s y w'

variable (step) in
structure Pursuit (s : V) (d₀ : ℕ) (st : State V) : Prop where
  pursued : ∀ e ∈ st.queue, Pursued step s d₀ e
  apart : ∀ y p, st.prev y = some p → Dominated step s p → p = s

theorem pursuit_initial [DecidableEq V] (s : V) (d₀ : ℕ) : Pursuit step s d₀ (.initial s d₀) where
  pursued := by
    intro e he
    rw [Multiset.mem_singleton.mp he]
    exact .refl
  apart := by
    rintro y p ⟨⟩

theorem Pursuit.pop (h : Pursuit step s d₀ st) {e : V × ℕ} {rest : Multiset (V × ℕ)}
    (hq : st.queue = e ::ₘ rest) : Pursuit step s d₀ {st with queue := rest} where
  pursued := fun e' he => h.pursued e' (by rw [hq]; exact Multiset.mem_cons_of_mem he)
  apart := h.apart

theorem start_not_mem_rest {e : V × ℕ} {rest : Multiset (V × ℕ)} (hq : st.queue = e ::ₘ rest)
    (hstarted : (s,d₀) ∈ st.queue → st.queue = {(s,d₀)}) : (s,d₀) ∉ rest := by
  intro hmem
  have hsingle := hstarted (by rw [hq]; exact Multiset.mem_cons_of_mem hmem)
  rw [((Multiset.singleton_eq_cons_iff rest).mp (hsingle.symm.trans hq)).2] at hmem
  exact absurd hmem (Multiset.notMem_zero _)

/-- While the moves of `x` are relaxed, nodes reached with less weight have relaxed all of theirs. -/
theorem Invariant.relaxed_below (h : Invariant step s d₀ st rank clock level owed) {x q y : V}
    {d w : ℕ} (hx : st.dist x = some level) (hcur : ∀ a b c, owed a b c → a = x)
    (hq : st.dist q = some d) (hd : d < level) (hstep : step q y w) :
    ∃ d', st.dist y = some d' ∧ d' ≤ d+w := by
  refine (h.settled_of_lt hq hd y w hstep).resolve_left fun ho => ?_
  rw [hcur q y w ho,hx] at hq
  exact hd.ne (Option.some.inj hq).symm

/-- While the moves of another node are relaxed, the start has relaxed all of its own. -/
theorem Invariant.relaxed_start (h : Invariant step s d₀ st rank clock level owed) {x y : V} {w : ℕ}
    (hstarted : (s,d₀) ∉ st.queue) (hcur : ∀ a b c, owed a b c → a = x) (hxs : x ≠ s)
    (hstep : step s y w) : ∃ d', st.dist y = some d' ∧ d' ≤ d₀+w := by
  obtain ⟨-,hsettled⟩ := (h.settled s d₀ h.start).resolve_left hstarted
  exact (hsettled y w hstep).resolve_left fun ho => hxs (hcur s y w ho).symm

theorem Invariant.reached_below (h : Invariant step s d₀ st rank clock level owed) {x : V}
    (hx : st.dist x = some level) (hcur : ∀ a b c, owed a b c → a = x) {b : V × ℕ}
    (hb : Relation.ReflTransGen (Advance step) (s,d₀) b) (hlt : b.2 < level) :
    ∃ d, st.dist b.1 = some d ∧ d ≤ b.2 := by
  induction hb with
  | refl => exact ⟨d₀,h.start,le_rfl⟩
  | @tail a b _ hab ih =>
    obtain ⟨w,hw,hbw⟩ := hab
    obtain ⟨d,hd,hle⟩ := ih (by omega)
    obtain ⟨d',hd',hle'⟩ := h.relaxed_below hx hcur hd (by omega) hw
    exact ⟨d',hd',by omega⟩

section

variable [DecidableEq V] {x y : V} {w : ℕ}

omit [DecidableEq V] in
theorem Invariant.pursued_improve (h : Invariant step s d₀ st rank clock level owed)
    (hx : st.dist x = some level) (hpursued : Pursued step s d₀ (x,level)) (hstarted : (s,d₀) ∉ st.queue)
    (hstep : step x y w) (hbetter : ∀ dy, st.dist y = some dy → level+w < dy)
    (hcur : ∀ a b c, owed a b c → a = x) : Pursued step s d₀ (y,level+w) := by
  refine .tail hpursued ⟨⟨w,hstep,rfl⟩,?_,?_⟩
  · rintro b' hne ⟨w',hstep',htime⟩ rfl
    have hxs : x ≠ s := by
      rintro rfl
      rw [h.start] at hx
      exact hne (by rw [Option.some.inj hx])
    obtain ⟨dy,hdy,hle⟩ := h.relaxed_start hstarted hcur hxs hstep'
    have hlt := hbetter dy hdy
    simp only at htime ⊢
    omega
  · rintro a' b' hreach hlt ⟨w',hstep',htime⟩ rfl
    obtain ⟨d,hd,hle⟩ := h.reached_below hx hcur hreach hlt
    obtain ⟨dy,hdy,hle'⟩ := h.relaxed_below hx hcur hd (hle.trans_lt hlt) hstep'
    have hlt' := hbetter dy hdy
    simp only
    omega

theorem Invariant.eq_of_dominated (h : Invariant step s d₀ st rank clock level owed)
    (hstarted : (s,d₀) ∉ st.queue) (hstep : step x y w)
    (hbetter : ∀ dy, st.dist y = some dy → level+w < dy) (hcur : ∀ a b c, owed a b c → a = x)
    (hdominated : Dominated step s x) : x = s := by
  by_contra hne
  obtain ⟨w',hle,hstep'⟩ := hdominated y w hstep
  obtain ⟨d,hd,hle'⟩ := h.relaxed_start hstarted hcur hne hstep'
  have hlevel := h.level_ge
  have hlt := hbetter d hd
  omega

theorem Invariant.started_improve (h : Invariant step s d₀ st rank clock level owed)
    (hstarted : (s,d₀) ∉ st.queue) (hbetter : ∀ dy, st.dist y = some dy → level+w < dy) :
    (s,d₀) ∉ (st.improve x y (level+w)).queue := by
  intro hmem
  rcases Multiset.mem_cons.mp hmem with heq | hmem
  · exact ne_of_le_level hbetter h.start h.level_ge (Prod.mk.inj heq).1
  · exact hstarted hmem

theorem keptFrom_pursuit (hpursued : Pursued step s d₀ (x,level)) :
    KeptFrom step s d₀ x level fun st => Pursuit step s d₀ st ∧ (s,d₀) ∉ st.queue := by
  rintro st rank clock owed y w hinv hx hstep hbetter hcur ⟨h,hstarted⟩
  refine ⟨⟨?_,?_⟩,hinv.started_improve hstarted hbetter⟩
  · intro e he
    rcases Multiset.mem_cons.mp he with rfl | he
    · exact hinv.pursued_improve hx hpursued hstarted hstep hbetter hcur
    · exact h.pursued e he
  · intro a p hprev hdominated
    by_cases hay : a = y
    · rw [hay,improve_prev_self] at hprev
      rw [← Option.some.inj hprev] at hdominated ⊢
      exact hinv.eq_of_dominated hstarted hstep hbetter hcur hdominated
    · rw [improve_prev_of_ne st x _ hay] at hprev
      exact h.apart a p hprev hdominated

end

end BestFirst
end QuietRoute
