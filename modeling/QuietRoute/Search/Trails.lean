import QuietRoute.Search.BestFirst
import Mathlib.Tactic

/-! Which entries a best-first search queues when it may choose between entries of equal weight: every
pursued entry is queued by a search that prefers the entries on a direct way to it. -/
namespace QuietRoute
namespace BestFirst

variable {V C : Type} {step : V → V → ℕ → Prop} {s : V} {d₀ : ℕ}

variable (step s d₀) in
/-- A way from the start by such moves, none of which leads to a later entry than the next one. -/
structure Trail (entry : ℕ → V × ℕ) (length : ℕ) : Prop where
  start : entry 0 = (s,d₀)
  pursues : ∀ i < length, Pursues step s d₀ (entry i) (entry (i+1))
  direct : ∀ i j, i < j → j < length → ¬Pursues step s d₀ (entry i) (entry (j+1))

theorem Pursued.exists_entries {b : V × ℕ} (h : Pursued step s d₀ b) :
    ∃ (length : ℕ) (entry : ℕ → V × ℕ), entry 0 = (s,d₀) ∧ entry length = b ∧
      ∀ i < length, Pursues step s d₀ (entry i) (entry (i+1)) := by
  induction h with
  | refl => exact ⟨0,fun _ => (s,d₀),rfl,rfl,by omega⟩
  | @tail a b _ hab ih =>
    obtain ⟨n,entry,h₀,hn,hpursues⟩ := ih
    refine ⟨n+1,fun i => if i ≤ n then entry i else b,by simpa using h₀,by simp,?_⟩
    intro i hi
    rcases (Nat.lt_succ_iff.mp hi).eq_or_lt with rfl | hlt
    · simpa [hn] using hab
    · simpa [hlt.le,Nat.succ_le_of_lt hlt] using hpursues i hlt

/-- The shortest way to a pursued entry is direct. -/
theorem Pursued.exists_trail {a : V × ℕ} (h : Pursued step s d₀ a) :
    ∃ (length : ℕ) (entry : ℕ → V × ℕ), Trail step s d₀ entry length ∧ entry length = a := by
  classical
  have hways := h.exists_entries
  obtain ⟨entry,h₀,hn,hpursues⟩ := Nat.find_spec hways
  refine ⟨Nat.find hways,entry,⟨h₀,hpursues,?_⟩,hn⟩
  intro i j hij hj hskip
  -- leave out the entries after `i` up to `j`
  refine Nat.find_min hways (show Nat.find hways-(j-i) < Nat.find hways by omega)
    ⟨fun l => if l ≤ i then entry l else entry (l+(j-i)),by simpa using h₀,?_,?_⟩
  · have hend : ¬Nat.find hways-(j-i) ≤ i := by omega
    simp only [if_neg hend]
    rw [Nat.sub_add_cancel (by omega),hn]
  · intro l hl
    rcases lt_trichotomy l i with hlt | rfl | hgt
    · simpa only [if_pos hlt.le,if_pos (Nat.succ_le_of_lt hlt)] using hpursues l (by omega)
    · have hnext : l+1+(j-l) = j+1 := by omega
      simpa only [if_pos le_rfl,if_neg (Nat.not_succ_le_self l),hnext] using hskip
    · have hnext : l+1+(j-i) = l+(j-i)+1 := by omega
      simpa only [if_neg hgt.not_ge,if_neg (by omega : ¬l+1 ≤ i),hnext] using
        hpursues (l+(j-i)) (by omega)

variable (step s) in
/-- After a first move, moves of weight zero keep to the line of their node, which decides on the weight
of the next move. No move leads to the start. -/
structure Lined (line : V → C) : Prop where
  source : ∀ x w, ¬step x s w
  line_eq : ∀ p x y w, step p x w → step x y 0 → line x = line y
  weight_eq : ∀ x y z w w', line x = line y → step x z w → step y z w' → w = w'

section

variable {entry : ℕ → V × ℕ} {length : ℕ} {line : V → C}

theorem Trail.reachable (h : Trail step s d₀ entry length) {i : ℕ} (hi : i ≤ length) :
    Relation.ReflTransGen (Advance step) (s,d₀) (entry i) := by
  induction i with
  | zero => rw [h.start]
  | succ i ih => exact (ih (by omega)).tail (h.pursues i hi).advance

theorem Trail.weight_le (h : Trail step s d₀ entry length) {i j : ℕ} (hij : i ≤ j) (hj : j ≤ length) :
    (entry i).2 ≤ (entry j).2 := by
  induction j,hij using Nat.le_induction with
  | base => exact le_rfl
  | succ j hij ih =>
    obtain ⟨w,-,hw⟩ := (h.pursues j hj).advance
    exact (ih (by omega)).trans (by omega)

theorem Trail.ne_start (h : Trail step s d₀ entry length) (hline : Lined step s line) {i : ℕ}
    (hpos : 0 < i) (hi : i ≤ length) : (entry i).1 ≠ s := by
  intro heq
  obtain ⟨w,hstep,-⟩ := (h.pursues (i-1) (by omega)).advance
  rw [Nat.sub_add_cancel hpos,heq] at hstep
  exact hline.source _ _ hstep

theorem Trail.line_eq (h : Trail step s d₀ entry length) (hline : Lined step s line) {i j : ℕ}
    (hpos : 0 < i) (hij : i ≤ j) (hj : j ≤ length) (hweight : (entry j).2 = (entry i).2) :
    line (entry i).1 = line (entry j).1 := by
  induction j,hij using Nat.le_induction with
  | base => rfl
  | succ j hij ih =>
    obtain ⟨w,hstep,hw⟩ := (h.pursues j hj).advance
    obtain ⟨w',hprev,-⟩ := (h.pursues (j-1) (by omega)).advance
    rw [Nat.sub_add_cancel (by omega)] at hprev
    have hle := h.weight_le hij (by omega)
    obtain rfl : w = 0 := by omega
    rw [ih (by omega) (by omega)]
    exact hline.line_eq _ _ _ w' hprev hstep

/-- What is expanded before an entry of the trail reaches the next one later than the trail does. -/
theorem Trail.overtakes (h : Trail step s d₀ entry length) (hline : Lined step s line) {e : V × ℕ}
    {j w : ℕ} (hj : j < length) (he : Relation.ReflTransGen (Advance step) (s,d₀) e)
    (hle : e.2 ≤ (entry j).2) (htie : e.2 = (entry j).2 → ∃ l < j, entry l = e)
    (hstep : step e.1 (entry (j+1)).1 w) : (entry (j+1)).2 < e.2+w := by
  have hnext := h.pursues j hj
  have hadvance : Advance step e ((entry (j+1)).1,e.2+w) := ⟨w,hstep,rfl⟩
  rcases hle.lt_or_eq with hlt | heq
  · exact hnext.first e _ he hlt hadvance rfl
  · obtain ⟨l,hl,rfl⟩ := htie heq
    by_cases hzero : entry j = (s,d₀)
    · rw [hzero,← h.start] at hnext
      exact absurd hnext (h.direct 0 j (by omega) hj)
    · rcases Nat.eq_zero_or_pos l with rfl | hpos
      · rw [h.start] at hadvance ⊢
        exact hnext.start _ hzero hadvance rfl
      · -- on one line the two moves weigh the same, so that the trail has a detour
        obtain ⟨w',hstep',hw'⟩ := hnext.advance
        have hsame := hline.weight_eq _ _ _ _ _ (h.line_eq hline hpos hl.le hj.le heq.symm) hstep hstep'
        refine absurd ⟨⟨w,hstep,by omega⟩,?_,?_⟩ (h.direct l j hl hj)
        · intro b' _ hb' hnode
          exact hnext.start b' hzero hb' hnode
        · intro a' b' ha' hlt
          exact hnext.first a' b' ha' (by omega)

/-- From the `i`th entry on, the trail reaches every node before the search has. -/
def Ahead (entry : ℕ → V × ℕ) (length : ℕ) (st : State V) (i : ℕ) : Prop :=
  ∀ j, i ≤ j → j < length → ∀ d, st.dist (entry (j+1)).1 = some d → (entry (j+1)).2 < d

/-- An entry of the trail is queued, and it is ahead from there on. -/
structure Awaits (entry : ℕ → V × ℕ) (length : ℕ) (st : State V) (i : ℕ) : Prop where
  le : i ≤ length
  queued : entry i ∈ st.queue
  ahead : Ahead entry length st i

theorem Ahead.mono {st : State V} {i j : ℕ} (h : Ahead entry length st i) (hij : i ≤ j) :
    Ahead entry length st j := fun l hl => h l (hij.trans hl)

variable [DecidableEq V]

theorem Trail.awaits_initial (h : Trail step s d₀ entry length) (hline : Lined step s line) :
    Awaits entry length (.initial s d₀) 0 where
  le := Nat.zero_le _
  queued := by
    rw [h.start]
    exact Multiset.mem_singleton_self _
  ahead := by
    intro j _ hj d hd
    have hne := h.ne_start hline (Nat.succ_pos j) hj
    simp [State.initial,hne] at hd

/-- Improvements from entries that come before the trail, or from those that it has left behind, leave
it ahead. -/
theorem Trail.keptFrom_ahead (h : Trail step s d₀ entry length) (hline : Lined step s line) {x : V}
    {level i : ℕ} (hle : level ≤ (entry i).2)
    (htie : ∀ j, i ≤ j → j < length → level = (entry j).2 → ∃ l < j, entry l = (x,level)) :
    KeptFrom step s d₀ x level fun st => Ahead entry length st i := by
  intro st rank clock owed y w hinv hx hstep _ _ hahead j hij hj d hd
  by_cases hy : (entry (j+1)).1 = y
  · subst hy
    rw [improve_dist_self] at hd
    rw [← Option.some.inj hd]
    exact h.overtakes hline hj (hinv.reachable hx)
      (hle.trans (h.weight_le hij hj.le)) (htie j hij hj) hstep
  · rw [improve_dist_of_ne st x _ hy] at hd
    exact hahead j hij hj d hd

theorem Trail.keptFrom_awaits (h : Trail step s d₀ entry length) (hline : Lined step s line) {x : V}
    {level i : ℕ} (hle : level ≤ (entry i).2)
    (htie : ∀ j, i ≤ j → j < length → level = (entry j).2 → ∃ l < j, entry l = (x,level)) :
    KeptFrom step s d₀ x level fun st => Awaits entry length st i := by
  intro st rank clock owed y w hinv hx hstep hbetter hcur hawaits
  exact ⟨hawaits.le,Multiset.mem_cons_of_mem hawaits.queued,
    h.keptFrom_ahead hline hle htie st rank clock owed y w hinv hx hstep hbetter hcur hawaits.ahead⟩

/-- While an entry of the trail is expanded the next one gets queued. -/
def Passes (entry : ℕ → V × ℕ) (length : ℕ) (st : State V) (i : ℕ) : Prop :=
  st.dist (entry i).1 = some (entry i).2 ∧ Ahead entry length st (i+1) ∧
    (entry (i+1) ∈ st.queue ∨
      ∀ d, st.dist (entry (i+1)).1 = some d → (entry (i+1)).2 < d)

theorem Trail.keptFrom_passes (h : Trail step s d₀ entry length) (hline : Lined step s line) {i : ℕ}
    (hi : i < length) :
    KeptFrom step s d₀ (entry i).1 (entry i).2 fun st => Passes entry length st i := by
  rintro st rank clock owed y w hinv hx hstep hbetter hcur ⟨-,hahead,hnext⟩
  have hkept := h.keptFrom_ahead hline (h.weight_le (Nat.le_succ i) hi)
    fun j hij hj _ => ⟨i,hij,rfl⟩
  refine ⟨?_,hkept st rank clock owed y w hinv hx hstep hbetter hcur hahead,?_⟩
  · rwa [improve_dist_of_ne st _ _ (ne_of_le_level hbetter hx le_rfl)]
  · by_cases hy : (entry (i+1)).1 = y
    · subst hy
      obtain ⟨w',hstep',hw'⟩ := (h.pursues i hi).advance
      left
      rw [hline.weight_eq _ _ _ _ _ rfl hstep hstep',← hw']
      exact Multiset.mem_cons_self _ _
    · rw [improve_dist_of_ne st _ _ hy]
      exact hnext.imp_left Multiset.mem_cons_of_mem

omit [DecidableEq V] in
theorem Trail.awaits_of_passes (h : Trail step s d₀ entry length) {st : State V} {rank : V → ℕ}
    {clock level i : ℕ} (hinv : Invariant step s d₀ st rank clock level noneOwed) (hi : i < length)
    (hpasses : Passes entry length st i) : ∃ j, Awaits entry length st j := by
  obtain ⟨hdist,hahead,hnext | hlate⟩ := hpasses
  · exact ⟨i+1,hi,hnext,hahead⟩
  · rcases hinv.settled _ _ hdist with hqueued | ⟨-,hsettled⟩
    · refine ⟨i,hi.le,hqueued,fun j hij hj => ?_⟩
      rcases hij.eq_or_lt with rfl | hlt
      · exact hlate
      · exact hahead j hlt hj
    · obtain ⟨w,hstep,hw⟩ := (h.pursues i hi).advance
      obtain ⟨d,hd,hle⟩ := (hsettled _ w hstep).resolve_left id
      have hlt := hlate d hd
      omega

omit [DecidableEq V] in
theorem Trail.dist_eq (h : Trail step s d₀ entry length) {st : State V} {rank : V → ℕ}
    {clock level i : ℕ} (hinv : Invariant step s d₀ st rank clock level noneOwed) (hi : i < length)
    (hqueued : entry i ∈ st.queue) : st.dist (entry i).1 = some (entry i).2 := by
  obtain ⟨-,d,hd,hle⟩ := hinv.queued _ _ hqueued
  rcases hle.eq_or_lt with rfl | hlt
  · exact hd
  · obtain ⟨w,hstep,hw⟩ := (h.pursues i hi).advance
    have hlater := (h.pursues i hi).first ((entry i).1,d) ((entry (i+1)).1,d+w)
      (hinv.reachable hd) hlt ⟨w,hstep,rfl⟩ rfl
    simp only at hlater
    omega

end

end BestFirst
end QuietRoute
