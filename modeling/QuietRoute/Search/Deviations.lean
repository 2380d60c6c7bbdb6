import Mathlib.Data.Set.Insert
import Mathlib.Data.List.Basic
import Mathlib.Order.Nat

/-! Enumeration of walks by their deviations from the walks found before. A walk that is still
missing stays covered: some candidate is at most as dear, and keeps to it at least as long as
every walk found so far. -/
namespace Deviations

variable {α : Type*} {cost : List α → ℕ} {found queue queue' : Set (List α)}
  {last walk other : List α} {i j : ℕ}

/-- `other` keeps to the first `i` edges of `walk` and no further. -/
def PartsAt (i : ℕ) (walk other : List α) : Prop :=
  other.take i = walk.take i ∧ other[i]? ≠ walk[i]?

/-- No walk found so far shares the first `i+1` edges. -/
def LeftBy (i : ℕ) (found : Set (List α)) (walk : List α) : Prop :=
  ∀ other ∈ found, other.take (i+1) ≠ walk.take (i+1)

/-- A candidate that is no dearer shares as much of the walk as any walk found so far. -/
def Covered (cost : List α → ℕ) (found queue : Set (List α)) (walk : List α) : Prop :=
  ∃ i, LeftBy i found walk ∧
    ∃ candidate ∈ queue, candidate ∉ found ∧ candidate.take i = walk.take i ∧
      cost candidate ≤ cost walk

/-- The walk leaves `last` where no other walk found so far is with it. -/
def Due (found : Set (List α)) (last walk : List α) : Prop :=
  ∃ i, PartsAt i walk last ∧ LeftBy i found walk

theorem exists_partsAt (hne : other ≠ walk) : ∃ i, PartsAt i walk other := by
  have hdiffer : ∃ i : ℕ, other[i]? ≠ walk[i]? := by
    by_contra hall
    exact hne (List.ext_getElem? fun (i : ℕ) => not_not.mp fun hi => hall ⟨i,hi⟩)
  classical
  refine ⟨Nat.find hdiffer,?_,Nat.find_spec hdiffer⟩
  apply List.ext_getElem?
  intro k
  rw [List.getElem?_take,List.getElem?_take]
  by_cases hk : k < Nat.find hdiffer
  · rw [if_pos hk,if_pos hk]
    exact not_not.mp (Nat.find_min hdiffer hk)
  · rw [if_neg hk,if_neg hk]

theorem take_eq_of_le (hle : i ≤ j) (h : other.take j = walk.take j) :
    other.take i = walk.take i := by
  have htake := congrArg (List.take i) h
  rwa [List.take_take,List.take_take,Nat.min_eq_left hle] at htake

theorem getElem?_eq_of_take (hlt : i < j) (h : other.take j = walk.take j) :
    other[i]? = walk[i]? := by
  have hget := congrArg (·[i]?) h
  simpa [List.getElem?_take,hlt] using hget

theorem take_succ_eq_iff (h : other.take i = walk.take i) :
    other.take (i+1) = walk.take (i+1) ↔ other[i]? = walk[i]? := by
  constructor
  · exact getElem?_eq_of_take (Nat.lt_succ_self i)
  · intro hget
    rw [List.take_add_one,List.take_add_one,h,hget]

theorem drop_eq_cons {a : α} (h : walk[i]? = some a) : walk.drop i = a::walk.drop (i+1) := by
  obtain ⟨hlt,rfl⟩ := List.getElem?_eq_some_iff.mp h
  exact List.drop_eq_getElem_cons hlt

theorem PartsAt.le (h : PartsAt i walk other) (hj : other.take j = walk.take j) : j ≤ i := by
  by_contra hlt
  exact h.2 (getElem?_eq_of_take (not_le.mp hlt) hj)

theorem LeftBy.mono (h : LeftBy i found walk) (hle : i ≤ j) : LeftBy j found walk :=
  fun other hother hj => h other hother (take_eq_of_le (Nat.succ_le_succ hle) hj)

theorem LeftBy.found_insert (h : LeftBy i found walk) (hlast : last.take (i+1) ≠ walk.take (i+1)) :
    LeftBy i (insert last found) walk := by
  intro other hother
  cases hother with
  | inl heq => rw [heq]; exact hlast
  | inr hmem => exact h other hmem

theorem Covered.mono (h : Covered cost found queue walk) (hsub : queue ⊆ queue') :
    Covered cost found queue' walk := by
  obtain ⟨i,hleft,candidate,hmem,hrest⟩ := h
  exact ⟨i,hleft,candidate,hsub hmem,hrest⟩

/-- After a new walk is found, what is missing is covered as before or leaves the new walk. -/
theorem Covered.found_insert (h : Covered cost found queue walk) (hne : last ≠ walk)
    (hqueue : ∀ candidate ∈ queue, candidate ∉ found → candidate = last ∨ candidate ∈ queue') :
    Covered cost (insert last found) queue' walk ∨ Due (insert last found) last walk := by
  obtain ⟨i,hleft,candidate,hmem,hnew,htake,hcost⟩ := h
  obtain ⟨j,hparts⟩ := exists_partsAt hne
  have hdue : i ≤ j → Due (insert last found) last walk := fun hle =>
    ⟨j,hparts,(hleft.mono hle).found_insert fun htake => absurd (hparts.le htake) (by omega)⟩
  by_cases hlast : last.take (i+1) = walk.take (i+1)
  · exact Or.inr (hdue ((Nat.le_succ i).trans (hparts.le hlast)))
  · by_cases heq : candidate = last
    · exact Or.inr (hdue (hparts.le (heq ▸ htake)))
    · have hstay := (hqueue candidate hmem hnew).resolve_left heq
      have hnew' : candidate ∉ insert last found := fun h => h.elim heq hnew
      exact Or.inl ⟨i,hleft.found_insert hlast,candidate,hstay,hnew',htake,hcost⟩

end Deviations
