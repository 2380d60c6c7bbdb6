import Mathlib.Data.Finset.Basic

/-! A registry and an observer that learns of its members by notices from a first-in first-out
queue. The observer may itself dismiss a member when a request of it arrives. -/
namespace DeferredRegistry

variable {ι : Type*} [DecidableEq ι]

inductive Notice (ι : Type*)
  | joined (i : ι)
  | requested (i : ι)
  | left (i : ι)
  | other

def Notice.apply (seen : Finset ι) : Notice ι → Finset ι
  | .joined i => insert i seen
  | .left i => seen.erase i
  | .requested _ | .other => seen

def replay (notices : List (Notice ι)) (seen : Finset ι) : Finset ι :=
  notices.foldl Notice.apply seen

@[simp] theorem replay_nil (seen : Finset ι) : replay [] seen = seen := rfl

theorem replay_cons (notice : Notice ι) (notices : List (Notice ι)) (seen : Finset ι) :
    replay (notice::notices) seen = replay notices (notice.apply seen) := rfl

theorem replay_concat (notices : List (Notice ι)) (notice : Notice ι) (seen : Finset ι) :
    replay (notices ++ [notice]) seen = notice.apply (replay notices seen) := by
  rw [replay,List.foldl_append]
  rfl

/-- A member that will not join again can be forgotten before the notices or after them. -/
theorem replay_erase {notices : List (Notice ι)} {i : ι} (h : .joined i ∉ notices)
    (seen : Finset ι) : replay notices (seen.erase i) = (replay notices seen).erase i := by
  induction notices generalizing seen with
  | nil => rfl
  | cons notice notices ih =>
    have hrest : .joined i ∉ notices := fun hmem => h (List.mem_cons_of_mem notice hmem)
    rw [replay_cons,replay_cons,← ih hrest]
    congr 1
    cases notice with
    | joined j =>
      have hne : i ≠ j := by
        intro heq
        exact h (heq ▸ List.mem_cons_self)
      exact (Finset.erase_insert_of_ne hne.symm).symm
    | left j => exact Finset.erase_right_comm
    | requested j => rfl
    | other => rfl

/-- The members, what the observer has seen of them, and the notices it has not read yet. -/
structure Registry (ι : Type*) where
  members : Finset ι
  seen : Finset ι
  notices : List (Notice ι)

inductive Registry.Step : Registry ι → Registry ι → Prop
  | stay (r : Registry ι) : Registry.Step r r
  | join (r : Registry ι) (i : ι) (h : .requested i ∉ r.notices) :
      Registry.Step r ⟨insert i r.members,r.seen,r.notices ++ [.joined i]⟩
  | request (r : Registry ι) (i : ι) : Registry.Step r {r with notices := r.notices ++ [.requested i]}
  | leave (r : Registry ι) (i : ι) : Registry.Step r ⟨r.members.erase i,r.seen,r.notices ++ [.left i]⟩
  | note (r : Registry ι) : Registry.Step r {r with notices := r.notices ++ [.other]}
  | read (r : Registry ι) (notice : Notice ι) (rest : List (Notice ι))
      (h : r.notices = notice::rest) : Registry.Step r ⟨r.members,notice.apply r.seen,rest⟩
  | dismiss (r : Registry ι) (i : ι) (rest : List (Notice ι)) (h : r.notices = .requested i::rest) :
      Registry.Step r ⟨r.members.erase i,r.seen.erase i,rest⟩

/-- Nobody joins after having made a request. -/
def Ordered (notices : List (Notice ι)) : Prop :=
  notices.Pairwise fun notice later => ∀ i, notice = .requested i → later ≠ .joined i

/-- The unread notices lead from what was seen to the members. -/
structure InSync (r : Registry ι) : Prop where
  replay_eq : replay r.notices r.seen = r.members
  ordered : Ordered r.notices

omit [DecidableEq ι] in
theorem Ordered.concat {notices : List (Notice ι)} (h : Ordered notices) {notice : Notice ι}
    (hnotice : ∀ i, notice = .joined i → .requested i ∉ notices) : Ordered (notices ++ [notice]) := by
  rw [Ordered,List.pairwise_append]
  refine ⟨h,List.pairwise_singleton _ _,?_⟩
  intro earlier hearlier later hlater i hi hjoin
  rw [List.mem_singleton] at hlater
  exact hnotice i (hlater ▸ hjoin) (hi ▸ hearlier)

theorem InSync.step {r r' : Registry ι} (h : InSync r) (hstep : Registry.Step r r') : InSync r' := by
  cases hstep with
  | stay => exact h
  | join i hfresh =>
    refine ⟨by rw [replay_concat,h.replay_eq]; rfl,h.ordered.concat ?_⟩
    intro j hj
    cases hj
    exact hfresh
  | request i =>
    exact ⟨by rw [replay_concat,h.replay_eq]; rfl,h.ordered.concat (by simp)⟩
  | leave i =>
    exact ⟨by rw [replay_concat,h.replay_eq]; rfl,h.ordered.concat (by simp)⟩
  | note =>
    exact ⟨by rw [replay_concat,h.replay_eq]; rfl,h.ordered.concat (by simp)⟩
  | read notice rest hqueue =>
    have hreplay := h.replay_eq
    have hordered := h.ordered
    rw [hqueue] at hreplay hordered
    exact ⟨hreplay,(List.pairwise_cons.mp hordered).2⟩
  | dismiss i rest hqueue =>
    have hreplay := h.replay_eq
    have hordered := h.ordered
    rw [hqueue] at hreplay hordered
    obtain ⟨hlater,hrest⟩ := List.pairwise_cons.mp hordered
    have hjoin : .joined i ∉ rest := fun hmem => hlater _ hmem i rfl rfl
    refine ⟨?_,hrest⟩
    rw [replay_erase hjoin,← hreplay,replay_cons]
    rfl

/-- An observer that has read all notices knows the members. -/
theorem InSync.seen_eq {r : Registry ι} (h : InSync r) (hempty : r.notices = []) :
    r.seen = r.members := by
  rw [← h.replay_eq,hempty,replay_nil]

end DeferredRegistry
