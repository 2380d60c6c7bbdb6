import Mathlib.Data.Multiset.AddSub
import Mathlib.Data.Multiset.Filter

/-! The documented contract of a priority queue, for any implementation of it. Which of
several equally good elements is on top is left open. -/
namespace QuietRoute

/-- `before a b` says that `a` has to leave the queue before `b`. -/
structure PriorityQueue (α : Type) (before : α → α → Prop) where
  Queue : Type
  empty : Queue
  push : α → Queue → Queue
  /-- `top()` followed by `pop()`. -/
  pop : Queue → Option (α × Queue)
  elems : Queue → Multiset α
  elems_empty : elems empty = 0
  elems_push : ∀ a q, elems (push a q) = a ::ₘ elems q
  pop_none : ∀ q, pop q = none → elems q = 0
  pop_some : ∀ q a q', pop q = some (a,q') → elems q = a ::ₘ elems q'
  pop_first : ∀ q a q', pop q = some (a,q') → ∀ b ∈ elems q, ¬before b a

namespace PriorityQueue

variable {α : Type} {before : α → α → Prop}

def extract (key : α → ℕ) : List α → Option (α × List α)
  | [] => none
  | a::as =>
    match extract key as with
    | none => some (a,[])
    | some (b,bs) => if key b < key a then some (b,a::bs) else some (a,as)

theorem extract_eq_none {key : α → ℕ} {as : List α} (h : extract key as = none) : as = [] := by
  cases as with
  | nil => rfl
  | cons a as =>
    simp only [extract] at h
    split at h
    · simp at h
    · split_ifs at h

theorem extract_perm {key : α → ℕ} {as : List α} {a : α} {rest : List α}
    (h : extract key as = some (a,rest)) : as.Perm (a::rest) := by
  induction as generalizing a rest with
  | nil => simp [extract] at h
  | cons b as ih =>
    simp only [extract] at h
    split at h
    · rename_i hnone
      obtain ⟨rfl,rfl⟩ := Prod.mk.inj (Option.some.inj h)
      rw [extract_eq_none hnone]
    · rename_i c cs hsome
      split_ifs at h
      · obtain ⟨rfl,rfl⟩ := Prod.mk.inj (Option.some.inj h)
        exact ((ih hsome).cons b).trans (List.Perm.swap _ _ _)
      · obtain ⟨rfl,rfl⟩ := Prod.mk.inj (Option.some.inj h)
        exact List.Perm.refl _

theorem extract_least {key : α → ℕ} {as : List α} {a : α} {rest : List α}
    (h : extract key as = some (a,rest)) : ∀ b ∈ as, ¬key b < key a := by
  induction as generalizing a rest with
  | nil => simp
  | cons c as ih =>
    simp only [extract] at h
    split at h
    · rename_i hnone
      obtain ⟨rfl,rfl⟩ := Prod.mk.inj (Option.some.inj h)
      simp [extract_eq_none hnone]
    · rename_i d ds hsome
      have hd := ih hsome
      split_ifs at h with hlt <;> obtain ⟨rfl,rfl⟩ := Prod.mk.inj (Option.some.inj h) <;>
        intro b hb <;> rcases List.mem_cons.mp hb with rfl | hb
      · omega
      · exact hd b hb
      · omega
      · have := hd b hb; omega

def ofKey (key : α → ℕ) : PriorityQueue α (fun a b => key a < key b) where
  Queue := List α
  empty := []
  push := List.cons
  pop := extract key
  elems := fun q => (q : Multiset α)
  elems_empty := rfl
  elems_push := fun _ _ => rfl
  pop_none := fun q h => by rw [extract_eq_none h]; rfl
  pop_some := fun q a q' h => Multiset.coe_eq_coe.mpr (extract_perm h)
  pop_first := fun q a q' h b hb => extract_least h b (Multiset.mem_coe.mp hb)

/-- Among elements of equal key this queue takes out favoured ones first. -/
def favouring (key : α → ℕ) (favoured : α → Prop) [DecidablePred favoured] :
    PriorityQueue α (fun a b => key a < key b) :=
  let queue := ofKey fun a => 2*key a+if favoured a then 0 else 1
  {queue with
    pop_first := fun q a q' h b hb hlt => by
      refine queue.pop_first q a q' h b hb ?_
      split_ifs <;> omega}

theorem favoured_of_pop (key : α → ℕ) (favoured : α → Prop) [DecidablePred favoured] {a b : α}
    {q q' : (favouring key favoured).Queue} (h : (favouring key favoured).pop q = some (a,q'))
    (hb : b ∈ (favouring key favoured).elems q) (hkey : key b = key a) (hfavoured : favoured b) :
    favoured a := by
  by_contra ha
  refine extract_least h b (Multiset.mem_coe.mp hb) ?_
  rw [if_pos hfavoured,if_neg ha]
  omega

end PriorityQueue
end QuietRoute
