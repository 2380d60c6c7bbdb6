import Mathlib.Data.List.Nodup
import Mathlib.Data.List.Perm.Subperm

/-! A finite map with unique keys that remembers the order of insertion. A hash map's
iteration order is some permutation of `entries`; lookups do not depend on it. -/
namespace QuietRoute

/-- The keys are distinct by construction, so a lookup never has two answers. -/
@[ext] structure UnorderedMap (κ β : Type) where
  entries : List (κ × β)
  nodup : (entries.map Prod.fst).Nodup

namespace UnorderedMap

variable {κ β : Type} [DecidableEq κ]

def lookup (k : κ) : List (κ × β) → Option β
  | [] => none
  | (k',v)::m => if k' = k then some v else lookup k m

def assign (k : κ) (v : β) : List (κ × β) → List (κ × β)
  | [] => [(k,v)]
  | (k',v')::m => if k' = k then (k',v)::m else (k',v')::assign k v m

theorem lookup_assign (k k' : κ) (v : β) (m : List (κ × β)) :
    lookup k' (assign k v m) = if k = k' then some v else lookup k' m := by
  induction m with
  | nil => rfl
  | cons e m ih =>
    by_cases he : e.1 = k
    · subst k
      by_cases hk : e.1 = k' <;> simp [assign,lookup,hk]
    · by_cases hk : k = k'
      · subst k'; simp [assign,lookup,he,ih]
      · simp [assign,lookup,he,ih,hk]

theorem keys_assign (k : κ) (v : β) (m : List (κ × β)) :
    (assign k v m).map Prod.fst =
      if k ∈ m.map Prod.fst then m.map Prod.fst else m.map Prod.fst ++ [k] := by
  induction m with
  | nil => rfl
  | cons e m ih =>
    by_cases he : e.1 = k
    · simp [assign,he]
    · simp only [assign,he,if_false,List.map_cons,ih,List.mem_cons,Ne.symm he,false_or]
      split_ifs <;> rfl

theorem lookup_eq_some_iff {m : List (κ × β)} (hm : (m.map Prod.fst).Nodup) {k : κ} {v : β} :
    lookup k m = some v ↔ (k,v) ∈ m := by
  induction m with
  | nil => simp [lookup]
  | cons e m ih =>
    obtain ⟨hfresh,hrest⟩ := List.nodup_cons.mp hm
    by_cases he : e.1 = k
    · subst k
      have hnot : (e.1,v) ∉ m := fun h => hfresh (List.mem_map.mpr ⟨_,h,rfl⟩)
      simp [lookup,hnot,Prod.ext_iff,eq_comm]
    · simp [lookup,he,ih hrest,Prod.ext_iff,Ne.symm he]

theorem lookup_eq_none_iff {k : κ} {m : List (κ × β)} :
    lookup k m = none ↔ k ∉ m.map Prod.fst := by
  induction m with
  | nil => simp [lookup]
  | cons e m ih =>
    by_cases he : e.1 = k
    · simp [lookup,he]
    · simp only [lookup,he,if_false,ih,List.map_cons,List.mem_cons,Ne.symm he,false_or]

theorem lookup_filter_ne (k k' : κ) (m : List (κ × β)) :
    lookup k' (m.filter fun e => e.1 ≠ k) = if k = k' then none else lookup k' m := by
  induction m with
  | nil => simp [lookup]
  | cons e m ih =>
    by_cases he : e.1 = k
    · by_cases hk : k = k'
      · simpa [he,hk] using ih
      · simpa [he,hk,lookup] using ih
    · by_cases hk : k = k'
      · subst k'; simpa [he,lookup] using ih
      · by_cases hk' : e.1 = k'
        · subst k'; simp [he,lookup,hk]
        · simpa [he,lookup,hk,hk'] using ih

theorem assign_of_not_mem {k : κ} {m : List (κ × β)} (h : k ∉ m.map Prod.fst) (v : β) :
    assign k v m = m ++ [(k,v)] := by
  induction m with
  | nil => rfl
  | cons e m ih =>
    obtain ⟨hne,hrest⟩ := not_or.mp (mt List.mem_cons.mpr h)
    rw [assign,if_neg (Ne.symm hne),ih hrest]
    rfl

def empty : UnorderedMap κ β := ⟨[],List.nodup_nil⟩

def find (m : UnorderedMap κ β) (k : κ) : Option β := lookup k m.entries

def size (m : UnorderedMap κ β) : ℕ := m.entries.length

/-- `m[k] = v`. -/
def set (m : UnorderedMap κ β) (k : κ) (v : β) : UnorderedMap κ β where
  entries := assign k v m.entries
  nodup := by
    rw [keys_assign]
    split_ifs with h
    · exact m.nodup
    · exact m.nodup.append (List.nodup_singleton k) (by simpa using h)

/-- `m.emplace(k, v)`: an existing entry is kept. -/
def emplace (m : UnorderedMap κ β) (k : κ) (v : β) : UnorderedMap κ β :=
  if (m.find k).isSome then m else m.set k v

def erase (m : UnorderedMap κ β) (k : κ) : UnorderedMap κ β where
  entries := m.entries.filter fun e => e.1 ≠ k
  nodup := m.nodup.sublist (List.filter_sublist.map _)

def modify (m : UnorderedMap κ β) (k : κ) (f : β → β) : UnorderedMap κ β where
  entries := m.entries.map fun e => if e.1 = k then (e.1,f e.2) else e
  nodup := by
    have hkeys : (m.entries.map fun e => if e.1 = k then (e.1,f e.2) else e).map Prod.fst =
        m.entries.map Prod.fst := by
      rw [List.map_map]
      apply List.map_congr_left
      intro e _
      simp only [Function.comp_apply]
      split_ifs <;> rfl
    rw [hkeys]
    exact m.nodup

def mapWithKey (m : UnorderedMap κ β) (f : κ → β → β) : UnorderedMap κ β where
  entries := m.entries.map fun e => (e.1,f e.1 e.2)
  nodup := by
    rw [List.map_map]
    exact m.nodup

@[simp] theorem find_empty (k : κ) : (empty : UnorderedMap κ β).find k = none := rfl

theorem find_set (m : UnorderedMap κ β) (k k' : κ) (v : β) :
    (m.set k v).find k' = if k = k' then some v else m.find k' :=
  lookup_assign k k' v m.entries

@[simp] theorem find_set_self (m : UnorderedMap κ β) (k : κ) (v : β) :
    (m.set k v).find k = some v := by simp [find_set]

theorem find_set_ne (m : UnorderedMap κ β) {k k' : κ} (v : β) (h : k ≠ k') :
    (m.set k v).find k' = m.find k' := by simp [find_set,h]

theorem find_erase (m : UnorderedMap κ β) (k k' : κ) :
    (m.erase k).find k' = if k = k' then none else m.find k' :=
  lookup_filter_ne k k' m.entries

theorem find_emplace (m : UnorderedMap κ β) (k k' : κ) (v : β) :
    (m.emplace k v).find k' = if k = k' then some ((m.find k).getD v) else m.find k' := by
  unfold emplace
  cases h : m.find k with
  | none => simp [find_set]
  | some w =>
    by_cases hk : k = k'
    · subst k'; simp [h]
    · simp [hk]

theorem find_modify (m : UnorderedMap κ β) (k k' : κ) (f : β → β) :
    (m.modify k f).find k' = if k = k' then (m.find k').map f else m.find k' := by
  unfold find modify
  simp only
  induction m.entries with
  | nil => simp [lookup]
  | cons e es ih =>
    by_cases he : e.1 = k
    · subst k
      by_cases hk : e.1 = k'
      · simp [lookup,hk]
      · simpa [lookup,hk] using ih
    · by_cases hk' : e.1 = k'
      · subst k'; simp [lookup,he,Ne.symm he]
      · simpa [lookup,he,hk'] using ih

theorem find_mapWithKey (m : UnorderedMap κ β) (f : κ → β → β) (k : κ) :
    (m.mapWithKey f).find k = (m.find k).map (f k) := by
  unfold find mapWithKey
  simp only
  induction m.entries with
  | nil => rfl
  | cons e es ih =>
    by_cases hk : e.1 = k
    · subst k; simp [lookup]
    · simpa [lookup,hk] using ih

theorem find_eq_some_iff (m : UnorderedMap κ β) {k : κ} {v : β} :
    m.find k = some v ↔ (k,v) ∈ m.entries := lookup_eq_some_iff m.nodup

theorem find_eq_none_iff (m : UnorderedMap κ β) {k : κ} :
    m.find k = none ↔ k ∉ m.entries.map Prod.fst := lookup_eq_none_iff

theorem entries_set_new (m : UnorderedMap κ β) {k : κ} (h : m.find k = none) (v : β) :
    (m.set k v).entries = m.entries ++ [(k,v)] :=
  assign_of_not_mem ((find_eq_none_iff m).mp h) v

theorem entries_emplace_new (m : UnorderedMap κ β) {k : κ} (h : m.find k = none) (v : β) :
    (m.emplace k v).entries = m.entries ++ [(k,v)] := by
  rw [emplace,if_neg (by simp [h]),entries_set_new m h]

theorem modify_comm (m : UnorderedMap κ β) {k k' : κ} (f g : β → β)
    (h : k ≠ k' ∨ ∀ v, f (g v) = g (f v)) :
    (m.modify k f).modify k' g = (m.modify k' g).modify k f := by
  apply UnorderedMap.ext
  simp only [modify,List.map_map]
  apply List.map_congr_left
  intro e _
  by_cases hk : e.1 = k
  · by_cases hk' : e.1 = k'
    · have hfg := h.resolve_left (not_not.mpr (hk.symm.trans hk'))
      simp [hk',hk'.symm.trans hk,hfg]
    · simp [hk,hk.symm.trans_ne hk']
  · by_cases hk' : e.1 = k'
    · simp [hk',hk'.symm.trans_ne hk]
    · simp [hk,hk']

theorem modify_id (m : UnorderedMap κ β) {k : κ} {f : β → β} (h : ∀ v, m.find k = some v → f v = v) :
    m.modify k f = m := by
  apply UnorderedMap.ext
  simp only [modify]
  refine (List.map_congr_left fun e he => ?_).trans (List.map_id _)
  split_ifs with hk
  · have hfind : m.find k = some e.2 := (find_eq_some_iff m).mpr (hk ▸ he)
    rw [h e.2 hfind]
    rfl
  · rfl

theorem length_le_size (m : UnorderedMap κ β) {ks : List κ} (hks : ks.Nodup)
    (h : ∀ k ∈ ks, m.find k ≠ none) : ks.length ≤ m.size := by
  have hsub : ks ⊆ m.entries.map Prod.fst := by
    intro k hk
    have hne := h k hk
    rwa [ne_eq,find_eq_none_iff,not_not] at hne
  simpa [size] using (List.subperm_of_subset hks hsub).length_le

end UnorderedMap
end QuietRoute
