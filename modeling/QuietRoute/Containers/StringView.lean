import Mathlib.Data.List.Basic

/-! `std::string_view` over lists: searching from a position on, and access that is checked.
`none` is `npos` for a search and the exception `std::out_of_range` for an access. -/
namespace StringView

variable {α : Type*} {view pre post : List α} {c : α} {start : ℕ}

def find [DecidableEq α] (view : List α) (c : α) (start : ℕ) : Option ℕ :=
  ((view.drop start).findIdx? (· = c)).map (start+·)

/-- The member function `at`. -/
def charAt (view : List α) (pos : ℕ) : Option α := view[pos]?

def substr (view : List α) (pos count : ℕ) : Option (List α) :=
  if view.length < pos then none else some ((view.drop pos).take count)

theorem find_eq_none [DecidableEq α] (h : c ∉ view.drop start) : find view c start = none := by
  rw [find,Option.map_eq_none_iff,List.findIdx?_eq_none_iff]
  intro a ha
  have hne : a ≠ c := fun heq => h (heq ▸ ha)
  simpa using hne

theorem find_eq_some [DecidableEq α] (h : view.drop start = pre ++ c::post) (hc : c ∉ pre) :
    find view c start = some (start+pre.length) := by
  have hpre : pre.findIdx? (· = c) = none := by
    rw [List.findIdx?_eq_none_iff]
    intro a ha
    have hne : a ≠ c := fun heq => hc (heq ▸ ha)
    simpa using hne
  rw [find,h,List.findIdx?_append,hpre,List.findIdx?_cons]
  simp

theorem drop_add_length (h : view.drop start = pre ++ post) :
    view.drop (start+pre.length) = post := by
  rw [← List.drop_drop,h,List.drop_left]

theorem charAt_eq (h : view.drop start = c::post) : charAt view start = some c := by
  rw [charAt,← Nat.add_zero start,← List.getElem?_drop,h]
  rfl

theorem charAt_end (h : view.drop start = []) : charAt view start = none :=
  List.getElem?_eq_none (List.drop_eq_nil_iff.mp h)

theorem le_length_of_drop (h : view.drop start ≠ []) : start ≤ view.length := by
  by_contra hlt
  exact h (List.drop_eq_nil_of_le (Nat.le_of_not_le hlt))

theorem substr_eq (hle : start ≤ view.length) (h : view.drop start = pre ++ post) :
    substr view start pre.length = some pre := by
  rw [substr,if_neg (Nat.not_lt.mpr hle),h,List.take_left]

theorem cut_unique {pre' post' : List α} (h : pre ++ c::post = pre' ++ c::post') (hc : c ∉ pre)
    (hc' : c ∉ pre') : pre = pre' ∧ post = post' := by
  induction pre generalizing pre' with
  | nil =>
    cases pre' with
    | nil => exact ⟨rfl,(List.cons.inj h).2⟩
    | cons a pre' =>
      have hhead : c = a := (List.cons.inj h).1
      exact absurd (hhead ▸ List.mem_cons_self) hc'
  | cons a pre ih =>
    cases pre' with
    | nil =>
      have hhead : a = c := (List.cons.inj h).1
      exact absurd (hhead ▸ List.mem_cons_self) hc
    | cons a' pre' =>
      obtain ⟨hhead,htail⟩ := List.cons.inj h
      have hrest := ih htail (fun hm => hc (List.mem_cons_of_mem a hm))
        (fun hm => hc' (List.mem_cons_of_mem a' hm))
      exact ⟨by rw [hhead,hrest.1],hrest.2⟩

end StringView
