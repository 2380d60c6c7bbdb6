import Mathlib.Data.List.Induction
import Mathlib.Data.List.Basic

/-! Machines that report as they go, and a machine in a loop with a party that listens to its reports
and orders it about. A run of the loop is a run of each of the two. -/
namespace Reporting

variable {σ τ α β γ ω : Type}

@[simp] theorem getLeft?_comp_inl : Sum.getLeft? ∘ (Sum.inl : α → α ⊕ β) = some := rfl
@[simp] theorem getLeft?_comp_inr : Sum.getLeft? ∘ (Sum.inr : β → α ⊕ β) = fun _ => none := rfl
@[simp] theorem getRight?_comp_inr : Sum.getRight? ∘ (Sum.inr : β → α ⊕ β) = some := rfl

/-- A step may be impossible, and may make reports. -/
structure Machine (σ α β : Type) where
  step : σ → α → Option (σ × List β)

namespace Machine

def run (m : Machine σ α β) (s : σ) : List α → Option (σ × List β)
  | [] => some (s,[])
  | a::inputs => do
    let (s,reports) ← m.step s a
    let (s,more) ← m.run s inputs
    return (s,reports ++ more)

variable {m : Machine σ α β} {s s' s'' : σ} {a : α} {inputs inputs' : List α}
  {reports reports' : List β}

@[simp] theorem run_nil : m.run s [] = some (s,[]) := rfl

theorem run_cons_eq_some : m.run s (a::inputs) = some (s'',reports) ↔ ∃ s' now more,
    m.step s a = some (s',now) ∧ m.run s' inputs = some (s'',more) ∧ now ++ more = reports := by
  simp only [run,bind,Option.bind_eq_some_iff,pure,Option.some.injEq,Prod.mk.injEq,Prod.exists]
  constructor
  · rintro ⟨s',now,hstep,_,more,hrun,rfl,rfl⟩
    exact ⟨s',now,more,hstep,hrun,rfl⟩
  · rintro ⟨s',now,more,hstep,hrun,rfl⟩
    exact ⟨s',now,hstep,s'',more,hrun,rfl,rfl⟩

theorem run_append_eq_some : m.run s (inputs ++ inputs') = some (s'',reports) ↔ ∃ s' now more,
    m.run s inputs = some (s',now) ∧ m.run s' inputs' = some (s'',more) ∧ now ++ more = reports := by
  induction inputs generalizing s reports with
  | nil => simp
  | cons a inputs ih =>
    simp only [List.cons_append,run_cons_eq_some,ih]
    constructor
    · rintro ⟨s₁,now₁,_,hstep,⟨s₂,now₂,more,hrun,hrun',rfl⟩,rfl⟩
      exact ⟨s₂,now₁ ++ now₂,more,⟨s₁,now₁,now₂,hstep,hrun,rfl⟩,hrun',List.append_assoc _ _ _⟩
    · rintro ⟨s₂,_,more,⟨s₁,now₁,now₂,hstep,hrun,rfl⟩,hrun',rfl⟩
      exact ⟨s₁,now₁,now₂ ++ more,hstep,⟨s₂,now₂,more,hrun,hrun',rfl⟩,(List.append_assoc _ _ _).symm⟩

theorem run_singleton_eq_some : m.run s [a] = some (s',reports) ↔ m.step s a = some (s',reports) := by
  rw [run_cons_eq_some]
  constructor
  · rintro ⟨_,now,_,hstep,hnil,rfl⟩
    obtain ⟨rfl,rfl⟩ := Prod.mk.inj (Option.some.inj hnil)
    rwa [List.append_nil]
  · exact fun hstep => ⟨s',reports,[],hstep,rfl,List.append_nil _⟩

theorem run_induction {motive : List α → σ → List β → Prop} (hstart : motive [] s [])
    (hstep : ∀ inputs a s' s'' reports now, m.run s inputs = some (s',reports) →
      motive inputs s' reports → m.step s' a = some (s'',now) →
        motive (inputs ++ [a]) s'' (reports ++ now))
    (hrun : m.run s inputs = some (s',reports)) : motive inputs s' reports := by
  induction inputs using List.reverseRecOn generalizing s' reports with
  | nil =>
    obtain ⟨rfl,rfl⟩ := Prod.mk.inj (Option.some.inj hrun)
    exact hstart
  | append_singleton inputs a ih =>
    obtain ⟨s₁,now,more,hbefore,hlast,rfl⟩ := run_append_eq_some.mp hrun
    exact hstep inputs a s₁ s' now more hbefore (ih hbefore) (run_singleton_eq_some.mp hlast)

theorem run_quiet (quiet : α → Prop)
    (hquiet : ∀ s a s' reports, quiet a → m.step s a = some (s',reports) → reports = [])
    (hinputs : ∀ a ∈ inputs, quiet a) (hrun : m.run s inputs = some (s',reports)) : reports = [] := by
  induction inputs generalizing s reports with
  | nil => exact (Prod.mk.inj (Option.some.inj hrun)).2.symm
  | cons a inputs ih =>
    obtain ⟨s₁,now,more,hstep,hrest,rfl⟩ := run_cons_eq_some.mp hrun
    rw [hquiet s a s₁ now (hinputs a List.mem_cons_self) hstep,
      ih (fun b hb => hinputs b (List.mem_cons_of_mem a hb)) hrest,List.nil_append]

/-- The party hears each report and the calls of its user, and what it orders in return is carried out
at once. -/
def loop (source : Machine σ (α ⊕ ω) β) (party : Machine τ (β ⊕ γ) ω) :
    Machine (σ × τ) (α ⊕ γ) (β ⊕ γ) where
  step
    | (s,t), .inl a => do
      let (s,reports) ← source.step s (.inl a)
      let (t,orders) ← party.run t (reports.map .inl)
      let (s,_) ← source.run s (orders.map .inr)
      return ((s,t),reports.map .inl)
    | (s,t), .inr c => do
      let (t,orders) ← party.step t (.inr c)
      let (s,_) ← source.run s (orders.map .inr)
      return ((s,t),[.inr c])

end Machine

/-- A source that reports nothing on orders. -/
def Obeys (source : Machine σ (α ⊕ ω) β) : Prop :=
  ∀ s o s' reports, source.step s (.inr o) = some (s',reports) → reports = []

namespace Machine

variable {source : Machine σ (α ⊕ ω) β} {party : Machine τ (β ⊕ γ) ω} {s s' : σ} {t t' : τ}
  {heard : List (β ⊕ γ)}

theorem run_orders (hobeys : Obeys source) {orders : List ω} {reports : List β}
    (hrun : source.run s (orders.map .inr) = some (s',reports)) : reports = [] := by
  refine run_quiet (fun a => ∃ o, a = .inr o) ?_ ?_ hrun
  · rintro s _ s' reports ⟨o,rfl⟩ hstep
    exact hobeys s o s' reports hstep
  · intro a ha
    obtain ⟨o,-,rfl⟩ := List.mem_map.mp ha
    exact ⟨o,rfl⟩

theorem loop_step (hobeys : Obeys source) {input : α ⊕ γ}
    (h : (source.loop party).step (s,t) input = some ((s',t'),heard)) : ∃ inputs orders,
      source.run s inputs = some (s',heard.filterMap Sum.getLeft?) ∧
        party.run t heard = some (t',orders) ∧ inputs.filterMap Sum.getRight? = orders ∧
          inputs.filterMap Sum.getLeft? = input.getLeft?.toList := by
  cases input with
  | inl a =>
    simp only [loop,bind,Option.bind_eq_some_iff,pure,Option.some.injEq,Prod.mk.injEq,
      Prod.exists] at h
    obtain ⟨s₁,reports,hstep,t₁,orders,hparty,s₂,quiet,hobey,⟨rfl,rfl⟩,rfl⟩ := h
    obtain rfl := run_orders hobeys hobey
    refine ⟨.inl a::orders.map .inr,orders,?_,hparty,?_,?_⟩
    · exact run_cons_eq_some.mpr ⟨s₁,reports,[],hstep,hobey,by simp⟩
    · simp [List.filterMap_cons]
    · simp
  | inr c =>
    simp only [loop,bind,Option.bind_eq_some_iff,pure,Option.some.injEq,Prod.mk.injEq,
      Prod.exists] at h
    obtain ⟨t₁,orders,hparty,s₂,quiet,hobey,⟨rfl,rfl⟩,rfl⟩ := h
    obtain rfl := run_orders hobeys hobey
    refine ⟨orders.map .inr,orders,hobey,run_singleton_eq_some.mpr hparty,?_,?_⟩
    · simp
    · simp

/-- A run of the loop is a run of the source, on the inputs and the orders, and one of the party, on the
reports and the calls. -/
theorem loop_run (hobeys : Obeys source) {inputs : List (α ⊕ γ)}
    (h : (source.loop party).run (s,t) inputs = some ((s',t'),heard)) : ∃ sourceInputs orders,
      source.run s sourceInputs = some (s',heard.filterMap Sum.getLeft?) ∧
        party.run t heard = some (t',orders) ∧ sourceInputs.filterMap Sum.getRight? = orders ∧
          sourceInputs.filterMap Sum.getLeft? = inputs.filterMap Sum.getLeft? := by
  induction inputs generalizing s t heard with
  | nil =>
    obtain ⟨⟨rfl,rfl⟩,rfl⟩ := by simpa using h
    exact ⟨[],[],rfl,rfl,rfl,rfl⟩
  | cons input inputs ih =>
    obtain ⟨⟨s₁,t₁⟩,now,more,hstep,hrest,rfl⟩ := run_cons_eq_some.mp h
    obtain ⟨first,orders,hsource,hparty,horders,hinputs⟩ := loop_step hobeys hstep
    obtain ⟨later,orders',hsource',hparty',horders',hinputs'⟩ := ih hrest
    refine ⟨first ++ later,orders ++ orders',?_,?_,?_,?_⟩
    · rw [List.filterMap_append]
      exact run_append_eq_some.mpr ⟨s₁,_,_,hsource,hsource',rfl⟩
    · exact run_append_eq_some.mpr ⟨t₁,_,_,hparty,hparty',rfl⟩
    · rw [List.filterMap_append,horders,horders']
    · rw [List.filterMap_append,hinputs,hinputs']
      cases input <;> rfl

end Machine
end Reporting
