import Mathlib.Data.List.Induction
import Mathlib.Logic.Function.Basic

/-! Protocols for the parties of a common log: which actions each may take next, and in which
state the log has left every one of them. -/
namespace Typestate

variable {σ α κ : Type*}

/-- An automaton that allows some actions in each of its states. -/
structure Protocol (σ α : Type*) where
  start : σ
  step : σ → α → Option σ

namespace Protocol

def run (p : Protocol σ α) (s : σ) (actions : List α) : Option σ := actions.foldlM p.step s

@[simp] theorem run_nil (p : Protocol σ α) (s : σ) : p.run s [] = some s := rfl

theorem run_cons (p : Protocol σ α) (s : σ) (a : α) (actions : List α) :
    p.run s (a::actions) = (p.step s a).bind fun s' => p.run s' actions := List.foldlM_cons

@[simp] theorem run_singleton (p : Protocol σ α) (s : σ) (a : α) : p.run s [a] = p.step s a := by
  rw [run_cons]
  exact Option.bind_fun_some _

theorem run_append (p : Protocol σ α) (s : σ) (actions actions' : List α) :
    p.run s (actions ++ actions') = (p.run s actions).bind fun s' => p.run s' actions' :=
  List.foldlM_append

theorem run_induction (p : Protocol σ α) {motive : σ → List α → Prop} (hstart : motive p.start [])
    (hstep : ∀ s s' actions a, motive s actions → p.step s a = some s' → motive s' (actions ++ [a]))
    {actions : List α} {s : σ} (h : p.run p.start actions = some s) : motive s actions := by
  induction actions using List.reverseRecOn generalizing s with
  | nil =>
    obtain rfl : p.start = s := Option.some.inj h
    exact hstart
  | append_singleton actions a ih =>
    rw [run_append,Option.bind_eq_some_iff] at h
    obtain ⟨s₀,hrun,ha⟩ := h
    rw [run_singleton] at ha
    exact hstep s₀ s actions a (ih hrun) ha

end Protocol

variable [DecidableEq κ]

def actionsOf (log : List (κ × α)) (k : κ) : List α := (log.filter fun e => e.1 = k).map Prod.snd

@[simp] theorem actionsOf_nil (k : κ) : actionsOf ([] : List (κ × α)) k = [] := rfl

theorem actionsOf_append (log log' : List (κ × α)) (k : κ) :
    actionsOf (log ++ log') k = actionsOf log k ++ actionsOf log' k := by
  simp [actionsOf]

theorem actionsOf_self (k : κ) (actions : List α) :
    actionsOf (actions.map fun a => (k,a)) k = actions := by
  induction actions with
  | nil => rfl
  | cons a actions ih => simpa [actionsOf] using ih

theorem actionsOf_ne {k k' : κ} (h : k ≠ k') (actions : List α) :
    actionsOf (actions.map fun a => (k,a)) k' = [] := by
  simp [actionsOf,h]

theorem actionsOf_map_const (ks : List κ) (a : α) (k : κ) :
    actionsOf (ks.map fun k' => (k',a)) k = List.replicate (ks.count k) a := by
  induction ks with
  | nil => rfl
  | cons k' ks ih =>
    by_cases heq : k' = k
    · subst k'
      rw [List.count_cons_self,List.replicate_succ,← ih]
      simp [actionsOf]
    · rw [List.count_cons_of_ne heq,← ih]
      simp [actionsOf,heq]

theorem mem_actionsOf {log : List (κ × α)} {k : κ} {a : α} : a ∈ actionsOf log k ↔ (k,a) ∈ log := by
  simp [actionsOf]

/-- What holds of any two actions of one party, in their order, can be told from its own list. -/
theorem pairwise_of_actionsOf {r : α → α → Prop} {log : List (κ × α)}
    (h : ∀ k, (actionsOf log k).Pairwise r) :
    log.Pairwise fun e e' => e.1 = e'.1 → r e.2 e'.2 := by
  induction log with
  | nil => exact List.Pairwise.nil
  | cons e log ih =>
    refine List.pairwise_cons.mpr ⟨?_,ih fun k => ?_⟩
    · rintro ⟨k,a⟩ hmem rfl
      have hself := h e.1
      rw [show actionsOf (e::log) e.1 = e.2::actionsOf log e.1 by simp [actionsOf]] at hself
      exact (List.pairwise_cons.mp hself).1 a (mem_actionsOf.mpr hmem)
    · refine (h k).sublist ?_
      rw [← List.singleton_append,actionsOf_append]
      exact List.sublist_append_right _ _

/-- Every party has kept to the protocol and is in the state that is claimed. -/
def Follows (p : Protocol σ α) (log : List (κ × α)) (state : κ → σ) : Prop :=
  ∀ k, p.run p.start (actionsOf log k) = some (state k)

theorem follows_nil (p : Protocol σ α) : Follows p ([] : List (κ × α)) fun _ => p.start :=
  fun _ => rfl

theorem Follows.append {p : Protocol σ α} {log log' : List (κ × α)} {state state' : κ → σ}
    (h : Follows p log state) (h' : ∀ k, p.run (state k) (actionsOf log' k) = some (state' k)) :
    Follows p (log ++ log') state' := by
  intro k
  rw [actionsOf_append,Protocol.run_append,h k,Option.bind_some,h' k]

theorem Follows.later {p : Protocol σ α} {log log' : List (κ × α)} {state state' : κ → σ}
    (h : Follows p log state) (h' : Follows p (log ++ log') state') (k : κ) :
    p.run (state k) (actionsOf log' k) = some (state' k) := by
  have hlater := h' k
  rwa [actionsOf_append,Protocol.run_append,h k,Option.bind_some] at hlater

theorem Follows.act {p : Protocol σ α} {log : List (κ × α)} {state : κ → σ} (h : Follows p log state)
    {k : κ} {actions : List α} {s : σ} (hrun : p.run (state k) actions = some s) :
    Follows p (log ++ actions.map fun a => (k,a)) (Function.update state k s) := by
  refine h.append fun k' => ?_
  by_cases heq : k = k'
  · subst k'
    rw [actionsOf_self,hrun,Function.update_self]
  · rw [actionsOf_ne heq,Function.update_of_ne (Ne.symm heq),Protocol.run_nil]

end Typestate
