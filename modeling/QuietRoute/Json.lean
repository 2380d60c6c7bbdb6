import QuietRoute.Bytes
import Mathlib.Data.Rat.Defs

/-! JSON values, and the library that reads and writes their texts. -/
namespace QuietRoute

inductive Json
  | null
  | boolean (b : Bool)
  | integer (n : ℤ)
  | float (x : ℚ)
  | string (s : Bytes)
  | array (values : List Json)
  | object (fields : List (Bytes × Json))

namespace Json

/-- The member function `at`; `none` is an exception. -/
def field (key : Bytes) : Json → Option Json
  | object fields => (fields.find? fun e => e.1 = key).map Prod.snd
  | _ => none

def getString : Json → Option Bytes
  | string s => some s
  | _ => none

/-- A member of an object, the first one with its key. -/
def HasMember (value : Json) (key : Bytes) (member : Json) : Prop :=
  ∃ before after, value = object (before ++ (key,member)::after) ∧ key ∉ before.map Prod.fst

/-- What a range-based loop over a value visits. -/
def elements : Json → List Json
  | null => []
  | array values => values
  | object fields => fields.map Prod.snd
  | value => [value]

/-- `get<std::vector<std::string>>`. -/
def getStrings : Json → Option (List Bytes)
  | array values => values.mapM getString
  | _ => none

/-- `at` and `get<std::string>`. -/
def stringAt (value : Json) (key : Bytes) : Option Bytes := do
  (← value.field key).getString

/-- Two values are the same when they differ in the order of members at most. -/
inductive Same : Json → Json → Prop
  | refl (value : Json) : Same value value
  | array {values values' : List Json} (h : List.Forall₂ Same values values') :
      Same (.array values) (.array values')
  | object {fields fields' : List (Bytes × Json)}
      (hkeys : ∀ key, ((object fields).field key).isSome = ((object fields').field key).isSome)
      (hvalues : ∀ key value value', (object fields).field key = some value →
        (object fields').field key = some value' → Same value value') :
      Same (.object fields) (.object fields')

instance : Std.Refl Same := ⟨Same.refl⟩

variable {value value' : Json}

theorem field_eq_some_iff {key : Bytes} {member : Json} :
    value.field key = some member ↔ value.HasMember key member := by
  constructor
  · intro h
    cases value with
    | object fields =>
      obtain ⟨⟨key',member'⟩,hfind,rfl⟩ := Option.map_eq_some_iff.mp h
      obtain ⟨hkey,before,after,rfl,hbefore⟩ := List.find?_eq_some_iff_append.mp hfind
      obtain rfl : key' = key := of_decide_eq_true hkey
      refine ⟨before,after,rfl,fun hmem => ?_⟩
      obtain ⟨e,he,heq⟩ := List.mem_map.mp hmem
      simpa [heq] using hbefore e he
    | _ => cases h
  · rintro ⟨before,after,rfl,hbefore⟩
    rw [field,List.find?_append,List.find?_eq_none.mpr fun e he => ?_]
    · simp
    · simp only [decide_eq_true_eq]
      rintro rfl
      exact hbefore (List.mem_map_of_mem he)

theorem stringAt_eq_some_iff {key s : Bytes} :
    value.stringAt key = some s ↔ value.HasMember key (string s) := by
  rw [← field_eq_some_iff,stringAt]
  cases value.field key with
  | none => simp
  | some member => cases member <;> simp [getString]

theorem Same.field {key : Bytes} {member : Json} (h : Same value value')
    (hmember : value.field key = some member) :
    ∃ member', value'.field key = some member' ∧ Same member member' := by
  cases h with
  | refl => exact ⟨member,hmember,Same.refl member⟩
  | array => cases hmember
  | object hkeys hvalues =>
    have hsome := hkeys key
    rw [hmember] at hsome
    obtain ⟨member',hmember'⟩ := Option.isSome_iff_exists.mp hsome.symm
    exact ⟨member',hmember',hvalues key member member' hmember hmember'⟩

theorem Same.stringAt {key s : Bytes} (h : Same value value') (hs : value.stringAt key = some s) :
    value'.stringAt key = some s := by
  simp only [Json.stringAt,Option.bind_eq_bind,Option.bind_eq_some_iff] at hs ⊢
  obtain ⟨member,hmember,hs⟩ := hs
  obtain ⟨member',hmember',hsame⟩ := h.field hmember
  cases hsame with
  | refl => exact ⟨member,hmember',hs⟩
  | array => cases hs
  | object => cases hs

end Json

/-- The functions of the library; `none` is an exception. -/
structure JsonLibrary where
  parse : Bytes → Option Json
  dump : Json → Option Bytes

end QuietRoute
