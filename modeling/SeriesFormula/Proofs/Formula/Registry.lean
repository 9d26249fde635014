import Mathlib.Data.List.Induction
import SeriesFormula.Formula.Registry

/-!
# Looking functions up

- a function that is added is found by its name, and no other name is affected (`Registry.get?_register`);
- of the functions in a list the last one of a name is found (`Registry.get?_ofList`), which decides every look-up in
  the table of the built-in functions.
-/

namespace SeriesFormula.Registry

variable {α : Type}

/-- A function that is added is found by its name. -/
theorem get?_register (registry : Registry α) (spec : FunctionSpec α) (name : String) :
    (registry.register spec).get? name = if spec.name = name then some spec else registry.get? name := by
  rw [get?, register, Std.TreeMap.getElem?_insert, get?]
  simp only [Std.compare_eq_iff_eq]

/-- Of the functions in a list, the last one of a name is found. -/
theorem get?_ofList (specs : List (FunctionSpec α)) (name : String) :
    (ofList specs).get? name = specs.reverse.find? fun spec => spec.name = name := by
  induction specs using List.reverseRecOn with
  | nil => exact Std.TreeMap.getElem?_emptyc
  | append_singleton specs spec ih =>
    have hlast : ofList (specs ++ [spec]) = (ofList specs).register spec := List.foldl_append
    rw [hlast, get?_register, ih, List.reverse_concat, List.find?_cons]
    by_cases h : spec.name = name
    · rw [if_pos h, decide_eq_true h]
    · rw [if_neg h, decide_eq_false h]

/-- What is found is a function of the list, under its own name. -/
theorem of_get?_ofList {specs : List (FunctionSpec α)} {name : String} {spec : FunctionSpec α}
    (h : (ofList specs).get? name = some spec) : spec ∈ specs ∧ spec.name = name := by
  rw [get?_ofList] at h
  exact ⟨List.mem_reverse.1 (List.mem_of_find?_eq_some h), by simpa using List.find?_some h⟩

end SeriesFormula.Registry
