import Entailment.Argument.Basic
import Entailment.Formula.Valuation
import Entailment.Proofs.NameOrder

/-!
# Names and meaning of formulas

The names of a formula are gathered from its conditions, and a formula is valuated under a
valuation that need not give a value to every name.  This file ties both to the tree itself:

* `Formula.atoms_of_mem_conditions` : the leaves of every condition are the atoms of the formula,
  so no name is lost (`Formula.mem_names`);
* `Formula.valuate_eq_eval` : **a valuation that gives a value to every atom of a formula gives the
  formula its truth value**, whichever sides are skipped on the way.
-/

namespace Entailment

namespace Formula

/-! ### Atoms of conditions -/

theorem atoms_leadingCondition (f : Formula) (value : Bool) :
    (f.leadingCondition value).atoms = f.atoms := by
  induction f generalizing value with
  | atom name => rfl
  | neg inner ih => exact ih (!value)
  | conj left right ihl ihr | disj left right ihl ihr | imp left right ihl ihr =>
    rw [leadingCondition, Condition.atoms, ihl, ihr, atoms]

theorem atoms_sides (left right : Formula) (values : Bool × Bool) :
    (sides left right values).atoms = left.atoms ++ right.atoms := by
  rw [sides, Condition.atoms, atoms_leadingCondition, atoms_leadingCondition]

/-- The leaves of a condition are the atoms of the formula, in the same order. -/
theorem atoms_of_mem_conditions {f : Formula} {value : Bool} {condition : Condition}
    (h : condition ∈ f.conditions value) : condition.atoms = f.atoms := by
  induction f generalizing value with
  | atom name =>
    obtain rfl := List.mem_singleton.1 h
    rfl
  | neg inner ih => exact ih h
  | conj left right | disj left right | imp left right =>
    -- a connective pairs up its two sides, whatever the value
    cases value <;>
      (obtain ⟨values, -, rfl⟩ := List.mem_map.1 h
       exact atoms_sides left right values)

theorem conditions_ne_nil (f : Formula) (value : Bool) : f.conditions value ≠ [] := by
  induction f generalizing value with
  | atom name => simp [conditions]
  | neg inner ih => exact ih (!value)
  | conj left right | disj left right | imp left right => cases value <;> simp [conditions]

/-! ### Names -/

theorem atoms_ne_nil (f : Formula) : f.atoms ≠ [] := by
  induction f with
  | atom name => simp [atoms]
  | neg inner ih => exact ih
  | conj left right ihl _ | disj left right ihl _ | imp left right ihl _ => simp [atoms, ihl]

/-- The names gathered from the conditions are those of the atoms. -/
@[simp] theorem mem_names {f : Formula} {name : String} : name ∈ f.names ↔ name ∈ f.atoms := by
  rw [names, Name.mem_sort, List.mem_flatMap]
  constructor
  · rintro ⟨condition, hc, hname⟩
    rwa [← atoms_of_mem_conditions hc]
  · intro hname
    obtain ⟨condition, hc⟩ := List.exists_mem_of_ne_nil _ (f.conditions_ne_nil true)
    exact ⟨condition, hc, by rwa [atoms_of_mem_conditions hc]⟩

end Formula

namespace Argument

/-- The names of the atoms of the premises and of the conclusion, with repetitions. -/
def atoms (a : Argument) : List String := a.formulas.flatMap Formula.atoms

end Argument

/-! ### Truth values -/

/-- The valuation gives each of the names the value it has under `w`. -/
def Valuation.Agrees (v : Valuation) (w : String → Bool) (names : List String) : Prop :=
  ∀ name ∈ names, v.get? name = some (w name)

namespace Formula

/-- **A valuation of all atoms gives a formula its truth value.** -/
theorem valuate_eq_eval {f : Formula} {v : Valuation} {w : String → Bool}
    (h : v.Agrees w f.atoms) : f.valuate v = .ok (f.eval w) := by
  induction f with
  | atom name => rw [valuate, h name (List.mem_singleton_self name), eval]
  | neg inner ih => rw [valuate, ih h, eval]
  | conj left right ihl ihr | disj left right ihl ihr | imp left right ihl ihr =>
    have hl := ihl fun name hn => h name (List.mem_append_left _ hn)
    have hr := ihr fun name hn => h name (List.mem_append_right _ hn)
    rw [valuate, hl, hr, eval]
    cases left.eval w <;> rfl

end Formula

end Entailment
