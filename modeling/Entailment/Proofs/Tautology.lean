import Entailment.Proofs.Validity

/-!
# Tautologies are decided

An argument is a tautology when it is a single formula without a conclusion, and this formula is
true under every assignment of truth values to all names.  A formula has at least one name, so its
truth table has rows, and it is they that decide:

* `Formula.falsifiedBy_iff` : a row makes a formula false exactly when its assignment does;
* `TruthTable.exists_next?_ofFormulas` : the table over some formulas has a first row;
* `Argument.tautology_decided` : **the check for a tautology is sound and complete**.
-/

namespace Entailment

/-! ### Falsified formulas -/

namespace Formula

theorem names_ne_nil (f : Formula) : f.names ≠ [] := by
  obtain ⟨name, hn⟩ := List.exists_mem_of_ne_nil _ f.atoms_ne_nil
  exact List.ne_nil_of_mem (mem_names.2 hn)

/-- Under a valuation of all atoms, a formula is falsified exactly when it is false. -/
theorem falsifiedBy_iff {f : Formula} {v : Valuation} {w : String → Bool}
    (h : v.Agrees w f.atoms) : (f.falsifiedBy v).value = true ↔ f.eval w = false := by
  rw [falsifiedBy, valuate_eq_eval h]
  simp

/-- A row of its own truth table falsifies a formula when the assignment does. -/
theorem falsifiedBy_assign_iff (f : Formula) (w : String → Bool) :
    (f.falsifiedBy (TruthTable.assign (TruthTable.namesOf [f]) w)).value = true ↔
      f.eval w = false := by
  refine falsifiedBy_iff (TruthTable.agrees_assign w fun name hn => ?_)
  exact TruthTable.mem_namesOf.2 (by simpa using hn)

end Formula

/-- The truth table over one or more formulas has a first row. -/
theorem TruthTable.exists_next?_ofFormulas {formulas : List Formula} (h : formulas ≠ []) :
    ∃ row rest, (ofFormulas formulas).value.next? = some (row, rest) := by
  have hne := namesOf_ne_nil h
  rw [value_ofFormulas, ofNames, if_neg (by simpa using hne)]
  exact ⟨_, _, rfl⟩

namespace Argument

variable {a : Argument} {f : Formula}

/-- The argument is the formula `f` alone, without a conclusion. -/
def IsSingle (a : Argument) (f : Formula) : Prop := a.premises = [f] ∧ a.conclusion? = none

/-- The check looks for the first row that falsifies the formula. -/
theorem isTautology_eq (h : a.IsSingle f) :
    a.isTautology =
      .ok ((TruthTable.ofNames (TruthTable.namesOf [f])).search f.falsifiedBy).value.isNone := by
  obtain ⟨hp, hc⟩ := h
  simp only [isTautology, checkTautology, hp, hc, Logged.value_bind, TruthTable.value_ofFormulas]
  generalize (TruthTable.search _ _).value = found
  cases found with
  | none => rfl
  | some row => rfl

/-- Nothing falsifies a formula that is found to be a tautology. -/
theorem eval_of_isTautology_true (h : a.IsSingle f) (ht : a.isTautology = .ok true)
    (w : String → Bool) : f.eval w = true := by
  rw [isTautology_eq h, Except.ok.injEq, Option.isNone_iff_eq_none] at ht
  have hw := TruthTable.refused_of_search_eq_none (TruthTable.namesOf_ne_nil (by simp)) ht w
  by_contra hfalse
  have := (Formula.falsifiedBy_assign_iff f w).2 (Bool.eq_false_iff.2 hfalse)
  rw [hw] at this
  exact Bool.false_ne_true this

/-- Some assignment falsifies a formula that is found not to be a tautology. -/
theorem exists_eval_of_isTautology_false (h : a.IsSingle f) (ht : a.isTautology = .ok false) :
    ∃ w, f.eval w = false := by
  rw [isTautology_eq h, Except.ok.injEq, Option.isNone_eq_false_iff] at ht
  obtain ⟨row, hrow⟩ := Option.isSome_iff_exists.1 ht
  obtain ⟨w, -, hw, -⟩ := TruthTable.first_of_search_eq_some
    (TruthTable.namesOf_ne_nil (by simp)) (Name.pairwise_sort _) hrow
  exact ⟨w, (Formula.falsifiedBy_assign_iff f w).1 hw⟩

/-- The question is refused unless the argument is a single formula. -/
theorem isTautology_of_not_isSingle (h : ∀ f, ¬ a.IsSingle f) :
    a.isTautology = .error (.notASingleFormula a.premises.length a.conclusion?.isSome) := by
  obtain ⟨premises, conclusion?⟩ := a
  rw [isTautology, checkTautology]
  split
  · next f hp hc => exact absurd ⟨hp, hc⟩ (h f)
  · rfl

/-- **Tautologies are decided.**  A single formula is found to be a tautology if it is true under
every assignment, and found not to be one otherwise; to any other argument the question is refused,
with the number of its premises and whether it has a conclusion.  The answer is never the vacuous
one of a table without rows: every formula has a name, and so its table has a first row. -/
theorem tautology_decided (a : Argument) :
    (∀ f, a.IsSingle f →
      ((∀ v, f.eval v = true) → a.isTautology = .ok true) ∧
      ((¬ ∀ v, f.eval v = true) → a.isTautology = .ok false)) ∧
    ((∀ f, ¬ a.IsSingle f) →
      a.isTautology = .error (.notASingleFormula a.premises.length a.conclusion?.isSome)) ∧
    ∀ f : Formula, f.names ≠ [] ∧
      ∃ row rest, (TruthTable.ofFormulas [f]).value.next? = some (row, rest) := by
  refine ⟨fun f h => ?_, isTautology_of_not_isSingle,
    fun f => ⟨f.names_ne_nil, TruthTable.exists_next?_ofFormulas (by simp)⟩⟩
  obtain ⟨verdict, hverdict⟩ : ∃ verdict, a.isTautology = .ok verdict := ⟨_, isTautology_eq h⟩
  cases verdict with
  | true =>
    have htrue := eval_of_isTautology_true h hverdict
    exact ⟨fun _ => hverdict, fun hnot => absurd htrue hnot⟩
  | false =>
    obtain ⟨w, hw⟩ := exists_eval_of_isTautology_false h hverdict
    refine ⟨fun hall => ?_, fun _ => hverdict⟩
    rw [hall w] at hw
    cases hw

/-- The excluded middle `(P ∨ ¬P)` is true under every assignment and `P` is not, and two premises
with a conclusion are no single formula: the check says so of each. -/
theorem excluded_middle_is_tautology :
    let middle : Formula := .disj (.atom "P") (.neg (.atom "P"))
    (∀ v, middle.eval v = true) ∧ isTautology ⟨[middle], none⟩ = .ok true ∧
      isTautology ⟨[.atom "P"], none⟩ = .ok false ∧
      isTautology ⟨[.atom "P", middle], some (.atom "Q")⟩ = .error (.notASingleFormula 2 true) := by
  intro middle
  have hmiddle : ∀ v, middle.eval v = true := by
    intro v
    cases hv : v "P" <;> simp [middle, Formula.eval, hv]
  have hatom : ¬ ∀ v, (Formula.atom "P").eval v = true := by
    intro hall
    exact Bool.false_ne_true (hall fun _ => false)
  have hpair : ∀ f, ¬ IsSingle ⟨[.atom "P", middle], some (.atom "Q")⟩ f := by
    rintro f ⟨-, hc⟩
    cases hc
  exact ⟨hmiddle, ((tautology_decided _).1 middle ⟨rfl, rfl⟩).1 hmiddle,
    ((tautology_decided _).1 (.atom "P") ⟨rfl, rfl⟩).2 hatom, (tautology_decided _).2.1 hpair⟩

end Argument

end Entailment
