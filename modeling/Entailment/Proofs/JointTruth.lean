import Entailment.Proofs.PartialValuation
import Entailment.Proofs.Validity

/-!
# The truth of an argument

The premises of an argument are valuated one after the other up to the first false one, and its
conclusion always, so that a name which only the conclusion has can be missed although a premise is
false.  Seen as formulas, the premises are one conjunction and the conclusion is not part of it:

* `Argument.premisesHold_eq` : the premises are valuated as `p₁ ∧ (p₂ ∧ (… ∧ pₙ))`;
* `Argument.valuate_of_refuted` : an argument is false where its premises are true and its
  conclusion is false;
* `Argument.valuate_as_conjunction` : **the premises decide first, then the conclusion**, and a
  counter-example makes the argument false.
-/

namespace Entailment

namespace Formula

/-- The conjunction `p₁ ∧ (p₂ ∧ (… ∧ pₙ))` of one or more formulas. -/
def conjunction : Formula → List Formula → Formula
  | first, [] => first
  | first, next :: rest => conj first (conjunction next rest)

/-- The conjunction of some formulas, if there are any. -/
def conjunction? : List Formula → Option Formula
  | [] => none
  | first :: rest => some (conjunction first rest)

/-- The result of a formula that may be absent; an absent one counts as true. -/
def valuate? (v : Valuation) : Option Formula → Except MissingValue Bool
  | none => .ok true
  | some f => f.valuate v

end Formula

namespace Argument

variable {v : Valuation}

/-! ### Premises -/

theorem premisesHold_cons (f : Formula) (rest : List Formula) :
    premisesHold v (f :: rest) =
      Formula.shortCircuit false false (f.valuate v) (premisesHold v rest) := by
  rw [premisesHold]
  rcases f.valuate v with error | (_ | _) <;> rfl

theorem premisesHold_singleton (f : Formula) : premisesHold v [f] = f.valuate v := by
  rw [premisesHold_cons]
  rcases f.valuate v with error | (_ | _) <;> rfl

/-- Premises are valuated like their conjunction, from the first one that is there. -/
theorem premisesHold_cons_eq_conjunction (first : Formula) (rest : List Formula) :
    premisesHold v (first :: rest) = (Formula.conjunction first rest).valuate v := by
  induction rest generalizing first with
  | nil => exact premisesHold_singleton first
  | cons next rest ih => rw [premisesHold_cons, ih, Formula.conjunction, Formula.valuate_conj]

theorem premisesHold_eq (premises : List Formula) :
    premisesHold v premises = Formula.valuate? v (Formula.conjunction? premises) := by
  cases premises with
  | nil => rfl
  | cons first rest => exact premisesHold_cons_eq_conjunction first rest

theorem premisesHold_of_forall {premises : List Formula}
    (h : ∀ premise ∈ premises, premise.valuate v = .ok true) :
    premisesHold v premises = .ok true := by
  induction premises with
  | nil => rfl
  | cons f rest ih =>
    obtain ⟨hf, hrest⟩ := List.forall_mem_cons.1 h
    rw [premisesHold, hf]
    exact ih hrest

/-! ### Premises and conclusion -/

/-- An argument is false where its premises are true and its conclusion is false. -/
theorem valuate_of_refuted {a : Argument} {conclusion : Formula}
    (hc : a.conclusion? = some conclusion)
    (hpremises : ∀ premise ∈ a.premises, premise.valuate v = .ok true)
    (hconclusion : conclusion.valuate v = .ok false) : a.valuate v = .ok false := by
  simp only [valuate, premisesHold_of_forall hpremises, hc, hconclusion]
  rfl

/-- **The premises decide first, then the conclusion.**  The result of an argument is the error of
the conjunction of its premises if there is one, else the error of its conclusion, even when a
premise is false, and else whether both are true; premises or a conclusion that are absent count as
true.  So a counter-example makes the argument false. -/
theorem valuate_as_conjunction (a : Argument) :
    (∀ v, a.valuate v =
      match Formula.valuate? v (Formula.conjunction? a.premises),
        Formula.valuate? v a.conclusion? with
      | .error error, _ => .error error
      | .ok _, .error error => .error error
      | .ok premises, .ok conclusion => .ok (premises && conclusion)) ∧
    ∀ row, a.counterExample? = .ok (some row) → a.valuate row = .ok false := by
  refine ⟨fun v => ?_, fun row hrow => ?_⟩
  · rw [valuate, premisesHold_eq]
    rcases Formula.valuate? v (Formula.conjunction? a.premises) with error | premises
    · rfl
    · cases a.conclusion? with
      | none => exact congrArg Except.ok (Bool.and_true premises).symm
      | some conclusion =>
        simp only [Formula.valuate?]
        cases conclusion.valuate v <;> rfl
  · cases hc : a.conclusion? with
    | none => simp [counterExample?, findCounterExample, hc] at hrow
    | some conclusion =>
      obtain ⟨-, hfirst⟩ := firstRefutation_of_counterExample?_some hc hrow
      exact valuate_of_refuted hc hfirst.premises (hfirst.conclusion conclusion hc)

/-- With `P` false, `P, Q ∴ R` misses `R` and not `Q`; with a value for `R` it is false.  Affirming
the consequent, `Q, (P → Q) ∴ P`, is false in the row that refutes it. -/
theorem conclusion_missed_after_false_premise :
    let a : Argument := ⟨[.atom "P", .atom "Q"], some (.atom "R")⟩
    let v : Valuation := Table.empty.insert "P" false
    let fallacy : Argument := ⟨[.atom "Q", .imp (.atom "P") (.atom "Q")], some (.atom "P")⟩
    let row : Valuation := TruthTable.row ["P", "Q"] [false, true]
    a.valuate v = .error ⟨"R"⟩ ∧ a.valuate (v.insert "R" true) = .ok false ∧
      fallacy.counterExample? = .ok (some row) ∧ fallacy.valuate row = .ok false := by
  intro a v fallacy row
  have htable : TruthTable.ofNames (TruthTable.namesOf (fallacy.refutation (.atom "P"))) =
      ⟨["P", "Q"], some [false, false]⟩ := rfl
  have hnext : TruthTable.succ? [false, false] = some [false, true] := rfl
  have hfound : fallacy.counterExample? = .ok (some row) := by
    -- the first row does not make `Q` true, the second one refutes the argument
    rw [counterExample?_eq rfl, htable, TruthTable.search, TruthTable.searchAfter_some,
      if_neg (by decide), hnext, TruthTable.searchAfter_some, if_pos (by decide)]
  exact ⟨(valuate_as_conjunction a).1 v, (valuate_as_conjunction a).1 (v.insert "R" true), hfound,
    (valuate_as_conjunction fallacy).2 row hfound⟩

end Argument

end Entailment
