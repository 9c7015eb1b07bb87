import Entailment.Proofs.Tautology

/-!
# The deduction theorem

Validity and tautology are decided on different truth tables: the one looks for a row that makes the
negated conclusion and then every premise true, the other for a row that makes a single formula
false.  An argument is nevertheless valid exactly when the conditional
`p₁ → (p₂ → … (pₙ → conclusion))` of its parts is a tautology:

* `Formula.eval_conditional_eq_false_iff` : what makes the conditional false;
* `Argument.exists_isValid_iff`, `Argument.exists_isTautology_iff` : each check has a verdict, and
  what the verdict means;
* `Argument.isValid_eq_isTautology` : **the two checks agree.**
-/

namespace Entailment

namespace Formula

/-- The conditional `p₁ → (p₂ → … (pₙ → conclusion))` of some premises. -/
def conditional (premises : List Formula) (conclusion : Formula) : Formula :=
  premises.foldr imp conclusion

theorem eval_imp_eq_false_iff {left right : Formula} {v : String → Bool} :
    (imp left right).eval v = false ↔ left.eval v = true ∧ right.eval v = false := by
  rw [eval, Bool.or_eq_false_iff, Bool.not_eq_false']

/-- An assignment makes the conditional false when it makes every premise true and the conclusion
false. -/
theorem eval_conditional_eq_false_iff {premises : List Formula} {conclusion : Formula}
    {v : String → Bool} :
    (conditional premises conclusion).eval v = false ↔
      (∀ premise ∈ premises, premise.eval v = true) ∧ conclusion.eval v = false := by
  induction premises with
  | nil => simp [conditional]
  | cons premise rest ih =>
    have hstep : (conditional (premise :: rest) conclusion).eval v = false ↔
        premise.eval v = true ∧ (conditional rest conclusion).eval v = false :=
      eval_imp_eq_false_iff
    rw [hstep, ih, List.forall_mem_cons, and_assoc]

end Formula

namespace Argument

variable {a : Argument}

/-- An argument with a conclusion has a verdict on its validity: whether nothing refutes it. -/
theorem exists_isValid_iff {conclusion : Formula} (hc : a.conclusion? = some conclusion) :
    ∃ verdict, a.isValid = .ok verdict ∧ (verdict = true ↔ ∀ v, ¬ a.RefutedBy v) := by
  obtain ⟨found, hfound⟩ : ∃ found, a.counterExample? = .ok found := ⟨_, counterExample?_eq hc⟩
  refine ⟨found.isNone, by rw [isValid_eq, hfound]; rfl, ?_⟩
  cases found with
  | none => simpa using not_refutedBy_of_counterExample?_none hc hfound
  | some row =>
    obtain ⟨⟨v, hv⟩, -⟩ := firstRefutation_of_counterExample?_some hc hfound
    simpa using ⟨v, hv⟩

/-- A single formula has a verdict on being a tautology: whether every assignment makes it true. -/
theorem exists_isTautology_iff {f : Formula} (h : a.IsSingle f) :
    ∃ verdict, a.isTautology = .ok verdict ∧ (verdict = true ↔ ∀ v, f.eval v = true) := by
  obtain ⟨verdict, hverdict⟩ : ∃ verdict, a.isTautology = .ok verdict := ⟨_, isTautology_eq h⟩
  refine ⟨verdict, hverdict, ?_⟩
  cases verdict with
  | true => simpa using eval_of_isTautology_true h hverdict
  | false => simpa using exists_eval_of_isTautology_false h hverdict

/-- Nothing refutes an argument when every assignment makes its conditional true. -/
theorem forall_not_refutedBy_iff (premises : List Formula) (conclusion : Formula) :
    (∀ v, ¬ (Argument.mk premises (some conclusion)).RefutedBy v) ↔
      ∀ v, (Formula.conditional premises conclusion).eval v = true := by
  refine forall_congr' fun v => ?_
  rw [← Bool.not_eq_false, Formula.eval_conditional_eq_false_iff]
  simp [RefutedBy]

/-- The same verdict is the answer to both questions. -/
theorem exists_isValid_and_isTautology (premises : List Formula) (conclusion : Formula) :
    ∃ verdict, isValid ⟨premises, some conclusion⟩ = .ok verdict ∧
      isTautology ⟨[Formula.conditional premises conclusion], none⟩ = .ok verdict := by
  obtain ⟨valid, hvalid, hmeans⟩ := exists_isValid_iff (a := ⟨premises, some conclusion⟩) rfl
  obtain ⟨tautology, htautology, hmeans'⟩ :=
    exists_isTautology_iff (a := ⟨[Formula.conditional premises conclusion], none⟩) ⟨rfl, rfl⟩
  have hsame : valid = tautology := by
    rw [Bool.eq_iff_iff, hmeans, hmeans', forall_not_refutedBy_iff]
  exact ⟨valid, hvalid, hsame ▸ htautology⟩

/-- **The two checks agree.**  An argument with a conclusion has a verdict on its validity, and it
is the verdict on whether the conditional of its premises and its conclusion is a tautology.  In
particular an argument without premises is valid exactly when its conclusion is a tautology. -/
theorem isValid_eq_isTautology (premises : List Formula) (conclusion : Formula) :
    isValid ⟨premises, some conclusion⟩ =
      isTautology ⟨[Formula.conditional premises conclusion], none⟩ ∧
    (∃ verdict, isValid ⟨premises, some conclusion⟩ = .ok verdict) ∧
    (isValid ⟨[], some conclusion⟩ = .ok true ↔ isTautology ⟨[conclusion], none⟩ = .ok true) := by
  obtain ⟨verdict, hvalid, htautology⟩ := exists_isValid_and_isTautology premises conclusion
  obtain ⟨alone, hvalid', htautology'⟩ := exists_isValid_and_isTautology [] conclusion
  rw [Formula.conditional, List.foldr_nil] at htautology'
  exact ⟨hvalid.trans htautology.symm, ⟨verdict, hvalid⟩, by rw [hvalid', htautology']⟩

end Argument

end Entailment
