import Entailment.Argument.Verdict
import Entailment.Proofs.Rows

/-!
# Validity is decided

An argument with a conclusion is valid when no assignment of truth values to all names makes its
premises true and its conclusion false.

* `Formula.allHold_iff` : all formulas hold in a row exactly when its assignment makes them true;
* `TruthTable.mem_namesOf` : the table over some formulas has a column for each of their atoms;
* `Argument.validity_decided` : **the search for a counter-example is sound and complete**, and what
  it finds is the first counter-example.
-/

namespace Entailment

/-! ### Tables over formulas -/

namespace TruthTable

/-- The names of the truth table over some formulas. -/
def namesOf (formulas : List Formula) : List String :=
  Name.sort (formulas.flatMap Formula.names)

@[simp] theorem value_ofFormulas (formulas : List Formula) :
    (ofFormulas formulas).value = ofNames (namesOf formulas) := rfl

theorem mem_namesOf {formulas : List Formula} {name : String} :
    name ∈ namesOf formulas ↔ name ∈ formulas.flatMap Formula.atoms := by
  simp [namesOf]

theorem namesOf_ne_nil {formulas : List Formula} (h : formulas ≠ []) : namesOf formulas ≠ [] := by
  obtain ⟨f, hf⟩ := List.exists_mem_of_ne_nil _ h
  obtain ⟨name, hn⟩ := List.exists_mem_of_ne_nil _ f.atoms_ne_nil
  exact List.ne_nil_of_mem (mem_namesOf.2 (List.mem_flatMap.2 ⟨f, hf, hn⟩))

end TruthTable

namespace Formula

/-- Under a valuation of all atoms, all formulas hold exactly when all of them are true. -/
theorem allHold_iff {formulas : List Formula} {v : Valuation} {w : String → Bool}
    (h : v.Agrees w (formulas.flatMap atoms)) :
    (allHold formulas v).value = true ↔ ∀ f ∈ formulas, f.eval w = true := by
  induction formulas with
  | nil => simp [allHold]
  | cons f rest ih =>
    have hf : f.valuate v = .ok (f.eval w) :=
      valuate_eq_eval fun name hn => h name (List.mem_append_left _ hn)
    have hrest := ih fun name hn => h name (List.mem_append_right _ hn)
    rw [allHold, hf, List.forall_mem_cons]
    cases f.eval w with
    | true => simpa using hrest
    | false => simp

end Formula

namespace Argument

/-! ### Counter-examples -/

/-- `v` makes the premises true and the conclusion false. -/
def RefutedBy (a : Argument) (v : String → Bool) : Prop :=
  (∀ premise ∈ a.premises, premise.eval v = true) ∧
    ∀ conclusion ∈ a.conclusion?, conclusion.eval v = false

/-- `row` is the first assignment to the names of an argument that refutes it. -/
structure FirstRefutation (a : Argument) (row : Valuation) : Prop where
  /-- The row has a value for the names of the argument and for no others. -/
  keys : ∀ name, name ∈ row.keys ↔ name ∈ a.atoms
  /-- The premises are true. -/
  premises : ∀ premise ∈ a.premises, premise.valuate row = .ok true
  /-- The conclusion is false. -/
  conclusion : ∀ conclusion ∈ a.conclusion?, conclusion.valuate row = .ok false
  /-- Any other refuting assignment comes later. -/
  first : ∀ v, a.RefutedBy v → row.Agrees v a.atoms ∨ row.Precedes v a.atoms

/-- The formulas that are all true exactly under the assignments that refute an argument. -/
def refutation (a : Argument) (conclusion : Formula) : List Formula :=
  .neg conclusion :: a.premises

variable {a : Argument} {conclusion : Formula}

theorem refutation_ne_nil : a.refutation conclusion ≠ [] := List.cons_ne_nil _ _

theorem mem_namesOf_refutation (hc : a.conclusion? = some conclusion) (name : String) :
    name ∈ TruthTable.namesOf (a.refutation conclusion) ↔ name ∈ a.atoms := by
  rw [TruthTable.mem_namesOf]
  simp only [refutation, atoms, formulas, hc, Option.toList_some, List.flatMap_cons,
    List.flatMap_append, List.flatMap_nil, List.append_nil, List.mem_append, Formula.atoms]
  exact or_comm

theorem refutedBy_iff (hc : a.conclusion? = some conclusion) {v : String → Bool} :
    a.RefutedBy v ↔ ∀ f ∈ a.refutation conclusion, f.eval v = true := by
  simp only [RefutedBy, refutation, hc, Option.mem_some_iff, forall_eq', List.forall_mem_cons,
    Formula.eval, Bool.not_eq_true']
  exact and_comm

/-- A row refutes an argument when its assignment does. -/
theorem allHold_assign_iff (hc : a.conclusion? = some conclusion) (v : String → Bool) :
    (Formula.allHold (a.refutation conclusion)
      (TruthTable.assign (TruthTable.namesOf (a.refutation conclusion)) v)).value = true ↔
      a.RefutedBy v := by
  rw [refutedBy_iff hc]
  exact Formula.allHold_iff
    (TruthTable.agrees_assign v fun name hn => TruthTable.mem_namesOf.2 hn)

theorem counterExample?_eq (hc : a.conclusion? = some conclusion) :
    a.counterExample? =
      .ok ((TruthTable.ofNames (TruthTable.namesOf (a.refutation conclusion))).search
        (Formula.allHold (a.refutation conclusion))).value := by
  simp only [counterExample?, findCounterExample, hc, Logged.value_bind,
    TruthTable.value_ofFormulas, refutation]
  generalize (TruthTable.search _ _).value = found
  cases found with
  | none => rfl
  | some values => rfl

/-- Nothing is found only if nothing refutes the argument. -/
theorem not_refutedBy_of_counterExample?_none (hc : a.conclusion? = some conclusion)
    (h : a.counterExample? = .ok none) (v : String → Bool) : ¬ a.RefutedBy v := by
  rw [counterExample?_eq hc, Except.ok.injEq] at h
  have hv := TruthTable.refused_of_search_eq_none (TruthTable.namesOf_ne_nil refutation_ne_nil) h v
  rw [← allHold_assign_iff hc, hv]
  exact Bool.false_ne_true

/-- What is found is the first refutation of the argument. -/
theorem firstRefutation_of_counterExample?_some (hc : a.conclusion? = some conclusion)
    {row : Valuation} (h : a.counterExample? = .ok (some row)) :
    (∃ v, a.RefutedBy v) ∧ a.FirstRefutation row := by
  rw [counterExample?_eq hc, Except.ok.injEq] at h
  obtain ⟨v, rfl, hv, hfirst⟩ := TruthTable.first_of_search_eq_some
    (TruthTable.namesOf_ne_nil refutation_ne_nil) (Name.pairwise_sort _) h
  have hr := (allHold_assign_iff hc v).1 hv
  have hagrees : ∀ f ∈ a.formulas,
      f.valuate (TruthTable.assign (TruthTable.namesOf (a.refutation conclusion)) v) =
        .ok (f.eval v) := by
    intro f hf
    refine Formula.valuate_eq_eval (TruthTable.agrees_assign v fun name hn => ?_)
    exact (mem_namesOf_refutation hc name).2 (List.mem_flatMap.2 ⟨f, hf, hn⟩)
  refine ⟨⟨v, hr⟩, ?_, ?_, ?_, ?_⟩
  · intro name
    rw [TruthTable.mem_keys_assign, mem_namesOf_refutation hc]
  · intro premise hp
    rw [hagrees premise (List.mem_append_left _ hp), hr.1 premise hp]
  · intro c hc'
    rw [hagrees c (List.mem_append_right _ (Option.mem_toList.2 hc')), hr.2 c hc']
  · intro w hw
    -- the names of the table are those of the argument, in another order
    have hmem := mem_namesOf_refutation hc
    rcases hfirst w ((allHold_assign_iff hc w).2 hw) with hw | ⟨name, hn, hrow, hname, hbelow⟩
    · exact .inl fun name hn => hw name ((hmem name).2 hn)
    · exact .inr ⟨name, (hmem name).1 hn, hrow, hname,
        fun other ho hlt => hbelow other ((hmem other).2 ho) hlt⟩

theorem isValid_eq (a : Argument) : a.isValid = a.counterExample?.map Option.isNone := rfl

/-- **Validity is decided.**  An argument with a conclusion is found valid, and has no
counter-example, exactly when no assignment refutes it.  Otherwise it is found not to be valid, and
its counter-example is the first assignment that refutes it.  Without a conclusion the question is
refused. -/
theorem validity_decided (a : Argument) :
    (a.conclusion? = none →
      a.counterExample? = .error .missingConclusion ∧ a.isValid = .error .missingConclusion) ∧
    (a.conclusion?.isSome →
      (a.counterExample? = .ok none ↔ ∀ v, ¬ a.RefutedBy v) ∧
      (a.isValid = .ok true ↔ ∀ v, ¬ a.RefutedBy v) ∧
      ((∃ v, a.RefutedBy v) →
        a.isValid = .ok false ∧ ∃ row, a.counterExample? = .ok (some row)) ∧
      ∀ row, a.counterExample? = .ok (some row) → a.FirstRefutation row) := by
  refine ⟨fun hc => ?_, fun hc => ?_⟩
  · have h : a.counterExample? = .error .missingConclusion := by
      simp [counterExample?, findCounterExample, hc]
    exact ⟨h, by rw [isValid_eq, h]; rfl⟩
  · obtain ⟨conclusion, hc⟩ := Option.isSome_iff_exists.1 hc
    obtain ⟨found, hfound⟩ : ∃ found, a.counterExample? = .ok found := ⟨_, counterExample?_eq hc⟩
    have hvalid : a.isValid = .ok found.isNone := by rw [isValid_eq, hfound]; rfl
    cases found with
    | none =>
      have hnone := not_refutedBy_of_counterExample?_none hc hfound
      refine ⟨⟨fun _ => hnone, fun _ => hfound⟩, ⟨fun _ => hnone, fun _ => hvalid⟩, ?_, ?_⟩
      · rintro ⟨v, hv⟩
        exact absurd hv (hnone v)
      · intro row hrow
        rw [hfound] at hrow
        cases hrow
    | some values =>
      obtain ⟨⟨v, hv⟩, hfirst⟩ := firstRefutation_of_counterExample?_some hc hfound
      have hsome : ¬ ∀ v, ¬ a.RefutedBy v := fun h => h v hv
      refine ⟨⟨fun h => ?_, fun h => absurd h hsome⟩, ⟨fun h => ?_, fun h => absurd h hsome⟩,
        fun _ => ⟨hvalid, values, hfound⟩, fun row hrow => ?_⟩
      · rw [hfound] at h
        cases h
      · rw [hvalid] at h
        cases h
      · rw [hfound] at hrow
        cases hrow
        exact hfirst

/-- Affirming the consequent, `Q, (P → Q) ∴ P`, is refuted by the assignment that makes only `Q`
true, so it is found not to be valid and to have a counter-example. -/
theorem affirming_the_consequent_refuted :
    let a : Argument := ⟨[.atom "Q", .imp (.atom "P") (.atom "Q")], some (.atom "P")⟩
    a.conclusion?.isSome ∧ a.RefutedBy (fun name => name == "Q") ∧ a.isValid = .ok false ∧
      ∃ row, a.counterExample? = .ok (some row) ∧ a.FirstRefutation row := by
  intro a
  have hr : a.RefutedBy (fun name => name == "Q") := by simp [RefutedBy, a, Formula.eval]
  have h := (validity_decided a).2 rfl
  obtain ⟨hvalid, row, hrow⟩ := h.2.2.1 ⟨_, hr⟩
  exact ⟨rfl, hr, hvalid, row, hrow, h.2.2.2 row hrow⟩

end Argument

end Entailment
