import Entailment.Proofs.Rows

/-!
# Valuations that leave names out

A formula can have a truth value under a valuation that leaves out some of its names, when the
sides on which these names stand are skipped.  Such a value is final, whatever the missing names may
turn out to be, and a name that is found missing is missed no more once it has a value:

* `Formula.valuate_conj`, `Formula.valuate_disj`, `Formula.valuate_imp` : the three connectives are
  one rule for skipping the right side (`Formula.shortCircuit`);
* `Formula.valuate_of_extends_atoms` : a truth value stays when more names get values, and so it is
  the value under every assignment to all names (`Formula.eval_of_valuate`);
* `Formula.missing_of_valuate` : what is reported is an atom without a value;
* `Formula.valuate_congr_atoms` : nothing but the values of the atoms matters;
* `Formula.partial_valuation_persists` : **partial valuations are sound and monotone.**
-/

namespace Entailment

/-! ### Valuations and their extensions -/

namespace Valuation

/-- `w` keeps the value of every name that has one under `v`. -/
def Extends (w v : Valuation) : Prop :=
  ∀ name value, v.get? name = some value → w.get? name = some value

/-- `w` gives a value to every name, and keeps the values of the names that have one under `v`. -/
def CompletedBy (v : Valuation) (w : String → Bool) : Prop :=
  ∀ name value, v.get? name = some value → w name = value

theorem Extends.refl (v : Valuation) : v.Extends v := fun _ _ h => h

/-- Giving a value to a name without one extends a valuation. -/
theorem extends_insert {v : Valuation} {name : String} (h : v.get? name = none) (value : Bool) :
    Extends (v.insert name value) v := by
  intro other known hother
  have hne : other ≠ name := by
    rintro rfl
    rw [h] at hother
    cases hother
  rw [Table.get?_insert, if_neg hne, hother]

end Valuation

namespace Formula

/-! ### Connectives that skip their right side -/

/-- The result of a connective from those of its sides: the right one is skipped when the left one
is the value `skip`, and the result is `skipped` then. -/
def shortCircuit (skip skipped : Bool) (left right : Except MissingValue Bool) :
    Except MissingValue Bool :=
  match left with
  | .ok value => if value = skip then .ok skipped else right
  | .error error => .error error

variable {left right : Formula} {v w : Valuation}

theorem valuate_conj :
    (conj left right).valuate v = shortCircuit false false (left.valuate v) (right.valuate v) := by
  rw [valuate]
  rcases left.valuate v with error | (_ | _) <;> rfl

theorem valuate_disj :
    (disj left right).valuate v = shortCircuit true true (left.valuate v) (right.valuate v) := by
  rw [valuate]
  rcases left.valuate v with error | (_ | _) <;> rfl

theorem valuate_imp :
    (imp left right).valuate v = shortCircuit false true (left.valuate v) (right.valuate v) := by
  rw [valuate]
  rcases left.valuate v with error | (_ | _) <;> rfl

/-- A connective has a value by its left side alone, or by its right side. -/
theorem shortCircuit_eq_ok_iff {skip skipped value : Bool} {l r : Except MissingValue Bool} :
    shortCircuit skip skipped l r = .ok value ↔
      l = .ok skip ∧ skipped = value ∨ l = .ok (!skip) ∧ r = .ok value := by
  rcases l with error | side
  · simp [shortCircuit]
  · cases side <;> cases skip <;> simp [shortCircuit]

/-- A connective misses what its left side misses, or what its right side misses if that is
reached. -/
theorem shortCircuit_eq_error_iff {skip skipped : Bool} {l r : Except MissingValue Bool}
    {error : MissingValue} :
    shortCircuit skip skipped l r = .error error ↔
      l = .error error ∨ l = .ok (!skip) ∧ r = .error error := by
  rcases l with missed | side
  · simp [shortCircuit]
  · cases side <;> cases skip <;> simp [shortCircuit]

/-! ### Truth values -/

/-- A truth value stays when the valuation is extended on the atoms of the formula. -/
theorem valuate_of_extends_atoms {f : Formula} {value : Bool}
    (hw : ∀ name ∈ f.atoms, ∀ known, v.get? name = some known → w.get? name = some known)
    (h : f.valuate v = .ok value) : f.valuate w = .ok value := by
  induction f generalizing value with
  | atom name =>
    rw [valuate] at h
    split at h
    · next known hknown =>
      rw [valuate, hw name (List.mem_singleton_self name) known hknown]
      exact h
    · cases h
  | neg inner ih =>
    rw [valuate] at h
    split at h
    · next known hknown =>
      rw [valuate, ih hw hknown]
      exact h
    · cases h
  | conj left right ihl ihr | disj left right ihl ihr | imp left right ihl ihr =>
    -- what is skipped under `v` is skipped under `w`, for the left side keeps its value
    have hl : ∀ side, left.valuate v = .ok side → left.valuate w = .ok side :=
      fun _ => ihl fun name hn => hw name (List.mem_append_left _ hn)
    have hr : right.valuate v = .ok value → right.valuate w = .ok value :=
      ihr fun name hn => hw name (List.mem_append_right _ hn)
    simp only [valuate_conj, valuate_disj, valuate_imp, shortCircuit_eq_ok_iff] at h ⊢
    exact h.imp (And.imp_left (hl _)) (And.imp (hl _) hr)

/-- A truth value is the one under every assignment to all names that keeps the known values. -/
theorem eval_of_valuate {f : Formula} {value : Bool} {total : String → Bool}
    (ht : v.CompletedBy total) (h : f.valuate v = .ok value) : f.eval total = value := by
  -- cut down to the atoms the assignment is a valuation, which extends `v` on the atoms only
  have hagrees : (TruthTable.assign f.atoms total).Agrees total f.atoms :=
    TruthTable.agrees_assign total fun _ hn => hn
  have hkept : f.valuate (TruthTable.assign f.atoms total) = .ok value := by
    refine valuate_of_extends_atoms (fun name hn known hknown => ?_) h
    rw [hagrees name hn, ht name known hknown]
  rw [valuate_eq_eval hagrees, Except.ok.injEq] at hkept
  exact hkept

/-! ### Missing values -/

/-- A name that is reported is an atom of the formula, and has no value. -/
theorem missing_of_valuate {f : Formula} {error : MissingValue} (h : f.valuate v = .error error) :
    error.name ∈ f.atoms ∧ v.get? error.name = none := by
  induction f with
  | atom name =>
    rw [valuate] at h
    split at h
    · cases h
    · next hnone =>
      cases h
      exact ⟨List.mem_singleton_self name, hnone⟩
  | neg inner ih =>
    rw [valuate] at h
    split at h
    · cases h
    · next missed hmissed =>
      cases h
      exact ih hmissed
  | conj left right ihl ihr | disj left right ihl ihr | imp left right ihl ihr =>
    simp only [valuate_conj, valuate_disj, valuate_imp, shortCircuit_eq_error_iff] at h
    rcases h with h | ⟨-, h⟩
    · exact (ihl h).imp_left (List.mem_append_left _)
    · exact (ihr h).imp_left (List.mem_append_right _)

/-- Nothing is missing when every atom has a value. -/
theorem exists_valuate_of_forall_isSome {f : Formula}
    (h : ∀ name ∈ f.atoms, (v.get? name).isSome) : ∃ value, f.valuate v = .ok value := by
  cases hf : f.valuate v with
  | ok value => exact ⟨value, rfl⟩
  | error error =>
    obtain ⟨hmem, hnone⟩ := missing_of_valuate hf
    have hsome := h error.name hmem
    rw [hnone] at hsome
    cases hsome

/-- The result depends on nothing but the values of the atoms. -/
theorem valuate_congr_atoms {f : Formula} (h : ∀ name ∈ f.atoms, v.get? name = w.get? name) :
    f.valuate v = f.valuate w := by
  induction f with
  | atom name => rw [valuate, valuate, h name (List.mem_singleton_self name)]
  | neg inner ih => rw [valuate, valuate, ih h]
  | conj left right ihl ihr | disj left right ihl ihr | imp left right ihl ihr =>
    have hl := ihl fun name hn => h name (List.mem_append_left _ hn)
    have hr := ihr fun name hn => h name (List.mem_append_right _ hn)
    rw [valuate, valuate, hl, hr]

/-- **Partial valuations are sound and monotone.**  A truth value under a valuation is kept by all
its extensions, and it is the truth value under every assignment to all names that keeps the known
values.  A name that is reported instead is an atom without a value, and once it has one, no further
valuation reports it again.  A valuation of all atoms has a result, and valuations that give the
same values to the atoms have the same result. -/
theorem partial_valuation_persists (f : Formula) (v : Valuation) :
    (∀ value, f.valuate v = .ok value →
      (∀ w : Valuation, w.Extends v → f.valuate w = .ok value) ∧
      ∀ total, v.CompletedBy total → f.eval total = value) ∧
    (∀ error, f.valuate v = .error error →
      error.name ∈ f.atoms ∧ v.get? error.name = none ∧
      ∀ (value : Bool) (w : Valuation), w.Extends (v.insert error.name value) →
        f.valuate w ≠ .error error) ∧
    ((∀ name ∈ f.atoms, (v.get? name).isSome) → ∃ value, f.valuate v = .ok value) ∧
    ∀ w : Valuation, (∀ name ∈ f.atoms, v.get? name = w.get? name) →
      f.valuate v = f.valuate w := by
  refine ⟨fun value h => ⟨fun w hw => ?_, fun total ht => eval_of_valuate ht h⟩,
    fun error h => ?_, exists_valuate_of_forall_isSome, fun w => valuate_congr_atoms⟩
  · exact valuate_of_extends_atoms (fun name _ => hw name) h
  · obtain ⟨hmem, hnone⟩ := missing_of_valuate h
    refine ⟨hmem, hnone, fun value w hw hagain => ?_⟩
    have hvalue : w.get? error.name = some value := hw _ _ (by simp)
    rw [(missing_of_valuate hagain).2] at hvalue
    cases hvalue

/-- With `P` false and no other value, `((P ∧ Q) ∨ R)` skips `Q` and misses `R`.  With `R` true as
well it is true although `Q` has no value, and so it is with any value for `Q`. -/
theorem skipped_side_never_matters :
    let f : Formula := .disj (.conj (.atom "P") (.atom "Q")) (.atom "R")
    let v : Valuation := Table.empty.insert "P" false
    let w : Valuation := v.insert "R" true
    f.valuate v = .error ⟨"R"⟩ ∧ v.get? "R" = none ∧ f.valuate w ≠ .error ⟨"R"⟩ ∧
      f.valuate w = .ok true ∧ w.get? "Q" = none ∧
      (∀ value, f.valuate (w.insert "Q" value) = .ok true) ∧
      (∀ total, w.CompletedBy total → f.eval total = true) ∧
      (∃ value, f.valuate (w.insert "Q" true) = .ok value) ∧
      f.valuate (w.insert "S" true) = f.valuate w := by
  intro f v w
  have hmissing : f.valuate v = .error ⟨"R"⟩ := by decide
  have htrue : f.valuate w = .ok true := by decide
  obtain ⟨-, hnone, hnever⟩ := (partial_valuation_persists f v).2.1 _ hmissing
  obtain ⟨hkept, htotal⟩ := (partial_valuation_persists f w).1 true htrue
  have hunknown : w.get? "Q" = none := by decide
  refine ⟨hmissing, hnone, hnever true w (.refl w), htrue, hunknown,
    fun value => hkept _ (Valuation.extends_insert hunknown value), htotal, ?_, ?_⟩
  · exact (partial_valuation_persists f _).2.2.1 (by decide)
  · exact (partial_valuation_persists f _).2.2.2 w (by decide)

end Formula

end Entailment
