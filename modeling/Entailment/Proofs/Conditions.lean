import Entailment.Proofs.PartialValuation

/-!
# What conditions say

The conditions of a formula are listed by its outermost connective, and each side enters only with
its first condition (`Formula.leadingCondition`), which is found by a recursion of its own.  Two
things can be asked of them.  They have to mention every atom, since it is from them that the names
of a formula are gathered:

* `Formula.head?_conditions` : the first condition is the leading one;
* `Formula.conditions_account_for_atoms` : **every condition has the atoms of the formula as its
  leaves**, and so the names gathered from them are those of the atoms.

And they have to mean what they say, although nothing ever valuates them:

* `Formula.valuate_of_leadingCondition`, `Formula.valuate_of_rows` : what holds of the first
  conditions of both sides holds of every pair that a connective lists;
* `Condition.exists_metBy` : a condition without repeated names can be met;
* `Formula.conditions_sound` : **a formula has the value in question under every valuation that
  meets one of its conditions.**
-/

namespace Entailment

/-! ### Leaves -/

namespace Formula

/-- The leading condition is the first of the conditions. -/
theorem head?_conditions (f : Formula) (value : Bool) :
    (f.conditions value).head? = some (f.leadingCondition value) := by
  induction f generalizing value with
  | atom name => rfl
  | neg inner ih => exact ih (!value)
  | conj left right | disj left right | imp left right => cases value <;> rfl

end Formula

/-- The names of an argument are those of the atoms of its premises and of its conclusion. -/
theorem Argument.mem_names {a : Argument} {name : String} :
    name ∈ a.names ↔ (∃ premise ∈ a.premises, name ∈ premise.atoms) ∨
      ∃ conclusion ∈ a.conclusion?, name ∈ conclusion.atoms := by
  simp [names, formulas]

/-- **Conditions account for every atom.**  The leaves of every condition of a formula are its atoms
from left to right, with repetitions; there is always a condition, and the first one is the leading
one.  So the names of a formula are exactly those of its atoms, and the names of an argument those
of the atoms of its premises and of its conclusion, each in strictly ascending order. -/
theorem Formula.conditions_account_for_atoms :
    (∀ (f : Formula) (value : Bool),
      (∀ condition ∈ f.conditions value, condition.atoms = f.atoms) ∧
      f.conditions value ≠ [] ∧
      (f.conditions value).head? = some (f.leadingCondition value)) ∧
    (∀ f : Formula, (∀ name, name ∈ f.names ↔ name ∈ f.atoms) ∧
      f.names.Pairwise fun x y => x < y) ∧
    ∀ a : Argument, (∀ name, name ∈ a.names ↔
        (∃ premise ∈ a.premises, name ∈ premise.atoms) ∨
          ∃ conclusion ∈ a.conclusion?, name ∈ conclusion.atoms) ∧
      a.names.Pairwise fun x y => x < y := by
  refine ⟨fun f value => ⟨fun condition => atoms_of_mem_conditions, f.conditions_ne_nil value,
    f.head?_conditions value⟩, fun f => ⟨fun name => mem_names, Name.pairwise_sort _⟩, fun a => ?_⟩
  exact ⟨fun name => Argument.mem_names, Name.pairwise_sort _⟩

/-- In the last condition for the truth of `((P ∧ Q) → ¬P)` the name `P` stands at two leaves, with
opposite values; still the leaves are the atoms, and no name is lost. -/
theorem Formula.repeated_atom_accounted :
    let f : Formula := .imp (.conj (.atom "P") (.atom "Q")) (.neg (.atom "P"))
    let condition : Condition := .both (.both (.forced "P" true) (.forced "Q" true))
      (.forced "P" false)
    condition ∈ f.conditions true ∧ condition.atoms = f.atoms ∧ f.atoms = ["P", "Q", "P"] ∧
      condition ≠ f.leadingCondition true ∧
      "Q" ∈ f.names ∧ "R" ∈ Argument.names ⟨[f], some (.atom "R")⟩ := by
  intro f condition
  have hmem : condition ∈ f.conditions true := by decide
  obtain ⟨hconditions, hformula, hargument⟩ := conditions_account_for_atoms
  refine ⟨hmem, (hconditions f true).1 condition hmem, rfl, by decide,
    ((hformula f).1 "Q").2 (by decide), ((hargument _).1 "R").2 (.inr ?_)⟩
  exact ⟨.atom "R", rfl, by decide⟩

/-! ### Meaning -/

namespace Condition

/-- The valuation gives every leaf the value that the condition asks for; a free leaf asks for
none. -/
def MetBy (v : Valuation) : Condition → Prop
  | forced name value => v.get? name = some value
  | free _ => True
  | both left right => left.MetBy v ∧ right.MetBy v

instance decidableMetBy (v : Valuation) : (c : Condition) → Decidable (c.MetBy v)
  | forced name value => inferInstanceAs (Decidable (v.get? name = some value))
  | free _ => inferInstanceAs (Decidable True)
  | both left right =>
    have := decidableMetBy v left
    have := decidableMetBy v right
    inferInstanceAs (Decidable (left.MetBy v ∧ right.MetBy v))

/-- Values for the leaves that meet a condition, if no name stands at two of them. -/
theorem exists_agrees_metBy {c : Condition} (h : c.atoms.Nodup) :
    ∃ total : String → Bool, ∀ v : Valuation, v.Agrees total c.atoms → c.MetBy v := by
  induction c with
  | forced name value => exact ⟨fun _ => value, fun v hv => hv name (List.mem_singleton_self name)⟩
  | free name => exact ⟨fun _ => false, fun _ _ => trivial⟩
  | both left right ihl ihr =>
    obtain ⟨hleft, hright, hdisjoint⟩ := List.nodup_append.1 h
    obtain ⟨l, hl⟩ := ihl hleft
    obtain ⟨r, hr⟩ := ihr hright
    -- a name at a leaf of the right side is at no leaf of the left one
    refine ⟨fun name => if name ∈ left.atoms then l name else r name, fun v hv => ⟨?_, ?_⟩⟩
    · refine hl v fun name hn => (hv name (List.mem_append_left _ hn)).trans ?_
      exact congrArg some (if_pos hn)
    · refine hr v fun name hn => (hv name (List.mem_append_right _ hn)).trans ?_
      exact congrArg some (if_neg fun hm => hdisjoint name hm name hn rfl)

theorem exists_metBy {c : Condition} (h : c.atoms.Nodup) : ∃ v : Valuation, c.MetBy v := by
  obtain ⟨total, ht⟩ := exists_agrees_metBy h
  exact ⟨TruthTable.assign c.atoms total, ht _ (TruthTable.agrees_assign total fun _ hn => hn)⟩

end Condition

namespace Formula

variable {inner left right : Formula} {v : Valuation} {a b : Bool}

theorem valuate_neg_of_ok (h : inner.valuate v = .ok a) : (neg inner).valuate v = .ok !a := by
  rw [valuate, h]

theorem valuate_conj_of_ok (hl : left.valuate v = .ok a) (hr : right.valuate v = .ok b) :
    (conj left right).valuate v = .ok (a && b) := by
  rw [valuate_conj, hl, hr]
  cases a <;> rfl

theorem valuate_disj_of_ok (hl : left.valuate v = .ok a) (hr : right.valuate v = .ok b) :
    (disj left right).valuate v = .ok (a || b) := by
  rw [valuate_disj, hl, hr]
  cases a <;> rfl

theorem valuate_imp_of_ok (hl : left.valuate v = .ok a) (hr : right.valuate v = .ok b) :
    (imp left right).valuate v = .ok (!a || b) := by
  rw [valuate_imp, hl, hr]
  cases a <;> rfl

/-- A formula has the given value wherever its leading condition for this value is met. -/
theorem valuate_of_leadingCondition {f : Formula} {value : Bool}
    (h : (f.leadingCondition value).MetBy v) : f.valuate v = .ok value := by
  -- both values at once: a negation asks for the other one, and a connective for both
  induction f generalizing value with
  | atom name =>
    rw [leadingCondition, Condition.MetBy] at h
    rw [valuate, h]
  | neg inner ih => rw [valuate_neg_of_ok (ih h), Bool.not_not]
  | conj left right ihl ihr => rw [valuate_conj_of_ok (ihl h.1) (ihr h.2), Bool.and_self]
  | disj left right ihl ihr => rw [valuate_disj_of_ok (ihl h.1) (ihr h.2), Bool.or_false]
  | imp left right ihl ihr =>
    rw [valuate_imp_of_ok (ihl h.1) (ihr h.2), Bool.or_false, Bool.not_not]

/-- What a connective makes of the values of its sides it makes of each pair of them that it lists,
wherever the pair's condition is met. -/
theorem valuate_of_rows {f : Formula} {connect : Bool → Bool → Bool} {value : Bool}
    {rows : List (Bool × Bool)} {condition : Condition}
    (hf : ∀ a b, left.valuate v = .ok a → right.valuate v = .ok b →
      f.valuate v = .ok (connect a b))
    (hrows : ∀ row ∈ rows, connect row.1 row.2 = value)
    (hc : condition ∈ rows.map (sides left right)) (h : condition.MetBy v) :
    f.valuate v = .ok value := by
  obtain ⟨row, hrow, rfl⟩ := List.mem_map.1 hc
  have hl := valuate_of_leadingCondition h.1
  have hr := valuate_of_leadingCondition h.2
  rw [hf _ _ hl hr, hrows row hrow]

/-- A formula has the given value wherever one of its conditions for this value is met. -/
theorem valuate_of_mem_conditions {f : Formula} {value : Bool} {condition : Condition}
    (hc : condition ∈ f.conditions value) (h : condition.MetBy v) : f.valuate v = .ok value := by
  induction f generalizing value with
  | atom name =>
    obtain rfl := List.mem_singleton.1 hc
    exact valuate_of_leadingCondition (f := .atom name) h
  | neg inner ih => rw [valuate_neg_of_ok (ih hc), Bool.not_not]
  | conj left right =>
    cases value <;> exact valuate_of_rows (fun _ _ => valuate_conj_of_ok) (by decide) hc h
  | disj left right =>
    cases value <;> exact valuate_of_rows (fun _ _ => valuate_disj_of_ok) (by decide) hc h
  | imp left right =>
    cases value <;> exact valuate_of_rows (fun _ _ => valuate_imp_of_ok) (by decide) hc h

/-- **Conditions are sound.**  Under every valuation that meets a condition for a value, the formula
has this value; so no valuation meets both a condition for truth and one for falsehood.  In a
formula that repeats no name every condition is met by some valuation. -/
theorem conditions_sound (f : Formula) :
    (∀ value, ∀ condition ∈ f.conditions value, ∀ v : Valuation, condition.MetBy v →
      f.valuate v = .ok value) ∧
    (∀ holds ∈ f.conditions true, ∀ fails ∈ f.conditions false, ∀ v : Valuation,
      ¬ (holds.MetBy v ∧ fails.MetBy v)) ∧
    (f.atoms.Nodup → ∀ value, ∀ condition ∈ f.conditions value,
      ∃ v : Valuation, condition.MetBy v) := by
  refine ⟨fun value condition hc v h => valuate_of_mem_conditions hc h, ?_, ?_⟩
  · rintro holds hholds fails hfails v ⟨htrue, hfalse⟩
    have h := (valuate_of_mem_conditions hholds htrue).symm.trans
      (valuate_of_mem_conditions hfails hfalse)
    cases h
  · intro hnodup value condition hc
    exact Condition.exists_metBy (atoms_of_mem_conditions hc ▸ hnodup)

/-- The only condition for the truth of `¬((P ∧ Q) → R)` asks for `P` and `Q` and against `R`; the
row that meets it makes the formula true and meets no condition for its falsehood, each of which is
met by some other row. -/
theorem negated_conditional_met :
    let f : Formula := .neg (.imp (.conj (.atom "P") (.atom "Q")) (.atom "R"))
    let holds : Condition := .both (.both (.forced "P" true) (.forced "Q" true)) (.forced "R" false)
    let fails : Condition :=
      .both (.both (.forced "P" false) (.forced "Q" false)) (.forced "R" true)
    let row : Valuation := TruthTable.row ["P", "Q", "R"] [true, true, false]
    f.conditions true = [holds] ∧ fails ∈ f.conditions false ∧ holds.MetBy row ∧
      f.valuate row = .ok true ∧ ¬ fails.MetBy row ∧ ∃ v : Valuation, fails.MetBy v := by
  intro f holds fails row
  have hholds : holds ∈ f.conditions true := by decide
  have hfails : fails ∈ f.conditions false := by decide
  have hrow : holds.MetBy row := by decide
  obtain ⟨hsound, hnever, hmet⟩ := conditions_sound f
  exact ⟨rfl, hfails, hrow, hsound true holds hholds row hrow,
    fun h => hnever holds hholds fails hfails row ⟨hrow, h⟩, hmet (by decide) false fails hfails⟩

end Formula

end Entailment
