import Entailment.Argument.Basic
import Entailment.TruthTable

/-!
# Verdicts on arguments

Three questions can be asked of an argument: whether its only formula is a tautology, whether its
premises force its conclusion, and what its truth value is under a valuation.  The first two are
decided on the truth table over the names involved, row by row up to the row that settles them.
-/

namespace Entailment

namespace TruthTable

/-- The truth table over the names of some formulas, with a record of its size. -/
def ofFormulas (formulas : List Formula) : Logged TruthTable :=
  let table := ofNames (Name.sort (formulas.flatMap Formula.names))
  let rows := match table.rowCount? with
    | some count => s!"Some({count})"
    | none => "None"
  ⟨table, [⟨.debug, .truthTable, s!"Enumerating {table.names.length} variables ({rows} rows)"⟩]⟩

end TruthTable

namespace Formula

/-- The record of a row that has no value for a name it should have. -/
def incompleteRow (error : MissingValue) : Record :=
  ⟨.error, .truthTable, s!"Truth-table row has no value for {error.name}"⟩

/-- Whether the valuation makes the formula false. -/
def falsifiedBy (f : Formula) (v : Valuation) : Logged Bool :=
  match f.valuate v with
  | .ok value => pure !value
  | .error error => ⟨false, [incompleteRow error]⟩

/-- Whether the valuation makes all formulas true. -/
def allHold (formulas : List Formula) (v : Valuation) : Logged Bool :=
  match formulas with
  | [] => pure true
  | f :: rest =>
    match f.valuate v with
    | .ok true => allHold rest v
    | .ok false => pure false
    | .error error => ⟨false, [incompleteRow error]⟩

end Formula

namespace Argument

/-! ### Tautologies -/

/-- Decides whether the only formula of the argument is true under every valuation. -/
def checkTautology (a : Argument) : Logged (Except UsageError Bool) :=
  match a.premises, a.conclusion? with
  | [f], none => do
    let table ← TruthTable.ofFormulas [f]
    match ← table.search f.falsifiedBy with
    | none => pure (.ok true)
    | some _ => do
      Logged.note ⟨.debug, .truthTable, s!"{f.render} is falsified"⟩
      pure (.ok false)
  | premises, conclusion? =>
    pure (.error (.notASingleFormula premises.length conclusion?.isSome))

/-- Whether the only formula of the argument is true under every valuation. -/
def isTautology (a : Argument) : Except UsageError Bool := a.checkTautology.value

/-! ### Validity -/

/-- Looks for the first row that makes the premises true and the conclusion false. -/
def findCounterExample (a : Argument) : Logged (Except UsageError (Option Valuation)) :=
  match a.conclusion? with
  | none => pure (.error .missingConclusion)
  | some conclusion => do
    let formulas := .neg conclusion :: a.premises
    let table ← TruthTable.ofFormulas formulas
    match ← table.search (Formula.allHold formulas) with
    | none => pure (.ok none)
    | some values => do
      Logged.note ⟨.debug, .truthTable, s!"{a.render} has a counter-example"⟩
      pure (.ok (some values))

/-- The first row that makes the premises true and the conclusion false. -/
def counterExample? (a : Argument) : Except UsageError (Option Valuation) :=
  a.findCounterExample.value

/-- Decides whether the premises force the conclusion. -/
def checkValidity (a : Argument) : Logged (Except UsageError Bool) := do
  let found ← a.findCounterExample
  pure (found.map Option.isNone)

/-- Whether the premises force the conclusion. -/
def isValid (a : Argument) : Except UsageError Bool := a.checkValidity.value

/-! ### Truth -/

/-- Whether all of the premises are true; those after the first false one are not looked at. -/
def premisesHold (v : Valuation) : List Formula → Except MissingValue Bool
  | [] => .ok true
  | f :: rest =>
    match f.valuate v with
    | .ok true => premisesHold v rest
    | .ok false => .ok false
    | .error error => .error error

/-- Whether the premises and the conclusion are all true.  The conclusion needs a value even when
a premise is false. -/
def valuate (a : Argument) (v : Valuation) : Except MissingValue Bool :=
  match premisesHold v a.premises with
  | .error error => .error error
  | .ok premises =>
    match a.conclusion? with
    | none => .ok premises
    | some conclusion => (conclusion.valuate v).map (premises && ·)

end Argument

end Entailment
