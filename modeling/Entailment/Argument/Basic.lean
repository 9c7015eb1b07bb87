import Entailment.Formula.Condition

/-!
# Arguments

An argument has premises in order, and possibly a conclusion.
-/

namespace Entailment

/-- An argument. -/
structure Argument where
  /-- The premises in order. -/
  premises : List Formula
  /-- The conclusion, if there is one. -/
  conclusion? : Option Formula
  deriving DecidableEq, Repr

namespace Argument

/-- The argument without premises and conclusion. -/
def empty : Argument := ⟨[], none⟩

/-- The argument with one more premise, after the others. -/
def addPremise (a : Argument) (premise : Formula) : Argument :=
  { a with premises := a.premises ++ [premise] }

/-- The argument with this conclusion. -/
def conclude (a : Argument) (conclusion : Formula) : Argument :=
  { a with conclusion? := some conclusion }

/-- The premises and the conclusion. -/
def formulas (a : Argument) : List Formula := a.premises ++ a.conclusion?.toList

/-- The names an argument is about, in ascending order. -/
def names (a : Argument) : List String := Name.sort (a.formulas.flatMap Formula.names)

/-- The canonical spelling of an argument: the premises with commas between them, and the
conclusion after its sign. -/
def render (a : Argument) : String :=
  let premises := ", ".intercalate (a.premises.map Formula.render)
  match a.conclusion? with
  | none => premises
  | some conclusion =>
    premises ++ (if a.premises.isEmpty then "" else " ") ++ "∴ " ++ conclusion.render

end Argument

end Entailment
