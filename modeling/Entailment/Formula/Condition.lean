import Entailment.Formula.Basic
import Entailment.Name

/-!
# Conditions

A condition describes valuations under which a formula takes a given value, by fixing the values
of the atoms at its leaves.  The conditions of a formula list the ways in which its outermost
connective can take the value, each side being described by its first alternative only.  Every
condition has all atoms of the formula as its leaves, so they tell which names the formula is
about (`Formula.names`).
-/

namespace Entailment

/-- A family of valuations. -/
inductive Condition where
  /-- The valuations that give `name` this value. -/
  | forced (name : String) (value : Bool)
  /-- No restriction on the value of `name`. -/
  | free (name : String)
  /-- Both conditions together. -/
  | both (left right : Condition)
  deriving DecidableEq, Repr

namespace Condition

/-- The names at the leaves from left to right, with repetitions. -/
def atoms : Condition → List String
  | forced name _ | free name => [name]
  | both left right => left.atoms ++ right.atoms

/-- The spelling of a condition. -/
def render : Condition → String
  | forced name value => name ++ "=" ++ (if value then "true" else "false")
  | free name => name
  | both left right => "(" ++ left.render ++ ", " ++ right.render ++ ")"

end Condition

namespace Formula

/-- The first condition under which the formula has the given value. -/
def leadingCondition : Formula → Bool → Condition
  | atom name, value => .forced name value
  | neg inner, value => inner.leadingCondition (!value)
  | conj left right, value => .both (left.leadingCondition value) (right.leadingCondition value)
  | disj left right, value => .both (left.leadingCondition value) (right.leadingCondition false)
  | imp left right, value => .both (left.leadingCondition (!value)) (right.leadingCondition false)

/-- The two sides of a connective with the given values, each under its first condition. -/
def sides (left right : Formula) (values : Bool × Bool) : Condition :=
  .both (left.leadingCondition values.1) (right.leadingCondition values.2)

/-- The conditions under which the formula has the given value. -/
def conditions : Formula → Bool → List Condition
  | atom name, value => [.forced name value]
  | neg inner, value => inner.conditions (!value)
  | conj left right, true => [(true, true)].map (sides left right)
  | conj left right, false => [(false, false), (false, true), (true, false)].map (sides left right)
  | disj left right, true => [(true, false), (false, true), (true, true)].map (sides left right)
  | disj left right, false => [(false, false)].map (sides left right)
  | imp left right, true => [(false, false), (false, true), (true, true)].map (sides left right)
  | imp left right, false => [(true, false)].map (sides left right)

/-- The names a formula is about, in ascending order. -/
def names (f : Formula) : List String :=
  Name.sort ((f.conditions true).flatMap Condition.atoms)

end Formula

end Entailment
