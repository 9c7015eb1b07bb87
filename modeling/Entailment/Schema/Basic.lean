import Entailment.Formula.Basic

/-!
# Schemas

A schema is a formula that may have metavariables in the place of formulas.  Giving a formula for
each metavariable makes it a formula (`Schema.instantiate`).
-/

namespace Entailment

/-- A formula with metavariables. -/
inductive Schema where
  /-- A metavariable. -/
  | var (name : String)
  /-- An atomic proposition. -/
  | atom (name : String)
  /-- Negation. -/
  | neg (inner : Schema)
  /-- Conjunction. -/
  | conj (left right : Schema)
  /-- Disjunction. -/
  | disj (left right : Schema)
  /-- The material conditional. -/
  | imp (left right : Schema)
  deriving DecidableEq, Repr

namespace Schema

/-- The formula with every metavariable replaced by the formula that `assignment` has for it, or
nothing when a metavariable has none. -/
def instantiate (assignment : String → Option Formula) : Schema → Option Formula
  | var name => assignment name
  | atom name => some (.atom name)
  | neg inner => (inner.instantiate assignment).map .neg
  | conj left right => do
    return .conj (← left.instantiate assignment) (← right.instantiate assignment)
  | disj left right => do
    return .disj (← left.instantiate assignment) (← right.instantiate assignment)
  | imp left right => do
    return .imp (← left.instantiate assignment) (← right.instantiate assignment)

end Schema

end Entailment
