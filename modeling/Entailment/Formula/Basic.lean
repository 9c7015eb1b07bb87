/-!
# Formulas

Formulas of propositional logic: atoms joined by negation, conjunction, disjunction and the
material conditional.  `Formula.render` writes a formula with brackets around every binary
connective, `Formula.eval` is its truth value when every name has one.
-/

namespace Entailment

/-- A formula of propositional logic. -/
inductive Formula where
  /-- An atomic proposition. -/
  | atom (name : String)
  /-- Negation. -/
  | neg (inner : Formula)
  /-- Conjunction. -/
  | conj (left right : Formula)
  /-- Disjunction. -/
  | disj (left right : Formula)
  /-- The material conditional. -/
  | imp (left right : Formula)
  deriving DecidableEq, Repr

namespace Formula

/-- Whether the formula is an atomic proposition. -/
def isAtom : Formula → Bool
  | atom _ => true
  | _ => false

/-- The number of connectives. -/
def connectives : Formula → Nat
  | atom _ => 0
  | neg inner => inner.connectives + 1
  | conj left right | disj left right | imp left right => left.connectives + right.connectives + 1

/-- The names of the atoms from left to right, with repetitions. -/
def atoms : Formula → List String
  | atom name => [name]
  | neg inner => inner.atoms
  | conj left right | disj left right | imp left right => left.atoms ++ right.atoms

/-- The canonical spelling of a formula. -/
def render : Formula → String
  | atom name => name
  | neg inner => "¬" ++ inner.render
  | conj left right => "(" ++ left.render ++ " ∧ " ++ right.render ++ ")"
  | disj left right => "(" ++ left.render ++ " ∨ " ++ right.render ++ ")"
  | imp left right => "(" ++ left.render ++ " → " ++ right.render ++ ")"

/-- The truth value of a formula when `v` gives the truth value of every name. -/
def eval (v : String → Bool) : Formula → Bool
  | atom name => v name
  | neg inner => !inner.eval v
  | conj left right => left.eval v && right.eval v
  | disj left right => left.eval v || right.eval v
  | imp left right => !left.eval v || right.eval v

end Formula

end Entailment
