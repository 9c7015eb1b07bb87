import Entailment.Error
import Entailment.Formula.Basic
import Entailment.Table

/-!
# Valuations

A valuation gives truth values to some names.  A formula is valuated from left to right, and its
right side only when the left side does not settle the value, so that a name without a value
matters only when it is reached.
-/

namespace Entailment

/-- A valuation gives truth values to finitely many names. -/
abbrev Valuation := Table Bool

namespace Formula

/-- The truth value of a formula, or the first name reached that has no value. -/
def valuate (v : Valuation) : Formula → Except MissingValue Bool
  | atom name =>
    match v.get? name with
    | some value => .ok value
    | none => .error ⟨name⟩
  | neg inner =>
    match inner.valuate v with
    | .ok value => .ok !value
    | .error error => .error error
  | conj left right =>
    match left.valuate v with
    | .ok true => right.valuate v
    | .ok false => .ok false
    | .error error => .error error
  | disj left right =>
    match left.valuate v with
    | .ok true => .ok true
    | .ok false => right.valuate v
    | .error error => .error error
  | imp left right =>
    match left.valuate v with
    | .ok true => right.valuate v
    | .ok false => .ok true
    | .error error => .error error

end Formula

end Entailment
