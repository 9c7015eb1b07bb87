import Entailment.Table

/-!
# Summaries

At the end of a session its tables can be summed up: how many statements ran, how many names have
a value, how many arguments are defined, and how many verdicts of each kind were true and false.
-/

namespace Entailment

/-- How many verdicts are true and how many are false. -/
structure Tally where
  /-- The number of true verdicts. -/
  positive : Nat
  /-- The number of false verdicts. -/
  negative : Nat
  deriving DecidableEq, Repr

namespace Tally

/-- The tally of a table of verdicts. -/
def ofTable (verdicts : Table Bool) : Tally :=
  let positive := verdicts.entries.countP fun entry => entry.2
  ⟨positive, verdicts.size - positive⟩

/-- The number of verdicts. -/
def total (tally : Tally) : Nat := tally.positive + tally.negative

/-- The spelling of a tally. -/
def render (tally : Tally) : String :=
  s!"{tally.total} ({tally.positive} true, {tally.negative} false)"

end Tally

/-- What a session has done. -/
structure Summary where
  /-- The number of statements that ran without an error. -/
  statements : Nat
  /-- The number of names with a value. -/
  values : Nat
  /-- The number of arguments. -/
  arguments : Nat
  /-- The verdicts on tautologies. -/
  assertions : Tally
  /-- The verdicts on validity. -/
  validations : Tally
  /-- The verdicts on truth. -/
  valuations : Tally
  deriving DecidableEq, Repr

namespace Summary

/-- The spelling of a summary, one line for each number. -/
def render (summary : Summary) : String :=
  "\n".intercalate
    [s!"statements:  {summary.statements}", s!"values:      {summary.values}",
      s!"arguments:   {summary.arguments}", "assertions:  " ++ summary.assertions.render,
      "validations: " ++ summary.validations.render, "valuations:  " ++ summary.valuations.render]

end Summary

end Entailment
