import Entailment.Sink
import Entailment.Statement
import Entailment.Summary

/-!
# Sessions

A session runs statements one after the other.  It keeps the tables, counts the statements that
ran without an error, and writes what they report to a sink.  A session goes on after an error if
it is asked to: a failed statement leaves the tables as they were, unless all that failed was
writing its report.
-/

namespace Entailment

/-- How a session talks. -/
structure Config where
  /-- Every statement is written before it runs. -/
  echo : Bool := false
  /-- A summary is written at the end. -/
  summary : Bool := false
  deriving DecidableEq, Repr

/-- A session in progress. -/
structure Session (σ : Type) where
  /-- How the session talks. -/
  config : Config
  /-- Where its output goes. -/
  sink : σ
  /-- The number of statements that ran without an error. -/
  statements : Nat
  /-- What the statements have left behind. -/
  tables : Tables

/-- A session after some work, and how the work ended. -/
structure Outcome (σ : Type) where
  /-- The session after the work. -/
  session : Session σ
  /-- Success, or the error that stopped the work. -/
  result : Except Error Unit

namespace Session

variable {σ : Type}

/-- A session before its first statement. -/
def start (config : Config) (sink : σ) : Session σ := ⟨config, sink, 0, .empty⟩

/-- The numbers that sum a session up. -/
def summary (s : Session σ) : Summary where
  statements := s.statements
  values := s.tables.values.size
  arguments := s.tables.arguments.size
  assertions := .ofTable s.tables.assertions
  validations := .ofTable s.tables.validations
  valuations := .ofTable s.tables.valuations

/-- The text that echoes a line, if the session echoes. -/
def echo? (s : Session σ) (line : TokenLine) : Option String :=
  if s.config.echo then some ("> " ++ line.render ++ "\n") else none

variable [Sink σ]

/-- Writes a text, if there is one. -/
def emit (s : Session σ) : Option String → Outcome σ
  | none => ⟨s, .ok ()⟩
  | some text =>
    let (sink, result) := Sink.write s.sink text
    ⟨{ s with sink }, result.mapError .stream⟩

/-- Gives a statement its effect: the tables first, then the report, and at last it counts. -/
def apply (s : Session σ) (effect : Effect) : Outcome σ :=
  let reported := { s with tables := effect.tables }.emit effect.report?
  match reported.result with
  | .ok () =>
    ⟨{ reported.session with statements := reported.session.statements + 1 }, .ok ()⟩
  | .error _ => reported

/-- Runs the statement of a line. -/
def execute (s : Session σ) (line : TokenLine) : Logged (Outcome σ) := do
  Logged.note ⟨.trace, .interpreter, s!"Line {line.number}: {line.render}"⟩
  let echoed := s.emit (s.echo? line)
  match echoed.result with
  | .error _ => pure echoed
  | .ok () =>
    match Statement.ofLine line with
    | .error error => pure ⟨echoed.session, .error (.parse error)⟩
    | .ok statement => do
      match ← statement.perform echoed.session.tables with
      | .error error => pure ⟨echoed.session, .error error⟩
      | .ok effect => pure (echoed.session.apply effect)

/-- Runs the statements of lines up to the first error. -/
def run (s : Session σ) : List TokenLine → Logged (Outcome σ)
  | [] => pure ⟨s, .ok ()⟩
  | line :: rest => do
    let outcome ← s.execute line
    match outcome.result with
    | .error _ => pure outcome
    | .ok () => outcome.session.run rest

/-- Ends the session: writes the summary if the session has one, and flushes the sink. -/
def finish (s : Session σ) : Logged (Outcome σ) := do
  Logged.note ⟨.debug, .interpreter, s!"Finished after {s.statements} statements"⟩
  let summed := s.emit (if s.config.summary then some (s.summary.render ++ "\n") else none)
  match summed.result with
  | .error _ => pure summed
  | .ok () =>
    let (sink, result) := Sink.flush summed.session.sink
    pure ⟨{ summed.session with sink }, result.mapError .stream⟩

end Session

end Entailment
