import Entailment.Argument.Reader
import Entailment.Argument.Verdict

/-!
# Statements

A line of a program is a statement: it gives a value to a name, prints a text, defines an argument,
or asks for a verdict on one.  `Statement.ofLine` reads the statement of a line and
`Statement.perform` gives its effect on the tables, with the text it reports.
-/

namespace Entailment

/-- A statement. -/
inductive Statement where
  /-- Gives a truth value to a name. -/
  | assign (name : String) (value : Bool)
  /-- Prints a token, or an empty line. -/
  | print (content? : Option Token)
  /-- Defines an argument. -/
  | define (name : String) (argument : Argument)
  /-- Asks whether an argument is a tautology. -/
  | assert (name : String)
  /-- Asks whether an argument is valid. -/
  | validate (name : String)
  /-- Asks whether an argument is true. -/
  | valuate (name : String)
  deriving DecidableEq, Repr

/-- What the statements before have left behind. -/
structure Tables where
  /-- The values given to names. -/
  values : Valuation
  /-- The arguments defined. -/
  arguments : Table Argument
  /-- The verdicts on tautologies. -/
  assertions : Table Bool
  /-- The verdicts on validity. -/
  validations : Table Bool
  /-- The verdicts on truth. -/
  valuations : Table Bool

/-- What a statement does: the tables after it, and the text it reports. -/
structure Effect where
  /-- The tables after the statement. -/
  tables : Tables
  /-- The text it reports, if it reports one. -/
  report? : Option String

namespace Tables

/-- The tables before the first statement. -/
def empty : Tables := ⟨.empty, .empty, .empty, .empty, .empty⟩

end Tables

namespace Statement

/-! ### Reading statements -/

/-- The name that stands second on the line, and the tokens after it. -/
def named (line : TokenLine) : List Token → Except ParseError (String × List Token)
  | [] => .error (.truncated line.render)
  | .identifier name :: rest => .ok (name, rest)
  | found :: _ => .error (.unexpectedSymbol found.render 1 line.source)

/-- The statement of a line.  Tokens after a complete statement are not looked at. -/
def ofLine (line : TokenLine) : Except ParseError Statement :=
  match line.tokens with
  | [] => .error (.truncated line.render)
  | .print :: rest => .ok (print rest.head?)
  | .atom name :: rest =>
    match rest with
    | [] | [.assign] => .error (.truncated line.render)
    | .assign :: literal :: _ => .ok (assign name (literal == .verum))
    | found :: _ => .error (.unexpectedSymbol found.render 1 line.source)
  | .argument :: rest =>
    match named line rest with
    | .error error => .error error
    | .ok (_, []) => .error (.truncated line.render)
    | .ok (name, .assign :: body) => (Cursor.mk line.source 3 body).argument.1.map (define name)
    | .ok (_, found :: _) => .error (.unexpectedSymbol found.render 2 line.source)
  | .assert :: rest => (named line rest).map fun (name, _) => assert name
  | .validate :: rest => (named line rest).map fun (name, _) => validate name
  | .valuate :: rest => (named line rest).map fun (name, _) => valuate name
  | found :: _ => .error (.unexpectedSymbol found.render 0 line.source)

/-! ### Effects -/

/-- The report on a tautology check. -/
def tautologyReport (a : Argument) (verdict : Bool) : String :=
  let formula := (a.premises.head?.map Formula.render).getD ""
  "argument \"" ++ formula ++ "\" is " ++ (if verdict then "" else "not ") ++ "a tautology\n\n"

/-- The report on a validity check. -/
def validityReport (a : Argument) (verdict : Bool) : String :=
  "argument \"" ++ a.render ++ "\" is " ++ (if verdict then "valid" else "invalid") ++ "\n"

/-- The report on the truth value of an argument. -/
def truthReport (a : Argument) (verdict : Bool) : String :=
  "argument \"" ++ a.render ++ "\" is " ++ (if verdict then "true" else "false") ++ "\n\n"

/-- The argument that the tables hold under a name. -/
def lookup (tables : Tables) (name : String) : Except Error Argument :=
  match tables.arguments.get? name with
  | some a => .ok a
  | none => .error (.unknownArgument name)

/-- The effect of a statement. -/
def perform (tables : Tables) : Statement → Logged (Except Error Effect)
  | print content? => pure (.ok ⟨tables, some ((content?.map Token.render).getD "" ++ "\n")⟩)
  | assign name value =>
    pure (.ok ⟨{ tables with values := tables.values.insert name value }, none⟩)
  | define name a => do
    Logged.note a.parsed
    Logged.note ⟨.debug, .interpreter, s!"Defined {name} := " ++ a.render⟩
    pure (.ok ⟨{ tables with arguments := tables.arguments.insert name a }, none⟩)
  | assert name =>
    match lookup tables name with
    | .error error => pure (.error error)
    | .ok a => do
      match ← a.checkTautology with
      | .error error => pure (.error (.usage error))
      | .ok verdict =>
        pure (.ok ⟨{ tables with assertions := tables.assertions.insert name verdict },
          some (tautologyReport a verdict)⟩)
  | validate name =>
    match lookup tables name with
    | .error error => pure (.error error)
    | .ok a => do
      match ← a.checkValidity with
      | .error error => pure (.error (.usage error))
      | .ok verdict =>
        pure (.ok ⟨{ tables with validations := tables.validations.insert name verdict },
          some (validityReport a verdict)⟩)
  | valuate name =>
    match lookup tables name with
    | .error error => pure (.error error)
    | .ok a =>
      match a.valuate tables.values with
      | .error error => pure (.error (.missingValue error))
      | .ok verdict =>
        pure (.ok ⟨{ tables with valuations := tables.valuations.insert name verdict },
          some (truthReport a verdict)⟩)

end Statement

end Entailment
