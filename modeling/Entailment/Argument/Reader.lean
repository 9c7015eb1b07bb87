import Entailment.Argument.Basic
import Entailment.Formula.Reader

/-!
# Reading arguments

The body of an argument is a sequence of premises, separators and at most one conclusion.  Premises
need no separator between them, commas may be repeated and closing brackets are passed over, but
after the conclusion no comma and no second conclusion is taken.
-/

namespace Entailment

namespace Argument

/-- Reads the body of an argument to the end of the tokens; `a` is what was read before. -/
def readAfter (a : Argument) (tokens : List Token) : Except Halt Argument :=
  match tokens with
  | [] => .ok a
  | .closing :: rest => readAfter a rest
  | .comma :: rest =>
    if a.conclusion?.isSome then .error (.unexpected .comma rest) else readAfter a rest
  | .therefore :: rest =>
    if a.conclusion?.isSome then .error (.unexpected .therefore rest)
    else
      match Formula.read rest with
      | .error halt => .error halt
      | .ok (f, ⟨after, _⟩) => readAfter (a.conclude f) after
  | token :: rest =>
    match Formula.read (token :: rest) with
    | .error halt => .error halt
    | .ok (f, ⟨after, _⟩) => readAfter (a.addPremise f) after
termination_by tokens.length
decreasing_by all_goals (simp only [List.length_cons] at *; omega)

/-- The argument whose body the tokens are. -/
def ofTokens (tokens : List Token) : Except Halt Argument := readAfter empty tokens

end Argument

namespace Cursor

/-- Reads the body of an argument to the end of the line. -/
def argument (cursor : Cursor) : Except ParseError Argument × Cursor :=
  cursor.settle ((Argument.ofTokens cursor.rest).map fun a => (a, []))

end Cursor

namespace Argument

/-- The argument that a text spells. -/
def parse (text : String) : Except SyntaxError Argument :=
  match Token.cursor text with
  | .error error => .error error
  | .ok cursor => cursor.argument.1.mapError .parse

/-- The record of an argument that was read. -/
def parsed (a : Argument) : Record := ⟨.trace, .parser, s!"Parsed argument {a.render}"⟩

/-- Reads an argument from a text and leaves a record of it. -/
def parseLogged (text : String) : Logged (Except SyntaxError Argument) :=
  .onSuccess (parse text) fun a => [a.parsed]

end Argument

end Entailment
