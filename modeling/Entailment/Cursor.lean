import Entailment.Line

/-!
# Cursors

A cursor stands before one of the tokens of a line, or after the last one.  Readers work on the
tokens from there on and say where they came to a halt (`Halt`); the cursor turns that into a
position on the line (`Cursor.settle`).  Whatever a reader does, the cursor never moves back.
-/

namespace Entailment

/-- Where a reader of tokens came to a halt. -/
inductive Halt where
  /-- At `token`, which does not fit and has `rest` after it. -/
  | unexpected (token : Token) (rest : List Token)
  /-- At the end of the tokens. -/
  | missing
  deriving DecidableEq, Repr

namespace Halt

/-- The tokens after the place of the halt. -/
def rest : Halt → List Token
  | unexpected _ rest => rest
  | missing => []

end Halt

/-- A place between the tokens of a line. -/
structure Cursor where
  /-- The text of the line. -/
  source : String
  /-- The number of tokens before the cursor. -/
  position : Nat
  /-- The tokens after the cursor. -/
  rest : List Token
  deriving DecidableEq, Repr

namespace Cursor

/-- The cursor before the first of the tokens. -/
def ofTokens (tokens : List Token) (source : String) : Cursor := ⟨source, 0, tokens⟩

/-- The cursor before the first token of a line. -/
def ofLine (line : TokenLine) : Cursor := ofTokens line.tokens line.source

/-- The next token. -/
def peek? (cursor : Cursor) : Option Token := cursor.rest.head?

/-- Whether no token is left. -/
def isExhausted (cursor : Cursor) : Bool := cursor.rest.isEmpty

/-- The error that a token stands at `position` where it does not fit. -/
def unexpected (cursor : Cursor) (token : Token) (position : Nat) : ParseError :=
  .unexpectedSymbol token.render position cursor.source

/-- The cursor moved forward to where `rest` is left. -/
def moveTo (cursor : Cursor) (rest : List Token) : Cursor :=
  { cursor with position := cursor.position + (cursor.rest.length - rest.length), rest }

/-- The error of a reader that started here. -/
def errorOf (cursor : Cursor) : Halt → ParseError
  | .unexpected token rest => cursor.unexpected token ((cursor.moveTo rest).position - 1)
  | .missing => .missingSymbol (cursor.moveTo []).position cursor.source

/-- The result of a reader that started here, and the cursor where it stopped. -/
def settle {α : Type} (cursor : Cursor) :
    Except Halt (α × List Token) → Except ParseError α × Cursor
  | .ok (value, rest) => (.ok value, cursor.moveTo rest)
  | .error halt => (.error (cursor.errorOf halt), cursor.moveTo halt.rest)

/-- Takes the next token. -/
def advance (cursor : Cursor) : Except ParseError Token × Cursor :=
  cursor.settle <|
    match cursor.rest with
    | token :: rest => .ok (token, rest)
    | [] => .error .missing

/-- Takes the next token if it is the expected one. -/
def eat (cursor : Cursor) (expected : Token) : Bool × Cursor :=
  if cursor.peek? = some expected then (true, cursor.moveTo cursor.rest.tail) else (false, cursor)

end Cursor

end Entailment
