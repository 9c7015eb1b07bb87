import Entailment.Lexeme
import Entailment.Log

/-!
# Lines of tokens

A line is accepted when its characters form tokens, its first token may lead a line, and every
token may stand directly after the one before it.  Lines without tokens are blank.
-/

namespace Entailment

/-- A line of a program: its number, its text, and its tokens. -/
structure TokenLine where
  /-- The number of the line, counted from `1`. -/
  number : Nat
  /-- The text of the line, with its comment. -/
  source : String
  /-- The tokens of the line. -/
  tokens : List Token
  deriving DecidableEq, Repr

namespace TokenLine

/-- The canonical spelling of a line. -/
def render (line : TokenLine) : String := Token.renderAll line.tokens

/-- Refuses the first token that may not stand directly after the one before it; `position` is the
index of the second token. -/
def checkPairs (line : String) (position : Nat) : List Token → Except LexicalError Unit
  | first :: second :: rest =>
    if first.allows second then checkPairs line (position + 1) (second :: rest)
    else .error (.unexpectedSymbol second.render position line)
  | _ => .ok ()

/-- Refuses tokens of which one may not stand directly after the one before it. -/
def checkAdjacency (line : String) (tokens : List Token) : Except LexicalError Unit :=
  checkPairs line 1 tokens

/-- Refuses tokens that do not start like a statement: only `print` stands alone, an atom is
assigned to, and else the first token is a command. -/
def checkLead (line : String) : List Token → Except LexicalError Unit
  | [] | [.print] => .ok ()
  | [_] => .error (.unexpectedEndOfLine line)
  | .atom _ :: next :: _ =>
    if next = .assign then .ok () else .error (.unexpectedSymbol next.render 1 line)
  | first :: _ =>
    if first.kind.canLead then .ok () else .error (.unexpectedSymbol first.render 1 line)

/-- The line with the given number and text, or nothing when it is blank. -/
def ofText? (number : Nat) (source : String) : Except LexicalError (Option TokenLine) :=
  match Token.scan source with
  | .error error => .error error
  | .ok [] => .ok none
  | .ok tokens =>
    match checkLead source tokens with
    | .error error => .error error
    | .ok () =>
      match checkAdjacency source tokens with
      | .error error => .error error
      | .ok () => .ok (some { number, source, tokens })

/-- The record of an accepted line. -/
def accepted (line : TokenLine) : Record :=
  ⟨.trace, .lexer, s!"Line {line.number}: {line.render}"⟩

/-- Reads a line and leaves a record of it, unless it is blank. -/
def ofTextLogged (number : Nat) (source : String) :
    Logged (Except LexicalError (Option TokenLine)) :=
  .onSuccess (ofText? number source) fun line? => line?.toList.map accepted

end TokenLine

end Entailment
