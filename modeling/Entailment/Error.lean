/-!
# Errors

What can go wrong, stage by stage: characters and neighbouring tokens (`LexicalError`), the shape
of formulas, arguments and statements (`ParseError`), names without a truth value
(`MissingValue`), questions an argument cannot answer (`UsageError`), and the streams a program is
read from and written to (`StreamError`).  `Error` joins them.  The wording is given here and
nowhere else; `category` sorts every error into one of a few broad classes.
-/

namespace Entailment

/-- Broad classes of errors. -/
inductive Category where
  | invalidData
  | invalidInput
  | notFound
  | notDirectory
  | isDirectory
  | invalidName
  | brokenPipe
  | writeZero
  | other
  deriving DecidableEq, Repr

/-- A line that cannot be split into tokens, or whose tokens may not stand where they do. -/
inductive LexicalError where
  /-- `character` stands at `position`, counted in characters from `0` without the comment. -/
  | unexpectedCharacter (character : Char) (position : Nat) (line : String)
  /-- A token that may not stand where it does.  For a repeated keyword `position` counts
  characters, otherwise tokens. -/
  | unexpectedSymbol (symbol : String) (position : Nat) (line : String)
  /-- The line has one token and needs more. -/
  | unexpectedEndOfLine (line : String)
  deriving DecidableEq, Repr

/-- Tokens that do not form the formula, argument or statement they should. -/
inductive ParseError where
  /-- The token at index `position`, counted from `0`, does not fit. -/
  | unexpectedSymbol (symbol : String) (position : Nat) (line : String)
  /-- The tokens end at index `position` where one more is needed. -/
  | missingSymbol (position : Nat) (line : String)
  /-- A statement that ends before its fixed part is complete; `line` is its rendering. -/
  | truncated (line : String)
  deriving DecidableEq, Repr

/-- A text that is no formula or argument: its characters or its tokens are at fault. -/
inductive SyntaxError where
  | lexical (error : LexicalError)
  | parse (error : ParseError)
  deriving DecidableEq, Repr

/-- A name to which a valuation gives no truth value. -/
structure MissingValue where
  /-- The name. -/
  name : String
  deriving DecidableEq, Repr

/-- A question that the shape of an argument rules out. -/
inductive UsageError where
  /-- Only a single premise without a conclusion can be a tautology. -/
  | notASingleFormula (premises : Nat) (hasConclusion : Bool)
  /-- Only an argument with a conclusion can be valid. -/
  | missingConclusion
  deriving DecidableEq, Repr

/-- A failure of a stream that is read or written. -/
structure StreamError where
  /-- The class of the failure. -/
  category : Category
  /-- Its text. -/
  text : String
  deriving DecidableEq, Repr

/-- Everything that can stop a program. -/
inductive Error where
  | lexical (error : LexicalError)
  | parse (error : ParseError)
  | missingValue (error : MissingValue)
  | usage (error : UsageError)
  /-- No argument has this name. -/
  | unknownArgument (name : String)
  | stream (error : StreamError)
  deriving DecidableEq, Repr

namespace LexicalError

/-- The line at fault, with its comment. -/
def line : LexicalError → String
  | unexpectedCharacter _ _ line | unexpectedSymbol _ _ line | unexpectedEndOfLine line => line

/-- The text of the error. -/
def message : LexicalError → String
  | unexpectedCharacter character position line =>
    s!"Unexpected character '{character}' at position {position} of line '{line}'"
  | unexpectedSymbol symbol position line =>
    s!"Unexpected symbol '{symbol}' at position {position} of line '{line}'"
  | unexpectedEndOfLine line => s!"Unexpected end of line at line '{line}'"

end LexicalError

namespace ParseError

/-- The text of the error. -/
def message : ParseError → String
  | unexpectedSymbol symbol position line =>
    s!"Unexpected symbol '{symbol}' at position {position} of line '{line}'"
  | missingSymbol position line => s!"Missing symbol at position {position} of line '{line}'"
  | truncated line => s!"Failed to parse line {line}"

end ParseError

namespace SyntaxError

/-- The text of the error. -/
def message : SyntaxError → String
  | lexical error => error.message
  | parse error => error.message

end SyntaxError

namespace UsageError

/-- The text of the error. -/
def message : UsageError → String
  | notASingleFormula premises hasConclusion =>
    let plural := if premises = 1 then "" else "s"
    let conclusion := if hasConclusion then " and a conclusion" else ""
    "Tautology checks need exactly one premise and no conclusion, found " ++
      s!"{premises} premise{plural}{conclusion}"
  | missingConclusion => "Validity checks need an argument with a conclusion"

end UsageError

namespace Error

/-- A syntax error as an error of a program. -/
def ofSyntax : SyntaxError → Error
  | .lexical error => lexical error
  | .parse error => parse error

/-- The text of the error. -/
def message : Error → String
  | lexical error => error.message
  | parse error => error.message
  | missingValue error => s!"Missing symbol '{error.name}'"
  | usage error => error.message
  | unknownArgument name => s!"Unknown argument '{name}'"
  | stream error => error.text

/-- The text of the error that this one was made from; an unknown argument has no such cause. -/
def cause? : Error → Option String
  | lexical error => some error.message
  | parse error => some error.message
  | missingValue error => some error.name
  | usage error => some error.message
  | unknownArgument _ => none
  | stream error => some error.text

/-- The text of the error where only its innermost cause is known. -/
def plainMessage (error : Error) : String := error.cause?.getD error.message

/-- The class of the error. -/
def category : Error → Category
  | lexical _ | parse _ => .invalidData
  | missingValue _ | unknownArgument _ => .notFound
  | usage _ => .invalidInput
  | stream error => error.category

end Error

end Entailment
