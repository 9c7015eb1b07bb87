/-!
# Names

The character classes of the language and the two kinds of names that are built from them: atomic
propositions are named in capitals (`P`, `RAIN_2`, `Q'`), arguments in small letters (`modus_1`).
-/

namespace Entailment

namespace Name

/-- The blanks that separate tokens. -/
def isBlank (c : Char) : Bool := c == ' ' || c == '\t'

/-- The characters that may follow an atom's name directly. -/
def endsAtom (c : Char) : Bool := [' ', '\t', '&', ')', ',', ':', '-', '|'].contains c

/-- The characters of an atom's name after the first. -/
def continuesAtom (c : Char) : Bool := c.isUpper || c.isDigit || c == '_' || c == '\x27'

/-- The characters of an identifier after the first. -/
def continuesIdentifier (c : Char) : Bool := c.isLower || c.isDigit || c == '_'

/-- Whether a text is the name of an atomic proposition: a capital letter, then capital letters,
digits, underscores and primes.  Only the letters `A` to `Z` and the digits `0` to `9` count. -/
def isAtom (name : String) : Bool :=
  match name.toList with
  | [] => false
  | c :: rest => c.isUpper && rest.all continuesAtom

/-! ### Sets of names -/

/-- Adds a name to an ascending list of names, unless it is there. -/
def insert (name : String) : List String → List String
  | [] => [name]
  | head :: rest =>
    if name < head then name :: head :: rest
    else if name = head then head :: rest
    else head :: insert name rest

/-- The names of a list in ascending order, each one once. -/
def sort (names : List String) : List String := names.foldr insert []

end Name

end Entailment
