/-!
# Tokens

A line of a program is a list of tokens.  Every token has a kind, and a kind fixes which kinds may
stand directly after it on a line (`Kind.successors`) and whether it may stand first
(`Kind.canLead`).  The spellings of the tokens are listed here as well: symbols of one and of two
characters, keywords, and the keywords that a line may use only once.
-/

namespace Entailment

/-- The kinds of tokens. -/
inductive Kind where
  /-- The name of an atomic proposition. -/
  | atom
  /-- The name of an argument. -/
  | identifier
  /-- A quoted text. -/
  | text
  | verum
  | falsum
  | conj
  | disj
  | neg
  | imp
  | opening
  | closing
  | comma
  | assign
  | argument
  | assert
  | print
  | therefore
  | validate
  | valuate
  deriving DecidableEq, Repr

/-- A token: its kind, and for names and quoted texts the characters read. -/
inductive Token where
  /-- The name of an atomic proposition. -/
  | atom (name : String)
  /-- The name of an argument. -/
  | identifier (name : String)
  /-- A quoted text, without its quotes. -/
  | text (content : String)
  | verum
  | falsum
  | conj
  | disj
  | neg
  | imp
  | opening
  | closing
  | comma
  | assign
  | argument
  | assert
  | print
  | therefore
  | validate
  | valuate
  deriving DecidableEq, Repr

namespace Kind

/-- The kinds a formula starts with. -/
def formulaStarts : List Kind := [atom, opening, neg]

/-- The kinds that may stand directly after a token of this kind. -/
def successors : Kind → List Kind
  | conj | disj | neg | imp | comma | opening | therefore => formulaStarts
  | assign => [atom, falsum, opening, neg, verum]
  | atom => [conj, assign, comma, imp, opening, disj, closing, therefore]
  | identifier => [assign]
  | closing => [conj, imp, comma, disj, closing, therefore]
  | print => [text]
  | argument | assert | validate | valuate => [identifier]
  | verum | falsum | text => []

/-- Whether a token of kind `next` may stand directly after one of this kind. -/
def allows (kind next : Kind) : Bool := kind.successors.contains next

/-- Whether a line may start with a token of this kind. -/
def canLead : Kind → Bool
  | atom | argument | assert | print | validate | valuate => true
  | _ => false

end Kind

namespace Token

/-- The kind of a token. -/
def kind : Token → Kind
  | atom _ => .atom
  | identifier _ => .identifier
  | text _ => .text
  | verum => .verum
  | falsum => .falsum
  | conj => .conj
  | disj => .disj
  | neg => .neg
  | imp => .imp
  | opening => .opening
  | closing => .closing
  | comma => .comma
  | assign => .assign
  | argument => .argument
  | assert => .assert
  | print => .print
  | therefore => .therefore
  | validate => .validate
  | valuate => .valuate

/-- The characters a token carries beyond its kind. -/
def payload? : Token → Option String
  | atom name | identifier name | text name => some name
  | _ => none

/-- The canonical spelling of a token; a quoted text is written without quotes. -/
def render : Token → String
  | atom name | identifier name | text name => name
  | verum => "true"
  | falsum => "false"
  | conj => "∧"
  | disj => "∨"
  | neg => "¬"
  | imp => "→"
  | opening => "("
  | closing => ")"
  | comma => ","
  | assign => ":="
  | argument => "argument"
  | assert => "assert"
  | print => "print"
  | therefore => "∴"
  | validate => "validate"
  | valuate => "valuate"

/-- Tokens rendered one after the other with single spaces between them. -/
def renderAll (tokens : List Token) : String := " ".intercalate (tokens.map render)

/-- Whether `next` may stand directly after this token. -/
def allows (token next : Token) : Bool := token.kind.allows next.kind

/-! ### Spellings -/

/-- The symbols of one character. -/
def singles : List (Char × Token) :=
  [('(', opening), (')', closing), ('∧', conj), ('&', conj), (',', comma), ('→', imp), ('⊃', imp),
    ('¬', neg), ('~', neg), ('!', neg), ('∨', disj), ('|', disj), ('∴', therefore)]

/-- The symbols of two characters. -/
def doubles : List (Char × Char × Token) := [(':', '=', assign), ('-', '>', imp)]

/-- The keywords; none of them starts another one. -/
def keywords : List (String × Token) :=
  [("argument", argument), ("assert", assert), ("false", falsum), ("print", print),
    ("therefore", therefore), ("true", verum), ("validate", validate), ("valuate", valuate)]

/-- The keywords that a line may use only once. -/
def unrepeatable : List String := ["argument", "print", "therefore", "valuate"]

/-- The token written as the single character `c`. -/
def ofChar? (c : Char) : Option Token := singles.lookup c

/-- Whether `c` is the first character of a symbol of two characters. -/
def startsPair (c : Char) : Bool := doubles.any fun entry => entry.1 == c

/-- The token written as the characters `first` and `second`. -/
def ofPair? (first second : Char) : Option Token :=
  (doubles.find? fun entry => entry.1 == first && entry.2.1 == second).map fun entry => entry.2.2

end Token

end Entailment
