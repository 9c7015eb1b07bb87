import Entailment.Schema.Literal

/-!
# Pieces of schemas

A schema is written in infix form, in pieces: words for metavariables, quoted names for atoms, the
signs `!` and `~`, `&`, `|` and `->`, and brackets.  It stands inside a program text, so numbers,
other literals and other signs are pieces as well, though no schema has them.  A word directly after
a literal belongs to the literal.  A text is cut into pieces as a whole, and its brackets have to
match, before anything is read from it.
-/

namespace Entailment

/-- The shapes of brackets. -/
inductive Bracket where
  | round
  | square
  | curly
  deriving DecidableEq, Repr

/-- A piece of a written schema. -/
inductive Piece where
  /-- A word. -/
  | word (text : String)
  /-- A quoted text: the characters that it stands for. -/
  | quoted (text : String)
  /-- The sign `!` or `~`. -/
  | negation
  /-- The sign `&`. -/
  | conjunction
  /-- The sign `|`. -/
  | disjunction
  /-- The sign `->`, written without a gap. -/
  | arrow
  /-- An opening bracket. -/
  | opening (shape : Bracket)
  /-- A closing bracket. -/
  | closing (shape : Bracket)
  /-- What has no meaning in a schema, as it is written. -/
  | other (text : String)
  deriving DecidableEq, Repr

namespace Piece

/-- The signs that have no meaning alone. -/
def isSign (c : Char) : Bool := "@#$%^*-=+;:,<.>/?".toList.contains c

/-- The pieces of one character that have a meaning. -/
def signs : List (Char × Piece) :=
  [('!', negation), ('~', negation), ('&', conjunction), ('|', disjunction),
    ('(', opening .round), (')', closing .round), ('[', opening .square), (']', closing .square),
    ('\x7b', opening .curly), ('\x7d', closing .curly)]

/-- The extent with that of the word after it. -/
def withSuffix (rest : List Char) (extent : Nat) : Nat :=
  extent + (Word.take (rest.drop extent)).length

/-- The quoted text that a reading gives. -/
def ofReading (rest : List Char) (reading : Literal.Reading) : Piece × Nat :=
  (quoted (String.ofList reading.1), withSuffix rest reading.2)

/-- The literal without a meaning that has this extent after its first character. -/
def literal (c : Char) (rest : List Char) (extent : Nat) : Piece × Nat :=
  let extent := withSuffix rest extent
  (other (String.ofList (c :: rest.take extent)), extent)

/-- The piece that starts with the mark `r`, after which `rest` stands: a raw text, a marked word or
the mark as a word. -/
def readMark (rest : List Char) : Option (Piece × Nat) :=
  match Literal.raw? .text rest with
  | some reading => some (ofReading rest reading)
  | none =>
    match rest with
    | '"' :: _ => none
    | '#' :: after =>
      (Word.marked? after).map fun name =>
        (word (String.ofList ('r' :: '#' :: name)), name.length + 1)
    | _ => some (word "r", 0)

/-- The extent of the literal that the word `name` starts, read after the word; an outer `none` if
the word starts a literal and it is not closed. -/
def taggedLiteral (name : String) (after : List Char) : Option (Option Nat) :=
  let extent (reading : Option Literal.Reading) : Option (Option Nat) :=
    reading.map fun reading => some reading.2
  match name, after with
  | "b", '"' :: body => extent ((Literal.plain? .bytes body).map (.after [] 1))
  | "c", '"' :: body => extent ((Literal.plain? .zeroEnded body).map (.after [] 1))
  | "b", '\x27' :: body => (Literal.character? .bytes body).map fun n => some (n + 1)
  | "br", '"' :: _ | "br", '#' :: _ => extent (Literal.raw? .bytes after)
  | "cr", '"' :: _ | "cr", '#' :: _ => extent (Literal.raw? .zeroEnded after)
  | _, _ => some none

/-- The piece that starts with a word. -/
def readWord (c : Char) (rest : List Char) : Option (Piece × Nat) :=
  let tail := rest.takeWhile Word.continues
  let name := String.ofList (c :: tail)
  if name = "r" then readMark rest
  else
    (taggedLiteral name (rest.drop tail.length)).map fun extent? =>
      match extent? with
      | some extent => literal c rest (tail.length + extent)
      | none => (word name, tail.length)

/-- Whether an apostrophe before this text marks the name that the text starts with. -/
def marksName (rest : List Char) : Bool :=
  match rest with
  | 'r' :: '#' :: after =>
    match Word.marked? after with
    | some name => (after.drop name.length).head? != some '\x27'
    | none => false
  | _ =>
    let next := (rest.drop (Word.take rest).length).head?
    Word.leads rest && next != some '\x27' && next != some '#'

/-- The piece at the start of the text `c :: rest`, and the number of its characters after the
first. -/
def readPiece (c : Char) (rest : List Char) : Option (Piece × Nat) :=
  match signs.lookup c with
  | some piece => some (piece, 0)
  | none =>
    if c == '"' then (Literal.plain? .text rest).map (ofReading rest)
    else if c == '\x27' then
      match Literal.character? .text rest with
      | some extent => some (literal c rest extent)
      | none => if marksName rest then some (other c.toString, 0) else none
    else if c.isDigit then
      (Literal.number? (c :: rest)).map fun extent => literal c rest (extent - 1)
    else if Word.starts c then readWord c rest
    else if c == '-' && rest.head? == some '>' then some (arrow, 1)
    else if isSign c then some (other c.toString, 0)
    else none

/-- The piece or remark at the start of the text `c :: rest`, and the number of its characters after
the first.  A remark that documents is a piece without a meaning. -/
def read (c : Char) (rest : List Char) : Option (Option Piece × Nat) :=
  if c == '/' && Gap.opensRemark rest then
    (Gap.remark? rest).map fun remark =>
      let written := String.ofList (c :: rest.take remark.extent)
      (if remark.documents then some (other written) else none, remark.extent)
  else (readPiece c rest).map fun (piece, extent) => (some piece, extent)

/-- The pieces of a text, if it consists of pieces and gaps. -/
def scan : List Char → Option (List Piece)
  | [] => some []
  | c :: rest =>
    if Gap.isBlank c then scan rest
    else
      match read c rest with
      | none => none
      | some (piece?, extent) => (scan (rest.drop extent)).map (piece?.toList ++ ·)
termination_by text => text.length
decreasing_by all_goals (simp only [List.length_cons, List.length_drop]; omega)

/-- A text without the mark of the byte order at its start. -/
def dropByteOrderMark : List Char → List Char
  | '\uFEFF' :: rest => rest
  | text => text

/-- Whether the brackets match, those in `pending` being open. -/
def balancedAfter (pending : List Bracket) : List Piece → Bool
  | [] => pending.isEmpty
  | opening shape :: rest => balancedAfter (shape :: pending) rest
  | closing shape :: rest =>
    match pending with
    | [] => false
    | inner :: outer => inner == shape && balancedAfter outer rest
  | _ :: rest => balancedAfter pending rest

/-- The pieces of a text whose brackets match. -/
def ofText? (text : String) : Option (List Piece) :=
  (scan (dropByteOrderMark text.toList)).filter (balancedAfter [])

/-- The pieces after the bracket that closes the group they start in; `depth` groups are open
inside it. -/
def afterGroup : Nat → List Piece → List Piece
  | _, [] => []
  | depth, opening _ :: rest => afterGroup (depth + 1) rest
  | 0, closing _ :: rest => rest
  | depth + 1, closing _ :: rest => afterGroup depth rest
  | depth, _ :: rest => afterGroup depth rest

theorem length_afterGroup_le (depth : Nat) (pieces : List Piece) :
    (afterGroup depth pieces).length ≤ pieces.length := by
  fun_induction afterGroup depth pieces with
  | case1 => simp
  | case2 _ _ _ ih => simp only [List.length_cons]; omega
  | case3 => simp
  | case4 _ _ _ ih => simp only [List.length_cons]; omega
  | case5 _ _ _ _ _ _ ih => simp only [List.length_cons]; omega

end Piece

end Entailment
