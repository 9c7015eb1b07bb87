import Entailment.Comment
import Entailment.Error
import Entailment.Name
import Entailment.Token

/-!
# Lexemes

A line without its comment is a sequence of lexemes: blanks, quoted texts, symbols, names and
keywords.  `Lexeme.read` reads the lexeme at the start of a text and says how far it reaches, and
`Token.scan` reads a whole line lexeme by lexeme.

A name or a keyword has to be followed by the end of the line or by a character that separates it
from what comes next; after the name of an atom that may be a symbol, after a word only a blank.
The first lexeme at fault is reported, with the character that does not fit.
-/

namespace Entailment

/-- A character that does not fit, `offset` characters after the start of its lexeme. -/
structure Misfit where
  /-- The character. -/
  character : Char
  /-- Its distance from the start of the lexeme. -/
  offset : Nat
  deriving DecidableEq, Repr

/-- A lexeme. -/
structure Lexeme where
  /-- The token it stands for; blanks stand for none. -/
  token? : Option Token
  /-- The number of its characters after the first. -/
  extent : Nat
  /-- The keyword it spells, if it is one. -/
  keyword? : Option String := none
  deriving DecidableEq, Repr

namespace Lexeme

/-- The lexeme, provided that the text after it is empty or starts with a character that `ends`
accepts. -/
def closedBy (ends : Char → Bool) (lexeme : Lexeme) (after : List Char) : Except Misfit Lexeme :=
  match after with
  | [] => .ok lexeme
  | c :: _ => if ends c then .ok lexeme else .error ⟨c, lexeme.extent + 1⟩

/-- The quoted text whose opening quote stands before `rest`. -/
def readText (rest : List Char) : Except Misfit Lexeme :=
  let inside := rest.takeWhile (· != '"')
  if inside.length < rest.length then
    .ok { token? := some (.text (String.ofList inside)), extent := inside.length + 1 }
  else .error ⟨rest.getLast?.getD '"', rest.length⟩

/-- The symbol of two characters that starts with `c`. -/
def readPair (c : Char) (rest : List Char) : Except Misfit Lexeme :=
  match rest with
  | [] => .error ⟨c, 0⟩
  | d :: _ =>
    match Token.ofPair? c d with
    | some token => .ok { token? := some token, extent := 1 }
    | none => .error ⟨d, 1⟩

/-- The atom whose name starts with `c`. -/
def readAtom (c : Char) (rest : List Char) : Except Misfit Lexeme :=
  let tail := rest.takeWhile Name.continuesAtom
  closedBy Name.endsAtom
    { token? := some (.atom (String.ofList (c :: tail))), extent := tail.length }
    (rest.dropWhile Name.continuesAtom)

/-- The keyword at the start of a text, and its token. -/
def keywordAt? (text : List Char) : Option (String × Token) :=
  Token.keywords.find? fun entry => entry.1.toList.isPrefixOf text

/-- The keyword or identifier that starts with `c`.  A keyword is read wherever one is spelled, so
no identifier starts with a keyword. -/
def readWord (c : Char) (rest : List Char) : Except Misfit Lexeme :=
  match keywordAt? (c :: rest) with
  | some (word, token) =>
    let extent := word.toList.length - 1
    closedBy Name.isBlank { token? := some token, extent, keyword? := some word }
      (rest.drop extent)
  | none =>
    let tail := rest.takeWhile Name.continuesIdentifier
    closedBy Name.isBlank
      { token? := some (.identifier (String.ofList (c :: tail))), extent := tail.length }
      (rest.dropWhile Name.continuesIdentifier)

/-- The lexeme at the start of the text `c :: rest`. -/
def read (c : Char) (rest : List Char) : Except Misfit Lexeme :=
  if Name.isBlank c then .ok { token? := none, extent := 0 }
  else if c == '"' then readText rest
  else
    match Token.ofChar? c with
    | some token => .ok { token? := some token, extent := 0 }
    | none =>
      if Token.startsPair c then readPair c rest
      else if c.isUpper then readAtom c rest
      else if c.isLower then readWord c rest
      else .error ⟨c, 0⟩

/-- The keyword that the lexeme repeats: one that a line may use only once, and that is among those
used before. -/
def repetition? (used : List String) (lexeme : Lexeme) : Option String :=
  lexeme.keyword?.filter fun word => Token.unrepeatable.contains word && used.contains word

end Lexeme

namespace Token

/-- The tokens of the text that starts at `position` of `line`; `used` are the keywords before. -/
def scanFrom (line : String) (position : Nat) (used : List String) :
    List Char → Except LexicalError (List Token)
  | [] => .ok []
  | c :: rest =>
    match Lexeme.read c rest with
    | .error misfit =>
      .error (.unexpectedCharacter misfit.character (position + misfit.offset) line)
    | .ok lexeme =>
      match lexeme.repetition? used with
      | some word => .error (.unexpectedSymbol word position line)
      | none =>
        (scanFrom line (position + lexeme.extent + 1) (lexeme.keyword?.toList ++ used)
          (rest.drop lexeme.extent)).map (lexeme.token?.toList ++ ·)
termination_by text => text.length
decreasing_by simp only [List.length_cons, List.length_drop]; omega

/-- The tokens of a line. -/
def scan (line : String) : Except LexicalError (List Token) :=
  scanFrom line 0 [] (Comment.strip line).toList

end Token

end Entailment
