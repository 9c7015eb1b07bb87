import Entailment.Line

/-!
# Program texts

A program text is read line by line.  A line ends at a newline, and a carriage return directly
before the newline belongs to it; after the last newline there is no further line unless it has
characters.  The same rule splits characters and bytes; bytes are decoded line by line, so that a
bad line is noticed only when it is reached.

A `Reading` holds the lines accepted before the first fault, and the fault.
-/

namespace Entailment

/-- What reading a text gives: the lines accepted, up to the first fault if there is one. -/
structure Reading (ε : Type) where
  /-- The accepted lines that are not blank. -/
  lines : List TokenLine
  /-- What stopped the reading before the end of the text. -/
  fault? : Option ε

namespace Reading

variable {ε : Type}

/-- The lines of a text that is read to its end. -/
def toExcept (reading : Reading ε) : Except ε (List TokenLine) :=
  match reading.fault? with
  | none => .ok reading.lines
  | some fault => .error fault

/-- The records of a reading: every accepted line, and their number when the end is reached. -/
def records (reading : Reading ε) : List Record :=
  reading.lines.map TokenLine.accepted ++
    match reading.fault? with
    | none => [⟨.debug, .lexer, s!"Tokenized {reading.lines.length} statements"⟩]
    | some _ => []

/-- The result of a reading with its records. -/
def logged (reading : Reading ε) : Logged (Except ε (List TokenLine)) :=
  ⟨reading.toExcept, reading.records⟩

/-- Reads lines, the first of which has the given number; a line may be unreadable itself. -/
def ofLines (lift : LexicalError → ε) (number : Nat) : List (Except ε String) → Reading ε
  | [] => ⟨[], none⟩
  | .error fault :: _ => ⟨[], some fault⟩
  | .ok source :: rest =>
    match TokenLine.ofText? number source with
    | .error error => ⟨[], some (lift error)⟩
    | .ok line? =>
      let after := ofLines lift (number + 1) rest
      ⟨line?.toList ++ after.lines, after.fault?⟩

end Reading

namespace Source

variable {α : Type} [DecidableEq α]

/-- The lines of a text after the characters `line` of an unfinished line, last one first. -/
def splitAfter (newline carriage : α) (line : List α) : List α → List (List α)
  | [] => if line.isEmpty then [] else [line.reverse]
  | c :: rest =>
    if c = newline then
      (if line.head? = some carriage then line.tail else line).reverse ::
        splitAfter newline carriage [] rest
    else splitAfter newline carriage (c :: line) rest

/-- The lines of a text. -/
def lines (text : String) : List String :=
  (splitAfter '\n' '\r' [] text.toList).map String.ofList

/-- The lines of a sequence of bytes. -/
def byteLines (bytes : List UInt8) : List (List UInt8) := splitAfter 10 13 [] bytes

/-- The failure of decoding bytes that are no text. -/
def notText : StreamError := ⟨.invalidData, "stream did not contain valid UTF-8"⟩

/-- The text that bytes encode. -/
def decode (bytes : List UInt8) : Except StreamError String :=
  match String.fromUTF8? ⟨bytes.toArray⟩ with
  | some text => .ok text
  | none => .error notText

/-- The bytes that encode a text. -/
def encode (text : String) : List UInt8 := text.toUTF8.data.toList

/-- Reads a program text. -/
def read (text : String) : Reading LexicalError :=
  .ofLines id 1 ((lines text).map .ok)

/-- Reads a program from bytes. -/
def readBytes (bytes : List UInt8) : Reading Error :=
  .ofLines .lexical 1 ((byteLines bytes).map fun line => (decode line).mapError .stream)

end Source

end Entailment
