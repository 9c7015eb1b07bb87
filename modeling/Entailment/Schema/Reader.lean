import Entailment.Name
import Entailment.Schema.Basic
import Entailment.Schema.Piece

/-!
# Reading schemas

Negation binds strongest, then conjunction, disjunction and the conditional.  Conjunctions and
disjunctions group to the left, conditionals to the right, and round brackets override.  A quoted
text has to be the name of an atom; a word is a metavariable unless it is reserved.

Pieces that are left over before a closing bracket are skipped, and refused only when nothing else
is wrong with the schema.
-/

namespace Entailment

/-- Why a text is no schema. -/
inductive SchemaError where
  /-- A quoted text is not the name of an atom. -/
  | atomName
  /-- The pieces do not form a schema. -/
  | malformed
  deriving DecidableEq, Repr

/-- What a reader of `pieces` gives: a schema, whether pieces were skipped inside brackets, and the
pieces after it, of which there are fewer. -/
structure Schema.Read (pieces : List Piece) where
  /-- The schema. -/
  schema : Schema
  /-- Whether pieces were skipped. -/
  skipped : Bool
  /-- The pieces after the schema. -/
  rest : List Piece
  /-- Some pieces were read. -/
  shorter : rest.length < pieces.length

namespace SchemaError

/-- The text of the error, where it has one. -/
def message? : SchemaError → Option String
  | atomName => some <| "atomic propositions start with an uppercase letter followed by " ++
      "uppercase letters, digits, `_` or `'`"
  | malformed => none

end SchemaError

namespace Schema

/-- The words that are not metavariables. -/
def reserved : List String :=
  ["_", "abstract", "as", "async", "await", "become", "box", "break", "const", "continue", "crate",
    "do", "dyn", "else", "enum", "extern", "false", "final", "fn", "for", "if", "impl", "in", "let",
    "loop", "macro", "match", "mod", "move", "mut", "override", "priv", "pub", "ref", "return",
    "Self", "self", "static", "struct", "super", "trait", "true", "try", "type", "typeof", "unsafe",
    "unsized", "use", "virtual", "where", "while", "yield"]

/-- Takes the bracket that closes a group after what was read inside it, and skips the pieces before
the bracket if there are any. -/
def closeGroup {piece : Piece} {pieces : List Piece} (inner : Read pieces) :
    Read (piece :: pieces) where
  schema := inner.schema
  skipped := inner.skipped || inner.rest.head? != some (.closing .round)
  rest := Piece.afterGroup 0 inner.rest
  shorter := by
    have := inner.shorter
    have := Piece.length_afterGroup_le 0 inner.rest
    rw [List.length_cons]
    omega

mutual

/-- Reads a schema: conditionals, grouped to the right. -/
def readImp (pieces : List Piece) : Except SchemaError (Read pieces) :=
  match readDisj pieces with
  | .error error => .error error
  | .ok left =>
    match h : left.rest with
    | .arrow :: rest =>
      have : rest.length < pieces.length := by
        have := left.shorter
        rw [h, List.length_cons] at this
        omega
      match readImp rest with
      | .error error => .error error
      | .ok right =>
        .ok ⟨imp left.schema right.schema, left.skipped || right.skipped, right.rest, by
          have := right.shorter
          omega⟩
    | _ => .ok left
termination_by (pieces.length, 4)

/-- Reads disjunctions, grouped to the left. -/
def readDisj (pieces : List Piece) : Except SchemaError (Read pieces) :=
  match readConj pieces with
  | .error error => .error error
  | .ok left =>
    have := left.shorter
    readDisjAfter left
termination_by (pieces.length, 3)

/-- Goes on with a disjunction after its first members. -/
def readDisjAfter {pieces : List Piece} (left : Read pieces) : Except SchemaError (Read pieces) :=
  match h : left.rest with
  | .disjunction :: rest =>
    have : rest.length < left.rest.length := by rw [h, List.length_cons]; omega
    match readConj rest with
    | .error error => .error error
    | .ok right =>
      have : right.rest.length < left.rest.length := Nat.lt_trans right.shorter this
      readDisjAfter ⟨disj left.schema right.schema, left.skipped || right.skipped, right.rest, by
        have := left.shorter
        omega⟩
  | _ => .ok left
termination_by (left.rest.length, 0)

/-- Reads conjunctions, grouped to the left. -/
def readConj (pieces : List Piece) : Except SchemaError (Read pieces) :=
  match readNeg pieces with
  | .error error => .error error
  | .ok left =>
    have := left.shorter
    readConjAfter left
termination_by (pieces.length, 2)

/-- Goes on with a conjunction after its first members. -/
def readConjAfter {pieces : List Piece} (left : Read pieces) : Except SchemaError (Read pieces) :=
  match h : left.rest with
  | .conjunction :: rest =>
    have : rest.length < left.rest.length := by rw [h, List.length_cons]; omega
    match readNeg rest with
    | .error error => .error error
    | .ok right =>
      have : right.rest.length < left.rest.length := Nat.lt_trans right.shorter this
      readConjAfter ⟨conj left.schema right.schema, left.skipped || right.skipped, right.rest, by
        have := left.shorter
        omega⟩
  | _ => .ok left
termination_by (left.rest.length, 0)

/-- Reads negations, and what they stand before: a metavariable, an atom or a group. -/
def readNeg (pieces : List Piece) : Except SchemaError (Read pieces) :=
  match pieces with
  | .negation :: rest =>
    match readNeg rest with
    | .error error => .error error
    | .ok inner =>
      .ok ⟨neg inner.schema, inner.skipped, inner.rest, by
        have := inner.shorter
        rw [List.length_cons]
        omega⟩
  | .opening .round :: rest =>
    match readImp rest with
    | .error error => .error error
    | .ok inner => .ok (closeGroup inner)
  | .quoted text :: rest =>
    if Name.isAtom text then .ok ⟨atom text, false, rest, by simp⟩ else .error .atomName
  | .word text :: rest =>
    if reserved.contains text then .error .malformed else .ok ⟨var text, false, rest, by simp⟩
  | _ => .error .malformed
termination_by (pieces.length, 1)

end

/-- The schema that pieces spell, all of them used. -/
def ofPieces (pieces : List Piece) : Except SchemaError Schema :=
  match readImp pieces with
  | .error error => .error error
  | .ok ⟨schema, false, [], _⟩ => .ok schema
  | .ok _ => .error .malformed

/-- The schema that a text spells. -/
def parse (text : String) : Except SchemaError Schema :=
  match Piece.ofText? text with
  | none => .error .malformed
  | some pieces => ofPieces pieces

end Schema

end Entailment
