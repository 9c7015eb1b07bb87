import Entailment.Schema.CodePoint

/-!
# Gaps between pieces

The pieces of a written schema are set apart by blanks and remarks.  A remark goes from two slashes
to the end of its line, or from a slash and a star to a star and a slash; remarks of the second form
nest.  A remark that opens with `///`, `//!`, `/**` or `/*!` documents what stands beside it and is
no gap, unless it opens with `////` or `/***` or is empty.
-/

namespace Entailment

namespace Gap

/-- The ranges of code points of the blanks: those of the property White_Space, and the marks for
writing from left to right and from right to left. -/
def blanks : List (Nat × Nat) :=
  [(0x09, 0x0D), (0x20, 0x20), (0x85, 0x85), (0xA0, 0xA0), (0x1680, 0x1680), (0x2000, 0x200A),
    (0x200E, 0x200F), (0x2028, 0x2029), (0x202F, 0x202F), (0x205F, 0x205F), (0x3000, 0x3000)]

/-- The characters between pieces. -/
def isBlank (c : Char) : Bool := CodePoint.within blanks c

/-- Whether a carriage return stands anywhere but before a newline. -/
def hasBareReturn : List Char → Bool
  | [] => false
  | '\r' :: '\n' :: rest => hasBareReturn rest
  | '\r' :: _ => true
  | _ :: rest => hasBareReturn rest

/-- A remark. -/
structure Remark where
  /-- The number of its characters after the first. -/
  extent : Nat
  /-- Whether it documents what stands beside it. -/
  documents : Bool
  deriving DecidableEq, Repr

/-- Whether a slash before this text opens a remark. -/
def opensRemark (rest : List Char) : Bool := rest.head? == some '/' || rest.head? == some '*'

/-- The number of characters up to the star and slash that close a remark inside which `depth`
remarks are open. -/
def blockExtent (depth : Nat) : List Char → Option Nat
  | [] => none
  | '/' :: '*' :: rest => (blockExtent (depth + 1) rest).map (· + 2)
  | '*' :: '/' :: rest =>
    match depth with
    | 0 => some 2
    | outer + 1 => (blockExtent outer rest).map (· + 2)
  | _ :: rest => (blockExtent depth rest).map (· + 1)

/-- Whether a remark whose second character is `mark` documents, by what follows that character. -/
def documents (mark : Char) : List Char → Bool
  | '!' :: _ => true
  | c :: next :: _ => c == mark && next != mark && !(mark == '*' && next == '/')
  | [c] => c == mark
  | [] => false

/-- A remark of this extent, after the characters of whose opening `body` stands.  No carriage
return is bare in a remark that documents. -/
def remarkOf (mark : Char) (body : List Char) (inside extent : Nat) : Option Remark :=
  if documents mark body && hasBareReturn (body.take inside) then none
  else some ⟨extent, documents mark body⟩

/-- The remark that a slash before this text opens, if it is closed. -/
def remark? : List Char → Option Remark
  | '/' :: body =>
    let line := (body.takeWhile (· != '\n')).length
    remarkOf '/' body (line + 1) (line + 1)
  | '*' :: body => (blockExtent 0 body).bind fun extent => remarkOf '*' body extent (extent + 1)
  | _ => none

end Gap

end Entailment
