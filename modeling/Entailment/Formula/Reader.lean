import Entailment.Cursor
import Entailment.Formula.Basic
import Entailment.Log

/-!
# Reading formulas

A formula is an atom, a negation sign before a formula, or two formulas with an operator between
them in brackets.  The reader (`Formula.ofTokens`) looks one token ahead and stops after the
closing bracket.  It takes any token in the place of the operator: `∧` and `∨` are themselves and
every other one is the conditional.  Where neighbouring tokens fit that is mostly `→`, but it can be
a comma or `∴` as well, and after an atom `:=` or an opening bracket.
-/

namespace Entailment

namespace Formula

/-- The two sides joined by the connective that the operator token stands for. -/
def join (operator : Token) (left right : Formula) : Formula :=
  match operator with
  | .conj => conj left right
  | .disj => disj left right
  | _ => imp left right

/-- Reads a formula at the start of the tokens; fewer tokens are left after it. -/
def read : (tokens : List Token) →
    Except Halt (Formula × { rest : List Token // rest.length < tokens.length })
  | [] => .error .missing
  | .atom name :: rest => .ok (atom name, ⟨rest, by simp⟩)
  | .neg :: rest =>
    match read rest with
    | .error halt => .error halt
    | .ok (inner, ⟨after, _⟩) => .ok (neg inner, ⟨after, by simp; omega⟩)
  | .opening :: rest =>
    match read rest with
    | .error halt => .error halt
    | .ok (_, ⟨[], _⟩) => .error .missing
    | .ok (left, ⟨operator :: middle, _⟩) =>
      match read middle with
      | .error halt => .error halt
      | .ok (_, ⟨[], _⟩) => .error .missing
      | .ok (right, ⟨last :: after, _⟩) =>
        if last = .closing then .ok (join operator left right, ⟨after, by simp at *; omega⟩)
        else .error (.unexpected last after)
  | token :: rest => .error (.unexpected token rest)
termination_by tokens => tokens.length
decreasing_by all_goals (simp only [List.length_cons] at *; omega)

/-- Reads a formula at the start of the tokens, and gives the tokens after it. -/
def ofTokens (tokens : List Token) : Except Halt (Formula × List Token) :=
  (read tokens).map fun (f, rest) => (f, rest.val)

@[simp] theorem ofTokens_nil : ofTokens [] = .error .missing := by
  simp [ofTokens, read, Except.map]

@[simp] theorem ofTokens_atom (name : String) (rest : List Token) :
    ofTokens (.atom name :: rest) = .ok (atom name, rest) := by
  simp [ofTokens, read, Except.map]

theorem ofTokens_neg (rest : List Token) :
    ofTokens (.neg :: rest) =
      match ofTokens rest with
      | .error halt => .error halt
      | .ok (inner, after) => .ok (neg inner, after) := by
  rw [ofTokens, read, ofTokens]
  cases read rest <;> rfl

theorem ofTokens_opening (rest : List Token) :
    ofTokens (.opening :: rest) =
      match ofTokens rest with
      | .error halt => .error halt
      | .ok (_, []) => .error .missing
      | .ok (left, operator :: middle) =>
        match ofTokens middle with
        | .error halt => .error halt
        | .ok (_, []) => .error .missing
        | .ok (right, last :: after) =>
          if last = .closing then .ok (join operator left right, after)
          else .error (.unexpected last after) := by
  rw [ofTokens, read, ofTokens]
  cases read rest with
  | error halt => rfl
  | ok result =>
    obtain ⟨left, ⟨after, h⟩⟩ := result
    cases after with
    | nil => rfl
    | cons operator middle =>
      simp only [Except.map, ofTokens]
      cases read middle with
      | error halt => rfl
      | ok result =>
        obtain ⟨right, ⟨after, h⟩⟩ := result
        cases after with
        | nil => rfl
        | cons last after => by_cases hl : last = .closing <;> simp [hl]

/-- Every formula takes at least one token. -/
theorem length_lt_of_ofTokens {tokens rest : List Token} {f : Formula}
    (h : ofTokens tokens = .ok (f, rest)) : rest.length < tokens.length := by
  rw [ofTokens] at h
  cases hr : read tokens with
  | error halt => rw [hr] at h; cases h
  | ok result => rw [hr] at h; cases h; exact result.2.property

end Formula

namespace Cursor

/-- Reads a formula. -/
def formula (cursor : Cursor) : Except ParseError Formula × Cursor :=
  cursor.settle (Formula.ofTokens cursor.rest)

/-- Reads a formula, or nothing before a comma, a closing bracket or the conclusion sign. -/
def formula? (cursor : Cursor) : Except ParseError (Option Formula) × Cursor :=
  match cursor.rest with
  | .comma :: _ | .closing :: _ | .therefore :: _ => (.ok none, cursor)
  | _ =>
    let (result, after) := cursor.formula
    (result.map some, after)

end Cursor

namespace Token

/-- The tokens of a text whose neighbours fit, with the cursor before the first. -/
def cursor (text : String) : Except SyntaxError Cursor :=
  match scan text with
  | .error error => .error (.lexical error)
  | .ok tokens =>
    match TokenLine.checkAdjacency text tokens with
    | .error error => .error (.lexical error)
    | .ok () => .ok (.ofTokens tokens text)

end Token

namespace Formula

/-- The formula that a text spells. -/
def parse (text : String) : Except SyntaxError Formula :=
  match Token.cursor text with
  | .error error => .error error
  | .ok cursor =>
    match cursor.formula with
    | (.error error, _) => .error (.parse error)
    | (.ok f, after) =>
      match after.peek? with
      | none => .ok f
      | some extra => .error (.parse (after.unexpected extra after.position))

/-- Reads a formula from a text and leaves a record of it. -/
def parseLogged (text : String) : Logged (Except SyntaxError Formula) :=
  .onSuccess (parse text) fun f => [⟨.trace, .parser, s!"Parsed formula {f.render}"⟩]

end Formula

end Entailment
