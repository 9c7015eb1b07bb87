import Entailment.Proofs.BodyItems
import Entailment.Proofs.ViablePrefix

/-!
# The moves of a cursor

A reader gets the tokens after a cursor and says which of them it leaves, also where it fails; the
cursor then moves to where these begin.  What is left is always an end of the tokens, so a cursor
does nothing but pass over tokens of its line (`Cursor.ForwardTo`), whatever is done with it and
whether or not it succeeds.

* `Formula.leftover_ofTokens`, `Argument.leftover_readAfter` : readers leave an end of the tokens;
* `Formula.length_leftover_lt` : the reader of formulas takes a token if there is one, even when it
  fails;
* `Cursor.settle_moveTo` : a reading that starts at a later place can be told from the earlier one;
* `Cursor.Operation.forwardTo_perform` : **every operation on a cursor moves it forward**;
* `Cursor.forwardTo_performAll` : so does every sequence of operations;
* `Cursor.ForwardTo.standsIn` : a cursor that moves forward stays within the tokens.
-/

namespace Entailment

namespace Token

/-- The tokens before which no formula is looked for. -/
def separators : List Token := [.comma, .closing, .therefore]

theorem mem_separators {token : Token} :
    token ∈ separators ↔ token = .comma ∨ token = .closing ∨ token = .therefore := by
  simp [separators]

end Token

namespace Cursor

/-! ### Moving forward -/

section Forward

variable {cursor after last : Cursor} {tokens : List Token}

/-- The cursor gets to the other one by passing over some of the tokens after it. -/
def ForwardTo (cursor after : Cursor) : Prop :=
  ∃ used rest, cursor.rest = used ++ rest ∧ after = cursor.behind used rest

theorem ForwardTo.refl (cursor : Cursor) : cursor.ForwardTo cursor := ⟨[], cursor.rest, rfl, rfl⟩

theorem ForwardTo.trans (h : cursor.ForwardTo after) (h' : after.ForwardTo last) :
    cursor.ForwardTo last := by
  obtain ⟨used, rest, htokens, rfl⟩ := h
  obtain ⟨more, left, hrest, rfl⟩ := h'
  have hsplit : rest = more ++ left := hrest
  refine ⟨used ++ more, left, ?_, ?_⟩
  · rw [htokens, hsplit, List.append_assoc]
  · rw [behind, behind, behind, List.length_append, Nat.add_assoc]

theorem ForwardTo.position_le (h : cursor.ForwardTo after) : cursor.position ≤ after.position := by
  obtain ⟨used, rest, -, rfl⟩ := h
  exact Nat.le_add_right _ _

/-- The cursor stands in the tokens of a line: as many as its position says are before it, and the
others are after it. -/
def StandsIn (tokens : List Token) (cursor : Cursor) : Prop :=
  cursor.position ≤ tokens.length ∧ cursor.rest = tokens.drop cursor.position

theorem standsIn_ofTokens (tokens : List Token) (source : String) :
    (ofTokens tokens source).StandsIn tokens := ⟨Nat.zero_le _, rfl⟩

theorem StandsIn.length_rest (h : cursor.StandsIn tokens) :
    cursor.rest.length = tokens.length - cursor.position := by rw [h.2, List.length_drop]

/-- A cursor that moves forward stays within the tokens. -/
theorem ForwardTo.standsIn (h : cursor.ForwardTo after) (hs : cursor.StandsIn tokens) :
    after.StandsIn tokens := by
  obtain ⟨used, rest, htokens, rfl⟩ := h
  have hlength : used.length + rest.length = tokens.length - cursor.position := by
    rw [← hs.length_rest, htokens, List.length_append]
  constructor
  · have := hs.1
    simp only [behind]
    omega
  · calc rest = (used ++ rest).drop used.length := List.drop_left.symm
      _ = (tokens.drop cursor.position).drop used.length := by rw [← htokens, hs.2]
      _ = tokens.drop (cursor.position + used.length) := List.drop_drop

end Forward

/-! ### What readers leave -/

/-- The tokens that a reader leaves, also when it fails. -/
def leftover {α : Type} : Except Halt (α × List Token) → List Token
  | .ok (_, rest) => rest
  | .error halt => halt.rest

theorem settle_cursor {α : Type} (cursor : Cursor) (reading : Except Halt (α × List Token)) :
    (cursor.settle reading).2 = cursor.moveTo (leftover reading) := by
  rcases reading with halt | ⟨value, rest⟩ <;> rfl

theorem forwardTo_moveTo {cursor : Cursor} {rest : List Token} (h : rest <:+ cursor.rest) :
    cursor.ForwardTo (cursor.moveTo rest) := by
  obtain ⟨used, htokens⟩ := h
  exact ⟨used, rest, htokens.symm, moveTo_eq_behind htokens.symm⟩

theorem forwardTo_settle {α : Type} {cursor : Cursor} {reading : Except Halt (α × List Token)}
    (h : leftover reading <:+ cursor.rest) : cursor.ForwardTo (cursor.settle reading).2 := by
  rw [settle_cursor]
  exact forwardTo_moveTo h

end Cursor

open Cursor

namespace Formula

/-- Reading a formula leaves an end of the tokens. -/
theorem leftover_ofTokens (tokens : List Token) : leftover (ofTokens tokens) <:+ tokens := by
  rcases hr : ofTokens tokens with halt | ⟨f, rest⟩
  · cases halts_of_ofTokens_eq_error hr with
    | missing => exact List.nil_suffix
    | @unexpected used need token _ _ rest => exact ⟨used ++ [token], by simp [leftover, Halt.rest]⟩
  · obtain ⟨used, rfl, -⟩ := exists_derives hr
    exact List.suffix_append used rest

/-- Reading a formula takes a token if there is one, even when it fails. -/
theorem length_leftover_lt {tokens : List Token} (h : tokens ≠ []) :
    (leftover (ofTokens tokens)).length < tokens.length := by
  rcases hr : ofTokens tokens with halt | ⟨f, rest⟩
  · cases halts_of_ofTokens_eq_error hr with
    | missing => exact List.length_pos_iff.2 h
    | @unexpected used need token _ _ rest => simp [leftover, Halt.rest]; omega
  · exact length_lt_of_ofTokens hr

end Formula

namespace Argument

/-- Reading a body stops at an end of the tokens. -/
theorem leftover_readAfter (a : Argument) (tokens : List Token) :
    leftover ((readAfter a tokens).map fun b => (b, [])) <:+ tokens := by
  have hread : ∀ {halt tokens}, Formula.read tokens = .error halt → halt.rest <:+ tokens := by
    intro halt tokens hr
    have hleft := Formula.leftover_ofTokens tokens
    rwa [Formula.ofTokens, hr] at hleft
  have hrest : ∀ {f rest tokens} {hlt : rest.length < tokens.length},
      Formula.read tokens = .ok (f, ⟨rest, hlt⟩) → rest <:+ tokens := by
    intro f rest tokens hlt hr
    obtain ⟨used, rfl, -⟩ := Formula.exists_derives (ofTokens_of_read hr)
    exact List.suffix_append used rest
  fun_induction readAfter a tokens with
  | case1 => exact List.nil_suffix
  | case2 a rest ih => exact ih.trans (List.suffix_cons _ _)
  | case3 a rest hc => exact List.suffix_cons _ _
  | case4 a rest hc ih => exact ih.trans (List.suffix_cons _ _)
  | case5 a rest hc => exact List.suffix_cons _ _
  | case6 a rest hc halt hr => exact (hread hr).trans (List.suffix_cons _ _)
  | case7 a rest hc f after hlt hr ih =>
    exact (ih.trans (hrest hr)).trans (List.suffix_cons _ _)
  | case8 a token rest _ _ _ halt hr => exact hread hr
  | case9 a token rest _ _ _ f after hlt hr ih => exact ih.trans (hrest hr)

end Argument

namespace Cursor

/-! ### Settling from a later place -/

section Settle

variable {α : Type} {cursor : Cursor} {middle rest : List Token}

@[simp] theorem rest_moveTo (cursor : Cursor) (rest : List Token) :
    (cursor.moveTo rest).rest = rest := rfl

theorem moveTo_moveTo (hmiddle : middle.length ≤ cursor.rest.length)
    (hrest : rest.length ≤ middle.length) :
    (cursor.moveTo middle).moveTo rest = cursor.moveTo rest := by
  simp only [moveTo, mk.injEq, true_and, and_true]
  omega

/-- A reading that starts at a later place has the same outcome for the earlier cursor. -/
theorem settle_moveTo {reading : Except Halt (α × List Token)}
    (hmiddle : middle.length ≤ cursor.rest.length)
    (hleft : (leftover reading).length ≤ middle.length) :
    (cursor.moveTo middle).settle reading = cursor.settle reading := by
  rcases reading with halt | ⟨value, rest⟩
  · have hmove : (cursor.moveTo middle).moveTo halt.rest = cursor.moveTo halt.rest :=
      moveTo_moveTo hmiddle hleft
    have herror : (cursor.moveTo middle).errorOf halt = cursor.errorOf halt := by
      cases halt with
      | missing =>
        rw [errorOf, errorOf, show (cursor.moveTo middle).moveTo [] = _ from hmove]
        rfl
      | unexpected token rest =>
        rw [errorOf, errorOf, show (cursor.moveTo middle).moveTo rest = _ from hmove]
        rfl
    rw [settle, settle, herror, hmove]
  · have hmove : (cursor.moveTo middle).moveTo rest = cursor.moveTo rest :=
      moveTo_moveTo hmiddle hleft
    rw [settle, settle, hmove]

theorem formula_moveTo (h : middle.length ≤ cursor.rest.length) :
    (cursor.moveTo middle).formula = cursor.settle (Formula.ofTokens middle) :=
  settle_moveTo h (Formula.leftover_ofTokens middle).length_le

theorem advance_eq_ok {token : Token} (h : cursor.rest = token :: rest) :
    cursor.advance = (.ok token, cursor.moveTo rest) := by
  rw [advance, h]
  rfl

theorem advance_eq_error (h : cursor.rest = []) :
    cursor.advance = (.error (cursor.errorOf .missing), cursor.moveTo []) := by
  rw [advance, h]
  rfl

theorem advance_moveTo_cons {token : Token} (h : (token :: rest).length ≤ cursor.rest.length) :
    (cursor.moveTo (token :: rest)).advance = (.ok token, cursor.moveTo rest) := by
  rw [advance_eq_ok rfl, moveTo_moveTo h (by simp)]

theorem advance_moveTo_nil (cursor : Cursor) :
    (cursor.moveTo []).advance = (.error (cursor.errorOf .missing), cursor.moveTo []) := by
  have hsettle : (cursor.moveTo []).settle (.error .missing : Except Halt (Token × List Token)) =
      cursor.settle (.error .missing) := settle_moveTo (Nat.zero_le _) (Nat.zero_le _)
  exact hsettle

/-- The error at a token that does not fit names the place where the token stands. -/
theorem settle_unexpected {token : Token} (h : (token :: rest).length ≤ cursor.rest.length) :
    cursor.settle (.error (.unexpected token rest) : Except Halt (α × List Token)) =
      (.error (cursor.unexpected token (cursor.moveTo (token :: rest)).position),
        cursor.moveTo rest) := by
  have hposition :
      (cursor.moveTo rest).position - 1 = (cursor.moveTo (token :: rest)).position := by
    rw [List.length_cons] at h
    simp only [moveTo, List.length_cons]
    omega
  rw [settle, errorOf, hposition]
  rfl

theorem moveTo_self (h : cursor.rest = rest) : cursor.moveTo rest = cursor := by
  rw [moveTo, ← h, Nat.sub_self, Nat.add_zero]

end Settle

/-! ### Operations -/

/-- What can be done with a cursor. -/
inductive Operation where
  /-- Takes the next token. -/
  | advance
  /-- Takes the next token if it is the expected one. -/
  | eat (expected : Token)
  /-- Reads a formula, unless a separator stands there. -/
  | formula?
  /-- Reads a formula. -/
  | formula
  /-- Reads the body of an argument. -/
  | argument
  deriving DecidableEq, Repr

/-- The cursor after an operation, whether it succeeded or failed. -/
def Operation.perform (operation : Operation) (cursor : Cursor) : Cursor :=
  match operation with
  | advance => cursor.advance.2
  | eat expected => (cursor.eat expected).2
  | formula? => cursor.formula?.2
  | formula => cursor.formula.2
  | argument => cursor.argument.2

/-- The cursor after operations one after the other. -/
def performAll (cursor : Cursor) (operations : List Operation) : Cursor :=
  operations.foldl (fun reached operation => operation.perform reached) cursor

theorem forwardTo_advance (cursor : Cursor) : cursor.ForwardTo cursor.advance.2 := by
  refine forwardTo_settle ?_
  cases cursor.rest with
  | nil => exact List.nil_suffix
  | cons token rest => exact List.suffix_cons token rest

theorem forwardTo_eat (cursor : Cursor) (expected : Token) :
    cursor.ForwardTo (cursor.eat expected).2 := by
  rw [eat]
  split_ifs
  · exact forwardTo_moveTo (List.tail_suffix _)
  · exact .refl cursor

theorem forwardTo_formula (cursor : Cursor) : cursor.ForwardTo cursor.formula.2 :=
  forwardTo_settle (Formula.leftover_ofTokens _)

theorem forwardTo_argument (cursor : Cursor) : cursor.ForwardTo cursor.argument.2 :=
  forwardTo_settle (Argument.leftover_readAfter _ _)

/-! ### Separators -/

theorem not_start_of_mem_separators {token : Token} (h : token ∈ Token.separators) :
    ¬ ((∃ name, token = .atom name) ∨ token = .neg ∨ token = .opening) := by
  rcases Token.mem_separators.1 h with rfl | rfl | rfl <;> simp

theorem formula?_of_separator {cursor : Cursor} {token : Token} {rest : List Token}
    (hrest : cursor.rest = token :: rest) (h : token ∈ Token.separators) :
    cursor.formula? = (.ok none, cursor) := by
  rcases Token.mem_separators.1 h with rfl | rfl | rfl <;> simp [formula?, hrest]

theorem formula?_of_not_separator {cursor : Cursor}
    (h : ∀ token ∈ cursor.rest.head?, token ∉ Token.separators) :
    cursor.formula? = (cursor.formula.1.map some, cursor.formula.2) := by
  unfold formula?
  split
  · next rest hrest => simp [hrest, Token.separators] at h
  · next rest hrest => simp [hrest, Token.separators] at h
  · next rest hrest => simp [hrest, Token.separators] at h
  · rfl

/-- A separator stands after the cursor, or none does and a formula is read. -/
theorem formula?_cases (cursor : Cursor) :
    (∃ token rest, cursor.rest = token :: rest ∧ token ∈ Token.separators ∧
      cursor.formula? = (.ok none, cursor)) ∨
    (∀ token ∈ cursor.rest.head?, token ∉ Token.separators) ∧
      cursor.formula? = (cursor.formula.1.map some, cursor.formula.2) := by
  by_cases h : ∀ token ∈ cursor.rest.head?, token ∉ Token.separators
  · exact .inr ⟨h, formula?_of_not_separator h⟩
  · push Not at h
    obtain ⟨token, hhead, hmem⟩ := h
    obtain ⟨rest, hrest⟩ := List.head?_eq_some_iff.1 hhead
    exact .inl ⟨token, rest, hrest, hmem, formula?_of_separator hrest hmem⟩

theorem forwardTo_formula? (cursor : Cursor) : cursor.ForwardTo cursor.formula?.2 := by
  rcases formula?_cases cursor with ⟨token, rest, -, -, h⟩ | ⟨-, h⟩
  · rw [h]
    exact .refl cursor
  · rw [h]
    exact forwardTo_formula cursor

/-! ### Runs -/

/-- **Every operation on a cursor moves it forward**, whether it succeeds or fails. -/
theorem Operation.forwardTo_perform (operation : Operation) (cursor : Cursor) :
    cursor.ForwardTo (operation.perform cursor) := by
  cases operation with
  | advance => exact forwardTo_advance cursor
  | eat expected => exact forwardTo_eat cursor expected
  | formula? => exact forwardTo_formula? cursor
  | formula => exact forwardTo_formula cursor
  | argument => exact forwardTo_argument cursor

theorem forwardTo_performAll (cursor : Cursor) (operations : List Operation) :
    cursor.ForwardTo (cursor.performAll operations) := by
  induction operations generalizing cursor with
  | nil => exact .refl cursor
  | cons operation operations ih =>
    exact (operation.forwardTo_perform cursor).trans (ih (operation.perform cursor))

/-! ### Progress -/

section Progress

variable {cursor : Cursor}

/-- Reading a formula moves the cursor if a token is there, even when it fails. -/
theorem position_lt_formula (h : cursor.rest ≠ []) :
    cursor.position < cursor.formula.2.position := by
  have hlt := Formula.length_leftover_lt h
  rw [formula, settle_cursor, moveTo]
  simp only
  omega

/-- Where no formula is looked for, the cursor stays. -/
theorem formula?_stays (h : cursor.formula?.1 = .ok none) : cursor.formula?.2 = cursor := by
  rcases formula?_cases cursor with ⟨token, rest, -, -, hread⟩ | ⟨-, hread⟩
  · rw [hread]
  · rw [hread] at h
    cases hf : cursor.formula.1 <;> simp [hf, Except.map] at h

/-- Where a formula is looked for, the cursor moves if a token is there. -/
theorem position_lt_formula? (hrest : cursor.rest ≠ []) (h : cursor.formula?.1 ≠ .ok none) :
    cursor.position < cursor.formula?.2.position := by
  rcases formula?_cases cursor with ⟨token, rest, -, -, hread⟩ | ⟨-, hread⟩
  · rw [hread] at h
    exact absurd rfl h
  · rw [hread]
    exact position_lt_formula hrest

/-- Without a token there is no formula. -/
theorem rest_ne_nil_of_formula? {f : Formula} (h : cursor.formula?.1 = .ok (some f)) :
    cursor.rest ≠ [] := by
  intro hrest
  simp [formula?, formula, hrest, settle, Except.map] at h

end Progress

end Cursor

end Entailment
