import Entailment.Argument.Reader
import Entailment.Proofs.Derivation
import Mathlib.Data.List.Chain

/-!
# Parsing in stages

A text is parsed in three stages: it is scanned into tokens, every token is compared with the one
before it, and the tokens are read.  The positions and texts that errors need play no part in what
is accepted:

* `TokenLine.checkAdjacency_eq_ok_iff` : neighbouring tokens are compared pair by pair;
* `Formula.parse_eq_ok_iff` : a text is parsed as a formula when its tokens fit and derive it;
* `Argument.parse_eq_ok_iff` : a text is parsed as an argument when its tokens fit and are read as
  one.
-/

namespace Entailment

namespace TokenLine

/-- Every token may stand directly after the one before it. -/
def Fits (tokens : List Token) : Prop := tokens.IsChain fun first second => first.allows second

theorem checkPairs_eq_ok_iff {line : String} {position : ℕ} {tokens : List Token} :
    checkPairs line position tokens = .ok () ↔ Fits tokens := by
  induction tokens generalizing position with
  | nil => simp [checkPairs, Fits]
  | cons first rest ih =>
    cases rest with
    | nil => simp [checkPairs, Fits]
    | cons second rest =>
      rw [checkPairs, Fits, List.isChain_cons_cons]
      split_ifs with h
      · simp only [h, true_and]
        exact ih
      · simp [h]

theorem checkAdjacency_eq_ok_iff (line : String) {tokens : List Token} :
    checkAdjacency line tokens = .ok () ↔ Fits tokens :=
  checkPairs_eq_ok_iff

end TokenLine

open TokenLine

theorem Token.cursor_eq_ok_iff {text : String} {cursor : Cursor} :
    Token.cursor text = .ok cursor ↔
      ∃ tokens, Token.scan text = .ok tokens ∧ Fits tokens ∧ cursor = .ofTokens tokens text := by
  rw [Token.cursor]
  cases hs : Token.scan text with
  | error error => simp
  | ok tokens =>
    simp only [Except.ok.injEq, exists_eq_left']
    rw [← checkAdjacency_eq_ok_iff text]
    cases checkAdjacency text tokens with
    | error error => simp
    | ok value => simp [eq_comm]

namespace Formula

/-- A text is parsed as a formula when its tokens fit together and derive the formula. -/
theorem parse_eq_ok_iff {text : String} {f : Formula} :
    parse text = .ok f ↔
      ∃ tokens, Token.scan text = .ok tokens ∧ Fits tokens ∧ Derives tokens f := by
  constructor
  · intro h
    rw [parse] at h
    cases hc : Token.cursor text with
    | error error => simp [hc] at h
    | ok cursor =>
      obtain ⟨tokens, hscan, hfits, rfl⟩ := Token.cursor_eq_ok_iff.1 hc
      simp only [hc, Cursor.formula, Cursor.ofTokens, Cursor.settle] at h
      cases hr : ofTokens tokens with
      | error halt => simp [hr] at h
      | ok result =>
        obtain ⟨g, rest⟩ := result
        cases rest with
        | cons extra more => simp [hr, Cursor.peek?, Cursor.moveTo] at h
        | nil =>
          simp only [hr, Cursor.peek?, Cursor.moveTo, List.head?_nil, Except.ok.injEq] at h
          obtain ⟨used, rfl, hd⟩ := exists_derives hr
          exact ⟨used ++ [], hscan, hfits, by rwa [List.append_nil, ← h]⟩
  · rintro ⟨tokens, hscan, hfits, hd⟩
    have hr : ofTokens tokens = .ok (f, []) := by simpa using ofTokens_of_derives hd []
    rw [parse, Token.cursor_eq_ok_iff.2 ⟨tokens, hscan, hfits, rfl⟩]
    simp [Cursor.formula, Cursor.ofTokens, Cursor.settle, hr, Cursor.peek?, Cursor.moveTo]

end Formula

namespace Argument

/-- A text is parsed as an argument when its tokens fit together and are read as the argument. -/
theorem parse_eq_ok_iff {text : String} {a : Argument} :
    parse text = .ok a ↔
      ∃ tokens, Token.scan text = .ok tokens ∧ Fits tokens ∧ ofTokens tokens = .ok a := by
  constructor
  · intro h
    rw [parse] at h
    cases hc : Token.cursor text with
    | error error => simp [hc] at h
    | ok cursor =>
      obtain ⟨tokens, hscan, hfits, rfl⟩ := Token.cursor_eq_ok_iff.1 hc
      refine ⟨tokens, hscan, hfits, ?_⟩
      simp only [hc, Cursor.argument, Cursor.ofTokens] at h
      cases hr : ofTokens tokens with
      | error halt => simp [hr, Except.map, Cursor.settle, Except.mapError] at h
      | ok b =>
        simp only [hr, Except.map, Cursor.settle, Except.mapError] at h
        cases h
        rfl
  · rintro ⟨tokens, hscan, hfits, hr⟩
    rw [parse, Token.cursor_eq_ok_iff.2 ⟨tokens, hscan, hfits, rfl⟩]
    simp [Cursor.argument, Cursor.ofTokens, Cursor.settle, hr, Except.map, Except.mapError]

end Argument

end Entailment
