import Entailment.Proofs.Derivation

/-!
# Formulas at a cursor

A cursor reads a formula from the tokens after it.  Which tokens it takes for which formula is said
without the reader by `Formula.Written`, with one rule for each kind of formula: a conjunction has
`∧` between its two sides and a disjunction has `∨`, and a conditional has any other token there,
even a bracket or a comma.

* `Formula.written_iff_derives` : the rules are those of derivations, with the operators told apart;
* `Formula.Written.eq_of_append_eq` : at most one beginning of a list of tokens is a formula;
* `Cursor.formula_eq_ok_iff` : **what a cursor reads as a formula is a written formula**, and the
  cursor stands behind it then;
* `Cursor.takes_iff_written` : all of this about one cursor.
-/

namespace Entailment

namespace Formula

/-! ### Written formulas -/

/-- Two parts with an operator between them, in brackets. -/
def bracketed (left : List Token) (operator : Token) (right : List Token) : List Token :=
  .opening :: (left ++ operator :: (right ++ [.closing]))

/-- The tokens write the formula. -/
inductive Written : List Token → Formula → Prop
  /-- An atom is written as its name. -/
  | atom (name : String) : Written [.atom name] (atom name)
  /-- The negation sign stands before what is negated. -/
  | neg {used : List Token} {inner : Formula} (h : Written used inner) :
    Written (.neg :: used) (neg inner)
  /-- A conjunction has its sign between the two sides. -/
  | conj {used more : List Token} {left right : Formula} (hl : Written used left)
    (hr : Written more right) : Written (bracketed used .conj more) (conj left right)
  /-- A disjunction has its sign between the two sides. -/
  | disj {used more : List Token} {left right : Formula} (hl : Written used left)
    (hr : Written more right) : Written (bracketed used .disj more) (disj left right)
  /-- A conditional has any other token between the two sides. -/
  | imp {operator : Token} {used more : List Token} {left right : Formula}
    (hconj : operator ≠ .conj) (hdisj : operator ≠ .disj) (hl : Written used left)
    (hr : Written more right) : Written (bracketed used operator more) (imp left right)

theorem join_of_ne {operator : Token} (hconj : operator ≠ .conj) (hdisj : operator ≠ .disj)
    (left right : Formula) : join operator left right = imp left right := by
  unfold join
  split
  · contradiction
  · contradiction
  · rfl

theorem Written.derives {tokens : List Token} {f : Formula} (h : Written tokens f) :
    Derives tokens f := by
  induction h with
  | atom name => exact .atom name
  | neg _ ih => exact .neg ih
  | conj _ _ ihl ihr => exact .join .conj ihl ihr
  | disj _ _ ihl ihr => exact .join .disj ihl ihr
  | imp hconj hdisj _ _ ihl ihr =>
    rw [← join_of_ne hconj hdisj]
    exact .join _ ihl ihr

theorem Derives.written {tokens : List Token} {f : Formula} (h : Derives tokens f) :
    Written tokens f := by
  induction h with
  | atom name => exact .atom name
  | neg _ ih => exact .neg ih
  | join operator _ _ ihl ihr =>
    by_cases hconj : operator = .conj
    · subst hconj
      exact .conj ihl ihr
    · by_cases hdisj : operator = .disj
      · subst hdisj
        exact .disj ihl ihr
      · rw [join_of_ne hconj hdisj]
        exact .imp hconj hdisj ihl ihr

theorem written_iff_derives {tokens : List Token} {f : Formula} :
    Written tokens f ↔ Derives tokens f :=
  ⟨Written.derives, Derives.written⟩

/-- What is read is a written formula, and whatever follows it is left over. -/
theorem ofTokens_eq_ok_iff {tokens rest : List Token} {f : Formula} :
    ofTokens tokens = .ok (f, rest) ↔ ∃ used, tokens = used ++ rest ∧ Written used f := by
  simp only [written_iff_derives]
  constructor
  · exact exists_derives
  · rintro ⟨used, rfl, h⟩
    exact ofTokens_of_derives h rest

/-- Two written formulas at the start of the same tokens are the same one: the reader, which sees
only the tokens, would give both of them. -/
theorem Written.eq_of_append_eq {used more rest after : List Token} {f g : Formula}
    (hf : Written used f) (hg : Written more g) (h : used ++ rest = more ++ after) :
    used = more ∧ f = g := by
  have hread : ofTokens (used ++ rest) = .ok (f, rest) := ofTokens_eq_ok_iff.2 ⟨used, rfl, hf⟩
  have hread' : ofTokens (used ++ rest) = .ok (g, after) := ofTokens_eq_ok_iff.2 ⟨more, h, hg⟩
  rw [hread, Except.ok.injEq, Prod.mk.injEq] at hread'
  obtain ⟨hfg, rfl⟩ := hread'
  exact ⟨List.append_cancel_right h, hfg⟩

end Formula

namespace Cursor

open Formula

/-! ### Reading at a cursor -/

/-- The cursor behind the tokens `used`, with `rest` after it. -/
def behind (cursor : Cursor) (used rest : List Token) : Cursor :=
  ⟨cursor.source, cursor.position + used.length, rest⟩

theorem moveTo_eq_behind {cursor : Cursor} {used rest : List Token}
    (h : cursor.rest = used ++ rest) : cursor.moveTo rest = cursor.behind used rest := by
  unfold moveTo behind
  rw [h, List.length_append, Nat.add_sub_cancel]

/-- **What a cursor reads as a formula is a written formula**, and the cursor stands behind it
then. -/
theorem formula_eq_ok_iff {cursor after : Cursor} {f : Formula} :
    cursor.formula = (.ok f, after) ↔
      ∃ used rest, cursor.rest = used ++ rest ∧ Written used f ∧
        after = cursor.behind used rest := by
  constructor
  · intro h
    rw [formula] at h
    cases hr : Formula.ofTokens cursor.rest with
    | error halt => simp [hr, settle] at h
    | ok result =>
      obtain ⟨g, rest⟩ := result
      simp only [hr, settle, Prod.mk.injEq, Except.ok.injEq] at h
      obtain ⟨rfl, rfl⟩ := h
      obtain ⟨used, htokens, hw⟩ := ofTokens_eq_ok_iff.1 hr
      exact ⟨used, rest, htokens, hw, moveTo_eq_behind htokens⟩
  · rintro ⟨used, rest, htokens, hw, rfl⟩
    rw [formula, ofTokens_eq_ok_iff.2 ⟨used, htokens, hw⟩, settle, moveTo_eq_behind htokens]

/-- The cursor reads the formula, takes the tokens `used` for it and stands behind them then. -/
def Takes (cursor : Cursor) (used : List Token) (f : Formula) : Prop :=
  ∃ rest, cursor.rest = used ++ rest ∧ cursor.formula = (.ok f, cursor.behind used rest)

theorem takes_iff {cursor : Cursor} {used : List Token} {f : Formula} :
    cursor.Takes used f ↔ used <+: cursor.rest ∧ Written used f := by
  constructor
  · rintro ⟨rest, htokens, h⟩
    obtain ⟨taken, left, hsplit, hw, hafter⟩ := formula_eq_ok_iff.1 h
    -- the same tokens are left over, so the same tokens were taken
    have hrest : rest = left := congrArg Cursor.rest hafter
    subst hrest
    obtain rfl : used = taken := List.append_cancel_right (htokens.symm.trans hsplit)
    exact ⟨⟨rest, htokens.symm⟩, hw⟩
  · rintro ⟨⟨rest, htokens⟩, hw⟩
    exact ⟨rest, htokens.symm, formula_eq_ok_iff.2 ⟨used, rest, htokens.symm, hw, rfl⟩⟩

/-- **A cursor takes tokens for a formula exactly when they are the next ones and write it.**  What
follows them plays no part, and no other beginning of the tokens writes a formula. -/
theorem takes_iff_written (cursor : Cursor) :
    (∀ used f, cursor.Takes used f ↔ used <+: cursor.rest ∧ Written used f) ∧
    (∀ used f, cursor.Takes used f → ∀ rest, { cursor with rest := used ++ rest }.Takes used f) ∧
    ∀ used f more g, used <+: cursor.rest → Written used f → more <+: cursor.rest →
      Written more g → used = more ∧ f = g := by
  refine ⟨fun used f => takes_iff, ?_, ?_⟩
  · intro used f h rest
    exact takes_iff.2 ⟨List.prefix_append used rest, (takes_iff.1 h).2⟩
  · rintro used f more g ⟨rest, hrest⟩ hf ⟨after, hafter⟩ hg
    exact hf.eq_of_append_eq hg (hrest.trans hafter.symm)

/-- From `(P, ¬Q) ∴ R` the conditional of `P` and `¬Q` is taken, with the comma as its operator, and
so it is whatever else follows; there is no shorter or longer formula at the start. -/
theorem conditional_taken_with_comma :
    let used : List Token := [.opening, .atom "P", .comma, .neg, .atom "Q", .closing]
    let f : Formula := .imp (.atom "P") (.neg (.atom "Q"))
    let cursor : Cursor := ⟨"(P, ¬Q) ∴ R", 0, used ++ [Token.therefore, .atom "R"]⟩
    cursor.Takes used f ∧ { cursor with rest := used ++ [Token.closing] }.Takes used f ∧
      ∀ more g, more <+: cursor.rest → Written more g → used = more ∧ f = g := by
  intro used f cursor
  have hw : Written used f :=
    .imp (by decide) (by decide) (.atom "P") (.neg (.atom "Q"))
  have hbegins : used <+: cursor.rest := List.prefix_append used _
  obtain ⟨htakes, hrest, hunique⟩ := takes_iff_written cursor
  have h : cursor.Takes used f := (htakes used f).2 ⟨hbegins, hw⟩
  refine ⟨h, hrest used f h [.closing], ?_⟩
  intro more g hmore hg
  exact hunique used f more g hbegins hw hmore hg

end Cursor

end Entailment
