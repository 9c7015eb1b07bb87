import Entailment.Proofs.FormulaSpelling

/-!
# Where the reading of a formula halts

A formula is read from left to right without going back, and at every place the tokens before it
leave one need open (`Formula.Need`): a formula has to start, or an operator has to stand there, or
a closing bracket.  Tokens with an open need can be completed to a formula.  The reader goes on as
long as the next token meets the need, so it halts at the first token that no continuation can
repair, or at the end of the tokens.

* `Formula.Pending` : the tokens begin a formula, and leave the need open;
* `Formula.Pending.exists_completion` : such tokens can be completed to a formula;
* `Formula.Pending.ofTokens_eq_unexpected` : a token that does not meet the need is reported,
  whatever follows it;
* `Formula.halts_of_ofTokens_eq_error` : **a reader that halts has read tokens with an open need**,
  which the token at the halt does not meet;
* `Cursor.formula_error_located` : the errors of a cursor name the place of the halt.
-/

namespace Entailment

namespace Formula

/-! ### Open needs -/

/-- What has to come next in a formula. -/
inductive Need where
  /-- The first token of a formula. -/
  | formula
  /-- An operator. -/
  | operator
  /-- A closing bracket. -/
  | closing
  deriving DecidableEq, Repr

/-- The token meets the need.  Every token can stand for an operator. -/
def Need.MetBy : Need → Token → Prop
  | formula, token => (∃ name, token = .atom name) ∨ token = .neg ∨ token = .opening
  | operator, _ => True
  | closing, token => token = .closing

/-- The tokens begin a formula and leave the need open. -/
inductive Pending : List Token → Need → Prop
  /-- Nothing has been read. -/
  | start : Pending [] .formula
  /-- The need is open in what is negated. -/
  | neg {used : List Token} {need : Need} (h : Pending used need) : Pending (.neg :: used) need
  /-- The need is open on the left of a bracket. -/
  | left {used : List Token} {need : Need} (h : Pending used need) : Pending (.opening :: used) need
  /-- The left of a bracket is complete. -/
  | operator {used : List Token} {left : Formula} (hl : Derives used left) :
    Pending (.opening :: used) .operator
  /-- The need is open on the right of a bracket. -/
  | right (operator : Token) {used more : List Token} {left : Formula} {need : Need}
    (hl : Derives used left) (h : Pending more need) :
    Pending (.opening :: (used ++ operator :: more)) need
  /-- Both sides of a bracket are complete. -/
  | closing (operator : Token) {used more : List Token} {left right : Formula}
    (hl : Derives used left) (hr : Derives more right) :
    Pending (.opening :: (used ++ operator :: more)) .closing

/-- Tokens that leave a need open can be completed to a formula. -/
theorem Pending.exists_completion {used : List Token} {need : Need} (h : Pending used need) :
    ∃ ending f, Derives (used ++ ending) f := by
  have hatom : Derives [.atom "P"] (Formula.atom "P") := .atom "P"
  induction h with
  | start => exact ⟨[.atom "P"], Formula.atom "P", hatom⟩
  | neg _ ih =>
    obtain ⟨ending, f, hf⟩ := ih
    exact ⟨ending, Formula.neg f, .neg hf⟩
  | left _ ih =>
    obtain ⟨ending, f, hf⟩ := ih
    refine ⟨ending ++ Token.imp :: ([Token.atom "P"] ++ [Token.closing]),
      join .imp f (Formula.atom "P"), ?_⟩
    rw [List.cons_append, ← List.append_assoc]
    exact .join .imp hf hatom
  | @operator used left hl =>
    refine ⟨Token.imp :: ([Token.atom "P"] ++ [Token.closing]),
      join .imp left (Formula.atom "P"), ?_⟩
    exact .join .imp hl hatom
  | @right operator used more left need hl _ ih =>
    obtain ⟨ending, f, hf⟩ := ih
    refine ⟨ending ++ [Token.closing], join operator left f, ?_⟩
    rw [List.cons_append, List.append_assoc, List.cons_append, ← List.append_assoc _ ending]
    exact .join operator hl hf
  | @closing operator used more left right hl hr =>
    refine ⟨[Token.closing], join operator left right, ?_⟩
    rw [List.cons_append, List.append_assoc, List.cons_append]
    exact .join operator hl hr

/-- A token that does not meet the open need is reported, whatever follows it. -/
theorem Pending.ofTokens_eq_unexpected {used : List Token} {need : Need} (h : Pending used need)
    {token : Token} (hneed : ¬ need.MetBy token) (rest : List Token) :
    ofTokens (used ++ token :: rest) = .error (.unexpected token rest) := by
  induction h with
  | start => exact ofTokens_of_not_start hneed rest
  | neg _ ih => rw [List.cons_append, ofTokens_neg, ih hneed]
  | left _ ih => rw [List.cons_append, ofTokens_opening, ih hneed]
  | operator _ => exact absurd trivial hneed
  | right operator hl _ ih =>
    rw [List.cons_append, List.append_assoc, List.cons_append, ofTokens_opening,
      ofTokens_of_derives hl]
    simp only [ih hneed]
  | closing operator hl hr =>
    have hclosing : token ≠ .closing := hneed
    rw [List.cons_append, List.append_assoc, List.cons_append, ofTokens_opening,
      ofTokens_of_derives hl]
    simp only [ofTokens_of_derives hr, if_neg hclosing]

/-! ### Halts -/

/-- The reader of the tokens comes to this halt, behind tokens that leave a need open: no token is
left there, or the next one does not meet the need. -/
inductive Halts : List Token → Halt → Prop
  /-- No token is left. -/
  | missing {used : List Token} {need : Need} (h : Pending used need) : Halts used .missing
  /-- The next token does not meet the need. -/
  | unexpected {used : List Token} {need : Need} {token : Token} (h : Pending used need)
    (hneed : ¬ need.MetBy token) (rest : List Token) :
    Halts (used ++ token :: rest) (.unexpected token rest)

theorem Halts.neg {tokens : List Token} {halt : Halt} (h : Halts tokens halt) :
    Halts (.neg :: tokens) halt := by
  cases h with
  | missing hp => exact .missing (.neg hp)
  | unexpected hp hneed rest => exact .unexpected (.neg hp) hneed rest

theorem Halts.left {tokens : List Token} {halt : Halt} (h : Halts tokens halt) :
    Halts (.opening :: tokens) halt := by
  cases h with
  | missing hp => exact .missing (.left hp)
  | unexpected hp hneed rest => exact .unexpected (.left hp) hneed rest

theorem Halts.right {used tokens : List Token} {left : Formula} {halt : Halt} (operator : Token)
    (hl : Derives used left) (h : Halts tokens halt) :
    Halts (.opening :: (used ++ operator :: tokens)) halt := by
  cases h with
  | missing hp => exact .missing (.right operator hl hp)
  | unexpected hp hneed rest =>
    have hhalts := Halts.unexpected (.right operator hl hp) hneed rest
    rwa [List.cons_append, List.append_assoc, List.cons_append] at hhalts

theorem ofTokens_neg_eq_error {after : List Token} {halt : Halt}
    (h : ofTokens (.neg :: after) = .error halt) : ofTokens after = .error halt := by
  rw [ofTokens_neg] at h
  cases hi : ofTokens after with
  | error found => simpa [hi] using h
  | ok result => simp [hi] at h

/-- A bracket is left unread on its left, before its operator, on its right, or at its end. -/
theorem ofTokens_opening_eq_error {after : List Token} {halt : Halt}
    (h : ofTokens (.opening :: after) = .error halt) :
    ofTokens after = .error halt ∨
    (∃ left, ofTokens after = .ok (left, []) ∧ halt = .missing) ∨
    ∃ left operator middle, ofTokens after = .ok (left, operator :: middle) ∧
      (ofTokens middle = .error halt ∨
      (∃ right, ofTokens middle = .ok (right, []) ∧ halt = .missing) ∨
      ∃ right last rest, ofTokens middle = .ok (right, last :: rest) ∧ last ≠ .closing ∧
        halt = .unexpected last rest) := by
  rw [ofTokens_opening] at h
  rcases hl : ofTokens after with found | ⟨left, _ | ⟨operator, middle⟩⟩
  · simp only [hl] at h
    exact .inl h
  · simp only [hl, Except.error.injEq] at h
    exact .inr (.inl ⟨left, rfl, h.symm⟩)
  · refine .inr (.inr ⟨left, operator, middle, rfl, ?_⟩)
    rcases hr : ofTokens middle with found | ⟨right, _ | ⟨last, rest⟩⟩
    · simp only [hl, hr] at h
      exact .inl h
    · simp only [hl, hr, Except.error.injEq] at h
      exact .inr (.inl ⟨right, rfl, h.symm⟩)
    · by_cases hlast : last = .closing
      · simp [hl, hr, hlast] at h
      · simp only [hl, hr, if_neg hlast, Except.error.injEq] at h
        exact .inr (.inr ⟨right, last, rest, rfl, hlast, h.symm⟩)

/-- What a bracket halts at, given where its sides halt. -/
theorem halts_of_opening_eq_error {after : List Token} {halt : Halt}
    (h : ofTokens (.opening :: after) = .error halt)
    (ih : ∀ {tokens : List Token} {halt : Halt}, tokens.length ≤ after.length →
      ofTokens tokens = .error halt → Halts tokens halt) : Halts (.opening :: after) halt := by
  rcases ofTokens_opening_eq_error h with
    hleft | ⟨left, hl, rfl⟩ | ⟨left, operator, middle, hl, hright⟩
  · exact (ih (Nat.le_refl _) hleft).left
  · obtain ⟨used, rfl, hd⟩ := exists_derives hl
    rw [List.append_nil]
    exact .missing (.operator hd)
  · obtain ⟨used, rfl, hd⟩ := exists_derives hl
    rcases hright with hright | ⟨right, hr, rfl⟩ | ⟨right, last, rest, hr, hlast, rfl⟩
    · exact (ih (by simp; omega) hright).right operator hd
    · obtain ⟨more, rfl, hd'⟩ := exists_derives hr
      rw [List.append_nil]
      exact .missing (.closing operator hd hd')
    · obtain ⟨more, rfl, hd'⟩ := exists_derives hr
      have hhalts := Halts.unexpected (.closing operator hd hd') hlast rest
      rwa [List.cons_append, List.append_assoc, List.cons_append] at hhalts

/-- **A reader that halts has read tokens with an open need**, which the token at the halt does not
meet. -/
theorem halts_of_ofTokens_eq_error {tokens : List Token} {halt : Halt}
    (h : ofTokens tokens = .error halt) : Halts tokens halt := by
  -- what is negated and both sides of a bracket are read from fewer tokens
  induction hn : tokens.length using Nat.strongRecOn generalizing tokens halt with
  | ind n ih =>
    subst hn
    cases tokens with
    | nil =>
      rw [ofTokens_nil, Except.error.injEq] at h
      subst h
      exact .missing .start
    | cons token after =>
      by_cases hstart : (∃ name, token = .atom name) ∨ token = .neg ∨ token = .opening
      · rcases hstart with ⟨name, rfl⟩ | rfl | rfl
        · simp at h
        · exact (ih _ (by simp) (ofTokens_neg_eq_error h) rfl).neg
        · refine halts_of_opening_eq_error h fun hle htokens => ?_
          exact ih _ (by simp; omega) htokens rfl
      · rw [ofTokens_of_not_start hstart, Except.error.injEq] at h
        subst h
        exact .unexpected .start hstart after

end Formula

namespace Cursor

open Formula

/-! ### Errors at a cursor -/

/-- The cursor of a line whose tokens are `before` and, from the cursor on, `rest`. -/
def between (source : String) (before rest : List Token) : Cursor := ⟨source, before.length, rest⟩

/-- Some continuation of the tokens is read as a formula, up to its last token. -/
def Completable (cursor : Cursor) : Prop :=
  ∃ ending f after, { cursor with rest := cursor.rest ++ ending }.formula = (.ok f, after) ∧
    after.isExhausted

/-- No continuation of the tokens is read as a formula, not even with tokens left over. -/
def Hopeless (cursor : Cursor) : Prop :=
  ∀ ending f after, { cursor with rest := cursor.rest ++ ending }.formula ≠ (.ok f, after)

theorem completable_of_pending {cursor : Cursor} {need : Need} (h : Pending cursor.rest need) :
    cursor.Completable := by
  obtain ⟨ending, f, hf⟩ := h.exists_completion
  refine ⟨ending, f, _, formula_eq_ok_iff.2 ⟨_, [], ?_, hf.written, rfl⟩, rfl⟩
  exact (List.append_nil _).symm

theorem hopeless_of_pending {cursor : Cursor} {used : List Token} {need : Need} {token : Token}
    (h : Pending used need) (hneed : ¬ need.MetBy token) (hrest : cursor.rest = used ++ [token]) :
    cursor.Hopeless := by
  intro ending f after hread
  have htokens : cursor.rest ++ ending = used ++ token :: ending := by simp [hrest]
  rw [formula, htokens, h.ofTokens_eq_unexpected hneed] at hread
  simp [settle] at hread

theorem exists_halt_of_formula {source : String} {before rest : List Token} {after : Cursor}
    {error : ParseError} (h : (between source before rest).formula = (.error error, after)) :
    ∃ halt, Halts rest halt ∧ error = (between source before rest).errorOf halt ∧
      after = (between source before rest).moveTo halt.rest := by
  rw [formula] at h
  cases hr : Formula.ofTokens (between source before rest).rest with
  | error halt =>
    simp only [hr, settle, Prod.mk.injEq, Except.error.injEq] at h
    exact ⟨halt, halts_of_ofTokens_eq_error hr, h.1.symm, h.2.symm⟩
  | ok result => simp [hr, settle] at h

theorem moveTo_behind_token {cursor : Cursor} {used rest : List Token} {token : Token}
    (h : cursor.rest = used ++ token :: rest) :
    cursor.moveTo rest = ⟨cursor.source, cursor.position + used.length + 1, rest⟩ := by
  have hsplit : cursor.rest = (used ++ [token]) ++ rest := by simp [h]
  rw [moveTo_eq_behind hsplit, behind, List.length_append, List.length_singleton, Nat.add_assoc]

theorem errorOf_unexpected {cursor : Cursor} {used rest : List Token} {token : Token}
    (h : cursor.rest = used ++ token :: rest) :
    cursor.errorOf (.unexpected token rest) =
      .unexpectedSymbol token.render (cursor.position + used.length) cursor.source := by
  rw [errorOf, unexpected, moveTo_behind_token h, Nat.add_sub_cancel]

theorem errorOf_missing (cursor : Cursor) :
    cursor.errorOf .missing =
      .missingSymbol (cursor.position + cursor.rest.length) cursor.source := by
  rw [errorOf, moveTo, List.length_nil, Nat.sub_zero]

/-- **The errors of a cursor name the place where reading a formula halts.**  An unexpected token
stands at the position named, right before the cursor: the tokens up to it can be completed to a
formula, and those including it cannot.  When a token is missing, all tokens up to the end can be
completed, and the cursor stands there.  There are no other errors. -/
theorem formula_error_located (source : String) (before rest : List Token) :
    (∀ symbol position line after,
      (between source before rest).formula =
        (.error (.unexpectedSymbol symbol position line), after) →
      ∃ used token more, rest = used ++ token :: more ∧
        position = before.length + used.length ∧ (before ++ rest)[position]? = some token ∧
        token.render = symbol ∧ line = source ∧ (between source before used).Completable ∧
        (between source before (used ++ [token])).Hopeless ∧
        after = ⟨source, position + 1, more⟩) ∧
    (∀ position line after,
      (between source before rest).formula = (.error (.missingSymbol position line), after) →
      position = (before ++ rest).length ∧ line = source ∧
        (between source before rest).Completable ∧ after = ⟨source, position, []⟩) ∧
    ∀ line after, (between source before rest).formula ≠ (.error (.truncated line), after) := by
  refine ⟨?_, ?_, ?_⟩
  · intro symbol position line after h
    obtain ⟨halt, hhalts, herror, rfl⟩ := exists_halt_of_formula h
    cases hhalts with
    | missing => simp [errorOf] at herror
    | @unexpected used need token hp hneed more =>
      have htokens : (between source before (used ++ token :: more)).rest =
          used ++ token :: more := rfl
      rw [errorOf_unexpected htokens, ParseError.unexpectedSymbol.injEq] at herror
      obtain ⟨rfl, rfl, rfl⟩ := herror
      refine ⟨used, token, more, rfl, rfl, ?_, rfl, rfl, completable_of_pending hp,
        hopeless_of_pending hp hneed rfl, ?_⟩
      · simp [between]
      · rw [Halt.rest, moveTo_behind_token htokens]
        rfl
  · intro position line after h
    obtain ⟨halt, hhalts, herror, rfl⟩ := exists_halt_of_formula h
    cases hhalts with
    | unexpected => simp [errorOf, unexpected] at herror
    | missing hp =>
      rw [errorOf_missing, ParseError.missingSymbol.injEq] at herror
      obtain ⟨rfl, rfl⟩ := herror
      exact ⟨List.length_append.symm, rfl, completable_of_pending hp, rfl⟩
  · intro line after h
    obtain ⟨halt, -, herror, -⟩ := exists_halt_of_formula h
    cases halt <;> simp [errorOf, unexpected] at herror

/-- After `argument a :=`, reading `(P ∧ (Q ∨))` halts at the first closing bracket, which is the
token with number `9` on the line; without it the tokens can be completed. -/
theorem unexpected_bracket_located :
    let before : List Token := [.argument, .identifier "a", .assign]
    let used : List Token := [.opening, .atom "P", .conj, .opening, .atom "Q", .disj]
    let source := "argument a := (P ∧ (Q ∨))"
    (between source before (used ++ [Token.closing, .closing])).formula =
        (.error (.unexpectedSymbol ")" 9 source), ⟨source, 10, [.closing]⟩) ∧
      (between source before used).formula =
        (.error (.missingSymbol 9 source), ⟨source, 9, []⟩) ∧
      (between source before used).Completable ∧
      ∃ token, (before ++ (used ++ [Token.closing, .closing]))[9]? = some token ∧
        token.render = ")" ∧ (between source before (used ++ [token])).Hopeless := by
  intro before used source
  have hunexpected : (between source before (used ++ [Token.closing, .closing])).formula =
      (.error (.unexpectedSymbol ")" 9 source), ⟨source, 10, [.closing]⟩) := by decide +kernel
  have hmissing : (between source before used).formula =
      (.error (.missingSymbol 9 source), ⟨source, 9, []⟩) := by decide +kernel
  obtain ⟨taken, token, more, htokens, hposition, hindex, hrender, -, -, hhopeless, -⟩ :=
    (formula_error_located source before (used ++ [Token.closing, .closing])).1 _ _ _ _ hunexpected
  have hlength : taken.length = used.length := Nat.add_left_cancel hposition.symm
  obtain ⟨hused, -⟩ := List.append_inj htokens.symm hlength
  subst hused
  exact ⟨hunexpected, hmissing,
    ((formula_error_located source before used).2.1 _ _ _ hmissing).2.2.1, token, hindex, hrender,
    hhopeless⟩

end Cursor

end Entailment
