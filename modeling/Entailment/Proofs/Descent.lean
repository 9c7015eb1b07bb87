import Entailment.Proofs.CursorMoves

/-!
# Reading by descent

Read token by token, a formula calls for formulas inside it: what is negated, and the two sides of a
bracket.  The body of an argument is read in rounds, one for each item.  Nothing in this scheme says
that the calls and the rounds come to an end; that they do is due to the cursor, which has fewer
tokens after it at every inner call and after every round.

The scheme is written out here with its calls and rounds counted, so that a reading which goes
beyond the count gives nothing (`Descent.Attempt`).  As many calls inside one another as tokens are
left, and one more, are enough, and so are as many rounds as tokens are left; the outcome is then
that of the readers of formulas and bodies.

* `Descent.formula?_eq` : a call is answered from calls with fewer tokens left;
* `Descent.round_eq` : a round is followed by rounds with fewer tokens left;
* `Descent.answeredBelow_formula?Within`, `Descent.bodyWithin_eq` : **the descent ends**, with the
  number of tokens left as the measure;
* `Cursor.operations_progress` : all of this at the cursors that operations lead to.
-/

namespace Entailment

namespace Cursor

/-- Reads a formula in brackets when the opening one is behind the cursor. -/
def bracket (cursor : Cursor) : Except ParseError Formula × Cursor :=
  cursor.settle (Formula.ofTokens (.opening :: cursor.rest))

/-- Reads the body of an argument of which `a` was read before. -/
def argumentAfter (a : Argument) (cursor : Cursor) : Except ParseError Argument × Cursor :=
  cursor.settle ((Argument.readAfter a cursor.rest).map fun b => (b, []))

end Cursor

namespace Argument

/-! ### Items that stop the reading of a body -/

section Stops

variable {a : Argument} {rest : List Token} {halt : Halt}

theorem read_eq_error {tokens : List Token} (h : Formula.ofTokens tokens = .error halt) :
    Formula.read tokens = .error halt := by
  rw [Formula.ofTokens] at h
  cases hr : Formula.read tokens with
  | error found => simpa [hr, Except.map] using h
  | ok result => simp [hr, Except.map] at h

/-- After the conclusion a comma or another conclusion is refused. -/
theorem readAfter_refused {token : Token} (hmem : token ∈ Token.separators)
    (hclosing : token ≠ .closing) (hc : a.conclusion?.isSome) :
    readAfter a (token :: rest) = .error (.unexpected token rest) := by
  rcases Token.mem_separators.1 hmem with rfl | rfl | rfl
  · rw [readAfter, if_pos hc]
  · exact absurd rfl hclosing
  · rw [readAfter, if_pos hc]

theorem readAfter_conclusion_eq_error (hc : a.conclusion? = none)
    (h : Formula.ofTokens rest = .error halt) :
    readAfter a (.therefore :: rest) = .error halt := by
  rw [readAfter, if_neg (by simp [hc]), read_eq_error h]

theorem readAfter_premise_eq_error {token : Token} (hmem : token ∉ Token.separators)
    (h : Formula.ofTokens (token :: rest) = .error halt) :
    readAfter a (token :: rest) = .error halt := by
  simp only [Token.mem_separators, not_or] at hmem
  obtain ⟨hcomma, hclosing, htherefore⟩ := hmem
  rw [readAfter, read_eq_error h]
  all_goals assumption

end Stops

end Argument

namespace Descent

open Cursor

/-! ### The scheme -/

/-- What comes of a reading whose calls are counted: the result with the cursor after it, or nothing
when it goes beyond the count. -/
abbrev Attempt (α : Type) := Option (Except ParseError α × Cursor)

/-- Goes on with what was read, from where the reading stopped; an error stays. -/
def Attempt.andThen {α β : Type} (attempt : Attempt α) (next : α → Cursor → Attempt β) :
    Attempt β :=
  match attempt with
  | none => none
  | some (.error error, after) => some (.error error, after)
  | some (.ok value, after) => next value after

/-- The answers to the inner calls of the reader of formulas. -/
abbrev Calls := Cursor → Attempt (Option Formula)

/-- Reads a formula that has to be there: a separator in its place is an error. -/
def required (calls : Calls) (cursor : Cursor) : Attempt Formula :=
  (calls cursor).andThen fun f? after =>
    match f? with
    | some f => some (.ok f, after)
    | none =>
      Attempt.andThen (some after.advance) fun token last =>
        some (.error (last.unexpected token after.position), last)

/-- Reads the inside of a bracket and the bracket that closes it. -/
def bracket (calls : Calls) (cursor : Cursor) : Attempt Formula :=
  (required calls cursor).andThen fun left afterLeft =>
    Attempt.andThen (some afterLeft.advance) fun operator afterOperator =>
      (required calls afterOperator).andThen fun right afterRight =>
        Attempt.andThen (some afterRight.advance) fun token last =>
          if token = .closing then some (.ok (Formula.join operator left right), last)
          else some (.error (last.unexpected token afterRight.position), last)

/-- Goes on behind the first token of a formula, which stands at `position`. -/
def startedBy (calls : Calls) (position : ℕ) (token : Token) (after : Cursor) :
    Attempt (Option Formula) :=
  match token with
  | .atom name => some (.ok (some (.atom name)), after)
  | .neg => (required calls after).andThen fun inner last => some (.ok (some (.neg inner)), last)
  | .opening => (bracket calls after).andThen fun f last => some (.ok (some f), last)
  | other => some (.error (after.unexpected other position), after)

/-- One call of the reader of formulas. -/
def formula? (calls : Calls) (cursor : Cursor) : Attempt (Option Formula) :=
  match cursor.peek? with
  | some .comma | some .closing | some .therefore => some (.ok none, cursor)
  | _ => Attempt.andThen (some cursor.advance) (startedBy calls cursor.position)

/-- The reader of formulas with at most `depth` calls inside one another. -/
def formula?Within : ℕ → Calls
  | 0 => fun _ => none
  | depth + 1 => formula? (formula?Within depth)

/-- Goes on behind a separator, which stands at `position`, when `a` was read before it. -/
def behindSeparator (calls : Calls) (again : Argument → Cursor → Attempt Argument) (a : Argument)
    (position : ℕ) (token : Token) (after : Cursor) : Attempt Argument :=
  if token ≠ .closing ∧ a.conclusion?.isSome then
    some (.error (after.unexpected token position), after)
  else if token = .therefore then
    (required calls after).andThen fun f last => again (a.conclude f) last
  else again a after

/-- One round of the reader of bodies, when `a` was read before it; `again` goes on after it. -/
def round (calls : Calls) (again : Argument → Cursor → Attempt Argument) (a : Argument)
    (cursor : Cursor) : Attempt Argument :=
  (calls cursor).andThen fun f? after =>
    match f? with
    | some f => again (a.addPremise f) after
    | none =>
      Attempt.andThen (some after.advance) (behindSeparator calls again a after.position)

/-- The reader of bodies with at most so many rounds, each with at most `depth` calls inside one
another. -/
def bodyWithin (depth rounds : ℕ) (a : Argument) (cursor : Cursor) : Attempt Argument :=
  if cursor.isExhausted then some (.ok a, cursor)
  else
    match rounds with
    | 0 => none
    | rounds + 1 => round (formula?Within depth) (bodyWithin depth rounds) a cursor

/-! ### Calls -/

section Calls

variable {calls : Calls} {cursor : Cursor}

@[simp] theorem andThen_ok {α β : Type} (value : α) (after : Cursor)
    (next : α → Cursor → Attempt β) :
    Attempt.andThen (some (.ok value, after)) next = next value after := rfl

@[simp] theorem andThen_error {α β : Type} (error : ParseError) (after : Cursor)
    (next : α → Cursor → Attempt β) :
    Attempt.andThen (some (.error error, after)) next = some (.error error, after) := rfl

/-- Wherever fewer than `n` tokens are left, the calls are answered by the reader of formulas. -/
def AnsweredBelow (n : ℕ) (calls : Calls) : Prop :=
  ∀ cursor : Cursor, cursor.rest.length < n → calls cursor = some cursor.formula?

theorem AnsweredBelow.mono {n m : ℕ} (h : AnsweredBelow n calls) (hle : m ≤ n) :
    AnsweredBelow m calls :=
  fun cursor hlt => h cursor (Nat.lt_of_lt_of_le hlt hle)

/-- A formula that has to be there is read from one call at the same place. -/
theorem required_eq (h : calls cursor = some cursor.formula?) :
    required calls cursor = some cursor.formula := by
  rw [required, h]
  rcases formula?_cases cursor with ⟨token, rest, hrest, hmem, hread⟩ | ⟨-, hread⟩
  · -- the separator is taken to report it, so the error and the cursor are those of a formula
    have hformula : cursor.formula =
        (.error (cursor.unexpected token cursor.position), cursor.moveTo rest) := by
      rw [formula, hrest, Formula.ofTokens_of_not_start (not_start_of_mem_separators hmem),
        settle_unexpected (Nat.le_of_eq (by rw [hrest])), moveTo_self hrest]
    rw [hread, hformula, andThen_ok]
    simp only [advance_eq_ok hrest, andThen_ok]
    rfl
  · rw [hread]
    rcases cursor.formula with ⟨error | f, after⟩ <;> rfl

/-- The inside of a bracket is read from calls with no more tokens left. -/
theorem bracket_eq (h : AnsweredBelow (cursor.rest.length + 1) calls) :
    bracket calls cursor = some cursor.bracket := by
  rw [bracket, required_eq (h cursor (Nat.lt_succ_self _)), formula, Cursor.bracket,
    Formula.ofTokens_opening]
  rcases hl : Formula.ofTokens cursor.rest with halt | ⟨left, _ | ⟨operator, middle⟩⟩
  · rfl
  · simp only [settle, andThen_ok, advance_moveTo_nil, andThen_error]
    rfl
  · have hmiddle : (operator :: middle).length ≤ cursor.rest.length :=
      Nat.le_of_lt (Formula.length_lt_of_ofTokens hl)
    have hle : middle.length ≤ cursor.rest.length := Nat.le_of_succ_le hmiddle
    have hright : required calls (cursor.moveTo middle) =
        some (cursor.settle (Formula.ofTokens middle)) := by
      rw [required_eq (h _ (Nat.lt_succ_of_le hle)), formula_moveTo hle]
    simp only [settle, andThen_ok, advance_moveTo_cons hmiddle, hright]
    rcases hr : Formula.ofTokens middle with halt | ⟨right, _ | ⟨last, rest⟩⟩
    · rfl
    · simp only [andThen_ok, advance_moveTo_nil, andThen_error]
      rfl
    · have hlast : (last :: rest).length ≤ cursor.rest.length :=
        Nat.le_trans (Nat.le_of_lt (Formula.length_lt_of_ofTokens hr)) hle
      simp only [andThen_ok, advance_moveTo_cons hlast]
      by_cases hclosing : last = .closing
      · rw [if_pos hclosing, if_pos hclosing]
      · rw [if_neg hclosing, if_neg hclosing]
        exact congrArg some (settle_unexpected hlast).symm

/-- Behind the first token, the rest of a formula is read from calls with no more tokens left. -/
theorem startedBy_eq {token : Token} {rest : List Token} (hrest : cursor.rest = token :: rest)
    (h : AnsweredBelow cursor.rest.length calls) :
    startedBy calls cursor.position token (cursor.moveTo rest) =
      some (cursor.formula.1.map some, cursor.formula.2) := by
  have hlt : rest.length < cursor.rest.length := by simp [hrest]
  have hle : rest.length ≤ cursor.rest.length := Nat.le_of_lt hlt
  rw [formula, hrest]
  by_cases hstart : (∃ name, token = .atom name) ∨ token = .neg ∨ token = .opening
  · rcases hstart with ⟨name, rfl⟩ | rfl | rfl
    · rw [Formula.ofTokens_atom]
      rfl
    · have hinner : required calls (cursor.moveTo rest) =
          some (cursor.settle (Formula.ofTokens rest)) := by
        rw [required_eq (h _ hlt), formula_moveTo hle]
      rw [startedBy, hinner, Formula.ofTokens_neg]
      rcases Formula.ofTokens rest with halt | ⟨inner, after⟩ <;> rfl
    · -- what is inside a bracket is left behind the bracket, wherever the reading stops
      have hleft := Formula.length_leftover_lt (List.cons_ne_nil Token.opening rest)
      have hcalls : AnsweredBelow ((cursor.moveTo rest).rest.length + 1) calls := h.mono hlt
      have hinside : bracket calls (cursor.moveTo rest) =
          some (cursor.settle (Formula.ofTokens (.opening :: rest))) := by
        rw [bracket_eq hcalls, Cursor.bracket, rest_moveTo,
          settle_moveTo hle (Nat.le_of_lt_succ hleft)]
      rw [startedBy, hinside]
      rcases Formula.ofTokens (.opening :: rest) with halt | ⟨f, after⟩ <;> rfl
  · rw [Formula.ofTokens_of_not_start hstart, settle_unexpected (Nat.le_of_eq (by rw [hrest])),
      moveTo_self hrest]
    simp only [not_or, not_exists] at hstart
    obtain ⟨hatom, hneg, hopening⟩ := hstart
    rw [startedBy]
    · rfl
    all_goals assumption

/-- **A call is answered from calls with fewer tokens left.** -/
theorem formula?_eq (h : AnsweredBelow cursor.rest.length calls) :
    formula? calls cursor = some cursor.formula? := by
  rcases formula?_cases cursor with ⟨token, rest, hrest, hmem, hread⟩ | ⟨hhead, hread⟩
  · rw [hread]
    rcases Token.mem_separators.1 hmem with rfl | rfl | rfl <;> simp [formula?, peek?, hrest]
  · have hcall : formula? calls cursor =
        Attempt.andThen (some cursor.advance) (startedBy calls cursor.position) := by
      unfold formula?
      split
      · next hpeek => exact absurd (by simp [Token.separators]) (hhead _ hpeek)
      · next hpeek => exact absurd (by simp [Token.separators]) (hhead _ hpeek)
      · next hpeek => exact absurd (by simp [Token.separators]) (hhead _ hpeek)
      · rfl
    rw [hread, hcall]
    cases hrest : cursor.rest with
    | nil =>
      rw [advance_eq_error hrest, formula, hrest, Formula.ofTokens_nil]
      rfl
    | cons token rest =>
      rw [advance_eq_ok hrest, andThen_ok]
      exact startedBy_eq hrest h

/-- **Calls inside one another are answered** wherever there are more of them than tokens left. -/
theorem answeredBelow_formula?Within (depth : ℕ) : AnsweredBelow depth (formula?Within depth) := by
  induction depth with
  | zero => exact fun cursor h => absurd h (Nat.not_lt_zero _)
  | succ depth ih =>
    -- the inner calls are counted one less, and have fewer tokens left
    intro cursor h
    exact formula?_eq (ih.mono (Nat.le_of_lt_succ h))

end Calls

/-! ### Rounds -/

section Rounds

variable {calls : Calls} {again : Argument → Cursor → Attempt Argument} {a : Argument}
  {cursor : Cursor}

theorem argumentAfter_of_error {halt : Halt} (h : Argument.readAfter a cursor.rest = .error halt) :
    cursor.argumentAfter a = cursor.settle (.error halt) := by
  rw [argumentAfter, h]
  rfl

theorem argumentAfter_of_exhausted (h : cursor.rest = []) :
    cursor.argumentAfter a = (.ok a, cursor) := by
  rw [argumentAfter, h, Argument.readAfter_nil, Except.map, settle, moveTo_self h]

/-- Wherever fewer than `n` tokens are left, the reader of bodies goes on. -/
def ContinuedBelow (n : ℕ) (again : Argument → Cursor → Attempt Argument) : Prop :=
  ∀ (a : Argument) (cursor : Cursor), cursor.rest.length < n →
    again a cursor = some (cursor.argumentAfter a)

/-- Going on after an item is reading the body from there. -/
theorem again_eq {b : Argument} {rest : List Token}
    (hagain : ContinuedBelow cursor.rest.length again)
    (hlt : rest.length < cursor.rest.length)
    (h : Argument.readAfter a cursor.rest = Argument.readAfter b rest) :
    again b (cursor.moveTo rest) = some (cursor.argumentAfter a) := by
  have hleft := (Argument.leftover_readAfter b rest).length_le
  rw [hagain b _ hlt, argumentAfter, argumentAfter, rest_moveTo,
    settle_moveTo (Nat.le_of_lt hlt) hleft, h]

theorem behindSeparator_eq {token : Token} {rest : List Token} (hrest : cursor.rest = token :: rest)
    (hmem : token ∈ Token.separators)
    (hcalls : AnsweredBelow cursor.rest.length calls)
    (hagain : ContinuedBelow cursor.rest.length again) :
    behindSeparator calls again a cursor.position token (cursor.moveTo rest) =
      some (cursor.argumentAfter a) := by
  have hlt : rest.length < cursor.rest.length := by simp [hrest]
  rw [behindSeparator]
  by_cases hrefused : token ≠ .closing ∧ a.conclusion?.isSome = true
  · have hread : Argument.readAfter a cursor.rest = .error (.unexpected token rest) := by
      rw [hrest, Argument.readAfter_refused hmem hrefused.1 hrefused.2]
    rw [if_pos hrefused, argumentAfter_of_error hread,
      settle_unexpected (Nat.le_of_eq (by rw [hrest])), moveTo_self hrest]
    rfl
  · rw [if_neg hrefused]
    rcases Token.mem_separators.1 hmem with rfl | rfl | rfl
    · have hc : a.conclusion? = none := by simpa using hrefused
      rw [if_neg (by simp)]
      exact again_eq hagain hlt (by rw [hrest, Argument.readAfter_comma hc])
    · rw [if_neg (by simp)]
      exact again_eq hagain hlt (by rw [hrest, Argument.readAfter_closing])
    · have hc : a.conclusion? = none := by simpa using hrefused
      have hle : rest.length ≤ cursor.rest.length := Nat.le_of_lt hlt
      rw [if_pos rfl, required_eq (hcalls _ hlt), formula_moveTo hle]
      rcases hf : Formula.ofTokens rest with halt | ⟨f, after⟩
      · have hread : Argument.readAfter a cursor.rest = .error halt := by
          rw [hrest, Argument.readAfter_conclusion_eq_error hc hf]
        rw [argumentAfter_of_error hread]
        rfl
      · have hafter : after.length < cursor.rest.length :=
          Nat.lt_trans (Formula.length_lt_of_ofTokens hf) hlt
        rw [settle, andThen_ok]
        exact again_eq hagain hafter (by rw [hrest, Argument.readAfter_conclusion hc hf])

/-- **A round is followed by rounds with fewer tokens left.** -/
theorem round_eq (hne : cursor.rest ≠ [])
    (hcalls : AnsweredBelow (cursor.rest.length + 1) calls)
    (hagain : ContinuedBelow cursor.rest.length again) :
    round calls again a cursor = some (cursor.argumentAfter a) := by
  rw [round, hcalls cursor (Nat.lt_succ_self _)]
  rcases formula?_cases cursor with ⟨token, rest, hrest, hmem, hread⟩ | ⟨hhead, hread⟩
  · rw [hread, andThen_ok]
    simp only [advance_eq_ok hrest, andThen_ok]
    exact behindSeparator_eq hrest hmem (hcalls.mono (Nat.le_succ _)) hagain
  · obtain ⟨token, rest, hrest⟩ := List.exists_cons_of_ne_nil hne
    have hmem : token ∉ Token.separators := hhead token (by simp [hrest])
    rw [hread, formula]
    rcases hf : Formula.ofTokens cursor.rest with halt | ⟨f, after⟩
    · have hread : Argument.readAfter a cursor.rest = .error halt := by
        rw [hrest] at hf ⊢
        exact Argument.readAfter_premise_eq_error hmem hf
      rw [argumentAfter_of_error hread]
      rfl
    · exact again_eq hagain (Formula.length_lt_of_ofTokens hf) (Argument.readAfter_premise a hf)

/-- **Rounds lead to the end of a body** if they are no fewer than the tokens left. -/
theorem bodyWithin_eq {depth rounds : ℕ} (hdepth : cursor.rest.length < depth)
    (hrounds : cursor.rest.length ≤ rounds) :
    bodyWithin depth rounds a cursor = some (cursor.argumentAfter a) := by
  induction rounds generalizing a cursor with
  | zero =>
    have hrest : cursor.rest = [] := List.eq_nil_of_length_eq_zero (Nat.le_zero.1 hrounds)
    rw [bodyWithin, if_pos (by simp [isExhausted, hrest]), argumentAfter_of_exhausted hrest]
  | succ rounds ih =>
    rw [bodyWithin]
    by_cases hrest : cursor.rest = []
    · rw [if_pos (by simp [isExhausted, hrest]), argumentAfter_of_exhausted hrest]
    · rw [if_neg (by simp [isExhausted, hrest])]
      refine round_eq hrest ((answeredBelow_formula?Within depth).mono hdepth) ?_
      intro b after hlt
      exact ih (Nat.lt_trans hlt hdepth) (Nat.le_of_lt_succ (Nat.lt_of_lt_of_le hlt hrounds))

end Rounds

end Descent

namespace Cursor

open Descent

/-- **Cursors move forward, and so readers come to an end.**  Whatever is done with a cursor on the
tokens of a line, its position never goes back and stays within the tokens.  Where a formula or a
separator is looked for, the cursor stays before a separator, and takes a token when a formula is
found and when the reading fails though a token is there.  So the descent ends: with more calls
inside one another than tokens are left, and with as many rounds as tokens are left, every reader
gives its outcome. -/
theorem operations_progress (tokens : List Token) (source : String)
    (operations : List Operation) :
    let cursor := (ofTokens tokens source).performAll operations
    (∀ later, cursor.position ≤ (cursor.performAll later).position ∧
      (cursor.performAll later).position ≤ tokens.length) ∧
    (cursor.formula?.1 = .ok none → cursor.formula?.2 = cursor) ∧
    (∀ f, cursor.formula?.1 = .ok (some f) → cursor.position < cursor.formula?.2.position) ∧
    (∀ error, cursor.formula?.1 = .error error → cursor.peek? ≠ none →
      cursor.position < cursor.formula?.2.position) ∧
    ∀ depth rounds, tokens.length - cursor.position < depth →
      tokens.length - cursor.position ≤ rounds →
      formula?Within depth cursor = some cursor.formula? ∧
      required (formula?Within depth) cursor = some cursor.formula ∧
      Descent.bracket (formula?Within depth) cursor = some cursor.bracket ∧
      bodyWithin depth rounds .empty cursor = some cursor.argument := by
  intro cursor
  have hstands : cursor.StandsIn tokens :=
    (forwardTo_performAll _ operations).standsIn (standsIn_ofTokens tokens source)
  refine ⟨fun later => ?_, formula?_stays, fun f hf => ?_, fun error herror hpeek => ?_, ?_⟩
  · have hforward := cursor.forwardTo_performAll later
    exact ⟨hforward.position_le, (hforward.standsIn hstands).1⟩
  · exact position_lt_formula? (rest_ne_nil_of_formula? hf) (by simp [hf])
  · refine position_lt_formula? (fun hrest => hpeek ?_) (by simp [herror])
    simp [peek?, hrest]
  · intro depth rounds hdepth hrounds
    rw [← hstands.length_rest] at hdepth hrounds
    have hcalls := answeredBelow_formula?Within depth
    have hcall := hcalls cursor hdepth
    exact ⟨hcall, required_eq hcall, bracket_eq (hcalls.mono hdepth),
      bodyWithin_eq hdepth hrounds⟩

/-- On `P, (¬Q ∧ R` a formula is read, then nothing before the comma, and the bracket that is not
closed fails at the end.  Two calls inside one another are not enough for this bracket, but six are,
as five tokens are left there. -/
theorem unclosed_bracket_progress :
    let tokens : List Token :=
      [.atom "P", .comma, .opening, .neg, .atom "Q", .conj, .atom "R"]
    let source := "P, (¬Q ∧ R"
    let start := ofTokens tokens source
    let comma := start.performAll [.formula?]
    let bracket := start.performAll [.formula?, .eat .closing, .advance]
    (start.formula?.1 = .ok (some (.atom "P")) ∧ start.position < start.formula?.2.position) ∧
    (comma.formula?.1 = .ok none ∧ comma.formula?.2 = comma) ∧
    (bracket.formula?.1 = .error (.missingSymbol 7 source) ∧ bracket.peek? = some .opening ∧
      bracket.position < bracket.formula?.2.position) ∧
    formula?Within 2 bracket = none ∧
    tokens.length - bracket.position = 5 ∧ formula?Within 6 bracket = some bracket.formula? ∧
    bodyWithin 6 5 .empty bracket = some bracket.argument := by
  intro tokens source start comma bracket
  have hatom : start.formula?.1 = .ok (some (.atom "P")) := by decide +kernel
  have hnone : comma.formula?.1 = .ok none := by decide +kernel
  have herror : bracket.formula?.1 = .error (.missingSymbol 7 source) := by decide +kernel
  have hpeek : bracket.peek? = some .opening := by decide +kernel
  have hleft : tokens.length - bracket.position = 5 := by decide +kernel
  obtain ⟨-, -, hsome, -, -⟩ := operations_progress tokens source []
  obtain ⟨-, hstays, -, -, -⟩ := operations_progress tokens source [.formula?]
  obtain ⟨-, -, -, hfails, hends⟩ :=
    operations_progress tokens source [.formula?, .eat .closing, .advance]
  obtain ⟨hformula, -, -, hbody⟩ :=
    hends 6 5 (Nat.lt_succ_of_le (Nat.le_of_eq hleft)) (Nat.le_of_eq hleft)
  refine ⟨⟨hatom, hsome _ hatom⟩, ⟨hnone, hstays hnone⟩, ⟨herror, hpeek, ?_⟩, ?_, hleft, hformula,
    hbody⟩
  · exact hfails _ herror (by rw [hpeek]; simp)
  · decide +kernel

end Cursor

end Entailment
