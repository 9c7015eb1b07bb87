import Entailment.Proofs.Parsing
import Mathlib.Order.Bounds.Basic

/-!
# Misplaced tokens

A line whose characters form tokens is refused when one of them stands where it may not: the first
one cannot lead the line, one may not stand directly after the one before it, or an atom leads the
line and something else than an assignment sign stands after it.  The first such token is reported,
together with a position.  The checks go from one pair of neighbours to the next, and the position
is the place of the first token of the pair at which they stop, counted from `1`.  So it is the
place of the reported token where that token leads the line, and the place before it everywhere
else:

* `TokenLine.checkPairs_eq_error_iff` : the comparison of neighbours stops at the first two that do
  not fit;
* `TokenLine.checks_eq_unexpected_iff` : both checks of a line together report the first token that
  is out of place;
* `TokenLine.misplaced_token_reported` : **which token is reported, and with which position**.
-/

namespace Entailment

namespace TokenLine

/-- The tokens at `index` and after it do not fit. -/
def Unfit (tokens : List Token) (index : ℕ) : Prop :=
  ∃ first second, tokens[index]? = some first ∧ tokens[index + 1]? = some second ∧
    first.allows second = false

variable {first next : Token} {rest tokens : List Token} {index position : ℕ} {line symbol : String}

theorem unfit_zero_iff : Unfit (first :: next :: rest) 0 ↔ first.allows next = false := by
  simp [Unfit]

theorem unfit_succ_iff : Unfit (first :: rest) (index + 1) ↔ Unfit rest index := by
  simp [Unfit]

theorem isLeast_zero {P : ℕ → Prop} (h : P 0) : IsLeast {i | P i} 0 :=
  ⟨h, fun i _ => Nat.zero_le i⟩

/-- What does not hold of `0` holds first of a successor. -/
theorem isLeast_succ_iff {P : ℕ → Prop} (h : ¬ P 0) :
    IsLeast {i | P i} (index + 1) ↔ IsLeast {i | P (i + 1)} index := by
  refine and_congr_right fun _ => ⟨fun hleast i hi => ?_, fun hleast i hi => ?_⟩
  · exact Nat.le_of_succ_le_succ (hleast hi)
  · cases i with
    | zero => exact absurd hi h
    | succ i => exact Nat.succ_le_succ (hleast hi)

/-- The comparison of neighbours stops at the first two tokens that do not fit, and reports the
second of them. -/
theorem checkPairs_eq_error_iff {error : LexicalError} :
    checkPairs line position tokens = .error error ↔
      ∃ index token, IsLeast {i | Unfit tokens i} index ∧ tokens[index + 1]? = some token ∧
        error = .unexpectedSymbol token.render (position + index) line := by
  induction tokens generalizing position with
  | nil => simp [checkPairs, Unfit, IsLeast]
  | cons first rest ih =>
    cases rest with
    | nil => simp [checkPairs, Unfit, IsLeast]
    | cons second rest =>
      rw [checkPairs]
      split_ifs with h
      · have hzero : ¬ Unfit (first :: second :: rest) 0 := by simp [unfit_zero_iff, h]
        have hsucc : ∀ index, IsLeast {i | Unfit (first :: second :: rest) i} (index + 1) ↔
            IsLeast {i | Unfit (second :: rest) i} index := fun index => by
          simp only [isLeast_succ_iff hzero, unfit_succ_iff]
        rw [ih]
        constructor
        · rintro ⟨index, token, hleast, htoken, rfl⟩
          refine ⟨index + 1, token, (hsucc index).2 hleast, htoken, ?_⟩
          rw [Nat.add_right_comm, Nat.add_assoc]
        · rintro ⟨index, token, hleast, htoken, rfl⟩
          cases index with
          | zero => exact absurd hleast.1 hzero
          | succ index =>
            refine ⟨index, token, (hsucc index).1 hleast, htoken, ?_⟩
            rw [Nat.add_right_comm, Nat.add_assoc]
      · have hzero : Unfit (first :: second :: rest) 0 := by simp [unfit_zero_iff, h]
        constructor
        · intro herror
          cases herror
          exact ⟨0, second, isLeast_zero hzero, rfl, rfl⟩
        · rintro ⟨index, token, hleast, htoken, rfl⟩
          obtain rfl := hleast.unique (isLeast_zero hzero)
          obtain rfl := Option.some.inj htoken
          rfl

/-! ### Tokens out of place -/

/-- The token at an index may not stand where it does: the first one cannot lead a line of several
tokens, and another one does not fit the one before it, or stands after an atom that leads the line
and is no assignment sign. -/
def OutOfPlace (tokens : List Token) : ℕ → Prop
  | 0 => ∃ first next rest, tokens = first :: next :: rest ∧ first.kind.canLead = false
  | index + 1 =>
    Unfit tokens index ∨
      index = 0 ∧ ∃ name next rest, tokens = .atom name :: next :: rest ∧ next ≠ .assign

theorem outOfPlace_zero_iff :
    OutOfPlace (first :: next :: rest) 0 ↔ first.kind.canLead = false := by
  simp [OutOfPlace]

theorem outOfPlace_one_iff :
    OutOfPlace (first :: next :: rest) 1 ↔
      first.allows next = false ∨ first.kind = .atom ∧ next ≠ .assign := by
  cases first <;> simp [OutOfPlace, unfit_zero_iff, Token.kind]

/-- Behind a beginning that is in place, tokens are out of place when they do not fit. -/
theorem outOfPlace_succ_iff (h : ¬ (first.kind = .atom ∧ next ≠ .assign)) :
    OutOfPlace (first :: next :: rest) (index + 1) ↔ Unfit (first :: next :: rest) index := by
  refine or_iff_left ?_
  rintro ⟨-, name, other, more, heq, hne⟩
  cases heq
  exact h ⟨rfl, hne⟩

/-- A line of less than two tokens has no token out of place. -/
theorem not_outOfPlace_of_length_lt (h : tokens.length < 2) (index : ℕ) :
    ¬ OutOfPlace tokens index := by
  rcases tokens with _ | ⟨first, _ | ⟨second, rest⟩⟩
  · cases index <;> simp [OutOfPlace, Unfit]
  · cases index <;> simp [OutOfPlace, Unfit]
  · simp only [List.length_cons] at h
    omega

/-- How a line of several tokens may lead. -/
theorem checkLead_cons_cons (line : String) (first next : Token) (rest : List Token) :
    checkLead line (first :: next :: rest) =
      if first.kind.canLead = false then .error (.unexpectedSymbol first.render 1 line)
      else if first.kind = .atom ∧ next ≠ .assign then
        .error (.unexpectedSymbol next.render 1 line)
      else .ok () := by
  cases first with
  | atom name => by_cases h : next = .assign <;> simp [checkLead, Token.kind, Kind.canLead, h]
  | _ => simp [checkLead, Token.kind, Kind.canLead]

/-! ### What is reported -/

/-- The first token that is out of place is rendered as `symbol` and reported with `position`. -/
def Reports (tokens : List Token) (symbol : String) (position : ℕ) : Prop :=
  ∃ index token, IsLeast {i | OutOfPlace tokens i} index ∧ tokens[index]? = some token ∧
    symbol = token.render ∧ position = max index 1

theorem not_reports_of_length_lt (h : tokens.length < 2) (symbol : String) (position : ℕ) :
    ¬ Reports tokens symbol position := by
  rintro ⟨index, token, hleast, -⟩
  exact not_outOfPlace_of_length_lt h index hleast.1

theorem reports_iff_of_isLeast {token : Token} (hleast : IsLeast {i | OutOfPlace tokens i} index)
    (htoken : tokens[index]? = some token) :
    Reports tokens symbol position ↔ symbol = token.render ∧ position = max index 1 := by
  constructor
  · rintro ⟨other, found, hother, hfound, rfl, rfl⟩
    obtain rfl := hother.unique hleast
    rw [htoken] at hfound
    obtain rfl := Option.some.inj hfound
    exact ⟨rfl, rfl⟩
  · rintro ⟨rfl, rfl⟩
    exact ⟨index, token, hleast, htoken, rfl, rfl⟩

/-- The checks of a line of several tokens report the first one that is out of place. -/
theorem checks_eq_unexpected_iff {l : String} :
    (checkLead line (first :: next :: rest) = .error (.unexpectedSymbol symbol position l) ∨
      checkLead line (first :: next :: rest) = .ok () ∧
        checkAdjacency line (first :: next :: rest) =
          .error (.unexpectedSymbol symbol position l)) ↔
      l = line ∧ Reports (first :: next :: rest) symbol position := by
  rw [checkLead_cons_cons]
  split_ifs with hlead hassign
  · -- the first token cannot lead the line
    have hzero : OutOfPlace (first :: next :: rest) 0 := outOfPlace_zero_iff.2 hlead
    rw [reports_iff_of_isLeast (isLeast_zero hzero) rfl]
    simp [eq_comm, and_comm, and_assoc]
  · -- the second token should be an assignment sign
    have hzero : ¬ OutOfPlace (first :: next :: rest) 0 := mt outOfPlace_zero_iff.1 hlead
    have hone : OutOfPlace (first :: next :: rest) 1 := outOfPlace_one_iff.2 (.inr hassign)
    rw [reports_iff_of_isLeast ((isLeast_succ_iff hzero).2 (isLeast_zero hone)) rfl]
    simp [eq_comm, and_comm, and_assoc]
  · -- the line begins well, and its neighbours are compared
    have hzero : ¬ OutOfPlace (first :: next :: rest) 0 := mt outOfPlace_zero_iff.1 hlead
    have hsucc : ∀ index, IsLeast {i | OutOfPlace (first :: next :: rest) i} (index + 1) ↔
        IsLeast {i | Unfit (first :: next :: rest) i} index := fun index => by
      simp only [isLeast_succ_iff hzero, outOfPlace_succ_iff hassign]
    rw [checkAdjacency, checkPairs_eq_error_iff]
    constructor
    · rintro (herror | ⟨-, index, token, hleast, htoken, herror⟩)
      · cases herror
      · cases herror
        refine ⟨rfl, index + 1, token, (hsucc index).2 hleast, htoken, rfl, ?_⟩
        omega
    · rintro ⟨rfl, index, token, hleast, htoken, rfl, rfl⟩
      cases index with
      | zero => exact absurd hleast.1 hzero
      | succ index =>
        refine .inr ⟨rfl, index, token, (hsucc index).1 hleast, htoken, ?_⟩
        rw [Nat.max_eq_left (Nat.succ_pos index), Nat.add_comm]

theorem ofText?_eq_unexpected_iff (number : ℕ) {source l : String} {ts : List Token}
    (hscan : Token.scan source = .ok ts) :
    ofText? number source = .error (.unexpectedSymbol symbol position l) ↔
      l = source ∧ Reports ts symbol position := by
  rw [ofText?, hscan]
  rcases ts with _ | ⟨first, _ | ⟨next, rest⟩⟩
  · simp [not_reports_of_length_lt]
  · have hnone := not_reports_of_length_lt (Nat.lt_succ_self [first].length) symbol position
    cases first <;> simp [checkLead, checkAdjacency, checkPairs, hnone]
  · rw [← checks_eq_unexpected_iff]
    cases hlead : checkLead source (first :: next :: rest) with
    | error error => simp [hlead]
    | ok value =>
      cases hpairs : checkAdjacency source (first :: next :: rest) with
      | error error => simp [hlead, hpairs]
      | ok value => simp [hlead, hpairs]

/-- A token that leads the line though it cannot is the one at the reported position, counted from
`1`. -/
theorem Reports.eq_one_of_lead (h : Reports tokens symbol position) (hlead : OutOfPlace tokens 0) :
    position = 1 ∧ tokens[position - 1]?.map Token.render = some symbol := by
  obtain ⟨index, token, hleast, htoken, rfl, rfl⟩ := h
  obtain rfl := hleast.unique (isLeast_zero hlead)
  simp [htoken]

/-- Behind a first token that can lead the line, the reported token is the one after the reported
position, counted from `1`. -/
theorem Reports.outOfPlace_of_not_lead (h : Reports tokens symbol position)
    (hlead : ¬ OutOfPlace tokens 0) :
    OutOfPlace tokens position ∧ tokens[position]?.map Token.render = some symbol := by
  obtain ⟨index, token, hleast, htoken, rfl, rfl⟩ := h
  cases index with
  | zero => exact absurd hleast.1 hlead
  | succ index =>
    rw [Nat.max_eq_left (Nat.succ_pos index), htoken]
    exact ⟨hleast.1, rfl⟩

/-- The token at the reported position, counted from `1`, is rendered as the symbol when the
reported token leads the line, and otherwise only if it is rendered like the token after it. -/
theorem Reports.render_eq_symbol_iff (h : Reports tokens symbol position) :
    tokens[position - 1]?.map Token.render = some symbol ↔
      OutOfPlace tokens 0 ∨
        tokens[position - 1]?.map Token.render = tokens[position]?.map Token.render := by
  by_cases hlead : OutOfPlace tokens 0
  · exact iff_of_true (h.eq_one_of_lead hlead).2 (.inl hlead)
  · rw [or_iff_right hlead, (h.outOfPlace_of_not_lead hlead).2]

theorem Reports.position_le (h : Reports tokens symbol position) :
    1 ≤ position ∧ position ≤ tokens.length := by
  obtain ⟨index, token, -, htoken, rfl, rfl⟩ := h
  obtain ⟨hlt, -⟩ := List.getElem?_eq_some_iff.1 htoken
  omega

/-- **Which token is reported, and with which position.**  Of a line whose characters form tokens
the first token that is out of place is reported.  The position is the place of a token of the line,
counted from `1`: if the first token of the line cannot lead it, that token is reported and the
position is its place; otherwise the reported token is out of place directly after the one at the
position.  So the token at the position is rendered as the reported symbol exactly where the first
token of the line is at fault, or where the tokens at the position and after it are rendered
alike. -/
theorem misplaced_token_reported (number : ℕ) {source : String} {ts : List Token}
    (hscan : Token.scan source = .ok ts) (symbol : String) (position : ℕ) (l : String) :
    (ofText? number source = .error (.unexpectedSymbol symbol position l) ↔
      l = source ∧ ∃ index token, IsLeast {i | OutOfPlace ts i} index ∧ ts[index]? = some token ∧
        symbol = token.render ∧ position = max index 1) ∧
    (ofText? number source = .error (.unexpectedSymbol symbol position l) →
      (1 ≤ position ∧ position ≤ ts.length) ∧
        (OutOfPlace ts 0 → position = 1 ∧ ts[position - 1]?.map Token.render = some symbol) ∧
        (¬ OutOfPlace ts 0 →
          OutOfPlace ts position ∧ ts[position]?.map Token.render = some symbol) ∧
        (ts[position - 1]?.map Token.render = some symbol ↔
          OutOfPlace ts 0 ∨
            ts[position - 1]?.map Token.render = ts[position]?.map Token.render)) := by
  refine ⟨ofText?_eq_unexpected_iff number hscan, fun h => ?_⟩
  obtain ⟨-, hreports⟩ := (ofText?_eq_unexpected_iff number hscan).1 h
  exact ⟨hreports.position_le, hreports.eq_one_of_lead, hreports.outOfPlace_of_not_lead,
    hreports.render_eq_symbol_iff⟩

/-- In `P := true false` the last token is the first one out of place; its index is `3` counted from
`0`, and the position reported is the place of `true` before it.  In `) P` the bracket cannot lead
the line, and its own place is reported. -/
theorem second_literal_reported :
    let source := "P := true false"
    let ts : List Token := [.atom "P", .assign, .verum, .falsum]
    let led := ") P"
    let ledTokens : List Token := [.closing, .atom "P"]
    (Token.scan source = .ok ts ∧
      ofText? 1 source = .error (.unexpectedSymbol "false" 3 source) ∧
      (∃ index token, IsLeast {i | OutOfPlace ts i} index ∧ ts[index]? = some token ∧
        "false" = token.render ∧ 3 = max index 1) ∧
      ¬ OutOfPlace ts 0 ∧ OutOfPlace ts 3 ∧ ts[3]?.map Token.render = some "false") ∧
    Token.scan led = .ok ledTokens ∧ ofText? 1 led = .error (.unexpectedSymbol ")" 1 led) ∧
      OutOfPlace ledTokens 0 ∧ ledTokens[1 - 1]?.map Token.render = some ")" := by
  intro source ts led ledTokens
  have hscan : Token.scan source = .ok ts := by decide +kernel
  have hreport : ofText? 1 source = .error (.unexpectedSymbol "false" 3 source) := by
    decide +kernel
  have hatom : ¬ OutOfPlace ts 0 := mt outOfPlace_zero_iff.1 (by decide)
  have hled : Token.scan led = .ok ledTokens := by decide +kernel
  have hbracket : ofText? 1 led = .error (.unexpectedSymbol ")" 1 led) := by decide +kernel
  have hlead : OutOfPlace ledTokens 0 := outOfPlace_zero_iff.2 (by decide)
  obtain ⟨hleast, hplace⟩ := misplaced_token_reported 1 hscan "false" 3 source
  obtain ⟨-, hfirst⟩ := misplaced_token_reported 1 hled ")" 1 led
  exact ⟨⟨hscan, hreport, (hleast.1 hreport).2, hatom, (hplace hreport).2.2.1 hatom⟩, hled,
    hbracket, hlead, ((hfirst hbracket).2.1 hlead).2⟩

/-- In `P := true false` the position reported for `false` is the place of `true` when tokens are
counted from `1`, and in `P Q` the position reported for `Q` is the place of `P`. -/
theorem reported_position_is_place_before :
    (ofText? 1 "P := true false" = .error (.unexpectedSymbol "false" 3 "P := true false") ∧
      ∃ ts, Token.scan "P := true false" = .ok ts ∧
        ts[3 - 1]?.map Token.render = some "true" ∧
        ¬ ∃ token, ts[3 - 1]? = some token ∧ token.render = "false") ∧
    ofText? 1 "P Q" = .error (.unexpectedSymbol "Q" 1 "P Q") ∧
      ∃ ts, Token.scan "P Q" = .ok ts ∧
        ts[1 - 1]?.map Token.render = some "P" ∧
        ¬ ∃ token, ts[1 - 1]? = some token ∧ token.render = "Q" := by
  have hliterals : Token.scan "P := true false" = .ok [.atom "P", .assign, .verum, .falsum] := by
    decide +kernel
  have hatoms : Token.scan "P Q" = .ok [.atom "P", .atom "Q"] := by decide +kernel
  refine ⟨⟨by decide +kernel, _, hliterals, by decide, ?_⟩, by decide +kernel, _, hatoms,
    by decide, ?_⟩
  · rw [← Option.map_eq_some_iff]
    decide
  · rw [← Option.map_eq_some_iff]
    decide

end TokenLine

end Entailment
