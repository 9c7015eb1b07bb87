import Entailment.Proofs.Truncation

/-!
# The shape of accepted lines

Only neighbouring tokens are compared, but together with the check of the beginning this fixes where
a token can stand on a line of any length: what no kind may precede stands first, what nothing may
follow stands last, and names of arguments and quoted texts stand second.  Reading the statement of
such a line finds every token it asks for, so a token that does not fit can only be in the body of a
definition:

* `TokenLine.Shaped` : where the tokens of an accepted line stand;
* `TokenLine.Accepted.shaped` : **accepted lines are so shaped**;
* `Statement.ofLine_eq_unexpected_iff` : **a token that does not fit is one of a body**;
* `Session.accepted_line_shape` : both for a line that is read from a text, in any session.
-/

namespace Entailment

/-! ### The table of neighbours -/

namespace Kind

/-- The kinds that only the first token of a line has. -/
def openers : List Kind := [print, argument, assert, validate, valuate]

theorem not_allows_opener (kind : Kind) {next : Kind} (h : next ∈ openers) :
    kind.allows next = false := by
  have hall : ∀ next ∈ openers, kind.allows next = false := by cases kind <;> decide
  exact hall next h

theorem not_allows_after {kind : Kind} (h : kind ∈ [verum, falsum, text]) (next : Kind) :
    kind.allows next = false := by
  have hall : ∀ kind ∈ [verum, falsum, text], kind.successors = [] := by decide
  rw [allows, hall kind h]
  rfl

end Kind

namespace Token

/-- A command and `print` are of the kinds that open a line. -/
theorem kind_mem_openers {token : Token} (h : token ∈ print :: commands) :
    token.kind ∈ Kind.openers := by
  have hall : ∀ token ∈ print :: commands, token.kind ∈ Kind.openers := by decide
  exact hall token h

theorem mem_commands_of_allows_identifier {token : Token} {name : String}
    (h : token.allows (.identifier name) = true) : token ∈ commands := by
  cases token with
  | argument | assert | validate | valuate => decide
  | _ => cases h

theorem eq_print_of_allows_text {token : Token} {content : String}
    (h : token.allows (.text content) = true) : token = .print := by
  cases token with
  | print => rfl
  | _ => cases h

theorem eq_assign_of_allows_literal {token literal : Token} (hl : literal ∈ [verum, falsum])
    (h : token.allows literal = true) : token = .assign := by
  rcases List.mem_pair.1 hl with rfl | rfl
  all_goals
    cases token with
    | assign => rfl
    | _ => cases h

end Token

namespace TokenLine

/-! ### Neighbours on a line -/

section Neighbours

variable {before after : List Token} {token : Token}

/-- A token stands first, or directly after one that allows it. -/
theorem Fits.eq_nil_or_previous (h : Fits (before ++ token :: after)) :
    before = [] ∨
      ∃ earlier previous, before = earlier ++ [previous] ∧ previous.allows token = true := by
  rcases List.eq_nil_or_concat before with rfl | ⟨earlier, previous, rfl⟩
  · exact .inl rfl
  · rw [List.concat_eq_append] at h ⊢
    have hallows := (List.isChain_append.1 h).2.2 previous (by simp) token rfl
    exact .inr ⟨earlier, previous, rfl, hallows⟩

/-- What allows no kind after it stands last. -/
theorem Fits.eq_nil_after (h : Fits (before ++ token :: after))
    (hk : token.kind ∈ [.verum, .falsum, .text]) : after = [] := by
  cases after with
  | nil => rfl
  | cons next later =>
    have hallows := (List.isChain_cons_cons.1 h.right_of_append).1
    rw [Token.allows, Kind.not_allows_after hk] at hallows
    cases hallows

/-- What no kind allows after it stands first. -/
theorem Fits.eq_nil_before_opener (h : Fits (before ++ token :: after))
    (hk : token.kind ∈ Kind.openers) : before = [] := by
  rcases h.eq_nil_or_previous with rfl | ⟨earlier, previous, -, hallows⟩
  · rfl
  · rw [Token.allows, Kind.not_allows_opener _ hk] at hallows
    cases hallows

/-- The first token of a line is an atom or opens it. -/
theorem Leads.kind_first {rest : List Token} (h : Leads (token :: rest)) :
    token.kind ∈ .atom :: Kind.openers := by
  cases h with
  | print | text | assignment => simp [Token.kind, Kind.openers]
  | command hc | definition hc =>
    exact List.mem_cons_of_mem _ (Token.kind_mem_openers (List.mem_cons_of_mem _ hc))

/-- What can neither be assigned to nor open a line stands directly after a token that allows it. -/
theorem Leads.exists_previous (hleads : Leads (before ++ token :: after))
    (hfits : Fits (before ++ token :: after)) (hk : token.kind ∉ .atom :: Kind.openers) :
    ∃ earlier previous, before = earlier ++ [previous] ∧ previous.allows token = true := by
  rcases hfits.eq_nil_or_previous with rfl | hprevious
  · exact absurd hleads.kind_first hk
  · exact hprevious

theorem Leads.before_identifier {name : String}
    (hleads : Leads (before ++ .identifier name :: after))
    (hfits : Fits (before ++ .identifier name :: after)) :
    ∃ command ∈ Token.commands, before = [command] := by
  obtain ⟨earlier, command, rfl, hallows⟩ :=
    hleads.exists_previous hfits (by simp [Token.kind, Kind.openers])
  have hcommand := Token.mem_commands_of_allows_identifier hallows
  rw [List.append_assoc] at hfits
  obtain rfl := Fits.eq_nil_before_opener hfits
    (Token.kind_mem_openers (List.mem_cons_of_mem _ hcommand))
  exact ⟨command, hcommand, rfl⟩

theorem Leads.around_text {content : String} (hleads : Leads (before ++ .text content :: after))
    (hfits : Fits (before ++ .text content :: after)) : before = [.print] ∧ after = [] := by
  refine ⟨?_, hfits.eq_nil_after (by simp [Token.kind])⟩
  obtain ⟨earlier, previous, rfl, hallows⟩ :=
    hleads.exists_previous hfits (by simp [Token.kind, Kind.openers])
  obtain rfl := Token.eq_print_of_allows_text hallows
  rw [List.append_assoc] at hfits
  obtain rfl := Fits.eq_nil_before_opener hfits (by decide)
  rfl

theorem Leads.around_literal (hleads : Leads (before ++ token :: after))
    (hfits : Fits (before ++ token :: after)) (hl : token ∈ [.verum, .falsum]) :
    (∃ earlier, before = earlier ++ [.assign]) ∧ after = [] := by
  have hall : ∀ token ∈ [Token.verum, .falsum], token.kind ∉ .atom :: Kind.openers ∧
      token.kind ∈ [.verum, .falsum, .text] := by decide
  obtain ⟨hfirst, hlast⟩ := hall token hl
  obtain ⟨earlier, previous, rfl, hallows⟩ := hleads.exists_previous hfits hfirst
  obtain rfl := Token.eq_assign_of_allows_literal hl hallows
  exact ⟨⟨earlier, rfl⟩, hfits.eq_nil_after hlast⟩

end Neighbours

/-! ### Lines -/

/-- Where the tokens of an accepted line stand. -/
structure Shaped (tokens : List Token) : Prop where
  /-- The line begins as a statement does: it is `print` alone or before a text, an atom before an
  assignment sign, or a command before a name, which only an assignment sign follows. -/
  leads : Leads tokens
  /-- `print` and the commands stand first. -/
  opener : ∀ before token after, tokens = before ++ token :: after →
    token ∈ .print :: Token.commands → before = []
  /-- The name of an argument stands second, after a command. -/
  identifier : ∀ before name after, tokens = before ++ .identifier name :: after →
    ∃ command ∈ Token.commands, before = [command]
  /-- A quoted text stands second and last, after `print`. -/
  text : ∀ before content after, tokens = before ++ .text content :: after →
    before = [.print] ∧ after = []
  /-- A truth value stands last, directly after an assignment sign. -/
  literal : ∀ before token after, tokens = before ++ token :: after →
    token ∈ [.verum, .falsum] → (∃ earlier, before = earlier ++ [.assign]) ∧ after = []

/-- **Accepted lines are shaped.** -/
theorem Accepted.shaped {line : TokenLine} (h : line.Accepted) : Shaped line.tokens := by
  have hleads := h.leads
  obtain ⟨tokens, -, -, -, hfits, heq⟩ := ofText?_eq_some_iff.1 h
  obtain rfl : line.tokens = tokens := by rw [heq]
  refine ⟨hleads, ?_, ?_, ?_, ?_⟩
  · intro before token after heq htoken
    rw [heq] at hfits
    exact Fits.eq_nil_before_opener hfits (Token.kind_mem_openers htoken)
  · intro before name after heq
    rw [heq] at hleads hfits
    exact hleads.before_identifier hfits
  · intro before content after heq
    rw [heq] at hleads hfits
    exact hleads.around_text hfits
  · intro before token after heq htoken
    rw [heq] at hleads hfits
    exact hleads.around_literal hfits htoken

end TokenLine

/-! ### Tokens that do not fit -/

namespace Statement

/-- **A token that does not fit is one of a body.**  Nothing else of an accepted line is refused
for what it is. -/
theorem ofLine_eq_unexpected_iff {line : TokenLine} (h : line.Accepted) {symbol text : String}
    {position : ℕ} :
    ofLine line = .error (.unexpectedSymbol symbol position text) ↔
      line.BodyFails (.unexpectedSymbol symbol position text) := by
  rw [ofLine_eq_error_iff h]
  simp

end Statement

namespace Session

variable {σ : Type} [Sink σ]

/-- **The shape of an accepted line, and what it leaves to fail.**  In a line that is read from a
text, every token stands where its kind has its place.  In any session such a line is found to have
a token that does not fit exactly when it is a definition whose body has one, and echoing it did not
fail before. -/
theorem accepted_line_shape {number : ℕ} {source : String} {line : TokenLine}
    (h : TokenLine.ofText? number source = .ok (some line)) :
    TokenLine.Shaped line.tokens ∧
    ∀ (s : Session σ) (symbol text : String) (position : ℕ),
      (s.execute line).value.result = .error (.parse (.unexpectedSymbol symbol position text)) ↔
        (s.emit (s.echo? line)).result = .ok () ∧
          line.BodyFails (.unexpectedSymbol symbol position text) := by
  have haccepted := TokenLine.accepted_of_ofText? h
  refine ⟨haccepted.shaped, fun s symbol text position => ?_⟩
  rw [execute_eq_parse_iff, Statement.ofLine_eq_unexpected_iff haccepted]

/-- The line `argument a := P ∴ Q ∴ R` is accepted, so it is shaped as a definition, and its second
conclusion is refused where it stands in the body. -/
theorem second_conclusion_refused_in_body :
    let source := "argument a := P ∴ Q ∴ R"
    let line : TokenLine := ⟨1, source, [.argument, .identifier "a", .assign, .atom "P", .therefore,
      .atom "Q", .therefore, .atom "R"]⟩
    TokenLine.ofText? 1 source = .ok (some line) ∧ TokenLine.Shaped line.tokens ∧
      line.BodyFails (.unexpectedSymbol "∴" 6 source) ∧
      ((start {} Buffer.unbounded).execute line).value.result =
        .error (.parse (.unexpectedSymbol "∴" 6 source)) := by
  intro source line
  have hline : TokenLine.ofText? 1 source = .ok (some line) := by decide +kernel
  have hbody : line.BodyFails (.unexpectedSymbol "∴" 6 source) :=
    ⟨"a", _, rfl, by decide +kernel⟩
  obtain ⟨hshaped, hfails⟩ := accepted_line_shape (σ := Buffer) hline
  exact ⟨hline, hshaped, hbody, (hfails _ _ _ _).2 ⟨rfl, hbody⟩⟩

end Session

end Entailment
