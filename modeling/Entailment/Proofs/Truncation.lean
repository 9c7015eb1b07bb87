import Entailment.Proofs.AcceptedLines
import Entailment.Proofs.Execution

/-!
# Statements that end too early

Reading a statement fails with `ParseError.truncated` when the tokens of the line end before the
fixed part of the statement is complete.  The checks of a line are meant to exclude this, but they
look no further than its second token: an assignment without a value and a definition without an
assignment sign pass them.  These two are all:

* `Statement.ofLine_eq_error_iff` : reading the statement of an accepted line fails when it is
  unfinished or its body fails;
* `Statement.ofLine_eq_truncated_iff` : of the accepted lines only the unfinished ones are
  truncated;
* `Program.run_eq_truncated_iff` : **a program ends with a truncated statement exactly when it runs
  up to an unfinished line**, so a program without such lines never does.
-/

namespace Entailment

/-- The line is an assignment without a value, or a definition that ends after the name. -/
def TokenLine.Unfinished (line : TokenLine) : Prop :=
  (∃ name, line.tokens = [.atom name, .assign]) ∨
    ∃ name, line.tokens = [.argument, .identifier name]

/-- The line is a definition, and reading its body fails with this error. -/
def TokenLine.BodyFails (line : TokenLine) (error : ParseError) : Prop :=
  ∃ name body, line.tokens = .argument :: .identifier name :: .assign :: body ∧
    (Cursor.mk line.source 3 body).argument.1 = .error error

theorem Cursor.argument_ne_truncated (cursor : Cursor) (rendering : String) :
    cursor.argument.1 ≠ .error (.truncated rendering) := by
  unfold Cursor.argument Cursor.settle
  split
  · simp
  · next halt _ => cases halt <;> simp [Cursor.errorOf, Cursor.unexpected]

/-- A body is read to its end, and fails in its own way. -/
theorem TokenLine.not_bodyFails_truncated (line : TokenLine) (rendering : String) :
    ¬ line.BodyFails (.truncated rendering) := by
  rintro ⟨name, body, -, hbody⟩
  exact Cursor.argument_ne_truncated _ rendering hbody

namespace Statement

theorem ofLine_definition_eq_error_iff {number : ℕ} {source name : String} {body : List Token}
    {error : ParseError} :
    ofLine ⟨number, source, .argument :: .identifier name :: .assign :: body⟩ = .error error ↔
      (Cursor.mk source 3 body).argument.1 = .error error := by
  cases hargument : (Cursor.mk source 3 body).argument.1 with
  | error found => simp [ofLine, named, hargument, Except.map]
  | ok a => simp [ofLine, named, hargument, Except.map]

/-- **How reading the statement of an accepted line fails**: it is unfinished, or its body fails. -/
theorem ofLine_eq_error_iff {line : TokenLine} (h : line.Accepted) {error : ParseError} :
    ofLine line = .error error ↔
      (line.Unfinished ∧ error = .truncated line.render) ∨ line.BodyFails error := by
  -- Beyond how it begins nothing matters about the line: the parts that can be missing come first.
  have hleads := h.leads
  obtain ⟨number, source, tokens⟩ := line
  cases hleads with
  | print => simp [ofLine, TokenLine.Unfinished, TokenLine.BodyFails]
  | text content => simp [ofLine, TokenLine.Unfinished, TokenLine.BodyFails]
  | assignment name rest =>
    cases rest with
    | nil => simp [ofLine, TokenLine.Unfinished, TokenLine.BodyFails, eq_comm]
    | cons literal rest => simp [ofLine, TokenLine.Unfinished, TokenLine.BodyFails]
  | command hc name =>
    simp only [Token.commands, List.mem_cons, List.not_mem_nil, or_false] at hc
    rcases hc with rfl | rfl | rfl | rfl
    · simp [ofLine, named, TokenLine.Unfinished, TokenLine.BodyFails, eq_comm]
    all_goals simp [ofLine, named, TokenLine.Unfinished, TokenLine.BodyFails, Except.map]
  | definition hc name rest =>
    simp only [Token.commands, List.mem_cons, List.not_mem_nil, or_false] at hc
    rcases hc with rfl | rfl | rfl | rfl
    · simp [ofLine_definition_eq_error_iff, TokenLine.Unfinished, TokenLine.BodyFails]
    all_goals simp [ofLine, named, TokenLine.Unfinished, TokenLine.BodyFails, Except.map]

/-- Of the accepted lines only the unfinished ones are truncated. -/
theorem ofLine_eq_truncated_iff {line : TokenLine} (h : line.Accepted) {rendering : String} :
    ofLine line = .error (.truncated rendering) ↔ line.Unfinished ∧ rendering = line.render := by
  rw [ofLine_eq_error_iff h, or_iff_left (line.not_bodyFails_truncated rendering),
    ParseError.truncated.injEq]

end Statement

variable {σ : Type} [Sink σ]

/-- An accepted line is truncated in a session when it is unfinished and has been echoed. -/
theorem Session.execute_eq_truncated_iff {s : Session σ} {line : TokenLine} (h : line.Accepted)
    {rendering : String} :
    (s.execute line).value.result = .error (.parse (.truncated rendering)) ↔
      (s.emit (s.echo? line)).result = .ok () ∧ line.Unfinished ∧ rendering = line.render := by
  rw [execute_eq_parse_iff, Statement.ofLine_eq_truncated_iff h]

namespace Program

/-- **A program ends with a truncated statement exactly when it runs up to an unfinished line.**  In
any session an accepted line is found to be truncated if it is unfinished, and echoing it did not
fail before; a program text ends so when its statements run without an error up to such a line. -/
theorem run_eq_truncated_iff (config : Config) (sink : σ) (text rendering : String) :
    (∀ (s : Session σ) (line : TokenLine), line.Accepted →
      ((s.execute line).value.result = .error (.parse (.truncated rendering)) ↔
        (s.emit (s.echo? line)).result = .ok () ∧ line.Unfinished ∧ rendering = line.render)) ∧
    ((run config sink text).value.result = .error (.parse (.truncated rendering)) ↔
      ∃ before line after s, (Source.read text).toExcept = .ok (before ++ line :: after) ∧
        ((Session.start config sink).run before).value = ⟨s, .ok ()⟩ ∧
        (s.emit (s.echo? line)).result = .ok () ∧ line.Unfinished ∧ rendering = line.render) := by
  refine ⟨fun s line h => Session.execute_eq_truncated_iff h, ?_⟩
  rw [run_eq_parse_iff]
  constructor
  · rintro ⟨lines, hread, hrun⟩
    obtain ⟨before, line, after, s, rfl, hbefore, hline⟩ := Session.run_eq_error_iff.1 hrun
    have haccepted := Source.accepted_of_mem_read hread (by simp : line ∈ before ++ line :: after)
    exact ⟨before, line, after, s, hread, hbefore,
      (Session.execute_eq_truncated_iff haccepted).1 hline⟩
  · rintro ⟨before, line, after, s, hread, hbefore, hline⟩
    have haccepted := Source.accepted_of_mem_read hread (by simp : line ∈ before ++ line :: after)
    exact ⟨_, hread, Session.run_eq_error_iff.2
      ⟨before, line, after, s, rfl, hbefore, (Session.execute_eq_truncated_iff haccepted).2 hline⟩⟩

/-- The line `P :=` is accepted and unfinished, so it is truncated in a fresh session. -/
theorem unfinished_assignment_truncated :
    let line : TokenLine := ⟨1, "P :=", [.atom "P", .assign]⟩
    line.Accepted ∧ ((Session.start {} Buffer.unbounded).execute line).value.result =
      .error (.parse (.truncated "P :=")) := by
  intro line
  have haccepted : line.Accepted := by
    change TokenLine.ofText? 1 "P :=" = .ok (some line)
    decide +kernel
  have hunfinished : line.Unfinished := .inl ⟨"P", rfl⟩
  have hrender : "P :=" = line.render := by decide
  exact ⟨haccepted, ((run_eq_truncated_iff {} Buffer.unbounded "P :=" "P :=").1 _ line haccepted).2
    ⟨rfl, hunfinished, hrender⟩⟩

/-- An assignment without a value and a definition without an assignment sign pass the checks of
their lines, and the programs they make up end with truncated statements. -/
theorem unfinished_programs_truncated :
    (run {} Buffer.unbounded "P :=").value.result = .error (.parse (.truncated "P :=")) ∧
      (run {} Buffer.unbounded "argument a").value.result =
        .error (.parse (.truncated "argument a")) := by
  decide +kernel

end Program

end Entailment
