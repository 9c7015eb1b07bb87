import Entailment.Proofs.Effects

/-!
# Statements that fail

A statement can fail before it does anything, or when its report is written.  In the first case all
that is left of it is the echo of its line.  In the second the tables already hold its verdict, if
it asked for one.  It never counts.

* `Session.exists_unwritten_of_apply` : applying an effect fails only by its report;
* `Statement.EntersVerdict` : the one entry that a command makes before it reports;
* `Session.execute_eq_error_leaves` : **what a failed statement leaves behind**, for every session,
  every line and every sink.
-/

namespace Entailment

namespace Statement

/-- The tokens ask for a verdict on an argument: it is entered under the name of the argument, and
nothing else changes, before it is reported. -/
inductive EntersVerdict (tables : Tables) : List Token → Tables → String → Prop
  /-- The verdict on a tautology. -/
  | assert {name : String} {rest : List Token} {a : Argument} {verdict : Bool}
    (ha : tables.arguments.get? name = some a) (hv : a.isTautology = .ok verdict) :
    EntersVerdict tables (.assert :: .identifier name :: rest)
      { tables with assertions := tables.assertions.insert name verdict }
      (tautologyReport a verdict)
  /-- The verdict on validity. -/
  | validate {name : String} {rest : List Token} {a : Argument} {verdict : Bool}
    (ha : tables.arguments.get? name = some a) (hv : a.isValid = .ok verdict) :
    EntersVerdict tables (.validate :: .identifier name :: rest)
      { tables with validations := tables.validations.insert name verdict }
      (validityReport a verdict)
  /-- The verdict on truth. -/
  | valuate {name : String} {rest : List Token} {a : Argument} {verdict : Bool}
    (ha : tables.arguments.get? name = some a) (hv : a.valuate tables.values = .ok verdict) :
    EntersVerdict tables (.valuate :: .identifier name :: rest)
      { tables with valuations := tables.valuations.insert name verdict }
      (truthReport a verdict)

/-- A statement that reports something prints it or enters a verdict. -/
theorem print_or_entersVerdict {tables after : Tables} {tokens : List Token}
    {statement : Statement} {report : String} (hr : Reads tokens statement)
    (hp : statement.Performs tables ⟨after, some report⟩) :
    ((∃ rest, tokens = .print :: rest) ∧ after = tables) ∨
      EntersVerdict tables tokens after report := by
  cases hp with
  | print content? =>
    cases hr with
    | print rest => exact .inl ⟨⟨rest, rfl⟩, rfl⟩
  | assert ha hv =>
    cases hr with
    | assert name rest => exact .inr (.assert ha hv)
  | validate ha hv =>
    cases hr with
    | validate name rest => exact .inr (.validate ha hv)
  | valuate ha hv =>
    cases hr with
    | valuate name rest => exact .inr (.valuate ha hv)

end Statement

namespace Session

variable {σ : Type} [Sink σ]

/-- Applying an effect fails only by its report; the tables are then those of the effect. -/
theorem exists_unwritten_of_apply {s s' : Session σ} {effect : Effect} {error : Error}
    (h : s.apply effect = ⟨s', .error error⟩) :
    ∃ report sink fault, effect.report? = some report ∧
      Sink.write s.sink report = (sink, .error fault) ∧ error = .stream fault ∧
      s' = { s with sink, tables := effect.tables } := by
  obtain ⟨tables, _ | report⟩ := effect
  · cases h
  · rcases hwrite : Sink.write s.sink report with ⟨sink, fault | ⟨⟨⟩⟩⟩
    · rw [apply_of_unwritten hwrite] at h
      cases h
      exact ⟨report, sink, fault, rfl, hwrite, rfl, rfl⟩
    · rw [apply_of_written hwrite] at h
      cases h

/-- Once its line has been echoed, a statement fails before it does anything, or by its report. -/
theorem execute_eq_error_of_echoes {s s' : Session σ} {line : TokenLine} {sink : σ} {error : Error}
    (he : s.Echoes line sink) (h : (s.execute line).value = ⟨s', .error error⟩) :
    ((∀ fault, error ≠ .stream fault) ∧ s' = { s with sink }) ∨
      ∃ statement tables report after fault, Statement.Reads line.tokens statement ∧
        statement.Performs s.tables ⟨tables, some report⟩ ∧
        Sink.write sink report = (after, .error fault) ∧ error = .stream fault ∧
        s' = { s with sink := after, tables } := by
  -- a statement that can be performed has only its report left to fail by
  rcases performs_or_execute_eq_error he with ⟨statement, effect, hr, hp⟩ | ⟨found, hne, hfound⟩
  · rw [execute_of_performs he hr hp] at h
    obtain ⟨report, after, fault, hreport, hwrite, herror, hs'⟩ := exists_unwritten_of_apply h
    obtain ⟨tables, report?⟩ := effect
    obtain rfl : report? = some report := hreport
    exact .inr ⟨statement, tables, report, after, fault, hr, hp, hwrite, herror, hs'⟩
  · rw [hfound] at h
    cases h
    exact .inl ⟨hne, rfl⟩

/-- **What a failed statement leaves behind.**  It never counts.  If it failed by anything else than
the sink, the tables are as they were, and the sink has been given the echo of the line and nothing
more.  If the sink failed, it failed to take the echo, or something printed, and the tables are as
they were; or it failed to take a report, and the tables have the one verdict that was to be
reported. -/
theorem execute_eq_error_leaves {s s' : Session σ} {line : TokenLine} {error : Error}
    (h : (s.execute line).value = ⟨s', .error error⟩) :
    s'.statements = s.statements ∧ s'.config = s.config ∧
    ((∀ fault, error ≠ .stream fault) → s'.tables = s.tables ∧ s.Echoes line s'.sink) ∧
    ∀ fault, error = .stream fault →
      (s.EchoFails line s'.sink fault ∧ s'.tables = s.tables) ∨
      ∃ sink report, s.Echoes line sink ∧ Sink.write sink report = (s'.sink, .error fault) ∧
        (((∃ rest, line.tokens = .print :: rest) ∧ s'.tables = s.tables) ∨
          Statement.EntersVerdict s.tables line.tokens s'.tables report) := by
  rcases s.echoes_or_echoFails line with ⟨sink, he⟩ | ⟨sink, fault, he⟩
  · rcases execute_eq_error_of_echoes he h with
      ⟨hne, rfl⟩ | ⟨statement, tables, report, after, fault, hr, hp, hwrite, rfl, rfl⟩
    · exact ⟨rfl, rfl, fun _ => ⟨rfl, he⟩, fun fault heq => absurd heq (hne fault)⟩
    · refine ⟨rfl, rfl, fun hne => absurd rfl (hne fault), ?_⟩
      rintro _ ⟨⟩
      exact .inr ⟨sink, report, he, hwrite, Statement.print_or_entersVerdict hr hp⟩
  · rw [execute_of_echoFails he] at h
    cases h
    refine ⟨rfl, rfl, fun hne => absurd rfl (hne fault), ?_⟩
    rintro _ ⟨⟩
    exact .inl ⟨he, rfl⟩

/-- The line `assert a` fails in a fresh session, where no argument is defined, and nothing is left
of it but its echo.  Where `a` is `(P ∨ ¬P)` and the sink has room for the echo and one byte more,
it fails by its report, and the verdict is there all the same. -/
theorem assert_fails_by_name_or_report :
    let line : TokenLine := ⟨1, "assert a", [.assert, .identifier "a"]⟩
    let fresh := start ⟨true, false⟩ Buffer.unbounded
    let named : Tables := { Tables.empty with
      arguments := Table.empty.insert "a" ⟨[.disj (.atom "P") (.neg (.atom "P"))], none⟩ }
    let full : Session Buffer := ⟨⟨true, false⟩, { room? := some 12 }, 0, named⟩
    ((fresh.execute line).value.result = .error (.unknownArgument "a") ∧
      (fresh.execute line).value.session.tables = .empty ∧
      (fresh.execute line).value.session.sink.output = Source.encode "> assert a\n") ∧
    (full.execute line).value.result = .error (.stream ⟨.other, "sink full"⟩) ∧
      (full.execute line).value.session.statements = 0 ∧
      (full.execute line).value.session.tables.assertions.get? "a" = some true ∧
      ∃ sink report, full.Echoes line sink ∧
        Statement.EntersVerdict named line.tokens (full.execute line).value.session.tables
          report := by
  intro line fresh named full
  have hunknown : (fresh.execute line).value.result = .error (.unknownArgument "a") := by
    decide +kernel
  have hfull : (full.execute line).value.result = .error (.stream ⟨.other, "sink full"⟩) := by
    decide +kernel
  obtain ⟨-, -, hleft, -⟩ := execute_eq_error_leaves (Outcome.eq_of_result hunknown)
  obtain ⟨hcount, -, -, hwrite⟩ := execute_eq_error_leaves (Outcome.eq_of_result hfull)
  refine ⟨⟨hunknown, (hleft (by simp)).1, by decide +kernel⟩, hfull, hcount, by decide +kernel, ?_⟩
  rcases hwrite _ rfl with ⟨hecho, -⟩ | ⟨sink, report, hecho, -, ⟨⟨rest, hprint⟩, -⟩ | hverdict⟩
  · have htaken : (Sink.write full.sink ("> " ++ line.render ++ "\n")).2 = .ok () := by
      decide +kernel
    rw [hecho.2] at htaken
    cases htaken
  · cases hprint
  · exact ⟨sink, report, hecho, hverdict⟩

end Session

end Entailment
