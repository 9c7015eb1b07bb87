import Entailment.Proofs.Execution

/-!
# What statements do

The statement of a line and its effect, form by form.  `Statement.Reads` says which tokens are read
as which statement and `Statement.Performs` what a statement does to the tables and reports, so that
nothing that follows needs to look into the functions again:

* `Statement.ofLine_eq_ok_iff` : a statement is read from a line when its tokens are those of the
  statement;
* `Statement.perform_eq_ok_iff` : what a statement does when it can be performed;
* `Session.execute_of_echoes`, `Session.execute_eq_ok_iff` : the steps of one statement in a
  session, and of one that succeeds;
* `Session.run_append_singleton_eq_ok_iff` : a run succeeds when its last statement does, after all
  those before it.
-/

namespace Entailment

theorem Outcome.eq_of_result {σ : Type} {outcome : Outcome σ} {result : Except Error Unit}
    (h : outcome.result = result) : outcome = ⟨outcome.session, result⟩ := by rw [← h]

theorem Cursor.argument_eq_ok_iff {cursor : Cursor} {a : Argument} :
    cursor.argument.1 = .ok a ↔ Argument.ofTokens cursor.rest = .ok a := by
  unfold Cursor.argument
  cases Argument.ofTokens cursor.rest with
  | error halt => simp [Except.map, Cursor.settle]
  | ok b => simp [Except.map, Cursor.settle]

namespace Statement

/-! ### The statement of a line -/

/-- The tokens of a line are those of the statement.  What follows a complete statement does not
matter. -/
inductive Reads : List Token → Statement → Prop
  /-- The token after the command is printed, if there is one. -/
  | print (rest : List Token) : Reads (.print :: rest) (.print rest.head?)
  /-- The value is true when the literal is, and false whatever else stands in its place. -/
  | assign (name : String) (literal : Token) (rest : List Token) :
    Reads (.atom name :: .assign :: literal :: rest) (.assign name (literal == .verum))
  /-- The rest of the line is the body of the argument. -/
  | define (name : String) {body : List Token} {a : Argument} (h : Argument.ofTokens body = .ok a) :
    Reads (.argument :: .identifier name :: .assign :: body) (.define name a)
  /-- A question whether an argument is a tautology. -/
  | assert (name : String) (rest : List Token) :
    Reads (.assert :: .identifier name :: rest) (.assert name)
  /-- A question whether an argument is valid. -/
  | validate (name : String) (rest : List Token) :
    Reads (.validate :: .identifier name :: rest) (.validate name)
  /-- A question whether an argument is true. -/
  | valuate (name : String) (rest : List Token) :
    Reads (.valuate :: .identifier name :: rest) (.valuate name)

theorem named_eq_ok_iff {line : TokenLine} {tokens rest : List Token} {name : String} :
    named line tokens = .ok (name, rest) ↔ tokens = .identifier name :: rest := by
  unfold named
  split <;> simp_all

theorem map_named_eq_ok_iff {line : TokenLine} {tokens : List Token} {statement : Statement}
    (command : String → Statement) :
    (named line tokens).map (fun (name, _) => command name) = .ok statement ↔
      ∃ name rest, tokens = .identifier name :: rest ∧ statement = command name := by
  cases hnamed : named line tokens with
  | error error =>
    simp only [Except.map, reduceCtorEq, false_iff, not_exists, not_and]
    rintro name rest rfl
    cases hnamed
  | ok result =>
    obtain ⟨name, rest⟩ := result
    obtain rfl := named_eq_ok_iff.1 hnamed
    simp [Except.map, eq_comm]

theorem reads_of_ofLine {line : TokenLine} {statement : Statement}
    (h : ofLine line = .ok statement) : Reads line.tokens statement := by
  obtain ⟨number, source, tokens⟩ := line
  rcases tokens with _ | ⟨first, rest⟩
  · cases h
  · cases first with
    | print =>
      cases h
      exact .print rest
    | atom name =>
      simp only [ofLine] at h
      split at h
      · cases h
      · cases h
      · cases h
        exact .assign name _ _
      · cases h
    | argument =>
      simp only [ofLine] at h
      split at h
      · cases h
      · cases h
      · next name body hnamed =>
        obtain rfl := named_eq_ok_iff.1 hnamed
        cases hargument : (Cursor.mk source 3 body).argument.1 with
        | error error =>
          rw [hargument] at h
          cases h
        | ok a =>
          rw [hargument] at h
          cases h
          exact .define name (Cursor.argument_eq_ok_iff.1 hargument)
      · cases h
    | assert =>
      obtain ⟨name, rest, rfl, rfl⟩ := (map_named_eq_ok_iff .assert).1 h
      exact .assert name rest
    | validate =>
      obtain ⟨name, rest, rfl, rfl⟩ := (map_named_eq_ok_iff .validate).1 h
      exact .validate name rest
    | valuate =>
      obtain ⟨name, rest, rfl, rfl⟩ := (map_named_eq_ok_iff .valuate).1 h
      exact .valuate name rest
    | _ => cases h

theorem ofLine_of_reads {line : TokenLine} {statement : Statement}
    (h : Reads line.tokens statement) : ofLine line = .ok statement := by
  obtain ⟨number, source, tokens⟩ := line
  cases h with
  | @define name body a hbody =>
    have hargument : (Cursor.mk source 3 body).argument.1 = .ok a :=
      Cursor.argument_eq_ok_iff.2 hbody
    simp only [ofLine, named, hargument, Except.map]
  | _ => rfl

/-- A statement is read from a line when the tokens are those of the statement. -/
theorem ofLine_eq_ok_iff {line : TokenLine} {statement : Statement} :
    ofLine line = .ok statement ↔ Reads line.tokens statement :=
  ⟨reads_of_ofLine, ofLine_of_reads⟩

/-! ### The effect of a statement -/

/-- What a statement does to the tables, and what it reports. -/
inductive Performs (tables : Tables) : Statement → Effect → Prop
  /-- The token is reported, or an empty line. -/
  | print (content? : Option Token) :
    Performs tables (.print content?) ⟨tables, some ((content?.map Token.render).getD "" ++ "\n")⟩
  /-- The value is entered. -/
  | assign (name : String) (value : Bool) :
    Performs tables (.assign name value)
      ⟨{ tables with values := tables.values.insert name value }, none⟩
  /-- The argument is entered. -/
  | define (name : String) (a : Argument) :
    Performs tables (.define name a)
      ⟨{ tables with arguments := tables.arguments.insert name a }, none⟩
  /-- The verdict on a tautology is entered and reported. -/
  | assert {name : String} {a : Argument} {verdict : Bool}
    (ha : tables.arguments.get? name = some a) (hv : a.isTautology = .ok verdict) :
    Performs tables (.assert name)
      ⟨{ tables with assertions := tables.assertions.insert name verdict },
        some (tautologyReport a verdict)⟩
  /-- The verdict on validity is entered and reported. -/
  | validate {name : String} {a : Argument} {verdict : Bool}
    (ha : tables.arguments.get? name = some a) (hv : a.isValid = .ok verdict) :
    Performs tables (.validate name)
      ⟨{ tables with validations := tables.validations.insert name verdict },
        some (validityReport a verdict)⟩
  /-- The verdict on truth is entered and reported. -/
  | valuate {name : String} {a : Argument} {verdict : Bool}
    (ha : tables.arguments.get? name = some a) (hv : a.valuate tables.values = .ok verdict) :
    Performs tables (.valuate name)
      ⟨{ tables with valuations := tables.valuations.insert name verdict },
        some (truthReport a verdict)⟩

theorem lookup_eq_ok_iff {tables : Tables} {name : String} {a : Argument} :
    lookup tables name = .ok a ↔ tables.arguments.get? name = some a := by
  unfold lookup
  split <;> simp_all

theorem performs_of_perform {tables : Tables} {statement : Statement} {effect : Effect}
    (h : (statement.perform tables).value = .ok effect) : Performs tables statement effect := by
  cases statement with
  | print content? =>
    cases h
    exact .print content?
  | assign name value =>
    cases h
    exact .assign name value
  | define name a =>
    cases h
    exact .define name a
  | assert name =>
    simp only [perform] at h
    split at h
    · cases h
    · next a hlookup =>
      rw [Logged.value_bind] at h
      split at h
      · cases h
      · next verdict hverdict =>
        cases h
        exact .assert (lookup_eq_ok_iff.1 hlookup) hverdict
  | validate name =>
    simp only [perform] at h
    split at h
    · cases h
    · next a hlookup =>
      rw [Logged.value_bind] at h
      split at h
      · cases h
      · next verdict hverdict =>
        cases h
        exact .validate (lookup_eq_ok_iff.1 hlookup) hverdict
  | valuate name =>
    simp only [perform] at h
    split at h
    · cases h
    · next a hlookup =>
      split at h
      · cases h
      · next verdict hverdict =>
        cases h
        exact .valuate (lookup_eq_ok_iff.1 hlookup) hverdict

theorem perform_of_performs {tables : Tables} {statement : Statement} {effect : Effect}
    (h : Performs tables statement effect) : (statement.perform tables).value = .ok effect := by
  cases h with
  | print | assign | define => rfl
  | assert ha hv =>
    rw [Argument.isTautology] at hv
    simp only [perform, lookup_eq_ok_iff.2 ha, Logged.value_bind, hv, Logged.value_pure]
  | validate ha hv =>
    rw [Argument.isValid] at hv
    simp only [perform, lookup_eq_ok_iff.2 ha, Logged.value_bind, hv, Logged.value_pure]
  | valuate ha hv => simp only [perform, lookup_eq_ok_iff.2 ha, hv, Logged.value_pure]

/-- What a statement does when it can be performed. -/
theorem perform_eq_ok_iff {tables : Tables} {statement : Statement} {effect : Effect} :
    (statement.perform tables).value = .ok effect ↔ Performs tables statement effect :=
  ⟨performs_of_perform, perform_of_performs⟩

end Statement

namespace Session

variable {σ : Type} [Sink σ]

/-! ### One statement in a session -/

/-- The line is echoed, if the session echoes, and `sink` is the sink after that. -/
def Echoes (s : Session σ) (line : TokenLine) (sink : σ) : Prop :=
  if s.config.echo then Sink.write s.sink ("> " ++ line.render ++ "\n") = (sink, .ok ())
  else sink = s.sink

/-- The line cannot be echoed: the sink fails, and `sink` is the sink after that. -/
def EchoFails (s : Session σ) (line : TokenLine) (sink : σ) (fault : StreamError) : Prop :=
  s.config.echo = true ∧
    Sink.write s.sink ("> " ++ line.render ++ "\n") = (sink, .error fault)

theorem emit_some {s : Session σ} {text : String} {sink : σ} {result : Except StreamError Unit}
    (h : Sink.write s.sink text = (sink, result)) :
    s.emit (some text) = ⟨{ s with sink }, result.mapError .stream⟩ := by
  simp only [emit, h]

theorem emit_of_echoes {s : Session σ} {line : TokenLine} {sink : σ} (h : s.Echoes line sink) :
    s.emit (s.echo? line) = ⟨{ s with sink }, .ok ()⟩ := by
  unfold Echoes at h
  unfold echo?
  split_ifs at h ⊢ with hecho
  · exact emit_some h
  · subst h
    rfl

theorem emit_of_echoFails {s : Session σ} {line : TokenLine} {sink : σ} {fault : StreamError}
    (h : s.EchoFails line sink fault) :
    s.emit (s.echo? line) = ⟨{ s with sink }, .error (.stream fault)⟩ := by
  rw [echo?, if_pos h.1]
  exact emit_some h.2

/-- A line is echoed or it cannot be. -/
theorem echoes_or_echoFails (s : Session σ) (line : TokenLine) :
    (∃ sink, s.Echoes line sink) ∨ ∃ sink fault, s.EchoFails line sink fault := by
  by_cases hecho : s.config.echo = true
  · rcases hwrite : Sink.write s.sink ("> " ++ line.render ++ "\n") with ⟨sink, fault | ⟨⟨⟩⟩⟩
    · exact .inr ⟨sink, fault, hecho, hwrite⟩
    · exact .inl ⟨sink, by rw [Echoes, if_pos hecho, hwrite]⟩
  · exact .inl ⟨s.sink, by rw [Echoes, if_neg hecho]⟩

/-- A line that cannot be echoed is not run. -/
theorem execute_of_echoFails {s : Session σ} {line : TokenLine} {sink : σ} {fault : StreamError}
    (h : s.EchoFails line sink fault) :
    (s.execute line).value = ⟨{ s with sink }, .error (.stream fault)⟩ := by
  rw [value_execute, emit_of_echoFails h]

/-- The steps of a statement after its line has been echoed. -/
theorem execute_of_echoes {s : Session σ} {line : TokenLine} {sink : σ} (h : s.Echoes line sink) :
    (s.execute line).value =
      match Statement.ofLine line with
      | .error error => ⟨{ s with sink }, .error (.parse error)⟩
      | .ok statement =>
        match (statement.perform s.tables).value with
        | .error error => ⟨{ s with sink }, .error error⟩
        | .ok effect => { s with sink }.apply effect := by
  have hvalue := s.value_execute line
  rw [emit_of_echoes h] at hvalue
  exact hvalue

theorem execute_of_performs {s : Session σ} {line : TokenLine} {sink : σ} {statement : Statement}
    {effect : Effect} (he : s.Echoes line sink) (hr : Statement.Reads line.tokens statement)
    (hp : statement.Performs s.tables effect) :
    (s.execute line).value = { s with sink }.apply effect := by
  rw [execute_of_echoes he]
  simp only [Statement.ofLine_eq_ok_iff.2 hr, Statement.perform_eq_ok_iff.2 hp]

/-- The statement of a line is read and performed, or one of the two fails and what has happened
before is all that has happened. -/
theorem performs_or_execute_eq_error {s : Session σ} {line : TokenLine} {sink : σ}
    (h : s.Echoes line sink) :
    (∃ statement effect, Statement.Reads line.tokens statement ∧
      statement.Performs s.tables effect) ∨
    ∃ error, (∀ fault, error ≠ .stream fault) ∧
      (s.execute line).value = ⟨{ s with sink }, .error error⟩ := by
  rw [execute_of_echoes h]
  cases hline : Statement.ofLine line with
  | error error => exact .inr ⟨.parse error, by simp, rfl⟩
  | ok statement =>
    cases hperform : (statement.perform s.tables).value with
    | error error =>
      refine .inr ⟨error, ?_, by simp only [hperform]⟩
      rintro fault rfl
      cases Statement.unanswered_of_perform hperform
    | ok effect =>
      exact .inl ⟨statement, effect, Statement.ofLine_eq_ok_iff.1 hline,
        Statement.perform_eq_ok_iff.1 hperform⟩

/-- A statement without a report counts at once. -/
theorem apply_silent (s : Session σ) (tables : Tables) :
    s.apply ⟨tables, none⟩ = ⟨{ s with tables, statements := s.statements + 1 }, .ok ()⟩ := rfl

/-- A statement that is reported counts. -/
theorem apply_of_written {s : Session σ} {tables : Tables} {report : String} {sink : σ}
    (h : Sink.write s.sink report = (sink, .ok ())) :
    s.apply ⟨tables, some report⟩ =
      ⟨{ s with sink, tables, statements := s.statements + 1 }, .ok ()⟩ := by
  simp only [apply, emit, h]
  rfl

/-- A statement that cannot be reported has entered its result, and does not count. -/
theorem apply_of_unwritten {s : Session σ} {tables : Tables} {report : String} {sink : σ}
    {fault : StreamError} (h : Sink.write s.sink report = (sink, .error fault)) :
    s.apply ⟨tables, some report⟩ = ⟨{ s with sink, tables }, .error (.stream fault)⟩ := by
  simp only [apply, emit, h]
  rfl

/-- What a statement has entered is there whether it can be reported or not. -/
theorem tables_apply (s : Session σ) (effect : Effect) :
    (s.apply effect).session.tables = effect.tables := by
  obtain ⟨tables, _ | report⟩ := effect
  · rfl
  · rcases hwrite : Sink.write s.sink report with ⟨sink, fault | ⟨⟨⟩⟩⟩
    · rw [apply_of_unwritten hwrite]
    · rw [apply_of_written hwrite]

/-- A statement succeeds when its line is echoed, it is read and performed, and its report is
written. -/
theorem execute_eq_ok_iff {s s' : Session σ} {line : TokenLine} :
    (s.execute line).value = ⟨s', .ok ()⟩ ↔
      ∃ sink statement effect, s.Echoes line sink ∧ Statement.Reads line.tokens statement ∧
        statement.Performs s.tables effect ∧ { s with sink }.apply effect = ⟨s', .ok ()⟩ := by
  constructor
  · intro h
    rcases s.echoes_or_echoFails line with ⟨sink, he⟩ | ⟨sink, fault, he⟩
    · rcases performs_or_execute_eq_error he with ⟨statement, effect, hr, hp⟩ | ⟨error, -, herror⟩
      · exact ⟨sink, statement, effect, he, hr, hp, (execute_of_performs he hr hp).symm.trans h⟩
      · rw [herror] at h
        cases h
    · rw [execute_of_echoFails he] at h
      cases h
  · rintro ⟨sink, statement, effect, he, hr, hp, happly⟩
    rw [execute_of_performs he hr hp, happly]

/-- What a statement that succeeds has done to the tables. -/
theorem exists_performs_of_execute {s s' : Session σ} {line : TokenLine}
    (h : (s.execute line).value = ⟨s', .ok ()⟩) :
    ∃ statement effect, Statement.Reads line.tokens statement ∧
      statement.Performs s.tables effect ∧ s'.tables = effect.tables := by
  obtain ⟨sink, statement, effect, -, hr, hp, happly⟩ := execute_eq_ok_iff.1 h
  refine ⟨statement, effect, hr, hp, ?_⟩
  rw [← tables_apply { s with sink } effect, happly]

/-! ### Runs -/

/-- A run succeeds when the statements before the last succeed, and then the last. -/
theorem run_append_singleton_eq_ok_iff {s s' : Session σ} {before : List TokenLine}
    {line : TokenLine} :
    (s.run (before ++ [line])).value = ⟨s', .ok ()⟩ ↔
      ∃ reached, (s.run before).value = ⟨reached, .ok ()⟩ ∧
        (reached.execute line).value = ⟨s', .ok ()⟩ := by
  rw [value_run_append]
  rcases (s.run before).value with ⟨reached, error | ⟨⟨⟩⟩⟩
  · simp
  · simp only [Outcome.mk.injEq, and_true, exists_eq_left', value_run_cons]
    rcases (reached.execute line).value with ⟨last, error | ⟨⟨⟩⟩⟩
    · simp
    · simp [run]

end Session

end Entailment
