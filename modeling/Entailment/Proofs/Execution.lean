import Entailment.Program
import Mathlib.Tactic.Common

/-!
# Running statements

A statement is echoed, read, performed and reported, and each of these can fail in its own way.
This file says which errors come from where, first of one statement and then of whole runs:

* `Session.value_execute` : the steps of one statement, without the records it leaves;
* `Session.execute_eq_parse_iff` : a parse error comes from reading the statement;
* `Session.run_eq_error_iff` : **a run fails at the first statement that fails**;
* `Program.run_eq_parse_iff` : a program text ends with a parse error when its statements do.
-/

namespace Entailment

namespace Statement

/-- The errors of performing a statement: it can fail only by what it asks of an argument. -/
inductive Unanswered : Error → Prop
  /-- The argument is not defined. -/
  | unknown (name : String) : Unanswered (.unknownArgument name)
  /-- The argument has not the shape that the question needs. -/
  | usage (error : UsageError) : Unanswered (.usage error)
  /-- A name of the argument has no value. -/
  | missing (error : MissingValue) : Unanswered (.missingValue error)

theorem unanswered_of_lookup {tables : Tables} {name : String} {error : Error}
    (h : lookup tables name = .error error) : Unanswered error := by
  unfold lookup at h
  split at h
  · cases h
  · cases h
    exact .unknown name

theorem unanswered_of_perform {tables : Tables} {statement : Statement} {error : Error}
    (h : (statement.perform tables).value = .error error) : Unanswered error := by
  cases statement with
  | print | assign | define => cases h
  | assert name | validate name =>
    simp only [perform] at h
    split at h
    · next hlookup =>
      cases h
      exact unanswered_of_lookup hlookup
    · rw [Logged.value_bind] at h
      split at h
      · cases h
        exact .usage _
      · cases h
  | valuate name =>
    simp only [perform] at h
    split at h
    · next hlookup =>
      cases h
      exact unanswered_of_lookup hlookup
    · split at h
      · cases h
        exact .missing _
      · cases h

end Statement

theorem exists_of_mapError_eq_error {α ε δ : Type} {f : ε → δ} {result : Except ε α} {error : δ}
    (h : result.mapError f = .error error) : ∃ fault, error = f fault := by
  cases result with
  | ok value => cases h
  | error fault =>
    cases h
    exact ⟨fault, rfl⟩

namespace Session

variable {σ : Type} [Sink σ]

/-! ### One statement -/

/-- Writing fails with an error of the stream. -/
theorem exists_stream_of_emit {s : Session σ} {text? : Option String} {error : Error}
    (h : (s.emit text?).result = .error error) : ∃ fault, error = .stream fault := by
  cases text? with
  | none => cases h
  | some text => exact exists_of_mapError_eq_error h

theorem exists_stream_of_apply {s : Session σ} {effect : Effect} {error : Error}
    (h : (s.apply effect).result = .error error) : ∃ fault, error = .stream fault := by
  simp only [apply] at h
  split at h
  · cases h
  · exact exists_stream_of_emit h

/-- The steps of one statement. -/
theorem value_execute (s : Session σ) (line : TokenLine) :
    (s.execute line).value =
      match (s.emit (s.echo? line)).result with
      | .error _ => s.emit (s.echo? line)
      | .ok () =>
        match Statement.ofLine line with
        | .error error => ⟨(s.emit (s.echo? line)).session, .error (.parse error)⟩
        | .ok statement =>
          match (statement.perform (s.emit (s.echo? line)).session.tables).value with
          | .error error => ⟨(s.emit (s.echo? line)).session, .error error⟩
          | .ok effect => (s.emit (s.echo? line)).session.apply effect := by
  simp only [execute, Logged.value_bind]
  cases (s.emit (s.echo? line)).result with
  | error error => rfl
  | ok value =>
    cases Statement.ofLine line with
    | error error => rfl
    | ok statement =>
      simp only [Logged.value_bind]
      cases (statement.perform (s.emit (s.echo? line)).session.tables).value <;> rfl

/-- A parse error comes from reading the statement, once it has been echoed. -/
theorem execute_eq_parse_iff {s : Session σ} {line : TokenLine} {error : ParseError} :
    (s.execute line).value.result = .error (.parse error) ↔
      (s.emit (s.echo? line)).result = .ok () ∧ Statement.ofLine line = .error error := by
  rw [value_execute]
  cases hecho : (s.emit (s.echo? line)).result with
  | error fault =>
    obtain ⟨fault, rfl⟩ := exists_stream_of_emit hecho
    simp [hecho]
  | ok value =>
    cases Statement.ofLine line with
    | error found => simp
    | ok statement =>
      simp only [reduceCtorEq, and_false, iff_false]
      split
      · next found hperform =>
        rintro ⟨⟩
        cases Statement.unanswered_of_perform hperform
      · intro h
        obtain ⟨fault, hfault⟩ := exists_stream_of_apply h
        cases hfault

/-! ### Runs -/

theorem value_run_cons (s : Session σ) (line : TokenLine) (rest : List TokenLine) :
    (s.run (line :: rest)).value =
      match (s.execute line).value.result with
      | .error _ => (s.execute line).value
      | .ok () => ((s.execute line).value.session.run rest).value := by
  simp only [run, Logged.value_bind]
  cases (s.execute line).value.result <;> rfl

theorem value_run_append (s : Session σ) (before rest : List TokenLine) :
    (s.run (before ++ rest)).value =
      match (s.run before).value.result with
      | .error _ => (s.run before).value
      | .ok () => ((s.run before).value.session.run rest).value := by
  induction before generalizing s with
  | nil => rfl
  | cons first before ih =>
    rw [List.cons_append, value_run_cons, value_run_cons]
    cases hfirst : (s.execute first).value.result with
    | error error => simp [hfirst]
    | ok value => exact ih _

theorem exists_failed_of_run {s : Session σ} {lines : List TokenLine} {error : Error}
    (h : (s.run lines).value.result = .error error) :
    ∃ before line after reached, lines = before ++ line :: after ∧
      (s.run before).value = ⟨reached, .ok ()⟩ ∧
      (reached.execute line).value.result = .error error := by
  induction lines generalizing s with
  | nil => cases h
  | cons first rest ih =>
    rw [value_run_cons] at h
    cases hfirst : (s.execute first).value.result with
    | error found =>
      rw [hfirst] at h
      exact ⟨[], first, rest, s, rfl, rfl, h⟩
    | ok value =>
      rw [hfirst] at h
      obtain ⟨before, line, after, reached, rfl, hbefore, hline⟩ := ih h
      refine ⟨first :: before, line, after, reached, rfl, ?_, hline⟩
      rw [value_run_cons, hfirst]
      exact hbefore

/-- **A run fails at the first statement that fails.** -/
theorem run_eq_error_iff {s : Session σ} {lines : List TokenLine} {error : Error} :
    (s.run lines).value.result = .error error ↔
      ∃ before line after reached, lines = before ++ line :: after ∧
        (s.run before).value = ⟨reached, .ok ()⟩ ∧
        (reached.execute line).value.result = .error error := by
  refine ⟨exists_failed_of_run, ?_⟩
  rintro ⟨before, line, after, reached, rfl, hbefore, hline⟩
  rw [value_run_append, hbefore]
  simp only [value_run_cons, hline]

theorem exists_stream_of_finish {s : Session σ} {error : Error}
    (h : s.finish.value.result = .error error) : ∃ fault, error = .stream fault := by
  simp only [finish, Logged.value_bind] at h
  split at h
  · exact exists_stream_of_emit h
  · exact exists_of_mapError_eq_error h

end Session

/-! ### Programs -/

namespace Program

variable {σ : Type} [Sink σ]

/-- Lines end with a parse error when one of them does; ending the session gives none. -/
theorem runLines_eq_parse_iff {config : Config} {sink : σ} {lines : List TokenLine}
    {error : ParseError} :
    (runLines config sink lines).value.result = .error (.parse error) ↔
      ((Session.start config sink).run lines).value.result = .error (.parse error) := by
  simp only [runLines, Logged.value_bind]
  cases hrun : ((Session.start config sink).run lines).value.result with
  | error found => simp [hrun]
  | ok value =>
    simp only [reduceCtorEq, iff_false]
    intro h
    obtain ⟨fault, hfault⟩ := Session.exists_stream_of_finish h
    cases hfault

/-- What is read to its end is run, and what is not fails by the fault that stopped the reading. -/
theorem value_runReading {ε : Type} (lift : ε → Error) (config : Config) (sink : σ)
    (reading : Reading ε) :
    (runReading lift config sink reading).value =
      match reading.toExcept with
      | .error fault => ⟨.start config sink, .error (lift fault)⟩
      | .ok lines => (runLines config sink lines).value := by
  simp only [runReading, Logged.value_bind, Reading.logged]
  cases reading.toExcept <;> rfl

/-- A program text ends with a parse error when it is read to its end and its lines end so. -/
theorem run_eq_parse_iff {config : Config} {sink : σ} {text : String} {error : ParseError} :
    (run config sink text).value.result = .error (.parse error) ↔
      ∃ lines, (Source.read text).toExcept = .ok lines ∧
        ((Session.start config sink).run lines).value.result = .error (.parse error) := by
  rw [run, value_runReading]
  cases (Source.read text).toExcept with
  | error fault => simp
  | ok lines => simpa using runLines_eq_parse_iff

end Program

end Entailment
