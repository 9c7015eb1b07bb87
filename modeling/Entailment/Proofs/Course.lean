import Entailment.Proofs.Effects

/-!
# The course of a run

What a run writes and how it ends can be told without a sink, as long as everything that is written
is taken: this is the course of the run.  The sink has no part in it but to decide how far the run
gets.

* `Sink.writeAll` : texts are written one after the other, up to the first that is not taken;
* `Course.Followed.andThen` : work that goes on after other work follows the two courses in turn;
* `Session.execute_follows` : a statement writes the texts of its course;
* `Session.run_follows` : **a run writes the texts of its course.**  It ends as the course does if
  they are all taken, and with the fault of the sink if one is not;
* `Program.runLines_of_taken`, `Program.runLines_of_fault` : the same of lines that are run in a
  fresh session, which is ended after them.
-/

namespace Entailment

variable {σ : Type} [Sink σ]

/-! ### Texts written one after the other -/

namespace Sink

/-- Writes texts one after the other, up to the first that is not taken. -/
def writeAll (sink : σ) : List String → σ × Except StreamError Unit
  | [] => (sink, .ok ())
  | text :: rest =>
    match write sink text with
    | (after, .ok ()) => writeAll after rest
    | (after, .error fault) => (after, .error fault)

theorem writeAll_singleton (sink : σ) (text : String) :
    writeAll sink [text] = write sink text := by
  rw [writeAll]
  rcases write sink text with ⟨after, fault | ⟨⟨⟩⟩⟩ <;> rfl

/-- After texts that are taken the others are written. -/
theorem writeAll_append_of_taken {sink after : σ} {texts : List String}
    (h : writeAll sink texts = (after, .ok ())) (more : List String) :
    writeAll sink (texts ++ more) = writeAll after more := by
  induction texts generalizing sink with
  | nil =>
    cases h
    rfl
  | cons text rest ih =>
    rw [writeAll] at h
    rw [List.cons_append, writeAll]
    rcases hwrite : write sink text with ⟨middle, fault | ⟨⟨⟩⟩⟩
    · rw [hwrite] at h
      cases h
    · rw [hwrite] at h
      exact ih h

/-- After a text that is not taken nothing more is written. -/
theorem writeAll_append_of_fault {sink after : σ} {texts : List String} {fault : StreamError}
    (h : writeAll sink texts = (after, .error fault)) (more : List String) :
    writeAll sink (texts ++ more) = (after, .error fault) := by
  induction texts generalizing sink with
  | nil => cases h
  | cons text rest ih =>
    rw [writeAll] at h
    rw [List.cons_append, writeAll]
    rcases hwrite : write sink text with ⟨middle, found | ⟨⟨⟩⟩⟩
    · rw [hwrite] at h
      exact h
    · rw [hwrite] at h
      exact ih h

end Sink

/-! ### Courses -/

/-- What work comes to when everything is taken that it writes. -/
structure Course where
  /-- The texts it writes, in order. -/
  texts : List String
  /-- The number of statements that have run without an error. -/
  statements : ℕ
  /-- What the statements have left behind. -/
  tables : Tables
  /-- Success, or the error that stopped the work. -/
  result : Except Error Unit

/-- The effect of the statement of a line, if it can be read and performed. -/
def Statement.effectOf (tables : Tables) (line : TokenLine) : Except Error Effect :=
  match ofLine line with
  | .error error => .error (.parse error)
  | .ok statement => (statement.perform tables).value

/-- The texts that echo a line: one, or none. -/
def Config.echoes (config : Config) (line : TokenLine) : List String :=
  if config.echo then ["> " ++ line.render ++ "\n"] else []

/-- The text that sums a session up at its end, if it is to be summed up. -/
def Session.closing? {τ : Type} (s : Session τ) : Option String :=
  if s.config.summary then some (s.summary.render ++ "\n") else none

/-- Flushes the sink of a session. -/
def Session.flush (s : Session σ) : Outcome σ :=
  ⟨{ s with sink := (Sink.flush s.sink).1 }, (Sink.flush s.sink).2.mapError .stream⟩

namespace Course

/-- The course that goes on with another one, unless it was stopped by an error. -/
def andThen (first next : Course) : Course :=
  match first.result with
  | .error _ => first
  | .ok () => { next with texts := first.texts ++ next.texts }

/-- The course of a statement after its line has been echoed: it has its effect and its report, or
does nothing and fails. -/
def ofEffect (statements : ℕ) (tables : Tables) : Except Error Effect → Course
  | .error error => ⟨[], statements, tables, .error error⟩
  | .ok effect => ⟨effect.report?.toList, statements + 1, effect.tables, .ok ()⟩

/-- The course of the statement of a line. -/
def ofLine (config : Config) (statements : ℕ) (tables : Tables) (line : TokenLine) : Course :=
  andThen ⟨config.echoes line, statements, tables, .ok ()⟩
    (ofEffect statements tables (Statement.effectOf tables line))

/-- The course of the statements of lines up to the first error. -/
def ofLines (config : Config) (statements : ℕ) (tables : Tables) : List TokenLine → Course
  | [] => ⟨[], statements, tables, .ok ()⟩
  | line :: rest =>
    let first := ofLine config statements tables line
    first.andThen (ofLines config first.statements first.tables rest)

/-- The session at the end of the course. -/
def reached {τ : Type} (course : Course) (config : Config) (sink : τ) : Session τ :=
  ⟨config, sink, course.statements, course.tables⟩

/-- The course of lines that are run in a fresh session, which is summed up after them. -/
def ofProgram (config : Config) (lines : List TokenLine) : Course :=
  let course := ofLines config 0 .empty lines
  course.andThen
    ⟨(course.reached config ()).closing?.toList, course.statements, course.tables, .ok ()⟩

/-- The course of a program text: nothing is written if it cannot be read. -/
def ofText (config : Config) (text : String) : Course :=
  match (Source.read text).toExcept with
  | .error fault => ⟨[], 0, .empty, .error (.lexical fault)⟩
  | .ok lines => ofProgram config lines

/-- The end of a program whose texts were all taken: the sink is flushed, unless an error has
stopped the program. -/
def ended (course : Course) (config : Config) (sink : σ) : Outcome σ :=
  match course.result with
  | .error error => ⟨course.reached config sink, .error error⟩
  | .ok () => (course.reached config sink).flush

/-- The work of a session has followed the course: it has come to its end if all the texts were
taken, and stopped at the first that was not. -/
structure Followed (course : Course) (s : Session σ) (outcome : Outcome σ) : Prop where
  /-- The work when all the texts were taken. -/
  taken : ∀ after, Sink.writeAll s.sink course.texts = (after, .ok ()) →
    outcome = ⟨course.reached s.config after, course.result⟩
  /-- The work when one of the texts was not taken. -/
  failed : ∀ after fault, Sink.writeAll s.sink course.texts = (after, .error fault) →
    outcome.session.sink = after ∧ outcome.result = .error (.stream fault)

/-- Work that does not write follows its course. -/
theorem followed_silent (s : Session σ) (statements : ℕ) (tables : Tables)
    (result : Except Error Unit) :
    (Course.mk [] statements tables result).Followed s
      ⟨{ s with statements, tables }, result⟩ := by
  refine ⟨fun after h => ?_, fun after fault h => ?_⟩
  · cases h
    rfl
  · cases h

/-- Work that goes on where other work has succeeded follows the two courses in turn. -/
theorem Followed.andThen {first next : Course} {s : Session σ} {outcome : Outcome σ}
    (hfirst : first.Followed s outcome) (work : Session σ → Outcome σ)
    (hnext : ∀ after, next.Followed (first.reached s.config after)
      (work (first.reached s.config after))) :
    (first.andThen next).Followed s
      (match outcome.result with
        | .error _ => outcome
        | .ok () => work outcome.session) := by
  rcases hwrite : Sink.writeAll s.sink first.texts with ⟨middle, fault | ⟨⟨⟩⟩⟩
  -- a text of the first work was not taken: nothing is added to it, whatever comes next
  · obtain ⟨hsink, hresult⟩ := hfirst.failed middle fault hwrite
    have hall : Sink.writeAll s.sink (first.andThen next).texts = (middle, .error fault) := by
      unfold Course.andThen
      split
      · exact hwrite
      · exact Sink.writeAll_append_of_fault hwrite _
    rw [hresult]
    refine ⟨fun after h => ?_, fun after found h => ?_⟩
    · cases hall.symm.trans h
    · cases hall.symm.trans h
      exact ⟨hsink, hresult⟩
  · obtain rfl := hfirst.taken middle hwrite
    unfold Course.andThen
    split
    · next error herror =>
      simp only [herror]
      rwa [herror] at hfirst
    · next hok =>
      simp only [hok]
      refine ⟨fun after h => ?_, fun after fault h => ?_⟩
      · rw [Sink.writeAll_append_of_taken hwrite] at h
        exact (hnext middle).taken after h
      · rw [Sink.writeAll_append_of_taken hwrite] at h
        exact (hnext middle).failed after fault h

end Course

/-! ### Sessions follow their courses -/

namespace Session

/-- A text is written if there is one. -/
theorem emit_follows (s : Session σ) (text? : Option String) :
    (Course.mk text?.toList s.statements s.tables (.ok ())).Followed s (s.emit text?) := by
  cases text? with
  | none => exact Course.followed_silent s s.statements s.tables (.ok ())
  | some text =>
    refine ⟨fun after h => ?_, fun after fault h => ?_⟩
    · rw [emit_some ((Sink.writeAll_singleton s.sink text).symm.trans h)]
      rfl
    · rw [emit_some ((Sink.writeAll_singleton s.sink text).symm.trans h)]
      exact ⟨rfl, rfl⟩

/-- A statement that has an effect writes its report, if it has one. -/
theorem apply_follows (s : Session σ) (effect : Effect) :
    (Course.ofEffect s.statements s.tables (.ok effect)).Followed s (s.apply effect) := by
  obtain ⟨tables, _ | report⟩ := effect
  · exact Course.followed_silent s (s.statements + 1) tables (.ok ())
  · refine ⟨fun after h => ?_, fun after fault h => ?_⟩
    · exact apply_of_written ((Sink.writeAll_singleton s.sink report).symm.trans h)
    · rw [apply_of_unwritten ((Sink.writeAll_singleton s.sink report).symm.trans h)]
      exact ⟨rfl, rfl⟩

omit [Sink σ] in
theorem toList_echo? (s : Session σ) (line : TokenLine) :
    (s.echo? line).toList = s.config.echoes line := by
  unfold echo? Config.echoes
  split_ifs <;> rfl

/-- Runs the statement of a line that has been echoed. -/
def perform (s : Session σ) (line : TokenLine) : Outcome σ :=
  match Statement.effectOf s.tables line with
  | .error error => ⟨s, .error error⟩
  | .ok effect => s.apply effect

theorem perform_follows (s : Session σ) (line : TokenLine) :
    (Course.ofEffect s.statements s.tables (Statement.effectOf s.tables line)).Followed s
      (s.perform line) := by
  unfold perform
  cases Statement.effectOf s.tables line with
  | error error => exact Course.followed_silent s s.statements s.tables (.error error)
  | ok effect => exact s.apply_follows effect

/-- A line is echoed, and then its statement is run. -/
theorem value_execute_perform (s : Session σ) (line : TokenLine) :
    (s.execute line).value =
      match (s.emit (s.echo? line)).result with
      | .error _ => s.emit (s.echo? line)
      | .ok () => (s.emit (s.echo? line)).session.perform line := by
  rw [value_execute, perform, Statement.effectOf]
  cases Statement.ofLine line <;> rfl

/-- A statement writes the texts of its course. -/
theorem execute_follows (s : Session σ) (line : TokenLine) :
    (Course.ofLine s.config s.statements s.tables line).Followed s (s.execute line).value := by
  have hecho := s.emit_follows (s.echo? line)
  rw [toList_echo?] at hecho
  rw [value_execute_perform]
  exact hecho.andThen (fun echoed => echoed.perform line) fun after =>
    perform_follows ⟨s.config, after, s.statements, s.tables⟩ line

/-- **A run writes the texts of its course.** -/
theorem run_follows (s : Session σ) (lines : List TokenLine) :
    (Course.ofLines s.config s.statements s.tables lines).Followed s (s.run lines).value := by
  induction lines generalizing s with
  | nil => exact Course.followed_silent s s.statements s.tables (.ok ())
  | cons line rest ih =>
    rw [value_run_cons]
    exact (s.execute_follows line).andThen (fun reached => (reached.run rest).value) fun after =>
      ih (Course.reached _ s.config after)

/-! ### The end of a session -/

/-- Runs lines and sums the session up after them. -/
def complete (s : Session σ) (lines : List TokenLine) : Outcome σ :=
  match (s.run lines).value.result with
  | .error _ => (s.run lines).value
  | .ok () => (s.run lines).value.session.emit (s.run lines).value.session.closing?

theorem value_finish (s : Session σ) :
    s.finish.value =
      match (s.emit s.closing?).result with
      | .error _ => s.emit s.closing?
      | .ok () => (s.emit s.closing?).session.flush := by
  unfold closing?
  simp only [finish, Logged.value_bind]
  generalize s.emit _ = summed
  obtain ⟨ended, error | ⟨⟨⟩⟩⟩ := summed <;> rfl

/-- A run with its summary writes the texts of its course. -/
theorem complete_follows (config : Config) (sink : σ) (lines : List TokenLine) :
    (Course.ofProgram config lines).Followed (start config sink)
      ((start config sink).complete lines) := by
  have hrun := (start config sink).run_follows lines
  exact hrun.andThen (fun ended => ended.emit ended.closing?) fun after =>
    emit_follows ((Course.ofLines config 0 .empty lines).reached config after) _

end Session

namespace Program

/-- Lines are run in a fresh session, which is summed up, and then its sink is flushed. -/
theorem value_runLines (config : Config) (sink : σ) (lines : List TokenLine) :
    (runLines config sink lines).value =
      match ((Session.start config sink).complete lines).result with
      | .error _ => (Session.start config sink).complete lines
      | .ok () => ((Session.start config sink).complete lines).session.flush := by
  simp only [runLines, Logged.value_bind, Session.complete]
  cases hrun : ((Session.start config sink).run lines).value.result with
  | error error => simp [hrun]
  | ok value => exact Session.value_finish _

/-- If all its texts are taken, a program comes to the end of its course. -/
theorem runLines_of_taken {config : Config} {sink after : σ} {lines : List TokenLine}
    (h : Sink.writeAll sink (Course.ofProgram config lines).texts = (after, .ok ())) :
    (runLines config sink lines).value =
      (Course.ofProgram config lines).ended config after := by
  rw [value_runLines, (Session.complete_follows config sink lines).taken after h, Course.ended]
  cases (Course.ofProgram config lines).result <;> rfl

/-- If one of its texts is not taken, a program stops there with the fault of the sink. -/
theorem runLines_of_fault {config : Config} {sink after : σ} {lines : List TokenLine}
    {fault : StreamError}
    (h : Sink.writeAll sink (Course.ofProgram config lines).texts = (after, .error fault)) :
    (runLines config sink lines).value.session.sink = after ∧
      (runLines config sink lines).value.result = .error (.stream fault) := by
  obtain ⟨hsink, hresult⟩ := (Session.complete_follows config sink lines).failed after fault h
  rw [value_runLines, hresult]
  exact ⟨hsink, hresult⟩

/-- If all its texts are taken, a program text comes to the end of its course. -/
theorem run_of_taken {config : Config} {sink after : σ} {text : String}
    (h : Sink.writeAll sink (Course.ofText config text).texts = (after, .ok ())) :
    (run config sink text).value = (Course.ofText config text).ended config after := by
  rw [run, value_runReading]
  unfold Course.ofText at h ⊢
  cases hread : (Source.read text).toExcept with
  | error fault =>
    rw [hread] at h
    cases h
    rfl
  | ok lines =>
    rw [hread] at h
    exact runLines_of_taken h

/-- If one of its texts is not taken, a program text stops there with the fault of the sink. -/
theorem run_of_fault {config : Config} {sink after : σ} {text : String} {fault : StreamError}
    (h : Sink.writeAll sink (Course.ofText config text).texts = (after, .error fault)) :
    (run config sink text).value.session.sink = after ∧
      (run config sink text).value.result = .error (.stream fault) := by
  rw [run, value_runReading]
  unfold Course.ofText at h
  cases hread : (Source.read text).toExcept with
  | error fault =>
    rw [hread] at h
    cases h
  | ok lines =>
    rw [hread] at h
    exact runLines_of_fault h

end Program

end Entailment
