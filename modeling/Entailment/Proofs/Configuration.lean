import Entailment.Proofs.SinkFaults

/-!
# What the configuration changes

How a session talks has no influence on what its statements do.  With a sink that never fails, a
program ends in the same way and with the same tables whether it echoes its lines and sums itself up
or not; only the echoes and the summary come and go in its output.

* `Session.executed` : the lines that are executed, each with what its statement writes by itself;
* `Course.ofLines_config` : a configuration changes nothing but the texts of a course;
* `Course.encode_texts_ofLines` : these are what the statements write by themselves, with the echoes
  before it;
* `Program.runLines_config` : **the configuration changes the output only**, and the output is the
  echoes and reports of the executed lines with the summary after them.
-/

namespace Entailment

/-! ### Statements by themselves -/

namespace Session

/-- The statement of a line, executed without an echo and with a sink of its own. -/
def executeAlone (tables : Tables) (line : TokenLine) : Outcome Buffer :=
  ((Session.mk {} Buffer.unbounded 0 tables).execute line).value

/-- The lines that are executed, each with the bytes that its statement writes without an echo.  The
first one that fails is the last one. -/
def executed (tables : Tables) : List TokenLine → List (TokenLine × List UInt8)
  | [] => []
  | line :: rest =>
    let outcome := executeAlone tables line
    (line, outcome.session.sink.output) ::
      match outcome.result with
      | .error _ => []
      | .ok () => executed outcome.session.tables rest

/-- By itself a statement has its effect, writes its report and nothing else. -/
theorem exists_executeAlone (tables : Tables) (line : TokenLine) :
    let course := Course.ofEffect 0 tables (Statement.effectOf tables line)
    ∃ sink : Buffer, sink.output = course.texts.flatMap Source.encode ∧
      executeAlone tables line = ⟨course.reached {} sink, course.result⟩ := by
  intro course
  obtain ⟨sink, -, hwrite, -, houtput, -⟩ := Buffer.reliable_unbounded course.texts
  have hfollows := execute_follows ⟨{}, Buffer.unbounded, 0, tables⟩ line
  exact ⟨sink, houtput, hfollows.taken sink hwrite⟩

variable {tables : Tables} {line : TokenLine}

/-- A statement that fails is the last one executed, and writes nothing. -/
theorem executed_cons_of_error {error : Error} (h : Statement.effectOf tables line = .error error)
    (rest : List TokenLine) : executed tables (line :: rest) = [(line, [])] := by
  obtain ⟨sink, houtput, halone⟩ := exists_executeAlone tables line
  rw [h] at houtput halone
  simp only [executed, halone, Course.ofEffect, Course.reached, houtput]
  rfl

/-- A statement that has an effect writes its report, and the lines after it are executed. -/
theorem executed_cons_of_ok {effect : Effect} (h : Statement.effectOf tables line = .ok effect)
    (rest : List TokenLine) :
    executed tables (line :: rest) =
      (line, effect.report?.toList.flatMap Source.encode) :: executed effect.tables rest := by
  obtain ⟨sink, houtput, halone⟩ := exists_executeAlone tables line
  rw [h] at houtput halone
  simp only [executed, halone, Course.ofEffect, Course.reached, houtput]

end Session

/-! ### Courses under a configuration -/

namespace Course

variable {tables : Tables} {line : TokenLine}

theorem ofLines_cons_of_error {error : Error} (h : Statement.effectOf tables line = .error error)
    (config : Config) (statements : ℕ) (rest : List TokenLine) :
    ofLines config statements tables (line :: rest) =
      ⟨config.echoes line, statements, tables, .error error⟩ := by
  simp only [ofLines, ofLine, h, ofEffect, andThen, List.append_nil]

theorem ofLines_cons_of_ok {effect : Effect} (h : Statement.effectOf tables line = .ok effect)
    (config : Config) (statements : ℕ) (rest : List TokenLine) :
    let others := ofLines config (statements + 1) effect.tables rest
    ofLines config statements tables (line :: rest) =
      { others with texts := config.echoes line ++ effect.report?.toList ++ others.texts } := by
  simp only [ofLines, ofLine, h, ofEffect, andThen]

/-- A configuration changes nothing but the texts of a course. -/
theorem ofLines_config (config other : Config) (statements : ℕ) (tables : Tables)
    (lines : List TokenLine) :
    ofLines config statements tables lines =
      { ofLines other statements tables lines with
        texts := (ofLines config statements tables lines).texts } := by
  induction lines generalizing statements tables with
  | nil => rfl
  | cons line rest ih =>
    cases heffect : Statement.effectOf tables line with
    | error error =>
      rw [ofLines_cons_of_error heffect, ofLines_cons_of_error heffect]
    | ok effect =>
      rw [ofLines_cons_of_ok heffect, ofLines_cons_of_ok heffect]
      dsimp only
      rw [ih (statements + 1) effect.tables]

theorem encode_echoes (config : Config) (line : TokenLine) :
    (config.echoes line).flatMap Source.encode =
      if config.echo then Source.encode ("> " ++ line.render ++ "\n") else [] := by
  unfold Config.echoes
  split_ifs <;> simp

/-- The bytes of a course: those of the executed statements, with the echoes before them. -/
theorem encode_texts_ofLines (config : Config) (statements : ℕ) (tables : Tables)
    (lines : List TokenLine) :
    (ofLines config statements tables lines).texts.flatMap Source.encode =
      (Session.executed tables lines).flatMap fun entry =>
        (config.echoes entry.1).flatMap Source.encode ++ entry.2 := by
  induction lines generalizing statements tables with
  | nil => rfl
  | cons line rest ih =>
    cases heffect : Statement.effectOf tables line with
    | error error =>
      rw [ofLines_cons_of_error heffect, Session.executed_cons_of_error heffect]
      simp
    | ok effect =>
      rw [ofLines_cons_of_ok heffect, Session.executed_cons_of_ok heffect]
      simp [ih]

/-- A statement that is executed counts, or it is the one that fails. -/
theorem length_executed (config : Config) (statements : ℕ) (tables : Tables)
    (lines : List TokenLine) :
    let course := ofLines config statements tables lines
    statements + (Session.executed tables lines).length =
      course.statements + if course.result = .ok () then 0 else 1 := by
  induction lines generalizing statements tables with
  | nil => rfl
  | cons line rest ih =>
    cases heffect : Statement.effectOf tables line with
    | error error =>
      rw [ofLines_cons_of_error heffect, Session.executed_cons_of_error heffect]
      simp
    | ok effect =>
      rw [ofLines_cons_of_ok heffect, Session.executed_cons_of_ok heffect]
      have hrest := ih (statements + 1) effect.tables
      dsimp only at hrest ⊢
      rw [← hrest, List.length_cons]
      omega

end Course

/-- The executed lines are the first ones. -/
theorem Session.executed_prefix (tables : Tables) (lines : List TokenLine) :
    (executed tables lines).map Prod.fst <+: lines := by
  induction lines generalizing tables with
  | nil => exact List.prefix_rfl
  | cons line rest ih =>
    cases heffect : Statement.effectOf tables line with
    | error error =>
      rw [executed_cons_of_error heffect]
      exact (List.prefix_cons_inj line).2 (List.nil_prefix)
    | ok effect =>
      rw [executed_cons_of_ok heffect]
      exact (List.prefix_cons_inj line).2 (ih effect.tables)

/-- A program that comes to its end is summed up after its lines, if it is to be. -/
theorem Course.ofProgram_eq (config : Config) (lines : List TokenLine) :
    let course := ofLines config 0 .empty lines
    ofProgram config lines =
      { course with texts := course.texts ++
          if config.summary ∧ course.result = .ok () then
            [(course.reached config ()).summary.render ++ "\n"]
          else [] } := by
  simp only [ofProgram]
  generalize ofLines config 0 .empty lines = course
  obtain ⟨texts, statements, tables, error | ⟨⟨⟩⟩⟩ := course
  · simp [andThen]
  · cases hsummary : config.summary <;> simp [andThen, Session.closing?, reached, hsummary]

/-! ### Programs -/

namespace Program

variable {σ : Type} [Sink σ] {output : σ → List UInt8} {sink : σ}

/-- With a sink that never fails, lines come to the end of their course. -/
theorem exists_runLines_of_reliable (h : Sink.Reliable output sink) (config : Config)
    (lines : List TokenLine) :
    let course := Course.ofLines config 0 .empty lines
    ∃ last, (runLines config sink lines).value = ⟨course.reached config last, course.result⟩ ∧
      output last = (Course.ofProgram config lines).texts.flatMap Source.encode := by
  intro course
  obtain ⟨after, last, hwrite, hended, hlast⟩ := exists_ended_of_takes (h _) config
  refine ⟨last, ?_, hlast⟩
  rw [runLines_of_taken hwrite, hended, Course.ofProgram_eq]
  rfl

/-- **The configuration changes the output only.**  Let lines be run with a sink that never fails.
Under any two configurations the program ends in the same way, with the same tables and the same
count of statements, so that it fails at the same statement if it fails.  The executed lines are the
first ones, as many as count and the one that fails.  The output is what their statements write by
themselves, with the echo of the line before it if there are echoes; and after it stands the summary
if there is to be one and no statement has failed. -/
theorem runLines_config (h : Sink.Reliable output sink) (lines : List TokenLine)
    (config other : Config) :
    let outcome := (runLines config sink lines).value
    let different := (runLines other sink lines).value
    let executed := Session.executed .empty lines
    (outcome.result = different.result ∧ outcome.session.tables = different.session.tables ∧
      outcome.session.statements = different.session.statements) ∧
    executed.map Prod.fst = lines.take (outcome.session.statements +
      if outcome.result = .ok () then 0 else 1) ∧
    output outcome.session.sink =
      (executed.flatMap fun (line, bytes) =>
        (if config.echo then Source.encode ("> " ++ line.render ++ "\n") else []) ++ bytes) ++
      if config.summary ∧ outcome.result = .ok () then
        Source.encode (outcome.session.summary.render ++ "\n")
      else [] := by
  intro outcome different executed
  obtain ⟨last, houtcome, hlast⟩ := exists_runLines_of_reliable h config lines
  obtain ⟨last', hdifferent, -⟩ := exists_runLines_of_reliable h other lines
  simp only [outcome, different, houtcome, hdifferent, Course.reached]
  refine ⟨?_, ?_, ?_⟩
  · rw [Course.ofLines_config config other]
    exact ⟨rfl, rfl, rfl⟩
  · have hlength := Course.length_executed config 0 .empty lines
    rw [Nat.zero_add] at hlength
    rw [← hlength, List.prefix_iff_eq_take.1 (Session.executed_prefix .empty lines),
      List.length_map]
  · rw [hlast, Course.ofProgram_eq, List.flatMap_append, Course.encode_texts_ofLines]
    simp only [Course.encode_echoes]
    split_ifs <;> simp [Course.reached, Session.summary, executed]

/-- Of three lines the second one fails, with or without echoes.  With echoes two of them stand in
the output, that of the line that fails among them, and there is no summary.  With a definition in
place of the line that fails the program comes to its end, and is summed up after its lines. -/
theorem echoes_up_to_failed_line :
    let first : TokenLine := ⟨1, "print \"a\"", [.print, .text "a"]⟩
    let second : TokenLine := ⟨2, "assert b", [.assert, .identifier "b"]⟩
    let lines := [first, second, ⟨3, "print", [.print]⟩]
    let talking := (runLines ⟨true, true⟩ Buffer.unbounded lines).value
    let quiet := (runLines {} Buffer.unbounded lines).value
    let definition : TokenLine := ⟨2, "P := true", [.atom "P", .assign, .verum]⟩
    let summed := (runLines ⟨true, true⟩ Buffer.unbounded [first, definition]).value
    Sink.Reliable Buffer.output Buffer.unbounded ∧
      Session.executed .empty lines = [(first, Source.encode "a\n"), (second, [])] ∧
      quiet.result = .error (.unknownArgument "b") ∧ talking.result = quiet.result ∧
      talking.session.sink.output = Source.encode "> print a\na\n> assert b\n" ∧
      summed.result = .ok () ∧
      summed.session.sink.output = Source.encode ("> print a\na\n> P := true\n" ++
        "statements:  2\nvalues:      1\narguments:   0\n" ++
        "assertions:  0 (0 true, 0 false)\nvalidations: 0 (0 true, 0 false)\n" ++
        "valuations:  0 (0 true, 0 false)\n") := by
  intro first second lines talking quiet definition summed
  have hreliable := Buffer.reliable_unbounded
  have hexecuted :
      Session.executed .empty lines = [(first, Source.encode "a\n"), (second, [])] := by
    decide +kernel
  have hquiet : quiet.result = .error (.unknownArgument "b") := by decide +kernel
  have hsummed : summed.result = .ok () := by decide +kernel
  obtain ⟨⟨hresult, -, -⟩, -, houtput⟩ := runLines_config hreliable lines ⟨true, true⟩ {}
  obtain ⟨-, -, hclosed⟩ := runLines_config hreliable [first, definition] ⟨true, true⟩ {}
  refine ⟨hreliable, hexecuted, hquiet, hresult, ?_, hsummed, ?_⟩
  · rw [houtput, hexecuted, hresult, hquiet]
    decide +kernel
  · rw [hclosed, hsummed]
    decide +kernel

end Program

end Entailment
