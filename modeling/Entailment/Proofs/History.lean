import Entailment.Proofs.Effects
import Entailment.Proofs.PartialValuation
import Mathlib.Data.List.Induction

/-!
# What the tables hold after a run

After a run without an error every table holds what the last statement about a name has entered
there: the value of the last assignment, the argument of the last definition, and the verdict of the
last question.  A verdict is about the definition in force when the question was asked, and only a
verdict on truth depends on the values in force then.  All this is said of the lines of the program,
without a session (`History.Recorded`):

* `History.last_append_singleton_iff` : the last line of a kind, when one more line is added;
* `History.Recorded.step` : what one statement adds to the history;
* `History.Recorded.agree` : the lines determine what the tables hold;
* `Session.run_eq_ok_recorded` : **after a run the tables are those that its lines determine.**
-/

namespace Entailment

/-! ### Valuations that agree -/

theorem Formula.valuate_congr {v w : Valuation} (h : ∀ name, v.get? name = w.get? name)
    (f : Formula) : f.valuate v = f.valuate w :=
  valuate_congr_atoms fun name _ => h name

theorem Argument.premisesHold_congr {v w : Valuation} (h : ∀ name, v.get? name = w.get? name)
    (premises : List Formula) : premisesHold v premises = premisesHold w premises := by
  induction premises with
  | nil => rfl
  | cons f rest ih => rw [premisesHold, premisesHold, Formula.valuate_congr h, ih]

/-- The verdict on truth depends on nothing but the values of names. -/
theorem Argument.valuate_congr {v w : Valuation} (h : ∀ name, v.get? name = w.get? name)
    {a : Argument} : a.valuate v = a.valuate w := by
  rw [valuate, valuate, premisesHold_congr h]
  simp only [Formula.valuate_congr h]

/-! ### What a line enters -/

namespace TokenLine

/-- The line gives a value to the name. -/
def Assigns (name : String) (line : TokenLine) : Prop :=
  ∃ rest, line.tokens = .atom name :: .assign :: rest

/-- The line defines the argument of this name. -/
def Defines (name : String) (line : TokenLine) : Prop :=
  ∃ body, line.tokens = .argument :: .identifier name :: .assign :: body

/-- The line is a command about the argument of this name. -/
def Asks (command : Token) (name : String) (line : TokenLine) : Prop :=
  ∃ rest, line.tokens = command :: .identifier name :: rest

/-- The line gives the name this value: true when the token after the assignment sign is, and false
otherwise. -/
def EntersValue (name : String) (line : TokenLine) (value : Bool) : Prop :=
  ∃ literal rest, line.tokens = .atom name :: .assign :: literal :: rest ∧
    value = (literal == .verum)

/-- The line defines this argument: the rest of the line is read as its body. -/
def EntersArgument (name : String) (line : TokenLine) (a : Argument) : Prop :=
  ∃ body, line.tokens = .argument :: .identifier name :: .assign :: body ∧
    Argument.ofTokens body = .ok a

end TokenLine

/-- The tables hold the same under every name. -/
structure Tables.Agree (t u : Tables) : Prop where
  /-- They give the same values to the same names. -/
  values : ∀ name, t.values.get? name = u.values.get? name
  /-- They define the same arguments. -/
  arguments : ∀ name, t.arguments.get? name = u.arguments.get? name
  /-- They hold the same verdicts on tautologies. -/
  assertions : ∀ name, t.assertions.get? name = u.assertions.get? name
  /-- They hold the same verdicts on validity. -/
  validations : ∀ name, t.validations.get? name = u.validations.get? name
  /-- They hold the same verdicts on truth. -/
  valuations : ∀ name, t.valuations.get? name = u.valuations.get? name

namespace History

open TokenLine

variable {α : Type} {p : TokenLine → Prop} {entered : List TokenLine → TokenLine → α → Prop}
  {lines before : List TokenLine} {line last : TokenLine}

/-! ### The last line of a kind -/

/-- Of the lines `last` is the last one that `p` holds of, and `before` stand before it. -/
def Last (p : TokenLine → Prop) (lines before : List TokenLine) (last : TokenLine) : Prop :=
  p last ∧ ∃ after, lines = before ++ last :: after ∧ ∀ later ∈ after, ¬ p later

/-- One more line is the last of its kind, or leaves the last of another kind where it was. -/
theorem last_append_singleton_iff :
    Last p (lines ++ [line]) before last ↔
      (p line ∧ before = lines ∧ last = line) ∨ (¬ p line ∧ Last p lines before last) := by
  constructor
  · rintro ⟨hp, after, heq, hafter⟩
    rcases List.eq_nil_or_concat after with rfl | ⟨after, final, rfl⟩
    · obtain ⟨rfl, ⟨⟩⟩ := List.append_inj' heq rfl
      exact .inl ⟨hp, rfl, rfl⟩
    · rw [List.concat_eq_append] at heq hafter
      rw [← List.cons_append, ← List.append_assoc] at heq
      obtain ⟨rfl, ⟨⟩⟩ := List.append_inj' heq rfl
      refine .inr ⟨hafter line (by simp), hp, after, rfl, fun later hlater => ?_⟩
      exact hafter later (by simp [hlater])
  · rintro (⟨hp, rfl, rfl⟩ | ⟨hline, hp, after, rfl, hafter⟩)
    · exact ⟨hp, [], rfl, by simp⟩
    · refine ⟨hp, after ++ [line], by simp, fun later hlater => ?_⟩
      rcases List.mem_append.1 hlater with hlater | hlater
      · exact hafter later hlater
      · rwa [List.mem_singleton.1 hlater]

theorem exists_last (h : ∃ line ∈ lines, p line) : ∃ before last, Last p lines before last := by
  induction lines using List.reverseRecOn with
  | nil => simp at h
  | append_singleton lines line ih =>
    by_cases hp : p line
    · exact ⟨lines, line, last_append_singleton_iff.2 (.inl ⟨hp, rfl, rfl⟩)⟩
    · obtain ⟨before, last, hlast⟩ := ih (by simpa [or_and_right, exists_or, hp] using h)
      exact ⟨before, last, last_append_singleton_iff.2 (.inr ⟨hp, hlast⟩)⟩

/-- There is a value when `p` holds of one of the lines, and it is the one that the last such line
has entered. -/
structure Holds (p : TokenLine → Prop) (entered : List TokenLine → TokenLine → α → Prop)
    (lines : List TokenLine) (value? : Option α) : Prop where
  /-- There is a value when there is such a line. -/
  isSome_iff : value?.isSome ↔ ∃ line ∈ lines, p line
  /-- The last such line has entered it, after the lines before. -/
  entered_last : ∀ before last, Last p lines before last →
    ∃ value, value? = some value ∧ entered before last value

theorem holds_nil : Holds p entered [] none :=
  ⟨by simp, by rintro before last ⟨-, after, heq, -⟩; simp at heq⟩

theorem Holds.keep {value? : Option α} (h : Holds p entered lines value?) (hp : ¬ p line) :
    Holds p entered (lines ++ [line]) value? := by
  refine ⟨by simp [h.isSome_iff, or_and_right, exists_or, hp], fun before last hlast => ?_⟩
  rcases last_append_singleton_iff.1 hlast with ⟨hline, -⟩ | ⟨-, hlast⟩
  · exact absurd hline hp
  · exact h.entered_last before last hlast

theorem holds_enter {value : α} (hp : p line) (he : entered lines line value) :
    Holds p entered (lines ++ [line]) (some value) := by
  refine ⟨by simp [hp], fun before last hlast => ?_⟩
  rcases last_append_singleton_iff.1 hlast with ⟨-, rfl, rfl⟩ | ⟨hline, -⟩
  · exact ⟨value, rfl, he⟩
  · exact absurd hp hline

/-- The value is determined if what a line enters is. -/
theorem Holds.eq {value? other? : Option α} (h : Holds p entered lines value?)
    (h' : Holds p entered lines other?)
    (hentered : ∀ before last value other,
      entered before last value → entered before last other → value = other) :
    value? = other? := by
  by_cases hex : ∃ line ∈ lines, p line
  -- both are what the same last line has entered
  · obtain ⟨before, last, hlast⟩ := exists_last hex
    obtain ⟨value, rfl, hvalue⟩ := h.entered_last before last hlast
    obtain ⟨other, rfl, hother⟩ := h'.entered_last before last hlast
    rw [hentered before last value other hvalue hother]
  · have hvalue : value? = none := by rwa [← Option.not_isSome_iff_eq_none, h.isSome_iff]
    have hother : other? = none := by rwa [← Option.not_isSome_iff_eq_none, h'.isSome_iff]
    rw [hvalue, hother]

/-! ### Tables and lines -/

/-- The value of the name after the lines. -/
def Value (name : String) (lines : List TokenLine) (value? : Option Bool) : Prop :=
  Holds (Assigns name) (fun _ => EntersValue name) lines value?

/-- The argument of the name after the lines. -/
def Definition (name : String) (lines : List TokenLine) (a? : Option Argument) : Prop :=
  Holds (Defines name) (fun _ => EntersArgument name) lines a?

/-- The verdict that `judges` gives on the argument of the name as it is defined by the lines before
the question. -/
def Judged (judges : List TokenLine → Argument → Bool → Prop) (name : String)
    (before : List TokenLine) (verdict : Bool) : Prop :=
  ∃ a, Definition name before (some a) ∧ judges before a verdict

/-- The verdict on a tautology, whatever values the lines before give to names. -/
def JudgesTautology (_before : List TokenLine) (a : Argument) (verdict : Bool) : Prop :=
  a.isTautology = .ok verdict

/-- The verdict on validity, whatever values the lines before give to names. -/
def JudgesValidity (_before : List TokenLine) (a : Argument) (verdict : Bool) : Prop :=
  a.isValid = .ok verdict

/-- The verdict on truth under the values that the lines before give to names. -/
def JudgesTruth (before : List TokenLine) (a : Argument) (verdict : Bool) : Prop :=
  ∃ v : Valuation, (∀ name, Value name before (v.get? name)) ∧ a.valuate v = .ok verdict

/-- The verdict of the last of the lines that asks for it with this command. -/
def Verdict (command : Token) (judges : List TokenLine → Argument → Bool → Prop) (name : String)
    (lines : List TokenLine) (verdict? : Option Bool) : Prop :=
  Holds (Asks command name) (fun before _ => Judged judges name before) lines verdict?

/-- The tables hold what the lines have entered, for every name. -/
structure Recorded (lines : List TokenLine) (tables : Tables) : Prop where
  /-- The values are those of the last assignments. -/
  values : ∀ name, Value name lines (tables.values.get? name)
  /-- The arguments are those of the last definitions. -/
  arguments : ∀ name, Definition name lines (tables.arguments.get? name)
  /-- The verdicts on tautologies are those last asked for. -/
  assertions : ∀ name, Verdict .assert JudgesTautology name lines (tables.assertions.get? name)
  /-- The verdicts on validity are those last asked for. -/
  validations : ∀ name, Verdict .validate JudgesValidity name lines (tables.validations.get? name)
  /-- The verdicts on truth are those last asked for. -/
  valuations : ∀ name, Verdict .valuate JudgesTruth name lines (tables.valuations.get? name)

section Step

variable {p : String → TokenLine → Prop}
  {entered : String → List TokenLine → TokenLine → α → Prop} {t : Table α}

/-- A line of another kind leaves a table as it was. -/
theorem Holds.keep_table (h : ∀ name, Holds (p name) (entered name) lines (t.get? name))
    (hp : ∀ name, ¬ p name line) (name : String) :
    Holds (p name) (entered name) (lines ++ [line]) (t.get? name) :=
  (h name).keep (hp name)

/-- A line about one name enters its value there and leaves the others as they were. -/
theorem Holds.insert_table (h : ∀ name, Holds (p name) (entered name) lines (t.get? name))
    {subject : String} {value : α} (hp : ∀ name, p name line ↔ name = subject)
    (he : entered subject lines line value) (name : String) :
    Holds (p name) (entered name) (lines ++ [line]) ((t.insert subject value).get? name) := by
  rw [Table.get?_insert]
  split_ifs with heq
  · subst heq
    exact holds_enter ((hp name).2 rfl) he
  · exact (h name).keep fun hname => heq ((hp name).1 hname)

end Step

theorem recorded_nil : Recorded [] Tables.empty :=
  ⟨fun _ => holds_nil, fun _ => holds_nil, fun _ => holds_nil, fun _ => holds_nil,
    fun _ => holds_nil⟩

/-- **What one statement adds to the history.** -/
theorem Recorded.step {tables : Tables} {statement : Statement} {effect : Effect}
    (h : Recorded lines tables) (hr : Statement.Reads line.tokens statement)
    (hp : statement.Performs tables effect) : Recorded (lines ++ [line]) effect.tables := by
  obtain ⟨number, source, tokens⟩ := line
  -- each form of statement is a line of one kind, and enters one table at most
  cases hr with
  | print rest =>
    cases hp
    exact ⟨Holds.keep_table h.values (by simp [Assigns]),
      Holds.keep_table h.arguments (by simp [Defines]),
      Holds.keep_table h.assertions (by simp [Asks]),
      Holds.keep_table h.validations (by simp [Asks]),
      Holds.keep_table h.valuations (by simp [Asks])⟩
  | assign name literal rest =>
    cases hp
    exact ⟨Holds.insert_table h.values (by simp [Assigns, eq_comm]) ⟨literal, rest, rfl, rfl⟩,
      Holds.keep_table h.arguments (by simp [Defines]),
      Holds.keep_table h.assertions (by simp [Asks]),
      Holds.keep_table h.validations (by simp [Asks]),
      Holds.keep_table h.valuations (by simp [Asks])⟩
  | @define name body a hbody =>
    cases hp
    exact ⟨Holds.keep_table h.values (by simp [Assigns]),
      Holds.insert_table h.arguments (by simp [Defines, eq_comm]) ⟨body, rfl, hbody⟩,
      Holds.keep_table h.assertions (by simp [Asks]),
      Holds.keep_table h.validations (by simp [Asks]),
      Holds.keep_table h.valuations (by simp [Asks])⟩
  | assert name rest =>
    cases hp with
    | @assert _ a verdict ha hv =>
      exact ⟨Holds.keep_table h.values (by simp [Assigns]),
        Holds.keep_table h.arguments (by simp [Defines]),
        Holds.insert_table h.assertions (by simp [Asks, eq_comm]) ⟨a, ha ▸ h.arguments name, hv⟩,
        Holds.keep_table h.validations (by simp [Asks]),
        Holds.keep_table h.valuations (by simp [Asks])⟩
  | validate name rest =>
    cases hp with
    | @validate _ a verdict ha hv =>
      exact ⟨Holds.keep_table h.values (by simp [Assigns]),
        Holds.keep_table h.arguments (by simp [Defines]),
        Holds.keep_table h.assertions (by simp [Asks]),
        Holds.insert_table h.validations (by simp [Asks, eq_comm]) ⟨a, ha ▸ h.arguments name, hv⟩,
        Holds.keep_table h.valuations (by simp [Asks])⟩
  | valuate name rest =>
    cases hp with
    | @valuate _ a verdict ha hv =>
      exact ⟨Holds.keep_table h.values (by simp [Assigns]),
        Holds.keep_table h.arguments (by simp [Defines]),
        Holds.keep_table h.assertions (by simp [Asks]),
        Holds.keep_table h.validations (by simp [Asks]),
        Holds.insert_table h.valuations (by simp [Asks, eq_comm])
          ⟨a, ha ▸ h.arguments name, tables.values, h.values, hv⟩⟩

/-! ### The lines determine the tables -/

theorem Value.eq {name : String} {value? other? : Option Bool} (h : Value name lines value?)
    (h' : Value name lines other?) : value? = other? := by
  refine Holds.eq h h' ?_
  rintro before last _ _ ⟨literal, rest, htokens, rfl⟩ ⟨literal', rest', htokens', rfl⟩
  rw [htokens] at htokens'
  cases htokens'
  rfl

theorem Definition.eq {name : String} {a? b? : Option Argument} (h : Definition name lines a?)
    (h' : Definition name lines b?) : a? = b? := by
  refine Holds.eq h h' ?_
  rintro before last a b ⟨body, htokens, hbody⟩ ⟨body', htokens', hbody'⟩
  rw [htokens] at htokens'
  cases htokens'
  exact Except.ok.inj (hbody.symm.trans hbody')

theorem Verdict.eq {command : Token} {judges : List TokenLine → Argument → Bool → Prop}
    {name : String} {verdict? other? : Option Bool} (h : Verdict command judges name lines verdict?)
    (h' : Verdict command judges name lines other?)
    (hjudges : ∀ before a verdict other,
      judges before a verdict → judges before a other → verdict = other) :
    verdict? = other? := by
  refine Holds.eq h h' ?_
  rintro before last verdict other ⟨a, hdefinition, hverdict⟩ ⟨b, hdefinition', hother⟩
  cases hdefinition.eq hdefinition'
  exact hjudges before a verdict other hverdict hother

theorem JudgesTruth.eq {a : Argument} {verdict other : Bool} (h : JudgesTruth before a verdict)
    (h' : JudgesTruth before a other) : verdict = other := by
  obtain ⟨v, hv, hverdict⟩ := h
  obtain ⟨w, hw, hother⟩ := h'
  have hvw : ∀ name, v.get? name = w.get? name := fun name => (hv name).eq (hw name)
  rw [Argument.valuate_congr hvw] at hverdict
  exact Except.ok.inj (hverdict.symm.trans hother)

/-- The lines determine what the tables hold. -/
theorem Recorded.agree {t u : Tables} (h : Recorded lines t) (h' : Recorded lines u) :
    t.Agree u where
  values name := (h.values name).eq (h'.values name)
  arguments name := (h.arguments name).eq (h'.arguments name)
  assertions name := (h.assertions name).eq (h'.assertions name)
    fun _ _ _ _ hv hw => Except.ok.inj (hv.symm.trans hw)
  validations name := (h.validations name).eq (h'.validations name)
    fun _ _ _ _ hv hw => Except.ok.inj (hv.symm.trans hw)
  valuations name := (h.valuations name).eq (h'.valuations name)
    fun _ _ _ _ hv hw => hv.eq hw

end History

namespace Session

open History

variable {σ : Type} [Sink σ]

theorem recorded_of_run {config : Config} {sink : σ} {lines : List TokenLine} {s : Session σ}
    (h : ((start config sink).run lines).value = ⟨s, .ok ()⟩) : Recorded lines s.tables := by
  induction lines using List.reverseRecOn generalizing s with
  | nil =>
    cases h
    exact recorded_nil
  -- the induction is on the last line: it is the one that the history is extended by
  | append_singleton before line ih =>
    obtain ⟨reached, hbefore, hline⟩ := run_append_singleton_eq_ok_iff.1 h
    obtain ⟨statement, effect, hr, hp, htables⟩ := exists_performs_of_execute hline
    rw [htables]
    exact (ih hbefore).step hr hp

/-- **After a run the tables are those that its lines determine.**  If all lines run without an
error, the tables hold what the last lines about each name have entered, and any tables that do so
hold the same. -/
theorem run_eq_ok_recorded {config : Config} {sink : σ} {lines : List TokenLine} {s : Session σ}
    (h : ((start config sink).run lines).value = ⟨s, .ok ()⟩) :
    Recorded lines s.tables ∧ ∀ tables, Recorded lines tables → tables.Agree s.tables :=
  ⟨recorded_of_run h, fun _ htables => htables.agree (recorded_of_run h)⟩

/-- The argument `a` is found to be a tautology and then redefined, and the value of `P` is given
twice.  The verdict on the tautology is about the old definition, the one on truth about the new one
and the last value. -/
theorem redefinition_recorded :
    let lines : List TokenLine :=
      [⟨1, "argument a := (P ∨ ¬P)", [.argument, .identifier "a", .assign, .opening, .atom "P",
          .disj, .neg, .atom "P", .closing]⟩,
        ⟨2, "assert a", [.assert, .identifier "a"]⟩,
        ⟨3, "P := true", [.atom "P", .assign, .verum]⟩,
        ⟨4, "argument a := P", [.argument, .identifier "a", .assign, .atom "P"]⟩,
        ⟨5, "P := false", [.atom "P", .assign, .falsum]⟩,
        ⟨6, "valuate a", [.valuate, .identifier "a"]⟩]
    let outcome := ((start {} Buffer.unbounded).run lines).value
    outcome.result = .ok () ∧ Recorded lines outcome.session.tables ∧
      outcome.session.tables.values.get? "P" = some false ∧
      outcome.session.tables.arguments.get? "a" = some ⟨[.atom "P"], none⟩ ∧
      outcome.session.tables.assertions.get? "a" = some true ∧
      outcome.session.tables.valuations.get? "a" = some false := by
  refine ⟨by decide +kernel, (run_eq_ok_recorded (Outcome.eq_of_result ?_)).1, by decide +kernel,
    by decide +kernel, by decide +kernel, by decide +kernel⟩
  decide +kernel

end Session

end Entailment
