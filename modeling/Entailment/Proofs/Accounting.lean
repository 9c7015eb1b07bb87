import Entailment.Proofs.Effects
import Mathlib.Data.List.Perm.Subperm

/-!
# The accounts of a session

A session that goes on after errors may see statements fail in every way, also by a report that
could not be written after the tables had been changed.  Its accounts are right all the same: it has
counted the statements that succeeded, and every verdict it holds is on an argument that it holds as
well, so that its summary adds up.

* `Session.tables_execute`, `Session.statements_execute` : **what one statement can do to the tables
  and to the count**, however it ends;
* `Tables.Grounded` : every verdict is on a defined argument, which each statement preserves
  (`Statement.Performs.grounded`);
* `Tally.sums_ofTable` : the tally of a table of verdicts on defined arguments;
* `Session.executeAll_accounts` : **the accounts of any session are right.**
-/

namespace Entailment

/-! ### Tallies -/

/-- A table all of whose names another one has is no larger. -/
theorem Table.size_le_of_keys_subset {α β : Type} {t : Table α} {u : Table β}
    (h : t.keys ⊆ u.keys) : t.size ≤ u.size := by
  rw [← t.length_keys, ← u.length_keys]
  exact (List.Nodup.subperm t.nodup h).length_le

/-- The tally sums up the verdicts of a table, which are on arguments of the other table. -/
structure Tally.Sums (tally : Tally) (verdicts : Table Bool) (arguments : Table Argument) :
    Prop where
  /-- Every verdict is on a defined argument. -/
  defined : ∀ name ∈ verdicts.keys, name ∈ arguments.keys
  /-- The positive verdicts are counted. -/
  positive : tally.positive = verdicts.entries.countP fun entry => entry.2
  /-- The negative verdicts are counted. -/
  negative : tally.negative = verdicts.entries.countP fun entry => !entry.2
  /-- Together they are all verdicts; so what is subtracted from their number is no more than it. -/
  total : tally.positive + tally.negative = verdicts.size
  /-- There are no more verdicts than arguments. -/
  bounded : verdicts.size ≤ arguments.size

theorem Tally.sums_ofTable {verdicts : Table Bool} {arguments : Table Argument}
    (h : verdicts.keys ⊆ arguments.keys) : (ofTable verdicts).Sums verdicts arguments := by
  have hsplit : verdicts.size = verdicts.entries.countP (fun entry => entry.2) +
      verdicts.entries.countP (fun entry => !entry.2) := by
    rw [Table.size, List.length_eq_countP_add_countP Prod.snd]
    simp
  refine ⟨h, rfl, ?_, ?_, Table.size_le_of_keys_subset h⟩
  · simp only [ofTable]
    omega
  · simp only [ofTable]
    omega

/-! ### Verdicts and arguments -/

/-- Every verdict is on a defined argument. -/
structure Tables.Grounded (tables : Tables) : Prop where
  /-- The verdicts on tautologies are. -/
  assertions : tables.assertions.keys ⊆ tables.arguments.keys
  /-- The verdicts on validity are. -/
  validations : tables.validations.keys ⊆ tables.arguments.keys
  /-- The verdicts on truth are. -/
  valuations : tables.valuations.keys ⊆ tables.arguments.keys

theorem Tables.grounded_empty : Tables.empty.Grounded :=
  ⟨List.nil_subset _, List.nil_subset _, List.nil_subset _⟩

namespace Table

variable {α β : Type}

theorem keys_subset_insert (t : Table α) (name : String) (value : α) :
    t.keys ⊆ (t.insert name value).keys := by
  rw [keys_insert]
  split_ifs with h
  · exact List.Subset.refl _
  · exact List.subset_append_left _ _

/-- Entering a name that the other table has leaves all names among those of the other table. -/
theorem keys_insert_subset {t : Table α} {u : Table β} (h : t.keys ⊆ u.keys) {name : String}
    {found : β} (hname : u.get? name = some found) (value : α) :
    (t.insert name value).keys ⊆ u.keys := by
  have hmem : name ∈ u.keys := by rw [mem_keys_iff, hname]; rfl
  rw [keys_insert]
  split_ifs with ht
  · exact h
  · exact List.append_subset.2 ⟨h, by simpa using hmem⟩

end Table

/-- **A statement leaves every verdict on a defined argument.**  A definition only adds a name, and
a verdict is entered under the name of the argument that it is on. -/
theorem Statement.Performs.grounded {tables : Tables} {statement : Statement} {effect : Effect}
    (h : statement.Performs tables effect) (hg : tables.Grounded) : effect.tables.Grounded := by
  cases h with
  | print | assign => exact ⟨hg.assertions, hg.validations, hg.valuations⟩
  | define name a =>
    have hmore := Table.keys_subset_insert tables.arguments name a
    exact ⟨List.Subset.trans hg.assertions hmore, List.Subset.trans hg.validations hmore,
      List.Subset.trans hg.valuations hmore⟩
  | assert ha hv =>
    exact ⟨Table.keys_insert_subset hg.assertions ha _, hg.validations, hg.valuations⟩
  | validate ha hv =>
    exact ⟨hg.assertions, Table.keys_insert_subset hg.validations ha _, hg.valuations⟩
  | valuate ha hv =>
    exact ⟨hg.assertions, hg.validations, Table.keys_insert_subset hg.valuations ha _⟩

namespace Session

variable {σ : Type} [Sink σ]

/-! ### One statement, however it ends -/

/-- A statement leaves the tables as they were, or as it makes them when it is performed. -/
theorem tables_execute (s : Session σ) (line : TokenLine) :
    (s.execute line).value.session.tables = s.tables ∨
      ∃ statement effect, Statement.Performs s.tables statement effect ∧
        (s.execute line).value.session.tables = effect.tables := by
  rcases s.echoes_or_echoFails line with ⟨sink, he⟩ | ⟨sink, fault, he⟩
  · rcases performs_or_execute_eq_error he with ⟨statement, effect, hr, hp⟩ | ⟨error, -, herror⟩
    · refine .inr ⟨statement, effect, hp, ?_⟩
      rw [execute_of_performs he hr hp, tables_apply]
    · exact .inl (by rw [herror])
  · exact .inl (by rw [execute_of_echoFails he])

theorem statements_apply (s : Session σ) (effect : Effect) :
    (s.apply effect).session.statements = s.statements + (s.apply effect).result.isOk.toNat := by
  obtain ⟨tables, _ | report⟩ := effect
  · rfl
  · rcases hwrite : Sink.write s.sink report with ⟨sink, fault | ⟨⟨⟩⟩⟩
    · rw [apply_of_unwritten hwrite]
      rfl
    · rw [apply_of_written hwrite]
      rfl

/-- A statement counts exactly when it succeeds. -/
theorem statements_execute (s : Session σ) (line : TokenLine) :
    (s.execute line).value.session.statements =
      s.statements + (s.execute line).value.result.isOk.toNat := by
  rcases s.echoes_or_echoFails line with ⟨sink, he⟩ | ⟨sink, fault, he⟩
  · rcases performs_or_execute_eq_error he with ⟨statement, effect, hr, hp⟩ | ⟨error, -, herror⟩
    · rw [execute_of_performs he hr hp, statements_apply]
    · rw [herror]
      rfl
  · rw [execute_of_echoFails he]
    rfl

theorem grounded_execute {s : Session σ} (hg : s.tables.Grounded) (line : TokenLine) :
    (s.execute line).value.session.tables.Grounded := by
  rcases s.tables_execute line with heq | ⟨statement, effect, hp, heq⟩
  · rwa [heq]
  · rw [heq]
    exact hp.grounded hg

/-! ### Sessions that go on after errors -/

/-- Runs the statements of lines and goes on after errors; gives the session after them, and how
each of them ended. -/
def executeAll (s : Session σ) : List TokenLine → Session σ × List (Except Error Unit)
  | [] => (s, [])
  | line :: rest =>
    let outcome := (s.execute line).value
    let (last, results) := outcome.session.executeAll rest
    (last, outcome.result :: results)

theorem statements_executeAll (s : Session σ) (lines : List TokenLine) :
    (s.executeAll lines).1.statements =
      s.statements + (s.executeAll lines).2.countP Except.isOk := by
  induction lines generalizing s with
  | nil => rfl
  | cons line rest ih =>
    simp only [executeAll, List.countP_cons, ih, statements_execute]
    cases (s.execute line).value.result with
    | error error => simp [Except.isOk, Except.toBool]
    | ok value =>
      simp only [Except.isOk, Except.toBool, Bool.toNat_true, if_true]
      omega

theorem grounded_executeAll {s : Session σ} (hg : s.tables.Grounded) (lines : List TokenLine) :
    (s.executeAll lines).1.tables.Grounded := by
  induction lines generalizing s with
  | nil => exact hg
  | cons line rest ih => exact ih (grounded_execute hg line)

/-- **The accounts of any session are right.**  Whatever lines a session runs, and whatever its sink
does, it has counted the statements that succeeded.  Each of its tables of verdicts is about defined
arguments only, and the summary gives the verdicts in it: those that are true and those that are
false make up the table, which has no more entries than there are arguments. -/
theorem executeAll_accounts (config : Config) (sink : σ) (lines : List TokenLine) :
    let ended := (start config sink).executeAll lines
    ended.1.statements = ended.2.countP Except.isOk ∧
      ended.1.summary.assertions.Sums ended.1.tables.assertions ended.1.tables.arguments ∧
      ended.1.summary.validations.Sums ended.1.tables.validations ended.1.tables.arguments ∧
      ended.1.summary.valuations.Sums ended.1.tables.valuations ended.1.tables.arguments := by
  intro ended
  have hgrounded : ended.1.tables.Grounded := grounded_executeAll Tables.grounded_empty lines
  have hcount : ended.1.statements = 0 + ended.2.countP Except.isOk :=
    statements_executeAll (start config sink) lines
  exact ⟨by rw [hcount, Nat.zero_add], Tally.sums_ofTable hgrounded.assertions,
    Tally.sums_ofTable hgrounded.validations, Tally.sums_ofTable hgrounded.valuations⟩

-- The report on `a` does not fit into the sink: its verdict is there, but the statement does not
-- count, and neither does the one about `b`, which is not defined.
example :
    let lines : List TokenLine :=
      [⟨1, "argument a := P", [.argument, .identifier "a", .assign, .atom "P"]⟩,
        ⟨2, "assert a", [.assert, .identifier "a"]⟩, ⟨3, "assert b", [.assert, .identifier "b"]⟩]
    let ended := (start {} { room? := some 3 : Buffer }).executeAll lines
    ended.2.map Except.isOk = [true, false, false] ∧
      ended.1.summary = ⟨1, 0, 1, ⟨0, 1⟩, ⟨0, 0⟩, ⟨0, 0⟩⟩ := by
  decide +kernel

end Session

end Entailment
