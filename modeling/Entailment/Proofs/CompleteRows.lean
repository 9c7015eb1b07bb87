import Entailment.Proofs.Validity

/-!
# Rows are complete

The checks for tautologies and validity valuate formulas in the rows of a truth table over the
names of these same formulas.  Should a row have no value for a name it would leave a record of
level `error`, and be taken as one that settles nothing.  This never happens:

* `TruthTable.Yields.exists_digits` : a row that a table yields has a digit for each of its names;
* `TruthTable.Yields.exists_valuate` : **every formula has a truth value in every row of the table
  over it**;
* `TruthTable.records_searchAfter` : a search leaves only the records of its tests;
* `Argument.rows_complete` : the checks leave no record of level `error`.
-/

namespace Entailment

namespace TruthTable

/-! ### The rows of a table -/

/-- The table yields the row, now or after other rows. -/
inductive Yields : TruthTable → Valuation → Prop
  /-- The next row. -/
  | next {t rest : TruthTable} {row : Valuation} (h : t.next? = some (row, rest)) : Yields t row
  /-- A row after the next one. -/
  | later {t rest : TruthTable} {first row : Valuation} (h : t.next? = some (first, rest))
    (hr : Yields rest row) : Yields t row

theorem next?_eq_some_iff {t rest : TruthTable} {values : Valuation} :
    t.next? = some (values, rest) ↔
      ∃ digits, t.digits? = some digits ∧ values = row t.names digits ∧
        rest = ⟨t.names, succ? digits⟩ := by
  rw [next?]
  cases t.digits? with
  | none => simp
  | some digits => simp [eq_comm]

/-- A row that is yielded has as many digits as the table started with. -/
theorem Yields.exists_digits {t : TruthTable} {values : Valuation} (h : t.Yields values) :
    ∃ start digits, t.digits? = some start ∧ digits.length = start.length ∧
      values = row t.names digits := by
  induction h with
  | next h =>
    obtain ⟨digits, hd, rfl, -⟩ := next?_eq_some_iff.1 h
    exact ⟨digits, digits, hd, rfl, rfl⟩
  | later h _ ih =>
    obtain ⟨digits, hd, -, rfl⟩ := next?_eq_some_iff.1 h
    obtain ⟨start, later, hs, hl, rfl⟩ := ih
    exact ⟨digits, later, hd, hl.trans (length_of_succ? hs), rfl⟩

/-- A row of the table over distinct names gives each name the value of an assignment. -/
theorem Yields.exists_assign {names : List String} (hnd : names.Nodup) {values : Valuation}
    (h : (ofNames names).Yields values) : ∃ w, values = assign names w := by
  obtain ⟨start, digits, hs, hl, rfl⟩ := h.exists_digits
  have hstart : start.length = names.length := by
    rw [ofNames] at hs
    split_ifs at hs
    cases hs
    exact List.length_replicate
  obtain ⟨w, rfl⟩ := exists_map_eq hnd (hl.trans hstart)
  exact ⟨w, rfl⟩

/-- **Every formula has a truth value in every row of the table over it** and others. -/
theorem Yields.exists_valuate {formulas : List Formula} {values : Valuation}
    (h : (ofFormulas formulas).value.Yields values) {f : Formula} (hf : f ∈ formulas) :
    ∃ value, f.valuate values = .ok value := by
  obtain ⟨w, rfl⟩ := h.exists_assign (Name.nodup_of_pairwise (Name.pairwise_sort _))
  refine ⟨f.eval w, Formula.valuate_eq_eval (agrees_assign w fun name hn => ?_)⟩
  exact mem_namesOf.2 (List.mem_flatMap.2 ⟨f, hf, hn⟩)

/-! ### Records of a search -/

/-- A search whose tests leave no records leaves none. -/
theorem records_searchAfter {test : Valuation → Logged Bool} {t : TruthTable}
    (h : ∀ values, t.Yields values → (test values).records = []) (records : List Record) :
    (searchAfter test records t).records = records := by
  fun_induction searchAfter test records t with
  | case1 => rfl
  | case2 records t values rest hnext _ tested =>
    have htested : tested.records = [] := h values (.next hnext)
    simp [htested]
  | case3 records t values rest hnext _ tested _ ih =>
    have htested : tested.records = [] := h values (.next hnext)
    rw [ih fun later hlater => h later (.later hnext hlater), htested, List.append_nil]

end TruthTable

namespace Formula

theorem records_falsifiedBy {f : Formula} {v : Valuation} (h : ∃ value, f.valuate v = .ok value) :
    (f.falsifiedBy v).records = [] := by
  obtain ⟨value, hv⟩ := h
  rw [falsifiedBy, hv]
  rfl

theorem records_allHold {formulas : List Formula} {v : Valuation}
    (h : ∀ f ∈ formulas, ∃ value, f.valuate v = .ok value) : (allHold formulas v).records = [] := by
  induction formulas with
  | nil => rfl
  | cons f rest ih =>
    obtain ⟨⟨value, hv⟩, hrest⟩ := List.forall_mem_cons.1 h
    rw [allHold, hv]
    cases value with
    | true => exact ih hrest
    | false => rfl

end Formula

namespace Argument

/-! ### Records of the checks -/

/-- A search in the table over some formulas leaves only records of level `debug`, if its tests leave
none and what is done with its result leaves only such records. -/
theorem level_of_mem_search {α : Type} {formulas : List Formula} {test : Valuation → Logged Bool}
    {andThen : Option Valuation → Logged α}
    (htest : ∀ values, (TruthTable.ofFormulas formulas).value.Yields values →
      (test values).records = [])
    (hthen : ∀ found, ∀ record ∈ (andThen found).records, record.level = .debug) {record : Record}
    (h : record ∈ (TruthTable.ofFormulas formulas >>= fun table =>
      table.search test >>= andThen).records) : record.level = .debug := by
  have hsearch : ((TruthTable.ofFormulas formulas).value.search test).records = [] :=
    TruthTable.records_searchAfter htest []
  rw [Logged.records_bind, Logged.records_bind, hsearch, List.nil_append, List.mem_append] at h
  rcases h with h | h
  · obtain rfl := List.mem_singleton.1 h
    rfl
  · exact hthen _ record h

theorem level_of_mem_checkTautology {a : Argument} {record : Record}
    (h : record ∈ a.checkTautology.records) : record.level = .debug := by
  unfold checkTautology at h
  split at h
  · refine level_of_mem_search (fun values hv => ?_) (fun found => ?_) h
    · exact Formula.records_falsifiedBy (hv.exists_valuate (List.mem_singleton_self _))
    · cases found <;> simp [Logged.note]
  · cases h

theorem level_of_mem_findCounterExample {a : Argument} {record : Record}
    (h : record ∈ a.findCounterExample.records) : record.level = .debug := by
  unfold findCounterExample at h
  split at h
  · cases h
  · refine level_of_mem_search (fun values hv => ?_) (fun found => ?_) h
    · exact Formula.records_allHold fun f hf => hv.exists_valuate hf
    · cases found <;> simp [Logged.note]

theorem records_checkValidity (a : Argument) :
    a.checkValidity.records = a.findCounterExample.records := by
  simp [checkValidity]

/-- **No row is incomplete.**  The check for a tautology goes through the rows of the table over the
formula, and the search for a counter-example through those of the table over the negated conclusion
and the premises; in each of these rows each of these formulas has a truth value.  So neither check
leaves a record of level `error`. -/
theorem rows_complete (a : Argument) :
    (∀ f, a.premises = [f] → ∀ row, (TruthTable.ofFormulas [f]).value.Yields row →
      ∃ value, f.valuate row = .ok value) ∧
    (∀ conclusion, a.conclusion? = some conclusion →
      ∀ row, (TruthTable.ofFormulas (.neg conclusion :: a.premises)).value.Yields row →
        ∀ f ∈ .neg conclusion :: a.premises, ∃ value, f.valuate row = .ok value) ∧
    ∀ record ∈ a.checkTautology.records ++ a.findCounterExample.records ++ a.checkValidity.records,
      record.level ≠ .error := by
  refine ⟨fun f _ row hrow => hrow.exists_valuate (List.mem_singleton_self f),
    fun conclusion _ row hrow f hf => hrow.exists_valuate hf, fun record hr => ?_⟩
  have hlevel : record.level = .debug := by
    rw [records_checkValidity, List.mem_append, List.mem_append] at hr
    rcases hr with (hr | hr) | hr
    · exact level_of_mem_checkTautology hr
    · exact level_of_mem_findCounterExample hr
    · exact level_of_mem_findCounterExample hr
  rw [hlevel]
  decide

/-- In the second row of the table over `(P → Q)`, and in that of the search for a counter-example to
`(P → Q) ∴ P`, every formula has a truth value. -/
theorem rows_complete_conditional :
    let a : Argument := ⟨[.imp (.atom "P") (.atom "Q")], some (.atom "P")⟩
    let row : Valuation := TruthTable.row ["P", "Q"] [false, true]
    (TruthTable.ofFormulas a.premises).value.Yields row ∧
      (∃ value, Formula.valuate row (.imp (.atom "P") (.atom "Q")) = .ok value) ∧
      ∃ value, Formula.valuate row (.neg (.atom "P")) = .ok value := by
  intro a row
  have hpremise : (TruthTable.ofFormulas a.premises).value.Yields row := .later rfl (.next rfl)
  have hboth : (TruthTable.ofFormulas (.neg (.atom "P") :: a.premises)).value.Yields row :=
    .later rfl (.next rfl)
  exact ⟨hpremise, (rows_complete a).1 _ rfl row hpremise,
    (rows_complete a).2.1 _ rfl row hboth _ List.mem_cons_self⟩

end Argument

end Entailment
