import Entailment.Proofs.Meaning
import Entailment.TruthTable

/-!
# The rows of a truth table

A truth table counts through the digits of its rows.  Distinct rows have distinct numbers, every
assignment to the names is a row, and the numbers put the rows into the order in which the values
of the names are compared one after the other:

* `TruthTable.get?_assign` : the row of an assignment gives every name its value;
* `TruthTable.precedes_of_rank_lt` : of two rows with ascending names the one with the smaller
  number is false at the first name in which they differ;
* `TruthTable.finds_searchAfter` : **a search finds the first row that is accepted**, and none only
  if all rows are refused; `TruthTable.refused_of_search_eq_none` and
  `TruthTable.first_of_search_eq_some` say so of assignments.
-/

namespace Entailment

/-- The valuation comes before the assignment `w`: at the first of the names, in the order of
their bytes, to which they give different values, the valuation is false. -/
def Valuation.Precedes (v : Valuation) (w : String → Bool) (names : List String) : Prop :=
  ∃ name ∈ names, v.get? name = some false ∧ w name = true ∧
    ∀ other ∈ names, Source.encode other < Source.encode name → v.get? other = some (w other)

namespace TruthTable

/-! ### Digits -/

theorem rank_inj {a b : List Bool} (hl : a.length = b.length) (h : rank a = rank b) : a = b := by
  induction a generalizing b with
  | nil => exact (List.length_eq_zero_iff.1 hl.symm).symm
  | cons x xs ih =>
    cases b with
    | nil => cases hl
    | cons y ys =>
      have hl' : xs.length = ys.length := Nat.succ.inj hl
      have hx := rank_lt xs
      have hy := rank_lt ys
      simp only [rank, hl'] at h hx
      -- the digits in front decide which half of the numbers a row is in
      cases x <;> cases y <;> simp only [Bool.false_eq_true, if_true, if_false] at h
      · rw [ih hl' (by omega)]
      · omega
      · omega
      · rw [ih hl' (by omega)]

/-! ### Assignments as rows -/

/-- The row in which every name has the value that `w` gives it. -/
def assign (names : List String) (w : String → Bool) : Valuation := row names (names.map w)

theorem get?_foldl_insert (names : List String) (w : String → Bool) (t : Valuation)
    (name : String) :
    ((names.zip (names.map w)).foldl (fun t entry => t.insert entry.1 entry.2) t).get? name =
      if name ∈ names then some (w name) else t.get? name := by
  induction names generalizing t with
  | nil => simp
  | cons head rest ih =>
    rw [List.map_cons, List.zip_cons_cons, List.foldl_cons, ih, Table.get?_insert]
    by_cases hr : name ∈ rest
    · simp [hr]
    · by_cases hh : name = head
      · subst hh
        simp [hr]
      · simp [hr, hh]

@[simp] theorem get?_assign (names : List String) (w : String → Bool) (name : String) :
    (assign names w).get? name = if name ∈ names then some (w name) else none :=
  get?_foldl_insert names w Table.empty name

theorem mem_keys_assign {names : List String} {w : String → Bool} {name : String} :
    name ∈ (assign names w).keys ↔ name ∈ names := by
  rw [Table.mem_keys_iff, get?_assign]
  split_ifs with h <;> simp [h]

theorem agrees_assign {names atoms : List String} (w : String → Bool)
    (h : ∀ name ∈ atoms, name ∈ names) : (assign names w).Agrees w atoms := by
  intro name hn
  rw [get?_assign, if_pos (h name hn)]

/-- Digits for names that are all different come from an assignment. -/
theorem exists_map_eq {names : List String} (hnd : names.Nodup) {digits : List Bool}
    (hl : digits.length = names.length) : ∃ w : String → Bool, names.map w = digits := by
  induction names generalizing digits with
  | nil => exact ⟨fun _ => false, (List.length_eq_zero_iff.1 hl).symm⟩
  | cons head rest ih =>
    cases digits with
    | nil => cases hl
    | cons digit more =>
      obtain ⟨hhead, hrest⟩ := List.nodup_cons.1 hnd
      obtain ⟨w, hw⟩ := ih hrest (Nat.succ.inj hl)
      refine ⟨fun name => if name = head then digit else w name, ?_⟩
      rw [List.map_cons, if_pos rfl, ← hw]
      congr 1
      refine List.map_congr_left fun name hn => if_neg ?_
      rintro rfl
      exact hhead hn

/-- Of two rows with ascending names, the one with the smaller number comes first. -/
theorem exists_first_difference {names : List String} (hs : names.Pairwise fun a b => a < b)
    {v w : String → Bool} (h : rank (names.map v) < rank (names.map w)) :
    ∃ name ∈ names, v name = false ∧ w name = true ∧
      ∀ other ∈ names, other < name → v other = w other := by
  induction names with
  | nil => exact absurd h (Nat.lt_irrefl _)
  | cons head rest ih =>
    obtain ⟨hhead, hrest⟩ := List.pairwise_cons.1 hs
    have hv := rank_lt (rest.map v)
    have hw := rank_lt (rest.map w)
    simp only [List.map_cons, rank, List.length_map] at h hv hw
    by_cases heq : v head = w head
    · rw [heq] at h
      obtain ⟨name, hn, hvn, hwn, hbelow⟩ := ih hrest (by omega)
      refine ⟨name, List.mem_cons_of_mem _ hn, hvn, hwn, fun other ho hlt => ?_⟩
      rcases List.mem_cons.1 ho with rfl | ho
      · exact heq
      · exact hbelow other ho hlt
    · -- the digits in front differ, and a true one would make the first number the larger one
      have hvh : v head = false := by
        cases hb : v head with
        | false => rfl
        | true =>
          have hwh : w head = false := by simpa [hb] using heq
          simp only [hb, hwh, Bool.false_eq_true, if_true, if_false] at h
          omega
      refine ⟨head, List.mem_cons_self, hvh, by simpa [hvh] using heq, fun other ho hlt => ?_⟩
      rcases List.mem_cons.1 ho with rfl | ho
      · exact absurd hlt (String.lt_irrefl _)
      · exact absurd hlt (String.lt_asymm (hhead other ho))

theorem precedes_of_rank_lt {names : List String} (hs : names.Pairwise fun a b => a < b)
    {v w : String → Bool} (h : rank (names.map v) < rank (names.map w)) :
    (assign names v).Precedes w names := by
  obtain ⟨name, hn, hvn, hwn, hbelow⟩ := exists_first_difference hs h
  refine ⟨name, hn, by rw [get?_assign, if_pos hn, hvn], hwn, fun other ho hlt => ?_⟩
  rw [get?_assign, if_pos ho, hbelow other ho (Name.lt_iff_encode_lt.2 hlt)]

/-! ### Searching -/

/-- What a search that starts at the row with the given digits should give: the first row from
there on that is accepted, or nothing when every one is refused. -/
def Finds (names : List String) (accepts : Valuation → Bool) (digits : List Bool) :
    Option Valuation → Prop
  | none => ∀ later : List Bool, later.length = digits.length → rank digits ≤ rank later →
      accepts (row names later) = false
  | some values => ∃ found : List Bool, found.length = digits.length ∧ values = row names found ∧
      accepts (row names found) = true ∧
      ∀ between : List Bool, between.length = digits.length → rank digits ≤ rank between →
        rank between < rank found → accepts (row names between) = false

variable {names : List String} {accepts : Valuation → Bool} {digits next : List Bool}

theorem finds_here (h : accepts (row names digits) = true) :
    Finds names accepts digits (some (row names digits)) :=
  ⟨digits, rfl, rfl, h, fun _ _ hle hlt => absurd hlt (Nat.not_lt.2 hle)⟩

theorem finds_none_of_last (hs : succ? digits = none) (h : accepts (row names digits) = false) :
    Finds names accepts digits none := by
  intro later hl hle
  have hlast := rank_of_succ?_none hs
  have hlt := rank_lt later
  rw [hl] at hlt
  rwa [rank_inj hl (by omega)]

/-- Refusing a row leaves the search from the next row on. -/
theorem finds_of_succ? (hs : succ? digits = some next) (h : accepts (row names digits) = false)
    {result : Option Valuation} (hf : Finds names accepts next result) :
    Finds names accepts digits result := by
  have hlen := length_of_succ? hs
  have hrank := rank_succ? hs
  -- a row from here on is this one or one from the next one on
  have split : ∀ later : List Bool, later.length = digits.length → rank digits ≤ rank later →
      later = digits ∨ rank next ≤ rank later := by
    intro later hl hle
    by_cases heq : rank later = rank digits
    · exact .inl (rank_inj hl heq)
    · exact .inr (by omega)
  cases result with
  | none =>
    intro later hl hle
    rcases split later hl hle with rfl | hle'
    · exact h
    · exact hf later (hl.trans hlen.symm) hle'
  | some values =>
    obtain ⟨found, hfl, hv, ha, hbetween⟩ := hf
    refine ⟨found, hfl.trans hlen, hv, ha, fun between hl hle hlt => ?_⟩
    rcases split between hl hle with rfl | hle'
    · exact h
    · exact hbetween between (hl.trans hlen.symm) hle' hlt

theorem searchAfter_done (test : Valuation → Logged Bool) (records : List Record) :
    searchAfter test records ⟨names, none⟩ = ⟨none, records⟩ := by
  rw [searchAfter]
  rfl

theorem searchAfter_some (test : Valuation → Logged Bool) (records : List Record) :
    searchAfter test records ⟨names, some digits⟩ =
      if (test (row names digits)).value then
        ⟨some (row names digits), records ++ (test (row names digits)).records⟩
      else searchAfter test (records ++ (test (row names digits)).records)
        ⟨names, succ? digits⟩ := by
  rw [searchAfter]
  rfl

/-- **A search finds the first row that is accepted.** -/
theorem finds_searchAfter (test : Valuation → Logged Bool) (records : List Record)
    (digits : List Bool) :
    Finds names (fun v => (test v).value) digits
      (searchAfter test records ⟨names, some digits⟩).value := by
  -- the induction is on the number of rows that are left
  induction hn : rowsOver digits.length - rank digits generalizing digits records with
  | zero => have := rank_lt digits; omega
  | succ n ih =>
    rw [searchAfter_some]
    split_ifs with h
    · exact finds_here h
    · have h' := Bool.eq_false_iff.2 h
      cases hs : succ? digits with
      | none =>
        rw [searchAfter_done]
        exact finds_none_of_last hs h'
      | some next =>
        have hlen := length_of_succ? hs
        have hrank := rank_succ? hs
        exact finds_of_succ? hs h' (ih _ next (by rw [hlen, hrank]; omega))

theorem finds_search (hne : names ≠ []) (test : Valuation → Logged Bool) :
    Finds names (fun v => (test v).value) (List.replicate names.length false)
      ((ofNames names).search test).value := by
  have h : ofNames names = ⟨names, some (List.replicate names.length false)⟩ := by
    rw [ofNames, if_neg (by simpa using hne)]
  rw [h]
  exact finds_searchAfter test [] _

theorem refused_of_search_eq_none (hne : names ≠ []) {test : Valuation → Logged Bool}
    (h : ((ofNames names).search test).value = none) (w : String → Bool) :
    (test (assign names w)).value = false := by
  have hf := finds_search hne test
  rw [h] at hf
  exact hf (names.map w) (by simp) (by rw [rank_replicate]; exact Nat.zero_le _)

/-- The row that a search finds is accepted, and it agrees with every other assignment that is
accepted or comes before it. -/
theorem first_of_search_eq_some (hne : names ≠ []) (hs : names.Pairwise fun a b => a < b)
    {test : Valuation → Logged Bool} {values : Valuation}
    (h : ((ofNames names).search test).value = some values) :
    ∃ v : String → Bool, values = assign names v ∧ (test (assign names v)).value = true ∧
      ∀ w : String → Bool, (test (assign names w)).value = true →
        values.Agrees w names ∨ values.Precedes w names := by
  have hf := finds_search hne test
  rw [h] at hf
  obtain ⟨found, hl, rfl, ha, hbetween⟩ := hf
  rw [List.length_replicate] at hl hbetween
  obtain ⟨v, rfl⟩ := exists_map_eq (Name.nodup_of_pairwise hs) hl
  refine ⟨v, rfl, ha, fun w hw => ?_⟩
  have hle : rank (names.map v) ≤ rank (names.map w) := by
    by_contra hlt
    have hfalse := hbetween (names.map w) (by simp) (by rw [rank_replicate]; exact Nat.zero_le _)
      (by omega)
    exact Bool.false_ne_true (hfalse.symm.trans hw)
  rcases Nat.lt_or_eq_of_le hle with hlt | heq
  · exact .inr (precedes_of_rank_lt hs hlt)
  · have hmap : names.map v = names.map w := rank_inj (by simp) heq
    refine .inl fun name hn => ?_
    change (assign names v).get? name = _
    rw [get?_assign, if_pos hn, List.map_inj_left.1 hmap name hn]

end TruthTable

end Entailment
