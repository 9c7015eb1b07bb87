import Entailment.Proofs.Rows
import Mathlib.Data.Nat.Bitwise
import Mathlib.Logic.Function.Iterate

/-!
# The enumeration of the rows

A truth table is asked for its rows one after the other.  Over `n` names, at least one, the call
with number `i` gives the row whose digits are those of `i` in the binary system, as long as `i` is
below `2 ^ n`, and from then on there is no row.

* `TruthTable.digitsOf` : the digits of a number, with `TruthTable.rank` as their value;
* `TruthTable.iterate_advance` : **the table counts**: after `i` calls it stands at the number `i`;
* `TruthTable.get?_row` : of a name that stands twice the last digit counts;
* `TruthTable.existsUnique_answer?` : over distinct names every assignment is given exactly once;
* `TruthTable.rows_enumerated` : the rows of a table, and their number.
-/

namespace Entailment

namespace TruthTable

/-! ### Digits of numbers -/

theorem rowsOver_eq_two_pow (n : ℕ) : rowsOver n = 2 ^ n := by
  induction n with
  | zero => rfl
  | succ n ih => rw [rowsOver, ih, Nat.pow_succ']

/-- The last `n` binary digits of a number, the most significant one first. -/
def digitsOf (n i : ℕ) : List Bool := (List.range n).map fun j => i.testBit (n - 1 - j)

@[simp] theorem length_digitsOf (n i : ℕ) : (digitsOf n i).length = n := by simp [digitsOf]

theorem digitsOf_succ (n i : ℕ) : digitsOf (n + 1) i = i.testBit n :: digitsOf n i := by
  unfold digitsOf
  rw [List.range_succ_eq_map, List.map_cons, List.map_map]
  congr 1
  refine List.map_congr_left fun j _ => ?_
  have hj : n + 1 - 1 - (j + 1) = n - 1 - j := by omega
  exact congrArg i.testBit hj

theorem rank_digitsOf (n i : ℕ) : rank (digitsOf n i) = i % 2 ^ n := by
  induction n with
  | zero => rw [Nat.pow_zero, Nat.mod_one]; rfl
  | succ n ih =>
    rw [digitsOf_succ, rank, ih, length_digitsOf, rowsOver_eq_two_pow, Nat.mod_pow_succ,
      ← Nat.toNat_testBit]
    by_cases h : i.testBit n
    · simp [h, Nat.add_comm]
    · simp [h]

theorem digitsOf_rank (digits : List Bool) : digitsOf digits.length (rank digits) = digits := by
  refine rank_inj (length_digitsOf _ _) ?_
  have hlt := rank_lt digits
  rw [rowsOver_eq_two_pow] at hlt
  rw [rank_digitsOf, Nat.mod_eq_of_lt hlt]

theorem digitsOf_zero (n : ℕ) : digitsOf n 0 = List.replicate n false := by
  have h := digitsOf_rank (List.replicate n false)
  rwa [rank_replicate, List.length_replicate] at h

/-- The digits after those of a number are those of the next one, unless it has too many. -/
theorem succ?_digitsOf {n i : ℕ} (h : i < 2 ^ n) :
    succ? (digitsOf n i) = if i + 1 < 2 ^ n then some (digitsOf n (i + 1)) else none := by
  have hrank : rank (digitsOf n i) = i := by rw [rank_digitsOf, Nat.mod_eq_of_lt h]
  cases hs : succ? (digitsOf n i) with
  | none =>
    have hlast := rank_of_succ?_none hs
    rw [hrank, length_digitsOf, rowsOver_eq_two_pow] at hlast
    rw [if_neg (by omega)]
  | some next =>
    have hlength : next.length = n := by rw [length_of_succ? hs, length_digitsOf]
    have hnext : rank next = i + 1 := by rw [rank_succ? hs, hrank]
    have hlt := rank_lt next
    rw [hnext, hlength, rowsOver_eq_two_pow] at hlt
    have hdigits := digitsOf_rank next
    rw [hnext, hlength] at hdigits
    rw [if_pos hlt, hdigits]

/-! ### Calls -/

/-- The table after a call for its next row.  When there is none it stays as it is. -/
def advance (t : TruthTable) : TruthTable := (t.next?.map Prod.snd).getD t

/-- The row that the call with number `i` gives, the first call having number `0`. -/
def answer? (t : TruthTable) (i : ℕ) : Option Valuation := (advance^[i] t).next?.map Prod.fst

variable {names : List String}

/-- **The table counts**: after `i` calls it stands at the number `i`, if that has few enough
digits, and else behind its last row. -/
theorem iterate_advance (hne : names ≠ []) (i : ℕ) :
    advance^[i] (ofNames names) =
      ⟨names, if i < 2 ^ names.length then some (digitsOf names.length i) else none⟩ := by
  induction i with
  | zero =>
    have hpos : 0 < 2 ^ names.length := Nat.two_pow_pos _
    rw [if_pos hpos, digitsOf_zero, Function.iterate_zero_apply, ofNames,
      if_neg (by simpa using hne)]
  | succ i ih =>
    rw [Function.iterate_succ_apply', ih]
    by_cases h : i < 2 ^ names.length
    · rw [if_pos h, ← succ?_digitsOf h]
      rfl
    · rw [if_neg h, if_neg (by omega)]
      rfl

theorem answer?_of_ne_nil (hne : names ≠ []) (i : ℕ) :
    (ofNames names).answer? i =
      if i < 2 ^ names.length then some (row names (digitsOf names.length i)) else none := by
  rw [answer?, iterate_advance hne]
  split_ifs <;> rfl

theorem answer?_nil (i : ℕ) : (ofNames []).answer? i = none := by
  have hfixed : advance^[i] (ofNames []) = ofNames [] := Function.iterate_fixed rfl i
  rw [answer?, hfixed]
  rfl

/-! ### Names and digits -/

theorem get?_foldl_of_not_mem {entries : List (String × Bool)} {name : String}
    (h : name ∉ entries.map Prod.fst) (t : Valuation) :
    (entries.foldl (fun t entry => t.insert entry.1 entry.2) t).get? name = t.get? name := by
  induction entries generalizing t with
  | nil => rfl
  | cons entry rest ih =>
    rw [List.map_cons, List.mem_cons, not_or] at h
    rw [List.foldl_cons, ih h.2, Table.get?_insert, if_neg h.1]

theorem get?_foldl_zip {digits : List Bool} (hl : digits.length = names.length) {j : ℕ}
    {name : String} (hname : names[j]? = some name) (hlast : name ∉ names.drop (j + 1))
    (t : Valuation) :
    ((names.zip digits).foldl (fun t entry => t.insert entry.1 entry.2) t).get? name =
      digits[j]? := by
  induction names generalizing digits j t with
  | nil => simp at hname
  | cons head rest ih =>
    obtain ⟨digit, more, rfl⟩ := List.exists_cons_of_length_eq_add_one hl
    have hl' : more.length = rest.length := Nat.succ.inj hl
    rw [List.zip_cons_cons, List.foldl_cons]
    cases j with
    | zero =>
      -- the digit is entered here, and no later one replaces it
      obtain rfl : head = name := by simpa using hname
      have hlater : head ∉ (rest.zip more).map Prod.fst := by
        rw [List.map_fst_zip (Nat.le_of_eq hl'.symm)]
        simpa using hlast
      rw [get?_foldl_of_not_mem hlater, Table.get?_insert, if_pos rfl]
      rfl
    | succ j => exact ih hl' hname hlast _

/-- A row gives a name the digit at its last place. -/
theorem get?_row {digits : List Bool} (hl : digits.length = names.length) {j : ℕ} {name : String}
    (hname : names[j]? = some name) (hlast : name ∉ names.drop (j + 1)) :
    (row names digits).get? name = digits[j]? :=
  get?_foldl_zip hl hname hlast Table.empty

theorem mem_keys_foldl (entries : List (String × Bool)) (t : Valuation) (name : String) :
    name ∈ (entries.foldl (fun t entry => t.insert entry.1 entry.2) t).keys ↔
      name ∈ entries.map Prod.fst ∨ name ∈ t.keys := by
  induction entries generalizing t with
  | nil => simp
  | cons entry rest ih =>
    have hinsert : name ∈ (t.insert entry.1 entry.2).keys ↔ name = entry.1 ∨ name ∈ t.keys := by
      rw [Table.mem_keys_iff, Table.mem_keys_iff, Table.get?_insert]
      by_cases h : name = entry.1 <;> simp [h]
    rw [List.foldl_cons, ih, hinsert, List.map_cons, List.mem_cons, or_left_comm, or_assoc]

theorem mem_keys_row {digits : List Bool} (hl : digits.length = names.length) (name : String) :
    name ∈ (row names digits).keys ↔ name ∈ names := by
  rw [row, Table.ofList, mem_keys_foldl, List.map_fst_zip (Nat.le_of_eq hl.symm)]
  simp [Table.keys, Table.empty]

/-- The row with number `i`: a name has the value of the digit at its last place among the names,
and no other name has a value. -/
structure IsRow (names : List String) (i : ℕ) (values : Valuation) : Prop where
  /-- The first of `n` names has the digit worth `2 ^ (n - 1)`, and the last one the digit worth
  `1`. -/
  digit : ∀ j name, names[j]? = some name → name ∉ names.drop (j + 1) →
    values.get? name = some (i.testBit (names.length - 1 - j))
  /-- Only the names have values. -/
  keys : ∀ name, name ∈ values.keys ↔ name ∈ names

theorem isRow_row (names : List String) (i : ℕ) :
    IsRow names i (row names (digitsOf names.length i)) := by
  refine ⟨?_, mem_keys_row (length_digitsOf _ _)⟩
  intro j name hname hlast
  have hj : j < names.length := (List.getElem?_eq_some_iff.1 hname).1
  rw [get?_row (length_digitsOf _ _) hname hlast]
  simp [digitsOf, hj]

/-- Over distinct names every assignment is given by exactly one call. -/
theorem existsUnique_answer? (hne : names ≠ []) (hnd : names.Nodup) (w : String → Bool) :
    ∃! i, ∃ values, (ofNames names).answer? i = some values ∧
      ∀ name ∈ names, values.get? name = some (w name) := by
  have hlt := rank_lt (names.map w)
  rw [rowsOver_eq_two_pow, List.length_map] at hlt
  have hdigits := digitsOf_rank (names.map w)
  rw [List.length_map] at hdigits
  refine ⟨rank (names.map w), ⟨assign names w, ?_, ?_⟩, ?_⟩
  · rw [answer?_of_ne_nil hne, if_pos hlt, hdigits]
    rfl
  · intro name hn
    rw [get?_assign, if_pos hn]
  · rintro i ⟨values, hanswer, hvalues⟩
    rw [answer?_of_ne_nil hne] at hanswer
    split_ifs at hanswer with hi
    obtain rfl := Option.some.inj hanswer
    -- the digits of a row with these values are those of the assignment
    obtain ⟨v, hv⟩ := exists_map_eq hnd (length_digitsOf names.length i)
    have hsame : names.map v = names.map w := by
      refine List.map_congr_left fun name hn => Option.some.inj ?_
      rw [← hvalues name hn, ← hv]
      exact ((get?_assign names v name).trans (if_pos hn)).symm
    rw [← hsame, hv, rank_digitsOf, Nat.mod_eq_of_lt hi]

/-! ### The number of rows -/

theorem isSome_answer?_iff (names : List String) (i : ℕ) :
    ((ofNames names).answer? i).isSome ↔ names ≠ [] ∧ i < 2 ^ names.length := by
  by_cases hne : names = []
  · subst hne
    simp [answer?_nil]
  · rw [answer?_of_ne_nil hne]
    by_cases h : i < 2 ^ names.length <;> simp [h, hne]

theorem rowCount?_ofNames (names : List String) :
    (ofNames names).rowCount? =
      if names = [] then some 0
      else if names.length < 64 then some (2 ^ names.length) else none := by
  simp [rowCount?, ofNames, rowsOver_eq_two_pow]

/-- **The rows of a truth table.**  Without names there are none.  Over `n` names, at least one, the
calls with numbers below `2 ^ n` give the rows with these numbers, and all later calls give nothing;
if the names are distinct, every assignment is given exactly once.  The number of rows is known
unless there are `64` names or more. -/
theorem rows_enumerated (names : List String) :
    (names = [] → ∀ i, (ofNames names).answer? i = none) ∧
    (names ≠ [] → ∀ i,
      (i < 2 ^ names.length →
        ∃ values, (ofNames names).answer? i = some values ∧ IsRow names i values) ∧
      (2 ^ names.length ≤ i → (ofNames names).answer? i = none)) ∧
    (names ≠ [] → names.Nodup → ∀ w : String → Bool,
      ∃! i, ∃ values, (ofNames names).answer? i = some values ∧
        ∀ name ∈ names, values.get? name = some (w name)) ∧
    (∀ count, (ofNames names).rowCount? = some count →
      ∀ i, ((ofNames names).answer? i).isSome ↔ i < count) ∧
    ((ofNames names).rowCount? = none ↔ 64 ≤ names.length) := by
  refine ⟨?_, ?_, existsUnique_answer?, ?_, ?_⟩
  · rintro rfl i
    exact answer?_nil i
  · intro hne i
    rw [answer?_of_ne_nil hne]
    refine ⟨fun h => ⟨_, if_pos h, isRow_row names i⟩, fun h => if_neg (by omega)⟩
  · intro count hcount i
    rw [isSome_answer?_iff]
    rw [rowCount?_ofNames] at hcount
    split_ifs at hcount with hnil hlt
    · obtain rfl := Option.some.inj hcount
      simp [hnil]
    · obtain rfl := Option.some.inj hcount
      simp [hnil]
  · rw [rowCount?_ofNames]
    split_ifs with hnil hlt
    · simp [hnil]
    · simp [hlt]
    · simpa using hlt

/-- Over `P`, `Q`, `P` there are eight rows; in the one with number `5` the last digit counts for
`P`.  Over `P`, `Q` exactly one row makes only `P` true. -/
theorem repeated_name_enumerated :
    let names := ["P", "Q", "P"]
    (∀ i, (ofNames []).answer? i = none) ∧
      (∃ values, (ofNames names).answer? 5 = some values ∧ values.get? "P" = some true ∧
        values.get? "Q" = some false) ∧
      (ofNames names).answer? 8 = none ∧
      (∀ i, ((ofNames names).answer? i).isSome ↔ i < 8) ∧
      ∃! i, ∃ values, (ofNames ["P", "Q"]).answer? i = some values ∧
        ∀ name ∈ ["P", "Q"], values.get? name = some (name == "P") := by
  intro names
  obtain ⟨-, hrows, -, hcount, -⟩ := rows_enumerated names
  obtain ⟨values, hvalues, hrow⟩ := (hrows (by decide) 5).1 (by decide)
  have hp : values.get? "P" = some true :=
    (hrow.digit 2 "P" rfl (by decide)).trans (by decide)
  have hq : values.get? "Q" = some false :=
    (hrow.digit 1 "Q" rfl (by decide)).trans (by decide)
  exact ⟨(rows_enumerated []).1 rfl, ⟨values, hvalues, hp, hq⟩,
    (hrows (by decide) 8).2 (by decide), hcount 8 (by decide),
    (rows_enumerated ["P", "Q"]).2.2.1 (by decide) (by decide) (· == "P")⟩

end TruthTable

end Entailment
