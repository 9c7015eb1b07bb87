import Entailment.Formula.Valuation
import Entailment.Log

/-!
# Truth tables

A truth table runs through the valuations of a list of names row by row, like a counter in the
binary system: the first name has the most significant digit, false comes before true.  Rows are
made one at a time, so a table over many names can be used as long as few of its rows are.

* `TruthTable.rank_succ?` : the next digits are those of the next number;
* `TruthTable.remaining_of_next?` : every row taken leaves one row less.
-/

namespace Entailment

/-- A truth table with the digits of its next row; there are none after the last row. -/
structure TruthTable where
  /-- The names, with the most significant digit first. -/
  names : List String
  /-- The digits of the next row. -/
  digits? : Option (List Bool)
  deriving DecidableEq, Repr

namespace TruthTable

/-! ### Digits -/

/-- The digits after the given ones; the last digit changes fastest. -/
def succ? : List Bool → Option (List Bool)
  | [] => none
  | digit :: rest =>
    match succ? rest with
    | some next => some (digit :: next)
    | none => if digit then none else some (true :: List.replicate rest.length false)

/-- The number of rows over `n` names: each name doubles it. -/
def rowsOver : Nat → Nat
  | 0 => 1
  | n + 1 => 2 * rowsOver n

/-- The number with the given binary digits. -/
def rank : List Bool → Nat
  | [] => 0
  | digit :: rest => (if digit then rowsOver rest.length else 0) + rank rest

theorem rank_lt (digits : List Bool) : rank digits < rowsOver digits.length := by
  induction digits with
  | nil => simp [rank, rowsOver]
  | cons digit rest ih =>
    simp only [rank, List.length_cons, rowsOver]
    split <;> omega

theorem rank_replicate (n : Nat) : rank (List.replicate n false) = 0 := by
  induction n with
  | zero => rfl
  | succ n ih => simp [List.replicate_succ, rank, ih]

theorem length_of_succ? {digits next : List Bool} (h : succ? digits = some next) :
    next.length = digits.length := by
  induction digits generalizing next with
  | nil => simp [succ?] at h
  | cons digit rest ih =>
    simp only [succ?] at h
    split at h
    · next more hm => cases h; simp [ih hm]
    · split at h <;> cases h; simp

theorem rank_of_succ?_none {digits : List Bool} (h : succ? digits = none) :
    rank digits + 1 = rowsOver digits.length := by
  induction digits with
  | nil => rfl
  | cons digit rest ih =>
    simp only [succ?] at h
    split at h
    · cases h
    · next hm =>
      split at h
      · next hd =>
        have := ih hm
        simp only [rank, hd, if_true, List.length_cons, rowsOver]
        omega
      · cases h

theorem rank_succ? {digits next : List Bool} (h : succ? digits = some next) :
    rank next = rank digits + 1 := by
  induction digits generalizing next with
  | nil => simp [succ?] at h
  | cons digit rest ih =>
    simp only [succ?] at h
    split at h
    · next more hm =>
      cases h
      simp only [rank, ih hm, length_of_succ? hm]
      omega
    · next hm =>
      split at h
      · cases h
      · next hd =>
        cases h
        have := rank_of_succ?_none hm
        simp only [rank, rank_replicate, List.length_replicate, if_true, if_neg hd]
        omega

/-! ### Rows -/

/-- The table over the given names, before its first row.  Without names there are no rows. -/
def ofNames (names : List String) : TruthTable :=
  ⟨names, if names.isEmpty then none else some (List.replicate names.length false)⟩

/-- The number of rows of the whole table, if it is below `2 ^ 64`. -/
def rowCount? (t : TruthTable) : Option Nat :=
  if t.names.isEmpty then some 0
  else if t.names.length < 64 then some (rowsOver t.names.length)
  else none

/-- The row with the given digits; of a name that stands twice the last digit counts. -/
def row (names : List String) (digits : List Bool) : Valuation :=
  .ofList (names.zip digits)

/-- The next row, and the table after it. -/
def next? (t : TruthTable) : Option (Valuation × TruthTable) :=
  match t.digits? with
  | none => none
  | some digits => some (row t.names digits, { t with digits? := succ? digits })

/-- The number of rows that are left. -/
def remaining (t : TruthTable) : Nat :=
  match t.digits? with
  | none => 0
  | some digits => rowsOver digits.length - rank digits

theorem remaining_of_next? {t rest : TruthTable} {values : Valuation}
    (h : t.next? = some (values, rest)) : rest.remaining + 1 = t.remaining := by
  obtain ⟨names, digits?⟩ := t
  cases digits? with
  | none => simp [next?] at h
  | some digits =>
    simp only [next?, Option.some.injEq, Prod.mk.injEq] at h
    obtain ⟨-, rfl⟩ := h
    have hlt := rank_lt digits
    simp only [remaining]
    cases hs : succ? digits with
    | none =>
      have := rank_of_succ?_none hs
      simp only
      omega
    | some next =>
      simp only [rank_succ? hs, length_of_succ? hs]
      omega

/-- Leaves out up to `count` rows, and says how many there were. -/
def skip : Nat → TruthTable → Nat × TruthTable
  | 0, t => (0, t)
  | count + 1, t =>
    match t.next? with
    | none => (0, t)
    | some (_, rest) =>
      let (skipped, after) := skip count rest
      (skipped + 1, after)

/-- Takes up to `count` rows. -/
def take : Nat → TruthTable → List Valuation × TruthTable
  | 0, t => ([], t)
  | count + 1, t =>
    match t.next? with
    | none => ([], t)
    | some (values, rest) =>
      let (rows, after) := take count rest
      (values :: rows, after)

/-- Looks for the first row that `test` accepts, after the given records. -/
def searchAfter (test : Valuation → Logged Bool) (records : List Record) (t : TruthTable) :
    Logged (Option Valuation) :=
  match h : t.next? with
  | none => ⟨none, records⟩
  | some (values, rest) =>
    have : rest.remaining < t.remaining := by rw [← remaining_of_next? h]; omega
    let tested := test values
    if tested.value then ⟨some values, records ++ tested.records⟩
    else searchAfter test (records ++ tested.records) rest
termination_by t.remaining

/-- The first row that `test` accepts, with the records of all rows tested. -/
def search (t : TruthTable) (test : Valuation → Logged Bool) : Logged (Option Valuation) :=
  searchAfter test [] t

end TruthTable

end Entailment
