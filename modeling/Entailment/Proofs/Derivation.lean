import Entailment.Formula.Reader
import Mathlib.Tactic.Common

/-!
# Derivations of formulas

Which tokens spell a formula is said by derivations (`Formula.Derives`): an atom, a sign before a
formula, or two formulas with one token between them in brackets.  The reader of formulas finds
the derivation at the start of the tokens, if there is one:

* `Formula.ofTokens_of_derives` : tokens that derive a formula are read as this formula, whatever
  follows them;
* `Formula.exists_derives` : a formula that is read is derived by the tokens taken for it.
-/

namespace Entailment

namespace Formula

/-- The tokens spell the formula.  Any token may stand in the place of the operator. -/
inductive Derives : List Token → Formula → Prop
  /-- An atom. -/
  | atom (name : String) : Derives [.atom name] (atom name)
  /-- A negation. -/
  | neg {used : List Token} {inner : Formula} (h : Derives used inner) :
    Derives (.neg :: used) (neg inner)
  /-- Two formulas in brackets, joined by the connective that the operator stands for. -/
  | join (operator : Token) {used more : List Token} {left right : Formula}
    (hl : Derives used left) (hr : Derives more right) :
    Derives (.opening :: (used ++ operator :: (more ++ [.closing]))) (join operator left right)

theorem atoms_join (operator : Token) (left right : Formula) :
    (join operator left right).atoms = left.atoms ++ right.atoms := by
  cases operator <;> rfl

/-- The atoms of a formula are the atoms among its tokens. -/
theorem Derives.mem_of_mem_atoms {tokens : List Token} {f : Formula} (h : Derives tokens f)
    {name : String} (hn : name ∈ f.atoms) : Token.atom name ∈ tokens := by
  induction h with
  | atom other =>
    obtain rfl := List.mem_singleton.1 hn
    exact List.mem_singleton_self _
  | neg _ ih => exact List.mem_cons_of_mem _ (ih hn)
  | join operator _ _ ihl ihr =>
    rw [atoms_join, List.mem_append] at hn
    rcases hn with hn | hn
    · simp [ihl hn]
    · simp [ihr hn]

/-- Tokens that derive a formula are read as this formula. -/
theorem ofTokens_of_derives {tokens : List Token} {f : Formula} (h : Derives tokens f)
    (rest : List Token) : ofTokens (tokens ++ rest) = .ok (f, rest) := by
  induction h generalizing rest with
  | atom name => exact ofTokens_atom name rest
  | neg _ ih => rw [List.cons_append, ofTokens_neg, ih]
  | join operator _ _ ihl ihr =>
    rw [List.cons_append, List.append_assoc, ofTokens_opening, ihl, List.cons_append,
      List.append_assoc, List.singleton_append]
    simp [ihr]

/-- No formula starts with any other token. -/
theorem ofTokens_of_not_start {token : Token}
    (h : ¬ ((∃ name, token = .atom name) ∨ token = .neg ∨ token = .opening))
    (rest : List Token) : ofTokens (token :: rest) = .error (.unexpected token rest) := by
  simp only [not_or, not_exists] at h
  obtain ⟨hatom, hneg, hopening⟩ := h
  rw [ofTokens, read]
  · rfl
  all_goals assumption

/-- A formula starts with an atom, a negation sign or an opening bracket. -/
theorem start_of_ofTokens_eq_ok {token : Token} {after rest : List Token} {f : Formula}
    (h : ofTokens (token :: after) = .ok (f, rest)) :
    (∃ name, token = .atom name) ∨ token = .neg ∨ token = .opening := by
  by_contra hstart
  rw [ofTokens_of_not_start hstart] at h
  cases h

theorem ofTokens_neg_eq_ok {after rest : List Token} {f : Formula}
    (h : ofTokens (.neg :: after) = .ok (f, rest)) :
    ∃ inner, ofTokens after = .ok (inner, rest) ∧ f = neg inner := by
  rw [ofTokens_neg] at h
  cases hi : ofTokens after with
  | error halt => simp [hi] at h
  | ok result =>
    obtain ⟨inner, more⟩ := result
    simp only [hi] at h
    cases h
    exact ⟨inner, rfl, rfl⟩

theorem ofTokens_opening_eq_ok {after rest : List Token} {f : Formula}
    (h : ofTokens (.opening :: after) = .ok (f, rest)) :
    ∃ left operator middle right, ofTokens after = .ok (left, operator :: middle) ∧
      ofTokens middle = .ok (right, .closing :: rest) ∧ f = join operator left right := by
  rw [ofTokens_opening] at h
  rcases hl : ofTokens after with halt | ⟨left, _ | ⟨operator, middle⟩⟩
  · simp [hl] at h
  · simp [hl] at h
  · simp only [hl] at h
    rcases hr : ofTokens middle with halt | ⟨right, _ | ⟨last, more⟩⟩
    · simp [hr] at h
    · simp [hr] at h
    · simp only [hr] at h
      split_ifs at h with hlast
      cases h
      exact ⟨left, operator, middle, right, rfl, hlast ▸ hr, rfl⟩

/-- A formula that is read is derived by the tokens taken for it. -/
theorem exists_derives {tokens rest : List Token} {f : Formula}
    (h : ofTokens tokens = .ok (f, rest)) : ∃ used, tokens = used ++ rest ∧ Derives used f := by
  -- both sides of a connective are read from fewer tokens
  induction hn : tokens.length using Nat.strongRecOn generalizing tokens rest f with
  | ind n ih =>
    subst hn
    cases tokens with
    | nil => simp at h
    | cons token after =>
      rcases start_of_ofTokens_eq_ok h with ⟨name, rfl⟩ | rfl | rfl
      · rw [ofTokens_atom] at h
        cases h
        exact ⟨[.atom name], rfl, .atom name⟩
      · obtain ⟨inner, hi, rfl⟩ := ofTokens_neg_eq_ok h
        obtain ⟨used, rfl, hused⟩ := ih _ (by simp) hi rfl
        exact ⟨.neg :: used, rfl, .neg hused⟩
      · obtain ⟨left, operator, middle, right, hl, hr, rfl⟩ := ofTokens_opening_eq_ok h
        obtain ⟨used, rfl, hused⟩ := ih _ (by simp) hl rfl
        obtain ⟨more, rfl, hmore⟩ := ih _ (by simp; omega) hr rfl
        exact ⟨.opening :: (used ++ operator :: (more ++ [.closing])), by simp,
          .join operator hused hmore⟩

end Formula

end Entailment
