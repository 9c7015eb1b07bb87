import Entailment.Argument.Reader
import Entailment.Proofs.Derivation

/-!
# Bodies of arguments

The body of an argument is read item by item: closing brackets and commas are passed over, a formula
is a premise, and a formula after the conclusion sign is the conclusion.  `Argument.Body` says so
as a relation between what was read before, the tokens, and what has been read in the end.

* `Argument.readAfter_of_body` : tokens that are items are read;
* `Argument.body_of_readAfter` : nothing else is read.
-/

namespace Entailment

namespace Argument

/-- From `a`, the tokens are items that lead to the last argument. -/
inductive Body : Argument → List Token → Argument → Prop
  /-- The end of the body. -/
  | done (a : Argument) : Body a [] a
  /-- A closing bracket, which is passed over. -/
  | closing {a b : Argument} {rest : List Token} (h : Body a rest b) : Body a (.closing :: rest) b
  /-- A comma, which is passed over before the conclusion. -/
  | comma {a b : Argument} {rest : List Token} (hc : a.conclusion? = none) (h : Body a rest b) :
    Body a (.comma :: rest) b
  /-- A premise. -/
  | premise {a b : Argument} {used rest : List Token} {f : Formula} (hf : Formula.Derives used f)
    (h : Body (a.addPremise f) rest b) : Body a (used ++ rest) b
  /-- The conclusion, if there is none before. -/
  | conclusion {a b : Argument} {used rest : List Token} {f : Formula}
    (hc : a.conclusion? = none) (hf : Formula.Derives used f) (h : Body (a.conclude f) rest b) :
    Body a (.therefore :: (used ++ rest)) b

/-! ### One item at a time -/

theorem read_of_ofTokens {tokens rest : List Token} {f : Formula}
    (h : Formula.ofTokens tokens = .ok (f, rest)) :
    ∃ hlt, Formula.read tokens = .ok (f, ⟨rest, hlt⟩) := by
  rw [Formula.ofTokens] at h
  cases hr : Formula.read tokens with
  | error halt =>
    rw [hr] at h
    cases h
  | ok result =>
    obtain ⟨g, after, hlt⟩ := result
    rw [hr] at h
    cases h
    exact ⟨hlt, rfl⟩

theorem ofTokens_of_read {tokens rest : List Token} {f : Formula}
    {hlt : rest.length < tokens.length} (h : Formula.read tokens = .ok (f, ⟨rest, hlt⟩)) :
    Formula.ofTokens tokens = .ok (f, rest) := by
  rw [Formula.ofTokens, h]
  rfl

theorem readAfter_nil (a : Argument) : readAfter a [] = .ok a := by rw [readAfter]

theorem readAfter_closing (a : Argument) (rest : List Token) :
    readAfter a (.closing :: rest) = readAfter a rest := by rw [readAfter]

theorem readAfter_comma {a : Argument} (hc : a.conclusion? = none) (rest : List Token) :
    readAfter a (.comma :: rest) = readAfter a rest := by
  rw [readAfter, if_neg (by simp [hc])]

theorem readAfter_premise (a : Argument) {tokens rest : List Token} {f : Formula}
    (h : Formula.ofTokens tokens = .ok (f, rest)) :
    readAfter a tokens = readAfter (a.addPremise f) rest := by
  obtain ⟨hlt, hr⟩ := read_of_ofTokens h
  cases tokens with
  | nil => simp at h
  | cons token after =>
    rcases Formula.start_of_ofTokens_eq_ok h with ⟨name, rfl⟩ | rfl | rfl
    all_goals
      rw [readAfter, hr]
      all_goals simp

theorem readAfter_conclusion {a : Argument} (hc : a.conclusion? = none)
    {tokens rest : List Token} {f : Formula} (h : Formula.ofTokens tokens = .ok (f, rest)) :
    readAfter a (.therefore :: tokens) = readAfter (a.conclude f) rest := by
  obtain ⟨hlt, hr⟩ := read_of_ofTokens h
  rw [readAfter, if_neg (by simp [hc]), hr]

/-! ### Whole bodies -/

/-- Items are read one after the other. -/
theorem readAfter_of_body {a b : Argument} {tokens : List Token} (h : Body a tokens b) :
    readAfter a tokens = .ok b := by
  induction h with
  | done a => exact readAfter_nil a
  | closing _ ih => rw [readAfter_closing, ih]
  | comma hc _ ih => rw [readAfter_comma hc, ih]
  | premise hf _ ih => rw [readAfter_premise _ (Formula.ofTokens_of_derives hf _), ih]
  | conclusion hc hf _ ih =>
    rw [readAfter_conclusion hc (Formula.ofTokens_of_derives hf _), ih]

/-- What is read as the body of an argument consists of items. -/
theorem body_of_readAfter {a b : Argument} {tokens : List Token}
    (h : readAfter a tokens = .ok b) : Body a tokens b := by
  fun_induction readAfter a tokens with
  | case1 a =>
    cases h
    exact .done _
  | case2 a rest ih => exact .closing (ih h)
  | case3 a rest hc => cases h
  | case4 a rest hc ih => exact .comma (by simpa using hc) (ih h)
  | case5 a rest hc => cases h
  | case6 a rest hc halt hr => cases h
  | case7 a rest hc f after hlt hr ih =>
    obtain ⟨used, rfl, hd⟩ := Formula.exists_derives (ofTokens_of_read hr)
    exact .conclusion (by simpa using hc) hd (ih h)
  | case8 => cases h
  | case9 a token rest _ _ _ f after hlt hr ih =>
    obtain ⟨used, htokens, hd⟩ := Formula.exists_derives (ofTokens_of_read hr)
    rw [htokens]
    exact .premise hd (ih h)

end Argument

end Entailment
