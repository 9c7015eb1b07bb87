import Entailment.Proofs.FormulaRendering
import Entailment.Proofs.Precedence

/-!
# The names of atoms

The atoms of a line are found by the scanner, which goes on as long as the characters belong to a
name and then looks at what follows.  The atoms of a schema are quoted texts, and whether such a
text is a name is asked of the text as a whole (`Name.isAtom`).  Formulas come from both, so both
have to mean the same by a name: otherwise a schema could give formulas that no text spells.

* `Name.isAtom_iff_capital` : the characters of a name;
* `Token.scan_of_isAtom` : the scanner takes a name for one atom, and this atom has the name;
* `Schema.ofPieces_quoted` : a quoted text by itself is a schema if it is a name;
* `Name.isAtom_iff_scan` : **a text is a name exactly when it is scanned as the atom of that name**.
-/

namespace Entailment

namespace Name

/-- A name is a capital letter, and after it capital letters, digits, underscores and primes. -/
theorem isAtom_iff_capital {name : String} :
    isAtom name = true ↔ ∃ first tail, name.toList = first :: tail ∧ Capital first ∧
      ∀ c ∈ tail, Capital c ∨ Digit c ∨ c = '_' ∨ c = '\x27' := by
  rw [isAtom]
  cases name.toList with
  | nil => simp
  | cons first tail => simp [isUpper_iff, continuesAtom_iff]

end Name

/-- The scanner takes a name for one atom, and this atom has the name. -/
theorem Token.scan_of_isAtom {name : String} (h : Name.isAtom name = true) :
    Token.scan name = .ok [.atom name] := by
  have hlegal : (Form.ofName name).Legal := (Form.isAtom_iff.1 h).2
  -- nothing follows the name, so nothing has to separate it from what follows
  have hw : Form.WellFormed [Form.ofName name] := ⟨hlegal, by simp [Form.ofName, Form.MayPrecede,
    Form.spell], trivial⟩
  have hplain : ∀ form ∈ [Form.ofName name], form.Plain := by simp [Form.ofName, Form.Plain]
  have htext : name.toList = Form.spell [Form.ofName name] := by
    simp [Form.spell, Form.text_ofName h]
  rw [Form.scan_of_plain hw hplain htext, Form.tokens, List.filterMap_cons, Form.token?_ofName h]
  rfl

/-- A quoted text by itself is the schema of an atom if it is a name, and is refused if not. -/
theorem Schema.ofPieces_quoted (text : String) :
    Schema.ofPieces [.quoted text] =
      if Name.isAtom text then .ok (.atom text) else .error .atomName := by
  by_cases h : Name.isAtom text = true
  · rw [if_pos h, ofPieces_eq_ok_iff_readImp, readImp_eq_ok_iff]
    exact .atom h
  · rw [if_neg h, ofPieces, readImp, readDisj, readConj, readNeg, if_neg h]

namespace Name

/-- **A text is a name exactly when it is scanned as the atom of that name.**  The same texts are
accepted between quotes as the atoms of schemas, and they consist of the letters `A` to `Z`, the
digits `0` to `9`, underscores and primes, with a letter at the front. -/
theorem isAtom_iff_scan (text : String) :
    (isAtom text = true ↔ Token.scan text = .ok [.atom text]) ∧
    (Schema.ofPieces [.quoted text] = .ok (.atom text) ↔ Token.scan text = .ok [.atom text]) ∧
    (Token.scan text = .ok [.atom text] ↔
      ∃ first tail, text.toList = first :: tail ∧ Capital first ∧
        ∀ c ∈ tail, Capital c ∨ Digit c ∨ c = '_' ∨ c = '\x27') := by
  have hscan : isAtom text = true ↔ Token.scan text = .ok [.atom text] := by
    constructor
    · exact Token.scan_of_isAtom
    · intro h
      exact Form.isAtom_of_mem_scan h (List.mem_singleton_self _)
  refine ⟨hscan, ?_, ?_⟩
  · rw [← hscan, Schema.ofPieces_quoted]
    by_cases h : isAtom text = true <;> simp [h]
  · rw [← hscan, isAtom_iff_capital]

-- one atom is scanned from each of these texts, but it has the name of the first one
example : ["P\x27", "\tP\x27 ", "P\x27 // Q"].map Token.scan =
    List.replicate 3 (.ok [.atom "P\x27"]) := by decide +kernel

end Name

end Entailment
