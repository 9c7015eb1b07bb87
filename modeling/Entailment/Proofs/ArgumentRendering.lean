import Entailment.Proofs.Body
import Entailment.Proofs.FormulaRendering
import Entailment.Proofs.Meaning

/-!
# Rendering arguments and parsing them again

The rendering of an argument lists the premises with commas between them, and the conclusion after
its sign.  As for formulas, its lexemes (`Argument.forms`) give its tokens (`Argument.tokens`), and
these are the items of a body that is the argument.  An argument that was parsed may have been
spelled in other ways, but its names are legal too.

* `Argument.body_tokens` : the tokens of the rendering are a body of the argument;
* `Argument.named_of_parse` : the names of a parsed argument are legal;
* `Argument.parse_rendered` : **an argument is parsed from its rendering**.
-/

namespace Entailment

open TokenLine

/-! ### Lists of formulas -/

namespace Formula

/-- The lexemes of formulas with commas between them. -/
def listedForms : Formula → List Formula → List Form
  | f, [] => f.forms
  | f, g :: rest => f.forms ++ .single ',' .comma :: .blank ' ' :: listedForms g rest

/-- The tokens of formulas with commas between them. -/
def listedTokens : Formula → List Formula → List Token
  | f, [] => f.tokens
  | f, g :: rest => f.tokens ++ .comma :: listedTokens g rest

theorem toList_intercalate_render {f : Formula} {rest : List Formula}
    (h : ∀ g ∈ f :: rest, g.Named) :
    (", ".intercalate ((f :: rest).map render)).toList = Form.spell (listedForms f rest) := by
  induction rest generalizing f with
  | nil =>
    rw [List.map_singleton, String.intercalate_singleton, listedForms]
    exact toList_render (h f List.mem_cons_self)
  | cons g rest ih =>
    obtain ⟨hf, hrest⟩ := List.forall_mem_cons.1 h
    have hg := ih hrest
    rw [List.map_cons] at hg
    rw [List.map_cons, List.map_cons, String.intercalate_cons_cons, String.toList_append,
      String.toList_append, hg, toList_render hf, listedForms]
    simp [Form.spell, Form.text]

theorem tokens_listedForms {f : Formula} {rest : List Formula} (h : ∀ g ∈ f :: rest, g.Named) :
    Form.tokens (listedForms f rest) = listedTokens f rest := by
  induction rest generalizing f with
  | nil => exact tokens_forms (h f List.mem_cons_self)
  | cons g rest ih =>
    obtain ⟨hf, hrest⟩ := List.forall_mem_cons.1 h
    rw [listedTokens, ← tokens_forms hf, ← ih hrest, listedForms]
    simp [Form.tokens, Form.token?, List.filterMap_cons]

theorem plain_listedForms (f : Formula) (rest : List Formula) :
    ∀ form ∈ listedForms f rest, form.Plain := by
  induction rest generalizing f with
  | nil => exact f.plain_forms
  | cons g rest ih =>
    simp only [listedForms, List.forall_mem_append, List.forall_mem_cons]
    exact ⟨f.plain_forms, trivial, trivial, ih g⟩

theorem closedForms_listedForms {f : Formula} {rest : List Formula}
    (h : ∀ g ∈ f :: rest, g.Named) : ClosedForms (listedForms f rest) := by
  induction rest generalizing f with
  | nil => exact closedForms_forms (h f List.mem_cons_self)
  | cons g rest ih =>
    obtain ⟨hf, hrest⟩ := List.forall_mem_cons.1 h
    intro after hw hafter
    have hnext : Form.WellFormed
        (.single ',' .comma :: .blank ' ' :: (listedForms g rest ++ after)) :=
      ⟨by decide, trivial, .inl rfl, trivial, ih hrest after hw hafter⟩
    simpa [listedForms] using closedForms_forms hf _ hnext (by simp [Form.spell, Form.text])

theorem exists_listedTokens_eq (f : Formula) (rest : List Formula) :
    ∃ more, listedTokens f rest = f.tokens ++ more := by
  cases rest with
  | nil => exact ⟨[], (List.append_nil _).symm⟩
  | cons g rest => exact ⟨_, rfl⟩

theorem closedTokens_listedTokens (f : Formula) (rest : List Formula) :
    ClosedTokens (listedTokens f rest) := by
  induction rest generalizing f with
  | nil => exact closedTokens_tokens f
  | cons g rest ih =>
    intro after h hafter
    obtain ⟨more, hmore⟩ := exists_listedTokens_eq g rest
    have hnext : Fits (.comma :: (g.tokens ++ (more ++ after))) := by
      refine fits_cons_tokens rfl g ?_
      rw [← List.append_assoc, ← hmore]
      exact ih g after h hafter
    rw [← List.append_assoc, ← hmore] at hnext
    simpa [listedTokens] using closedTokens_tokens f _ hnext (by simp; decide)

end Formula

namespace Argument

open Formula (listedForms listedTokens)

/-! ### The rendering of an argument -/

/-- The lexemes of a conclusion after its sign. -/
def concludingForms (conclusion : Formula) : List Form :=
  .single '∴' .therefore :: .blank ' ' :: conclusion.forms

/-- The lexemes of the rendering of an argument. -/
def forms : Argument → List Form
  | ⟨[], none⟩ => []
  | ⟨[], some conclusion⟩ => concludingForms conclusion
  | ⟨f :: rest, none⟩ => listedForms f rest
  | ⟨f :: rest, some conclusion⟩ =>
    listedForms f rest ++ .blank ' ' :: concludingForms conclusion

/-- The tokens of the rendering of an argument. -/
def tokens : Argument → List Token
  | ⟨[], none⟩ => []
  | ⟨[], some conclusion⟩ => .therefore :: conclusion.tokens
  | ⟨f :: rest, none⟩ => listedTokens f rest
  | ⟨f :: rest, some conclusion⟩ => listedTokens f rest ++ .therefore :: conclusion.tokens

/-- Every name of the argument is the name of an atom. -/
def Named (a : Argument) : Prop := ∀ name ∈ a.atoms, Name.isAtom name = true

theorem named_iff {a : Argument} : a.Named ↔ ∀ f ∈ a.formulas, f.Named := by
  constructor
  · intro h f hf name hn
    exact h name (List.mem_flatMap.2 ⟨f, hf, hn⟩)
  · intro h name hn
    obtain ⟨f, hf, hn⟩ := List.mem_flatMap.1 hn
    exact h f hf name hn

theorem Named.premises {a : Argument} (h : a.Named) : ∀ f ∈ a.premises, f.Named :=
  fun f hf => named_iff.1 h f (List.mem_append_left _ hf)

theorem Named.conclusion {premises : List Formula} {conclusion : Formula}
    (h : Named ⟨premises, some conclusion⟩) : conclusion.Named :=
  named_iff.1 h conclusion (List.mem_append_right _ List.mem_cons_self)

theorem tokens_concludingForms {conclusion : Formula} (h : conclusion.Named) :
    Form.tokens (concludingForms conclusion) = .therefore :: conclusion.tokens := by
  rw [← Formula.tokens_forms h]
  rfl

theorem plain_concludingForms (conclusion : Formula) :
    ∀ form ∈ concludingForms conclusion, form.Plain := by
  simp only [concludingForms, List.forall_mem_cons]
  exact ⟨trivial, trivial, conclusion.plain_forms⟩

theorem wellFormed_concludingForms {conclusion : Formula} (h : conclusion.Named) :
    Form.WellFormed (concludingForms conclusion) :=
  ⟨by decide, trivial, .inl rfl, trivial, (Formula.closedForms_forms h).wellFormed⟩

theorem toList_render {a : Argument} (h : a.Named) : a.render.toList = Form.spell a.forms := by
  obtain ⟨premises, conclusion?⟩ := a
  have hp := h.premises
  cases premises with
  | nil =>
    cases conclusion? with
    | none => rfl
    | some conclusion =>
      have hc := Formula.toList_render h.conclusion
      simp [render, forms, hc, Form.spell, Form.text, concludingForms]
  | cons f rest =>
    have hl := Formula.toList_intercalate_render hp
    cases conclusion? with
    | none => exact hl
    | some conclusion =>
      have hc := Formula.toList_render h.conclusion
      simp only [render, String.toList_append, hl, hc, forms]
      simp [Form.spell, Form.text, concludingForms]

theorem tokens_forms {a : Argument} (h : a.Named) : Form.tokens a.forms = a.tokens := by
  obtain ⟨premises, conclusion?⟩ := a
  have hp := h.premises
  cases premises with
  | nil =>
    cases conclusion? with
    | none => rfl
    | some conclusion => exact tokens_concludingForms h.conclusion
  | cons f rest =>
    have hl := Formula.tokens_listedForms hp
    cases conclusion? with
    | none => exact hl
    | some conclusion =>
      rw [tokens, ← hl, ← tokens_concludingForms h.conclusion, forms]
      simp [Form.tokens, Form.token?, List.filterMap_cons]

theorem plain_forms (a : Argument) : ∀ form ∈ a.forms, form.Plain := by
  obtain ⟨_ | ⟨f, rest⟩, _ | conclusion⟩ := a
  · exact fun form hm => absurd hm List.not_mem_nil
  · exact plain_concludingForms conclusion
  · exact f.plain_listedForms rest
  · simp only [forms, List.forall_mem_append, List.forall_mem_cons]
    exact ⟨f.plain_listedForms rest, trivial, plain_concludingForms conclusion⟩

/-! ### Rendered arguments are accepted -/

theorem wellFormed_forms {a : Argument} (h : a.Named) : Form.WellFormed a.forms := by
  obtain ⟨premises, conclusion?⟩ := a
  have hp := h.premises
  cases premises with
  | nil =>
    cases conclusion? with
    | none => trivial
    | some conclusion => exact wellFormed_concludingForms h.conclusion
  | cons f rest =>
    have hl := Formula.closedForms_listedForms hp
    cases conclusion? with
    | none => exact hl.wellFormed
    | some conclusion =>
      refine hl _ ⟨.inl rfl, trivial, wellFormed_concludingForms h.conclusion⟩ ?_
      simp [Form.spell, Form.text]

theorem fits_therefore (conclusion : Formula) : Fits (.therefore :: conclusion.tokens) := by
  have hfits : Fits (conclusion.tokens ++ []) := conclusion.closedTokens_tokens [] .nil (by simp)
  simpa using Formula.fits_cons_tokens rfl conclusion hfits

theorem fits_tokens (a : Argument) : Fits a.tokens := by
  obtain ⟨_ | ⟨f, rest⟩, _ | conclusion⟩ := a
  · exact .nil
  · exact fits_therefore conclusion
  · exact (f.closedTokens_listedTokens rest).fits
  · exact f.closedTokens_listedTokens rest _ (fits_therefore conclusion) (by simp; decide)

/-- Premises with commas between them are read in order. -/
theorem body_listedTokens {a b : Argument} (hc : a.conclusion? = none) {f : Formula}
    {rest : List Formula} {after : List Token}
    (h : Body { a with premises := a.premises ++ f :: rest } after b) :
    Body a (listedTokens f rest ++ after) b := by
  induction rest generalizing a f with
  | nil => exact .premise f.derives_tokens h
  | cons g rest ih =>
    rw [listedTokens, List.append_assoc, List.cons_append]
    have hrest : Body (a.addPremise f) (listedTokens g rest ++ after) b :=
      ih (a := a.addPremise f) hc (by simpa [addPremise] using h)
    exact .premise f.derives_tokens (.comma hc hrest)

theorem body_therefore {a b : Argument} (hc : a.conclusion? = none) {conclusion : Formula}
    (h : a.conclude conclusion = b) : Body a (.therefore :: conclusion.tokens) b := by
  subst h
  simpa using Body.conclusion hc conclusion.derives_tokens (.done (a.conclude conclusion))

/-- The tokens of the rendering are a body of the argument. -/
theorem body_tokens (a : Argument) : Body empty a.tokens a := by
  obtain ⟨_ | ⟨f, rest⟩, _ | conclusion⟩ := a
  · exact .done _
  · exact body_therefore rfl rfl
  · rw [tokens, ← List.append_nil (listedTokens f rest)]
    exact body_listedTokens rfl (.done _)
  · exact body_listedTokens rfl (body_therefore rfl rfl)

/-! ### The round trip -/

/-- An argument with legal names is parsed from its rendering. -/
theorem parse_render_of_named {a : Argument} (h : a.Named) : parse a.render = .ok a := by
  refine parse_eq_ok_iff.2 ⟨a.tokens, ?_, a.fits_tokens, readAfter_of_body a.body_tokens⟩
  rw [← tokens_forms h]
  exact Form.scan_of_plain (wellFormed_forms h) a.plain_forms (toList_render h)

theorem Named.addPremise {a : Argument} (h : a.Named) {f : Formula} (hf : f.Named) :
    (a.addPremise f).Named := by
  refine named_iff.2 fun g hg => ?_
  rw [formulas, Argument.addPremise, List.append_assoc, List.mem_append] at hg
  rcases hg with hg | hg
  · exact h.premises g hg
  · rcases List.mem_cons.1 hg with rfl | hg
    · exact hf
    · exact named_iff.1 h g (List.mem_append_right _ hg)

theorem Named.conclude {a : Argument} (h : a.Named) {f : Formula} (hf : f.Named) :
    (a.conclude f).Named := by
  refine named_iff.2 fun g hg => ?_
  rcases List.mem_append.1 hg with hg | hg
  · exact h.premises g hg
  · obtain rfl := List.mem_singleton.1 hg
    exact hf

/-- A body whose atoms have legal names adds formulas with legal names. -/
theorem Body.named {a b : Argument} {tokens : List Token} (h : Body a tokens b)
    (ht : ∀ name, Token.atom name ∈ tokens → Name.isAtom name = true) (ha : a.Named) :
    b.Named := by
  induction h with
  | done a => exact ha
  | closing _ ih | comma _ _ ih =>
    exact ih (fun name hn => ht name (List.mem_cons_of_mem _ hn)) ha
  | premise hf _ ih =>
    refine ih (fun name hn => ht name (List.mem_append_right _ hn)) (ha.addPremise ?_)
    exact fun name hn => ht name (List.mem_append_left _ (hf.mem_of_mem_atoms hn))
  | conclusion _ hf _ ih =>
    refine ih (fun name hn => ht name (List.mem_cons_of_mem _ (List.mem_append_right _ hn)))
      (ha.conclude ?_)
    exact fun name hn =>
      ht name (List.mem_cons_of_mem _ (List.mem_append_left _ (hf.mem_of_mem_atoms hn)))

/-- The names of a parsed argument are legal. -/
theorem named_of_parse {text : String} {a : Argument} (h : parse text = .ok a) : a.Named := by
  obtain ⟨tokens, hscan, -, hr⟩ := parse_eq_ok_iff.1 h
  refine (body_of_readAfter hr).named (fun name hn => Form.isAtom_of_mem_scan hscan hn) ?_
  exact fun name hn => absurd hn List.not_mem_nil

/-- **An argument is parsed from its rendering**, if every name in it is the name of an atom, and
whenever it was parsed itself, from whatever text. -/
theorem parse_rendered (a : Argument) :
    ((∀ name ∈ a.atoms, Name.isAtom name = true) → parse a.render = .ok a) ∧
    ∀ text, parse text = .ok a → parse a.render = .ok a :=
  ⟨parse_render_of_named, fun _ h => parse_render_of_named (named_of_parse h)⟩

/-- A text with a comma too many and one too few, stray brackets and a comment is an argument with
legal names, which is parsed again from its rendering.  So is the empty argument. -/
theorem parse_rendered_modus_ponens :
    let a : Argument := ⟨[.atom "P", .imp (.atom "P") (.atom "Q")], some (.atom "Q")⟩
    (∀ name ∈ a.atoms, Name.isAtom name = true) ∧
      parse ", P (P -> Q)) therefore Q) // stray" = .ok a ∧ parse a.render = .ok a ∧
      a.render = "P, (P → Q) ∴ Q" ∧ parse empty.render = .ok empty := by
  intro a
  have hnamed : ∀ name ∈ a.atoms, Name.isAtom name = true := by decide
  have hparse : parse ", P (P -> Q)) therefore Q) // stray" = .ok a := by decide +kernel
  exact ⟨hnamed, hparse, (parse_rendered a).2 _ hparse, by decide,
    (parse_rendered empty).1 (by decide)⟩

end Argument

end Entailment
