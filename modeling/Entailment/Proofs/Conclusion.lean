import Entailment.Argument.Verdict
import Entailment.Proofs.Body
import Entailment.Proofs.Operators

/-!
# What follows the conclusion

The conclusion is meant to close the body of an argument: a comma and a second conclusion sign are
refused after it.  A formula is not.  It is left to the comparison of neighbouring tokens to keep
formulas from standing there, and that comparison lets an opening bracket stand directly after an
atom.  So one premise can follow the conclusion: a formula in brackets, right after a conclusion
that ends in an atom.  Nothing else can.

* `Argument.Closed` : the premises stand before the conclusion, and only closing brackets after it;
* `Argument.Reopened` : the one way in which a premise stands after the conclusion;
* `Argument.Body.closing_run` : after a closing bracket only further ones are read;
* `Argument.parse_eq_ok_iff_closed_or_reopened` : **a text is parsed as an argument when its tokens
  fit and its body is closed or reopened**, and it is never both.
-/

namespace Entailment

open TokenLine

namespace Argument

/-- The tokens are premises in order, with commas and closing brackets passed over.  No conclusion
sign stands between them, unless a bracketed formula has taken it as its operator. -/
inductive Premises : List Token → List Formula → Prop
  /-- There are no more premises. -/
  | nil : Premises [] []
  /-- A closing bracket. -/
  | closing {rest : List Token} {fs : List Formula} (h : Premises rest fs) :
    Premises (.closing :: rest) fs
  /-- A comma. -/
  | comma {rest : List Token} {fs : List Formula} (h : Premises rest fs) :
    Premises (.comma :: rest) fs
  /-- A premise. -/
  | premise {used rest : List Token} {f : Formula} {fs : List Formula}
    (hf : Formula.Derives used f) (h : Premises rest fs) : Premises (used ++ rest) (f :: fs)

/-- The tokens are a body in which the conclusion comes last: every premise stands before the
conclusion sign, and after the conclusion there is nothing but closing brackets. -/
inductive Closed : List Token → Argument → Prop
  /-- There is no conclusion. -/
  | unconcluded {tokens : List Token} {premises : List Formula} (hp : Premises tokens premises) :
    Closed tokens ⟨premises, none⟩
  /-- The conclusion closes the body. -/
  | concluded {before used after : List Token} {premises : List Formula} {conclusion : Formula}
    (hp : Premises before premises) (hc : Formula.Derives used conclusion)
    (ha : ∀ token ∈ after, token = .closing) :
    Closed (before ++ .therefore :: (used ++ after)) ⟨premises, some conclusion⟩

/-- The tokens are a body with one more premise after the conclusion: a bracketed formula, directly
after the atom in which the conclusion ends.  Again only closing brackets follow. -/
inductive Reopened : List Token → Argument → Prop
  /-- The conclusion, the bracketed formula and the closing brackets. -/
  | intro {before used bracketed after : List Token} {premises : List Formula}
    {conclusion late : Formula} (hp : Premises before premises)
    (hc : Formula.Derives used conclusion) (hatom : conclusion.lastKind = .atom)
    (hl : Formula.Derives (.opening :: bracketed) late) (ha : ∀ token ∈ after, token = .closing) :
    Reopened (before ++ .therefore :: (used ++ (.opening :: bracketed ++ after)))
      ⟨premises ++ [late], some conclusion⟩

/-! ### Premises before the conclusion -/

/-- Premises are read in order, whatever follows them. -/
theorem Premises.readAfter_append {before : List Token} {fs : List Formula} (h : Premises before fs)
    (premises : List Formula) (rest : List Token) :
    readAfter ⟨premises, none⟩ (before ++ rest) = readAfter ⟨premises ++ fs, none⟩ rest := by
  induction h generalizing premises with
  | nil => rw [List.append_nil, List.nil_append]
  | closing _ ih => rw [List.cons_append, readAfter_closing, ih]
  | comma _ ih => rw [List.cons_append, readAfter_comma rfl, ih]
  | premise hf _ ih =>
    rw [List.append_assoc, readAfter_premise _ (Formula.ofTokens_of_derives hf _), addPremise, ih,
      List.append_assoc, List.singleton_append]

theorem Premises.readAfter_eq {before : List Token} {fs : List Formula} (h : Premises before fs) :
    readAfter empty before = .ok ⟨fs, none⟩ := by
  have hread := h.readAfter_append [] []
  rwa [List.append_nil, readAfter_nil, List.nil_append] at hread

/-- A conclusion that has been read stays. -/
theorem Body.conclusion_eq {a b : Argument} {tokens : List Token} {conclusion : Formula}
    (h : Body a tokens b) (hc : a.conclusion? = some conclusion) :
    b.conclusion? = some conclusion := by
  induction h with
  | done a => exact hc
  | closing _ ih => exact ih hc
  | comma hnone => simp [hc] at hnone
  | premise _ _ ih => exact ih hc
  | conclusion hnone => simp [hc] at hnone

/-- The token at which a formula starts is of a kind that formulas start with. -/
theorem kind_of_derives_append {used rest more : List Token} {f : Formula} {token : Token}
    (h : Formula.Derives used f) (heq : used ++ rest = token :: more) :
    token.kind ∈ Kind.formulaStarts := by
  obtain ⟨first, hfirst, hkind⟩ := h.exists_head
  rw [Option.mem_def] at hfirst
  have hhead := congrArg List.head? heq
  rw [List.head?_append, hfirst, Option.some_or, List.head?_cons, Option.some.injEq] at hhead
  rwa [← hhead]

/-- After a conclusion sign the conclusion is read. -/
theorem Body.exists_conclusion {a b : Argument} {rest : List Token}
    (h : Body a (.therefore :: rest) b) : ∃ conclusion, b.conclusion? = some conclusion := by
  generalize htokens : Token.therefore :: rest = tokens at h
  cases h with
  | done | closing | comma => cases htokens
  | premise hf => exact absurd (kind_of_derives_append hf htokens.symm) (by decide)
  | conclusion _ _ h => exact ⟨_, h.conclusion_eq rfl⟩

/-- A conclusion sign ends the premises: what is read with one has a conclusion. -/
theorem Premises.not_append_therefore {before rest : List Token} {fs gs : List Formula}
    (h : Premises before fs) : ¬ Premises (before ++ .therefore :: rest) gs := by
  intro hlong
  have hread : readAfter ⟨fs, none⟩ (.therefore :: rest) = .ok ⟨gs, none⟩ := by
    rw [← hlong.readAfter_eq, empty, h.readAfter_append, List.nil_append]
  obtain ⟨conclusion, hconclusion⟩ := (body_of_readAfter hread).exists_conclusion
  cases hconclusion

theorem Premises.eq_nil_of_append {before more rest rest' : List Token} {fs gs : List Formula}
    (h : Premises before fs) (hlong : Premises (before ++ more) gs)
    (heq : .therefore :: rest = more ++ .therefore :: rest') : more = [] := by
  cases more with
  | nil => rfl
  | cons token more =>
    rw [List.cons_append, List.cons.injEq] at heq
    obtain ⟨rfl, -⟩ := heq
    exact absurd hlong h.not_append_therefore

/-- The premises before a conclusion sign are determined by the tokens. -/
theorem Premises.eq_of_append_eq {before before' rest rest' : List Token} {fs gs : List Formula}
    (h : Premises before fs) (h' : Premises before' gs)
    (heq : before ++ .therefore :: rest = before' ++ .therefore :: rest') : fs = gs := by
  have hbefore : before = before' := by
    -- if one were longer, it would hold the conclusion sign that ends the other
    rcases List.append_eq_append_iff.1 heq with ⟨more, rfl, hmore⟩ | ⟨more, rfl, hmore⟩
    · rw [h.eq_nil_of_append h' hmore, List.append_nil]
    · rw [h'.eq_nil_of_append h hmore, List.append_nil]
  subst hbefore
  simpa using h.readAfter_eq.symm.trans h'.readAfter_eq

/-- A body without a conclusion so far has only premises to come, or premises and then the
conclusion. -/
theorem Body.split {a b : Argument} {tokens : List Token} (h : Body a tokens b)
    (hnone : a.conclusion? = none) :
    (∃ fs, Premises tokens fs ∧ b = ⟨a.premises ++ fs, none⟩) ∨
      ∃ before used after fs conclusion, tokens = before ++ .therefore :: (used ++ after) ∧
        Premises before fs ∧ Formula.Derives used conclusion ∧
        Body ⟨a.premises ++ fs, some conclusion⟩ after b := by
  induction h with
  | done a =>
    refine .inl ⟨[], .nil, ?_⟩
    rw [List.append_nil, ← hnone]
  | closing _ ih =>
    rcases ih hnone with ⟨fs, hfs, hb⟩ | ⟨before, used, after, fs, c, rfl, hfs, hc, hbody⟩
    · exact .inl ⟨fs, .closing hfs, hb⟩
    · exact .inr ⟨_, used, after, fs, c, rfl, .closing hfs, hc, hbody⟩
  | comma _ _ ih =>
    rcases ih hnone with ⟨fs, hfs, hb⟩ | ⟨before, used, after, fs, c, rfl, hfs, hc, hbody⟩
    · exact .inl ⟨fs, .comma hfs, hb⟩
    · exact .inr ⟨_, used, after, fs, c, rfl, .comma hfs, hc, hbody⟩
  | @premise a b first rest f hf _ ih =>
    have hassoc (fs : List Formula) : (a.addPremise f).premises ++ fs = a.premises ++ f :: fs := by
      simp [addPremise]
    rcases ih hnone with ⟨fs, hfs, hb⟩ | ⟨before, used, after, fs, c, rfl, hfs, hc, hbody⟩
    · exact .inl ⟨f :: fs, .premise hf hfs, by rw [hb, hassoc]⟩
    · refine .inr ⟨first ++ before, used, after, f :: fs, c, by simp, .premise hf hfs, hc, ?_⟩
      rwa [← hassoc]
  | @conclusion a b used rest f _ hf h _ =>
    refine .inr ⟨[], used, rest, [], f, rfl, .nil, hf, ?_⟩
    rwa [List.append_nil]

/-! ### Tokens after the conclusion -/

/-- After a closing bracket, and with the conclusion read, only closing brackets are read: no
formula may stand directly after one. -/
theorem Body.closing_run {a b : Argument} {tokens : List Token} {conclusion : Formula}
    (h : Body a tokens b) (hc : a.conclusion? = some conclusion)
    (hfits : Fits (.closing :: tokens)) : (∀ token ∈ tokens, token = .closing) ∧ b = a := by
  induction h with
  | done a => exact ⟨by simp, rfl⟩
  | closing _ ih =>
    obtain ⟨hall, rfl⟩ := ih hc (List.isChain_cons_cons.1 hfits).2
    exact ⟨List.forall_mem_cons.2 ⟨rfl, hall⟩, rfl⟩
  | comma hnone => simp [hc] at hnone
  | conclusion hnone => simp [hc] at hnone
  | premise hf =>
    obtain ⟨first, hfirst, hkind⟩ := hf.exists_head
    have hall : ∀ next ∈ Kind.formulaStarts, Kind.closing.allows next = false := by decide
    have hallows := (List.isChain_cons.1 hfits).1 first (by simp [Option.mem_def.1 hfirst])
    exact absurd ((hall _ hkind).symm.trans hallows) Bool.false_ne_true

/-- Of the tokens that formulas start with only an opening bracket may stand directly after a
formula, and the formula then ends in an atom. -/
theorem opening_of_allows {f : Formula} {token : Token} (hkind : token.kind ∈ Kind.formulaStarts)
    (h : f.lastKind.allows token.kind = true) : token = .opening ∧ f.lastKind = .atom := by
  rcases (Formula.lastKind_allows_iff f token).1 h with (hmem | ⟨hatom, hmem⟩) | rfl
  · have hall : ∀ token ∈ [Token.conj, .disj, .imp, .comma, .therefore],
        token.kind ∉ Kind.formulaStarts := by decide
    exact absurd hkind (hall token hmem)
  · rcases List.mem_pair.1 hmem with rfl | rfl
    · exact absurd hkind (by decide)
    · exact ⟨rfl, hatom⟩
  · exact absurd hkind (by decide)

theorem getLast?_of_derives_opening {bracketed : List Token} {f : Formula}
    (h : Formula.Derives (.opening :: bracketed) f) :
    Token.closing ∈ (Token.opening :: bracketed).getLast? := by
  generalize htokens : Token.opening :: bracketed = tokens at h
  cases h with
  | atom | neg => cases htokens
  | join => simp [List.getLast?_cons, List.getLast?_append]

theorem fits_cons_of_append {front rest : List Token} {last : Token} (h : Fits (front ++ rest))
    (hlast : last ∈ front.getLast?) : Fits (last :: rest) := by
  obtain ⟨-, hrest, hpair⟩ := List.isChain_append.1 h
  exact hrest.cons fun next hnext => hpair last hlast next hnext

/-- After the conclusion closing brackets are read, and before them at most one premise: a bracketed
formula directly after an atom. -/
theorem Body.after_conclusion {premises : List Formula} {conclusion : Formula} {b : Argument}
    {used after : List Token} (h : Body ⟨premises, some conclusion⟩ after b)
    (hc : Formula.Derives used conclusion) (hfits : Fits (used ++ after)) :
    ((∀ token ∈ after, token = .closing) ∧ b = ⟨premises, some conclusion⟩) ∨
      ∃ bracketed rest late, after = .opening :: bracketed ++ rest ∧ conclusion.lastKind = .atom ∧
        Formula.Derives (.opening :: bracketed) late ∧ (∀ token ∈ rest, token = .closing) ∧
        b = ⟨premises ++ [late], some conclusion⟩ := by
  cases h with
  | done => exact .inl ⟨by simp, rfl⟩
  | closing h =>
    obtain ⟨hall, rfl⟩ := h.closing_run rfl hfits.right_of_append
    exact .inl ⟨List.forall_mem_cons.2 ⟨rfl, hall⟩, rfl⟩
  | comma hnone => cases hnone
  | conclusion hnone => cases hnone
  | @premise _ _ front rest late hl h =>
    obtain ⟨first, hfirst, hkind⟩ := hl.exists_head
    obtain ⟨last, hlast, hlastKind⟩ := hc.exists_getLast
    have hallows : last.allows first = true :=
      (List.isChain_append.1 hfits).2.2 last hlast first (by simp [Option.mem_def.1 hfirst])
    rw [Token.allows, hlastKind] at hallows
    obtain ⟨rfl, hatom⟩ := opening_of_allows hkind hallows
    obtain ⟨bracketed, rfl⟩ := List.head?_eq_some_iff.1 hfirst
    -- the bracketed formula ends in a closing bracket, so nothing but closing brackets follows
    have hrest : Fits (.closing :: rest) :=
      fits_cons_of_append hfits.right_of_append (getLast?_of_derives_opening hl)
    obtain ⟨hall, rfl⟩ := h.closing_run rfl hrest
    exact .inr ⟨bracketed, rest, late, rfl, hatom, hl, hall, rfl⟩

/-! ### Closed and reopened bodies -/

/-- What is read from tokens that fit is closed or reopened. -/
theorem Body.closed_or_reopened {tokens : List Token} {a : Argument} (h : Body empty tokens a)
    (hfits : Fits tokens) : Closed tokens a ∨ Reopened tokens a := by
  rcases h.split rfl with ⟨fs, hfs, rfl⟩ | ⟨before, used, after, fs, c, rfl, hfs, hc, hbody⟩
  · exact .inl (.unconcluded hfs)
  · have hafter : Fits (used ++ after) := (List.isChain_cons.1 hfits.right_of_append).2
    rcases hbody.after_conclusion hc hafter with
      ⟨hall, rfl⟩ | ⟨bracketed, rest, late, rfl, hatom, hl, hall, rfl⟩
    · exact .inl (.concluded hfs hc hall)
    · exact .inr (.intro hfs hc hatom hl hall)

/-- Closing brackets at the end are passed over. -/
theorem readAfter_closings (a : Argument) {tokens : List Token}
    (h : ∀ token ∈ tokens, token = .closing) : readAfter a tokens = .ok a := by
  induction tokens with
  | nil => exact readAfter_nil a
  | cons token rest ih =>
    obtain ⟨rfl, hrest⟩ := List.forall_mem_cons.1 h
    rw [readAfter_closing, ih hrest]

theorem readAfter_concluded {before used rest : List Token} {premises : List Formula}
    {conclusion : Formula} (hp : Premises before premises)
    (hc : Formula.Derives used conclusion) :
    readAfter empty (before ++ .therefore :: (used ++ rest)) =
      readAfter ⟨premises, some conclusion⟩ rest := by
  rw [empty, hp.readAfter_append, List.nil_append,
    readAfter_conclusion rfl (Formula.ofTokens_of_derives hc rest), conclude]

/-- Closed and reopened bodies are read. -/
theorem ofTokens_of_closed_or_reopened {tokens : List Token} {a : Argument}
    (h : Closed tokens a ∨ Reopened tokens a) : ofTokens tokens = .ok a := by
  rcases h with h | h
  · cases h with
    | unconcluded hp => exact hp.readAfter_eq
    | concluded hp hc ha => rw [ofTokens, readAfter_concluded hp hc, readAfter_closings _ ha]
  · cases h with
    | intro hp hc _ hl ha =>
      rw [ofTokens, readAfter_concluded hp hc,
        readAfter_premise _ (Formula.ofTokens_of_derives hl _), addPremise,
        readAfter_closings _ ha]

/-- A reopened body is not closed: its last premise does not stand before the conclusion sign. -/
theorem Reopened.not_closed {tokens : List Token} {a : Argument} (h : Reopened tokens a) :
    ¬ Closed tokens a := by
  cases h with
  | @intro before used bracketed after premises conclusion late hp hc hatom hl ha =>
    intro hclosed
    generalize htokens : before ++ .therefore :: (used ++ (.opening :: bracketed ++ after)) = tokens
      at hclosed
    cases hclosed with
    | concluded hp' =>
      have hpremises := hp.eq_of_append_eq hp' htokens
      simp at hpremises

/-- **A text is parsed as an argument when its tokens fit and its body is closed or reopened.**  In
a closed body the conclusion comes last.  A reopened one is never closed: a premise stands after
its conclusion. -/
theorem parse_eq_ok_iff_closed_or_reopened (text : String) (a : Argument) :
    (parse text = .ok a ↔
      ∃ tokens, Token.scan text = .ok tokens ∧ Fits tokens ∧
        (Closed tokens a ∨ Reopened tokens a)) ∧
    ∀ tokens, Reopened tokens a → ¬ Closed tokens a := by
  refine ⟨?_, fun _ h => h.not_closed⟩
  rw [parse_eq_ok_iff]
  constructor
  · rintro ⟨tokens, hscan, hfits, hread⟩
    exact ⟨tokens, hscan, hfits, (body_of_readAfter hread).closed_or_reopened hfits⟩
  · rintro ⟨tokens, hscan, hfits, h⟩
    exact ⟨tokens, hscan, hfits, ofTokens_of_closed_or_reopened h⟩

/-- In `P ∴ ¬Q (Q ∧ R))` the bracket reopens the body, so the body is not closed. -/
theorem bracket_reopens_body :
    let a : Argument := ⟨[.atom "P", .conj (.atom "Q") (.atom "R")], some (.neg (.atom "Q"))⟩
    let tokens : List Token := [.atom "P", .therefore, .neg, .atom "Q", .opening, .atom "Q", .conj,
      .atom "R", .closing, .closing]
    Token.scan "P ∴ ¬Q (Q ∧ R))" = .ok tokens ∧ parse "P ∴ ¬Q (Q ∧ R))" = .ok a ∧
      Reopened tokens a ∧ ¬ Closed tokens a := by
  intro a tokens
  have hclosing : ∀ token ∈ [Token.closing], token = .closing := by simp
  have hreopened : Reopened tokens a :=
    .intro (.premise (.atom "P") .nil) (.neg (.atom "Q")) rfl
      (.join .conj (.atom "Q") (.atom "R")) hclosing
  exact ⟨by decide +kernel, by decide +kernel, hreopened,
    (parse_eq_ok_iff_closed_or_reopened "P ∴ ¬Q (Q ∧ R))" a).2 tokens hreopened⟩

/-- The text `P ∴ Q (Q ∧ R)` is parsed as an argument whose second premise stands after its
conclusion.  That premise makes the argument valid, which without it is not. -/
theorem parse_premise_after_conclusion :
    let a : Argument := ⟨[.atom "P", .conj (.atom "Q") (.atom "R")], some (.atom "Q")⟩
    parse "P ∴ Q (Q ∧ R)" = .ok a ∧
      (∃ tokens, Token.scan "P ∴ Q (Q ∧ R)" = .ok tokens ∧ ¬ Closed tokens a) ∧
      a.isValid = .ok true ∧ isValid ⟨[.atom "P"], some (.atom "Q")⟩ = .ok false := by
  intro a
  have hnothing : ∀ token ∈ ([] : List Token), token = .closing := by simp
  have hreopened : Reopened [.atom "P", .therefore, .atom "Q", .opening, .atom "Q", .conj,
      .atom "R", .closing] a :=
    .intro (.premise (.atom "P") .nil) (.atom "Q") rfl
      (.join .conj (.atom "Q") (.atom "R")) hnothing
  exact ⟨by decide +kernel, ⟨_, by decide +kernel, hreopened.not_closed⟩, by decide +kernel,
    by decide +kernel⟩

end Argument

end Entailment
