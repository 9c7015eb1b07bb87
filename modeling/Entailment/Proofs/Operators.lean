import Entailment.Proofs.Parsing

/-!
# Operators of parsed formulas

Between the two formulas in a bracket the reader takes any token as the operator, and it is left to
the comparison of neighbouring tokens to exclude those that are none.  That comparison admits the
three connectives, but not only them: a comma and a conclusion sign may stand wherever a connective
may, and after an atom an assignment sign and an opening bracket may as well.  All of these are read
as the conditional.

* `Formula.Spells` : derivations of formulas with a condition on the operators;
* `Formula.fits_and_derives_iff` : **what passes the comparison and derives a formula**, and so is
  parsed, is what spells it with admitted operators;
* `Formula.spells_connective_iff` : the operators are connectives exactly when no token can be taken
  for another one;
* `Formula.parse_eq_ok_iff_spells` : which texts are parsed as which formulas.
-/

namespace Entailment

open TokenLine

namespace Formula

/-! ### Derivations with a condition on the operators -/

/-- The tokens spell the formula, and `admits` accepts every operator after the formula on its
left. -/
inductive Spells (admits : Formula → Token → Prop) : List Token → Formula → Prop
  /-- An atom. -/
  | atom (name : String) : Spells admits [.atom name] (atom name)
  /-- A negation. -/
  | neg {used : List Token} {inner : Formula} (h : Spells admits used inner) :
    Spells admits (.neg :: used) (neg inner)
  /-- Two formulas in brackets, joined by the connective that the operator stands for. -/
  | join {operator : Token} {used more : List Token} {left right : Formula}
    (ho : admits left operator) (hl : Spells admits used left) (hr : Spells admits more right) :
    Spells admits (.opening :: (used ++ operator :: (more ++ [.closing])))
      (join operator left right)

/-- The operator is one of the three connectives. -/
def Connective (_left : Formula) (operator : Token) : Prop := operator ∈ [.conj, .disj, .imp]

/-- The kind of the last token of a formula. -/
def lastKind : Formula → Kind
  | atom _ => .atom
  | neg inner => inner.lastKind
  | conj _ _ | disj _ _ | imp _ _ => .closing

/-- The operator may stand after the formula on its left and before another formula. -/
def Admitted (left : Formula) (operator : Token) : Prop :=
  operator ∈ [.conj, .disj, .imp, .comma, .therefore] ∨
    left.lastKind = .atom ∧ operator ∈ [.assign, .opening]

theorem Spells.derives {admits : Formula → Token → Prop} {tokens : List Token} {f : Formula}
    (h : Spells admits tokens f) : Derives tokens f := by
  induction h with
  | atom name => exact .atom name
  | neg _ ih => exact .neg ih
  | join _ _ _ ihl ihr => exact .join _ ihl ihr

theorem Spells.mono {admits accepts : Formula → Token → Prop} {tokens : List Token} {f : Formula}
    (hle : ∀ left operator, admits left operator → accepts left operator)
    (h : Spells admits tokens f) : Spells accepts tokens f := by
  induction h with
  | atom name => exact .atom name
  | neg _ ih => exact .neg ih
  | join ho _ _ ihl ihr => exact .join (hle _ _ ho) ihl ihr

theorem Connective.admitted {left : Formula} {operator : Token} (h : Connective left operator) :
    Admitted left operator :=
  .inl (List.mem_append_left [Token.comma, .therefore] h)

/-! ### The ends of a formula -/

theorem lastKind_join (operator : Token) (left right : Formula) :
    (join operator left right).lastKind = .closing := by
  cases operator <;> rfl

theorem lastKind_eq (f : Formula) : f.lastKind = .atom ∨ f.lastKind = .closing := by
  induction f with
  | atom name => exact .inl rfl
  | neg inner ih => exact ih
  | conj | disj | imp => exact .inr rfl

theorem Derives.exists_head {tokens : List Token} {f : Formula} (h : Derives tokens f) :
    ∃ first ∈ tokens.head?, first.kind ∈ Kind.formulaStarts := by
  cases h with
  | atom name => exact ⟨.atom name, rfl, by simp [Token.kind, Kind.formulaStarts]⟩
  | neg h => exact ⟨.neg, rfl, by decide⟩
  | join => exact ⟨.opening, rfl, by decide⟩

theorem Derives.exists_getLast {tokens : List Token} {f : Formula} (h : Derives tokens f) :
    ∃ last ∈ tokens.getLast?, last.kind = f.lastKind := by
  induction h with
  | atom name => exact ⟨.atom name, rfl, rfl⟩
  | neg h ih =>
    obtain ⟨last, hlast, hkind⟩ := ih
    refine ⟨last, ?_, hkind⟩
    rw [Option.mem_def] at hlast ⊢
    rw [List.getLast?_cons, hlast, Option.getD_some]
  | join operator =>
    refine ⟨.closing, ?_, (lastKind_join operator _ _).symm⟩
    simp [List.getLast?_cons, List.getLast?_append]

/-- What may stand after a formula is an admitted operator or a closing bracket. -/
theorem lastKind_allows_iff (left : Formula) (operator : Token) :
    left.lastKind.allows operator.kind = true ↔ Admitted left operator ∨ operator = .closing := by
  rcases left.lastKind_eq with h | h <;>
    cases operator <;> simp [Admitted, h, Token.kind, Kind.allows, Kind.successors]

/-- A formula may stand after each of the admitted operators. -/
theorem Admitted.allows {left : Formula} {operator : Token} (h : Admitted left operator)
    {first : Token} (hf : first.kind ∈ Kind.formulaStarts) : operator.allows first = true := by
  have hall : ∀ operator ∈ [Token.conj, .disj, .imp, .comma, .therefore] ++ [.assign, .opening],
      ∀ next ∈ Kind.formulaStarts, operator.kind.allows next = true := by decide
  exact hall operator (List.mem_append.2 (h.imp_right And.right)) first.kind hf

/-! ### The comparison of neighbours -/

/-- Two formulas in brackets pass the comparison of neighbours when each of them does and the
operator is admitted: the brackets themselves fit around any formula. -/
theorem fits_join_iff {operator : Token} {used more : List Token} {left right : Formula}
    (hl : Derives used left) (hr : Derives more right) :
    Fits (.opening :: (used ++ operator :: (more ++ [.closing]))) ↔
      Fits used ∧ Fits more ∧ Admitted left operator := by
  obtain ⟨firstLeft, hfirstLeft, hstartLeft⟩ := hl.exists_head
  obtain ⟨lastLeft, hlastLeft, hendLeft⟩ := hl.exists_getLast
  obtain ⟨firstRight, hfirstRight, hstartRight⟩ := hr.exists_head
  obtain ⟨lastRight, hlastRight, hendRight⟩ := hr.exists_getLast
  rw [Option.mem_def] at hfirstLeft hlastLeft hfirstRight hlastRight
  have hopening : Token.opening.allows firstLeft = true := List.contains_iff_mem.2 hstartLeft
  have hclosing : lastRight.allows .closing = true := by
    rw [Token.allows, hendRight]
    exact (lastKind_allows_iff right .closing).2 (.inr rfl)
  have hbefore : lastLeft.allows operator = true ↔ Admitted left operator ∨ operator = .closing := by
    rw [Token.allows, hendLeft]
    exact lastKind_allows_iff left operator
  simp only [Fits, List.isChain_cons, List.isChain_append, List.head?_append, List.head?_cons,
    hfirstLeft, hlastLeft, hfirstRight, hlastRight, Option.some_or, Option.mem_some_iff, forall_eq',
    hopening, hclosing, hbefore]
  constructor
  · rintro ⟨-, hused, ⟨hafter, hmore, -⟩, hop⟩
    refine ⟨hused, hmore, hop.resolve_right ?_⟩
    -- no formula starts after a closing bracket
    rintro rfl
    have hall : ∀ next ∈ Kind.formulaStarts, Kind.closing.allows next = false := by decide
    exact Bool.false_ne_true ((hall _ hstartRight).symm.trans hafter)
  · rintro ⟨hused, hmore, hop⟩
    exact ⟨trivial, hused, ⟨hop.allows hstartRight, hmore, by simp⟩, .inl hop⟩

/-- **What passes the comparison and derives a formula** is what spells it with admitted
operators. -/
theorem fits_and_derives_iff {tokens : List Token} {f : Formula} :
    Fits tokens ∧ Derives tokens f ↔ Spells Admitted tokens f := by
  constructor
  · rintro ⟨hfits, hd⟩
    induction hd with
    | atom name => exact .atom name
    | neg _ ih => exact .neg (ih (List.isChain_cons.1 hfits).2)
    | join operator hl hr ihl ihr =>
      obtain ⟨hused, hmore, hop⟩ := (fits_join_iff hl hr).1 hfits
      exact .join hop (ihl hused) (ihr hmore)
  · intro h
    refine ⟨?_, h.derives⟩
    induction h with
    | atom name => exact .singleton _
    | neg h ih =>
      refine List.IsChain.cons ih fun first hfirst => ?_
      obtain ⟨start, hstart, hkind⟩ := h.derives.exists_head
      obtain rfl := Option.mem_unique hstart hfirst
      exact List.contains_iff_mem.2 hkind
    | join hop hl hr ihl ihr => exact (fits_join_iff hl.derives hr.derives).2 ⟨ihl, ihr, hop⟩

/-! ### Operators that are connectives -/

/-- The second token is no opening bracket that stands directly after an atom. -/
def Apart (first second : Token) : Prop := first.kind = .atom → second ≠ .opening

/-- No token can be taken for an operator that is no connective. -/
structure Unambiguous (tokens : List Token) : Prop where
  /-- There is no comma, no conclusion sign and no assignment sign. -/
  separators : ∀ token ∈ [Token.comma, .therefore, .assign], token ∉ tokens
  /-- No opening bracket stands directly after an atom. -/
  brackets : tokens.IsChain Apart

theorem Unambiguous.of_infix {tokens part : List Token} (h : Unambiguous tokens)
    (hp : part <:+: tokens) : Unambiguous part :=
  ⟨fun token ht hm => h.separators token ht (hp.subset hm), List.IsChain.infix h.brackets hp⟩

theorem Unambiguous.neg {used : List Token} (h : Unambiguous used) : Unambiguous (.neg :: used) := by
  refine ⟨fun token ht hm => ?_, h.brackets.cons fun next _ hkind => nomatch hkind⟩
  rcases List.mem_cons.1 hm with rfl | hm
  · simp at ht
  · exact h.separators token ht hm

theorem Connective.ne {left : Formula} {operator : Token} (h : Connective left operator) :
    operator ∉ [Token.comma, .therefore, .assign] ∧ operator ≠ .opening ∧ operator.kind ≠ .atom := by
  have hall : ∀ connective ∈ [Token.conj, .disj, .imp],
      connective ∉ [Token.comma, .therefore, .assign] ∧ connective ≠ .opening ∧
        connective.kind ≠ .atom := by decide
  exact hall operator h

/-- A connective and brackets add no token that can be taken for another operator. -/
theorem Unambiguous.join {operator : Token} {used more : List Token} {left : Formula}
    (ho : Connective left operator) (hl : Unambiguous used) (hr : Unambiguous more) :
    Unambiguous (.opening :: (used ++ operator :: (more ++ [.closing]))) := by
  obtain ⟨hsep, hopening, hatom⟩ := ho.ne
  refine ⟨fun token ht hm => ?_, ?_⟩
  · simp only [List.mem_cons, List.mem_append, List.not_mem_nil, or_false] at hm
    rcases hm with rfl | hm | rfl | hm | rfl
    · simp at ht
    · exact hl.separators token ht hm
    · exact hsep ht
    · exact hr.separators token ht hm
    · simp at ht
  · have hmore : (more ++ [Token.closing]).IsChain Apart :=
      hr.brackets.append (.singleton _) (by simp [Apart])
    have hright : (operator :: (more ++ [Token.closing])).IsChain Apart :=
      hmore.cons fun _ _ hkind => absurd hkind hatom
    refine (hl.brackets.append hright ?_).cons fun _ _ hkind => nomatch hkind
    intro last _ next hnext _
    obtain rfl := Option.mem_some_iff.1 hnext
    exact hopening

theorem Spells.unambiguous {tokens : List Token} {f : Formula} (h : Spells Connective tokens f) :
    Unambiguous tokens := by
  induction h with
  | atom name => exact ⟨by simp, .singleton _⟩
  | neg _ ih => exact ih.neg
  | join ho _ _ ihl ihr => exact .join ho ihl ihr

/-- Admitted operators are connectives where no token can be taken for another one. -/
theorem Spells.connective {tokens : List Token} {f : Formula} (h : Spells Admitted tokens f)
    (hu : Unambiguous tokens) : Spells Connective tokens f := by
  induction h with
  | atom name => exact .atom name
  | neg _ ih => exact .neg (ih (hu.of_infix ⟨[.neg], [], by simp⟩))
  | @join operator used more left right hop hl hr ihl ihr =>
    refine .join ?_ (ihl (hu.of_infix ⟨[.opening], operator :: (more ++ [.closing]), by simp⟩))
      (ihr (hu.of_infix ⟨.opening :: (used ++ [operator]), [.closing], by simp⟩))
    have hsep : operator ∉ [Token.comma, .therefore, .assign] :=
      fun ht => hu.separators operator ht (by simp)
    rcases hop with hop | ⟨hk, hop⟩
    · have hlists : operator ∈ [.conj, .disj, .imp] ++ [.comma, .therefore] := hop
      rcases List.mem_append.1 hlists with hop | hop
      · exact hop
      · exact absurd (List.mem_append_left [Token.assign] hop) hsep
    · rcases List.mem_pair.1 hop with rfl | rfl
      · exact absurd (by simp) hsep
      · -- the formula on the left ends in an atom, right before the bracket
        obtain ⟨last, hlast, hkind⟩ := hl.derives.exists_getLast
        have hchain := (List.isChain_cons.1 hu.brackets).2
        exact absurd rfl
          ((List.isChain_append.1 hchain).2.2 last hlast .opening rfl (hkind.trans hk))

theorem spells_connective_iff {tokens : List Token} {f : Formula} :
    Spells Connective tokens f ↔ Spells Admitted tokens f ∧ Unambiguous tokens :=
  ⟨fun h => ⟨h.mono fun _ _ => Connective.admitted, h.unambiguous⟩, fun h => h.1.connective h.2⟩

/-! ### Parsed formulas -/

theorem parse_eq_ok_iff_admitted {text : String} {f : Formula} :
    parse text = .ok f ↔ ∃ tokens, Token.scan text = .ok tokens ∧ Spells Admitted tokens f := by
  simp only [parse_eq_ok_iff, fits_and_derives_iff]

/-- What stands after a formula is an admitted operator or a closing bracket, if neighbours fit. -/
theorem admitted_of_fits {rest middle : List Token} {operator : Token} {left : Formula}
    (hfits : Fits rest) (h : ofTokens rest = .ok (left, operator :: middle)) :
    Admitted left operator ∨ operator = .closing := by
  obtain ⟨used, rfl, hd⟩ := exists_derives h
  obtain ⟨last, hlast, hkind⟩ := hd.exists_getLast
  have hallows := (List.isChain_append.1 hfits).2.2 last hlast operator rfl
  rw [Token.allows, hkind] at hallows
  exact (lastKind_allows_iff left operator).1 hallows

/-- **Which texts are parsed as which formulas.**  A text is parsed as a formula when its tokens
spell it with admitted operators.  They spell it with connectives only when moreover no token can be
taken for another operator.  As to the operator by itself: it is the token after the formula that
was read behind an opening bracket, and if neighbours fit it is admitted, or a closing bracket, after
which no formula is read. -/
theorem parse_eq_ok_iff_spells (text : String) (f : Formula) :
    (parse text = .ok f ↔ ∃ tokens, Token.scan text = .ok tokens ∧ Spells Admitted tokens f) ∧
    ((∃ tokens, Token.scan text = .ok tokens ∧ Spells Connective tokens f) ↔
      parse text = .ok f ∧ ∃ tokens, Token.scan text = .ok tokens ∧ Unambiguous tokens) ∧
    ∀ line before rest left operator middle,
      TokenLine.checkAdjacency line (before ++ .opening :: rest) = .ok () →
      ofTokens rest = .ok (left, operator :: middle) →
      Admitted left operator ∨ operator = .closing := by
  refine ⟨parse_eq_ok_iff_admitted, ?_, ?_⟩
  · simp only [parse_eq_ok_iff_admitted, spells_connective_iff]
    constructor
    · rintro ⟨tokens, hscan, h, hu⟩
      exact ⟨⟨tokens, hscan, h⟩, tokens, hscan, hu⟩
    · rintro ⟨⟨tokens, hscan, h⟩, scanned, hscanned, hu⟩
      rw [hscan, Except.ok.injEq] at hscanned
      subst hscanned
      exact ⟨tokens, hscan, h, hu⟩
  · intro line before rest left operator middle hcheck hread
    have hfits := ((checkAdjacency_eq_ok_iff line).1 hcheck).right_of_append
    exact admitted_of_fits (List.isChain_cons.1 hfits).2 hread

/-- In `(P, Q)` neighbours fit and the comma is taken as the operator, so it is admitted after
`P`. -/
theorem comma_taken_as_operator :
    let rest : List Token := [.atom "P", .comma, .atom "Q", .closing]
    TokenLine.checkAdjacency "(P, Q)" (.opening :: rest) = .ok () ∧
      ofTokens rest = .ok (.atom "P", .comma :: [.atom "Q", .closing]) ∧
      (Admitted (.atom "P") .comma ∨ Token.comma = .closing) := by
  intro rest
  have hcheck : TokenLine.checkAdjacency "(P, Q)" (.opening :: rest) = .ok () := by decide
  have hread : ofTokens rest = .ok (.atom "P", .comma :: [.atom "Q", .closing]) :=
    ofTokens_atom "P" _
  exact ⟨hcheck, hread, (parse_eq_ok_iff_spells "(P, Q)" (.atom "P")).2.2 "(P, Q)" [] rest _ _ _
    hcheck hread⟩

/-- The text `(P, Q)` has no derivation with connectives, and is parsed as the conditional of `P`
and `Q`: the comma is taken as its operator. -/
theorem parse_bracketed_comma :
    parse "(P, Q)" = .ok (.imp (.atom "P") (.atom "Q")) ∧
      ¬ ∃ tokens, Token.scan "(P, Q)" = .ok tokens ∧
        Spells Connective tokens (.imp (.atom "P") (.atom "Q")) := by
  refine ⟨by decide +kernel, ?_⟩
  rintro ⟨tokens, hscan, h⟩
  have htokens : Token.scan "(P, Q)" =
      .ok [.opening, .atom "P", .comma, .atom "Q", .closing] := by decide +kernel
  rw [htokens, Except.ok.injEq] at hscan
  subst hscan
  exact h.unambiguous.separators .comma (by simp) (by simp)

end Formula

end Entailment
