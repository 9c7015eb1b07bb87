import Entailment.Proofs.LexicalGrammar
import Entailment.Proofs.Parsing

/-!
# Rendering formulas and parsing them again

The rendering of a formula is a concatenation of lexemes (`Formula.forms`) whose tokens derive the
formula (`Formula.tokens`).  Texts without quotes and keywords, such as this one, have no comment,
so they are scanned as they stand.

* `Form.scan_of_plain` : lexemes without quotes and keywords are scanned as they stand;
* `Formula.closedForms_forms`, `Formula.closedTokens_tokens` : the lexemes and the tokens of a
  rendering may stand where a formula may;
* `Formula.parse_render` : **a formula is parsed from its rendering**, if its names are legal, and
  the names of a parsed formula are.
-/

namespace Entailment

open TokenLine

/-! ### Plain lexemes -/

namespace Comment

/-- A text without slashes has no comment. -/
theorem cut_of_not_mem {text : List Char} (h : '/' ∉ text) (quoted : Bool) :
    cut quoted text = text := by
  induction text generalizing quoted with
  | nil => rfl
  | cons c rest ih =>
    have hc : c ≠ '/' := fun heq => h (heq ▸ List.mem_cons_self)
    rw [cut, if_neg (by simp [hc]), ih fun hmem => h (List.mem_cons_of_mem _ hmem)]

end Comment

namespace Form

/-- Lexemes other than quoted texts. -/
def Unquoted : Form → Prop
  | quoted _ => False
  | _ => True

/-- Lexemes other than quoted texts and keywords. -/
def Plain : Form → Prop
  | quoted _ | keyword _ _ => False
  | _ => True

theorem legal_of_mem {forms : List Form} (hw : WellFormed forms) {form : Form}
    (hm : form ∈ forms) : form.Legal := by
  induction forms with
  | nil => cases hm
  | cons head rest ih =>
    rcases List.mem_cons.1 hm with rfl | hm
    · exact hw.1
    · exact ih hw.2.2 hm

/-- The characters that names, keywords, blanks and symbols of two characters are made of. -/
def Ordinary (c : Char) : Prop :=
  Name.Blank c ∨ Name.Capital c ∨ Name.Small c ∨ Name.Digit c ∨ c ∈ ['_', '\x27'] ∨
    c ∈ Token.doubles.flatMap fun entry => [entry.1, entry.2.1]

instance : DecidablePred Ordinary := fun _ => inferInstanceAs (Decidable (_ ∨ _))

theorem ordinary_or_single {form : Form} (hl : form.Legal) (hq : form.Unquoted) {c : Char}
    (hc : c ∈ form.text) : Ordinary c ∨ ∃ token, form = single c token := by
  cases form with
  | blank d =>
    obtain rfl := List.mem_singleton.1 hc
    exact .inl (.inl hl)
  | quoted inside => exact hq.elim
  | single d token =>
    obtain rfl := List.mem_singleton.1 hc
    exact .inr ⟨token, rfl⟩
  | double d e token =>
    have hmem : c ∈ Token.doubles.flatMap fun entry => [entry.1, entry.2.1] :=
      List.mem_flatMap.2 ⟨_, hl, hc⟩
    simp only [Ordinary, hmem, or_true, true_or]
  | atom first tail =>
    refine .inl ?_
    rcases List.mem_cons.1 hc with rfl | hc
    · exact .inr (.inl hl.1)
    · rcases hl.2 c hc with h | h | h | h <;> simp [Ordinary, h]
  | keyword word token =>
    have hall : ∀ entry ∈ Token.keywords, entry.1.toList.all Char.isLower := by decide
    exact .inl (.inr (.inr (.inl (Name.isLower_iff.1 (List.all_eq_true.1 (hall _ hl) c hc)))))
  | identifier first tail =>
    refine .inl ?_
    rcases List.mem_cons.1 hc with rfl | hc
    · exact .inr (.inr (.inl hl.1))
    · rcases hl.2.1 c hc with h | h | h <;> simp [Ordinary, h]

theorem not_mem_text {form : Form} (hl : form.Legal) (hq : form.Unquoted) {c : Char}
    (hc : ¬ Ordinary c) (hs : ∀ entry ∈ Token.singles, c ≠ entry.1) : c ∉ form.text := by
  intro hmem
  rcases ordinary_or_single hl hq hmem with h | ⟨token, rfl⟩
  · exact hc h
  · exact hs _ hl rfl

theorem slash_not_mem_text {form : Form} (hl : form.Legal) (hq : form.Unquoted) :
    '/' ∉ form.text :=
  not_mem_text hl hq (by decide) (by decide)

theorem quote_not_mem_text {form : Form} (hl : form.Legal) (hq : form.Unquoted) :
    '"' ∉ form.text :=
  not_mem_text hl hq (by decide) (by decide)

theorem keywords_of_plain {forms : List Form} (hp : ∀ form ∈ forms, form.Plain) :
    keywords forms = [] := by
  rw [keywords, List.filterMap_eq_nil_iff]
  intro form hm
  have := hp form hm
  cases form with
  | keyword word token => exact this.elim
  | _ => rfl

/-- Lexemes without quotes are scanned as they stand, if no keyword among them is repeated that
may be used only once. -/
theorem scan_of_unquoted {forms : List Form} (hw : WellFormed forms)
    (hq : ∀ form ∈ forms, form.Unquoted)
    (hcount : ∀ word ∈ Token.unrepeatable, (keywords forms).count word ≤ 1) {text : String}
    (ht : text.toList = spell forms) : Token.scan text = .ok (tokens forms) := by
  have hslash : '/' ∉ spell forms := by
    rw [spell, List.mem_flatMap]
    rintro ⟨form, hm, hmem⟩
    exact slash_not_mem_text (legal_of_mem hw hm) (hq form hm) hmem
  refine scan_of_spell hw ?_ hcount
  rw [Comment.toList_strip, ht, Comment.cut_of_not_mem hslash]

theorem Plain.unquoted {form : Form} (h : form.Plain) : form.Unquoted := by
  cases form with
  | quoted inside => exact h.elim
  | _ => trivial

/-- Plain lexemes are scanned as they stand. -/
theorem scan_of_plain {forms : List Form} (hw : WellFormed forms)
    (hp : ∀ form ∈ forms, form.Plain) {text : String} (ht : text.toList = spell forms) :
    Token.scan text = .ok (tokens forms) := by
  have hcount : ∀ word ∈ Token.unrepeatable, (keywords forms).count word ≤ 1 := by
    simp [keywords_of_plain hp]
  exact scan_of_unquoted hw (fun form hm => (hp form hm).unquoted) hcount ht

/-- The lexeme of the name of an atom. -/
def ofName (name : String) : Form := atom (name.toList.headD ' ') name.toList.tail

theorem isAtom_iff {name : String} :
    Name.isAtom name = true ↔ name.toList ≠ [] ∧ (ofName name).Legal := by
  rw [Name.isAtom, ofName, Legal]
  cases name.toList with
  | nil => simp
  | cons first tail =>
    simp [Name.isUpper_iff, Name.continuesAtom_iff]

theorem text_ofName {name : String} (h : Name.isAtom name = true) :
    (ofName name).text = name.toList := by
  have hne := (isAtom_iff.1 h).1
  rw [ofName, text]
  cases hn : name.toList with
  | nil => exact absurd hn hne
  | cons first tail => rfl

theorem token?_ofName {name : String} (h : Name.isAtom name = true) :
    (ofName name).token? = some (.atom name) := by
  have ht := text_ofName h
  simp only [ofName, text] at ht
  rw [ofName, token?, ht, String.ofList_toList]

/-- The name in the token of a legal lexeme is legal. -/
theorem isAtom_of_token? {form : Form} (hl : form.Legal) {name : String}
    (h : form.token? = some (.atom name)) : Name.isAtom name = true := by
  cases form with
  | atom first tail =>
    cases h
    obtain ⟨hfirst, htail⟩ := hl
    simpa [Name.isAtom, Name.isUpper_iff, Name.continuesAtom_iff] using ⟨hfirst, htail⟩
  -- no symbol and no keyword stands for an atom
  | single c token =>
    cases h
    have hall : ∀ entry ∈ Token.singles, entry.2.kind ≠ .atom := by decide
    exact absurd rfl (hall _ hl)
  | double c d token =>
    cases h
    have hall : ∀ entry ∈ Token.doubles, entry.2.2.kind ≠ .atom := by decide
    exact absurd rfl (hall _ hl)
  | keyword word token =>
    cases h
    have hall : ∀ entry ∈ Token.keywords, entry.2.kind ≠ .atom := by decide
    exact absurd rfl (hall _ hl)
  | blank | quoted | identifier => cases h

/-- The names of the atoms that are scanned are legal. -/
theorem isAtom_of_mem_scan {line : String} {ts : List Token} (h : Token.scan line = .ok ts)
    {name : String} (hm : Token.atom name ∈ ts) : Name.isAtom name = true := by
  obtain ⟨forms, hw, -, rfl, -⟩ := exists_of_scan h
  obtain ⟨form, hform, htoken⟩ := List.mem_filterMap.1 hm
  exact isAtom_of_token? (legal_of_mem hw hform) htoken

end Form

namespace Formula

/-! ### The rendering of a formula -/

/-- Two formulas in brackets with an operator between them, as lexemes. -/
def enclose (c : Char) (operator : Token) (left right : List Form) : List Form :=
  .single '(' .opening :: (left ++ .blank ' ' :: .single c operator :: .blank ' ' ::
    (right ++ [.single ')' .closing]))

/-- The lexemes of the rendering of a formula. -/
def forms : Formula → List Form
  | atom name => [.ofName name]
  | neg inner => .single '¬' .neg :: inner.forms
  | conj left right => enclose '∧' .conj left.forms right.forms
  | disj left right => enclose '∨' .disj left.forms right.forms
  | imp left right => enclose '→' .imp left.forms right.forms

/-- The tokens of the rendering of a formula. -/
def tokens : Formula → List Token
  | atom name => [.atom name]
  | neg inner => .neg :: inner.tokens
  | conj left right => .opening :: (left.tokens ++ .conj :: (right.tokens ++ [.closing]))
  | disj left right => .opening :: (left.tokens ++ .disj :: (right.tokens ++ [.closing]))
  | imp left right => .opening :: (left.tokens ++ .imp :: (right.tokens ++ [.closing]))

theorem derives_tokens (f : Formula) : Derives f.tokens f := by
  induction f with
  | atom name => exact .atom name
  | neg inner ih => exact .neg ih
  | conj left right ihl ihr => exact .join .conj ihl ihr
  | disj left right ihl ihr => exact .join .disj ihl ihr
  | imp left right ihl ihr => exact .join .imp ihl ihr

/-- Every name of the formula is the name of an atom. -/
def Named (f : Formula) : Prop := ∀ name ∈ f.atoms, Name.isAtom name = true

-- the sides of the other connectives are named by the same lemmas, as their atoms are the same
theorem Named.left {left right : Formula} (h : (conj left right).Named) : left.Named :=
  fun name hn => h name (List.mem_append_left _ hn)

theorem Named.right {left right : Formula} (h : (conj left right).Named) : right.Named :=
  fun name hn => h name (List.mem_append_right _ hn)

theorem spell_enclose (c : Char) (operator : Token) (left right : List Form) :
    Form.spell (enclose c operator left right) =
      '(' :: (Form.spell left ++ ' ' :: c :: ' ' :: (Form.spell right ++ [')'])) := by
  simp [Form.spell, enclose, Form.text]

theorem toList_render {f : Formula} (h : f.Named) : f.render.toList = Form.spell f.forms := by
  induction f with
  | atom name =>
    rw [render, forms, Form.spell, List.flatMap_singleton, Form.text_ofName]
    exact h name (List.mem_singleton_self name)
  | neg inner ih =>
    rw [render, String.toList_append, ih h]
    rfl
  | conj left right ihl ihr | disj left right ihl ihr | imp left right ihl ihr =>
    rw [render, forms, spell_enclose, ← ihl h.left, ← ihr h.right]
    simp

theorem tokens_enclose (c : Char) (operator : Token) (left right : List Form) :
    Form.tokens (enclose c operator left right) =
      .opening :: (Form.tokens left ++ operator :: (Form.tokens right ++ [.closing])) := by
  simp [Form.tokens, enclose, Form.token?, List.filterMap_cons]

theorem tokens_forms {f : Formula} (h : f.Named) : Form.tokens f.forms = f.tokens := by
  induction f with
  | atom name =>
    have hn := Form.token?_ofName (h name (List.mem_singleton_self name))
    simp [forms, Form.tokens, hn, tokens]
  | neg inner ih =>
    rw [tokens, ← ih h]
    rfl
  | conj left right ihl ihr | disj left right ihl ihr | imp left right ihl ihr =>
    rw [forms, tokens_enclose, ihl h.left, ihr h.right, tokens]

theorem plain_forms (f : Formula) : ∀ form ∈ f.forms, form.Plain := by
  induction f with
  | atom name => simp [forms, Form.ofName, Form.Plain]
  | neg inner ih => exact List.forall_mem_cons.2 ⟨trivial, ih⟩
  | conj left right ihl ihr | disj left right ihl ihr | imp left right ihl ihr =>
    simp only [forms, enclose, List.forall_mem_cons, List.forall_mem_append]
    exact ⟨trivial, ihl, trivial, trivial, trivial, ihr, trivial, by simp⟩

/-! ### Rendered formulas are accepted -/

/-- The lexemes may stand before any that start with a character that ends an atom. -/
def ClosedForms (forms : List Form) : Prop :=
  ∀ rest : List Form, Form.WellFormed rest →
    (∀ c ∈ (Form.spell rest).head?, c ∈ [' ', '\t', '&', ')', ',', ':', '-', '|']) →
    Form.WellFormed (forms ++ rest)

theorem ClosedForms.wellFormed {forms : List Form} (h : ClosedForms forms) :
    Form.WellFormed forms := by
  simpa using h [] trivial (by simp [Form.spell])

theorem closedForms_enclose {c : Char} {operator : Token} (hop : (c, operator) ∈ Token.singles)
    {left right : List Form} (hl : ClosedForms left) (hr : ClosedForms right) :
    ClosedForms (enclose c operator left right) := by
  intro rest hw _
  have hclosing : Form.WellFormed (.single ')' .closing :: rest) := ⟨by decide, trivial, hw⟩
  have hright : Form.WellFormed (right ++ .single ')' .closing :: rest) :=
    hr _ hclosing (by simp [Form.spell, Form.text])
  have hleft := hl (.blank ' ' :: .single c operator :: .blank ' ' ::
    (right ++ .single ')' .closing :: rest))
    ⟨.inl rfl, trivial, hop, trivial, .inl rfl, trivial, hright⟩ (by simp [Form.spell, Form.text])
  simp only [enclose, List.cons_append, List.append_assoc, List.nil_append]
  exact ⟨by decide, trivial, hleft⟩

theorem closedForms_forms {f : Formula} (h : f.Named) : ClosedForms f.forms := by
  induction f with
  | atom name =>
    intro rest hw hrest
    exact ⟨(Form.isAtom_iff.1 (h name (List.mem_singleton_self name))).2, hrest, hw⟩
  | neg inner ih =>
    intro rest hw hrest
    exact ⟨by decide, trivial, ih h rest hw hrest⟩
  | conj left right ihl ihr | disj left right ihl ihr | imp left right ihl ihr =>
    exact closedForms_enclose (by decide) (ihl h.left) (ihr h.right)

/-- The tokens may stand before any that start with one that may follow a closing bracket. -/
def ClosedTokens (tokens : List Token) : Prop :=
  ∀ rest : List Token, Fits rest → (∀ token ∈ rest.head?, Token.closing.allows token = true) →
    Fits (tokens ++ rest)

theorem ClosedTokens.fits {tokens : List Token} (h : ClosedTokens tokens) : Fits tokens := by
  simpa using h [] .nil (by simp)

theorem kind_mem_formulaStarts (f : Formula) (rest : List Token) :
    ∀ token ∈ (f.tokens ++ rest).head?, token.kind ∈ Kind.formulaStarts := by
  cases f <;> simp [tokens, Token.kind, Kind.formulaStarts]

/-- A formula may stand after any token that a formula may stand after. -/
theorem fits_cons_tokens {token : Token} (ht : token.kind.successors = Kind.formulaStarts)
    (f : Formula) {rest : List Token} (h : Fits (f.tokens ++ rest)) :
    Fits (token :: (f.tokens ++ rest)) := by
  refine List.IsChain.cons h fun next hnext => ?_
  rw [Token.allows, Kind.allows, ht, List.contains_iff_mem]
  exact f.kind_mem_formulaStarts rest next hnext

theorem closedTokens_join {operator : Token}
    (ho : operator.kind.successors = Kind.formulaStarts)
    (ha : Token.closing.allows operator = true) {left right : Formula}
    (hl : ClosedTokens left.tokens) (hr : ClosedTokens right.tokens) :
    ClosedTokens (.opening :: (left.tokens ++ operator :: (right.tokens ++ [.closing]))) := by
  intro rest h hrest
  have hclosing : Fits (.closing :: rest) := List.IsChain.cons h hrest
  have hright : Fits (operator :: (right.tokens ++ .closing :: rest)) :=
    fits_cons_tokens ho right (hr _ hclosing (by simp; decide))
  have hleft : Fits (.opening :: (left.tokens ++ operator :: (right.tokens ++ .closing :: rest))) :=
    fits_cons_tokens rfl left (hl _ hright (by simpa using ha))
  simpa using hleft

theorem closedTokens_tokens (f : Formula) : ClosedTokens f.tokens := by
  induction f with
  | atom name =>
    -- what may follow a closing bracket may follow an atom
    have hall : ∀ kind ∈ Kind.closing.successors, kind ∈ Kind.atom.successors := by decide
    intro rest h hrest
    refine List.IsChain.cons h fun token ht => ?_
    exact List.contains_iff_mem.2 (hall _ (List.contains_iff_mem.1 (hrest token ht)))
  | neg inner ih =>
    intro rest h hrest
    exact fits_cons_tokens rfl inner (ih rest h hrest)
  | conj left right ihl ihr | disj left right ihl ihr | imp left right ihl ihr =>
    exact closedTokens_join rfl (by decide) ihl ihr

/-! ### The round trip -/

/-- A formula with legal names is parsed from its rendering. -/
theorem parse_render_of_named {f : Formula} (h : f.Named) : parse f.render = .ok f := by
  refine parse_eq_ok_iff.2 ⟨f.tokens, ?_, (closedTokens_tokens f).fits, f.derives_tokens⟩
  rw [← tokens_forms h]
  exact Form.scan_of_plain (closedForms_forms h).wellFormed f.plain_forms (toList_render h)

/-- The names of a parsed formula are legal. -/
theorem named_of_parse {text : String} {f : Formula} (h : parse text = .ok f) : f.Named := by
  obtain ⟨tokens, hscan, -, hd⟩ := parse_eq_ok_iff.1 h
  exact fun name hn => Form.isAtom_of_mem_scan hscan (hd.mem_of_mem_atoms hn)

/-- **A formula is parsed from its rendering**, if every name in it is the name of an atom.  This
is so of every formula that was parsed, so parsing its rendering gives it back. -/
theorem parse_render (f : Formula) :
    ((∀ name ∈ f.atoms, Name.isAtom name = true) → parse f.render = .ok f) ∧
    ∀ text, parse text = .ok f →
      (∀ name ∈ f.atoms, Name.isAtom name = true) ∧ parse f.render = .ok f :=
  ⟨parse_render_of_named, fun _ h =>
    ⟨named_of_parse h, parse_render_of_named (named_of_parse h)⟩⟩

/-- `((P' ∧ ¬Q_1) → R2)` has legal names, so it is parsed from its rendering, and again from what
was parsed. -/
theorem parse_render_conditional :
    let f : Formula := .imp (.conj (.atom "P'") (.neg (.atom "Q_1"))) (.atom "R2")
    (∀ name ∈ f.atoms, Name.isAtom name = true) ∧ parse f.render = .ok f ∧
      f.render = "((P' ∧ ¬Q_1) → R2)" := by
  intro f
  have hnamed : ∀ name ∈ f.atoms, Name.isAtom name = true := by decide
  have hparse := (parse_render f).1 hnamed
  exact ⟨((parse_render f).2 f.render hparse).1, hparse, by decide⟩

end Formula

end Entailment
