import Entailment.Proofs.Definition

/-!
# Rendering lines and scanning them again

The rendering of tokens has a lexeme for each of them, with single spaces between the lexemes
(`Form.separated`).  A space may stand after every lexeme, so that any tokens can be rendered one
after the other and scanned again, as long as each of them has a spelling that is scanned
(`Token.Legible`) and no keyword is repeated that a line may use only once.  Quoted texts are
rendered without their quotes, and are not scanned as texts again.

* `Form.ofToken` : the lexeme a token is rendered as;
* `Form.wellFormed_separated` : legal lexemes may stand one after the other with spaces between
  them, whatever they are;
* `Form.scan_renderAll` : tokens are scanned from their rendering;
* `TokenLine.render_scanned` : **rendering a line and scanning it again loses nothing**, and
  accepted lines without quoted texts are accepted from their rendering.
-/

namespace Entailment

open TokenLine

/-- The token is rendered as it is written: names are legal, and there is no quoted text. -/
def Token.Legible : Token → Prop
  | atom name => Name.isAtom name = true
  | identifier name => Name.Identifier name
  | text _ => False
  | _ => True

/-! ### Lexemes with spaces between them -/

namespace Form

/-- Lexemes with a space between any two of them. -/
def separated (forms : List Form) : List Form := forms.intersperse (blank ' ')

theorem separated_cons_cons (form next : Form) (rest : List Form) :
    separated (form :: next :: rest) = form :: blank ' ' :: separated (next :: rest) := rfl

theorem mayPrecede_nil (form : Form) : form.MayPrecede [] := by
  cases form <;> simp [MayPrecede]

/-- Legal lexemes may stand one after the other with spaces between them. -/
theorem wellFormed_separated {forms : List Form} (hl : ∀ form ∈ forms, form.Legal) :
    WellFormed (separated forms) := by
  induction forms with
  | nil => trivial
  | cons form rest ih =>
    obtain ⟨hform, hrest⟩ := List.forall_mem_cons.1 hl
    cases rest with
    | nil => exact ⟨hform, mayPrecede_nil form, trivial⟩
    | cons next rest =>
      rw [separated_cons_cons]
      exact ⟨hform, mayPrecede_space form _, .inl rfl, trivial, ih hrest⟩

theorem unquoted_separated {forms : List Form} (hq : ∀ form ∈ forms, form.Unquoted) :
    ∀ form ∈ separated forms, form.Unquoted := by
  induction forms with
  | nil => exact hq
  | cons form rest ih =>
    cases rest with
    | nil => exact hq
    | cons next rest =>
      obtain ⟨hform, hrest⟩ := List.forall_mem_cons.1 hq
      rw [separated_cons_cons, List.forall_mem_cons, List.forall_mem_cons]
      exact ⟨hform, trivial, ih hrest⟩

/-- The spaces have no part in what is gathered from the lexemes. -/
theorem filterMap_separated {β : Type} {f : Form → Option β} (hf : f (blank ' ') = none)
    (forms : List Form) : (separated forms).filterMap f = forms.filterMap f := by
  induction forms with
  | nil => rfl
  | cons form rest ih =>
    cases rest with
    | nil => rfl
    | cons next rest =>
      simp only [separated_cons_cons, List.filterMap_cons, hf] at ih ⊢
      rw [ih]

theorem spell_separated (forms : List Form) :
    spell (separated forms) = [' '].intercalate (forms.map text) := by
  induction forms with
  | nil => rfl
  | cons form rest ih =>
    cases rest with
    | nil => simp [spell, separated]
    | cons next rest =>
      rw [separated_cons_cons, List.map_cons, List.map_cons, List.intercalate_cons_cons,
        ← List.map_cons, ← ih]
      simp [spell, text]

/-- Legal lexemes without quotes are scanned with spaces between them, if no keyword among them is
repeated that may be used only once. -/
theorem scan_separated {forms : List Form} (hl : ∀ form ∈ forms, form.Legal)
    (hq : ∀ form ∈ forms, form.Unquoted)
    (hcount : ∀ word ∈ Token.unrepeatable, (keywords forms).count word ≤ 1) {line : String}
    (hline : line.toList = [' '].intercalate (forms.map text)) :
    Token.scan line = .ok (tokens forms) := by
  have htokens : tokens (separated forms) = tokens forms := filterMap_separated rfl forms
  have hkeywords : keywords (separated forms) = keywords forms := filterMap_separated rfl forms
  rw [← htokens]
  refine scan_of_unquoted (wellFormed_separated hl) (unquoted_separated hq) ?_ ?_
  · rwa [hkeywords]
  · rw [hline, spell_separated]

/-! ### The lexeme of a token -/

/-- The lexeme that a token is rendered as.  A quoted text is rendered as no lexeme of its own. -/
def ofToken : Token → Form
  | .atom name => ofName name
  | .identifier name => identifier (name.toList.headD ' ') name.toList.tail
  | .text content => quoted content.toList
  | .verum => keyword "true" .verum
  | .falsum => keyword "false" .falsum
  | .conj => single '∧' .conj
  | .disj => single '∨' .disj
  | .neg => single '¬' .neg
  | .imp => single '→' .imp
  | .opening => single '(' .opening
  | .closing => single ')' .closing
  | .comma => single ',' .comma
  | .assign => double ':' '=' .assign
  | .argument => keyword "argument" .argument
  | .assert => keyword "assert" .assert
  | .print => keyword "print" .print
  | .therefore => single '∴' .therefore
  | .validate => keyword "validate" .validate
  | .valuate => keyword "valuate" .valuate

variable {token : Token}

theorem ofToken_identifier {name : String} {first : Char} {tail : List Char}
    (h : name.toList = first :: tail) : ofToken (.identifier name) = identifier first tail := by
  rw [ofToken, h]
  rfl

theorem legal_ofToken (h : token.Legible) : (ofToken token).Legal := by
  cases token with
  | atom name => exact (isAtom_iff.1 h).2
  | identifier name =>
    obtain ⟨first, tail, hname, hlegal⟩ := h
    rwa [ofToken_identifier hname]
  | text content => exact h.elim
  | _ => decide

theorem unquoted_ofToken (h : token.Legible) : (ofToken token).Unquoted := by
  cases token with
  | text content => exact h.elim
  | _ => trivial

theorem text_ofToken (h : token.Legible) : (ofToken token).text = token.render.toList := by
  cases token with
  | atom name => exact text_ofName h
  | identifier name =>
    obtain ⟨first, tail, hname, -⟩ := h
    rw [ofToken_identifier hname, Token.render, hname, text]
  | text content => exact h.elim
  | _ => decide

theorem token?_ofToken (h : token.Legible) : (ofToken token).token? = some token := by
  cases token with
  | atom name => exact token?_ofName h
  | identifier name =>
    obtain ⟨first, tail, hname, -⟩ := h
    rw [ofToken_identifier hname, token?, ← hname, String.ofList_toList]
  | text content => exact h.elim
  | _ => rfl

/-- The conclusion sign is rendered as a symbol. -/
theorem keyword?_ofToken_ne_therefore (token : Token) :
    (ofToken token).keyword? ≠ some "therefore" := by
  cases token with
  | atom | identifier | text => simp [ofToken, ofName, keyword?]
  | _ => decide

theorem legible_of_payload? (h : token.payload? = none) : token.Legible := by
  cases token with
  | atom | identifier | text => cases h
  | _ => trivial

/-- The token of a legal lexeme is legible, unless it is a quoted text. -/
theorem legible_of_token? {form : Form} (hl : form.Legal) (h : form.token? = some token)
    (htext : ∀ content, token ≠ .text content) : token.Legible := by
  cases form with
  | blank c => cases h
  | quoted inside =>
    cases h
    exact absurd rfl (htext _)
  | single c other =>
    cases h
    have hall : ∀ entry ∈ Token.singles, entry.2.payload? = none := by decide
    exact legible_of_payload? (hall _ hl)
  | double c d other =>
    cases h
    have hall : ∀ entry ∈ Token.doubles, entry.2.2.payload? = none := by decide
    exact legible_of_payload? (hall _ hl)
  | keyword word other =>
    cases h
    have hall : ∀ entry ∈ Token.keywords, entry.2.payload? = none := by decide
    exact legible_of_payload? (hall _ hl)
  | atom first tail =>
    cases h
    exact isAtom_of_token? hl rfl
  | identifier first tail =>
    cases h
    exact ⟨first, tail, String.toList_ofList, hl⟩

/-! ### Lines -/

variable {ts : List Token}

theorem legal_of_mem_map_ofToken (h : ∀ token ∈ ts, token.Legible) :
    ∀ form ∈ ts.map ofToken, form.Legal :=
  List.forall_mem_map.2 fun token hm => legal_ofToken (h token hm)

theorem tokens_map_ofToken (h : ∀ token ∈ ts, token.Legible) : tokens (ts.map ofToken) = ts := by
  induction ts with
  | nil => rfl
  | cons token rest ih =>
    obtain ⟨htoken, hrest⟩ := List.forall_mem_cons.1 h
    rw [List.map_cons, tokens, List.filterMap_cons_some (token?_ofToken htoken), ← tokens, ih hrest]

/-- A keyword that may be used only once stands in the rendering as often as its token, and the
conclusion sign is not rendered as a keyword at all. -/
theorem count_keywords_map_ofToken (h : ∀ token ∈ ts, token.Legible)
    (hcount : ∀ token ∈ [Token.argument, .print, .valuate], ts.count token ≤ 1) :
    ∀ word ∈ Token.unrepeatable, (keywords (ts.map ofToken)).count word ≤ 1 := by
  have hwords : ∀ word ∈ Token.unrepeatable, word = "therefore" ∨
      ∃ token ∈ [Token.argument, .print, .valuate], (word, token) ∈ soleSpellings := by decide
  intro word hword
  rcases hwords word hword with rfl | ⟨token, htoken, hsole⟩
  · have hnot : "therefore" ∉ keywords (ts.map ofToken) := by
      rw [keywords, List.mem_filterMap]
      rintro ⟨form, hform, hk⟩
      obtain ⟨token, -, rfl⟩ := List.mem_map.1 hform
      exact keyword?_ofToken_ne_therefore token hk
    rw [List.count_eq_zero.2 hnot]
    exact Nat.zero_le 1
  · rw [count_keywords hsole (legal_of_mem_map_ofToken h), tokens_map_ofToken h]
    exact hcount token htoken

/-- Tokens are scanned from their rendering. -/
theorem scan_renderAll (h : ∀ token ∈ ts, token.Legible)
    (hcount : ∀ token ∈ [Token.argument, .print, .valuate], ts.count token ≤ 1) :
    Token.scan (Token.renderAll ts) = .ok ts := by
  have hline : (Token.renderAll ts).toList = [' '].intercalate ((ts.map ofToken).map text) := by
    rw [Token.renderAll, String.toList_intercalate, List.map_map, List.map_map]
    exact congrArg _ (List.map_congr_left fun token hm => (text_ofToken (h token hm)).symm)
  have hunquoted : ∀ form ∈ ts.map ofToken, form.Unquoted :=
    List.forall_mem_map.2 fun token hm => unquoted_ofToken (h token hm)
  rw [scan_separated (legal_of_mem_map_ofToken h) hunquoted (count_keywords_map_ofToken h hcount)
    hline, tokens_map_ofToken h]

/-- Scanned tokens that are no quoted texts can be rendered and scanned again. -/
theorem legible_of_scan {line : String} (h : Token.scan line = .ok ts)
    (htext : ∀ content, Token.text content ∉ ts) :
    (∀ token ∈ ts, token.Legible) ∧
      ∀ token ∈ [Token.argument, .print, .valuate], ts.count token ≤ 1 := by
  obtain ⟨forms, hw, -, rfl, hcount⟩ := exists_of_scan h
  constructor
  · intro token hm
    obtain ⟨form, hform, htoken⟩ := List.mem_filterMap.1 hm
    refine legible_of_token? (legal_of_mem hw hform) htoken ?_
    rintro content rfl
    exact htext content hm
  · intro token hm
    have hwords : ∀ token ∈ [Token.argument, .print, .valuate],
        ∃ word ∈ Token.unrepeatable, (word, token) ∈ soleSpellings := by decide
    obtain ⟨word, hword, hsole⟩ := hwords token hm
    rw [← count_keywords hsole fun form => legal_of_mem hw]
    exact hcount word hword

end Form

namespace TokenLine

/-- How a line may start does not depend on its text. -/
theorem checkLead_eq_ok {line other : String} {tokens : List Token}
    (h : checkLead line tokens = .ok ()) : checkLead other tokens = .ok () := by
  unfold checkLead at h ⊢
  split at h <;> simp_all

/-- **Rendering a line and scanning it again loses nothing.**  Any legible tokens, of which none is
repeated that a line may use only once, are scanned from their rendering.  So an accepted line
without quoted texts is accepted again from its rendering, with the same tokens. -/
theorem render_scanned :
    (∀ ts : List Token, (∀ token ∈ ts, token.Legible) →
      (∀ token ∈ [Token.argument, .print, .valuate], ts.count token ≤ 1) →
      Token.scan (Token.renderAll ts) = .ok ts) ∧
    ∀ number source line, ofText? number source = .ok (some line) →
      (∀ content, Token.text content ∉ line.tokens) →
      ∀ other, ofText? other line.render = .ok (some ⟨other, line.render, line.tokens⟩) := by
  refine ⟨fun ts => Form.scan_renderAll, fun number source line hline htext other => ?_⟩
  obtain ⟨tokens, hscan, hne, hlead, hfits, rfl⟩ := ofText?_eq_some_iff.1 hline
  obtain ⟨hlegible, hcount⟩ := Form.legible_of_scan hscan htext
  refine ofText?_eq_some_iff.2 ⟨tokens, ?_, hne, checkLead_eq_ok hlead, hfits, rfl⟩
  exact Form.scan_renderAll hlegible hcount

/-- Tokens that form no statement are scanned from their rendering, and a definition with other
spellings and a comment is accepted again from its rendering. -/
theorem render_scanned_modus_tollens :
    let ts : List Token :=
      [.therefore, .identifier "p_1", .print, .closing, .therefore, .atom "Q\x27"]
    let source := "argument mt := (P->Q), ~Q therefore !P // denying"
    let line : TokenLine := ⟨3, source, [.argument, .identifier "mt", .assign, .opening, .atom "P",
      .imp, .atom "Q", .closing, .comma, .neg, .atom "Q", .therefore, .neg, .atom "P"]⟩
    ((∀ token ∈ ts, token.Legible) ∧
      (∀ token ∈ [Token.argument, .print, .valuate], ts.count token ≤ 1) ∧
      Token.scan "∴ p_1 print ) ∴ Q\x27" = .ok ts) ∧
    ofText? 3 source = .ok (some line) ∧ (∀ content, Token.text content ∉ line.tokens) ∧
      line.render = "argument mt := ( P → Q ) , ¬ Q ∴ ¬ P" ∧
      ofText? 4 line.render = .ok (some ⟨4, line.render, line.tokens⟩) := by
  intro ts source line
  have hlegible : ∀ token ∈ ts, token.Legible := by
    have hidentifier : Name.Identifier "p_1" := ⟨'p', ['_', '1'], by decide, by decide⟩
    have hatom : Name.isAtom "Q\x27" = true := by decide
    simp only [ts, List.forall_mem_cons, List.not_mem_nil, false_imp_iff, implies_true, and_true]
    exact ⟨trivial, hidentifier, trivial, trivial, trivial, hatom⟩
  have hcount : ∀ token ∈ [Token.argument, .print, .valuate], ts.count token ≤ 1 := by decide
  have hline : ofText? 3 source = .ok (some line) := by decide +kernel
  have htext : ∀ content, Token.text content ∉ line.tokens := by simp [line]
  obtain ⟨hscanned, haccepted⟩ := render_scanned
  exact ⟨⟨hlegible, hcount, hscanned ts hlegible hcount⟩, hline, htext, by decide +kernel,
    haccepted 3 source line hline htext 4⟩

end TokenLine

end Entailment
