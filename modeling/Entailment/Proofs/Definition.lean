import Entailment.Proofs.AcceptedLines
import Entailment.Proofs.Comments
import Entailment.Proofs.Conclusion
import Entailment.Proofs.Effects
import Entailment.Proofs.FormulaRendering

/-!
# Definitions of arguments

A body is read on its own by `Argument.parse`, and on a line of a program after the words that
define an argument.  The line differs from the body alone in two ways: one keyword has been used
when the body starts, and an assignment sign stands before its first token.  The keyword makes no
difference, because it may stand directly after no other token.  The assignment sign does make one:
a body may start with a comma, a closing bracket or a conclusion sign only where it stands alone.

* `Form.scanFrom_spaced` : lexemes with a space after each of them are scanned, and then what
  follows them is;
* `Form.scanFrom_used_iff` : what a keyword used before refuses of a text;
* `TokenLine.ofText?_definition_iff` : which definitions are accepted as lines;
* `Session.execute_definition_iff_parse` : **a definition enters what its body is parsed as**,
  unless the body starts with one of the three tokens.
-/

namespace Entailment

open TokenLine

/-- The names of arguments: a small letter, then small letters, digits and underscores, and no
keyword at the start. -/
def Name.Identifier (name : String) : Prop :=
  ∃ first tail, name.toList = first :: tail ∧ (Form.identifier first tail).Legal

/-! ### Lexemes with spaces after them -/

namespace Form

/-- The characters of lexemes, with a space after each of them. -/
def spaced (forms : List Form) : List Char := forms.flatMap fun form => form.text ++ [' ']

/-- Every lexeme may stand before a space. -/
theorem mayPrecede_space (form : Form) (after : List Char) : form.MayPrecede (' ' :: after) := by
  cases form <;> simp [MayPrecede, Name.Blank]

/-- A space is passed over. -/
theorem scanFrom_space (line : String) (position : ℕ) (used : List String) (after : List Char) :
    Token.scanFrom line position used (' ' :: after) =
      Token.scanFrom line (position + 1) used after := by
  have hlegal : (blank ' ').Legal := .inl rfl
  calc Token.scanFrom line position used (' ' :: after)
      = (Token.scanFrom line (position + 1) used after).map ([] ++ ·) :=
        scanFrom_text_append hlegal trivial rfl line position
    _ = Token.scanFrom line (position + 1) used after := by
        cases Token.scanFrom line (position + 1) used after <;> rfl

/-- Legal lexemes with a space after each of them are scanned one by one, and then what follows
them is scanned.  Whether the keywords among them are used again is left to see there. -/
theorem scanFrom_spaced {forms : List Form} {used : List String}
    (hl : ∀ form ∈ forms, form.Legal) (hu : Unrepeated used forms) (line : String) (position : ℕ)
    (after : List Char) :
    ∃ reached, Token.scanFrom line position used (spaced forms ++ after) =
      (Token.scanFrom line reached ((keywords forms).reverse ++ used) after).map
        (tokens forms ++ ·) := by
  induction forms generalizing used position with
  | nil =>
    refine ⟨position, ?_⟩
    rw [spaced, List.flatMap_nil, List.nil_append]
    cases hscan : Token.scanFrom line position used after <;>
      simp [keywords, tokens, hscan, Except.map]
  | cons form rest ih =>
    obtain ⟨hform, hrest⟩ := List.forall_mem_cons.1 hl
    obtain ⟨hrepeat, hu'⟩ := unrepeated_cons_iff.1 hu
    obtain ⟨reached, hreached⟩ := ih hrest hu' (position + form.lexeme.extent + 1 + 1)
    have hspaced : spaced (form :: rest) ++ after = form.text ++ ' ' :: (spaced rest ++ after) := by
      simp [spaced]
    have hkeywords : (keywords (form :: rest)).reverse ++ used =
        (keywords rest).reverse ++ (form.keyword?.toList ++ used) := by
      cases hk : form.keyword? <;> simp [keywords, hk]
    refine ⟨reached, ?_⟩
    -- whatever the next lexeme is, the space keeps it apart from this one
    rw [hspaced, scanFrom_text_append hform (mayPrecede_space form _) hrepeat, scanFrom_space,
      hreached, hkeywords]
    cases Token.scanFrom line reached ((keywords rest).reverse ++ (form.keyword?.toList ++ used))
        after with
    | error error => rfl
    | ok ts => cases ht : form.token? <;> simp [tokens, ht, Except.map]

/-! ### Keywords used before -/

theorem scanFrom_eq_ok_iff {line : String} {position : ℕ} {used : List String}
    {text : List Char} {ts : List Token} :
    Token.scanFrom line position used text = .ok ts ↔
      ∃ forms : List Form, WellFormed forms ∧ spell forms = text ∧ tokens forms = ts ∧
        Unrepeated used forms := by
  refine ⟨exists_of_scanFrom, ?_⟩
  rintro ⟨forms, hw, rfl, rfl, hu⟩
  exact scanFrom_spell hw hu line position

/-- Keywords that a line may use only once, and that are the only spellings of their tokens. -/
def soleSpellings : List (String × Token) :=
  [("argument", .argument), ("print", .print), ("valuate", .valuate)]

theorem keyword?_eq_some_iff {form : Form} {word : String} {token : Token}
    (hsole : (word, token) ∈ soleSpellings) (hl : form.Legal) :
    form.keyword? = some word ↔ form.token? = some token := by
  have hpayload : ∀ entry ∈ soleSpellings, entry.2.payload? = none := by decide
  cases form with
  | single c other =>
    have hall : ∀ entry ∈ soleSpellings, ∀ single ∈ Token.singles, single.2 ≠ entry.2 := by decide
    simpa [keyword?, token?] using hall _ hsole _ hl
  | double c d other =>
    have hall : ∀ entry ∈ soleSpellings, ∀ double ∈ Token.doubles, double.2.2 ≠ entry.2 := by
      decide
    simpa [keyword?, token?] using hall _ hsole _ hl
  | keyword other _ =>
    have hall : ∀ entry ∈ soleSpellings, ∀ keyword ∈ Token.keywords,
        keyword.1 = entry.1 ↔ keyword.2 = entry.2 := by decide
    simpa [keyword?, token?] using hall _ hsole _ hl
  | blank c => simp [keyword?, token?]
  -- these tokens carry characters, and those of the keywords do not
  | quoted | atom | identifier =>
    refine iff_of_false (by simp [keyword?]) fun htoken => ?_
    cases htoken
    cases hpayload _ hsole

/-- Such a keyword stands among lexemes as often as its token. -/
theorem count_keywords {forms : List Form} {word : String} {token : Token}
    (hsole : (word, token) ∈ soleSpellings) (hl : ∀ form ∈ forms, form.Legal) :
    (keywords forms).count word = (tokens forms).count token := by
  rw [keywords, tokens, List.count_filterMap, List.count_filterMap]
  refine List.countP_congr fun form hm => ?_
  rw [beq_iff_eq, beq_iff_eq, keyword?_eq_some_iff hsole (hl form hm)]

theorem argument_mem_keywords_iff {forms : List Form} (hl : ∀ form ∈ forms, form.Legal) :
    "argument" ∈ keywords forms ↔ Token.argument ∈ tokens forms := by
  have hsole : ("argument", Token.argument) ∈ soleSpellings := by decide
  rw [← List.count_pos_iff, count_keywords hsole hl, List.count_pos_iff]

theorem unrepeated_argument_iff {forms : List Form} :
    Unrepeated ["argument"] forms ↔ Unrepeated [] forms ∧ "argument" ∉ keywords forms := by
  constructor
  · intro h
    exact ⟨fun word hword => ⟨(h word hword).1, by simp⟩,
      (h "argument" (by decide)).2 List.mem_cons_self⟩
  · rintro ⟨h, hnot⟩ word hword
    refine ⟨(h word hword).1, fun hused => ?_⟩
    rw [List.mem_singleton.1 hused]
    exact hnot

/-- After a keyword has been used, what is scanned is what would be without it, if the keyword
does not stand there again. -/
theorem scanFrom_used_iff (line : String) (position : ℕ) {text : String} {ts : List Token} :
    Token.scanFrom line position ["argument"] (Comment.strip text).toList = .ok ts ↔
      Token.scan text = .ok ts ∧ Token.argument ∉ ts := by
  rw [Token.scan, scanFrom_eq_ok_iff, scanFrom_eq_ok_iff]
  constructor
  · rintro ⟨forms, hw, hspell, rfl, hu⟩
    obtain ⟨hu', hnot⟩ := unrepeated_argument_iff.1 hu
    rw [argument_mem_keywords_iff fun form => legal_of_mem hw] at hnot
    exact ⟨⟨forms, hw, hspell, rfl, hu'⟩, hnot⟩
  · rintro ⟨⟨forms, hw, hspell, rfl, hu⟩, hnot⟩
    rw [← argument_mem_keywords_iff fun form => legal_of_mem hw] at hnot
    exact ⟨forms, hw, hspell, rfl, unrepeated_argument_iff.2 ⟨hu, hnot⟩⟩

end Form

/-! ### Lines that define arguments -/

/-- The line that defines an argument. -/
def Argument.definition (name body : String) : String := "argument " ++ name ++ " := " ++ body

namespace Form

/-- The lexemes of a definition before its body. -/
def heading (first : Char) (tail : List Char) : List Form :=
  [keyword "argument" .argument, identifier first tail, double ':' '=' .assign]

theorem legal_heading {first : Char} {tail : List Char} (h : (identifier first tail).Legal) :
    ∀ form ∈ heading first tail, form.Legal := by
  simp only [heading, List.forall_mem_cons, List.not_mem_nil, false_imp_iff, implies_true, and_true]
  exact ⟨by decide, h, by decide⟩

theorem unrepeated_heading (first : Char) (tail : List Char) :
    Unrepeated [] (heading first tail) := by
  intro word hword
  have hkeywords : keywords (heading first tail) = ["argument"] := rfl
  have hall : ∀ word ∈ Token.unrepeatable, ["argument"].count word ≤ 1 := by decide
  exact ⟨hkeywords ▸ hall word hword, by simp⟩

theorem spaced_heading (first : Char) (tail : List Char) :
    spaced (heading first tail) = "argument ".toList ++ (first :: tail) ++ " := ".toList := by
  simp [spaced, heading, text]

theorem mem_name_ne {first c : Char} {tail : List Char} (h : (identifier first tail).Legal)
    (hc : c ∈ first :: tail) : c ≠ '/' ∧ c ≠ '"' := by
  have hslash : ¬ (Name.Small '/' ∨ Name.Digit '/' ∨ '/' = '_') := by decide
  have hquote : ¬ (Name.Small '"' ∨ Name.Digit '"' ∨ '"' = '_') := by decide
  have hclass : Name.Small c ∨ Name.Digit c ∨ c = '_' := by
    rcases List.mem_cons.1 hc with rfl | hc
    · exact .inl h.1
    · exact h.2.1 c hc
  exact ⟨fun heq => hslash (heq ▸ hclass), fun heq => hquote (heq ▸ hclass)⟩

/-- No slash and no quote stands before the body, so a comment starts where it does in the body. -/
theorem mem_spaced_heading {first c : Char} {tail : List Char}
    (h : (identifier first tail).Legal) (hc : c ∈ spaced (heading first tail)) :
    c ≠ '/' ∧ c ≠ '"' := by
  have hsymbols : ("argument ".toList ++ " := ".toList).all fun c => c != '/' && c != '"' := by
    decide
  have hsymbol (hc : c ∈ "argument ".toList ++ " := ".toList) : c ≠ '/' ∧ c ≠ '"' := by
    simpa using List.all_eq_true.1 hsymbols c hc
  rw [spaced_heading, List.mem_append, List.mem_append] at hc
  rcases hc with (hc | hc) | hc
  · exact hsymbol (List.mem_append_left _ hc)
  · exact mem_name_ne h hc
  · exact hsymbol (List.mem_append_right _ hc)

/-- The tokens of a definition are those before its body and those of its body, which does not use
the keyword again. -/
theorem scan_definition_iff {name body : String} (hn : Name.Identifier name) {ts : List Token} :
    Token.scan (Argument.definition name body) = .ok ts ↔
      ∃ rest, Token.scan body = .ok rest ∧ Token.argument ∉ rest ∧
        ts = .argument :: .identifier name :: .assign :: rest := by
  obtain ⟨first, tail, hname, hlegal⟩ := hn
  have hchars : (Argument.definition name body).toList =
      spaced (heading first tail) ++ body.toList := by
    simp [Argument.definition, spaced_heading, hname]
  have hstrip : (Comment.strip (Argument.definition name body)).toList =
      spaced (heading first tail) ++ (Comment.strip body).toList := by
    rw [Comment.toList_strip, hchars, Comment.cut_append fun _ => mem_spaced_heading hlegal,
      Comment.toList_strip]
  have htokens : tokens (heading first tail) = [.argument, .identifier name, .assign] := by
    simp [tokens, heading, token?, ← hname]
  -- the scanner comes to the body with the keyword used, at some position that does not matter
  obtain ⟨reached, hreached⟩ := scanFrom_spaced (legal_heading hlegal)
    (unrepeated_heading first tail) (Argument.definition name body) 0 (Comment.strip body).toList
  rw [show (keywords (heading first tail)).reverse ++ [] = ["argument"] from rfl, htokens]
    at hreached
  simp only [← and_assoc, ← scanFrom_used_iff (Argument.definition name body) reached]
  rw [Token.scan, hstrip, hreached]
  cases Token.scanFrom (Argument.definition name body) reached ["argument"]
      (Comment.strip body).toList with
  | error error => simp [Except.map]
  | ok rest => simp [Except.map, eq_comm]

end Form

namespace TokenLine

/-- The keyword that starts a definition stands after no other token. -/
theorem argument_not_mem_of_fits {first : Token} {rest : List Token} (h : Fits (first :: rest)) :
    Token.argument ∉ rest := by
  induction rest generalizing first with
  | nil => simp
  | cons second rest ih =>
    obtain ⟨hallows, hfits⟩ := List.isChain_cons_cons.1 h
    rw [List.mem_cons, not_or]
    refine ⟨?_, ih hfits⟩
    -- no kind has the keyword among its successors
    rintro rfl
    cases first <;> cases hallows

/-- A definition is accepted when the tokens of its body fit, and the first of them fits after an
assignment sign; the keyword is not used again. -/
theorem ofText?_definition_iff (number : ℕ) {name body : String} (hn : Name.Identifier name)
    {line : TokenLine} :
    ofText? number (Argument.definition name body) = .ok (some line) ↔
      ∃ rest, Token.scan body = .ok rest ∧ Token.argument ∉ rest ∧ Fits (.assign :: rest) ∧
        line = ⟨number, Argument.definition name body,
          .argument :: .identifier name :: .assign :: rest⟩ := by
  rw [ofText?_eq_some_iff]
  constructor
  · rintro ⟨tokens, hscan, -, -, hfits, rfl⟩
    obtain ⟨rest, hrest, hnot, rfl⟩ := (Form.scan_definition_iff hn).1 hscan
    exact ⟨rest, hrest, hnot, (List.isChain_cons_cons.1 (List.isChain_cons_cons.1 hfits).2).2, rfl⟩
  · rintro ⟨rest, hrest, hnot, hfits, rfl⟩
    refine ⟨_, (Form.scan_definition_iff hn).2 ⟨rest, hrest, hnot, rfl⟩, List.cons_ne_nil _ _, rfl,
      ?_, rfl⟩
    exact List.isChain_cons_cons.2 ⟨rfl, List.isChain_cons_cons.2 ⟨rfl, hfits⟩⟩

end TokenLine

/-! ### Bodies -/

namespace Argument

/-- A body starts with a formula or with a token that is passed over. -/
theorem Body.start {a b : Argument} {first : Token} {rest : List Token}
    (h : Body a (first :: rest) b) :
    first ∈ [Token.comma, .closing, .therefore] ∨ first.kind ∈ Kind.formulaStarts := by
  generalize htokens : first :: rest = tokens at h
  cases h with
  | done => cases htokens
  | closing | comma | conclusion =>
    cases htokens
    exact .inl (by decide)
  | premise hf => exact .inr (kind_of_derives_append hf htokens.symm)

/-- After an assignment sign a body stands when it fits there alone and starts with a formula. -/
theorem Body.fits_assign_iff {a b : Argument} {tokens : List Token} (h : Body a tokens b) :
    Fits (.assign :: tokens) ↔
      Fits tokens ∧ ∀ first ∈ tokens.head?, first ∉ [Token.comma, .closing, .therefore] := by
  cases tokens with
  | nil => simp [Fits]
  | cons first rest =>
    have hpassed : ∀ token ∈ [Token.comma, .closing, .therefore],
        Token.assign.allows token = false ∧ token.kind ∉ Kind.formulaStarts := by decide
    have hstarts : ∀ kind ∈ Kind.formulaStarts, Kind.assign.allows kind = true := by decide
    have hfirst : Token.assign.allows first = true ↔
        first ∉ [Token.comma, .closing, .therefore] := by
      rcases h.start with hmem | hkind
      · exact iff_of_false (by simp [(hpassed first hmem).1]) (not_not_intro hmem)
      · exact iff_of_true (hstarts _ hkind) fun hmem => (hpassed first hmem).2 hkind
    rw [Fits, List.isChain_cons_cons, hfirst, and_comm]
    simp [Fits]

/-- The keyword that starts a definition is not part of a body that fits. -/
theorem Body.argument_not_mem {a b : Argument} {tokens : List Token} (h : Body a tokens b)
    (hfits : Fits tokens) : Token.argument ∉ tokens := by
  cases tokens with
  | nil => simp
  | cons first rest =>
    rw [List.mem_cons, not_or]
    refine ⟨?_, argument_not_mem_of_fits hfits⟩
    rintro rfl
    exact absurd h.start (by decide)

end Argument

namespace Session

variable {σ : Type} [Sink σ]

/-- A line is echoed when the sink takes everything. -/
theorem exists_echoes {s : Session σ}
    (hsink : s.config.echo = true → ∀ text, (Sink.write s.sink text).2 = .ok ())
    (line : TokenLine) : ∃ sink, s.Echoes line sink := by
  rcases s.echoes_or_echoFails line with h | ⟨sink, fault, hecho, hwrite⟩
  · exact h
  · have hresult := hsink hecho ("> " ++ line.render ++ "\n")
    rw [hwrite] at hresult
    cases hresult

/-- A definition that is run enters what the tokens after the assignment sign are read as. -/
theorem execute_definition_iff {s : Session σ} {line : TokenLine} {sink : σ} {name : String}
    {body : List Token} {a : Argument} (he : s.Echoes line sink)
    (htokens : line.tokens = .argument :: .identifier name :: .assign :: body) :
    (∃ s', (s.execute line).value = ⟨s', .ok ()⟩ ∧ s'.tables.arguments.get? name = some a) ↔
      Argument.ofTokens body = .ok a := by
  constructor
  · rintro ⟨s', hexecute, hget⟩
    obtain ⟨statement, effect, hr, hp, htables⟩ := exists_performs_of_execute hexecute
    rw [htokens] at hr
    cases hr with
    | define _ hbody =>
      cases hp with
      | define =>
        rw [htables, Table.get?_insert, if_pos rfl, Option.some.injEq] at hget
        rw [hbody, hget]
  · intro hbody
    have hr : Statement.Reads line.tokens (.define name a) := htokens ▸ .define name hbody
    refine ⟨_, (execute_of_performs he hr (.define name a)).trans (apply_silent _ _), ?_⟩
    simp

/-- **A definition enters what its body is parsed as.**  If the echo can be written, a definition
is accepted, runs and enters an argument under its name when its body is parsed as this argument
and does not start with a comma, a closing bracket or a conclusion sign. -/
theorem execute_definition_iff_parse {s : Session σ}
    (hsink : s.config.echo = true → ∀ text, (Sink.write s.sink text).2 = .ok ()) {name : String}
    (hn : Name.Identifier name) (number : ℕ) (body : String) (a : Argument) :
    (∃ line s', TokenLine.ofText? number (Argument.definition name body) = .ok (some line) ∧
      (s.execute line).value = ⟨s', .ok ()⟩ ∧ s'.tables.arguments.get? name = some a) ↔
    Argument.parse body = .ok a ∧ ∃ tokens, Token.scan body = .ok tokens ∧
      ∀ first ∈ tokens.head?, first ∉ [Token.comma, .closing, .therefore] := by
  constructor
  · rintro ⟨line, s', hline, hrun⟩
    obtain ⟨tokens, hscan, -, hfits, rfl⟩ := (ofText?_definition_iff number hn).1 hline
    obtain ⟨sink, hecho⟩ := exists_echoes hsink _
    have hread : Argument.ofTokens tokens = .ok a := (execute_definition_iff hecho rfl).1 ⟨s', hrun⟩
    obtain ⟨hfits', hfirst⟩ := (Argument.body_of_readAfter hread).fits_assign_iff.1 hfits
    exact ⟨Argument.parse_eq_ok_iff.2 ⟨tokens, hscan, hfits', hread⟩, tokens, hscan, hfirst⟩
  · rintro ⟨hparse, scanned, hscanned, hfirst⟩
    obtain ⟨tokens, hscan, hfits, hread⟩ := Argument.parse_eq_ok_iff.1 hparse
    obtain rfl : scanned = tokens := Except.ok.inj (hscanned.symm.trans hscan)
    have hbody := Argument.body_of_readAfter hread
    -- the body does not hold the keyword, so that it has been used refuses nothing
    have hline := (ofText?_definition_iff number hn).2
      ⟨scanned, hscan, hbody.argument_not_mem hfits, hbody.fits_assign_iff.2 ⟨hfits, hfirst⟩, rfl⟩
    obtain ⟨sink, hecho⟩ := exists_echoes hsink
      ⟨number, Argument.definition name body, .argument :: .identifier name :: .assign :: scanned⟩
    obtain ⟨s', hrun⟩ := (execute_definition_iff hecho rfl).2 hread
    exact ⟨_, s', hline, hrun⟩

/-- The definition of `modus_1` with the body `P, (P → Q) ∴ Q // so` enters this argument, and with
the body `, P` it enters nothing, although `, P` is parsed. -/
theorem definition_enters_parsed_body :
    let s := start ⟨true, false⟩ Buffer.unbounded
    let a : Argument := ⟨[.atom "P", .imp (.atom "P") (.atom "Q")], some (.atom "Q")⟩
    let b : Argument := ⟨[.atom "P"], none⟩
    (Name.Identifier "modus_1" ∧ ∀ text, (Sink.write s.sink text).2 = .ok ()) ∧
      (∃ line s', TokenLine.ofText? 1 (Argument.definition "modus_1" "P, (P → Q) ∴ Q // so") =
        .ok (some line) ∧ (s.execute line).value = ⟨s', .ok ()⟩ ∧
        s'.tables.arguments.get? "modus_1" = some a) ∧
      Argument.parse ", P" = .ok b ∧
      ¬ ∃ line s', TokenLine.ofText? 1 (Argument.definition "modus_1" ", P") = .ok (some line) ∧
        (s.execute line).value = ⟨s', .ok ()⟩ ∧
        s'.tables.arguments.get? "modus_1" = some b := by
  intro s a b
  have hn : Name.Identifier "modus_1" := ⟨'m', "odus_1".toList, by decide, by decide⟩
  have hsink : s.config.echo = true → ∀ text, (Sink.write s.sink text).2 = .ok () :=
    fun _ _ => rfl
  have hscan : Token.scan ", P" = .ok [.comma, .atom "P"] := by decide +kernel
  refine ⟨⟨hn, hsink rfl⟩, (execute_definition_iff_parse hsink hn 1 _ a).2 ⟨?_, ?_⟩,
    by decide +kernel, fun h => ?_⟩
  · decide +kernel
  · exact ⟨[.atom "P", .comma, .opening, .atom "P", .imp, .atom "Q", .closing, .therefore,
      .atom "Q"], by decide +kernel, by simp⟩
  · obtain ⟨-, tokens, htokens, hfirst⟩ := (execute_definition_iff_parse hsink hn 1 ", P" b).1 h
    obtain rfl : tokens = [.comma, .atom "P"] := Except.ok.inj (htokens.symm.trans hscan)
    exact hfirst .comma rfl (by decide)

end Session

end Entailment
