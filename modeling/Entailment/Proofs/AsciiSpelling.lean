import Entailment.Proofs.Comments

/-!
# Spelling in ASCII

Every connective has a spelling in ASCII.  The two spellings are not alike to the scanner: they may
differ in length, and the name of an atom may stand directly before `&`, `|` or `->` but not before
the other symbols.  Still a line without quotes keeps its tokens when it is respelled, because what
may stand before a symbol may stand before its ASCII spelling:

* `Form.legal_inAscii`, `Form.text_inAscii`, `Form.mayPrecede_inAscii` : the ASCII spelling of a
  lexeme is a lexeme, and may stand before the ASCII spelling of what follows;
* `Form.wellFormed_inAscii` : respelled lexemes are well formed together;
* `Token.scan_inAscii` : **a line that is scanned can be spelled in ASCII**.
-/

namespace Entailment

namespace Token

/-- The connectives outside of ASCII, with their ASCII spellings. -/
def asciiSpellings : List (Char × List Char) :=
  [('∧', ['&']), ('∨', ['|']), ('→', ['-', '>']), ('⊃', ['-', '>']), ('¬', ['~'])]

/-- The ASCII spelling of a character, if it is a connective, and else the character. -/
def asciiSpelling (c : Char) : List Char := (asciiSpellings.lookup c).getD [c]

/-- The line with all connectives in ASCII. -/
def inAscii (line : String) : String := String.ofList (line.toList.flatMap asciiSpelling)

theorem toList_inAscii (line : String) :
    (inAscii line).toList = line.toList.flatMap asciiSpelling :=
  String.toList_ofList

theorem asciiSpelling_of_ordinary {c : Char} (h : Form.Ordinary c) : asciiSpelling c = [c] := by
  have hall : ∀ entry ∈ asciiSpellings, ¬ Form.Ordinary entry.1 := by decide
  have hnone : asciiSpellings.lookup c = none := by
    rw [List.lookup_eq_none_iff]
    intro entry hentry
    rw [bne_iff_ne]
    rintro rfl
    exact hall entry hentry h
  rw [asciiSpelling, hnone, Option.getD_none]

theorem flatMap_asciiSpelling_eq_self {text : List Char}
    (h : ∀ c ∈ text, asciiSpelling c = [c]) : text.flatMap asciiSpelling = text := by
  induction text with
  | nil => rfl
  | cons c rest ih =>
    obtain ⟨hc, hrest⟩ := List.forall_mem_cons.1 h
    rw [List.flatMap_cons, hc, ih hrest, List.singleton_append]

/-- A character that is spelled as it is stays the first one. -/
theorem head?_flatMap_asciiSpelling {text : List Char}
    (h : ∀ c ∈ text.head?, asciiSpelling c = [c]) :
    (text.flatMap asciiSpelling).head? = text.head? := by
  cases text with
  | nil => rfl
  | cons c rest =>
    rw [List.flatMap_cons, h c rfl, List.singleton_append, List.head?_cons, List.head?_cons]

end Token

open Token

/-- A comment stays a comment. -/
theorem Comment.IsComment.inAscii {comment : List Char} (h : IsComment comment) :
    IsComment (comment.flatMap asciiSpelling) := by
  have hslash : asciiSpelling '/' = ['/'] := by decide
  rcases h with rfl | ⟨after, rfl⟩
  · exact .inl rfl
  · refine .inr ⟨after.flatMap asciiSpelling, ?_⟩
    rw [List.flatMap_append]
    simp [hslash]

namespace Form

/-- The symbol of one or two characters that stands for a token. -/
def ofSymbol (token : Token) : List Char → Form
  | [c, d] => double c d token
  | text => single (text.headD ' ') token

theorem token?_ofSymbol (token : Token) (text : List Char) :
    (ofSymbol token text).token? = some token := by
  unfold ofSymbol
  split <;> rfl

theorem keyword?_ofSymbol (token : Token) (text : List Char) :
    (ofSymbol token text).keyword? = none := by
  unfold ofSymbol
  split <;> rfl

theorem mayPrecede_ofSymbol (token : Token) (text after : List Char) :
    (ofSymbol token text).MayPrecede after := by
  unfold ofSymbol
  split <;> trivial

/-- The lexeme with a connective in ASCII. -/
def inAscii : Form → Form
  | single c token => ofSymbol token (asciiSpelling c)
  | form => form

theorem token?_inAscii (form : Form) : form.inAscii.token? = form.token? := by
  cases form with
  | single c token => exact token?_ofSymbol token _
  | _ => rfl

theorem keyword?_inAscii (form : Form) : form.inAscii.keyword? = form.keyword? := by
  cases form with
  | single c token => exact keyword?_ofSymbol token _
  | _ => rfl

theorem legal_inAscii {form : Form} (hl : form.Legal) : form.inAscii.Legal := by
  cases form with
  | single c token =>
    have hall : ∀ entry ∈ Token.singles,
        (ofSymbol entry.2 (asciiSpelling entry.1)).Legal := by decide
    exact hall _ hl
  | _ => exact hl

theorem text_inAscii {form : Form} (hl : form.Legal) (hq : form.Unquoted) :
    form.inAscii.text = form.text.flatMap asciiSpelling := by
  cases form with
  | single c token =>
    have hall : ∀ entry ∈ Token.singles,
        (ofSymbol entry.2 (asciiSpelling entry.1)).text = asciiSpelling entry.1 := by decide
    rw [inAscii, hall _ hl, text, List.flatMap_singleton]
  | _ =>
    -- only a symbol of one character can be a connective outside of ASCII
    refine (flatMap_asciiSpelling_eq_self fun c hc => ?_).symm
    rcases ordinary_or_single hl hq hc with h | ⟨token, heq⟩
    · exact asciiSpelling_of_ordinary h
    · cases heq

/-- A lexeme in ASCII may stand before the ASCII spelling of what the lexeme may stand before. -/
theorem mayPrecede_inAscii {form : Form} {after : List Char} (h : form.MayPrecede after) :
    form.inAscii.MayPrecede (after.flatMap asciiSpelling) := by
  have hends : [' ', '\t', '&', ')', ',', ':', '-', '|'].all fun c => asciiSpelling c == [c] := by
    decide
  cases form with
  | single c token => exact mayPrecede_ofSymbol token _ _
  | atom first tail =>
    have hhead : ∀ c ∈ after.head?, asciiSpelling c = [c] := fun c hc => by
      simpa using List.all_eq_true.1 hends c (h c hc)
    change ∀ c ∈ (after.flatMap asciiSpelling).head?, _
    rw [head?_flatMap_asciiSpelling hhead]
    exact h
  | keyword word token | identifier first tail =>
    have hhead : ∀ c ∈ after.head?, asciiSpelling c = [c] := fun c hc =>
      asciiSpelling_of_ordinary (.inl (h c hc))
    change ∀ c ∈ (after.flatMap asciiSpelling).head?, _
    rw [head?_flatMap_asciiSpelling hhead]
    exact h
  | _ => trivial

theorem spell_inAscii {forms : List Form} (hl : ∀ form ∈ forms, form.Legal)
    (hq : ∀ form ∈ forms, form.Unquoted) :
    spell (forms.map inAscii) = (spell forms).flatMap asciiSpelling := by
  rw [spell, spell, List.flatMap_map, List.flatMap_assoc]
  exact List.flatMap_congr fun form hm => text_inAscii (hl form hm) (hq form hm)

theorem tokens_inAscii (forms : List Form) : tokens (forms.map inAscii) = tokens forms := by
  rw [tokens, tokens, List.filterMap_map]
  exact congrArg (List.filterMap · forms) (funext token?_inAscii)

theorem keywords_inAscii (forms : List Form) : keywords (forms.map inAscii) = keywords forms := by
  rw [keywords, keywords, List.filterMap_map]
  exact congrArg (List.filterMap · forms) (funext keyword?_inAscii)

theorem wellFormed_inAscii {forms : List Form} (hw : WellFormed forms)
    (hq : ∀ form ∈ forms, form.Unquoted) : WellFormed (forms.map inAscii) := by
  induction forms with
  | nil => trivial
  | cons form rest ih =>
    obtain ⟨hl, ha, hrest⟩ := hw
    obtain ⟨-, hqrest⟩ := List.forall_mem_cons.1 hq
    refine ⟨legal_inAscii hl, ?_, ih hrest hqrest⟩
    rw [spell_inAscii (fun form => legal_of_mem hrest) hqrest]
    exact mayPrecede_inAscii ha

theorem unquoted_of_not_mem_spell {forms : List Form} (h : '"' ∉ spell forms) {form : Form}
    (hm : form ∈ forms) : form.Unquoted := by
  cases form with
  | quoted inside => exact absurd (List.mem_flatMap.2 ⟨_, hm, List.mem_cons_self⟩) h
  | _ => trivial

end Form

namespace Token

/-- **A line that is scanned can be spelled in ASCII**: if it has no quotes, its tokens stay the
same when all connectives are replaced, those in the comment included. -/
theorem scan_inAscii {line : String} {ts : List Token} (hquote : '"' ∉ line.toList)
    (h : scan line = .ok ts) : scan (inAscii line) = .ok ts := by
  obtain ⟨forms, comment, hw, hline, hcomment, rfl, hcount⟩ := Form.scan_eq_ok_iff_commented.1 h
  have hq : ∀ form ∈ forms, form.Unquoted := by
    rw [hline] at hquote
    exact fun form =>
      Form.unquoted_of_not_mem_spell fun hmem => hquote (List.mem_append_left _ hmem)
  refine Form.scan_eq_ok_iff_commented.2 ⟨forms.map Form.inAscii, comment.flatMap asciiSpelling,
    Form.wellFormed_inAscii hw hq, ?_, hcomment.inAscii, Form.tokens_inAscii forms, ?_⟩
  · rw [toList_inAscii, hline, List.flatMap_append,
      Form.spell_inAscii (fun form => Form.legal_of_mem hw) hq]
  · rw [Form.keywords_inAscii]
    exact hcount

/-- A line with connectives next to each other and next to brackets, and one in its comment. -/
theorem respelled_conditional_scanned :
    let line := "(P1 →¬ Q)⊃ (R ∧ S // ∨"
    let ts : List Token := [.opening, .atom "P1", .imp, .neg, .atom "Q", .closing, .imp, .opening,
      .atom "R", .conj, .atom "S"]
    ('"' ∉ line.toList ∧ scan line = .ok ts) ∧
      inAscii line = "(P1 ->~ Q)-> (R & S // |" ∧ scan "(P1 ->~ Q)-> (R & S // |" = .ok ts := by
  intro line ts
  have hquote : '"' ∉ line.toList := by decide
  have hscan : scan line = .ok ts := by decide +kernel
  have hascii : inAscii line = "(P1 ->~ Q)-> (R & S // |" := by decide
  have hrespelled := scan_inAscii hquote hscan
  rw [hascii] at hrespelled
  exact ⟨⟨hquote, hscan⟩, hascii, hrespelled⟩

end Token

end Entailment
