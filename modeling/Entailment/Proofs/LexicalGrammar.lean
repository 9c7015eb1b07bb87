import Entailment.Lexeme
import Mathlib.Data.List.TakeWhile
import Mathlib.Tactic.Common

/-!
# The lexical grammar

A line without its comment is a concatenation of lexemes of seven forms (`Form`).  What a form may
be made of (`Form.Legal`) and what may stand directly after it (`Form.MayPrecede`) is said here
without reference to a scanner:

* `Form.read_text_append` : a legal lexeme is read as itself, whatever follows it;
* `Form.starts_of_read` : nothing but legal lexemes is read;
* `Form.scan_eq_ok_iff` : **the scanner accepts exactly the lexical grammar**, and its tokens are
  those of the lexemes.
-/

namespace Entailment

/-! ### The grammar -/

namespace Name

/-- The letters `A` to `Z`. -/
def Capital (c : Char) : Prop := 'A' ≤ c ∧ c ≤ 'Z'

/-- The letters `a` to `z`. -/
def Small (c : Char) : Prop := 'a' ≤ c ∧ c ≤ 'z'

/-- The digits `0` to `9`. -/
def Digit (c : Char) : Prop := '0' ≤ c ∧ c ≤ '9'

/-- The blanks: space and tab. -/
def Blank (c : Char) : Prop := c = ' ' ∨ c = '\t'

instance : DecidablePred Capital := fun c => inferInstanceAs (Decidable ('A' ≤ c ∧ c ≤ 'Z'))

instance : DecidablePred Small := fun c => inferInstanceAs (Decidable ('a' ≤ c ∧ c ≤ 'z'))

instance : DecidablePred Digit := fun c => inferInstanceAs (Decidable ('0' ≤ c ∧ c ≤ '9'))

instance : DecidablePred Blank := fun c => inferInstanceAs (Decidable (c = ' ' ∨ c = '\t'))

end Name

open Name

/-- A lexeme: its form, and the characters it is made of. -/
inductive Form where
  /-- A space or a tab. -/
  | blank (c : Char)
  /-- A text between quotes. -/
  | quoted (inside : List Char)
  /-- A symbol of one character. -/
  | single (c : Char) (token : Token)
  /-- A symbol of two characters. -/
  | double (c d : Char) (token : Token)
  /-- The name of an atom. -/
  | atom (first : Char) (tail : List Char)
  /-- A keyword. -/
  | keyword (word : String) (token : Token)
  /-- An identifier. -/
  | identifier (first : Char) (tail : List Char)
  deriving DecidableEq, Repr

namespace Form

/-- The characters of a lexeme. -/
def text : Form → List Char
  | blank c | single c _ => [c]
  | quoted inside => '"' :: (inside ++ ['"'])
  | double c d _ => [c, d]
  | atom first tail | identifier first tail => first :: tail
  | keyword word _ => word.toList

/-- The token of a lexeme; a blank has none. -/
def token? : Form → Option Token
  | blank _ => none
  | quoted inside => some (.text (String.ofList inside))
  | single _ token | double _ _ token | keyword _ token => some token
  | atom first tail => some (.atom (String.ofList (first :: tail)))
  | identifier first tail => some (.identifier (String.ofList (first :: tail)))

/-- The word of a keyword. -/
def keyword? : Form → Option String
  | keyword word _ => some word
  | _ => none

/-- What a lexeme of each form may be made of. -/
def Legal : Form → Prop
  | blank c => Blank c
  | quoted inside => '"' ∉ inside
  | single c token => (c, token) ∈ Token.singles
  | double c d token => (c, d, token) ∈ [(':', '=', .assign), ('-', '>', .imp)]
  | atom first tail =>
    Capital first ∧ ∀ c ∈ tail, Capital c ∨ Digit c ∨ c = '_' ∨ c = '\x27'
  | keyword word token => (word, token) ∈ Token.keywords
  | identifier first tail =>
    Small first ∧ (∀ c ∈ tail, Small c ∨ Digit c ∨ c = '_') ∧
      ∀ entry ∈ Token.keywords, ¬ entry.1.toList <+: first :: tail

-- membership is decided along the list: there is no need to go through all characters
instance : DecidablePred Legal
  | blank c => inferInstanceAs (Decidable (Blank c))
  | quoted inside => inferInstanceAs (Decidable ('"' ∉ inside))
  | single c token => inferInstanceAs (Decidable ((c, token) ∈ Token.singles))
  | double c d token =>
    inferInstanceAs (Decidable ((c, d, token) ∈ [(':', '=', .assign), ('-', '>', .imp)]))
  | atom _ _ => @instDecidableAnd _ _ inferInstance (List.decidableBAll _ _)
  | keyword word token => inferInstanceAs (Decidable ((word, token) ∈ Token.keywords))
  | identifier _ _ => @instDecidableAnd _ _ inferInstance
      (@instDecidableAnd _ _ (List.decidableBAll _ _) (List.decidableBAll _ _))

/-- Whether the lexeme may stand directly before the text `after`: names and keywords end where
the text ends or at a character that separates them from what follows. -/
def MayPrecede (after : List Char) : Form → Prop
  | atom _ _ => ∀ c ∈ after.head?, c ∈ [' ', '\t', '&', ')', ',', ':', '-', '|']
  | keyword _ _ | identifier _ _ => ∀ c ∈ after.head?, Blank c
  | _ => True

/-- The characters of lexemes, one after the other. -/
def spell (forms : List Form) : List Char := forms.flatMap text

/-- Every lexeme is legal and may stand before the lexemes after it. -/
def WellFormed : List Form → Prop
  | [] => True
  | form :: rest => form.Legal ∧ form.MayPrecede (spell rest) ∧ WellFormed rest

/-- The tokens of lexemes in order. -/
def tokens (forms : List Form) : List Token := forms.filterMap token?

/-- The keywords among lexemes in order. -/
def keywords (forms : List Form) : List String := forms.filterMap keyword?

end Form

/-! ### Character classes -/

namespace Name

theorem isUpper_iff {c : Char} : c.isUpper = true ↔ Capital c := by
  show decide ('A'.val ≤ c.val ∧ c.val ≤ 'Z'.val) = true ↔ _
  rw [decide_eq_true_iff, Capital, Char.le_def, Char.le_def]

theorem isLower_iff {c : Char} : c.isLower = true ↔ Small c := by
  show (decide ('a'.val ≤ c.val) && decide (c.val ≤ 'z'.val)) = true ↔ _
  rw [Bool.and_eq_true, decide_eq_true_iff, decide_eq_true_iff, Small, Char.le_def, Char.le_def]

theorem isDigit_iff {c : Char} : c.isDigit = true ↔ Digit c := by
  simp [Char.isDigit, Digit, Char.le_def]

theorem isBlank_iff {c : Char} : isBlank c = true ↔ Blank c := by simp [isBlank, Blank]

theorem continuesAtom_iff {c : Char} :
    continuesAtom c = true ↔ Capital c ∨ Digit c ∨ c = '_' ∨ c = '\x27' := by
  simp [continuesAtom, isUpper_iff, isDigit_iff, or_assoc]

theorem continuesIdentifier_iff {c : Char} :
    continuesIdentifier c = true ↔ Small c ∨ Digit c ∨ c = '_' := by
  simp [continuesIdentifier, isLower_iff, isDigit_iff, or_assoc]

theorem endsAtom_iff {c : Char} :
    endsAtom c = true ↔ c ∈ [' ', '\t', '&', ')', ',', ':', '-', '|'] := by
  rw [endsAtom, List.contains_iff_mem]

end Name

/-! ### Runs of characters -/

namespace Lexeme

variable {p : Char → Bool} {run after : List Char}

/-- A run of characters of a class reaches to the first character outside of it. -/
theorem takeWhile_run (hrun : ∀ c ∈ run, p c = true) (hafter : ∀ c ∈ after.head?, p c = false) :
    (run ++ after).takeWhile p = run := by
  rw [List.takeWhile_append_of_pos hrun]
  cases after with
  | nil => simp
  | cons c rest => simp [hafter c rfl]

theorem dropWhile_run (hrun : ∀ c ∈ run, p c = true) (hafter : ∀ c ∈ after.head?, p c = false) :
    (run ++ after).dropWhile p = after := by
  rw [List.dropWhile_append_of_pos hrun]
  cases after with
  | nil => rfl
  | cons c rest => simp [hafter c rfl]

theorem closedBy_eq_ok_iff {ends : Char → Bool} {lexeme result : Lexeme} :
    closedBy ends lexeme after = .ok result ↔
      lexeme = result ∧ ∀ c ∈ after.head?, ends c = true := by
  cases after with
  | nil => simp [closedBy]
  | cons c rest =>
    rw [closedBy]
    split_ifs with h <;> simp [h]

theorem keywordAt?_eq_some_iff {text : List Char} {word : String} {token : Token} :
    keywordAt? text = some (word, token) ↔
      (word, token) ∈ Token.keywords ∧ word.toList <+: text := by
  constructor
  · intro h
    have hpre := List.find?_some h
    exact ⟨List.mem_of_find?_eq_some h, List.isPrefixOf_iff_prefix.1 hpre⟩
  · rintro ⟨hmem, hpre⟩
    -- no keyword starts another one, so the first one found is this one
    have hunique : ∀ a ∈ Token.keywords, ∀ b ∈ Token.keywords,
        a.1.toList <+: b.1.toList → a = b := by decide
    cases hfound : keywordAt? text with
    | none =>
      exact absurd (List.isPrefixOf_iff_prefix.2 hpre) (List.find?_eq_none.1 hfound _ hmem)
    | some entry =>
      have hmem' := List.mem_of_find?_eq_some hfound
      have hpre' := List.find?_some hfound
      rcases List.prefix_or_prefix_of_prefix (List.isPrefixOf_iff_prefix.1 hpre') hpre with h | h
      · rw [hunique _ hmem' _ hmem h]
      · rw [hunique _ hmem _ hmem' h]

theorem keywordAt?_eq_none_iff {text : List Char} :
    keywordAt? text = none ↔ ∀ entry ∈ Token.keywords, ¬ entry.1.toList <+: text := by
  simp [keywordAt?, List.find?_eq_none]

end Lexeme

namespace Form

/-- What the scanner should say of a lexeme. -/
def lexeme (form : Form) : Lexeme := ⟨form.token?, form.text.length - 1, form.keyword?⟩

theorem keyword_ne_nil {word : String} {token : Token} (h : (word, token) ∈ Token.keywords) :
    word.toList ≠ [] := by
  have hall : ∀ entry ∈ Token.keywords, entry.1.toList ≠ [] := by decide
  exact hall _ h

theorem text_ne_nil {form : Form} (h : form.Legal) : form.text ≠ [] := by
  cases form with
  | keyword word token => exact keyword_ne_nil h
  | _ => exact List.cons_ne_nil _ _

/-- After the first character of a lexeme, its extent is left to be passed over. -/
theorem drop_extent {form : Form} (hl : form.Legal) {c : Char} {rest after : List Char}
    (h : c :: rest = form.text ++ after) : rest.drop form.lexeme.extent = after := by
  cases ht : form.text with
  | nil => exact absurd ht (text_ne_nil hl)
  | cons d tail =>
    rw [ht, List.cons_append, List.cons.injEq] at h
    simp [lexeme, ht, h.2]

/-! ### Legal lexemes are read -/

theorem read_blank {c : Char} (h : Blank c) (rest : List Char) :
    Lexeme.read c rest = .ok ⟨none, 0, none⟩ := by
  rw [Lexeme.read, if_pos (isBlank_iff.2 h)]

theorem read_quoted {inside : List Char} (h : '"' ∉ inside) (after : List Char) :
    Lexeme.read '"' (inside ++ '"' :: after) =
      .ok ⟨some (.text (String.ofList inside)), inside.length + 1, none⟩ := by
  have hrun : (inside ++ '"' :: after).takeWhile (· != '"') = inside := by
    refine Lexeme.takeWhile_run (fun c hc => ?_) (by simp)
    simpa using fun heq : c = '"' => h (heq ▸ hc)
  rw [Lexeme.read, if_neg (by decide), if_pos (by decide), Lexeme.readText]
  simp [hrun]

theorem read_single {c : Char} {token : Token} (h : (c, token) ∈ Token.singles)
    (rest : List Char) : Lexeme.read c rest = .ok ⟨some token, 0, none⟩ := by
  have hall : ∀ entry ∈ Token.singles, isBlank entry.1 = false ∧ (entry.1 == '"') = false ∧
      Token.ofChar? entry.1 = some entry.2 := by decide
  obtain ⟨hblank, hquote, hchar⟩ := hall _ h
  simp only at hblank hquote hchar
  rw [Lexeme.read, hblank, hquote, hchar]
  rfl

theorem read_double {c d : Char} {token : Token} (h : (c, d, token) ∈ Token.doubles)
    (rest : List Char) : Lexeme.read c (d :: rest) = .ok ⟨some token, 1, none⟩ := by
  have hall : ∀ entry ∈ Token.doubles, isBlank entry.1 = false ∧ (entry.1 == '"') = false ∧
      Token.ofChar? entry.1 = none ∧ Token.startsPair entry.1 = true ∧
      Token.ofPair? entry.1 entry.2.1 = some entry.2.2 := by decide
  obtain ⟨hblank, hquote, hchar, hstarts, hpair⟩ := hall _ h
  simp only at hblank hquote hchar hstarts hpair
  rw [Lexeme.read, hblank, hquote, hchar, hstarts, Lexeme.readPair, hpair]
  rfl

/-- A letter is neither a blank nor a quote nor part of a symbol. -/
theorem read_letter {c : Char} (h : Capital c ∨ Small c) (rest : List Char) :
    Lexeme.read c rest =
      if c.isUpper then Lexeme.readAtom c rest
      else if c.isLower then Lexeme.readWord c rest
      else .error ⟨c, 0⟩ := by
  have hsingle : ∀ entry ∈ Token.singles, ¬ (Capital entry.1 ∨ Small entry.1) := by decide
  have hdouble : ∀ entry ∈ Token.doubles, ¬ (Capital entry.1 ∨ Small entry.1) := by decide
  have hblank : ¬ isBlank c = true := by
    rw [isBlank_iff]
    rintro (rfl | rfl) <;> revert h <;> decide
  have hquote : ¬ (c == '"') = true := by
    rw [beq_iff_eq]
    rintro rfl
    revert h
    decide
  have hchar : Token.ofChar? c = none := by
    rw [Token.ofChar?, List.lookup_eq_none_iff]
    intro entry hentry
    rw [bne_iff_ne]
    rintro rfl
    exact hsingle entry hentry h
  have hstarts : ¬ Token.startsPair c = true := by
    rw [Token.startsPair, List.any_eq_true]
    rintro ⟨entry, hentry, heq⟩
    rw [beq_iff_eq] at heq
    subst heq
    exact hdouble entry hentry h
  rw [Lexeme.read, if_neg hblank, if_neg hquote, hchar]
  exact if_neg hstarts

theorem not_isUpper {c : Char} (h : Small c) : ¬ c.isUpper = true := by
  rw [isUpper_iff]
  rintro ⟨-, hle⟩
  exact absurd (Char.le_trans h.1 hle) (by decide)

theorem read_atom {first : Char} {tail after : List Char} (hl : (atom first tail).Legal)
    (ha : (atom first tail).MayPrecede after) :
    Lexeme.read first (tail ++ after) = .ok (atom first tail).lexeme := by
  obtain ⟨hfirst, htail⟩ := hl
  have hrun : ∀ c ∈ tail, continuesAtom c = true := fun c hc => continuesAtom_iff.2 (htail c hc)
  have hends : [' ', '\t', '&', ')', ',', ':', '-', '|'].all fun c => !continuesAtom c := by
    decide
  have hafter : ∀ c ∈ after.head?, continuesAtom c = false := fun c hc => by
    simpa using List.all_eq_true.1 hends c (ha c hc)
  rw [read_letter (.inl hfirst), if_pos (isUpper_iff.2 hfirst), Lexeme.readAtom,
    Lexeme.takeWhile_run hrun hafter, Lexeme.dropWhile_run hrun hafter]
  exact Lexeme.closedBy_eq_ok_iff.2 ⟨rfl, fun c hc => endsAtom_iff.2 (ha c hc)⟩

theorem read_keyword {word : String} {token : Token} {c : Char} {tail after : List Char}
    (hl : (keyword word token).Legal) (ha : (keyword word token).MayPrecede after)
    (ht : word.toList = c :: tail) :
    Lexeme.read c (tail ++ after) = .ok (keyword word token).lexeme := by
  have hall : ∀ entry ∈ Token.keywords, entry.1.toList.head?.any Char.isLower := by decide
  have hsmall : Small c := by
    have := hall _ hl
    rwa [ht, List.head?_cons, Option.any_some, isLower_iff] at this
  have hword : Lexeme.keywordAt? (c :: (tail ++ after)) = some (word, token) :=
    Lexeme.keywordAt?_eq_some_iff.2 ⟨hl, ⟨after, by rw [ht, List.cons_append]⟩⟩
  have hdrop : (tail ++ after).drop (word.toList.length - 1) = after := by simp [ht]
  rw [read_letter (.inr hsmall), if_neg (not_isUpper hsmall), if_pos (isLower_iff.2 hsmall),
    Lexeme.readWord, hword]
  simp only [hdrop]
  exact Lexeme.closedBy_eq_ok_iff.2 ⟨rfl, fun d hd => isBlank_iff.2 (ha d hd)⟩

/-- A word without the character that ends a run starts the run if it starts the whole text. -/
theorem prefix_of_prefix_append {word run after : List Char} (h : word <+: run ++ after)
    (hafter : ∀ c ∈ after.head?, c ∉ word) : word <+: run := by
  rcases List.prefix_or_prefix_of_prefix h (List.prefix_append run after) with h' | ⟨more, rfl⟩
  · exact h'
  · cases more with
    | nil => simp
    | cons c more =>
      obtain ⟨rest, hrest⟩ := (List.prefix_append_right_inj run).1 h
      exact absurd (by simp) (hafter c (by simp [← hrest]))

theorem read_identifier {first : Char} {tail after : List Char}
    (hl : (identifier first tail).Legal) (ha : (identifier first tail).MayPrecede after) :
    Lexeme.read first (tail ++ after) = .ok (identifier first tail).lexeme := by
  obtain ⟨hfirst, htail, hkeyword⟩ := hl
  have hrun : ∀ c ∈ tail, continuesIdentifier c = true := fun c hc =>
    continuesIdentifier_iff.2 (htail c hc)
  have hafter : ∀ c ∈ after.head?, continuesIdentifier c = false := by
    intro c hc
    rcases ha c hc with rfl | rfl <;> decide
  have hblank : ∀ entry ∈ Token.keywords, entry.1.toList.any isBlank = false := by decide
  have hword : Lexeme.keywordAt? (first :: (tail ++ after)) = none := by
    rw [Lexeme.keywordAt?_eq_none_iff]
    intro entry hentry hpre
    refine hkeyword entry hentry (prefix_of_prefix_append hpre fun c hc hmem => ?_)
    exact List.any_eq_false.1 (hblank entry hentry) c hmem (isBlank_iff.2 (ha c hc))
  rw [read_letter (.inr hfirst), if_neg (not_isUpper hfirst), if_pos (isLower_iff.2 hfirst),
    Lexeme.readWord, hword]
  simp only [Lexeme.takeWhile_run hrun hafter, Lexeme.dropWhile_run hrun hafter]
  exact Lexeme.closedBy_eq_ok_iff.2 ⟨rfl, fun c hc => isBlank_iff.2 (ha c hc)⟩

/-- A legal lexeme is read as itself before any text that may follow it. -/
theorem read_text_append {form : Form} {c : Char} {tail after : List Char} (hl : form.Legal)
    (ha : form.MayPrecede after) (ht : form.text = c :: tail) :
    Lexeme.read c (tail ++ after) = .ok form.lexeme := by
  cases form with
  | blank d =>
    cases ht
    exact read_blank hl after
  | quoted inside =>
    cases ht
    rw [List.append_assoc, List.singleton_append, read_quoted hl]
    simp [lexeme, token?, text, keyword?]
  | single d token =>
    cases ht
    exact read_single hl after
  | double d e token =>
    cases ht
    exact read_double hl after
  | atom first rest =>
    cases ht
    exact read_atom hl ha
  | keyword word token => exact read_keyword hl ha ht
  | identifier first rest =>
    cases ht
    exact read_identifier hl ha

/-! ### Only legal lexemes are read -/

/-- The text starts with a legal lexeme, of which the scanner says `lexeme`. -/
def Starts (text : List Char) (lexeme : Lexeme) : Prop :=
  ∃ form : Form, ∃ after, form.Legal ∧ form.MayPrecede after ∧ text = form.text ++ after ∧
    lexeme = form.lexeme

theorem starts_of_readText {rest : List Char} {lexeme : Lexeme}
    (h : Lexeme.readText rest = .ok lexeme) : Starts ('"' :: rest) lexeme := by
  rw [Lexeme.readText] at h
  split_ifs at h with hlt
  cases h
  have hrest := List.takeWhile_append_dropWhile (p := (· != '"')) (l := rest)
  cases hd : rest.dropWhile (· != '"') with
  | nil =>
    rw [hd, List.append_nil] at hrest
    rw [hrest] at hlt
    exact absurd hlt (Nat.lt_irrefl _)
  | cons c after =>
    have hc : c = '"' := by
      have := List.head_dropWhile_not (· != '"') (l := rest) (by simp [hd])
      simpa [hd] using this
    refine ⟨quoted (rest.takeWhile (· != '"')), after, fun hmem => ?_, trivial, ?_, ?_⟩
    · simpa using List.mem_takeWhile_imp hmem
    · rw [hd, hc] at hrest
      simp [text, hrest]
    · simp [lexeme, token?, text, keyword?]

theorem starts_of_readPair {c : Char} {rest : List Char} {lexeme : Lexeme}
    (h : Lexeme.readPair c rest = .ok lexeme) : Starts (c :: rest) lexeme := by
  cases rest with
  | nil => cases h
  | cons d after =>
    rw [Lexeme.readPair] at h
    cases hp : Token.ofPair? c d with
    | none => simp [hp] at h
    | some token =>
      simp only [hp] at h
      cases h
      obtain ⟨entry, hfound, rfl⟩ := Option.map_eq_some_iff.1 hp
      have heq := List.find?_some hfound
      simp only [Bool.and_eq_true, beq_iff_eq] at heq
      obtain ⟨rfl, rfl⟩ := heq
      exact ⟨double entry.1 entry.2.1 entry.2.2, after, List.mem_of_find?_eq_some hfound, trivial,
        rfl, rfl⟩

theorem starts_of_readAtom {c : Char} {rest : List Char} {lexeme : Lexeme} (hc : Capital c)
    (h : Lexeme.readAtom c rest = .ok lexeme) : Starts (c :: rest) lexeme := by
  obtain ⟨rfl, hafter⟩ := Lexeme.closedBy_eq_ok_iff.1 h
  refine ⟨atom c (rest.takeWhile continuesAtom), rest.dropWhile continuesAtom,
    ⟨hc, fun d hd => ?_⟩, fun d hd => endsAtom_iff.1 (hafter d hd), ?_, rfl⟩
  · exact continuesAtom_iff.1 (List.mem_takeWhile_imp hd)
  · rw [text, List.cons_append, List.takeWhile_append_dropWhile]

theorem starts_of_readWord {c : Char} {rest : List Char} {lexeme : Lexeme} (hc : Small c)
    (h : Lexeme.readWord c rest = .ok lexeme) : Starts (c :: rest) lexeme := by
  rw [Lexeme.readWord] at h
  cases hk : Lexeme.keywordAt? (c :: rest) with
  | some entry =>
    obtain ⟨word, token⟩ := entry
    simp only [hk] at h
    obtain ⟨rfl, hafter⟩ := Lexeme.closedBy_eq_ok_iff.1 h
    obtain ⟨hmem, after, htext⟩ := Lexeme.keywordAt?_eq_some_iff.1 hk
    cases hw : word.toList with
    | nil => exact absurd hw (keyword_ne_nil hmem)
    | cons d tail =>
      rw [hw, List.cons_append, List.cons.injEq] at htext
      obtain ⟨rfl, rfl⟩ := htext
      refine ⟨keyword word token, after, hmem, fun d hd => ?_, ?_, ?_⟩
      · exact isBlank_iff.1 (hafter d (by simpa [hw] using hd))
      · rw [text, hw, List.cons_append]
      · rw [lexeme, text, hw]
        rfl
  | none =>
    simp only [hk] at h
    obtain ⟨rfl, hafter⟩ := Lexeme.closedBy_eq_ok_iff.1 h
    refine ⟨identifier c (rest.takeWhile continuesIdentifier),
      rest.dropWhile continuesIdentifier, ⟨hc, fun d hd => ?_, fun entry hentry hpre => ?_⟩,
      fun d hd => isBlank_iff.1 (hafter d hd), ?_, rfl⟩
    · exact continuesIdentifier_iff.1 (List.mem_takeWhile_imp hd)
    · refine Lexeme.keywordAt?_eq_none_iff.1 hk entry hentry (hpre.trans ?_)
      exact (List.prefix_cons_inj c).2 (List.takeWhile_prefix _)
    · rw [text, List.cons_append, List.takeWhile_append_dropWhile]

/-- What is read is a legal lexeme. -/
theorem starts_of_read {c : Char} {rest : List Char} {lexeme : Lexeme}
    (h : Lexeme.read c rest = .ok lexeme) : Starts (c :: rest) lexeme := by
  rw [Lexeme.read] at h
  by_cases hblank : isBlank c = true
  · rw [if_pos hblank] at h
    cases h
    exact ⟨blank c, rest, isBlank_iff.1 hblank, trivial, rfl, rfl⟩
  rw [if_neg hblank] at h
  by_cases hquote : (c == '"') = true
  · rw [if_pos hquote] at h
    rw [beq_iff_eq] at hquote
    subst hquote
    exact starts_of_readText h
  rw [if_neg hquote] at h
  cases hs : Token.ofChar? c with
  | some token =>
    simp only [hs] at h
    cases h
    obtain ⟨before, after, heq, -⟩ := List.lookup_eq_some_iff.1 hs
    exact ⟨single c token, rest, by simp [Legal, heq], trivial, rfl, rfl⟩
  | none =>
    simp only [hs] at h
    split_ifs at h with hpair hupper hlower
    · exact starts_of_readPair h
    · exact starts_of_readAtom (isUpper_iff.1 hupper) h
    · exact starts_of_readWord (isLower_iff.1 hlower) h

/-! ### Lines -/

/-- After the keywords `used`, no keyword that may be used only once is used again. -/
def Unrepeated (used : List String) (forms : List Form) : Prop :=
  ∀ word ∈ Token.unrepeatable,
    (keywords forms).count word ≤ 1 ∧ (word ∈ used → word ∉ keywords forms)

theorem unrepeated_nil (used : List String) : Unrepeated used [] := by simp [Unrepeated, keywords]

theorem repetition?_eq_none_iff {used : List String} {form : Form} :
    form.lexeme.repetition? used = none ↔
      ∀ word ∈ form.keyword?, word ∈ Token.unrepeatable → word ∉ used := by
  simp [Lexeme.repetition?, lexeme, Option.filter_eq_none_iff]

theorem unrepeated_cons_iff {used : List String} {form : Form} {forms : List Form} :
    Unrepeated used (form :: forms) ↔
      form.lexeme.repetition? used = none ∧ Unrepeated (form.keyword?.toList ++ used) forms := by
  rw [repetition?_eq_none_iff]
  cases hk : form.keyword? with
  | none => simp [Unrepeated, keywords, hk]
  | some word =>
    have hcons : keywords (form :: forms) = word :: keywords forms := by simp [keywords, hk]
    simp only [Unrepeated, hcons, Option.mem_some_iff, forall_eq', Option.toList_some,
      List.singleton_append, List.mem_cons]
    constructor
    · intro h
      refine ⟨fun hword hused => (h word hword).2 hused (.inl rfl), fun other hother => ?_⟩
      obtain ⟨hcount, hnot⟩ := h other hother
      refine ⟨Nat.le_trans (List.count_le_count_cons ..) hcount, ?_⟩
      rintro (rfl | hused) hmem
      · -- the keyword just read and its repetition count twice
        rw [List.count_cons_self] at hcount
        have := List.count_pos_iff.2 hmem
        omega
      · exact hnot hused (.inr hmem)
    · rintro ⟨hword, h⟩ other hother
      obtain ⟨hcount, hnot⟩ := h other hother
      constructor
      · by_cases heq : word = other
        · subst heq
          rw [List.count_cons_self, List.count_eq_zero.2 (hnot (.inl rfl))]
        · rwa [List.count_cons_of_ne heq]
      · rintro hused (rfl | hmem)
        · exact hword hother hused
        · exact hnot (.inr hused) hmem

/-- A legal lexeme is scanned before any text that may follow it, and then that text is. -/
theorem scanFrom_text_append {form : Form} {after : List Char} {used : List String}
    (hl : form.Legal) (ha : form.MayPrecede after) (hr : form.lexeme.repetition? used = none)
    (line : String) (position : ℕ) :
    Token.scanFrom line position used (form.text ++ after) =
      (Token.scanFrom line (position + form.lexeme.extent + 1) (form.keyword?.toList ++ used)
        after).map (form.token?.toList ++ ·) := by
  cases ht : form.text with
  | nil => exact absurd ht (text_ne_nil hl)
  | cons c tail =>
    have hdrop : (tail ++ after).drop form.lexeme.extent = after :=
      drop_extent hl (by rw [ht, List.cons_append])
    rw [List.cons_append, Token.scanFrom, read_text_append hl ha ht]
    simp only [hr, hdrop]
    rfl

/-- Well-formed lexemes are scanned as they are. -/
theorem scanFrom_spell {forms : List Form} {used : List String} (hw : WellFormed forms)
    (hu : Unrepeated used forms) (line : String) (position : ℕ) :
    Token.scanFrom line position used (spell forms) = .ok (tokens forms) := by
  induction forms generalizing used position with
  | nil => simp [spell, tokens, Token.scanFrom]
  | cons form rest ih =>
    obtain ⟨hl, ha, hrest⟩ := hw
    obtain ⟨hrepeat, hu'⟩ := unrepeated_cons_iff.1 hu
    rw [spell, List.flatMap_cons, ← spell, scanFrom_text_append hl ha hrepeat, ih hrest hu']
    cases htoken : form.token? <;> simp [tokens, htoken, Except.map]

/-- Whatever is scanned is a concatenation of well-formed lexemes. -/
theorem exists_of_scanFrom {line : String} {position : ℕ} {used : List String}
    {text : List Char} {ts : List Token} (h : Token.scanFrom line position used text = .ok ts) :
    ∃ forms : List Form, WellFormed forms ∧ spell forms = text ∧ tokens forms = ts ∧
      Unrepeated used forms := by
  fun_induction Token.scanFrom line position used text generalizing ts with
  | case1 =>
    cases h
    exact ⟨[], trivial, rfl, rfl, unrepeated_nil _⟩
  | case2 => cases h
  | case3 => cases h
  | case4 position used c rest lexeme hread hrepeat ih =>
    obtain ⟨form, after, hl, ha, htext, rfl⟩ := starts_of_read hread
    have hafter : rest.drop form.lexeme.extent = after := drop_extent hl htext
    cases hscan : Token.scanFrom line (position + form.lexeme.extent + 1)
        (form.lexeme.keyword?.toList ++ used) (rest.drop form.lexeme.extent) with
    | error error =>
      rw [hscan] at h
      cases h
    | ok more =>
      rw [hscan] at h
      cases h
      obtain ⟨forms, hw, hspell, rfl, hu⟩ := ih hscan
      rw [hafter] at hspell
      refine ⟨form :: forms, ⟨hl, hspell ▸ ha, hw⟩, ?_, ?_, unrepeated_cons_iff.2 ⟨hrepeat, hu⟩⟩
      · rw [htext, ← hspell]
        rfl
      · cases htoken : form.token? <;> simp [tokens, lexeme, htoken]

theorem scan_of_spell {line : String} {forms : List Form} (hw : WellFormed forms)
    (hspell : spell forms = (Comment.strip line).toList)
    (hcount : ∀ word ∈ Token.unrepeatable, (keywords forms).count word ≤ 1) :
    Token.scan line = .ok (tokens forms) := by
  have hu : Unrepeated [] forms := fun word hword => ⟨hcount word hword, by simp⟩
  rw [Token.scan, ← hspell]
  exact scanFrom_spell hw hu line 0

theorem exists_of_scan {line : String} {ts : List Token} (h : Token.scan line = .ok ts) :
    ∃ forms : List Form, WellFormed forms ∧ spell forms = (Comment.strip line).toList ∧
      tokens forms = ts ∧ ∀ word ∈ Token.unrepeatable, (keywords forms).count word ≤ 1 := by
  obtain ⟨forms, hw, hspell, htokens, hu⟩ := exists_of_scanFrom h
  exact ⟨forms, hw, hspell, htokens, fun word hword => (hu word hword).1⟩

/-- **The scanner accepts exactly the lexical grammar.**  A line is scanned into tokens when,
without its comment, it is a concatenation of well-formed lexemes with these tokens, among which
none of the keywords `argument`, `print`, `therefore` and `valuate` is repeated. -/
theorem scan_eq_ok_iff (line : String) (ts : List Token) :
    Token.scan line = .ok ts ↔
      ∃ forms : List Form, WellFormed forms ∧ spell forms = (Comment.strip line).toList ∧
        tokens forms = ts ∧
        ∀ word ∈ ["argument", "print", "therefore", "valuate"],
          (keywords forms).count word ≤ 1 := by
  refine ⟨exists_of_scan, ?_⟩
  rintro ⟨forms, hw, hspell, rfl, hcount⟩
  exact scan_of_spell hw hspell hcount

end Form

end Entailment
