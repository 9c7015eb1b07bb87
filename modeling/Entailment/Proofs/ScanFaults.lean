import Entailment.Proofs.LexicalGrammar

/-!
# Where a scan fails

A scan goes from lexeme to lexeme, and `Token.Reaches` lists the places it comes to: the position,
the keywords used before, and the text ahead.  Whatever is reported of a line that cannot be scanned
is found at such a place, and nothing that is read there lies outside of the line:

* `Lexeme.getElem?_of_read_eq_error` : a character that does not fit is one that stands there;
* `Token.Reaches.ahead_eq`, `Token.Reaches.exists_readsKeyword` : what holds wherever a scan comes
  to;
* `Token.scan_eq_error_iff` : a scan fails with the fault at a place it comes to, and in no other
  way;
* `Token.faults_located` : **the position of a fault says where it is**.
-/

namespace Entailment

/-! ### Faults of a lexeme -/

namespace Lexeme

variable {c : Char} {rest : List Char} {lexeme : Lexeme} {misfit : Misfit}

theorem closedBy_eq_error_iff {ends : Char → Bool} {after : List Char} :
    closedBy ends lexeme after = .error misfit ↔
      after.head? = some misfit.character ∧ ends misfit.character = false ∧
        misfit.offset = lexeme.extent + 1 := by
  obtain ⟨character, offset⟩ := misfit
  cases after with
  | nil => simp [closedBy]
  | cons c rest =>
    rw [closedBy]
    split_ifs with h
    · simp only [List.head?_cons, Option.some.injEq, false_iff]
      rintro ⟨rfl, hends, -⟩
      exact Bool.false_ne_true (hends.symm.trans h)
    · simp only [Except.error.injEq, Misfit.mk.injEq, List.head?_cons, Option.some.injEq]
      constructor
      · rintro ⟨rfl, rfl⟩
        exact ⟨rfl, by simpa using h, rfl⟩
      · rintro ⟨rfl, -, rfl⟩
        exact ⟨rfl, rfl⟩

/-- The character that does not close a lexeme is the next one after it. -/
theorem getElem?_of_closedBy {ends : Char → Bool}
    (h : closedBy ends lexeme (rest.drop lexeme.extent) = .error misfit) (c : Char) :
    (c :: rest)[misfit.offset]? = some misfit.character := by
  obtain ⟨hhead, -, hoffset⟩ := closedBy_eq_error_iff.1 h
  rw [hoffset, List.getElem?_cons_succ, ← List.head?_drop, hhead]

theorem dropWhile_eq_drop (p : Char → Bool) (text : List Char) :
    text.dropWhile p = text.drop (text.takeWhile p).length := by
  have hdrop : (text.takeWhile p ++ text.dropWhile p).drop (text.takeWhile p).length =
      text.dropWhile p := List.drop_left
  rw [List.takeWhile_append_dropWhile] at hdrop
  exact hdrop.symm

theorem length_takeWhile_lt_iff :
    (rest.takeWhile (· != '"')).length < rest.length ↔ '"' ∈ rest := by
  have hself : rest.takeWhile (· != '"') = rest ↔ '"' ∉ rest := by
    rw [List.takeWhile_eq_self_iff]
    exact ⟨fun h hmem => by simpa using h _ hmem,
      fun h c hc => bne_iff_ne.2 fun heq => h (heq ▸ hc)⟩
  have hpre : rest.takeWhile (· != '"') <+: rest := List.takeWhile_prefix _
  rw [← not_iff_not, ← hself, Nat.not_lt]
  exact ⟨hpre.eq_of_length_le, fun heq => Nat.le_of_eq (congrArg List.length heq).symm⟩

/-- A text that is not closed is reported with the last character of the line. -/
theorem readText_eq_error_iff :
    readText rest = .error misfit ↔
      '"' ∉ rest ∧ misfit = ⟨rest.getLast?.getD '"', rest.length⟩ := by
  rw [readText]
  by_cases h : '"' ∈ rest
  · simp [length_takeWhile_lt_iff, h]
  · simp [length_takeWhile_lt_iff, h, eq_comm]

theorem getElem?_of_readText (h : readText rest = .error misfit) :
    ('"' :: rest)[misfit.offset]? = some misfit.character := by
  obtain ⟨-, rfl⟩ := readText_eq_error_iff.1 h
  cases rest with
  | nil => rfl
  | cons c rest => simp [List.getLast?_eq_getElem?]

theorem getElem?_of_readPair (h : readPair c rest = .error misfit) :
    (c :: rest)[misfit.offset]? = some misfit.character := by
  cases rest with
  | nil =>
    cases h
    rfl
  | cons d after =>
    rw [readPair] at h
    cases hp : Token.ofPair? c d with
    | none =>
      simp only [hp] at h
      cases h
      rfl
    | some token => simp [hp] at h

theorem getElem?_of_readAtom (h : readAtom c rest = .error misfit) :
    (c :: rest)[misfit.offset]? = some misfit.character := by
  rw [readAtom, dropWhile_eq_drop] at h
  exact getElem?_of_closedBy h c

theorem getElem?_of_readWord (h : readWord c rest = .error misfit) :
    (c :: rest)[misfit.offset]? = some misfit.character := by
  rw [readWord] at h
  cases hk : keywordAt? (c :: rest) with
  | some entry =>
    simp only [hk] at h
    exact getElem?_of_closedBy h c
  | none =>
    simp only [hk, dropWhile_eq_drop] at h
    exact getElem?_of_closedBy h c

/-- **A character that does not fit is one that stands there.** -/
theorem getElem?_of_read_eq_error (h : read c rest = .error misfit) :
    (c :: rest)[misfit.offset]? = some misfit.character := by
  rw [read] at h
  by_cases hblank : Name.isBlank c = true
  · rw [if_pos hblank] at h
    cases h
  rw [if_neg hblank] at h
  by_cases hquote : (c == '"') = true
  · rw [if_pos hquote] at h
    rw [beq_iff_eq.1 hquote]
    exact getElem?_of_readText h
  rw [if_neg hquote] at h
  cases hs : Token.ofChar? c with
  | some token => simp [hs] at h
  | none =>
    simp only [hs] at h
    split_ifs at h with hpair hupper hlower
    · exact getElem?_of_readPair h
    · exact getElem?_of_readAtom h
    · exact getElem?_of_readWord h
    · cases h
      rfl

/-! ### What a lexeme covers -/

/-- A lexeme lies inside the text. -/
theorem extent_le_of_read (h : read c rest = .ok lexeme) : lexeme.extent ≤ rest.length := by
  obtain ⟨form, after, hl, -, htext, rfl⟩ := Form.starts_of_read h
  have hlength := congrArg List.length htext
  rw [List.length_cons, List.length_append] at hlength
  have hpos := List.length_pos_iff.2 (Form.text_ne_nil hl)
  simp only [Form.lexeme]
  omega

/-- A keyword is spelled where it is read. -/
theorem keyword_isPrefix_of_read {word : String} (h : read c rest = .ok lexeme)
    (hword : lexeme.keyword? = some word) : word.toList <+: c :: rest := by
  obtain ⟨form, after, -, -, htext, rfl⟩ := Form.starts_of_read h
  cases form with
  | keyword spelled token =>
    obtain rfl := Option.some.inj hword
    exact ⟨after, htext.symm⟩
  | _ => cases hword

theorem repetition?_eq_some_iff {used : List String} {word : String} :
    lexeme.repetition? used = some word ↔
      lexeme.keyword? = some word ∧ word ∈ Token.unrepeatable ∧ word ∈ used := by
  simp [repetition?, Option.filter_eq_some_iff]

end Lexeme

/-! ### The places a scan comes to -/

namespace Token

/-- The scan of a line comes to a position, after the keywords `used`, with some text ahead of
it. -/
inductive Reaches (line : String) : ℕ → List String → List Char → Prop
  /-- It starts at the beginning of the line without its comment. -/
  | start : Reaches line 0 [] (Comment.strip line).toList
  /-- It goes on behind a lexeme that is no repeated keyword. -/
  | next {position : ℕ} {used : List String} {c : Char} {rest : List Char} {lexeme : Lexeme}
    (h : Reaches line position used (c :: rest)) (hread : Lexeme.read c rest = .ok lexeme)
    (hrepeat : lexeme.repetition? used = none) :
    Reaches line (position + lexeme.extent + 1) (lexeme.keyword?.toList ++ used)
      (rest.drop lexeme.extent)

/-- The scan of a line reads the keyword `word` at a position, and goes on. -/
def ReadsKeyword (line : String) (position : ℕ) (word : String) : Prop :=
  ∃ used c rest lexeme, Reaches line position used (c :: rest) ∧
    Lexeme.read c rest = .ok lexeme ∧ lexeme.repetition? used = none ∧ lexeme.keyword? = some word

variable {line : String} {position : ℕ} {used : List String} {ahead : List Char}

/-- What is ahead of a scan is what follows its position, which is not behind the end. -/
theorem Reaches.ahead_eq (h : Reaches line position used ahead) :
    position ≤ (Comment.strip line).toList.length ∧
      ahead = (Comment.strip line).toList.drop position := by
  induction h with
  | start => exact ⟨Nat.zero_le _, rfl⟩
  | @next position used c rest lexeme h hread hrepeat ih =>
    obtain ⟨hle, hahead⟩ := ih
    have hextent := Lexeme.extent_le_of_read hread
    have hlength := congrArg List.length hahead
    rw [List.length_cons, List.length_drop] at hlength
    refine ⟨by omega, ?_⟩
    rw [Nat.add_assoc, ← List.drop_drop, ← hahead, List.drop_succ_cons]

/-- The keywords used before a place were read at smaller positions. -/
theorem Reaches.exists_readsKeyword (h : Reaches line position used ahead) {word : String}
    (hword : word ∈ used) : ∃ earlier < position, ReadsKeyword line earlier word := by
  induction h with
  | start => cases hword
  | @next position used c rest lexeme h hread hrepeat ih =>
    rcases List.mem_append.1 hword with hword | hword
    · exact ⟨position, by omega, used, c, rest, lexeme, h, hread, hrepeat,
        Option.mem_toList.1 hword⟩
    · obtain ⟨earlier, hlt, hreads⟩ := ih hword
      exact ⟨earlier, by omega, hreads⟩

/-- What is left of a scan at a place decides how the whole scan ends. -/
theorem Reaches.scan_eq (h : Reaches line position used ahead) :
    ∃ ts, scan line = (scanFrom line position used ahead).map (ts ++ ·) := by
  induction h with
  | start =>
    refine ⟨[], ?_⟩
    rw [scan]
    cases scanFrom line 0 [] (Comment.strip line).toList <;> rfl
  | @next position used c rest lexeme h hread hrepeat ih =>
    obtain ⟨ts, hts⟩ := ih
    refine ⟨ts ++ lexeme.token?.toList, ?_⟩
    rw [hts, scanFrom, hread]
    simp only [hrepeat]
    cases scanFrom line (position + lexeme.extent + 1) (lexeme.keyword?.toList ++ used)
      (rest.drop lexeme.extent) <;> simp [Except.map]

/-! ### Faults of a line -/

/-- A place that the scan of a line comes to is at fault: a character there does not fit, or a
keyword is repeated. -/
inductive Faulty (line : String) : LexicalError → Prop
  | character {position : ℕ} {used : List String} {c : Char} {rest : List Char} {misfit : Misfit}
    (h : Reaches line position used (c :: rest)) (hread : Lexeme.read c rest = .error misfit) :
    Faulty line (.unexpectedCharacter misfit.character (position + misfit.offset) line)
  | repetition {position : ℕ} {used : List String} {c : Char} {rest : List Char} {lexeme : Lexeme}
    {word : String} (h : Reaches line position used (c :: rest))
    (hread : Lexeme.read c rest = .ok lexeme) (hrepeat : lexeme.repetition? used = some word) :
    Faulty line (.unexpectedSymbol word position line)

theorem Faulty.scan_eq {error : LexicalError} (h : Faulty line error) :
    scan line = .error error := by
  cases h with
  | character h hread =>
    obtain ⟨ts, hts⟩ := h.scan_eq
    rw [hts, scanFrom, hread]
    rfl
  | repetition h hread hrepeat =>
    obtain ⟨ts, hts⟩ := h.scan_eq
    rw [hts, scanFrom, hread]
    simp only [hrepeat]
    rfl

theorem faulty_of_scanFrom {error : LexicalError} (hr : Reaches line position used ahead)
    (h : scanFrom line position used ahead = .error error) : Faulty line error := by
  fun_induction scanFrom line position used ahead with
  | case1 => cases h
  | case2 position used c rest misfit hread =>
    cases h
    exact .character hr hread
  | case3 position used c rest lexeme hread word hrepeat =>
    cases h
    exact .repetition hr hread hrepeat
  | case4 position used c rest lexeme hread hrepeat ih =>
    refine ih (hr.next hread hrepeat) ?_
    cases hscan : scanFrom line (position + lexeme.extent + 1) (lexeme.keyword?.toList ++ used)
        (rest.drop lexeme.extent) with
    | error found =>
      rw [hscan] at h
      exact h
    | ok ts =>
      rw [hscan] at h
      cases h

/-- **A scan fails with the fault at a place it comes to**, and in no other way. -/
theorem scan_eq_error_iff {error : LexicalError} :
    scan line = .error error ↔ Faulty line error :=
  ⟨faulty_of_scanFrom .start, Faulty.scan_eq⟩

/-- Whatever is read at a place lies inside the line. -/
theorem Reaches.read_within {c : Char} {rest : List Char}
    (h : Reaches line position used (c :: rest)) :
    (∀ lexeme, Lexeme.read c rest = .ok lexeme →
      position + lexeme.extent < (Comment.strip line).toList.length) ∧
    ∀ misfit, Lexeme.read c rest = .error misfit →
      (Comment.strip line).toList[position + misfit.offset]? = some misfit.character := by
  obtain ⟨hle, hahead⟩ := h.ahead_eq
  have hlength := congrArg List.length hahead
  rw [List.length_cons, List.length_drop] at hlength
  refine ⟨fun lexeme hread => ?_, fun misfit hread => ?_⟩
  · have hextent := Lexeme.extent_le_of_read hread
    omega
  · rw [← List.getElem?_drop, ← hahead]
    exact Lexeme.getElem?_of_read_eq_error hread

/-- A text that is opened and never closed is reported with the last character of the line. -/
theorem Reaches.scan_eq_of_unclosed {rest : List Char}
    (h : Reaches line position used ('"' :: rest)) (hclosed : '"' ∉ rest) :
    ∃ character, (Comment.strip line).toList.getLast? = some character ∧
      scan line = .error (.unexpectedCharacter character
        ((Comment.strip line).toList.length - 1) line) := by
  have hread : Lexeme.read '"' rest = .error ⟨rest.getLast?.getD '"', rest.length⟩ := by
    rw [Lexeme.read, if_neg (by decide), if_pos (by decide)]
    exact Lexeme.readText_eq_error_iff.2 ⟨hclosed, rfl⟩
  obtain ⟨hle, hahead⟩ := h.ahead_eq
  have hlength := congrArg List.length hahead
  rw [List.length_cons, List.length_drop] at hlength
  have hlast : position + rest.length = (Comment.strip line).toList.length - 1 := by omega
  have hstands := h.read_within.2 _ hread
  rw [hlast] at hstands
  refine ⟨rest.getLast?.getD '"', ?_, ?_⟩
  · rw [List.getLast?_eq_getElem?]
    exact hstands
  · rw [← hlast]
    exact scan_eq_error_iff.2 (.character h hread)

/-- **The position of a fault says where it is.**  A character that does not fit stands at its
position in the line without its comment.  A repeated keyword is spelled from its position on, is
one that a line may use only once, and was read before at a smaller position.  No place that the
scan comes to is behind the end of the line; what is ahead there decides how the scan ends, and
what is read there, or cannot be read, lies inside the line.  A text that is never closed is
reported with the last character, of which there is one. -/
theorem faults_located (line : String) :
    let text := (Comment.strip line).toList
    (∀ character position l, scan line = .error (.unexpectedCharacter character position l) →
      l = line ∧ text[position]? = some character) ∧
    (∀ symbol position l, scan line = .error (.unexpectedSymbol symbol position l) →
      l = line ∧ symbol ∈ ["argument", "print", "therefore", "valuate"] ∧
        symbol.toList <+: text.drop position ∧
        ∃ earlier < position, ReadsKeyword line earlier symbol) ∧
    (∀ position used ahead, Reaches line position used ahead →
      position ≤ text.length ∧ ahead = text.drop position ∧
        (∃ ts, scan line = (scanFrom line position used ahead).map (ts ++ ·)) ∧
        ∀ c rest, ahead = c :: rest →
          (∀ lexeme, Lexeme.read c rest = .ok lexeme → position + lexeme.extent < text.length) ∧
          ∀ misfit, Lexeme.read c rest = .error misfit →
            text[position + misfit.offset]? = some misfit.character) ∧
    ∀ position used rest, Reaches line position used ('"' :: rest) → '"' ∉ rest →
      ∃ character, text.getLast? = some character ∧
        scan line = .error (.unexpectedCharacter character (text.length - 1) line) := by
  intro text
  refine ⟨fun character position l h => ?_, fun symbol position l h => ?_,
    fun position used ahead h => ?_, fun position used rest h => h.scan_eq_of_unclosed⟩
  · cases scan_eq_error_iff.1 h with
    | character hr hread => exact ⟨rfl, hr.read_within.2 _ hread⟩
  · cases scan_eq_error_iff.1 h with
    | repetition hr hread hrepeat =>
      obtain ⟨hword, honce, hused⟩ := Lexeme.repetition?_eq_some_iff.1 hrepeat
      refine ⟨rfl, honce, ?_, hr.exists_readsKeyword hused⟩
      rw [← hr.ahead_eq.2]
      exact Lexeme.keyword_isPrefix_of_read hread hword
  · obtain ⟨hle, hahead⟩ := h.ahead_eq
    refine ⟨hle, hahead, h.scan_eq, ?_⟩
    rintro c rest rfl
    exact h.read_within

/-- In `!P therefore Q therefore R` the second `therefore` starts at position `15`, and in `P "` the
quote that opens a text at position `2` is the last character. -/
theorem repeated_keyword_and_unclosed_text_located :
    let repeated := "!P therefore Q therefore R"
    let unclosed := "P \""
    (scan repeated = .error (.unexpectedSymbol "therefore" 15 repeated) ∧
      "therefore".toList <+: (Comment.strip repeated).toList.drop 15 ∧
      ∃ earlier < 15, ReadsKeyword repeated earlier "therefore") ∧
    Reaches unclosed 2 [] ['"'] ∧ scan unclosed = .error (.unexpectedCharacter '"' 2 unclosed) := by
  intro repeated unclosed
  have hscan : scan repeated = .error (.unexpectedSymbol "therefore" 15 repeated) := by
    decide +kernel
  obtain ⟨-, -, hspelled, hbefore⟩ := (faults_located repeated).2.1 _ _ _ hscan
  refine ⟨⟨hscan, hspelled, hbefore⟩, ?_⟩
  have htext : (Comment.strip unclosed).toList = ['P', ' ', '"'] := by decide
  have hatom : Lexeme.read 'P' [' ', '"'] = .ok ⟨some (.atom "P"), 0, none⟩ := by decide +kernel
  have hblank : Lexeme.read ' ' ['"'] = .ok ⟨none, 0, none⟩ := by decide
  have hstart : Reaches unclosed 0 [] ['P', ' ', '"'] := htext ▸ .start
  have hquote : Reaches unclosed 2 [] ['"'] := (hstart.next hatom rfl).next hblank rfl
  obtain ⟨character, hlast, hunclosed⟩ := (faults_located unclosed).2.2.2 _ _ _ hquote (by simp)
  rw [htext] at hlast hunclosed
  obtain rfl := Option.some.inj hlast
  exact ⟨hquote, hunclosed⟩

end Token

end Entailment
