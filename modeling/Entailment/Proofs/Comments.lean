import Entailment.Proofs.FormulaRendering
import Mathlib.Algebra.Group.Nat.Even
import Mathlib.Order.Bounds.Defs

/-!
# Comments

Where the comment of a line starts is told by counting quotes, before anything is scanned.  The
scanner has a notion of its own of what is inside a quoted text: a quote opens one, the next quote
closes it, and no other lexeme holds a quote.  On lexemes that are legal the two notions agree, so
that a comment can be appended to any line that is scanned:

* `Comment.cut_eq_take`, `Comment.cut_eq_self` : **the comment starts at the first two slashes after
  an even number of quotes**;
* `Form.cut_spell_append` : legal lexemes hold no start of a comment and leave no text open;
* `Form.scan_eq_ok_iff_commented` : what is scanned is well-formed lexemes and a comment;
* `Token.scan_append_comment` : **a comment does not change the tokens of a line**.
-/

namespace Entailment

namespace Comment

/-! ### Where a comment starts -/

/-- A comment starts at the index `k` of a text: two slashes stand there, and the number of quotes
before them is even, or odd if the text starts inside a quoted text. -/
def StartsAt (quoted : Bool) (text : List Char) (k : ℕ) : Prop :=
  ['/', '/'] <+: text.drop k ∧ (Even ((text.take k).count '"') ↔ quoted = false)

instance (quoted : Bool) (text : List Char) (k : ℕ) : Decidable (StartsAt quoted text k) :=
  inferInstanceAs (Decidable (_ ∧ _))

variable {quoted : Bool} {c : Char} {text rest : List Char} {k : ℕ}

theorem startsAt_zero_iff :
    StartsAt quoted (c :: rest) 0 ↔ quoted = false ∧ c = '/' ∧ rest.head? = some '/' := by
  cases rest with
  | nil => simp [StartsAt]
  | cons d rest => simp [StartsAt, eq_comm, and_comm]

/-- A quote at the start of a text is counted by whether the rest starts inside a quoted text. -/
theorem startsAt_succ_iff :
    StartsAt quoted (c :: rest) (k + 1) ↔
      StartsAt (if c == '"' then !quoted else quoted) rest k := by
  simp only [StartsAt, List.drop_succ_cons, List.take_succ_cons, List.count_cons]
  refine and_congr_right fun _ => ?_
  by_cases hc : c = '"'
  · cases quoted <;> simp [hc, Nat.even_add_one]
  · simp [hc]

theorem StartsAt.lt_length (h : StartsAt quoted text k) : k < text.length := by
  have hle := h.1.length_le
  simp only [List.length_cons, List.length_nil, List.length_drop] at hle
  omega

/-- A comment that starts in the beginning of a text starts in the text. -/
theorem StartsAt.of_isPrefix {before : List Char} (h : StartsAt quoted before k)
    (hp : before <+: text) : StartsAt quoted text k := by
  obtain ⟨after, rfl⟩ := hp
  have hle := Nat.le_of_lt h.lt_length
  refine ⟨?_, ?_⟩
  · rw [List.drop_append_of_le_length hle]
    exact h.1.trans (List.prefix_append _ _)
  · rw [List.take_append_of_le_length hle]
    exact h.2

/-! ### What is cut off -/

theorem cut_of_startsAt_zero (h : StartsAt quoted (c :: rest) 0) :
    cut quoted (c :: rest) = [] := by
  obtain ⟨rfl, rfl, hhead⟩ := startsAt_zero_iff.1 h
  rw [cut, if_pos (by simp [hhead])]

theorem cut_of_not_startsAt_zero (h : ¬ StartsAt quoted (c :: rest) 0) :
    cut quoted (c :: rest) = c :: cut (if c == '"' then !quoted else quoted) rest := by
  rw [startsAt_zero_iff] at h
  rw [cut, if_neg fun hc => h (by simpa [and_assoc] using hc)]

theorem cut_isPrefix (quoted : Bool) (text : List Char) : cut quoted text <+: text := by
  induction text generalizing quoted with
  | nil => exact List.prefix_rfl
  | cons c rest ih =>
    by_cases h : StartsAt quoted (c :: rest) 0
    · rw [cut_of_startsAt_zero h]
      exact List.nil_prefix
    · rw [cut_of_not_startsAt_zero h]
      exact (List.prefix_cons_inj c).2 (ih _)

/-- No comment starts before what is cut off. -/
theorem not_startsAt_of_lt_length_cut (h : k < (cut quoted text).length) :
    ¬ StartsAt quoted text k := by
  induction text generalizing quoted k with
  | nil => cases h
  | cons c rest ih =>
    by_cases h0 : StartsAt quoted (c :: rest) 0
    · rw [cut_of_startsAt_zero h0] at h
      cases h
    · rw [cut_of_not_startsAt_zero h0, List.length_cons] at h
      cases k with
      | zero => exact h0
      | succ k =>
        rw [startsAt_succ_iff]
        exact ih (Nat.lt_of_succ_lt_succ h)

/-- What is cut off is nothing or starts like a comment. -/
theorem cut_eq_or_startsAt (quoted : Bool) (text : List Char) :
    cut quoted text = text ∨ StartsAt quoted text (cut quoted text).length := by
  induction text generalizing quoted with
  | nil => exact .inl rfl
  | cons c rest ih =>
    by_cases h : StartsAt quoted (c :: rest) 0
    · rw [cut_of_startsAt_zero h]
      exact .inr h
    · rw [cut_of_not_startsAt_zero h, List.length_cons, startsAt_succ_iff, List.cons.injEq]
      exact (ih _).imp_left fun heq => ⟨rfl, heq⟩

/-- The characters before the first start of a comment are left. -/
theorem cut_eq_take (h : IsLeast {k | StartsAt quoted text k} k) :
    cut quoted text = text.take k := by
  have hstart : StartsAt quoted text (cut quoted text).length := by
    refine (cut_eq_or_startsAt quoted text).resolve_left fun heq => ?_
    have hlt : k < (cut quoted text).length := by
      rw [heq]
      exact StartsAt.lt_length h.1
    exact not_startsAt_of_lt_length_cut hlt h.1
  have hk : k = (cut quoted text).length := by
    refine Nat.le_antisymm (h.2 hstart) (Nat.le_of_not_lt fun hlt => ?_)
    exact not_startsAt_of_lt_length_cut hlt h.1
  rw [hk]
  exact List.prefix_iff_eq_take.1 (cut_isPrefix quoted text)

/-- A text in which no comment starts is left as it is. -/
theorem cut_eq_self (h : ∀ k, ¬ StartsAt quoted text k) : cut quoted text = text :=
  (cut_eq_or_startsAt quoted text).resolve_right (h _)

theorem cut_cut (quoted : Bool) (text : List Char) :
    cut quoted (cut quoted text) = cut quoted text := by
  refine cut_eq_self fun k hk => ?_
  exact not_startsAt_of_lt_length_cut hk.lt_length (hk.of_isPrefix (cut_isPrefix quoted text))

/-- What may stand behind the lexemes of a line: nothing, or a comment. -/
def IsComment (text : List Char) : Prop := text = [] ∨ ['/', '/'] <+: text

theorem exists_isComment (quoted : Bool) (text : List Char) :
    ∃ comment, text = cut quoted text ++ comment ∧ IsComment comment := by
  have heq := List.prefix_iff_eq_append.1 (cut_isPrefix quoted text)
  refine ⟨text.drop (cut quoted text).length, heq.symm, ?_⟩
  refine (cut_eq_or_startsAt quoted text).imp (fun hall => ?_) fun hstart => hstart.1
  rw [hall, List.drop_length]

/-- Nothing is left of a comment. -/
theorem IsComment.cut_eq_nil (h : IsComment text) : cut false text = [] := by
  rcases h with rfl | ⟨after, rfl⟩
  · rfl
  · exact cut_of_startsAt_zero (startsAt_zero_iff.2 ⟨rfl, rfl, rfl⟩)

/-- What is appended to a comment belongs to it, if it is a comment itself. -/
theorem IsComment.append {more : List Char} (h : IsComment text) (hmore : IsComment more) :
    IsComment (text ++ more) := by
  rcases h with rfl | h
  · exact hmore
  · exact .inr (h.trans (List.prefix_append _ _))

/-- Characters that are neither slashes nor quotes do not matter to where the comment starts. -/
theorem cut_append {before : List Char} (h : ∀ c ∈ before, c ≠ '/' ∧ c ≠ '"')
    (after : List Char) : cut false (before ++ after) = before ++ cut false after := by
  induction before with
  | nil => rfl
  | cons c rest ih =>
    obtain ⟨⟨hslash, hquote⟩, hrest⟩ := List.forall_mem_cons.1 h
    have hstep : (if (c == '"') = true then !false else false) = false := by simp [hquote]
    rw [List.cons_append, cut, if_neg (by simp [hslash]), hstep, ih hrest, List.cons_append]

/-- Inside a quoted text no comment starts before the closing quote. -/
theorem cut_inside_append {inside : List Char} (h : '"' ∉ inside) (after : List Char) :
    cut true (inside ++ '"' :: after) = inside ++ '"' :: cut false after := by
  induction inside with
  | nil => simp [cut]
  | cons c rest ih =>
    rw [List.mem_cons, not_or] at h
    have hstep : (if (c == '"') = true then !true else true) = true := by simp [Ne.symm h.1]
    rw [List.cons_append, cut, if_neg (by simp), hstep, ih h.2, List.cons_append]

end Comment

/-! ### Lexemes before a comment -/

namespace Form

theorem cut_text_append {form : Form} (hl : form.Legal) (after : List Char) :
    Comment.cut false (form.text ++ after) = form.text ++ Comment.cut false after := by
  by_cases hq : form.Unquoted
  · refine Comment.cut_append (fun c hc => ⟨?_, ?_⟩) after
    · rintro rfl
      exact slash_not_mem_text hl hq hc
    · rintro rfl
      exact quote_not_mem_text hl hq hc
  · cases form with
    | quoted inside =>
      have hopen : Comment.cut false ('"' :: (inside ++ '"' :: after)) =
          '"' :: Comment.cut true (inside ++ '"' :: after) := by simp [Comment.cut]
      rw [text, List.cons_append, List.append_assoc, List.singleton_append, hopen,
        Comment.cut_inside_append hl]
      simp
    | _ => exact absurd trivial hq

/-- **Legal lexemes hold no start of a comment and leave no text open**: a comment that stands after
them starts where it would start on its own. -/
theorem cut_spell_append {forms : List Form} (hl : ∀ form ∈ forms, form.Legal)
    (after : List Char) :
    Comment.cut false (spell forms ++ after) = spell forms ++ Comment.cut false after := by
  induction forms with
  | nil => rfl
  | cons form rest ih =>
    obtain ⟨hform, hrest⟩ := List.forall_mem_cons.1 hl
    rw [spell, List.flatMap_cons, ← spell, List.append_assoc, cut_text_append hform, ih hrest,
      List.append_assoc]

/-- **What a line is made of**: it is scanned into tokens when it is a concatenation of well-formed
lexemes with these tokens, and a comment behind them or nothing. -/
theorem scan_eq_ok_iff_commented {line : String} {ts : List Token} :
    Token.scan line = .ok ts ↔
      ∃ forms comment, WellFormed forms ∧ line.toList = spell forms ++ comment ∧
        Comment.IsComment comment ∧ tokens forms = ts ∧
        ∀ word ∈ Token.unrepeatable, (keywords forms).count word ≤ 1 := by
  constructor
  · intro h
    obtain ⟨forms, hw, hspell, htokens, hcount⟩ := exists_of_scan h
    obtain ⟨comment, hline, hcomment⟩ := Comment.exists_isComment false line.toList
    rw [← Comment.toList_strip, ← hspell] at hline
    exact ⟨forms, comment, hw, hline, hcomment, htokens, hcount⟩
  · rintro ⟨forms, comment, hw, hline, hcomment, rfl, hcount⟩
    refine scan_of_spell hw ?_ hcount
    rw [Comment.toList_strip, hline, cut_spell_append fun form => legal_of_mem hw,
      hcomment.cut_eq_nil, List.append_nil]

end Form

/-- **A comment does not change the tokens of a line.** -/
theorem Token.scan_append_comment {before : String} {ts : List Token}
    (h : Token.scan before = .ok ts) (after : String) :
    Token.scan (before ++ "//" ++ after) = .ok ts := by
  obtain ⟨forms, comment, hw, hbefore, hcomment, htokens, hcount⟩ :=
    Form.scan_eq_ok_iff_commented.1 h
  have hslashes : Comment.IsComment ("//".toList ++ after.toList) := .inr (List.prefix_append _ _)
  refine Form.scan_eq_ok_iff_commented.2
    ⟨forms, _, hw, ?_, hcomment.append hslashes, htokens, hcount⟩
  rw [String.toList_append, String.toList_append, hbefore, List.append_assoc, List.append_assoc]

namespace Comment

/-- **A comment runs from its first start and does not matter.**  What is scanned of a line is what
stands before the first two slashes with an even number of quotes before them, or the whole line if
there are none; stripping a line again changes nothing; and a line that is scanned has the same
tokens with a comment at its end. -/
theorem ignored_from_first_start :
    (∀ (before after : String) (ts : List Token), Token.scan before = .ok ts →
      Token.scan (before ++ "//" ++ after) = .ok ts) ∧
    ∀ line : String,
      (∀ k, IsLeast {k | StartsAt false line.toList k} k →
        (strip line).toList = line.toList.take k) ∧
      ((∀ k, ¬ StartsAt false line.toList k) → strip line = line) ∧
      strip (strip line) = strip line := by
  refine ⟨fun before after ts h => Token.scan_append_comment h after, fun line => ⟨?_, ?_, ?_⟩⟩
  · intro k hk
    rw [toList_strip, cut_eq_take hk]
  · intro h
    rw [strip, cut_eq_self h, String.ofList_toList]
  · rw [strip, toList_strip, cut_cut, ← strip]

/-- The line `print "a//b" /// "c` has two slashes inside a text, a comment that starts with three
slashes, and a quote in the comment; another comment after it is part of the first. -/
theorem slashes_inside_text_kept :
    let line := "print \"a//b\" /// \"c"
    let ts : List Token := [.print, .text "a//b"]
    (Token.scan line = .ok ts ∧ Token.scan (line ++ "//" ++ "d\"") = .ok ts) ∧
      IsLeast {k | StartsAt false line.toList k} 13 ∧
        (strip line).toList = line.toList.take 13 := by
  intro line ts
  have hscan : Token.scan line = .ok ts := by decide +kernel
  have hleast : IsLeast {k | StartsAt false line.toList k} 13 := by
    have hstart : StartsAt false line.toList 13 := by decide
    refine ⟨hstart, fun k hk => Nat.le_of_not_lt fun hlt => ?_⟩
    have hnone : ∀ k < 13, ¬ StartsAt false line.toList k := by decide
    exact hnone k hlt hk
  obtain ⟨hsame, hstrip⟩ := ignored_from_first_start
  exact ⟨⟨hscan, hsame line "d\"" ts hscan⟩, hleast, (hstrip line).1 13 hleast⟩

end Comment

end Entailment
