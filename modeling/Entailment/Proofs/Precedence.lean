import Entailment.Schema.Reader
import Mathlib.Tactic.Common

/-!
# Precedence in written schemas

A schema is written with as few brackets as the strengths of its signs allow, or with more.  The
negation sign binds most strongly, then `&`, `|` and `->`; the sides of `&` and `|` group to the
left, those of `->` to the right.  `Schema.Prints` says which pieces are a printing of a schema in
this sense, and the reader accepts exactly the printings:

* `Schema.Prints.readable` : **a printing is read as its schema**, unless a sign follows that binds
  its end;
* `Schema.spans_readImp` : what is read without skipping anything is a printing of the schema read;
* `Schema.exists_hasShape`, `Schema.instantiate_of_hasShape` : what a schema becomes has its shape;
* `Schema.ofPieces_eq_ok_iff_prints` : **the reader accepts the printings of schemas and nothing
  else**, and what it reads becomes a formula of the same shape.
-/

namespace Entailment

namespace Schema

/-! ### Printings -/

/-- The connectives with two sides. -/
inductive Connective where
  | conj
  | disj
  | imp
  deriving DecidableEq, Repr

namespace Connective

/-- The sign that is written between the sides. -/
def sign : Connective → Piece
  | conj => .conjunction
  | disj => .disjunction
  | imp => .arrow

/-- How strongly the sign binds.  The negation sign binds with strength `3`. -/
def strength : Connective → ℕ
  | conj => 2
  | disj => 1
  | imp => 0

/-- Whether repeated signs without brackets group to the left. -/
def groupsLeft : Connective → Bool
  | conj | disj => true
  | imp => false

/-- The strength with which the left side has to bind if it is without brackets: that of the sign on
the side it groups to, and more on the other. -/
def leftNeeds (c : Connective) : ℕ := if c.groupsLeft then c.strength else c.strength + 1

/-- The strength with which the right side has to bind if it is without brackets. -/
def rightNeeds (c : Connective) : ℕ := if c.groupsLeft then c.strength + 1 else c.strength

/-- The schema with these sides. -/
def join : Connective → Schema → Schema → Schema
  | conj => .conj
  | disj => .disj
  | imp => .imp

end Connective

/-- The pieces are a printing of the schema for a place where what is not in brackets has to bind
with the strength `needed`.  Brackets may stand around any part. -/
inductive Prints : ℕ → Schema → List Piece → Prop
  /-- A metavariable. -/
  | var {needed : ℕ} {name : String} (h : name ∉ reserved) : Prints needed (.var name) [.word name]
  /-- An atom. -/
  | atom {needed : ℕ} {name : String} (h : Name.isAtom name = true) :
    Prints needed (.atom name) [.quoted name]
  /-- A negation; nothing binds more strongly. -/
  | neg {needed : ℕ} {inner : Schema} {used : List Piece} (h : Prints 3 inner used) :
    Prints needed (.neg inner) (.negation :: used)
  /-- Two sides with a sign between them that binds strongly enough. -/
  | binary (c : Connective) {needed : ℕ} {left right : Schema} {used more : List Piece}
    (hn : needed ≤ c.strength) (hl : Prints c.leftNeeds left used)
    (hr : Prints c.rightNeeds right more) :
    Prints needed (c.join left right) (used ++ c.sign :: more)
  /-- A group in brackets. -/
  | group {needed : ℕ} {s : Schema} {used : List Piece} (h : Prints 0 s used) :
    Prints needed s (.opening .round :: (used ++ [.closing .round]))

/-- What may stand in a place may stand where less is needed. -/
theorem Prints.mono {needed less : ℕ} {s : Schema} {used : List Piece} (h : Prints needed s used)
    (hle : less ≤ needed) : Prints less s used := by
  cases h with
  | var h => exact .var h
  | atom h => exact .atom h
  | neg h => exact .neg h
  | binary c hn hl hr => exact .binary c (Nat.le_trans hle hn) hl hr
  | group h => exact .group h

/-! ### Equations of the readers -/

section Equations

variable {pieces rest : List Piece} {left : Read pieces} {right : Read rest}

/-- What is read after a sign leaves fewer pieces than there were before its left side. -/
theorem Read.length_rest_lt {piece : Piece} (left : Read pieces) (right : Read rest)
    (h : left.rest = piece :: rest) : right.rest.length < pieces.length := by
  have hleft := left.shorter
  have hright := right.shorter
  rw [h, List.length_cons] at hleft
  omega

theorem readConj_of_readNeg (hl : readNeg pieces = .ok left) :
    readConj pieces = readConjAfter left := by
  rw [readConj, hl]

theorem readConjAfter_of_head? (h : left.rest.head? ≠ some .conjunction) :
    readConjAfter left = .ok left := by
  rw [readConjAfter]
  split
  · next rest hrest => simp [hrest] at h
  · rfl

theorem readConjAfter_of_conjunction (hrest : left.rest = .conjunction :: rest)
    (hr : readNeg rest = .ok right) :
    readConjAfter left = readConjAfter ⟨.conj left.schema right.schema,
      left.skipped || right.skipped, right.rest, left.length_rest_lt right hrest⟩ := by
  rw [readConjAfter.eq_def left]
  split
  · next found hfound =>
    cases hrest.symm.trans hfound
    rw [hr]
  · next hno => exact absurd hrest (hno rest)

theorem readDisj_of_readConj (hl : readConj pieces = .ok left) :
    readDisj pieces = readDisjAfter left := by
  rw [readDisj, hl]

theorem readDisjAfter_of_head? (h : left.rest.head? ≠ some .disjunction) :
    readDisjAfter left = .ok left := by
  rw [readDisjAfter]
  split
  · next rest hrest => simp [hrest] at h
  · rfl

theorem readDisjAfter_of_disjunction (hrest : left.rest = .disjunction :: rest)
    (hr : readConj rest = .ok right) :
    readDisjAfter left = readDisjAfter ⟨.disj left.schema right.schema,
      left.skipped || right.skipped, right.rest, left.length_rest_lt right hrest⟩ := by
  rw [readDisjAfter.eq_def left]
  split
  · next found hfound =>
    cases hrest.symm.trans hfound
    rw [hr]
  · next hno => exact absurd hrest (hno rest)

theorem readImp_of_head? (hl : readDisj pieces = .ok left)
    (h : left.rest.head? ≠ some .arrow) : readImp pieces = .ok left := by
  rw [readImp, hl]
  simp only
  split
  · next rest hrest => simp [hrest] at h
  · rfl

theorem readImp_of_arrow (hl : readDisj pieces = .ok left) (hrest : left.rest = .arrow :: rest)
    (hr : readImp rest = .ok right) :
    readImp pieces = .ok ⟨.imp left.schema right.schema, left.skipped || right.skipped, right.rest,
      left.length_rest_lt right hrest⟩ := by
  rw [readImp.eq_def pieces, hl]
  simp only
  split
  · next found hfound =>
    cases hrest.symm.trans hfound
    rw [hr]
  · next hno => exact absurd hrest (hno rest)

theorem readNeg_word {name : String} (h : name ∉ reserved) (rest : List Piece) :
    readNeg (.word name :: rest) = .ok ⟨.var name, false, rest, Nat.lt_succ_self _⟩ := by
  rw [readNeg, if_neg (by simpa using h)]

theorem readNeg_quoted {name : String} (h : Name.isAtom name = true) (rest : List Piece) :
    readNeg (.quoted name :: rest) = .ok ⟨.atom name, false, rest, Nat.lt_succ_self _⟩ := by
  rw [readNeg, if_pos h]

theorem readNeg_negation (h : readNeg rest = .ok right) :
    readNeg (.negation :: rest) = .ok ⟨.neg right.schema, right.skipped, right.rest,
      Nat.lt_succ_of_lt right.shorter⟩ := by
  rw [readNeg, h]

theorem readNeg_opening (h : readImp rest = .ok right) :
    readNeg (.opening .round :: rest) = .ok (closeGroup right) := by
  rw [readNeg, h]

theorem rest_closeGroup {after : List Piece} (h : right.rest = .closing .round :: after) :
    (closeGroup right : Read (.opening .round :: rest)).rest = after := by
  simp only [closeGroup, h, Piece.afterGroup]

end Equations

/-! ### Printings are read -/

section Readable

variable {needed : ℕ} {s left right : Schema} {used more : List Piece}

/-- The pieces are read as the schema, whatever follows them. -/
def ReadTightly (s : Schema) (used : List Piece) : Prop :=
  ∀ pieces rest, pieces = used ++ rest → ∃ h, readNeg pieces = .ok ⟨s, false, rest, h⟩

/-- The pieces are read as the schema and the reader goes on with it as the beginning of a
conjunction, whatever follows them. -/
def BeginsConj (s : Schema) (used : List Piece) : Prop :=
  ∀ pieces rest, pieces = used ++ rest →
    ∃ h, readConj pieces = readConjAfter ⟨s, false, rest, h⟩

/-- The pieces are read as the schema and the reader goes on with it as the beginning of a
disjunction, unless `&` follows them. -/
def BeginsDisj (s : Schema) (used : List Piece) : Prop :=
  ∀ pieces rest, pieces = used ++ rest → rest.head? ≠ some .conjunction →
    ∃ h, readDisj pieces = readDisjAfter ⟨s, false, rest, h⟩

/-- The pieces are read as the schema, unless a sign between two sides follows them. -/
def ReadLoosely (s : Schema) (used : List Piece) : Prop :=
  ∀ pieces rest, pieces = used ++ rest → (∀ c : Connective, rest.head? ≠ some c.sign) →
    ∃ h, readImp pieces = .ok ⟨s, false, rest, h⟩

/-! #### From stronger to weaker places -/

theorem ReadTightly.beginsConj (h : ReadTightly s used) : BeginsConj s used := by
  intro pieces rest hp
  obtain ⟨hlt, hneg⟩ := h pieces rest hp
  exact ⟨hlt, readConj_of_readNeg hneg⟩

theorem BeginsConj.beginsDisj (h : BeginsConj s used) : BeginsDisj s used := by
  intro pieces rest hp hrest
  obtain ⟨hlt, hconj⟩ := h pieces rest hp
  rw [readConjAfter_of_head? hrest] at hconj
  exact ⟨hlt, readDisj_of_readConj hconj⟩

theorem BeginsDisj.readLoosely (h : BeginsDisj s used) : ReadLoosely s used := by
  intro pieces rest hp hrest
  obtain ⟨hlt, hdisj⟩ := h pieces rest hp (hrest .conj)
  rw [readDisjAfter_of_head? (hrest .disj)] at hdisj
  exact ⟨hlt, readImp_of_head? hdisj (hrest .imp)⟩

/-! #### One lemma for each way to print -/

theorem readTightly_var {name : String} (h : name ∉ reserved) :
    ReadTightly (.var name) [.word name] := by
  rintro _ rest rfl
  exact ⟨_, readNeg_word h rest⟩

theorem readTightly_atom {name : String} (h : Name.isAtom name = true) :
    ReadTightly (.atom name) [.quoted name] := by
  rintro _ rest rfl
  exact ⟨_, readNeg_quoted h rest⟩

theorem ReadTightly.neg (h : ReadTightly s used) : ReadTightly (.neg s) (.negation :: used) := by
  rintro _ rest rfl
  obtain ⟨hlt, hinner⟩ := h (used ++ rest) rest rfl
  exact ⟨_, readNeg_negation hinner⟩

/-- Inside a group a closing bracket follows, which is no sign. -/
theorem ReadLoosely.group (h : ReadLoosely s used) :
    ReadTightly s (.opening .round :: (used ++ [.closing .round])) := by
  intro pieces rest hp
  rw [List.cons_append, List.append_assoc, List.singleton_append] at hp
  subst hp
  have hsign : ∀ c : Connective, (Piece.closing .round :: rest).head? ≠ some c.sign := by
    intro c
    cases c <;> simp [Connective.sign]
  obtain ⟨hlt, hinner⟩ := h _ _ rfl hsign
  exact ⟨_, readNeg_opening hinner⟩

theorem BeginsConj.conj (hl : BeginsConj left used) (hr : ReadTightly right more) :
    BeginsConj (.conj left right) (used ++ .conjunction :: more) := by
  intro pieces rest hp
  rw [List.append_assoc, List.cons_append] at hp
  obtain ⟨hlt, hleft⟩ := hl pieces _ hp
  obtain ⟨hlt', hright⟩ := hr _ rest rfl
  exact ⟨_, hleft.trans (readConjAfter_of_conjunction rfl hright)⟩

theorem BeginsDisj.disj (hl : BeginsDisj left used) (hr : BeginsConj right more) :
    BeginsDisj (.disj left right) (used ++ .disjunction :: more) := by
  intro pieces rest hp hrest
  rw [List.append_assoc, List.cons_append] at hp
  obtain ⟨hlt, hleft⟩ := hl pieces _ hp (by simp)
  obtain ⟨hlt', hright⟩ := hr _ rest rfl
  rw [readConjAfter_of_head? hrest] at hright
  exact ⟨_, hleft.trans (readDisjAfter_of_disjunction rfl hright)⟩

theorem ReadLoosely.imp (hl : BeginsDisj left used) (hr : ReadLoosely right more) :
    ReadLoosely (.imp left right) (used ++ .arrow :: more) := by
  intro pieces rest hp hrest
  rw [List.append_assoc, List.cons_append] at hp
  obtain ⟨hlt, hleft⟩ := hl pieces _ hp (by simp)
  rw [readDisjAfter_of_head? (by simp)] at hleft
  obtain ⟨hlt', hright⟩ := hr _ rest rfl hrest
  exact ⟨_, readImp_of_arrow hleft rfl hright⟩

/-! #### Printings -/

/-- The pieces are read as the schema in a place of this strength by every reader that may come
there. -/
structure Readable (needed : ℕ) (s : Schema) (used : List Piece) : Prop where
  /-- As strongly as a negation sign binds, by the reader of negations. -/
  neg : 3 ≤ needed → ReadTightly s used
  /-- As strongly as `&` binds, by the reader of conjunctions. -/
  conj : 2 ≤ needed → BeginsConj s used
  /-- As strongly as `|` binds, by the reader of disjunctions. -/
  disj : 1 ≤ needed → BeginsDisj s used
  /-- In any case by the reader of conditionals. -/
  imp : ReadLoosely s used

theorem ReadTightly.readable (h : ReadTightly s used) : Readable needed s used :=
  ⟨fun _ => h, fun _ => h.beginsConj, fun _ => h.beginsConj.beginsDisj,
    h.beginsConj.beginsDisj.readLoosely⟩

/-- **A printing is read as its schema.** -/
theorem Prints.readable (h : Prints needed s used) : Readable needed s used := by
  -- a sign between two sides stands in no stronger place than its own
  induction h with
  | var h => exact (readTightly_var h).readable
  | atom h => exact (readTightly_atom h).readable
  | neg _ ih => exact (ih.neg (by decide)).neg.readable
  | group _ ih => exact ih.imp.group.readable
  | binary c hn _ _ ihl ihr =>
    cases c with
    | conj =>
      have h := (ihl.conj (by decide)).conj (ihr.neg (by decide))
      have hn : _ ≤ 2 := hn
      exact ⟨by omega, fun _ => h, fun _ => h.beginsDisj, h.beginsDisj.readLoosely⟩
    | disj =>
      have h := (ihl.disj (by decide)).disj (ihr.conj (by decide))
      have hn : _ ≤ 1 := hn
      exact ⟨by omega, by omega, fun _ => h, h.readLoosely⟩
    | imp =>
      have hn : _ ≤ 0 := hn
      exact ⟨by omega, by omega, by omega, .imp (ihl.disj (by decide)) ihr.imp⟩

end Readable

/-! ### What is read is a printing -/

/-- If nothing was skipped, the pieces that were read are a printing of the schema. -/
def Read.Spans {pieces : List Piece} (needed : ℕ) (r : Read pieces) : Prop :=
  r.skipped = false → ∃ used, pieces = used ++ r.rest ∧ Prints needed r.schema used

section Spans

variable {pieces rest : List Piece}

theorem Read.Spans.mono {needed less : ℕ} {r : Read pieces} (h : r.Spans needed)
    (hle : less ≤ needed) : r.Spans less := by
  intro hskipped
  obtain ⟨used, hused, hprints⟩ := h hskipped
  exact ⟨used, hused, hprints.mono hle⟩

theorem Read.Spans.joined (c : Connective) {left : Read pieces} {right : Read rest}
    (hl : left.Spans c.leftNeeds) (hrest : left.rest = c.sign :: rest)
    (hr : right.Spans c.rightNeeds) :
    (Read.mk (c.join left.schema right.schema) (left.skipped || right.skipped) right.rest
      (left.length_rest_lt right hrest) : Read pieces).Spans c.strength := by
  intro hskipped
  obtain ⟨hleft, hright⟩ := Bool.or_eq_false_iff.1 hskipped
  obtain ⟨used, hused, hprintsLeft⟩ := hl hleft
  obtain ⟨more, hmore, hprintsRight⟩ := hr hright
  refine ⟨used ++ c.sign :: more, ?_, .binary c (Nat.le_refl _) hprintsLeft hprintsRight⟩
  calc pieces = used ++ left.rest := hused
    _ = used ++ c.sign :: rest := by rw [hrest]
    _ = used ++ c.sign :: (more ++ right.rest) := congrArg (used ++ c.sign :: ·) hmore
    _ = (used ++ c.sign :: more) ++ right.rest := by simp

theorem Read.Spans.grouped {inner : Read rest} (h : inner.Spans 0) :
    (closeGroup inner : Read (.opening .round :: rest)).Spans 3 := by
  intro hskipped
  obtain ⟨hinner, hclosing⟩ := Bool.or_eq_false_iff.1 hskipped
  obtain ⟨used, hused, hprints⟩ := h hinner
  obtain ⟨after, hafter⟩ : ∃ after, inner.rest = .closing .round :: after :=
    List.head?_eq_some_iff.1 (by simpa using hclosing)
  refine ⟨.opening .round :: (used ++ [.closing .round]), ?_, .group hprints⟩
  calc .opening .round :: rest = .opening .round :: (used ++ inner.rest) := congrArg _ hused
    _ = .opening .round :: (used ++ .closing .round :: after) := by rw [hafter]
    _ = .opening .round :: (used ++ [.closing .round]) ++ (closeGroup inner).rest := by
      rw [rest_closeGroup hafter]
      simp

end Spans

-- The readers call one another on the same pieces one level down or on fewer pieces; the statements
-- about them do so in the same way.
mutual

/-- What is read as a schema is a printing of it. -/
theorem spans_readImp {pieces : List Piece} {r : Read pieces} (h : readImp pieces = .ok r) :
    r.Spans 0 := by
  rw [readImp] at h
  split at h
  · cases h
  · next left hleft =>
    have hl := spans_readDisj hleft
    split at h
    · next rest hrest =>
      have hlt : rest.length < pieces.length := by
        have := left.shorter
        rw [hrest, List.length_cons] at this
        omega
      split at h
      · cases h
      · next right hright =>
        cases h
        exact hl.joined .imp hrest (spans_readImp hright)
    · cases h
      exact hl.mono (Nat.zero_le 1)
termination_by (pieces.length, 4)

theorem spans_readDisj {pieces : List Piece} {r : Read pieces} (h : readDisj pieces = .ok r) :
    r.Spans 1 := by
  rw [readDisj] at h
  split at h
  · cases h
  · next left hleft =>
    have := left.shorter
    exact spans_readDisjAfter ((spans_readConj hleft).mono (by decide)) h
termination_by (pieces.length, 3)

theorem spans_readDisjAfter {pieces : List Piece} {left r : Read pieces} (hl : left.Spans 1)
    (h : readDisjAfter left = .ok r) : r.Spans 1 := by
  rw [readDisjAfter] at h
  split at h
  · next rest hrest =>
    have hlt : rest.length < left.rest.length := by rw [hrest, List.length_cons]; omega
    split at h
    · cases h
    · next right hright =>
      have hlt' : right.rest.length < left.rest.length := Nat.lt_trans right.shorter hlt
      exact spans_readDisjAfter (hl.joined .disj hrest (spans_readConj hright)) h
  · cases h
    exact hl
termination_by (left.rest.length, 0)

theorem spans_readConj {pieces : List Piece} {r : Read pieces} (h : readConj pieces = .ok r) :
    r.Spans 2 := by
  rw [readConj] at h
  split at h
  · cases h
  · next left hleft =>
    have := left.shorter
    exact spans_readConjAfter ((spans_readNeg hleft).mono (by decide)) h
termination_by (pieces.length, 2)

theorem spans_readConjAfter {pieces : List Piece} {left r : Read pieces} (hl : left.Spans 2)
    (h : readConjAfter left = .ok r) : r.Spans 2 := by
  rw [readConjAfter] at h
  split at h
  · next rest hrest =>
    have hlt : rest.length < left.rest.length := by rw [hrest, List.length_cons]; omega
    split at h
    · cases h
    · next right hright =>
      have hlt' : right.rest.length < left.rest.length := Nat.lt_trans right.shorter hlt
      exact spans_readConjAfter (hl.joined .conj hrest (spans_readNeg hright)) h
  · cases h
    exact hl
termination_by (left.rest.length, 0)

theorem spans_readNeg {pieces : List Piece} {r : Read pieces} (h : readNeg pieces = .ok r) :
    r.Spans 3 := by
  rw [readNeg.eq_def] at h
  split at h
  · split at h
    · cases h
    · next inner hinner =>
      cases h
      intro hskipped
      obtain ⟨used, hused, hprints⟩ := spans_readNeg hinner hskipped
      exact ⟨.negation :: used, congrArg _ hused, .neg hprints⟩
  · split at h
    · cases h
    · next inner hinner =>
      cases h
      exact (spans_readImp hinner).grouped
  · next text rest =>
    split_ifs at h with hatom
    cases h
    exact fun _ => ⟨[.quoted text], rfl, .atom hatom⟩
  · next text rest =>
    split_ifs at h with hreserved
    cases h
    exact fun _ => ⟨[.word text], rfl, .var (by simpa using hreserved)⟩
  · cases h
termination_by (pieces.length, 1)

end

/-! ### Whole schemas -/

/-- A schema is read to the end of the pieces when they are a printing of it. -/
theorem readImp_eq_ok_iff {pieces : List Piece} {s : Schema} :
    (∃ h, readImp pieces = .ok ⟨s, false, [], h⟩) ↔ Prints 0 s pieces := by
  constructor
  · rintro ⟨h, hread⟩
    obtain ⟨used, hused, hprints⟩ := spans_readImp hread rfl
    rw [List.append_nil] at hused
    rwa [hused]
  · intro hprints
    exact hprints.readable.imp pieces [] (by simp) (by simp)

theorem ofPieces_eq_ok_iff_readImp {pieces : List Piece} {s : Schema} :
    ofPieces pieces = .ok s ↔ ∃ h, readImp pieces = .ok ⟨s, false, [], h⟩ := by
  rw [ofPieces]
  constructor
  · intro h
    split at h
    · cases h
    · next hlt hread =>
      cases h
      exact ⟨hlt, hread⟩
    · cases h
  · rintro ⟨hlt, hread⟩
    rw [hread]

theorem parse_eq_ok_iff_ofPieces {text : String} {s : Schema} :
    parse text = .ok s ↔ ∃ pieces, Piece.ofText? text = some pieces ∧ ofPieces pieces = .ok s := by
  rw [parse]
  cases Piece.ofText? text with
  | none => simp
  | some pieces => simp

/-! ### Formulas of a schema -/

/-- The metavariables of a schema from left to right, with repetitions. -/
def metavariables : Schema → List String
  | var name => [name]
  | atom _ => []
  | neg inner => inner.metavariables
  | conj left right | disj left right | imp left right => left.metavariables ++ right.metavariables

/-- The formula has the shape of the schema: its connectives and atoms are those of the schema, and
in the place of a metavariable it has the formula assigned to it. -/
inductive HasShape (assignment : String → Option Formula) : Schema → Formula → Prop
  /-- A metavariable stands for its formula. -/
  | var {name : String} {f : Formula} (h : assignment name = some f) :
    HasShape assignment (.var name) f
  /-- An atom is itself. -/
  | atom (name : String) : HasShape assignment (.atom name) (.atom name)
  /-- A negation is one. -/
  | neg {inner : Schema} {f : Formula} (h : HasShape assignment inner f) :
    HasShape assignment (.neg inner) (.neg f)
  /-- A conjunction is one, side by side. -/
  | conj {left right : Schema} {f g : Formula} (hl : HasShape assignment left f)
    (hr : HasShape assignment right g) : HasShape assignment (.conj left right) (.conj f g)
  /-- A disjunction is one, side by side. -/
  | disj {left right : Schema} {f g : Formula} (hl : HasShape assignment left f)
    (hr : HasShape assignment right g) : HasShape assignment (.disj left right) (.disj f g)
  /-- A conditional is one, side by side. -/
  | imp {left right : Schema} {f g : Formula} (hl : HasShape assignment left f)
    (hr : HasShape assignment right g) : HasShape assignment (.imp left right) (.imp f g)

variable {assignment : String → Option Formula}

theorem instantiate_of_hasShape {s : Schema} {f : Formula} (h : HasShape assignment s f) :
    s.instantiate assignment = some f := by
  induction h with
  | var h => exact h
  | atom name => rfl
  | neg _ ih => rw [instantiate, ih, Option.map_some]
  | conj _ _ ihl ihr | disj _ _ ihl ihr | imp _ _ ihl ihr => rw [instantiate, ihl, ihr]; rfl

/-- A schema whose metavariables are all assigned to becomes a formula of its shape. -/
theorem exists_hasShape {s : Schema} (h : ∀ name ∈ s.metavariables, (assignment name).isSome) :
    ∃ f, HasShape assignment s f := by
  induction s with
  | var name =>
    obtain ⟨f, hf⟩ := Option.isSome_iff_exists.1 (h name (List.mem_singleton_self name))
    exact ⟨f, .var hf⟩
  | atom name => exact ⟨_, .atom name⟩
  | neg inner ih =>
    obtain ⟨f, hf⟩ := ih h
    exact ⟨_, .neg hf⟩
  | conj left right ihl ihr =>
    obtain ⟨⟨f, hf⟩, g, hg⟩ := (List.forall_mem_append.1 h).imp ihl ihr
    exact ⟨_, .conj hf hg⟩
  | disj left right ihl ihr =>
    obtain ⟨⟨f, hf⟩, g, hg⟩ := (List.forall_mem_append.1 h).imp ihl ihr
    exact ⟨_, .disj hf hg⟩
  | imp left right ihl ihr =>
    obtain ⟨⟨f, hf⟩, g, hg⟩ := (List.forall_mem_append.1 h).imp ihl ihr
    exact ⟨_, .imp hf hg⟩

/-- **The reader accepts the printings of schemas and nothing else.**  Pieces are read to their end
as a schema exactly when they are a printing of it, with brackets at least where the strengths of
the signs and their grouping call for them; so the pieces of a text are accepted when they are one.
With a formula for each of its metavariables the schema becomes a formula of the same shape. -/
theorem ofPieces_eq_ok_iff_prints (pieces : List Piece) (s : Schema) :
    ((∃ h, readImp pieces = .ok ⟨s, false, [], h⟩) ↔ Prints 0 s pieces) ∧
    (ofPieces pieces = .ok s ↔ Prints 0 s pieces) ∧
    (∀ text, parse text = .ok s ↔ ∃ read, Piece.ofText? text = some read ∧ Prints 0 s read) ∧
    ∀ assignment, (∀ name ∈ s.metavariables, (assignment name).isSome) →
      ∃ f, s.instantiate assignment = some f ∧ HasShape assignment s f := by
  refine ⟨readImp_eq_ok_iff, ofPieces_eq_ok_iff_readImp.trans readImp_eq_ok_iff, ?_, ?_⟩
  · intro text
    simp only [parse_eq_ok_iff_ofPieces, ofPieces_eq_ok_iff_readImp, readImp_eq_ok_iff]
  · intro assignment hassigned
    obtain ⟨f, hf⟩ := exists_hasShape hassigned
    exact ⟨f, instantiate_of_hasShape hf, hf⟩

/-- The text `!~p & ("P" -> q) -> (("Q")) -> q | "R"` has brackets that are needed and brackets that
are not.  Its pieces are a printing of a conditional whose right side is a conditional, and that is
what it is read as; it becomes a formula when `p` and `q` have one. -/
theorem nested_conditional_read :
    let text := "!~p & (\"P\" -> q) -> ((\"Q\")) -> q | \"R\""
    let pieces : List Piece := [.negation, .negation, .word "p", .conjunction, .opening .round,
      .quoted "P", .arrow, .word "q", .closing .round, .arrow, .opening .round, .opening .round,
      .quoted "Q", .closing .round, .closing .round, .arrow, .word "q", .disjunction, .quoted "R"]
    let s : Schema := .imp (.conj (.neg (.neg (.var "p"))) (.imp (.atom "P") (.var "q")))
      (.imp (.atom "Q") (.disj (.var "q") (.atom "R")))
    let assignment : String → Option Formula := fun name => some (.neg (.atom name.toUpper))
    Piece.ofText? text = some pieces ∧ Prints 0 s pieces ∧ ofPieces pieces = .ok s ∧
      parse text = .ok s ∧ "p" ∈ s.metavariables ∧
      ∃ f, s.instantiate assignment = some f ∧ HasShape assignment s f := by
  intro text pieces s assignment
  have hpieces : Piece.ofText? text = some pieces := by decide +kernel
  have hleft : Prints 1 (.conj (.neg (.neg (.var "p"))) (.imp (.atom "P") (.var "q"))) _ :=
    .binary .conj (by decide) (.neg (.neg (.var (by decide))))
      (.group (.binary .imp (by decide) (.atom (by decide)) (.var (by decide))))
  have hright : Prints 0 (.imp (.atom "Q") (.disj (.var "q") (.atom "R"))) _ :=
    .binary .imp (by decide) (.group (.group (.atom (by decide))))
      (.binary .disj (by decide) (.var (by decide)) (.atom (by decide)))
  have hprints : Prints 0 s pieces := .binary .imp (by decide) hleft hright
  obtain ⟨-, hread, hparse, hshape⟩ := ofPieces_eq_ok_iff_prints pieces s
  exact ⟨hpieces, hprints, hread.2 hprints, (hparse text).2 ⟨pieces, hpieces, hprints⟩,
    by decide, hshape assignment fun _ _ => rfl⟩

end Schema

end Entailment
