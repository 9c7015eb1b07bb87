import Entailment.Proofs.Body
import Entailment.Proofs.FormulaSpelling

/-!
# The items of a body

The body of an argument is a list of items: premises, commas, closing brackets, and the conclusion
with its sign.  They may stand in any order, except that a conclusion admits neither a comma nor
another conclusion after it.  What the body says is then read off its items: the premises are those
among the items, and the conclusion is the one among them.

* `Argument.Itemized` : the tokens are the items one after the other;
* `Argument.body_iff_itemized` : reading a body passes from item to item;
* `Cursor.formula?_eq_some_iff` : what is read before a separator is a written formula;
* `Cursor.argument_eq_ok_iff_itemized` : **a body is read exactly when its tokens are items in an
  admissible order**, and then to its end.
-/

namespace Entailment

namespace Argument

/-- An item of the body of an argument. -/
inductive Item where
  /-- A formula, which is a premise. -/
  | premise (f : Formula)
  /-- A comma. -/
  | comma
  /-- A closing bracket. -/
  | closing
  /-- The conclusion sign and a formula, which is the conclusion. -/
  | conclusion (f : Formula)
  deriving DecidableEq, Repr

namespace Item

/-- The premise that the item is. -/
def premise? : Item → Option Formula
  | premise f => some f
  | _ => none

/-- The conclusion that the item gives. -/
def conclusion? : Item → Option Formula
  | conclusion f => some f
  | _ => none

/-- The tokens write the item. -/
inductive Written : List Token → Item → Prop
  /-- A premise is written as the formula. -/
  | premise {used : List Token} {f : Formula} (h : Formula.Written used f) :
    Written used (premise f)
  /-- A comma by itself. -/
  | comma : Written [.comma] comma
  /-- A closing bracket by itself. -/
  | closing : Written [.closing] closing
  /-- The conclusion sign stands before the conclusion. -/
  | conclusion {used : List Token} {f : Formula} (h : Formula.Written used f) :
    Written (.therefore :: used) (conclusion f)

/-- The item may stand after the conclusion: it is no comma and no conclusion itself. -/
def MayFollow (item : Item) : Prop := item ≠ comma ∧ item.conclusion? = none

/-- The later item may stand after the earlier one, which matters when that is a conclusion. -/
def Admits (earlier later : Item) : Prop := earlier.conclusion?.isSome → later.MayFollow

end Item

/-- The tokens are the items one after the other. -/
inductive Itemized : List Token → List Item → Prop
  /-- There are no more items. -/
  | nil : Itemized [] []
  /-- The first item, and the others. -/
  | cons {used rest : List Token} {item : Item} {items : List Item} (h : Item.Written used item)
    (hr : Itemized rest items) : Itemized (used ++ rest) (item :: items)

/-- The argument that items give: the premises and the conclusion among them. -/
def ofItems (items : List Item) : Argument :=
  ⟨items.filterMap Item.premise?, items.findSome? Item.conclusion?⟩

/-! ### Going on from an argument -/

/-- What the items make of an argument that was read before them. -/
def extend (a : Argument) (items : List Item) : Argument :=
  ⟨a.premises ++ items.filterMap Item.premise?,
    a.conclusion?.or (items.findSome? Item.conclusion?)⟩

/-- The items may stand after the argument that was read before them, in their order. -/
structure Continues (a : Argument) (items : List Item) : Prop where
  /-- A conclusion that was read before restricts all of the items. -/
  before : a.conclusion?.isSome → ∀ item ∈ items, item.MayFollow
  /-- A conclusion among the items restricts those after it. -/
  among : items.Pairwise Item.Admits

@[simp] theorem extend_nil (a : Argument) : a.extend [] = a := by simp [extend]

@[simp] theorem extend_comma (a : Argument) (items : List Item) :
    a.extend (.comma :: items) = a.extend items := rfl

@[simp] theorem extend_closing (a : Argument) (items : List Item) :
    a.extend (.closing :: items) = a.extend items := rfl

@[simp] theorem extend_premise (a : Argument) (f : Formula) (items : List Item) :
    a.extend (.premise f :: items) = (a.addPremise f).extend items := by
  simp [extend, addPremise, List.findSome?_cons, Item.premise?, Item.conclusion?]

theorem extend_conclusion {a : Argument} (hc : a.conclusion? = none) (f : Formula)
    (items : List Item) : a.extend (.conclusion f :: items) = (a.conclude f).extend items := by
  simp [extend, conclude, List.filterMap_cons, List.findSome?_cons, Item.premise?,
    Item.conclusion?, hc]

theorem empty_extend (items : List Item) : empty.extend items = ofItems items := by
  simp [extend, empty, ofItems]

theorem continues_nil (a : Argument) : a.Continues [] := ⟨by simp, .nil⟩

/-- An item that gives no conclusion leaves the question to the items after it. -/
theorem continues_cons_iff {a : Argument} {item : Item} {items : List Item}
    (h : item.conclusion? = none) :
    a.Continues (item :: items) ↔
      (a.conclusion?.isSome → item.MayFollow) ∧ a.Continues items := by
  have hfree : ∀ later ∈ items, item.Admits later := by
    intro later _ hsome
    simp [h] at hsome
  constructor
  · rintro ⟨hbefore, hamong⟩
    refine ⟨fun hc => hbefore hc item List.mem_cons_self, fun hc later hl => ?_, ?_⟩
    · exact hbefore hc later (List.mem_cons_of_mem item hl)
    · exact (List.pairwise_cons.1 hamong).2
  · rintro ⟨hitem, hbefore, hamong⟩
    refine ⟨fun hc => ?_, List.pairwise_cons.2 ⟨hfree, hamong⟩⟩
    exact List.forall_mem_cons.2 ⟨hitem hc, hbefore hc⟩

/-- A conclusion stands where there was none before, and restricts what comes after it. -/
theorem continues_conclusion_iff {a : Argument} {f : Formula} {items : List Item} :
    a.Continues (.conclusion f :: items) ↔
      a.conclusion? = none ∧ (a.conclude f).Continues items := by
  constructor
  · rintro ⟨hbefore, hamong⟩
    obtain ⟨hlater, hrest⟩ := List.pairwise_cons.1 hamong
    refine ⟨?_, fun _ later hl => hlater later hl rfl, hrest⟩
    by_contra hc
    have hnone := (hbefore (Option.isSome_iff_ne_none.2 hc) _ List.mem_cons_self).2
    simp [Item.conclusion?] at hnone
  · rintro ⟨hc, hbefore, hamong⟩
    refine ⟨fun hsome => by simp [hc] at hsome, List.pairwise_cons.2 ⟨?_, hamong⟩⟩
    intro later hl _
    exact hbefore rfl later hl

/-! ### Bodies and their items -/

theorem Body.exists_itemized {a b : Argument} {tokens : List Token} (h : Body a tokens b) :
    ∃ items, Itemized tokens items ∧ a.Continues items ∧ b = a.extend items := by
  induction h with
  | done a => exact ⟨[], .nil, continues_nil a, by simp⟩
  | closing _ ih =>
    obtain ⟨items, hitems, hcont, rfl⟩ := ih
    refine ⟨.closing :: items, .cons .closing hitems, ?_, by simp⟩
    exact (continues_cons_iff rfl).2 ⟨fun _ => ⟨by simp, rfl⟩, hcont⟩
  | comma hc _ ih =>
    obtain ⟨items, hitems, hcont, rfl⟩ := ih
    refine ⟨.comma :: items, .cons .comma hitems, ?_, by simp⟩
    exact (continues_cons_iff rfl).2 ⟨fun hsome => by simp [hc] at hsome, hcont⟩
  | @premise a b used rest f hf _ ih =>
    obtain ⟨items, hitems, hcont, rfl⟩ := ih
    refine ⟨.premise f :: items, .cons (.premise hf.written) hitems, ?_, by simp⟩
    exact (continues_cons_iff rfl).2 ⟨fun _ => ⟨by simp, rfl⟩, hcont.before, hcont.among⟩
  | @conclusion a b used rest f hc hf _ ih =>
    obtain ⟨items, hitems, hcont, rfl⟩ := ih
    refine ⟨.conclusion f :: items, .cons (.conclusion hf.written) hitems, ?_, ?_⟩
    · exact continues_conclusion_iff.2 ⟨hc, hcont⟩
    · rw [extend_conclusion hc]

theorem Itemized.body {tokens : List Token} {items : List Item} (h : Itemized tokens items)
    {a : Argument} (hcont : a.Continues items) : Body a tokens (a.extend items) := by
  induction h generalizing a with
  | nil =>
    rw [extend_nil]
    exact .done a
  | cons hitem _ ih =>
    cases hitem with
    | premise hf =>
      obtain ⟨-, hbefore, hamong⟩ := (continues_cons_iff rfl).1 hcont
      rw [extend_premise]
      exact .premise hf.derives (ih ⟨hbefore, hamong⟩)
    | comma =>
      obtain ⟨hcomma, hrest⟩ := (continues_cons_iff rfl).1 hcont
      refine .comma ?_ (ih hrest)
      by_contra hc
      exact (hcomma (Option.isSome_iff_ne_none.2 hc)).1 rfl
    | closing =>
      obtain ⟨-, hrest⟩ := (continues_cons_iff rfl).1 hcont
      exact .closing (ih hrest)
    | conclusion hf =>
      obtain ⟨hc, hrest⟩ := continues_conclusion_iff.1 hcont
      rw [extend_conclusion hc]
      exact .conclusion hc hf.derives (ih hrest)

/-- Reading a body passes from item to item. -/
theorem body_iff_itemized {a b : Argument} {tokens : List Token} :
    Body a tokens b ↔ ∃ items, Itemized tokens items ∧ a.Continues items ∧ b = a.extend items := by
  refine ⟨Body.exists_itemized, ?_⟩
  rintro ⟨items, hitems, hcont, rfl⟩
  exact hitems.body hcont

theorem ofTokens_eq_ok_iff_itemized {tokens : List Token} {a : Argument} :
    ofTokens tokens = .ok a ↔
      ∃ items, Itemized tokens items ∧ items.Pairwise Item.Admits ∧ a = ofItems items := by
  have hbody : ofTokens tokens = .ok a ↔ Body empty tokens a :=
    ⟨body_of_readAfter, readAfter_of_body⟩
  rw [hbody, body_iff_itemized]
  constructor
  · rintro ⟨items, hitems, hcont, rfl⟩
    exact ⟨items, hitems, hcont.among, empty_extend items⟩
  · rintro ⟨items, hitems, hamong, rfl⟩
    exact ⟨items, hitems, ⟨nofun, hamong⟩, (empty_extend items).symm⟩

end Argument

namespace Cursor

open Argument

/-! ### Reading at a cursor -/

/-- A formula, if it is read, is the same one whether or not separators are looked for first: no
formula starts with one. -/
theorem formula?_eq_some_iff {cursor after : Cursor} {f : Formula} :
    cursor.formula? = (.ok (some f), after) ↔ cursor.formula = (.ok f, after) := by
  have hmap : (Except.map some cursor.formula.1, cursor.formula.2) = (.ok (some f), after) ↔
      cursor.formula = (.ok f, after) := by
    rcases cursor.formula with ⟨error | g, behind⟩ <;> simp [Except.map]
  have hseparator : ∀ token more, cursor.rest = token :: more →
      ¬ ((∃ name, token = .atom name) ∨ token = .neg ∨ token = .opening) →
      cursor.formula ≠ (.ok f, after) := by
    intro token more htokens hstart h
    rw [formula, htokens, Formula.ofTokens_of_not_start hstart] at h
    simp [settle] at h
  unfold formula?
  split
  · next more htokens => simp [hseparator _ _ htokens]
  · next more htokens => simp [hseparator _ _ htokens]
  · next more htokens => simp [hseparator _ _ htokens]
  · exact hmap

theorem argument_eq_ok_iff_ofTokens {cursor after : Cursor} {a : Argument} :
    cursor.argument = (.ok a, after) ↔
      Argument.ofTokens cursor.rest = .ok a ∧ after = cursor.behind cursor.rest [] := by
  have hend : cursor.moveTo [] = cursor.behind cursor.rest [] := moveTo_eq_behind (by simp)
  unfold argument
  cases Argument.ofTokens cursor.rest with
  | error halt => simp [Except.map, settle]
  | ok b => simp [Except.map, settle, hend, eq_comm]

/-- **A body is read exactly when its tokens are items in an admissible order.**  Then all tokens
are taken, the premises are those among the items and the conclusion is the one among them.  The
premises among the items are what is read as a formula where a separator may stand as well. -/
theorem argument_eq_ok_iff_itemized (cursor after : Cursor) (a : Argument) :
    (cursor.argument = (.ok a, after) ↔
      ∃ items, Itemized cursor.rest items ∧ items.Pairwise Item.Admits ∧ a = ofItems items ∧
        after = cursor.behind cursor.rest []) ∧
    ∀ source position used rest f,
      Item.Written used (.premise f) ↔
        (Cursor.mk source position (used ++ rest)).formula? =
          (.ok (some f), ⟨source, position + used.length, rest⟩) := by
  constructor
  · rw [argument_eq_ok_iff_ofTokens, ofTokens_eq_ok_iff_itemized]
    constructor
    · rintro ⟨⟨items, hitems, hamong, ha⟩, hafter⟩
      exact ⟨items, hitems, hamong, ha, hafter⟩
    · rintro ⟨items, hitems, hamong, ha, hafter⟩
      exact ⟨⟨items, hitems, hamong, ha⟩, hafter⟩
  · intro source position used rest f
    rw [formula?_eq_some_iff]
    constructor
    · rintro (hf | _)
      exact formula_eq_ok_iff.2 ⟨used, rest, rfl, hf, rfl⟩
    · intro h
      exact .premise (takes_iff.1 ⟨rest, rfl, h⟩).2

-- stray brackets and repeated commas are passed over, and a premise may follow the conclusion
example :
    (ofTokens [.closing, .atom "P", .comma, .comma, .therefore, .atom "Q", .closing, .neg,
      .atom "R"] ") P,, ∴ Q) ¬R").argument.1 =
      .ok ⟨[.atom "P", .neg (.atom "R")], some (.atom "Q")⟩ := by decide +kernel

end Cursor

end Entailment
