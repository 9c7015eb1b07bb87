import Entailment.Name
import Entailment.Proofs.Encoding

/-!
# The order of names

A set of names is a list in ascending order (`Name.sort`).  Names are compared character by
character, and this file shows that the order is the one of their bytes: UTF-8 gives characters
with larger numbers larger bytes, at the first byte in which they differ.

* `Name.mem_sort` : sorting neither adds nor loses a name;
* `Name.pairwise_sort` : the names of a sorted list strictly ascend;
* `Name.lt_iff_encode_lt` : **names are ordered by their bytes.**
-/

namespace Entailment

namespace Name

/-! ### Sorted lists of names -/

@[simp] theorem mem_insert {name other : String} {names : List String} :
    other ∈ insert name names ↔ other = name ∨ other ∈ names := by
  induction names with
  | nil => simp [insert]
  | cons head rest ih =>
    rw [insert]
    split_ifs with hlt heq
    · simp
    · subst heq
      simp
    · simp only [List.mem_cons, ih]
      exact or_left_comm

@[simp] theorem mem_sort {name : String} {names : List String} :
    name ∈ sort names ↔ name ∈ names := by
  induction names with
  | nil => simp [sort]
  | cons head rest ih =>
    change name ∈ insert head (sort rest) ↔ _
    rw [mem_insert, ih, List.mem_cons]

theorem lt_of_not_lt_of_ne {a b : String} (hlt : ¬ a < b) (hne : a ≠ b) : b < a := by
  by_contra h
  exact hne (String.le_antisymm (String.not_lt.1 h) (String.not_lt.1 hlt))

theorem pairwise_insert {name : String} {names : List String}
    (h : names.Pairwise fun a b => a < b) : (insert name names).Pairwise fun a b => a < b := by
  induction names with
  | nil => simp [insert]
  | cons head rest ih =>
    obtain ⟨hhead, hrest⟩ := List.pairwise_cons.1 h
    rw [insert]
    split_ifs with hlt heq
    · refine List.pairwise_cons.2 ⟨fun other hm => ?_, h⟩
      rcases List.mem_cons.1 hm with rfl | hm
      · exact hlt
      · exact String.lt_trans hlt (hhead other hm)
    · exact h
    · refine List.pairwise_cons.2 ⟨fun other hm => ?_, ih hrest⟩
      rcases mem_insert.1 hm with rfl | hm
      · exact lt_of_not_lt_of_ne hlt heq
      · exact hhead other hm

/-- The names of a sorted list strictly ascend. -/
theorem pairwise_sort (names : List String) : (sort names).Pairwise fun a b => a < b := by
  induction names with
  | nil => exact .nil
  | cons name rest ih => exact pairwise_insert ih

theorem nodup_of_pairwise {names : List String} (h : names.Pairwise fun a b => a < b) :
    names.Nodup := by
  refine h.imp ?_
  rintro a b hlt rfl
  exact String.lt_irrefl a hlt

/-! ### Bytes -/

/-- The codes of two characters differ in the direction of the characters, whatever follows. -/
theorem utf8EncodeChar_append_lt {c d : Char} (h : c < d) (l m : List UInt8) :
    String.utf8EncodeChar c ++ l < String.utf8EncodeChar d ++ m := by
  have hlt : c.val.toNat < d.val.toNat := h
  have hd : d.val.toNat < 1114112 := by rcases d.valid with hd | hd <;> omega
  simp only [String.utf8EncodeChar]
  generalize c.val.toNat = a at hlt ⊢
  generalize d.val.toNat = b at hlt hd ⊢
  -- a code is the number in base 64, with the length of the code in its first byte
  have h12 : ∀ n : ℕ, n / 4096 = n / 64 / 64 := fun n => by rw [Nat.div_div_eq_div_mul]
  have h18 : ∀ n : ℕ, n / 262144 = n / 64 / 64 / 64 := fun n => by
    rw [Nat.div_div_eq_div_mul, Nat.div_div_eq_div_mul]
  split_ifs <;>
    simp (disch := omega) only [List.cons_append, List.nil_append, List.cons_lt_cons_iff,
      UInt8.lt_iff_toNat_lt, ← UInt8.toNat_inj, UInt8.toNat_ofNat', h12, h18, Nat.mod_eq_of_lt,
      Nat.reducePow, Nat.add_right_cancel_iff, Nat.add_lt_add_iff_right] <;>
    omega

theorem flatMap_utf8EncodeChar_lt {l m : List Char} (h : l < m) :
    l.flatMap String.utf8EncodeChar < m.flatMap String.utf8EncodeChar := by
  induction h with
  | @nil c m =>
    rw [List.flatMap_nil, List.flatMap_cons]
    cases hc : String.utf8EncodeChar c with
    | nil => exact absurd hc String.utf8EncodeChar_ne_nil
    | cons byte rest => exact .nil
  | cons _ ih => exact List.append_left_lt ih
  | rel h => exact utf8EncodeChar_append_lt h _ _

theorem encode_lt_of_lt {a b : String} (h : a < b) : Source.encode a < Source.encode b := by
  rw [Source.encode_eq_flatMap, Source.encode_eq_flatMap]
  exact flatMap_utf8EncodeChar_lt h

/-- **Names are ordered by their bytes.** -/
theorem lt_iff_encode_lt {a b : String} : a < b ↔ Source.encode a < Source.encode b := by
  refine ⟨encode_lt_of_lt, fun h => ?_⟩
  by_contra hlt
  have hne : a ≠ b := by
    rintro rfl
    exact List.lt_irrefl _ h
  exact List.lt_asymm h (encode_lt_of_lt (lt_of_not_lt_of_ne hlt hne))

end Name

end Entailment
