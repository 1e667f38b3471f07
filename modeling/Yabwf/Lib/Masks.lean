import Mathlib.Tactic

/-!
A set as a table of words: each element has a word of the table, and a mask of bits in it.

* `Separate`: no mask is empty, and the masks of different elements of one word have no bit in
  common.
* `marked`, `clear`: the test of an element, and taking it out.
* `marked_foldl_clear`: what is left when the elements of a list are taken out one by one.
-/

namespace Masks

variable {α ι : Type*} {w : ℕ} (index : α → ι) (mask : α → BitVec w)

/-- The masks tell the elements of one word apart. -/
structure Separate : Prop where
  ne_zero : ∀ a, mask a ≠ 0#w
  disjoint : ∀ a b, a ≠ b → index a = index b → mask a &&& mask b = 0#w

/-- A bit of the element is set. -/
def marked (t : ι → BitVec w) (a : α) : Prop := t (index a) &&& mask a ≠ 0#w

instance (t : ι → BitVec w) (a : α) : Decidable (marked index mask t a) :=
  inferInstanceAs (Decidable (_ ≠ _))

variable {index mask} in
/-- The full table has all elements. -/
lemma marked_allOnes (h : Separate index mask) (b : α) :
    marked index mask (fun _ => BitVec.allOnes w) b := by
  rw [marked, BitVec.allOnes_and]
  exact h.ne_zero b

variable [DecidableEq ι]

/-- The bits of an element are cleared. -/
def clear (t : ι → BitVec w) (a : α) : ι → BitVec w :=
  Function.update t (index a) (t (index a) &&& ~~~mask a)

lemma and_not_and_self (x m : BitVec w) : x &&& ~~~m &&& m = 0#w := by
  rw [BitVec.and_assoc, BitVec.and_comm (~~~m) m]
  ext i hi
  simp

lemma and_not_and_of_disjoint {m n : BitVec w} (h : m &&& n = 0#w) (x : BitVec w) :
    x &&& ~~~m &&& n = x &&& n := by
  ext i hi
  have hbit := congrArg (fun y => y.getLsbD i) h
  simp only [BitVec.getLsbD_and, BitVec.getLsbD_zero, Bool.and_eq_false_imp] at hbit
  cases hm : m.getLsbD i with
  | false => simp [BitVec.getLsbD_eq_getElem hi ▸ hm]
  | true => simp [BitVec.getLsbD_eq_getElem hi ▸ hbit hm]

variable {index mask}

/-- Taking one element out. -/
lemma marked_clear (h : Separate index mask) (t : ι → BitVec w) (a b : α) :
    marked index mask (clear index mask t a) b ↔ b ≠ a ∧ marked index mask t b := by
  rw [marked, marked, clear]
  by_cases hba : b = a
  · subst hba
    rw [Function.update_self, and_not_and_self]
    simp
  · by_cases hindex : index b = index a
    · have hdisjoint := h.disjoint a b (Ne.symm hba) hindex.symm
      rw [hindex, Function.update_self, and_not_and_of_disjoint hdisjoint]
      simp [hba]
    · rw [Function.update_of_ne hindex]
      simp [hba]

/-- **What is left** of a table when the elements of a list are taken out. -/
theorem marked_foldl_clear (h : Separate index mask) (t : ι → BitVec w) (l : List α) (b : α) :
    marked index mask (l.foldl (clear index mask) t) b ↔ b ∉ l ∧ marked index mask t b := by
  induction l generalizing t with
  | nil => simp
  | cons a l ih =>
      rw [List.foldl_cons, ih, marked_clear h, List.mem_cons, not_or, and_left_comm, and_assoc]

end Masks
