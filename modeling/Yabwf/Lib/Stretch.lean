import Mathlib.Algebra.BigOperators.Intervals
import Mathlib.Algebra.Order.BigOperators.Group.Finset

/-!
Stretches of numbers that lie end to end, as the years of a calendar or the months of a year.

* `locate`: the stretch that a number falls into, and its place there.
* `Falls`, `locate_falls`: the lengths of the stretches before it and the place add up to the
  number.
* `Falls.lex`: a larger number falls into a later stretch, or to a later place of the same one.
-/

namespace Stretch

open Finset

/-- The search for the stretch of a number that is counted from the start of stretch `i`. -/
def locateFrom (len : ℕ → ℕ) : ℕ → ℕ → ℕ → ℕ × ℕ
  | 0, i, n => (i, n)
  | fuel + 1, i, n => if n < len i then (i, n) else locateFrom len fuel (i + 1) (n - len i)

/-- The stretch that a number falls into and its place there, for the stretches from `i` on. -/
def locate (len : ℕ → ℕ) (i n : ℕ) : ℕ × ℕ := locateFrom len (n + 1) i n

/-- The number `n`, counted from the start of stretch `i`, falls into the stretch `p.1`, at the
place `p.2`. -/
structure Falls (len : ℕ → ℕ) (i n : ℕ) (p : ℕ × ℕ) : Prop where
  le : i ≤ p.1
  lt : p.2 < len p.1
  sum : ∑ j ∈ Ico i p.1, len j + p.2 = n

variable {len : ℕ → ℕ}

lemma locateFrom_falls (hpos : ∀ j, 0 < len j) {fuel i n : ℕ} (h : n < fuel) :
    Falls len i n (locateFrom len fuel i n) := by
  induction fuel generalizing i n with
  | zero => exact absurd h (Nat.not_lt_zero n)
  | succ fuel ih =>
      rw [locateFrom]
      split_ifs with hin
      · exact ⟨le_rfl, hin, by simp⟩
      · have hi := hpos i
        have hrest := @ih (i + 1) (n - len i) (by omega)
        generalize locateFrom len fuel (i + 1) (n - len i) = p at hrest ⊢
        refine ⟨(Nat.le_succ i).trans hrest.le, hrest.lt, ?_⟩
        have hsum := hrest.sum
        rw [sum_eq_sum_Ico_succ_bot hrest.le]
        omega

lemma locate_falls (hpos : ∀ j, 0 < len j) (i n : ℕ) : Falls len i n (locate len i n) :=
  locateFrom_falls hpos (Nat.lt_succ_self n)

/-- A stretch ends before a later one begins. -/
lemma sum_add_le {i j k : ℕ} (hij : i ≤ j) (hjk : j < k) :
    ∑ x ∈ Ico i j, len x + len j ≤ ∑ x ∈ Ico i k, len x := by
  rw [← sum_Ico_succ_top hij]
  exact sum_le_sum_of_subset (Ico_subset_Ico_right hjk)

namespace Falls

variable {i m n : ℕ} {p q : ℕ × ℕ}

/-- Numbers come in the order of their stretches, and of their places within a stretch. -/
lemma lex (hp : Falls len i m p) (hq : Falls len i n q) (h : m < n) :
    p.1 < q.1 ∨ p.1 = q.1 ∧ p.2 < q.2 := by
  have hm := hp.sum
  have hn := hq.sum
  rcases lt_trichotomy p.1 q.1 with hlt | heq | hgt
  · exact Or.inl hlt
  · rw [heq] at hm
    exact Or.inr ⟨heq, by omega⟩
  · have hle : ∑ x ∈ Ico i q.1, len x + len q.1 ≤ ∑ x ∈ Ico i p.1, len x :=
      sum_add_le hq.le hgt
    have hlt := hq.lt
    omega

/-- A number below the end of a stretch falls into it or an earlier one. -/
lemma fst_lt {k : ℕ} (hp : Falls len i n p) (h : n < ∑ j ∈ Ico i k, len j) : p.1 < k := by
  by_contra hle
  have hmono : ∑ j ∈ Ico i k, len j ≤ ∑ j ∈ Ico i p.1, len j :=
    sum_le_sum_of_subset (Ico_subset_Ico_right (not_lt.mp hle))
  have hsum := hp.sum
  omega

end Falls

end Stretch
