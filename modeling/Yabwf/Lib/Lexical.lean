import Mathlib.Tactic

/-!
Paths as lists of segments, resolved lexically.

* `splitOn_induction`: induction over the segments of a list, from the front.
* `Move`, `Within`: a segment goes down, stays or goes up; a walk stays within its
  root if it never goes up from depth `0`.
* `within_concat_up`: a walk whose only way up is its last move stays within the root
  exactly when it has gone down before, or begins deep enough.
-/

namespace Lexical

variable {α : Type*} [DecidableEq α]

/-- Induction over the segments of a list: a list without the separator, or a first
segment, a separator, and a list for which the property is known. -/
@[elab_as_elim]
theorem splitOn_induction {P : List α → Prop} (sep : α) (last : ∀ s, sep ∉ s → P s)
    (cons : ∀ s t, sep ∉ s → P t → P (s ++ sep :: t)) (l : List α) : P l := by
  induction h : l.length using Nat.strong_induction_on generalizing l with
  | _ n ih =>
    by_cases hl : sep ∈ l
    · obtain ⟨s, t, rfl, hs⟩ := List.eq_append_cons_of_mem hl
      refine cons s t hs (ih t.length ?_ t rfl)
      subst h
      simp only [List.length_append, List.length_cons]
      omega
    · exact last l hl

/-- What a segment does to the depth below the root. -/
inductive Move
  | down | stay | up
  deriving DecidableEq, Repr

/-- The walk, begun at the given depth, never goes above depth `0`. -/
def Within : ℕ → List Move → Prop
  | _, [] => True
  | d, .down :: ms => Within (d + 1) ms
  | d, .stay :: ms => Within d ms
  | 0, .up :: _ => False
  | d + 1, .up :: ms => Within d ms

/-- A walk that never goes up stays within its root. -/
lemma within_of_up_notMem {ms : List Move} (h : Move.up ∉ ms) (d : ℕ) : Within d ms := by
  induction ms generalizing d with
  | nil => trivial
  | cons m ms ih =>
      have hms : Move.up ∉ ms := fun hm => h (List.mem_cons_of_mem _ hm)
      cases m with
      | down => exact ih hms (d + 1)
      | stay => exact ih hms d
      | up => exact absurd List.mem_cons_self h

/-- A walk that goes up only with its last move. -/
lemma within_concat_up {ms : List Move} (h : Move.up ∉ ms) (d : ℕ) :
    Within d (ms ++ [.up]) ↔ 0 < d ∨ Move.down ∈ ms := by
  induction ms generalizing d with
  | nil => cases d <;> simp [Within]
  | cons m ms ih =>
      have hms : Move.up ∉ ms := fun hm => h (List.mem_cons_of_mem _ hm)
      cases m with
      | down => simp [Within, ih hms]
      | stay => simp [Within, ih hms]
      | up => exact absurd List.mem_cons_self h

end Lexical
