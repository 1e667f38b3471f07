import Mathlib.Tactic

/-!
A text read line by line into a buffer.

* `pieces`: the pieces that a reader with room for `n` elements is given, each up to the next
  newline if there is room.
* `lines`: the lines of the text, with their newlines.
* `pieces_eq_lines`: where every line fits, the pieces are the lines.
* `lines_append_cons`, `lines_of_notMem`: all lines but the last one end with a newline.
-/

namespace Lines

variable {α : Type*} [DecidableEq α] (nl : α)

/-- The pieces of a text, behind the beginning `acc` of the first one. -/
def pieces (n : ℕ) : List α → List α → List (List α)
  | acc, [] => if acc = [] then [] else [acc]
  | acc, a :: s =>
      if a = nl ∨ acc.length + 1 = n then (acc ++ [a]) :: pieces n [] s
      else pieces n (acc ++ [a]) s

/-- The lines of a text, behind the beginning `acc` of the first one. -/
def linesFrom : List α → List α → List (List α)
  | acc, [] => if acc = [] then [] else [acc]
  | acc, a :: s =>
      if a = nl then (acc ++ [a]) :: linesFrom [] s else linesFrom (acc ++ [a]) s

/-- The lines of a text. -/
def lines (s : List α) : List (List α) := linesFrom nl [] s

/-- The first line begins with what has been read of it. -/
lemma exists_line_of_acc (acc s : List α) (hacc : acc ≠ []) :
    ∃ l ∈ linesFrom nl acc s, acc.length ≤ l.length ∧ (s ≠ [] → acc.length < l.length) := by
  induction s generalizing acc with
  | nil => exact ⟨acc, by simp [linesFrom, hacc], le_rfl, fun h => absurd rfl h⟩
  | cons a s ih =>
      have hlt : acc.length < (acc ++ [a]).length := by
        rw [List.length_append]
        exact Nat.lt_succ_self _
      rw [linesFrom]
      split_ifs with ha
      · exact ⟨acc ++ [a], List.mem_cons_self, hlt.le, fun _ => hlt⟩
      · obtain ⟨l, hl, hle, -⟩ := ih (acc ++ [a]) (List.append_ne_nil_of_right_ne_nil _ (by simp))
        exact ⟨l, hl, hlt.le.trans hle, fun _ => hlt.trans_le hle⟩

lemma pieces_eq_linesFrom {n : ℕ} (acc s : List α)
    (h : ∀ l ∈ linesFrom nl acc s, l.length ≤ n) : pieces nl n acc s = linesFrom nl acc s := by
  induction s generalizing acc with
  | nil => rfl
  | cons a s ih =>
      rw [pieces, linesFrom]
      rw [linesFrom] at h
      by_cases ha : a = nl
      · rw [if_pos ha] at h
        rw [if_pos (Or.inl ha), if_pos ha, ih [] fun l hl => h l (List.mem_cons_of_mem _ hl)]
      · rw [if_neg ha] at h
        rw [if_neg ha]
        split_ifs with hfull
        · -- the line is full, and there is no more of it
          have hlen : (acc ++ [a]).length = n := by
            rw [List.length_append]
            exact hfull.resolve_left ha
          obtain ⟨l, hl, -, hlt⟩ := exists_line_of_acc nl (acc ++ [a]) s
            (List.append_ne_nil_of_right_ne_nil _ (by simp))
          have hs : s = [] := by
            by_contra hs
            exact absurd (h l hl) (by rw [← hlen]; exact (hlt hs).not_ge)
          subst hs
          simp [pieces, linesFrom]
        · exact ih (acc ++ [a]) h

/-- **Lines that fit** are read one by one. -/
theorem pieces_eq_lines {n : ℕ} {s : List α} (h : ∀ l ∈ lines nl s, l.length ≤ n) :
    pieces nl n [] s = lines nl s :=
  pieces_eq_linesFrom nl [] s h

lemma linesFrom_append_cons {acc s : List α} (t : List α) (hs : nl ∉ s) :
    linesFrom nl acc (s ++ nl :: t) = (acc ++ s ++ [nl]) :: lines nl t := by
  induction s generalizing acc with
  | nil => rw [List.nil_append, linesFrom, if_pos rfl, List.append_nil, lines]
  | cons a s ih =>
      rw [List.mem_cons, not_or] at hs
      rw [List.cons_append, linesFrom, if_neg fun h => hs.1 h.symm, ih hs.2, List.append_assoc acc,
        List.singleton_append]

/-- A line, and the text behind it. -/
lemma lines_append_cons {s : List α} (t : List α) (hs : nl ∉ s) :
    lines nl (s ++ nl :: t) = (s ++ [nl]) :: lines nl t := by
  rw [lines, linesFrom_append_cons nl t hs, List.nil_append]

/-- The last line, without a newline. -/
lemma lines_of_notMem {s : List α} (hs : nl ∉ s) : lines nl s = if s = [] then [] else [s] := by
  have hfrom (acc : List α) : linesFrom nl acc s = if acc ++ s = [] then [] else [acc ++ s] := by
    induction s generalizing acc with
    | nil => rw [List.append_nil, linesFrom]
    | cons a s ih =>
        rw [List.mem_cons, not_or] at hs
        rw [linesFrom, if_neg fun h => hs.1 h.symm, ih hs.2, List.append_assoc,
          List.singleton_append]
  exact hfrom []

end Lines
