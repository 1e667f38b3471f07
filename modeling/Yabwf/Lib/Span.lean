import Mathlib.Data.List.TakeWhile

/-!
Texts that are read span by span.

* `All`, `Stops`: a span consists of elements of some kind, and what follows does not go on
  with one.
* `exists_span`, `span_unique`: every text is a span and what follows, in one way.
* `takeWhile_span`, `dropWhile_span`: which `takeWhile` and `dropWhile` compute.
-/

namespace Span

variable {α : Type*} {p : α → Bool}

/-- Every element is of the kind. -/
def All (p : α → Bool) (s : List α) : Prop := ∀ a ∈ s, p a = true

/-- The text does not begin with an element of the kind. -/
def Stops (p : α → Bool) (s : List α) : Prop := ∀ a t, s = a :: t → p a = false

lemma all_nil : All p [] := List.forall_mem_nil _

lemma All.cons {a : α} {s : List α} (ha : p a = true) (hs : All p s) : All p (a :: s) :=
  List.forall_mem_cons.mpr ⟨ha, hs⟩

lemma stops_nil : Stops p [] := nofun

lemma stops_cons {a : α} {t : List α} (h : p a = false) : Stops p (a :: t) := by
  rintro b t' heq
  rw [List.cons.injEq] at heq
  rwa [← heq.1]

lemma takeWhile_span {s t : List α} (hs : All p s) (ht : Stops p t) :
    (s ++ t).takeWhile p = s := by
  rw [List.takeWhile_append_of_pos hs]
  cases t with
  | nil => rw [List.takeWhile_nil, List.append_nil]
  | cons a t => rw [List.takeWhile_cons_of_neg (by simp [ht a t rfl]), List.append_nil]

lemma dropWhile_span {s t : List α} (hs : All p s) (ht : Stops p t) :
    (s ++ t).dropWhile p = t := by
  rw [List.dropWhile_append_of_pos hs]
  cases t with
  | nil => rfl
  | cons a t => rw [List.dropWhile_cons_of_neg (by simp [ht a t rfl])]

/-- A text has one longest span in front. -/
lemma span_unique {s s' t t' : List α} (hs : All p s) (hs' : All p s') (ht : Stops p t)
    (ht' : Stops p t') (h : s ++ t = s' ++ t') : s = s' ∧ t = t' := by
  have hspan : s = s' := by rw [← takeWhile_span hs ht, h, takeWhile_span hs' ht']
  rw [hspan] at h
  exact ⟨hspan, List.append_cancel_left h⟩

/-- Every text has one. -/
lemma exists_span (p : α → Bool) (s : List α) :
    ∃ front rest, s = front ++ rest ∧ All p front ∧ Stops p rest := by
  refine ⟨s.takeWhile p, s.dropWhile p, List.takeWhile_append_dropWhile.symm,
    fun a ha => List.mem_takeWhile_imp ha, fun a t heq => ?_⟩
  have hne : s.dropWhile p ≠ [] := by
    rw [heq]
    exact List.cons_ne_nil a t
  have hhead := List.head_dropWhile_not p hne
  simpa [heq] using hhead

end Span
