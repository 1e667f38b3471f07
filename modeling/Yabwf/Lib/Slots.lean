import Mathlib.Tactic

/-!
A table whose first entries belong to owners.

* `Holds`: each owner on the list has a place of its own among the first entries of the
  table, and the entry there is what the owner wants.
* `Holds.push`: a further owner gets the next place.
* `Holds.congr`: only the places of the owners matter.
-/

namespace Slots

variable {α β : Type*}

/-- The owners on the list hold the places of the table below their number, each one a place of
its own with the entry that it wants. -/
structure Holds (table : ℕ → β) (slot : α → ℕ) (want : α → β) (l : List α) : Prop where
  lt : ∀ a ∈ l, slot a < l.length
  entry : ∀ a ∈ l, table (slot a) = want a
  inj : ∀ a ∈ l, ∀ b ∈ l, slot a = slot b → a = b

namespace Holds

variable {table table' : ℕ → β} {slot slot' : α → ℕ} {want want' : α → β} {l : List α}

/-- Nobody holds anything. -/
lemma nil (table : ℕ → β) (slot : α → ℕ) (want : α → β) : Holds table slot want [] :=
  ⟨nofun, nofun, nofun⟩

/-- The entries behind those of the owners, and what other owners want, do not matter. -/
lemma congr (h : Holds table slot want l) (htable : ∀ i < l.length, table' i = table i)
    (hslot : ∀ a ∈ l, slot' a = slot a) (hwant : ∀ a ∈ l, want' a = want a) :
    Holds table' slot' want' l where
  lt a ha := (hslot a ha).trans_lt (h.lt a ha)
  entry a ha := by
    rw [hslot a ha, hwant a ha, htable _ (h.lt a ha)]
    exact h.entry a ha
  inj a ha b hb hab := by
    rw [hslot a ha, hslot b hb] at hab
    exact h.inj a ha b hb hab

/-- **A further owner** gets the next place. -/
lemma push [DecidableEq α] (h : Holds table slot want l) {a : α} (ha : a ∉ l) (b : β) :
    Holds (Function.update table l.length b) (Function.update slot a l.length)
      (Function.update want a b) (a :: l) := by
  have hne : ∀ x ∈ l, x ≠ a := fun x hx hxa => ha (hxa ▸ hx)
  have hself : Function.update slot a l.length a = l.length := Function.update_self ..
  have hslot : ∀ x ∈ l, Function.update slot a l.length x = slot x := fun x hx =>
    Function.update_of_ne (hne x hx) ..
  refine ⟨?_, ?_, ?_⟩
  · rintro x (_ | ⟨_, hx⟩)
    · rw [hself, List.length_cons]
      exact l.length.lt_succ_self
    · rw [hslot x hx, List.length_cons]
      exact (h.lt x hx).trans l.length.lt_succ_self
  · rintro x (_ | ⟨_, hx⟩)
    · rw [hself, Function.update_self, Function.update_self]
    · rw [hslot x hx, Function.update_of_ne (h.lt x hx).ne, Function.update_of_ne (hne x hx)]
      exact h.entry x hx
  · rintro x (_ | ⟨_, hx⟩) y (_ | ⟨_, hy⟩) hxy
    · rfl
    · rw [hself, hslot y hy] at hxy
      exact absurd hxy.symm (h.lt y hy).ne
    · rw [hself, hslot x hx] at hxy
      exact absurd hxy (h.lt x hx).ne
    · rw [hslot x hx, hslot y hy] at hxy
      exact h.inj x hx y hy hxy

/-- The order of the owners does not matter. -/
lemma perm (h : Holds table slot want l) {l' : List α} (hl : l.Perm l') :
    Holds table slot want l' where
  lt a ha := (h.lt a (hl.mem_iff.mpr ha)).trans_eq hl.length_eq
  entry a ha := h.entry a (hl.mem_iff.mpr ha)
  inj a ha b hb := h.inj a (hl.mem_iff.mpr ha) b (hl.mem_iff.mpr hb)

end Holds

end Slots
