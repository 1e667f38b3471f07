import Mathlib.Tactic

/-!
Accounts of things that are acquired and given back.

* `Op`, `held`: acquiring and releasing, and what is held after a list of these;
  `none` as soon as something held is acquired again or something not held is
  released, so that along an account that is `some` everything acquired is released
  at most once before it is acquired again.
* `held_append`: accounts are continued.
* `Balances`: what is held is what is listed, in any order.
-/

namespace Ledger

variable {α : Type*} [DecidableEq α]

/-- An entry of the account. -/
inductive Op (α : Type*)
  | acquire (a : α)
  | release (a : α)

/-- One entry, `none` where it acquires what is held or releases what is not. -/
def step (l : List α) : Op α → Option (List α)
  | .acquire a => if a ∈ l then none else some (a :: l)
  | .release a => if a ∈ l then some (l.erase a) else none

/-- What is held after the entries, beginning with `l`. -/
def heldFrom (l : List α) : List (Op α) → Option (List α)
  | [] => some l
  | op :: ops => (step l op).bind fun l' => heldFrom l' ops

/-- What is held after the entries. -/
def held (ops : List (Op α)) : Option (List α) := heldFrom [] ops

lemma heldFrom_append (l : List α) (ops ops' : List (Op α)) :
    heldFrom l (ops ++ ops') = (heldFrom l ops).bind fun l' => heldFrom l' ops' := by
  induction ops generalizing l with
  | nil => rfl
  | cons op ops ih =>
      simp only [List.cons_append, heldFrom]
      cases step l op with
      | none => rfl
      | some l' => exact ih l'

lemma held_append {l : List α} {ops : List (Op α)} (h : held ops = some l)
    (ops' : List (Op α)) : held (ops ++ ops') = heldFrom l ops' := by
  rw [held, heldFrom_append, ← held, h, Option.bind_some]

/-- What is held after the entries is what the list says, in any order. -/
def Balances (ops : List (Op α)) (l : List α) : Prop := ∃ m, held ops = some m ∧ m.Perm l

namespace Balances

variable {ops : List (Op α)} {l l' : List α} {a : α}

lemma nil : Balances ([] : List (Op α)) [] := ⟨[], rfl, List.Perm.refl _⟩

lemma perm (h : Balances ops l) (hl : l.Perm l') : Balances ops l' := by
  obtain ⟨m, hheld, hm⟩ := h
  exact ⟨m, hheld, hm.trans hl⟩

lemma acquire (h : Balances ops l) (ha : a ∉ l) : Balances (ops ++ [.acquire a]) (a :: l) := by
  obtain ⟨m, hheld, hm⟩ := h
  have hnot : a ∉ m := fun hmem => ha (hm.mem_iff.mp hmem)
  refine ⟨a :: m, ?_, hm.cons a⟩
  rw [held_append hheld, heldFrom, step, if_neg hnot, Option.bind_some, heldFrom]

lemma release (h : Balances ops (a :: l)) : Balances (ops ++ [.release a]) l := by
  obtain ⟨m, hheld, hm⟩ := h
  have hmem : a ∈ m := hm.mem_iff.mpr List.mem_cons_self
  refine ⟨m.erase a, ?_, ?_⟩
  · rw [held_append hheld, heldFrom, step, if_pos hmem, Option.bind_some, heldFrom]
  · have herase := hm.erase a
    rwa [List.erase_cons_head] at herase

end Balances

end Ledger
