import Mathlib.Tactic

/-!
Runs of a machine that is driven by inputs.

* `runs`: the state after a list of inputs.
* `Allowed`: every step of the run meets a condition on the state it starts in
  and on its input.
* `allowed_congr`, `allowed_congr_of_invariant`: conditions that agree on every step, or where an
  invariant holds, allow the same runs.
* `runs_invariant`: what one allowed step preserves, a whole allowed run
  preserves.
* `runs_iff_allowed`: what one step preserves exactly under a condition, a run preserves exactly
  if all its steps meet the condition.
* `reached_eq_iff`: a run stays in its first state exactly if no input leads out of it.
-/

namespace Run

variable {σ ι : Type*}

/-- The state after the inputs have been taken in order. -/
def runs (step : σ → ι → σ) (s : σ) (is : List ι) : σ := is.foldl step s

@[simp] lemma runs_nil (step : σ → ι → σ) (s : σ) : runs step s [] = s := rfl

@[simp] lemma runs_cons (step : σ → ι → σ) (s : σ) (i : ι) (is : List ι) :
    runs step s (i :: is) = runs step (step s i) is := rfl

/-- Every step of the run from `s` starts in a state and takes an input that
together meet `ok`. -/
def Allowed (step : σ → ι → σ) (ok : σ → ι → Prop) : σ → List ι → Prop
  | _, [] => True
  | s, i :: is => ok s i ∧ Allowed step ok (step s i) is

instance decidableAllowed {step : σ → ι → σ} {ok : σ → ι → Prop} [∀ s i, Decidable (ok s i)] :
    ∀ (s : σ) (is : List ι), Decidable (Allowed step ok s is)
  | _, [] => .isTrue trivial
  | s, i :: is =>
      have : Decidable (Allowed step ok (step s i) is) := decidableAllowed (step s i) is
      inferInstanceAs (Decidable (ok s i ∧ Allowed step ok (step s i) is))

lemma runs_append (step : σ → ι → σ) (s : σ) (is js : List ι) :
    runs step s (is ++ js) = runs step (runs step s is) js := List.foldl_append ..

/-- A run goes on where another one has ended. -/
lemma allowed_append {step : σ → ι → σ} {ok : σ → ι → Prop} {s : σ} {is js : List ι} :
    Allowed step ok s (is ++ js) ↔ Allowed step ok s is ∧ Allowed step ok (runs step s is) js := by
  induction is generalizing s with
  | nil => exact (iff_of_eq (true_and _)).symm
  | cons i is ih => rw [List.cons_append, Allowed, Allowed, ih, runs_cons, and_assoc]

/-- A weaker condition allows more runs. -/
lemma Allowed.mono {step : σ → ι → σ} {ok ok' : σ → ι → Prop} (h : ∀ s i, ok s i → ok' s i)
    {s : σ} {is : List ι} (hok : Allowed step ok s is) : Allowed step ok' s is := by
  induction is generalizing s with
  | nil => trivial
  | cons i is ih => exact ⟨h s i hok.1, ih hok.2⟩

/-- Inputs that meet a condition in every state meet it on every run. -/
lemma allowed_of_forall {step : σ → ι → σ} {ok : σ → ι → Prop} {is : List ι}
    (h : ∀ i ∈ is, ∀ s, ok s i) (s : σ) : Allowed step ok s is := by
  induction is generalizing s with
  | nil => trivial
  | cons i is ih =>
      exact ⟨h i List.mem_cons_self s, ih (fun j hj => h j (List.mem_cons_of_mem i hj)) _⟩

/-- Conditions that agree on every step allow the same runs. -/
lemma allowed_congr {step : σ → ι → σ} {ok ok' : σ → ι → Prop} (h : ∀ s i, ok s i ↔ ok' s i)
    (s : σ) (is : List ι) : Allowed step ok s is ↔ Allowed step ok' s is := by
  induction is generalizing s with
  | nil => exact Iff.rfl
  | cons i is ih => exact and_congr (h s i) (ih (step s i))

/-- It is enough that they agree where an invariant holds. -/
lemma allowed_congr_of_invariant {step : σ → ι → σ} {ok ok' : σ → ι → Prop} {Inv : σ → Prop}
    (hstep : ∀ s i, Inv s → Inv (step s i)) (h : ∀ s i, Inv s → (ok s i ↔ ok' s i))
    {s : σ} (hs : Inv s) (is : List ι) : Allowed step ok s is ↔ Allowed step ok' s is := by
  induction is generalizing s with
  | nil => exact Iff.rfl
  | cons i is ih => exact and_congr (h s i hs) (ih (hstep s i hs))

/-- Nothing is asked of a run. -/
lemma allowed_true (step : σ → ι → σ) (s : σ) (is : List ι) :
    Allowed step (fun _ _ => True) s is := by
  induction is generalizing s with
  | nil => trivial
  | cons i is ih => exact ⟨trivial, ih (step s i)⟩

/-- Two conditions on every step are one. -/
lemma allowed_and {step : σ → ι → σ} {ok ok' : σ → ι → Prop} {s : σ} {is : List ι} :
    Allowed step (fun s i => ok s i ∧ ok' s i) s is ↔
      Allowed step ok s is ∧ Allowed step ok' s is := by
  induction is generalizing s with
  | nil => exact (iff_of_eq (and_true _)).symm
  | cons i is ih => rw [Allowed, Allowed, Allowed, ih, and_and_and_comm]

/-- **The invariant rule**: a property that every allowed step preserves holds at
the end of every allowed run. -/
theorem runs_invariant {step : σ → ι → σ} {ok : σ → ι → Prop} {Inv : σ → Prop}
    (hstep : ∀ s i, Inv s → ok s i → Inv (step s i)) :
    ∀ (is : List ι) (s : σ), Inv s → Allowed step ok s is → Inv (runs step s is)
  | [], _, hs, _ => hs
  | i :: is, s, hs, hok => runs_invariant hstep is (step s i) (hstep s i hs hok.1) hok.2

/-- **The equivalence rule**: where each step of a run keeps a property exactly if it meets a
condition, a run keeps it exactly if all its steps do. -/
theorem runs_iff_allowed {step : σ → ι → σ} {legal ok : σ → ι → Prop} {Inv P : σ → Prop}
    (hstep : ∀ s i, Inv s → legal s i → Inv (step s i))
    (hiff : ∀ s i, Inv s → legal s i → (P (step s i) ↔ P s ∧ ok s i)) :
    ∀ (is : List ι) (s : σ), Inv s → Allowed step legal s is →
      (P (runs step s is) ↔ P s ∧ Allowed step ok s is)
  | [], _, _, _ => (iff_of_eq (and_true _)).symm
  | i :: is, s, hs, hlegal => by
      rw [runs_cons, runs_iff_allowed hstep hiff is (step s i) (hstep s i hs hlegal.1) hlegal.2,
        hiff s i hs hlegal.1, Allowed, and_assoc]

/-- A run stays in the state that it begins in exactly if none of its inputs leads out of that
state. -/
theorem reached_eq_iff {step : σ → ι → σ} (s : σ) (is : List ι) :
    (∀ done, done <+: is → runs step s done = s) ↔ ∀ i ∈ is, step s i = s := by
  induction is with
  | nil =>
      refine iff_of_true (fun done hdone => ?_) fun i hi => absurd hi List.not_mem_nil
      rw [List.prefix_nil.mp hdone, runs_nil]
  | cons i is ih =>
      have hrest (hi : step s i = s) : (∀ done, done <+: is → runs step s (i :: done) = s) ↔
          ∀ j ∈ is, step s j = s := by
        rw [← ih]
        exact forall₂_congr fun done _ => by rw [runs_cons, hi]
      rw [List.forall_mem_cons]
      constructor
      · intro h
        have hi : step s i = s := h [i] (List.prefix_append [i] is)
        exact ⟨hi, (hrest hi).mp fun done hdone => h _ (List.cons_prefix_cons.mpr ⟨rfl, hdone⟩)⟩
      · rintro ⟨hi, his⟩ done hdone
        cases done with
        | nil => rfl
        | cons j done =>
            obtain ⟨rfl, hprev⟩ := List.cons_prefix_cons.mp hdone
            exact (hrest hi).mpr his done hprev

end Run
