import Mathlib.Tactic

/-!
Byte memory addressed by offset, and the stretches of it that a program copies
in and out.

A region is a function from offsets to bytes, so that a store past the nominal
end of an array is a store like any other and can be talked about.

* `store`, `slice`, `cstr`: copying bytes in, reading a stretch of bytes, and
  reading the string that stands before the next zero byte.
* `slice_append`, `slice_take`, `slice_drop`: stretches are cut and joined like
  lists.
* `slice_store_self`, `slice_store_of_disjoint`, `slice_store_end`: what a store
  does to a stretch that it fills, that it misses, and that it extends at its end.
* `HasStr`: a region holds a string with its terminating zero; a zero stored inside
  cuts the string, a store behind it leaves it alone.
-/

namespace Memory

/-- A region of byte memory. -/
abbrev Mem := ℕ → UInt8

namespace Mem

/-- The region after `bs` has been copied to the offset `off`. -/
def store (m : Mem) (off : ℕ) (bs : List UInt8) : Mem :=
  fun i => if off ≤ i ∧ i < off + bs.length then bs.getD (i - off) 0 else m i

/-- The `n` bytes from the offset `off` on. -/
def slice (m : Mem) (off n : ℕ) : List UInt8 := (List.range n).map fun i => m (off + i)

/-- The string at the offset `off`, read at most `n` bytes far. -/
def cstr (m : Mem) (off n : ℕ) : List UInt8 := (m.slice off n).takeWhile (· != 0)

variable (m : Mem)

@[simp] lemma length_slice (off n : ℕ) : (m.slice off n).length = n := by simp [slice]

@[simp] lemma slice_zero (off : ℕ) : m.slice off 0 = [] := rfl

lemma slice_succ (off n : ℕ) : m.slice off (n + 1) = m off :: m.slice (off + 1) n := by
  simp only [slice, List.range_succ_eq_map, List.map_cons, List.map_map, Nat.add_zero]
  congr 1
  refine List.map_congr_left fun i _ => ?_
  simp only [Function.comp_apply]
  congr 1
  omega

lemma getElem_slice (off n i : ℕ) (h : i < (m.slice off n).length) :
    (m.slice off n)[i] = m (off + i) := by
  simp [slice]

/-- A stretch is the join of its two parts. -/
lemma slice_append (off n k : ℕ) :
    m.slice off (n + k) = m.slice off n ++ m.slice (off + n) k := by
  induction n generalizing off with
  | zero => simp
  | succ n ih =>
      rw [Nat.succ_add, slice_succ, ih (off + 1), slice_succ, List.cons_append,
        show off + 1 + n = off + (n + 1) from by omega]

lemma slice_take (off n k : ℕ) (h : k ≤ n) : (m.slice off n).take k = m.slice off k := by
  obtain ⟨j, rfl⟩ := Nat.exists_eq_add_of_le h
  rw [slice_append, List.take_left' (length_slice m off k)]

lemma slice_drop (off n k : ℕ) (h : k ≤ n) :
    (m.slice off n).drop k = m.slice (off + k) (n - k) := by
  obtain ⟨j, rfl⟩ := Nat.exists_eq_add_of_le h
  rw [slice_append, List.drop_left' (length_slice m off k), Nat.add_sub_cancel_left]

/-- Two regions that agree on a stretch have the same slice there. -/
lemma slice_congr {m m' : Mem} {off n : ℕ} (h : ∀ i < n, m (off + i) = m' (off + i)) :
    m.slice off n = m'.slice off n :=
  List.map_congr_left fun i hi => h i (List.mem_range.mp hi)

/-! ### Slices after a store -/

lemma store_of_lt {off i : ℕ} (bs : List UInt8) (h : i < off) : m.store off bs i = m i := by
  rw [store, if_neg (by omega)]

lemma store_of_le {off i : ℕ} (bs : List UInt8) (h : off + bs.length ≤ i) :
    m.store off bs i = m i := by
  rw [store, if_neg (by omega)]

lemma store_of_mem {off i : ℕ} (bs : List UInt8) (h : i < bs.length) :
    m.store off bs (off + i) = bs[i] := by
  rw [store, if_pos (by omega), Nat.add_sub_cancel_left, List.getD_eq_getElem?_getD,
    List.getElem?_eq_getElem h, Option.getD_some]

@[simp] lemma store_nil (off : ℕ) : m.store off [] = m := by
  funext i
  rw [store, if_neg (by simp only [List.length_nil]; omega)]

/-- Storing one text behind another. -/
lemma store_append (off : ℕ) (bs bs' : List UInt8) :
    m.store off (bs ++ bs') = (m.store off bs).store (off + bs.length) bs' := by
  funext i
  rcases Nat.lt_or_ge i off with hlt | hge
  · rw [store_of_lt m _ hlt, store_of_lt (m.store off bs) _ (by omega), store_of_lt m _ hlt]
  obtain ⟨j, rfl⟩ := Nat.exists_eq_add_of_le hge
  rcases Nat.lt_or_ge j bs.length with hj | hj
  · rw [store_of_lt (m.store off bs) _ (by omega), store_of_mem m bs hj,
      store_of_mem m (bs ++ bs') (by simp only [List.length_append]; omega),
      List.getElem_append_left hj]
  obtain ⟨k, rfl⟩ := Nat.exists_eq_add_of_le hj
  rcases Nat.lt_or_ge k bs'.length with hk | hk
  · rw [store_of_mem m (bs ++ bs') (by simp only [List.length_append]; omega), ← Nat.add_assoc,
      store_of_mem (m.store off bs) bs' hk, List.getElem_append_right (by omega)]
    simp only [Nat.add_sub_cancel_left]
  · rw [store_of_le m _ (by simp only [List.length_append]; omega),
      store_of_le (m.store off bs) _ (by omega), store_of_le m _ (by omega)]

lemma store_singleton (off : ℕ) (b : UInt8) : m.store off [b] off = b := by
  simp [store]

/-- The stretch a store fills holds what was stored. -/
lemma slice_store_self (off : ℕ) (bs : List UInt8) :
    (m.store off bs).slice off bs.length = bs := by
  refine List.ext_getElem (length_slice _ _ _) fun i h₁ h₂ => ?_
  rw [getElem_slice, store_of_mem]

/-- A store leaves a stretch that it does not touch as it was. -/
lemma slice_store_of_disjoint {a n b : ℕ} (bs : List UInt8)
    (h : a + n ≤ b ∨ b + bs.length ≤ a) : (m.store b bs).slice a n = m.slice a n := by
  refine slice_congr fun i hi => ?_
  rcases h with h | h
  · exact store_of_lt m bs (by omega)
  · exact store_of_le m bs (by omega)

/-- A store right behind a stretch extends it. -/
lemma slice_store_end (off n : ℕ) (bs : List UInt8) :
    (m.store (off + n) bs).slice off (n + bs.length) = m.slice off n ++ bs := by
  rw [slice_append, slice_store_of_disjoint m bs (Or.inl le_rfl), slice_store_self]

/-! ### Strings -/

/-- The zero behind a string that is stored. -/
lemma store_end_zero (off : ℕ) (bs : List UInt8) :
    m.store off (bs ++ [0]) (off + bs.length) = 0 := by
  rw [store_of_mem m (bs ++ [0]) (by simp)]
  simp

lemma length_cstr_le (off n : ℕ) : (m.cstr off n).length ≤ n := by
  rw [cstr]
  exact (List.takeWhile_sublist _).length_le.trans (length_slice m off n).le

/-- The end of a string is the string from there on. -/
lemma cstr_drop {off n k : ℕ} (h : k ≤ (m.cstr off n).length) :
    (m.cstr off n).drop k = m.cstr (off + k) (n - k) := by
  induction k generalizing off n with
  | zero => rfl
  | succ k ih =>
      cases n with
      | zero => exact absurd h (by simp [cstr])
      | succ n =>
          rw [cstr, slice_succ] at h ⊢
          rw [List.takeWhile_cons] at h ⊢
          split_ifs at h ⊢ with hb
          · rw [List.drop_succ_cons, ← cstr, ih (Nat.le_of_succ_le_succ h), Nat.add_sub_add_right,
              Nat.add_assoc, Nat.add_comm 1 k]
          · cases h

/-- A zero stored inside a string, or where it ends, cuts it. -/
lemma cstr_store_zero {off n k : ℕ} (h : k ≤ (m.cstr off n).length) :
    (m.store (off + k) [0]).cstr off n = (m.cstr off n).take k := by
  induction k generalizing off n with
  | zero =>
      cases n with
      | zero => rfl
      | succ n => rw [cstr, slice_succ, Nat.add_zero, store_singleton, List.take_zero]; rfl
  | succ k ih =>
      cases n with
      | zero => exact absurd h (by simp [cstr])
      | succ n =>
          have hoff : m.store (off + (k + 1)) [0] off = m off := store_of_lt m [0] (by omega)
          rw [cstr, slice_succ, List.takeWhile_cons] at h
          rw [cstr, cstr, slice_succ, slice_succ, List.takeWhile_cons, List.takeWhile_cons, hoff]
          split_ifs at h ⊢ with hb
          · have hshift : off + (k + 1) = off + 1 + k := by omega
            rw [List.take_succ_cons, hshift]
            exact congrArg _ (ih (Nat.le_of_succ_le_succ h))
          · cases h

/-- The region holds the string `s`, and the zero that ends it, at `off`. -/
def HasStr (off : ℕ) (s : List UInt8) : Prop :=
  0 ∉ s ∧ m.slice off s.length = s ∧ m (off + s.length) = 0

namespace HasStr

variable {m} {off : ℕ} {s : List UInt8}

lemma apply_of_lt (h : m.HasStr off s) {i : ℕ} (hi : i < s.length) : m (off + i) = s[i] := by
  have hlen : i < (m.slice off s.length).length := by rwa [length_slice]
  rw [← getElem_slice m off s.length i hlen]
  simp only [h.2.1]

/-- Reading the string back. -/
lemma cstr_eq (h : m.HasStr off s) {n : ℕ} (hn : s.length < n) : m.cstr off n = s := by
  obtain ⟨k, rfl⟩ := Nat.exists_eq_add_of_lt hn
  rw [cstr, Nat.add_assoc, slice_append, h.2.1, Nat.add_comm k 1, slice_append, slice_succ,
    h.2.2, slice_zero, List.takeWhile_append_of_pos]
  · simp
  · intro b hb
    exact bne_iff_ne.mpr fun h0 => h.1 (h0 ▸ hb)

lemma of_store (hs : 0 ∉ s) : (m.store off (s ++ [0])).HasStr off s := by
  have h := slice_store_self m off (s ++ [0])
  rw [List.length_append, slice_append] at h
  obtain ⟨h₁, h₂⟩ := List.append_inj h (length_slice _ _ _)
  refine ⟨hs, h₁, ?_⟩
  rw [List.length_singleton, slice_succ, slice_zero] at h₂
  exact (List.cons.inj h₂).1

/-- The end of a string is a string. -/
lemma drop (h : m.HasStr off s) {k : ℕ} (hk : k ≤ s.length) : m.HasStr (off + k) (s.drop k) := by
  refine ⟨fun h0 => h.1 (List.mem_of_mem_drop h0), ?_, ?_⟩
  · rw [List.length_drop, ← slice_drop m off s.length k hk, h.2.1]
  · rw [List.length_drop, Nat.add_assoc, Nat.add_sub_cancel' hk, h.2.2]

lemma nil_iff : m.HasStr off [] ↔ m off = 0 := by
  simp [HasStr]

/-- The first byte of a string, and the rest of it. -/
lemma cons_iff {b : UInt8} : m.HasStr off (b :: s) ↔ m off = b ∧ b ≠ 0 ∧ m.HasStr (off + 1) s := by
  rw [HasStr, HasStr, List.length_cons, slice_succ, List.cons.injEq, List.mem_cons, not_or,
    Nat.add_assoc, Nat.add_comm 1]
  tauto

/-- A byte other than zero at the start of a string is its first one. -/
lemma exists_cons {b : UInt8} (h : m.HasStr off s) (hb : m off = b) (hb0 : b ≠ 0) :
    ∃ t, s = b :: t ∧ m.HasStr (off + 1) t := by
  cases s with
  | nil => exact absurd (hb.symm.trans (nil_iff.mp h)) hb0
  | cons c t =>
      obtain ⟨hc, -, ht⟩ := cons_iff.mp h
      exact ⟨t, by rw [← hb, hc], ht⟩

/-- A string is the same in a region that agrees from its start on. -/
lemma congr {m' : Mem} (h : m.HasStr off s) (heq : ∀ i, off ≤ i → m' i = m i) :
    m'.HasStr off s := by
  refine ⟨h.1, ?_, ?_⟩
  · rw [slice_congr fun i _ => heq _ (Nat.le_add_right _ _), h.2.1]
  · rw [heq _ (Nat.le_add_right _ _), h.2.2]

/-- A zero stored inside a string cuts it. -/
lemma cut (h : m.HasStr off s) {k : ℕ} (hk : k ≤ s.length) :
    (m.store (off + k) [0]).HasStr off (s.take k) := by
  refine ⟨fun h0 => h.1 (List.mem_of_mem_take h0), ?_, ?_⟩
  · rw [List.length_take_of_le hk, slice_store_of_disjoint m [0] (Or.inl le_rfl),
      ← slice_take m off s.length k hk, h.2.1]
  · rw [List.length_take_of_le hk]
    exact store_singleton m (off + k) 0

/-- A store behind a string leaves it alone. -/
lemma store_of_gt (h : m.HasStr off s) {j : ℕ} (hj : off + s.length < j) (bs : List UInt8) :
    (m.store j bs).HasStr off s := by
  refine ⟨h.1, ?_, ?_⟩
  · rw [slice_store_of_disjoint m bs (Or.inl hj.le), h.2.1]
  · rw [store_of_lt m bs hj, h.2.2]

end HasStr

end Mem

end Memory
