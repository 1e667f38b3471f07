import Mathlib.Data.List.Find
import Mathlib.Data.List.TakeWhile
import Yabwf.Lib.Memory

/-!
C strings whose bytes are of some kind, in memory that is filled from the left.

* `TextBelow`, `EndsBelow`: the bytes of the string at an offset, and its end, as far as the
  memory has been filled.
* `Cuts`: writing that cuts strings and keeps the kind of their bytes.
* `cstr_apply`, `forall_mem_cstr`: the bytes of a string, and their kind if it ends.
* `HasStr.congr_of_le`: a string depends on its own bytes only.
* `scan`: a scan for a kind of byte; `scan_eq`, `scan_end`: where it ends in a string, or at the
  zero behind it.
-/

namespace Memory

namespace Mem

/-- Every byte of the string at `off` that lies below `p` satisfies `P`. -/
def TextBelow (P : UInt8 → Prop) (m : Mem) (p off : ℕ) : Prop :=
  ∀ k, off ≤ k → k < p → (∀ i, off ≤ i → i ≤ k → m i ≠ 0) → P (m k)

/-- The string at `off` ends below `p`. -/
def EndsBelow (m : Mem) (p off : ℕ) : Prop := ∃ j, off ≤ j ∧ j < p ∧ m j = 0

/-- Below `p`, zeroes are kept, and bytes that satisfy `P` are kept so, or zeroed. -/
def Cuts (P : UInt8 → Prop) (p : ℕ) (m m' : Mem) : Prop :=
  ∀ i < p, (m i = 0 → m' i = 0) ∧ (P (m i) → m' i ≠ 0 → P (m' i))

variable {P : UInt8 → Prop} {m m' m'' : Mem} {p off : ℕ}

namespace EndsBelow

lemma mono {p' : ℕ} (h : EndsBelow m p off) (hle : p ≤ p') : EndsBelow m p' off := by
  obtain ⟨j, hoff, hj, hzero⟩ := h
  exact ⟨j, hoff, hj.trans_le hle, hzero⟩

lemma cuts (h : EndsBelow m p off) (hc : Cuts P p m m') : EndsBelow m' p off := by
  obtain ⟨j, hoff, hj, hzero⟩ := h
  exact ⟨j, hoff, hj, (hc j hj).1 hzero⟩

/-- A string goes on to the end of any string that it is the beginning of. -/
lemma drop {off' : ℕ} (h : EndsBelow m p off) (hnz : ∀ i, off ≤ i → i < off' → m i ≠ 0) :
    EndsBelow m p off' := by
  obtain ⟨j, hoff, hj, hzero⟩ := h
  refine ⟨j, ?_, hj, hzero⟩
  by_contra hlt
  exact hnz j hoff (not_le.mp hlt) hzero

end EndsBelow

namespace TextBelow

/-- There is nothing yet. -/
lemma of_le (h : p ≤ off) : TextBelow P m p off :=
  fun _ hk hlt _ => absurd (hk.trans_lt hlt) h.not_gt

/-- One more byte of the kind. -/
lemma succ (h : TextBelow P m p off) (hp : P (m p)) : TextBelow P m (p + 1) off := by
  intro k hk hlt hnz
  rcases Nat.lt_succ_iff_lt_or_eq.mp hlt with hlt | rfl
  · exact h k hk hlt hnz
  · exact hp

/-- What is written behind the end of a string is no part of it. -/
lemma extend (h : TextBelow P m p off) (hend : EndsBelow m (p + 1) off) (p' : ℕ) :
    TextBelow P m p' off := by
  obtain ⟨j, hoff, hj, hzero⟩ := hend
  intro k hk _ hnz
  by_cases hlt : k < j
  · exact h k hk (hlt.trans_le (Nat.lt_succ_iff.mp hj)) hnz
  · exact absurd hzero (hnz j hoff (not_lt.mp hlt))

lemma cuts (h : TextBelow P m p off) (hc : Cuts P p m m') : TextBelow P m' p off := by
  intro k hk hlt hnz
  refine (hc k hlt).2 (h k hk hlt fun i hi hik hzero => ?_) (hnz k hk le_rfl)
  exact hnz i hi hik ((hc i (hik.trans_lt hlt)).1 hzero)

/-- The rest of a string. -/
lemma drop {off' : ℕ} (h : TextBelow P m p off) (hle : off ≤ off')
    (hnz : ∀ i, off ≤ i → i < off' → m i ≠ 0) : TextBelow P m p off' := by
  intro k hk hlt hk'
  refine h k (hle.trans hk) hlt fun i hi hik => ?_
  rcases Nat.lt_or_ge i off' with hlt' | hge
  · exact hnz i hi hlt'
  · exact hk' i hge hik

end TextBelow

namespace Cuts

lemma refl (P : UInt8 → Prop) (p : ℕ) (m : Mem) : Cuts P p m m :=
  fun _ _ => ⟨id, fun h _ => h⟩

lemma trans (h : Cuts P p m m') (h' : Cuts P p m' m'') : Cuts P p m m'' := by
  intro i hi
  refine ⟨fun hzero => (h' i hi).1 ((h i hi).1 hzero), fun hp hne => ?_⟩
  exact (h' i hi).2 ((h i hi).2 hp fun hzero => hne ((h' i hi).1 hzero)) hne

/-- What is there is kept. -/
lemma of_eq (h : ∀ i < p, m' i = m i) : Cuts P p m m' := by
  intro i hi
  rw [h i hi]
  exact ⟨id, fun hp _ => hp⟩

/-- A zero is stored. -/
lemma store_zero (P : UInt8 → Prop) (p : ℕ) (m : Mem) (off : ℕ) :
    Cuts P p m (m.store off [0]) := by
  intro i _
  by_cases h : i = off
  · rw [h, store_singleton]
    exact ⟨fun _ => rfl, fun _ hne => absurd rfl hne⟩
  · have hsame : m.store off [0] i = m i := by
      rcases Nat.lt_or_gt_of_ne h with hlt | hgt
      · exact store_of_lt m [0] hlt
      · exact store_of_le m [0] hgt
    rw [hsame]
    exact ⟨id, fun hp _ => hp⟩

/-- The beginning of a string is rewritten, and cut behind what is written. -/
lemma store_str {bs : List UInt8} (hnz : ∀ i, i ≤ bs.length → m (off + i) ≠ 0)
    (hP : ∀ i (hi : i < bs.length), P (m (off + i)) → P bs[i]) :
    Cuts P p m (m.store off (bs ++ [0])) := by
  have hlen : (bs ++ [0]).length = bs.length + 1 := List.length_append
  intro i _
  rcases Nat.lt_or_ge i off with hlt | hge
  · rw [store_of_lt m _ hlt]
    exact ⟨id, fun hp _ => hp⟩
  obtain ⟨k, rfl⟩ := Nat.exists_eq_add_of_le hge
  rcases Nat.lt_trichotomy k bs.length with hk | rfl | hk
  · rw [store_of_mem m _ (by omega), List.getElem_append_left hk]
    exact ⟨fun hzero => absurd hzero (hnz k hk.le), fun hp _ => hP k hk hp⟩
  · rw [store_end_zero]
    exact ⟨fun _ => rfl, fun _ hne => absurd rfl hne⟩
  · rw [store_of_le m _ (by omega)]
    exact ⟨id, fun hp _ => hp⟩

end Cuts

/-- The bytes of a string as it is read. -/
lemma cstr_apply {n i : ℕ} (h : i < (m.cstr off n).length) :
    m (off + i) = (m.cstr off n)[i] ∧ m (off + i) ≠ 0 := by
  have hget : m (off + i) = (m.cstr off n)[i] := by
    have hlen : i < (m.slice off n).length := h.trans_le (List.takeWhile_sublist _).length_le
    rw [← getElem_slice m off n i hlen]
    exact ((List.takeWhile_prefix _).getElem h).symm
  refine ⟨hget, ?_⟩
  rw [hget]
  have hmem : (m.cstr off n)[i] ∈ (m.slice off n).takeWhile (· != 0) := List.getElem_mem h
  simpa using List.mem_takeWhile_imp hmem

/-- A string ends at the first zero. -/
lemma length_cstr_le_of_zero {n k : ℕ} (h : m (off + k) = 0) : (m.cstr off n).length ≤ k := by
  by_contra hlt
  exact (cstr_apply (not_le.mp hlt)).2 h

/-- The bytes of a string, with what stands in front of them. -/
lemma mem_cstr {n : ℕ} {b : UInt8} (h : b ∈ m.cstr off n) :
    ∃ k, m (off + k) = b ∧ ∀ i, i ≤ k → m (off + i) ≠ 0 := by
  induction n generalizing off with
  | zero => cases h
  | succ n ih =>
      rw [cstr, slice_succ, List.takeWhile_cons] at h
      split_ifs at h with hne
      · have hoff : m off ≠ 0 := by simpa using hne
        rcases List.mem_cons.mp h with rfl | h
        · exact ⟨0, rfl, fun i hi => by rwa [Nat.le_zero.mp hi]⟩
        · obtain ⟨k, hk, hnz⟩ := ih (show b ∈ m.cstr (off + 1) n from h)
          refine ⟨k + 1, by rw [← hk, Nat.add_assoc, Nat.add_comm 1], fun i hi => ?_⟩
          cases i with
          | zero => exact hoff
          | succ i =>
              have := hnz i (by omega)
              rwa [Nat.add_assoc, Nat.add_comm 1] at this
      · cases h

/-- A string that ends below `p` consists of bytes of the kind. -/
lemma forall_mem_cstr (h : TextBelow P m p off) (hend : EndsBelow m p off) (n : ℕ) :
    ∀ b ∈ m.cstr off n, P b := by
  intro b hb
  obtain ⟨k, rfl, hnz⟩ := mem_cstr hb
  refine h.extend (hend.mono (Nat.le_succ p)) (off + k + 1) (off + k) (Nat.le_add_right _ _)
    (Nat.lt_succ_self _) ?_
  intro i hi hik
  have := hnz (i - off) (by omega)
  rwa [Nat.add_sub_cancel' hi] at this

/-- A string is the same in a region that agrees on its bytes and on the zero behind them. -/
lemma HasStr.congr_of_le {s : List UInt8} (h : m.HasStr off s)
    (heq : ∀ i, off ≤ i → i ≤ off + s.length → m' i = m i) : m'.HasStr off s := by
  refine ⟨h.1, ?_, ?_⟩
  · rw [slice_congr fun i hi => heq _ (by omega) (by omega), h.2.1]
  · rw [heq _ (by omega) le_rfl, h.2.2]

/-! ### Scans -/

/-- The index of the first byte of a kind from `off` on, below `n`. -/
def scan (p : UInt8 → Bool) (m : Mem) (off n : ℕ) : Option ℕ :=
  (List.range' off (n - off)).find? fun j => p (m j)

lemma scan_eq_some_iff {p : UInt8 → Bool} {n j : ℕ} : scan p m off n = some j ↔
    p (m j) = true ∧ (off ≤ j ∧ j < n) ∧ ∀ k, off ≤ k → k < j → p (m k) = false := by
  rw [scan, List.find?_range'_eq_some, List.mem_range'_1]
  have hbounds : (off ≤ j ∧ j < off + (n - off)) ↔ off ≤ j ∧ j < n := by omega
  simp only [hbounds, Bool.not_eq_true']

/-- A scan reads what is in front of its end. -/
lemma scan_congr {p : UInt8 → Bool} {n : ℕ} (h : ∀ j, off ≤ j → j < n → m' j = m j) :
    scan p m' off n = scan p m off n := by
  refine List.find?_congr fun j hj => ?_
  rw [List.mem_range'_1] at hj
  rw [h j hj.1 (by omega)]

/-- The first part of a string is passed. -/
lemma scan_of_append {p : UInt8 → Bool} {n : ℕ} {a b : List UInt8} (hstr : m.HasStr off (a ++ b))
    (ha : ∀ x ∈ a, p x = false) (hb : p (m (off + a.length)) = true) (hn : off + a.length < n) :
    scan p m off n = some (off + a.length) := by
  refine scan_eq_some_iff.mpr ⟨hb, ⟨Nat.le_add_right _ _, hn⟩, fun j hj hlt => ?_⟩
  obtain ⟨k, rfl⟩ := Nat.exists_eq_add_of_le hj
  have hk : k < a.length := by omega
  rw [hstr.apply_of_lt (by rw [List.length_append]; omega), List.getElem_append_left hk]
  exact ha _ (List.getElem_mem hk)

/-- A scan ends at the first byte of the kind. -/
lemma scan_eq {p : UInt8 → Bool} {n : ℕ} {a b : List UInt8} {c : UInt8}
    (hstr : m.HasStr off (a ++ c :: b)) (ha : ∀ x ∈ a, p x = false) (hc : p c = true)
    (hn : off + a.length < n) : scan p m off n = some (off + a.length) := by
  refine scan_of_append hstr ha ?_ hn
  rw [hstr.apply_of_lt (by simp)]
  simpa using hc

/-- A scan for zero, among others, ends with the string. -/
lemma scan_end {p : UInt8 → Bool} {n : ℕ} {a : List UInt8} (hstr : m.HasStr off a)
    (ha : ∀ x ∈ a, p x = false) (h0 : p 0 = true) (hn : off + a.length < n) :
    scan p m off n = some (off + a.length) := by
  refine scan_of_append (b := []) ?_ ha ?_ hn
  · rwa [List.append_nil]
  · rwa [hstr.2.2]

end Mem

end Memory
