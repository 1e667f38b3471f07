import Yabwf.Lib.Memory

/-!
Compaction in place: a pass over a string that writes its output over its input, with
a write cursor that stays behind the read cursor.

* `Cursors`, `put`, `skip`, `cut`: a buffer with its two cursors, and the moves of a pass.
* `Behind`: the write cursor has not overtaken the read cursor, and what has not been
  read is as it was.
* `Written`: in addition the output so far stands in front of the write cursor.
* `Written.put`, `Written.skip`, `Written.hasStr_cut`: what the moves do to it.
-/

namespace Compaction

open Memory

/-- A buffer with a write and a read cursor. -/
structure Cursors where
  buf : Mem
  write : ℕ := 0
  read : ℕ := 0

namespace Cursors

/-- The byte `i` places behind the read cursor. -/
def peek (c : Cursors) (i : ℕ) : UInt8 := c.buf (c.read + i)

/-- `n` bytes are read and one is written. -/
def put (b : UInt8) (n : ℕ) (c : Cursors) : Cursors where
  buf := c.buf.store c.write [b]
  write := c.write + 1
  read := c.read + n

/-- `n` bytes are read. -/
def skip (n : ℕ) (c : Cursors) : Cursors := { c with read := c.read + n }

/-- The output is ended by a zero byte. -/
def cut (c : Cursors) : Cursors := { c with buf := c.buf.store c.write [0] }

@[simp] lemma read_put (b : UInt8) (n : ℕ) (c : Cursors) : (c.put b n).read = c.read + n := rfl

@[simp] lemma write_put (b : UInt8) (n : ℕ) (c : Cursors) : (c.put b n).write = c.write + 1 := rfl

@[simp] lemma read_skip (n : ℕ) (c : Cursors) : (c.skip n).read = c.read + n := rfl

@[simp] lemma write_skip (n : ℕ) (c : Cursors) : (c.skip n).write = c.write := rfl

@[simp] lemma buf_skip (n : ℕ) (c : Cursors) : (c.skip n).buf = c.buf := rfl

@[simp] lemma read_cut (c : Cursors) : c.cut.read = c.read := rfl

@[simp] lemma write_cut (c : Cursors) : c.cut.write = c.write := rfl

/-- The write cursor is at or before the read cursor, and nothing that has not been read
yet has been overwritten. -/
structure Behind (m : Mem) (c : Cursors) : Prop where
  le : c.write ≤ c.read
  ahead : ∀ i, c.read ≤ i → c.buf i = m i

/-- In addition `out` has been written, and no byte of it is zero. -/
structure Written (m : Mem) (out : List UInt8) (c : Cursors) : Prop extends Behind m c where
  length : c.write = out.length
  slice : c.buf.slice 0 out.length = out
  nonzero : 0 ∉ out

variable {m : Mem} {c : Cursors} {out : List UInt8}

/-- Before anything is read. -/
lemma written_start (m : Mem) : Written m [] { buf := m } :=
  ⟨⟨le_rfl, fun _ _ => rfl⟩, rfl, rfl, by simp⟩

lemma Behind.peek (h : Behind m c) (i : ℕ) : c.peek i = m (c.read + i) :=
  h.ahead _ (by omega)

lemma Behind.skip (h : Behind m c) (n : ℕ) : Behind m (c.skip n) :=
  ⟨h.le.trans (Nat.le_add_right _ _), fun i hi => h.ahead i ((Nat.le_add_right _ _).trans hi)⟩

/-- Ending the output keeps what has not been read, a zero byte at the read cursor
included. -/
lemma Behind.cut (h : Behind m c) (hlt : c.write < c.read ∨ m c.read = 0) : Behind m c.cut := by
  refine ⟨h.le, fun i hi => ?_⟩
  rw [read_cut] at hi
  by_cases hw : c.write = i
  · have heq : c.read = i := le_antisymm hi (hw ▸ h.le)
    have hzero : m i = 0 := heq ▸ hlt.resolve_left (by omega)
    rw [hzero, Cursors.cut, ← hw]
    exact Mem.store_singleton c.buf c.write 0
  · have hle := h.le
    rw [Cursors.cut]
    exact (Mem.store_of_le c.buf [0] (by simp; omega)).trans (h.ahead i hi)

lemma Written.skip (h : Written m out c) (n : ℕ) : Written m out (c.skip n) :=
  { h.toBehind.skip n with length := h.length, slice := h.slice, nonzero := h.nonzero }

/-- One more byte of output, behind what has been read by then. -/
lemma Written.put (h : Written m out c) {b : UInt8} {n : ℕ} (hlt : c.write < c.read + n)
    (hb : b ≠ 0) : Written m (out ++ [b]) (c.put b n) where
  le := hlt
  ahead i hi := by
    have := h.length
    rw [read_put] at hi
    exact (Mem.store_of_le c.buf [b] (by simp; omega)).trans (h.ahead i (by omega))
  length := by simp [h.length]
  slice := by
    have hend := Mem.slice_store_end c.buf 0 out.length [b]
    rw [Nat.zero_add, h.slice, ← h.length] at hend
    rw [List.length_append, ← h.length]
    exact hend
  nonzero := by
    simp only [List.mem_append, List.mem_singleton, not_or]
    exact ⟨h.nonzero, hb.symm⟩

/-- The output with its end. -/
lemma Written.hasStr_cut (h : Written m out c) : c.cut.buf.HasStr 0 out := by
  refine ⟨h.nonzero, ?_, ?_⟩
  · rw [Cursors.cut, h.length]
    exact (Mem.slice_store_of_disjoint c.buf [0] (Or.inl (by simp))).trans h.slice
  · rw [Cursors.cut, h.length, Nat.zero_add]
    exact Mem.store_singleton c.buf out.length 0

end Cursors

end Compaction
