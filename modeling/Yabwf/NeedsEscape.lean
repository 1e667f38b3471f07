import Yabwf.Lib.Masks
import Yabwf.IndexDir

/-!
`escape.c` and `escape.h`: the table that says which characters need an escape.

* `buildNeedsEscape`: the table, in words of an `unsigned long`, with the masks of an `int`.
* `getLsbD_mask`: the mask of the last bit of an `int` has all bits above it as well.
* `needsEscape_iff`: the table answers for exactly the characters that it is built without, and so
  the escapers of the server and of the indexer escape what the list of these characters says.
-/

namespace Yabwf

namespace NeedsEscape

/-! ### The table -/

/-- `NEEDS_ESCAPE_BITS` and `NEEDS_ESCAPE_WORD_LENGTH`. -/
def bits : ℕ := 128
def wordLength : ℕ := 32

/-- `NEEDS_ESCAPE_INDEX`. -/
def index (c : UInt8) : ℕ := c.toNat / wordLength

/-- `NEEDS_ESCAPE_MASK`, an `int`. -/
def intMask (c : UInt8) : BitVec 32 := 1#32 <<< (c.toNat % wordLength)

/-- The loop that counts the bits of an `unsigned int`. -/
def countBits : ℕ → BitVec 32 → ℕ → ℕ
  | 0, _, a => a
  | fuel + 1, b, a => if b = 0#32 then a else countBits fuel (b <<< 1) (a + 1)

/-- A turn of the loop over the special characters: the complement of the mask is an `int`, which
becomes an `unsigned long` of `w` bits. -/
def clearSpecial (w : ℕ) (t : ℕ → BitVec w) (j : UInt8) : ℕ → BitVec w :=
  if bits ≤ j.toNat then t
  else Function.update t (index j) (t (index j) &&& (~~~intMask j).signExtend w)

/-- `build_needs_escape` for a list of special characters, where an `unsigned long` has `w` bits;
nothing if the program exits. -/
def buildNeedsEscape (w : ℕ) (special : Bytes) : Option (ℕ → BitVec w) :=
  if countBits 64 1#32 0 < wordLength then none
  else some (special.foldl (clearSpecial w) fun _ => BitVec.allOnes w)

/-- `needs_escape`. -/
def needsEscape {w : ℕ} (t : ℕ → BitVec w) (c : UInt8) : Prop :=
  bits ≤ c.toNat ∨ t (index c) &&& (intMask c).signExtend w ≠ 0#w

instance {w : ℕ} (t : ℕ → BitVec w) (c : UInt8) : Decidable (needsEscape t c) :=
  inferInstanceAs (Decidable (_ ∨ _ ≠ _))

/-! ### The masks -/

/-- The mask of a character as an `unsigned long`. -/
def mask (w : ℕ) (c : UInt8) : BitVec w := (intMask c).signExtend w

/-- Its bits: that of the character, and if it is the sign all above it. -/
lemma getLsbD_mask {w : ℕ} (c : UInt8) {i : ℕ} (hi : i < w) : (mask w c).getLsbD i =
    if i < 32 then decide (i = c.toNat % 32) else decide (c.toNat % 32 = 31) := by
  have hlt : c.toNat % 32 < 32 := Nat.mod_lt _ (by norm_num)
  have hbit (j : ℕ) (hj : j < 32) : (intMask c).getLsbD j = decide (j = c.toNat % 32) := by
    rw [intMask, wordLength, BitVec.getLsbD_shiftLeft, BitVec.getLsbD_one, Bool.eq_iff_iff]
    simp only [hj, decide_true, Bool.true_and, Bool.and_eq_true, Bool.not_eq_true',
      decide_eq_false_iff_not, decide_eq_true_eq]
    omega
  have hmsb : (intMask c).msb = decide (c.toNat % 32 = 31) := by
    rw [BitVec.msb_eq_getLsbD_last, hbit 31 (by norm_num)]
    simp only [eq_comm]
  rw [mask, BitVec.getLsbD_signExtend, hmsb]
  split_ifs with hlow
  · simp [hi, hbit i hlow]
  · simp [hi]

/-- The complement of the `int` is that of the `unsigned long`. -/
lemma signExtend_not_intMask (w : ℕ) (c : UInt8) :
    (~~~intMask c).signExtend w = ~~~mask w c := by
  rw [mask, BitVec.signExtend_not (by norm_num)]

/-- Two masks of one word have no bit in common, though one of them may be all ones at its end. -/
lemma separate_mask {w : ℕ} (hw : 32 ≤ w) : Masks.Separate index (mask w) where
  ne_zero c h := by
    have hlt : c.toNat % 32 < 32 := Nat.mod_lt _ (by norm_num)
    have hbit := getLsbD_mask c (hlt.trans_le hw)
    rw [h, if_pos hlt] at hbit
    simp at hbit
  disjoint c d hne hindex := by
    have hbits : c.toNat % 32 ≠ d.toNat % 32 := by
      intro heq
      rw [index, index, wordLength] at hindex
      exact hne (UInt8.toNat_inj.mp (by omega))
    refine BitVec.eq_of_getLsbD_eq fun i hi => ?_
    rw [BitVec.getLsbD_and, getLsbD_mask c hi, getLsbD_mask d hi, BitVec.getLsbD_zero,
      Bool.and_eq_false_iff]
    split_ifs
    · by_cases hc : i = c.toNat % 32
      · exact Or.inr (decide_eq_false fun hd => hbits (hc.symm.trans hd))
      · exact Or.inl (decide_eq_false hc)
    · by_cases hc : c.toNat % 32 = 31
      · exact Or.inr (decide_eq_false fun hd => hbits (hc.trans hd.symm))
      · exact Or.inl (decide_eq_false hc)

/-! ### What the table says -/

lemma foldl_clearSpecial {w : ℕ} (special : Bytes) (t : ℕ → BitVec w) :
    special.foldl (clearSpecial w) t =
      (special.filter fun j => j.toNat < bits).foldl (Masks.clear index (mask w)) t := by
  induction special generalizing t with
  | nil => rfl
  | cons j special ih =>
      rw [List.foldl_cons, ih, List.filter_cons, clearSpecial]
      by_cases hj : bits ≤ j.toNat
      · rw [if_pos hj, if_neg (by simpa using hj)]
      · rw [if_neg hj, if_pos (by simpa using hj), List.foldl_cons, signExtend_not_intMask w j]
        rfl

/-- The table is built: an `unsigned int` has 32 bits. -/
lemma buildNeedsEscape_eq (w : ℕ) (special : Bytes) : buildNeedsEscape w special =
    some (special.foldl (clearSpecial w) fun _ => BitVec.allOnes w) := by
  have hcount : ¬countBits 64 1#32 0 < wordLength := by decide
  rw [buildNeedsEscape, if_neg hcount]

/-- The characters of a URL in a page of the server, and of the indexer, by the table. -/
structure Agrees {w : ℕ} (t : ℕ → BitVec w) : Prop where
  server : ∀ b, escapeHttp b = if needsEscape t b then [37, intToHex (b / 16), intToHex (b % 16)]
    else [b]
  indexer : ∀ b, indexEscapeChar b = if needsEscape t b ∨ b = 63 then
    [37, indexIntToHex (b / 16), indexIntToHex (b % 16)] else [b]

/-- **The table** that is built without a list of characters answers for all others, and for those
beyond its end, whether an `unsigned long` has 32 bits or more; so with the list of
`build_needs_escape` both escapers do what the list says. -/
theorem needsEscape_iff (w : ℕ) (hw : 32 ≤ w) :
    (∀ special : Bytes, ∃ t, buildNeedsEscape w special = some t ∧
      ∀ c, needsEscape t c ↔ bits ≤ c.toNat ∨ c ∉ special) ∧
    ∃ t, buildNeedsEscape w escapeSpecial = some t ∧ Agrees t := by
  have hall (special : Bytes) : ∃ t, buildNeedsEscape w special = some t ∧
      ∀ c, needsEscape t c ↔ bits ≤ c.toNat ∨ c ∉ special := by
    refine ⟨_, buildNeedsEscape_eq w special, fun c => ?_⟩
    have hsep := separate_mask hw
    have hmarked := Masks.marked_foldl_clear hsep (fun _ => BitVec.allOnes w)
      (special.filter fun j => j.toNat < bits) c
    have hones := Masks.marked_allOnes hsep c
    rw [needsEscape, foldl_clearSpecial]
    by_cases hc : bits ≤ c.toNat
    · simp only [hc, true_or]
    · have hmem : c ∈ special.filter (fun j => j.toNat < bits) ↔ c ∈ special := by
        simp [List.mem_filter, Nat.lt_of_not_le hc]
      rw [hmem] at hmarked
      simp only [hc, false_or]
      exact hmarked.trans (and_iff_left hones)
  refine ⟨hall, ?_⟩
  obtain ⟨t, hbuild, ht⟩ := hall escapeSpecial
  have hlow (b : UInt8) (hb : b ∈ escapeSpecial) : ¬bits ≤ b.toNat := by
    have hle : b.toNat ≤ 126 := (escapeSpecial_printable b hb).2.2.2
    rw [bits]
    omega
  have hiff (b : UInt8) : needsEscape t b ↔ b ∉ escapeSpecial := by
    rw [ht]
    exact ⟨fun h hb => h.elim (hlow b hb) fun hno => hno hb, Or.inr⟩
  refine ⟨t, hbuild, fun b => ?_, fun b => ?_⟩
  · simp only [escapeHttp, hiff, ite_not]
  · simp only [indexEscapeChar, hiff]

/-- On a machine with an `unsigned long` of 64 bits. -/
theorem needsEscape_iff_sixtyFour : ∃ t, buildNeedsEscape 64 escapeSpecial = some t ∧ Agrees t :=
  (needsEscape_iff 64 (by decide)).2

end NeedsEscape

end Yabwf
