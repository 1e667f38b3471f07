import Mathlib.Data.List.TakeWhile
import Yabwf.Lengths

/-!
Decimal numerals, and what `boa_atoi` reads.

* `IsNumeral`, `eq_numeral_iff`: the canonical numerals are those that `simple_itoa` writes.
* `leadingNumber_of_digits`: `atoi` of a string of digits.
* `boaAtoi_exact`: `boa_atoi` reads the canonical numerals up to `INT_MAX` and nothing else.
-/

namespace Yabwf

/-- The canonical decimal numeral of a number: digits only, and no zero in front of other
digits. -/
structure IsNumeral (s : Bytes) (n : ℕ) : Prop where
  ne_nil : s ≠ []
  digits : ∀ b ∈ s, isDigit b
  canonical : s.head? = some 48 → s = [48]
  value : numeralValue s = n

lemma isDigit_iff (b : UInt8) : isDigit b = true ↔ 48 ≤ b.toNat ∧ b.toNat ≤ 57 := by
  rw [isDigit, Bool.and_eq_true, decide_eq_true_iff, decide_eq_true_iff, UInt8.le_iff_toNat_le,
    UInt8.le_iff_toNat_le]
  exact Iff.rfl

lemma isDigit_ofNat {d : ℕ} (h : d < 10) : isDigit (UInt8.ofNat (48 + d)) := by
  rw [isDigit_iff, UInt8.toNat_ofNat']
  omega

/-- A digit is the numeral of its number. -/
lemma ofNat_digit {b : UInt8} (h : isDigit b) : UInt8.ofNat (48 + (b.toNat - 48)) = b := by
  obtain ⟨hle, -⟩ := (isDigit_iff b).mp h
  rw [Nat.add_sub_cancel' hle, UInt8.ofNat_toNat]

lemma numeralValue_append (s t : Bytes) :
    numeralValue (s ++ t) = numeralValue s * 10 ^ t.length + numeralValue t := by
  rw [numeralValue, List.reverse_append, List.map_append, Nat.ofDigits_append, List.length_map,
    List.length_reverse, numeralValue, numeralValue]
  ring

lemma numeralValue_singleton (b : UInt8) : numeralValue [b] = b.toNat - 48 := by
  simp [numeralValue]

/-- The digits of a string are read from the front. -/
lemma foldl_digits (s : Bytes) (n : ℕ) :
    s.foldl (fun n b => 10 * n + (b.toNat - 48)) n = n * 10 ^ s.length + numeralValue s := by
  induction s generalizing n with
  | nil => simp [numeralValue]
  | cons b s ih =>
      have hsplit := numeralValue_append [b] s
      rw [List.singleton_append, numeralValue_singleton] at hsplit
      rw [List.foldl_cons, ih, hsplit, List.length_cons]
      ring

/-- `atoi` of a string of digits. -/
lemma leadingNumber_of_digits {s : Bytes} (h : ∀ b ∈ s, isDigit b) :
    leadingNumber s = numeralValue s := by
  have htake : s.takeWhile isDigit = s := List.takeWhile_eq_self_iff.mpr h
  rw [leadingNumber, htake, foldl_digits, Nat.zero_mul, Nat.zero_add]

lemma numeral_digits (n : ℕ) : ∀ b ∈ numeral n, isDigit b := by
  induction n using Nat.strong_induction_on with
  | _ n ih =>
    rcases Nat.lt_or_ge n 10 with hlt | hle
    · rw [numeral_of_lt hlt, List.forall_mem_singleton]
      exact isDigit_ofNat hlt
    · rw [numeral_of_le hle, List.forall_mem_append, List.forall_mem_singleton]
      exact ⟨ih (n / 10) (by omega), isDigit_ofNat (by omega)⟩

/-- The numeral of a number begins with a zero for zero only. -/
lemma numeral_canonical (n : ℕ) (h : (numeral n).head? = some 48) : numeral n = [48] := by
  induction n using Nat.strong_induction_on with
  | _ n ih =>
    rcases Nat.lt_or_ge n 10 with hlt | hle
    · rw [numeral_of_lt hlt] at h ⊢
      rw [Option.some.inj h]
    · obtain ⟨b, t, hnum⟩ := List.exists_cons_of_ne_nil (numeral_ne_nil (n / 10))
      have hhead : (numeral (n / 10)).head? = some 48 := by
        rw [numeral_of_le hle, hnum] at h
        rw [hnum]
        exact h
      have hzero := congrArg numeralValue (ih (n / 10) (by omega) hhead)
      rw [numeralValue_numeral, numeralValue_singleton] at hzero
      exact absurd hzero (by simp; omega)

/-- **The canonical numerals** are the strings that `simple_itoa` writes. -/
lemma eq_numeral_iff (s : Bytes) (n : ℕ) : s = numeral n ↔ IsNumeral s n := by
  constructor
  · rintro rfl
    exact ⟨numeral_ne_nil n, numeral_digits n, numeral_canonical n, numeralValue_numeral n⟩
  · intro h
    induction s using List.reverseRecOn generalizing n with
    | nil => exact absurd rfl h.ne_nil
    | append_singleton s b ih =>
        obtain ⟨hs, hb⟩ := List.forall_mem_append.mp h.digits
        have hb : isDigit b := hb b (List.mem_singleton_self b)
        have hval := h.value
        rw [numeralValue_append, numeralValue_singleton, List.length_singleton, pow_one] at hval
        have hlt : b.toNat - 48 < 10 := by
          obtain ⟨-, hle⟩ := (isDigit_iff b).mp hb
          omega
        rcases List.eq_nil_or_concat s with rfl | ⟨s', b', rfl⟩
        · have hn : n = b.toNat - 48 := by simpa [numeralValue] using hval.symm
          rw [hn, numeral_of_lt hlt, ofNat_digit hb, List.nil_append]
        · -- the digits in front of the last one are a numeral of their own
          have hne : s'.concat b' ≠ [] := by simp
          obtain ⟨c, t, hcons⟩ := List.exists_cons_of_ne_nil hne
          have hhead : c ≠ 48 := fun hc => by
            have hzero := h.canonical (by rw [hcons, hc]; rfl)
            rw [hcons] at hzero
            simp at hzero
          have hinit := ih (numeralValue (s'.concat b'))
            ⟨hne, hs, fun hz => absurd (by rw [hcons] at hz; exact Option.some.inj hz) hhead, rfl⟩
          have hpos : 0 < numeralValue (s'.concat b') := by
            rcases Nat.eq_zero_or_pos (numeralValue (s'.concat b')) with hz | hpos
            · rw [hz, hcons] at hinit
              exact absurd (List.cons.inj hinit).1 hhead
            · exact hpos
          have hle : 10 ≤ n := by omega
          have hdiv : n / 10 = numeralValue (s'.concat b') := by omega
          have hmod : n % 10 = b.toNat - 48 := by omega
          rw [numeral_of_le hle, hdiv, hmod, ofNat_digit hb, ← hinit]

/-- What a prefix of a numeral says of its number. -/
lemma numeralValue_prefix {s t : Bytes} (h : s <+: t) :
    numeralValue s ≤ numeralValue t ∧ (numeralValue s = numeralValue t → 0 < numeralValue t →
      s = t) := by
  obtain ⟨u, rfl⟩ := h
  rw [numeralValue_append]
  have hpow : 1 ≤ 10 ^ u.length := Nat.one_le_pow _ _ (by decide)
  have hle : numeralValue s ≤ numeralValue s * 10 ^ u.length := Nat.le_mul_of_pos_right _ hpow
  refine ⟨by omega, fun heq hpos => ?_⟩
  rcases Nat.eq_zero_or_pos u.length with hu | hu
  · rw [List.length_eq_zero_iff.mp hu, List.append_nil]
  · -- a further digit makes the number ten times as large
    have hten : 10 ^ 1 ≤ 10 ^ u.length := Nat.pow_le_pow_right (by decide) hu
    have hmul := Nat.mul_le_mul_left (numeralValue s) hten
    omega

lemma toSigned_of_lt {n : ℕ} (h : n < 2 ^ 31) : toSigned 32 n = n := by
  rw [toSigned, Nat.mod_eq_of_lt (by omega), if_pos h]

lemma toSigned_lt (n : ℕ) : toSigned 32 n < 2 ^ 31 := by
  rw [toSigned]
  split_ifs with h
  · exact_mod_cast h
  · have hlt : n % 2 ^ 32 < 2 ^ 32 := Nat.mod_lt _ (by decide)
    omega

/-- `atoi` of a small string of digits. -/
lemma atoi_of_digits {s : Bytes} (h : ∀ b ∈ s, isDigit b) (hsmall : numeralValue s < 2 ^ 31) :
    atoi s = numeralValue s := by
  rw [atoi, leadingNumber_of_digits h, Nat.min_eq_left (by omega), toSigned_of_lt hsmall]

lemma boaAtoi_numeral {n : ℕ} (h : n ≤ intMax) : boaAtoi (numeral n) = n := by
  have hlt : n < 2 ^ 31 := by
    rw [intMax] at h
    omega
  have hatoi : atoi (numeral n) = n := by
    rw [atoi_of_digits (numeral_digits n) (by rwa [numeralValue_numeral]), numeralValue_numeral]
  obtain ⟨b, t, hcons⟩ := List.exists_cons_of_ne_nil (numeral_ne_nil n)
  have hdigit : isDigit b = true := numeral_digits n b (hcons ▸ List.mem_cons_self)
  have hitoa : simpleItoa n = numeral n := (simpleItoa_eq_numeral_iff n).mpr (by omega)
  have hhead : (numeral n).head?.map isDigit = some true := by
    rw [hcons, List.head?_cons, Option.map_some, hdigit]
  rw [boaAtoi, hatoi, Int.toNat_natCast, hitoa, if_neg (not_not.mpr hhead),
    if_neg (not_lt.mpr (Int.natCast_nonneg n)), if_pos (List.isPrefixOf_iff_prefix.mpr
      (List.prefix_refl _))]

/-- A string that `boa_atoi` accepts is the numeral of what it returns. -/
lemma eq_numeral_of_boaAtoi {s : Bytes} (h : boaAtoi s ≠ -1) :
    ∃ n ≤ intMax, boaAtoi s = n ∧ s = numeral n := by
  rw [boaAtoi] at h ⊢
  split_ifs at h ⊢ with hhead hneg hpre
  · exact absurd rfl h
  · exact absurd rfl h
  · obtain ⟨v, hv⟩ := Int.eq_ofNat_of_zero_le (not_lt.mp hneg)
    have hlt : v < 2 ^ 31 := by
      have hlt := toSigned_lt (min (leadingNumber s) (2 ^ 63 - 1))
      rw [← atoi, hv] at hlt
      exact_mod_cast hlt
    rw [hv, Int.toNat_natCast, (simpleItoa_eq_numeral_iff v).mpr (by omega),
      List.isPrefixOf_iff_prefix] at hpre
    have hdigits : ∀ b ∈ s, isDigit b := fun b hb => numeral_digits v b (hpre.subset hb)
    obtain ⟨hle, heq⟩ := numeralValue_prefix hpre
    rw [numeralValue_numeral] at hle heq
    have hval : numeralValue s = v := by
      have hatoi := atoi_of_digits hdigits (by omega)
      rw [hv] at hatoi
      exact (Int.ofNat.inj hatoi).symm
    refine ⟨v, by rw [intMax]; omega, hv, ?_⟩
    rcases Nat.eq_zero_or_pos v with rfl | hpos
    · -- the only string in front of the numeral of zero is itself
      have hne : s ≠ [] := by
        rintro rfl
        exact hhead (by simp)
      have hlen := hpre.length_le
      have hpos := List.length_pos_of_ne_nil hne
      exact hpre.eq_of_length (Nat.le_antisymm hlen hpos)
    · exact heq hval hpos
  · exact absurd rfl h

/-- **`boa_atoi` is exact**: it returns a number for its canonical numeral, if that is at most
`INT_MAX`, and `-1` for every other string, so that it reads what `simple_itoa` writes. -/
theorem boaAtoi_exact (s : Bytes) :
    (∀ n : ℕ, boaAtoi s = n ↔ IsNumeral s n ∧ n ≤ intMax) ∧
      (boaAtoi s = -1 ↔ ∀ n, ¬(IsNumeral s n ∧ n ≤ intMax)) ∧
      ∀ n ≤ intMax, boaAtoi (simpleItoa n) = n := by
  have hnat (n : ℕ) : boaAtoi s = n ↔ IsNumeral s n ∧ n ≤ intMax := by
    rw [← eq_numeral_iff]
    constructor
    · intro h
      obtain ⟨m, hm, hval, hs⟩ := eq_numeral_of_boaAtoi (s := s) (by omega)
      obtain rfl : n = m := by omega
      exact ⟨hs, hm⟩
    · rintro ⟨rfl, hn⟩
      exact boaAtoi_numeral hn
  refine ⟨hnat, ⟨fun h n hn => ?_, fun h => ?_⟩, fun n hn => ?_⟩
  · have hn' := (hnat n).mpr hn
    omega
  · by_contra hne
    obtain ⟨n, -, hval, -⟩ := eq_numeral_of_boaAtoi hne
    exact h n ((hnat n).mp hval)
  · rw [(simpleItoa_eq_numeral_iff n).mpr (by rw [intMax] at hn; omega)]
    exact boaAtoi_numeral hn

end Yabwf
