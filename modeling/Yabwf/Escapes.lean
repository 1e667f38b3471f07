import Yabwf.Buffer

/-!
Percent-encoding: what `unescape_uri` accepts, and whether it reads back what
`escape_string` writes.

* `WellEscaped`, `percentDecode`: percent-encoding as such, for a path without its query
  string and fragment (`pathPart`).
* `escapes`: the escapes that `unescape_uri` reads, one after the other.
* `unescapeUri_fst_iff`, `wellEscaped_iff`: `unescape_uri` succeeds when it refuses none
  of them, the path is well escaped when all of them are proper.
* `unescapeUri_exact_iff`: hence decoding is exact unless an escape is accepted that does
  not consist of two hexadecimal digits.
* `unescapeUri_escapeString_iff`: a file name survives its link exactly when it is made of
  printable characters other than the question mark, which `escape_string` leaves alone.
-/

namespace Yabwf

/-! ### Percent-encoding -/

/-- A hexadecimal digit. -/
def isHexDigit (b : UInt8) : Bool :=
  isDigit b || (65 ≤ b && b ≤ 70) || (97 ≤ b && b ≤ 102)

/-- The value of a hexadecimal digit. -/
def hexValue (b : UInt8) : ℕ :=
  if b ≤ 57 then b.toNat - 48 else if b ≤ 70 then b.toNat - 55 else b.toNat - 87

/-- Two hexadecimal digits for a printable character. -/
def ProperEscape (c d : UInt8) : Prop :=
  (isHexDigit c ∧ isHexDigit d) ∧ 32 ≤ 16 * hexValue c + hexValue d ∧
    16 * hexValue c + hexValue d ≤ 126

/-- The part of a URI before the first `?` or `#`. -/
def pathPart (uri : Bytes) : Bytes := uri.takeWhile fun b => b ≠ 63 && b ≠ 35

/-- Every `%` is followed by a proper escape. -/
def WellEscaped (path : Bytes) : Prop :=
  ∀ i : ℕ, path[i]? = some (37 : UInt8) →
    ∃ c d, path[i + 1]? = some c ∧ path[i + 2]? = some d ∧ ProperEscape c d

/-- Each `%XY` replaced by the byte it denotes. -/
def percentDecode : Bytes → Bytes
  | 37 :: c :: d :: path => UInt8.ofNat (16 * hexValue c + hexValue d) :: percentDecode path
  | b :: path => b :: percentDecode path
  | [] => []

/-- The two bytes of each escape that `unescape_uri` reads as long as it goes on; `none`
for one that is cut off by the end of the string. -/
def escapes : Bytes → List (Option (UInt8 × UInt8))
  | [] => []
  | 37 :: c :: d :: uri => some (c, d) :: escapes uri
  | 37 :: _ => [none]
  | b :: uri => if b = 63 ∨ b = 35 then [] else escapes uri

/-- An escape of two hexadecimal digits. -/
def HexPair (e : Option (UInt8 × UInt8)) : Prop :=
  ∃ c d, e = some (c, d) ∧ isHexDigit c ∧ isHexDigit d

/-- An escape that is cut off, or whose `HEX_TO_DECIMAL` is a control character. -/
def RefusedEscape (e : Option (UInt8 × UInt8)) : Prop :=
  ∀ c d, e = some (c, d) →
    charVal (hexToDecimal c d) < 32 ∨ 126 < charVal (hexToDecimal c d)

/-! ### One token at a time -/

/-- A URI token by token: an escape, one that is cut off, the end of the path, and any
other character. -/
@[elab_as_elim]
lemma uri_induction {motive : Bytes → Prop} (nil : motive [])
    (escape : ∀ c d uri, motive uri → motive (37 :: c :: d :: uri))
    (cut : ∀ uri : Bytes, uri.length < 2 → motive (37 :: uri))
    (stop : ∀ b uri, b = 63 ∨ b = 35 → motive (b :: uri))
    (plain : ∀ b uri, b ≠ 37 → b ≠ 63 → b ≠ 35 → motive uri → motive (b :: uri)) :
    ∀ uri, motive uri := by
  intro uri
  induction uri using escapes.induct with
  | case1 => exact nil
  | case2 c d uri ih => exact escape c d uri ih
  | case3 uri h =>
      refine cut uri ?_
      match uri, h with
      | [], _ => simp
      | [_], _ => simp
      | c :: d :: uri, h => exact (h c d uri rfl).elim
  | case4 b uri _ _ h => exact stop b uri h
  | case5 b uri _ h h' ih =>
      rw [not_or] at h'
      exact plain b uri h h'.1 h'.2 ih

lemma unescapeLoop_escape (q : Bool) (c d : UInt8) (uri : Bytes) :
    unescapeLoop q (37 :: c :: d :: uri)
      = if charVal (hexToDecimal c d) < 32 ∨ 126 < charVal (hexToDecimal c d) then (false, [], none)
        else ((unescapeLoop q uri).1, hexToDecimal c d :: (unescapeLoop q uri).2.1,
          (unescapeLoop q uri).2.2) := rfl

lemma unescapeLoop_cut (q : Bool) {uri : Bytes} (h : uri.length < 2) :
    unescapeLoop q (37 :: uri) = (false, [], none) := by
  match uri, h with
  | [], _ => rfl
  | [_], _ => rfl

lemma unescapeLoop_plain (q : Bool) {b : UInt8} (uri : Bytes) (h₁ : b ≠ 37) (h₂ : b ≠ 63)
    (h₃ : b ≠ 35) :
    unescapeLoop q (b :: uri) = ((unescapeLoop q uri).1, b :: (unescapeLoop q uri).2.1,
      (unescapeLoop q uri).2.2) := by
  rw [unescapeLoop, if_neg h₂, if_neg h₃]
  · rintro c d s rfl
    exact absurd rfl h₁
  · exact h₁

lemma escapes_cut {uri : Bytes} (h : uri.length < 2) : escapes (37 :: uri) = [none] := by
  match uri, h with
  | [], _ => rfl
  | [_], _ => rfl

lemma escapes_stop {b : UInt8} (uri : Bytes) (h : b = 63 ∨ b = 35) : escapes (b :: uri) = [] := by
  rcases h with rfl | rfl <;> rfl

lemma escapes_plain {b : UInt8} (uri : Bytes) (h₁ : b ≠ 37) (h₂ : b ≠ 63) (h₃ : b ≠ 35) :
    escapes (b :: uri) = escapes uri := by
  rw [escapes, if_neg (not_or.mpr ⟨h₂, h₃⟩)]
  · rintro c d s rfl
    exact absurd rfl h₁
  · exact h₁

lemma percentDecode_plain {b : UInt8} (path : Bytes) (h : b ≠ 37) :
    percentDecode (b :: path) = b :: percentDecode path := by
  rw [percentDecode]
  rintro c d s rfl
  exact absurd rfl h

/-! ### The specification, one token at a time -/

lemma ProperEscape.left_ne {c d : UInt8} (h : ProperEscape c d) : c ≠ 37 ∧ c ≠ 63 ∧ c ≠ 35 := by
  obtain ⟨⟨hc, -⟩, -⟩ := h
  refine ⟨?_, ?_, ?_⟩ <;> rintro rfl <;> exact absurd hc (by decide)

lemma ProperEscape.right_ne {c d : UInt8} (h : ProperEscape c d) :
    d ≠ 37 ∧ d ≠ 63 ∧ d ≠ 35 := by
  obtain ⟨⟨-, hd⟩, -⟩ := h
  refine ⟨?_, ?_, ?_⟩ <;> rintro rfl <;> exact absurd hd (by decide)

lemma pathPart_cons {b : UInt8} (uri : Bytes) (h₂ : b ≠ 63) (h₃ : b ≠ 35) :
    pathPart (b :: uri) = b :: pathPart uri := by
  simp [pathPart, h₂, h₃]

lemma wellEscaped_nil : WellEscaped [] := fun i h => by simp at h

lemma wellEscaped_plain {b : UInt8} (path : Bytes) (h : b ≠ 37) :
    WellEscaped (b :: path) ↔ WellEscaped path := by
  constructor
  · intro hw i hi
    exact hw (i + 1) hi
  · intro hw i hi
    cases i with
    | zero => exact absurd (Option.some.inj hi) h
    | succ i => exact hw i hi

lemma wellEscaped_escape (c d : UInt8) (path : Bytes) :
    WellEscaped (37 :: c :: d :: path) ↔ ProperEscape c d ∧ WellEscaped path := by
  have hstep (h : ProperEscape c d) :
      (WellEscaped (c :: d :: path) ↔ WellEscaped path) := by
    rw [wellEscaped_plain _ h.left_ne.1, wellEscaped_plain _ h.right_ne.1]
  constructor
  · intro hw
    obtain ⟨c', d', hc, hd, hp⟩ := hw 0 rfl
    obtain rfl := Option.some.inj hc
    obtain rfl := Option.some.inj hd
    exact ⟨hp, (hstep hp).mp fun i hi => hw (i + 1) hi⟩
  · rintro ⟨hp, hw⟩ i hi
    cases i with
    | zero => exact ⟨c, d, rfl, rfl, hp⟩
    | succ i => exact (hstep hp).mpr hw i hi

/-- A well escaped path that begins with `%` begins with a proper escape. -/
lemma WellEscaped.exists_escape {uri : Bytes} (h : WellEscaped (37 :: pathPart uri)) :
    ∃ c d rest, uri = c :: d :: rest ∧ ProperEscape c d := by
  obtain ⟨c, d, hc, hd, hp⟩ := h 0 rfl
  obtain ⟨rest, hrest⟩ : pathPart uri <+: uri := List.takeWhile_prefix _
  have hget {i : ℕ} {b : UInt8} (hb : (pathPart uri)[i]? = some b) : uri[i]? = some b := by
    rw [← hrest, List.getElem?_append_left (List.getElem?_eq_some_iff.mp hb).1, hb]
  have hc' := hget hc
  have hd' := hget hd
  match uri, hc', hd' with
  | c' :: d' :: rest, hc', hd' =>
      obtain rfl := Option.some.inj hc'
      obtain rfl := Option.some.inj hd'
      exact ⟨c', d', rest, rfl, hp⟩

/-! ### Accepting -/

lemma hexDigitVal_eq {b : UInt8} (h : isHexDigit b) : hexDigitVal b = hexValue b := by
  have hall := forall_byte (p := fun b => isHexDigit b → hexDigitVal b = hexValue b)
    (by decide +kernel)
  exact hall b h

lemma hexValue_lt {b : UInt8} (h : isHexDigit b) : hexValue b < 16 := by
  have hall := forall_byte (p := fun b => isHexDigit b → hexValue b < 16) (by decide +kernel)
  exact hall b h

/-- On hexadecimal digits `HEX_TO_DECIMAL` is what its name says. -/
lemma hexToDecimal_eq {c d : UInt8} (hc : isHexDigit c) (hd : isHexDigit d) :
    hexToDecimal c d = UInt8.ofNat (16 * hexValue c + hexValue d) := by
  have h₁ := hexValue_lt hc
  have h₂ := hexValue_lt hd
  rw [hexToDecimal, hexDigitVal_eq hc, hexDigitVal_eq hd]
  congr 1
  omega

lemma charVal_ofNat {n : ℕ} (h : n < 256) :
    charVal (UInt8.ofNat n) = if n < 128 then (n : ℤ) else n - 256 := by
  rw [charVal, UInt8.toNat_ofNat_of_lt' (by simpa using h)]

/-- A pair of hexadecimal digits is proper when it is not refused. -/
lemma properEscape_iff {c d : UInt8} :
    ProperEscape c d ↔ HexPair (some (c, d)) ∧ ¬ RefusedEscape (some (c, d)) := by
  have hrefused (hc : isHexDigit c) (hd : isHexDigit d) :
      RefusedEscape (some (c, d)) ↔ 16 * hexValue c + hexValue d < 32 ∨
        126 < 16 * hexValue c + hexValue d := by
    have h₁ := hexValue_lt hc
    have h₂ := hexValue_lt hd
    have hval := charVal_ofNat (n := 16 * hexValue c + hexValue d) (by omega)
    rw [← hexToDecimal_eq hc hd] at hval
    constructor
    · intro h
      have := h c d rfl
      rw [hval] at this
      split_ifs at this <;> omega
    · rintro h c' d' ⟨⟩
      rw [hval]
      split_ifs <;> omega
  constructor
  · rintro ⟨⟨hc, hd⟩, h₁, h₂⟩
    refine ⟨⟨c, d, rfl, hc, hd⟩, fun h => ?_⟩
    have := (hrefused hc hd).mp h
    omega
  · rintro ⟨⟨c', d', ⟨⟩, hc, hd⟩, h⟩
    rw [hrefused hc hd, not_or] at h
    exact ⟨⟨hc, hd⟩, by omega, by omega⟩

lemma refusedEscape_none : RefusedEscape none := fun _ _ h => by simp at h

lemma not_hexPair_none : ¬ HexPair none := fun ⟨_, _, h, _⟩ => by simp at h

/-- `unescape_uri` succeeds when it refuses none of the escapes it reads. -/
lemma unescapeUri_fst_iff (uri : Bytes) (q : Bool) :
    (unescapeUri uri q).1 = true ↔ ∀ e ∈ escapes uri, ¬ RefusedEscape e := by
  rw [unescapeUri]
  induction uri using uri_induction with
  | nil => simp [unescapeLoop, escapes]
  | escape c d uri ih =>
      rw [unescapeLoop_escape, escapes, List.forall_mem_cons, ← ih]
      have hrefused : RefusedEscape (some (c, d)) ↔
          charVal (hexToDecimal c d) < 32 ∨ 126 < charVal (hexToDecimal c d) := by
        refine ⟨fun h => h c d rfl, ?_⟩
        rintro h c' d' ⟨⟩
        exact h
      rw [hrefused]
      split_ifs with h <;> simp [h]
  | cut uri h => simp [unescapeLoop_cut q h, escapes_cut h, refusedEscape_none]
  | stop b uri h =>
      rw [escapes_stop uri h]
      rcases h with rfl | rfl <;> simp [unescapeLoop]
  | plain b uri h₁ h₂ h₃ ih =>
      rw [unescapeLoop_plain q uri h₁ h₂ h₃, escapes_plain uri h₁ h₂ h₃, ← ih]

/-- The path is well escaped when all the escapes that are read are proper. -/
lemma wellEscaped_iff (uri : Bytes) :
    WellEscaped (pathPart uri) ↔ ∀ e ∈ escapes uri, HexPair e ∧ ¬ RefusedEscape e := by
  induction uri using uri_induction with
  | nil => simp [pathPart, escapes, wellEscaped_nil]
  | escape c d uri ih =>
      rw [escapes, List.forall_mem_cons, ← ih, ← properEscape_iff,
        pathPart_cons _ (by decide) (by decide)]
      by_cases hp : ProperEscape c d
      · rw [pathPart_cons _ hp.left_ne.2.1 hp.left_ne.2.2,
          pathPart_cons _ hp.right_ne.2.1 hp.right_ne.2.2, wellEscaped_escape]
      · refine ⟨fun hw => ?_, fun h => absurd h.1 hp⟩
        obtain ⟨c', d', rest, heq, hp'⟩ := hw.exists_escape
        obtain ⟨rfl, rfl, -⟩ : c = c' ∧ d = d' ∧ uri = rest := by simpa using heq
        exact absurd hp' hp
  | cut uri h =>
      rw [escapes_cut h, pathPart_cons _ (by decide) (by decide)]
      refine ⟨fun hw => ?_, fun hall => absurd (hall none (by simp)).1 not_hexPair_none⟩
      obtain ⟨c, d, rest, rfl, -⟩ := hw.exists_escape
      simp at h
  | stop b uri h =>
      rw [escapes_stop uri h]
      rcases h with rfl | rfl <;> simp [pathPart, wellEscaped_nil]
  | plain b uri h₁ h₂ h₃ ih =>
      rw [escapes_plain uri h₁ h₂ h₃, ← ih, pathPart_cons _ h₂ h₃, wellEscaped_plain _ h₁]

/-- Where all the escapes that are read are proper, the path is decoded. -/
lemma unescapeUri_decodes {uri : Bytes} (q : Bool)
    (h : ∀ e ∈ escapes uri, HexPair e ∧ ¬ RefusedEscape e) :
    (unescapeUri uri q).2.1 = percentDecode (pathPart uri) := by
  rw [unescapeUri]
  induction uri using uri_induction with
  | nil => rfl
  | escape c d uri ih =>
      rw [escapes, List.forall_mem_cons, ← properEscape_iff] at h
      obtain ⟨hp, h⟩ := h
      have hnot : ¬ RefusedEscape (some (c, d)) := (properEscape_iff.mp hp).2
      rw [unescapeLoop_escape, if_neg, pathPart_cons _ (by decide) (by decide),
        pathPart_cons _ hp.left_ne.2.1 hp.left_ne.2.2,
        pathPart_cons _ hp.right_ne.2.1 hp.right_ne.2.2, percentDecode, ← ih h,
        hexToDecimal_eq hp.1.1 hp.1.2]
      intro hr
      refine hnot fun c' d' h' => ?_
      obtain ⟨rfl, rfl⟩ := Prod.mk.inj (Option.some.inj h')
      exact hr
  | cut uri hcut =>
      rw [escapes_cut hcut] at h
      exact absurd (h none (by simp)).1 not_hexPair_none
  | stop b uri hstop => rcases hstop with rfl | rfl <;> rfl
  | plain b uri h₁ h₂ h₃ ih =>
      rw [escapes_plain uri h₁ h₂ h₃] at h
      rw [unescapeLoop_plain q uri h₁ h₂ h₃, pathPart_cons _ h₂ h₃, percentDecode_plain _ h₁, ih h]

/-! ### Exactness -/

/-- What percent-decoding is to do: to accept the well escaped paths, and to replace
their escapes by the bytes they denote. -/
def DecodesExactly (uri : Bytes) (q : Bool) : Prop :=
  ((unescapeUri uri q).1 = true ↔ WellEscaped (pathPart uri)) ∧
    ((unescapeUri uri q).1 = true → (unescapeUri uri q).2.1 = percentDecode (pathPart uri))

/-- **Decoding is exact** unless `unescape_uri` reads an escape that does not consist of
two hexadecimal digits and refuses none. -/
theorem unescapeUri_exact_iff (uri : Bytes) (q : Bool) :
    DecodesExactly uri q ↔
      (∀ e ∈ escapes uri, HexPair e) ∨ ∃ e ∈ escapes uri, RefusedEscape e := by
  rw [DecodesExactly, unescapeUri_fst_iff, wellEscaped_iff]
  constructor
  · rintro ⟨hiff, -⟩
    by_contra hbad
    rw [not_or, not_exists] at hbad
    obtain ⟨hhex, hnone⟩ := hbad
    have haccept : ∀ e ∈ escapes uri, ¬ RefusedEscape e := fun e he hr => hnone e ⟨he, hr⟩
    exact hhex fun e he => (hiff.mp haccept e he).1
  · rintro (hhex | ⟨e, he, hr⟩)
    · have hproper (h : ∀ e ∈ escapes uri, ¬ RefusedEscape e) :
          ∀ e ∈ escapes uri, HexPair e ∧ ¬ RefusedEscape e := fun e he => ⟨hhex e he, h e he⟩
      exact ⟨⟨hproper, fun h e he => (h e he).2⟩, fun h => unescapeUri_decodes q (hproper h)⟩
    · refine ⟨⟨fun h => absurd hr (h e he), fun h => absurd hr (h e he).2⟩, fun h => ?_⟩
      exact absurd hr (h e he)

/-- `G` and `Z` pass for digits: `%GZ` is accepted, and decoded to `#`. -/
theorem unescapeUri_not_exact : ¬ ∀ uri q, 0 ∉ uri → DecodesExactly uri q := by
  intro h
  have hiff := (h (str "/%GZ") true (by decide)).1.mp (by decide)
  obtain ⟨c, d, hc, -, hp⟩ := hiff 1 (by decide)
  obtain rfl := Option.some.inj (hc.symm.trans (show _ = some (71 : UInt8) by decide))
  exact absurd hp.1.1 (by decide)

/-! ### The way back from a directory listing -/

/-- A character that survives in the link to a file: printable, and not the question
mark. -/
def Linkable (b : UInt8) : Prop := 32 ≤ b ∧ b ≤ 126 ∧ b ≠ 63

instance (b : UInt8) : Decidable (Linkable b) :=
  inferInstanceAs (Decidable (32 ≤ b ∧ b ≤ 126 ∧ b ≠ 63))

lemma escapeSpecial_printable :
    ∀ b ∈ escapeSpecial, b ≠ 37 ∧ b ≠ 35 ∧ 32 ≤ b ∧ b ≤ 126 := by
  decide +kernel

lemma question_mem_escapeSpecial : 63 ∈ escapeSpecial := by decide

lemma hexDigitVal_intToHex {n : UInt8} (h : n < 16) : hexDigitVal (intToHex n) = n.toNat := by
  have hall : ∀ n : Fin 16, hexDigitVal (intToHex (UInt8.ofNat n)) = n := by decide
  have hn : n.toNat < 16 := h
  simpa using hall ⟨n.toNat, hn⟩

/-- The two digits of a byte are read back. -/
lemma hexToDecimal_intToHex (b : UInt8) :
    hexToDecimal (intToHex (b / 16)) (intToHex (b % 16)) = b := by
  have hb := b.toNat_lt
  have h₁ : (b / 16).toNat = b.toNat / 16 := by simp
  have h₂ : (b % 16).toNat = b.toNat % 16 := by simp
  rw [hexToDecimal, hexDigitVal_intToHex (nibbles_lt b).1, hexDigitVal_intToHex (nibbles_lt b).2,
    h₁, h₂]
  have hval : ((((b.toNat / 16 : ℕ) : ℤ) * 16 + ((b.toNat % 16 : ℕ) : ℤ)) % 256).toNat
      = b.toNat := by omega
  rw [hval]
  exact UInt8.ofNat_toNat

lemma charVal_window_iff (b : UInt8) :
    charVal b < 32 ∨ 126 < charVal b ↔ ¬ (32 ≤ b ∧ b ≤ 126) := by
  have hb := b.toNat_lt
  rw [charVal, UInt8.le_iff_toNat_le, UInt8.le_iff_toNat_le]
  simp only [UInt8.reduceToNat]
  split_ifs <;> omega

/-- What `unescape_uri` makes of one escaped character. -/
lemma unescapeLoop_escapeHttp (b : UInt8) (uri : Bytes) :
    unescapeLoop true (escapeHttp b ++ uri)
      = if Linkable b then
          ((unescapeLoop true uri).1, b :: (unescapeLoop true uri).2.1, (unescapeLoop true uri).2.2)
        else if b = 63 then (true, [], some uri)
        else (false, [], none) := by
  rw [escapeHttp]
  by_cases hspecial : b ∈ escapeSpecial
  · obtain ⟨h₁, h₂, h₃, h₄⟩ := escapeSpecial_printable b hspecial
    rw [if_pos hspecial, List.singleton_append]
    by_cases hq : b = 63
    · subst hq
      rfl
    · rw [if_pos ⟨h₃, h₄, hq⟩, unescapeLoop_plain true uri h₁ hq h₂]
  · have hq : b ≠ 63 := fun h => hspecial (h ▸ question_mem_escapeSpecial)
    have hlink : Linkable b ↔ 32 ≤ b ∧ b ≤ 126 := by simp [Linkable, hq]
    rw [if_neg hspecial, if_neg hq, List.cons_append, List.cons_append, List.cons_append,
      List.nil_append, unescapeLoop_escape, hexToDecimal_intToHex]
    by_cases h : Linkable b
    · rw [if_pos h, if_neg (fun hw => (charVal_window_iff b).mp hw (hlink.mp h))]
    · rw [if_neg h, if_pos ((charVal_window_iff b).mpr fun hw => h (hlink.mpr hw))]

/-- **A file name survives its link** in a directory listing exactly when all of its
characters are linkable. -/
theorem unescapeUri_escapeString_iff (name : Bytes) :
    unescapeUri (escapeString name) true = (true, name, none) ↔ ∀ b ∈ name, Linkable b := by
  rw [unescapeUri]
  induction name with
  | nil => simp [escapeString, unescapeLoop]
  | cons b name ih =>
      rw [escapeString, List.flatMap_cons, ← escapeString, unescapeLoop_escapeHttp,
        List.forall_mem_cons, ← ih]
      split_ifs with h h'
      · simp [h, Prod.ext_iff]
      · simp [h]
      · simp [h]

/-- A question mark begins a query string, and a character beyond ASCII is refused. -/
theorem unescapeUri_escapeString_lost :
    ¬ ∀ name : Bytes, name ≠ [] → (∀ b ∈ name, b ≠ 0 ∧ b ≠ 47) →
      unescapeUri (escapeString name) true = (true, name, none) := by
  intro h
  have := h (str "what?") (by decide) (by decide +kernel)
  exact absurd this (by decide)

end Yabwf
