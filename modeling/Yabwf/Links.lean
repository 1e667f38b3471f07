import Yabwf.Clean
import Yabwf.IndexDir

/-!
The links of a directory listing: what becomes of a reference that `http_escape_string` has made.

* `unescapeUri_indexEscape`: printable characters are decoded as they were.
* `cleanLoop_append`: what follows a slash is cleaned on its own.
* `httpEscapeString_resolves`: the reference leads to the file.
-/

namespace Yabwf

open Lexical

/-! ### Decoding -/

lemma hexDigitVal_indexIntToHex {n : UInt8} (h : n < 16) :
    hexDigitVal (indexIntToHex n) = n.toNat := by
  have hall : ∀ n : Fin 16, hexDigitVal (indexIntToHex (UInt8.ofNat n)) = n := by decide
  have hn : n.toNat < 16 := h
  simpa using hall ⟨n.toNat, hn⟩

/-- The two digits of a byte are read back. -/
lemma hexToDecimal_indexIntToHex (b : UInt8) :
    hexToDecimal (indexIntToHex (b / 16)) (indexIntToHex (b % 16)) = b := by
  have hb := b.toNat_lt
  have h₁ : (b / 16).toNat = b.toNat / 16 := by simp
  have h₂ : (b % 16).toNat = b.toNat % 16 := by simp
  have hval : ((((b.toNat / 16 : ℕ) : ℤ) * 16 + ((b.toNat % 16 : ℕ) : ℤ)) % 256).toNat
      = b.toNat := by omega
  rw [hexToDecimal, hexDigitVal_indexIntToHex (nibbles_lt b).1,
    hexDigitVal_indexIntToHex (nibbles_lt b).2, h₁, h₂, hval]
  exact UInt8.ofNat_toNat

/-- A character of a file name that is printable. -/
def Printable (b : UInt8) : Prop := 32 ≤ b ∧ b ≤ 126

lemma unescapeLoop_indexEscapeChar {b : UInt8} (hb : Printable b) (uri : Bytes) :
    unescapeLoop true (indexEscapeChar b ++ uri) = ((unescapeLoop true uri).1,
      b :: (unescapeLoop true uri).2.1, (unescapeLoop true uri).2.2) := by
  rw [indexEscapeChar]
  split_ifs with hescape
  · rw [List.cons_append, List.cons_append, List.cons_append, List.nil_append, unescapeLoop_escape,
      hexToDecimal_indexIntToHex, if_neg fun hw => (charVal_window_iff b).mp hw hb]
  · rw [not_or, not_not] at hescape
    obtain ⟨h₁, h₂, -⟩ := escapeSpecial_printable b hescape.1
    rw [List.singleton_append, unescapeLoop_plain true uri h₁ hescape.2 h₂]

/-- **Printable characters** are decoded as they were. -/
lemma unescapeUri_indexEscape {name : Bytes} (hname : ∀ b ∈ name, Printable b) :
    unescapeUri (name.flatMap indexEscapeChar) true = (true, name, none) := by
  rw [unescapeUri]
  induction name with
  | nil => rfl
  | cons b name ih =>
      obtain ⟨hb, hname⟩ := List.forall_mem_cons.mp hname
      rw [List.flatMap_cons, unescapeLoop_indexEscapeChar hb, ih hname]

/-- The guard is decoded as it is. -/
lemma unescapeUri_reference {name : Bytes} (hname : ∀ b ∈ name, Printable b) :
    unescapeUri (httpEscapeLoop false [] name) true =
      (true, (if HasColon name then str "./" else []) ++ name, none) := by
  have hplain := unescapeUri_indexEscape hname
  rw [httpEscapeLoop_eq]
  split_ifs
  · have hguard : str "./" = [46, 47] := rfl
    rw [unescapeUri] at hplain ⊢
    rw [hguard, List.cons_append, List.cons_append, List.nil_append,
      unescapeLoop_plain true _ (by decide) (by decide) (by decide),
      unescapeLoop_plain true _ (by decide) (by decide) (by decide), hplain]
    rfl
  · exact hplain

/-! ### Schemes -/

lemma colon_notMem_indexEscapeChar {b : UInt8} (hb : b ≠ 58) : 58 ∉ indexEscapeChar b := by
  intro h
  rcases mem_indexEscapeChar h with ⟨h, -⟩ | h | h
  · exact hb h.symm
  · exact absurd h (by decide)
  · exact absurd h (by decide)

/-- A colon in a reference is its first character, or is guarded. -/
lemma guarded_of_colon {name : Bytes} (h : 58 ∈ (httpEscapeLoop false [] name).drop 1) :
    HasColon name := by
  rw [httpEscapeLoop_eq] at h
  by_contra hcolon
  rw [if_neg hcolon, List.nil_append] at h
  cases name with
  | nil => exact absurd h List.not_mem_nil
  | cons c name =>
      have hname : 58 ∉ name.flatMap indexEscapeChar := by
        intro hmem
        obtain ⟨b, hb, hmem⟩ := List.mem_flatMap.mp hmem
        refine colon_notMem_indexEscapeChar (fun hb58 => hcolon ?_) hmem
        rw [hb58] at hb
        exact hb
      rw [List.flatMap_cons] at h
      by_cases hc : c = 58
      · rw [hc, indexEscapeChar_colon] at h
        exact hname h
      · rcases List.mem_append.mp (List.mem_of_mem_drop h) with hmem | hmem
        · exact colon_notMem_indexEscapeChar hc hmem
        · exact hname hmem

/-! ### Cleaning -/

lemma cleanLoop_false_slash (p : Bytes) : cleanLoop false (47 :: p) = 47 :: cleanLoop true p := by
  rw [cleanLoop]
  · simp
  all_goals simp

/-- What follows a slash is cleaned on its own. -/
lemma cleanLoop_append (slash : Bool) (d p : Bytes) :
    cleanLoop slash (d ++ 47 :: p) = cleanLoop slash (d ++ [47]) ++ cleanLoop true p := by
  have htrue (d : Bytes) :
      cleanLoop true (d ++ 47 :: p) = cleanLoop true (d ++ [47]) ++ cleanLoop true p := by
    induction d using splitOn_induction (47 : UInt8) with
    | last s hs =>
        rw [cleanLoop_true_append hs, cleanLoop_true_append hs]
        split_ifs
        · rfl
        · rw [List.append_assoc]
          rfl
    | cons s t hs ih =>
        rw [List.append_assoc, List.append_assoc, List.cons_append, List.cons_append,
          cleanLoop_true_append hs, cleanLoop_true_append hs]
        split_ifs
        · exact ih
        · rw [ih, List.append_assoc, List.cons_append]
  cases slash with
  | true => exact htrue d
  | false =>
      induction d using splitOn_induction (47 : UInt8) with
      | last s hs =>
          rw [cleanLoop_false_append hs, cleanLoop_false_append hs, cleanLoop_false_slash,
            cleanLoop_false_slash,
            List.append_assoc]
          rfl
      | cons s t hs _ =>
          rw [List.append_assoc, List.append_assoc, List.cons_append, List.cons_append,
            cleanLoop_false_append hs, cleanLoop_false_append hs, cleanLoop_false_slash,
            cleanLoop_false_slash, htrue,
            List.append_assoc, List.cons_append]

/-- Behind a directory, the name is left as it is, and its guard is removed. -/
lemma cleanPathname_reference {d name : Bytes} (hd : d.getLast? = some 47) (hname : 47 ∉ name) :
    cleanPathname (d ++ ((if HasColon name then str "./" else []) ++ name)) =
      cleanPathname d ++ name := by
  obtain ⟨d, rfl⟩ := List.getLast?_eq_some_iff.mp hd
  have hlast := cleanLoop_true_of_notMem hname
  rw [cleanPathname, cleanPathname, List.append_assoc, List.singleton_append, cleanLoop_append]
  split_ifs
  · have hguard : cleanLoop true (str "./" ++ name) = cleanLoop true name := rfl
    rw [hguard, hlast]
  · rw [List.nil_append, hlast]

lemma getLast?_cleanPathname {d : Bytes} (hd : d.getLast? = some 47) :
    (cleanPathname d).getLast? = some 47 := by
  have htrue (d : Bytes) : (47 :: cleanLoop true (d ++ [47])).getLast? = some 47 := by
    induction d using splitOn_induction (47 : UInt8) with
    | last s hs =>
        rw [cleanLoop_true_append hs]
        split_ifs
        · rfl
        · rw [List.getLast?_cons_of_ne_nil (by simp), List.getLast?_append_cons]
          rfl
    | cons s t hs ih =>
        rw [List.append_assoc, List.cons_append, cleanLoop_true_append hs]
        split_ifs
        · exact ih
        · rw [List.getLast?_cons_of_ne_nil (by simp), List.getLast?_append_cons, ih]
  obtain ⟨d, rfl⟩ := List.getLast?_eq_some_iff.mp hd
  rw [cleanPathname]
  induction d using splitOn_induction (47 : UInt8) with
  | last s hs =>
      rw [cleanLoop_false_append hs, cleanLoop_false_slash, List.getLast?_append_cons]
      exact htrue []
  | cons s t hs _ =>
      rw [List.append_assoc, List.cons_append, cleanLoop_false_append hs, cleanLoop_false_slash,
        List.getLast?_append_cons]
      exact htrue t

/-! ### Links -/

/-- The reference `r` leads to the file `name`: it is decoded to the name, behind `./` if there is
a colon that might end a scheme; and in a directory it is cleaned to the name. -/
structure LinkResolves (name r : Bytes) : Prop where
  decoded : unescapeUri r true = (true, (if HasColon name then str "./" else []) ++ name, none)
  guarded : HasColon name → str "./" <+: r
  noScheme : 58 ∈ r.drop 1 → str "./" <+: r
  cleaned : ∀ d : Bytes, d.head? = some 47 → d.getLast? = some 47 →
    cleanPathname (d ++ (unescapeUri r true).2.1) = cleanPathname d ++ name ∧
      str "/" ++ name <:+ cleanPathname (d ++ (unescapeUri r true).2.1)

/-- **Links resolve to their file**, for every name of printable characters. -/
theorem httpEscapeString_resolves (name : Bytes) (hname : ∀ b ∈ name, 32 ≤ b ∧ b ≤ 126 ∧ b ≠ 47) :
    ∃ r, httpEscapeString name .given name.length = some r ∧ LinkResolves name r := by
  have hprintable : ∀ b ∈ name, Printable b := fun b hb => ⟨(hname b hb).1, (hname b hb).2.1⟩
  have hslash : 47 ∉ name := fun hmem => (hname 47 hmem).2.2 rfl
  have hdecoded := unescapeUri_reference hprintable
  have hguard : HasColon name → str "./" <+: httpEscapeLoop false [] name := by
    intro hcolon
    rw [httpEscapeLoop_eq, if_pos hcolon]
    exact List.prefix_append _ _
  refine ⟨_, rfl, hdecoded, hguard, fun h => hguard (guarded_of_colon h), fun d _ hd => ?_⟩
  have hclean := cleanPathname_reference hd hslash
  rw [hdecoded, hclean]
  refine ⟨rfl, ?_⟩
  obtain ⟨front, hfront⟩ := List.getLast?_eq_some_iff.mp (getLast?_cleanPathname hd)
  exact ⟨front, by rw [hfront, List.append_assoc]; rfl⟩

/-- A name with a colon, a space and a question mark. -/
theorem httpEscapeString_resolves_colon :
    ∃ r, httpEscapeString (str "a b:c?") .given 6 = some r ∧ LinkResolves (str "a b:c?") r :=
  httpEscapeString_resolves _ (by decide +kernel)

end Yabwf
