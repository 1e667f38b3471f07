import Mathlib.Data.List.TakeWhile
import Yabwf.StripPrefix

/-!
Garbage in front of a header on the same line, as `strip_cgi_prefix` treats it.

* `matchesWildcardPattern_append_lf`, `matchesWildcardPattern_append_garbage`: the wildcard
  pattern looks neither across the end of a line nor across garbage.
* `searchTokens_eq_some_iff`: of the tokens that occur in a line the one listed last counts.
* `InlineGarbage`: a line of garbage and a header that begins with a token.
* `stripCgiPrefix_inline_iff`: the header is found where it begins when no letter of the
  token's field name but the first begins a shorter name; if the token has no field name,
  the order of the tokens decides.
-/

namespace Yabwf

/-! ### The wildcard pattern -/

/-- The lower case of a byte is of its class. -/
lemma toLowerByte_class (b : UInt8) :
    isNameChar (toLowerByte b) = isNameChar b ∧ isAlpha (toLowerByte b) = isAlpha b ∧
      (toLowerByte b = 58 ↔ b = 58) ∧ (toLowerByte b = 32 ↔ b = 32) :=
  forall_byte (p := fun b => isNameChar (toLowerByte b) = isNameChar b ∧
    isAlpha (toLowerByte b) = isAlpha b ∧ (toLowerByte b = 58 ↔ b = 58) ∧
    (toLowerByte b = 32 ↔ b = 32)) (by decide +kernel) b

lemma isNameChar_toLowerByte (b : UInt8) : isNameChar (toLowerByte b) = isNameChar b :=
  (toLowerByte_class b).1

lemma isAlpha_toLowerByte (b : UInt8) : isAlpha (toLowerByte b) = isAlpha b :=
  (toLowerByte_class b).2.1

lemma toLowerByte_eq_colon_iff (b : UInt8) : toLowerByte b = 58 ↔ b = 58 :=
  (toLowerByte_class b).2.2.1

lemma toLowerByte_eq_space_iff (b : UInt8) : toLowerByte b = 32 ↔ b = 32 :=
  (toLowerByte_class b).2.2.2

lemma isNameChar_of_isAlpha {b : UInt8} (h : isAlpha b = true) : isNameChar b = true := by
  simp only [isAlpha, isNameChar, isAlnum, Bool.or_eq_true] at h ⊢
  tauto

/-- A pattern that begins with a name: letter, name characters, colon and space. -/
lemma matchesWildcardPattern_iff {line : Bytes} :
    matchesWildcardPattern line = true ↔
      ∃ b name rest, line = b :: (name ++ 58 :: 32 :: rest) ∧ isAlpha b = true ∧
        ∀ c ∈ name, isNameChar c = true := by
  cases line with
  | nil => simp [matchesWildcardPattern]
  | cons b p =>
      have hsplit := List.takeWhile_append_dropWhile (p := isNameChar) (l := p)
      rw [matchesWildcardPattern, Bool.and_eq_true, List.isPrefixOf_iff_prefix]
      constructor
      · rintro ⟨hb, rest, hrest⟩
        refine ⟨b, p.takeWhile isNameChar, rest, ?_, hb, fun c hc => List.mem_takeWhile_imp hc⟩
        conv_lhs => rw [← hsplit, ← hrest]
        rfl
      · rintro ⟨b', name, rest, heq, hb, hname⟩
        obtain ⟨rfl, rfl⟩ := List.cons.inj heq
        refine ⟨hb, rest, ?_⟩
        rw [List.dropWhile_append_of_pos hname]
        rfl

lemma three_le_of_matchesWildcardPattern {line : Bytes}
    (h : matchesWildcardPattern line = true) : 3 ≤ line.length := by
  obtain ⟨b, name, rest, rfl, -⟩ := matchesWildcardPattern_iff.mp h
  simp
  omega

/-- A longer text matches too. -/
lemma matchesWildcardPattern_of_prefix {x y : Bytes} (h : x <+: y)
    (hx : matchesWildcardPattern x = true) : matchesWildcardPattern y = true := by
  obtain ⟨t, rfl⟩ := h
  obtain ⟨b, name, rest, rfl, hb, hname⟩ := matchesWildcardPattern_iff.mp hx
  refine matchesWildcardPattern_iff.mpr ⟨b, name, rest ++ t, ?_, hb, hname⟩
  simp

/-- The pattern ends before a line feed. -/
lemma matchesWildcardPattern_append_lf (x y : Bytes) :
    matchesWildcardPattern (x ++ 10 :: y) = matchesWildcardPattern x := by
  rw [Bool.eq_iff_iff]
  refine ⟨fun h => ?_, matchesWildcardPattern_of_prefix (List.prefix_append _ _)⟩
  obtain ⟨b, name, rest, heq, hb, hname⟩ := matchesWildcardPattern_iff.mp h
  have hmatch : matchesWildcardPattern (b :: (name ++ [58, 32])) = true :=
    matchesWildcardPattern_iff.mpr ⟨b, name, [], rfl, hb, hname⟩
  have hlf : 10 ∉ b :: (name ++ [58, 32]) := by
    simp only [List.mem_cons, List.mem_append, not_or]
    refine ⟨?_, fun hmem => absurd (hname 10 hmem) (by decide), by decide, by decide, by simp⟩
    rintro rfl
    exact absurd hb (by decide)
  have hpre : b :: (name ++ [58, 32]) <+: x ++ 10 :: y := ⟨rest, by simp [heq]⟩
  rcases List.prefix_or_prefix_of_prefix hpre (List.prefix_append x (10 :: y)) with hx | hx
  · exact matchesWildcardPattern_of_prefix hx hmatch
  · obtain ⟨t, ht⟩ := hx
    cases t with
    | nil =>
        rw [List.append_nil] at ht
        rwa [ht]
    | cons c t =>
        rw [← ht, List.prefix_append_right_inj, List.cons_prefix_cons] at hpre
        rw [← ht] at hlf
        exact absurd (by simp [hpre.1]) hlf

/-- Case does not matter. -/
lemma matchesWildcardPattern_map (x : Bytes) :
    matchesWildcardPattern (x.map toLowerByte) = matchesWildcardPattern x := by
  have hcolon (q : Bytes) :
      (str ": ").isPrefixOf (q.map toLowerByte) = (str ": ").isPrefixOf q := by
    rw [Bool.eq_iff_iff, List.isPrefixOf_iff_prefix, List.isPrefixOf_iff_prefix]
    match q with
    | [] => simp
    | [c] => simp [str]
    | c :: d :: q =>
        have h₁ := toLowerByte_eq_colon_iff c
        have h₂ := toLowerByte_eq_space_iff d
        rw [show str ": " = [58, 32] from rfl, List.map_cons, List.map_cons,
          List.cons_prefix_cons, List.cons_prefix_cons, List.cons_prefix_cons,
          List.cons_prefix_cons]
        constructor
        · rintro ⟨hc, hd, -⟩
          exact ⟨(h₁.mp hc.symm).symm, (h₂.mp hd.symm).symm, List.nil_prefix⟩
        · rintro ⟨hc, hd, -⟩
          exact ⟨(h₁.mpr hc.symm).symm, (h₂.mpr hd.symm).symm, List.nil_prefix⟩
  cases x with
  | nil => rfl
  | cons b p =>
      rw [List.map_cons, matchesWildcardPattern, matchesWildcardPattern, isAlpha_toLowerByte,
        List.dropWhile_map, hcolon]
      congr 3
      funext c
      exact isNameChar_toLowerByte c

/-- No match begins in garbage without a colon that ends in something that is no part of a
name. -/
lemma matchesWildcardPattern_append_garbage {g : Bytes} (hne : g ≠ []) (hcolon : 58 ∉ g)
    (hlast : ∀ b ∈ g.getLast?, isNameChar b = false) (h : Bytes) :
    matchesWildcardPattern (g ++ h) = false := by
  rw [Bool.eq_false_iff]
  intro hmatch
  obtain ⟨b, name, rest, heq, hb, hname⟩ := matchesWildcardPattern_iff.mp hmatch
  have hall : ∀ c ∈ b :: name, isNameChar c = true := by
    intro c hc
    rcases List.mem_cons.mp hc with rfl | hc
    · exact isNameChar_of_isAlpha hb
    · exact hname c hc
  have hnotall : ¬ g <+: b :: name := by
    intro hpre
    have hmem : g.getLast hne ∈ b :: name := hpre.subset (List.getLast_mem hne)
    have hfalse := hlast _ (List.getLast?_eq_getLast_of_ne_nil hne)
    rw [hall _ hmem] at hfalse
    exact absurd hfalse (by simp)
  have hw : b :: name <+: g ++ h := ⟨58 :: 32 :: rest, by simp [heq]⟩
  rcases List.prefix_or_prefix_of_prefix hw (List.prefix_append g h) with ⟨t, rfl⟩ | hpre
  · cases t with
    | nil => exact hnotall (by simp)
    | cons c t =>
        simp only [List.append_assoc, List.cons_append, List.cons.injEq, true_and,
          List.append_cancel_left_eq] at heq
        exact hcolon (by simp [heq.1])
  · exact hnotall hpre

/-! ### The passes for the tokens -/

lemma length_le_of_hasPrefixCase {pat s : Bytes} (h : hasPrefixCase pat s = true) :
    pat.length ≤ s.length := by
  have := (List.isPrefixOf_iff_prefix.mp h).length_le
  simpa using this

/-- A pattern that is no longer than a text sees only the text. -/
lemma hasPrefixCase_append {pat x : Bytes} (y : Bytes) (h : pat.length ≤ x.length) :
    hasPrefixCase pat (x ++ y) = hasPrefixCase pat x := by
  rw [Bool.eq_iff_iff, hasPrefixCase, hasPrefixCase, List.isPrefixOf_iff_prefix,
    List.isPrefixOf_iff_prefix, List.map_append]
  refine ⟨fun hp => ?_, fun hp => hp.trans (List.prefix_append _ _)⟩
  exact List.prefix_of_prefix_length_le hp (List.prefix_append _ _) (by simpa using h)

section Search

variable {tokens : List Bytes} {buf : Bytes}

/-- The last match of a token between `l` and `pos`. -/
def LastHit (buf : Bytes) (l pos : ℕ) (token : Bytes) (t : ℕ) : Prop :=
  l ≤ t ∧ t + token.length ≤ pos ∧ hasPrefixCase token (buf.drop t) = true ∧
    ∀ i, t < i → i + token.length ≤ pos → hasPrefixCase token (buf.drop i) = false

/-- No match of a token between `l` and `pos`. -/
def NoHit (buf : Bytes) (l pos : ℕ) (token : Bytes) : Prop :=
  ∀ i, l ≤ i → i + token.length ≤ pos → hasPrefixCase token (buf.drop i) = false

lemma LastHit.unique {l pos t t' : ℕ} {token : Bytes} (h : LastHit buf l pos token t)
    (h' : LastHit buf l pos token t') : t = t' := by
  rcases Nat.lt_trichotomy t t' with hlt | rfl | hlt
  · exact absurd h'.2.2.1 (by rw [h.2.2.2 t' hlt h'.2.1]; simp)
  · rfl
  · exact absurd h.2.2.1 (by rw [h'.2.2.2 t hlt h.2.1]; simp)

lemma LastHit.not_noHit {l pos t : ℕ} {token : Bytes} (h : LastHit buf l pos token t) :
    ¬ NoHit buf l pos token := fun hno =>
  absurd h.2.2.1 (by rw [hno t h.1 h.2.1]; simp)

/-- One pass: the last match of its token, or what the passes before have found. -/
lemma searchLine_token (buf : Bytes) (l pos : ℕ) (token : Bytes) (last : Option ℕ) :
    (searchLine buf (hasPrefixCase token) l (pos + 1 - token.length - l) last = last ∧
      NoHit buf l pos token) ∨
    ∃ t, searchLine buf (hasPrefixCase token) l (pos + 1 - token.length - l) last = some t ∧
      LastHit buf l pos token t := by
  rcases searchLine_cases buf (hasPrefixCase token) l (pos + 1 - token.length - l) last with
    ⟨heq, hall⟩ | ⟨i, hi, heq, hhit, hlast⟩
  · refine Or.inl ⟨heq, fun i hl hi => ?_⟩
    have := hall (i - l) (by omega)
    rwa [Nat.add_sub_cancel' hl] at this
  · refine Or.inr ⟨l + i, heq, Nat.le_add_right _ _, by omega, hhit, fun j hij hj => ?_⟩
    have := hlast (j - l) (by omega) (by omega)
    rwa [Nat.add_sub_cancel' (by omega : l ≤ j)] at this

lemma searchTokens_concat (l pos : ℕ) (last : Option ℕ) (ts : List Bytes) (token : Bytes) :
    searchTokens buf l pos last (ts ++ [token])
      = searchLine buf (hasPrefixCase token) l (pos + 1 - token.length - l)
          (searchTokens buf l pos last ts) := by
  simp [searchTokens]

/-- Of the tokens that occur the one listed last counts. -/
lemma searchTokens_eq_some_iff {l pos t : ℕ} :
    searchTokens buf l pos none tokens = some t ↔
      ∃ before token behind, tokens = before ++ token :: behind ∧ LastHit buf l pos token t ∧
        ∀ other ∈ behind, NoHit buf l pos other := by
  induction tokens using List.reverseRecOn with
  | nil => simp [searchTokens]
  | append_singleton tokens token ih =>
      rw [searchTokens_concat]
      rcases searchLine_token buf l pos token (searchTokens buf l pos none tokens) with
        ⟨heq, hno⟩ | ⟨t', heq, hhit⟩
      · rw [heq, ih]
        constructor
        · rintro ⟨before, other, behind, rfl, hhit, hbehind⟩
          refine ⟨before, other, behind ++ [token], by simp, hhit, fun o ho => ?_⟩
          rcases List.mem_append.mp ho with ho | ho
          · exact hbehind o ho
          · rwa [List.mem_singleton.mp ho]
        · rintro ⟨before, other, behind, hsplit, hhit, hbehind⟩
          rcases List.eq_nil_or_concat behind with rfl | ⟨behind, last, rfl⟩
          · obtain ⟨-, rfl⟩ : tokens = before ∧ token = other := by
              simpa using List.append_inj' hsplit rfl
            exact absurd hno hhit.not_noHit
          · rw [List.concat_eq_append, ← List.cons_append, ← List.append_assoc] at hsplit
            obtain ⟨rfl, -⟩ := List.append_inj' hsplit rfl
            exact ⟨before, other, behind, rfl, hhit, fun o ho => hbehind o (by simp [ho])⟩
      · rw [heq, Option.some.injEq]
        constructor
        · rintro rfl
          exact ⟨tokens, token, [], rfl, hhit, by simp⟩
        · rintro ⟨before, other, behind, hsplit, hhit', hbehind⟩
          rcases List.eq_nil_or_concat behind with rfl | ⟨behind, last, rfl⟩
          · obtain ⟨-, rfl⟩ : tokens = before ∧ token = other := by
              simpa using List.append_inj' hsplit rfl
            exact hhit.unique hhit'
          · rw [List.concat_eq_append, ← List.cons_append, ← List.append_assoc] at hsplit
            obtain ⟨-, hlast⟩ := List.append_inj' hsplit rfl
            obtain rfl : token = last := by simpa using hlast
            exact absurd (hbehind token (by simp)) hhit.not_noHit

end Search

/-! ### Garbage and a header -/

/-- The line in front of a header run, at `l`, is garbage `g` and a header `h` that begins
with the token `tok`: nothing else in it looks like a header. -/
structure InlineGarbage (tokens : List Bytes) (buf : Bytes) (a s l : ℕ) (g h tok : Bytes) :
    Prop where
  blank : FirstBlank buf a
  run : HeaderRun LineBefore tokens buf a s
  pos : 0 < s
  line : LineBefore buf s l
  split : (buf.drop l).take (s - l) = g ++ h
  token : tok ∈ tokens
  begins : hasPrefixCase (tok ++ [32]) h = true
  nonempty : g ≠ []
  noColon : 58 ∉ g
  noLf : 10 ∉ g
  last : ∀ b ∈ g.getLast?, isNameChar b = false
  noToken : ∀ other ∈ tokens, ∀ i, 0 < i → hasPrefixCase other (h.drop i) = false
  noName : ∀ i, matchesWildcardPattern (h.drop i) = true →
    matchesWildcardPattern ((tok ++ [32]).drop i) = true
  start : startsHeader tokens (buf.drop l) = false

/-- The wildcard pattern matches the field name of a token, and no shorter end of it. -/
def WholeName (tok : Bytes) : Prop :=
  matchesWildcardPattern (tok ++ [32]) = true ∧
    ∀ i, 0 < i → matchesWildcardPattern ((tok ++ [32]).drop i) = false

/-- A token without a field name at its end. -/
def NoName (tok : Bytes) : Prop := ∀ i, matchesWildcardPattern ((tok ++ [32]).drop i) = false

/-- Of the tokens that occur in a line the one listed last occurs at its header. -/
def ListedLast (tokens : List Bytes) (line h : Bytes) : Prop :=
  ∃ before token behind, tokens = before ++ token :: behind ∧ hasPrefixCase token h = true ∧
    ∀ other ∈ behind, ∀ i, hasPrefixCase other (line.drop i) = false

namespace InlineGarbage

variable {tokens : List Bytes} {buf : Bytes} {a s l : ℕ} {g h tok : Bytes}

lemma length (hg : InlineGarbage tokens buf a s l g h tok) : l + (g.length + h.length) = s := by
  have hle := hg.line.le
  have hrun := hg.run.le
  have hlen := congrArg List.length hg.split
  have hblank : a < buf.length := by
    rcases hg.blank.1 with hb | hb
    all_goals
      have := hb.length_le
      simp [str] at this
      omega
  simp at hlen
  omega

lemma drop_eq (hg : InlineGarbage tokens buf a s l g h tok) {i : ℕ}
    (hi : i ≤ (g ++ h).length) : buf.drop (l + i) = (g ++ h).drop i ++ buf.drop s := by
  have hlen := hg.length
  have hrest : (buf.drop l).drop (s - l) = buf.drop s := by
    rw [List.drop_drop]
    congr 1
    omega
  have hline : buf.drop l = (g ++ h) ++ buf.drop s := by
    rw [← hg.split, ← hrest, List.take_append_drop]
  rw [← List.drop_drop, hline, List.drop_append_of_le_length hi]

/-- The line is followed by a line feed, or ends in one. -/
lemma lf (hg : InlineGarbage tokens buf a s l g h tok) :
    (buf.drop s).head? = some 10 ∨ (g ++ h).getLast? = some 10 := by
  have hlen := hg.length
  have hs := hg.pos
  cases hg.run with
  | blank =>
      left
      rcases hg.blank.1 with ⟨t, ht⟩ | ⟨t, ht⟩ <;> rw [← ht] <;> rfl
  | line _ _ hline _ =>
      right
      have h10 := hline.start.resolve_left hs.ne'
      have hlt : l < s := hg.line.lt hs
      rw [← hg.split, List.getLast?_take, if_neg (by omega), List.getElem?_drop,
        show l + (s - l - 1) = s - 1 from by omega, h10]
      rfl

/-- The wildcard pattern sees the line only. -/
lemma wildcard (hg : InlineGarbage tokens buf a s l g h tok) {i : ℕ} (hi : i < (g ++ h).length) :
    matchesWildcardPattern (buf.drop (l + i)) = matchesWildcardPattern ((g ++ h).drop i) := by
  rw [hg.drop_eq hi.le]
  rcases hg.lf with hlf | hlf
  · obtain ⟨y, hy⟩ : ∃ y, buf.drop s = 10 :: y := by
      cases hd : buf.drop s with
      | nil => simp [hd] at hlf
      | cons b y => exact ⟨y, by simpa [hd] using hlf⟩
    rw [hy, matchesWildcardPattern_append_lf]
  · have hlast : ((g ++ h).drop i).getLast? = some 10 := by
      rw [List.getLast?_drop, if_neg (by omega), hlf]
    obtain ⟨x, hx⟩ := List.getLast?_eq_some_iff.mp hlast
    rw [hx, matchesWildcardPattern_append_lf x [], List.append_assoc, List.singleton_append,
      matchesWildcardPattern_append_lf]

/-- So does a token. -/
lemma prefix_eq (hg : InlineGarbage tokens buf a s l g h tok) {i : ℕ} {other : Bytes}
    (hi : i + other.length ≤ (g ++ h).length) :
    hasPrefixCase other (buf.drop (l + i)) = hasPrefixCase other ((g ++ h).drop i) := by
  rw [hg.drop_eq (by omega), hasPrefixCase_append]
  rw [List.length_drop]
  omega

lemma noHit_iff (hg : InlineGarbage tokens buf a s l g h tok) {other : Bytes} :
    NoHit buf l s other ↔ ∀ i, hasPrefixCase other ((g ++ h).drop i) = false := by
  have hlen := hg.length
  have hgh : (g ++ h).length = g.length + h.length := List.length_append
  constructor
  · intro hno i
    by_contra hhit
    rw [Bool.not_eq_false] at hhit
    have hle := length_le_of_hasPrefixCase hhit
    rw [List.length_drop] at hle
    by_cases hi : i + other.length ≤ (g ++ h).length
    · have := hno (l + i) (Nat.le_add_right _ _) (by omega)
      rw [hg.prefix_eq hi, hhit] at this
      exact absurd this (by simp)
    · obtain rfl : other = [] := List.eq_nil_of_length_eq_zero (by omega)
      exact absurd (hno l le_rfl (by simp; omega)) (by simp [hasPrefixCase])
  · intro hno i hl hi
    have := hno (i - l)
    rwa [← hg.prefix_eq (by omega), Nat.add_sub_cancel' hl] at this

/-- The last match of a token is at the header if the token begins it. -/
lemma lastHit_iff (hg : InlineGarbage tokens buf a s l g h tok) {other : Bytes}
    (hmem : other ∈ tokens) :
    LastHit buf l s other (l + g.length) ↔ hasPrefixCase other h = true := by
  have hlen := hg.length
  have hgh : (g ++ h).length = g.length + h.length := List.length_append
  have hat (hi : g.length + other.length ≤ (g ++ h).length) :
      hasPrefixCase other (buf.drop (l + g.length)) = hasPrefixCase other h := by
    rw [hg.prefix_eq hi, List.drop_left]
  constructor
  · rintro ⟨-, hi, hhit, -⟩
    rwa [hat (by omega)] at hhit
  · intro hhit
    have hle := length_le_of_hasPrefixCase hhit
    refine ⟨Nat.le_add_right _ _, by omega, by rwa [hat (by omega)], fun i hi hib => ?_⟩
    obtain ⟨j, rfl⟩ : ∃ j, i = l + (g.length + j) := ⟨i - l - g.length, by omega⟩
    rw [hg.prefix_eq (by omega), List.drop_length_add_append]
    exact hg.noToken other hmem j (by omega)

/-- In the header the wildcard pattern matches where it matches the token. -/
lemma wildcard_header (hg : InlineGarbage tokens buf a s l g h tok) (i : ℕ) :
    matchesWildcardPattern (h.drop i) = matchesWildcardPattern ((tok ++ [32]).drop i) := by
  rw [Bool.eq_iff_iff]
  refine ⟨hg.noName i, fun htok => ?_⟩
  have hpre := List.isPrefixOf_iff_prefix.mp hg.begins
  rw [← matchesWildcardPattern_map, List.map_drop] at htok ⊢
  exact matchesWildcardPattern_of_prefix (hpre.drop i) htok

/-- In the line it matches nowhere else. -/
lemma wildcard_line (hg : InlineGarbage tokens buf a s l g h tok) {i : ℕ}
    (hi : i < (g ++ h).length) (hmatch : matchesWildcardPattern (buf.drop (l + i)) = true) :
    ∃ j, i = g.length + j ∧ matchesWildcardPattern ((tok ++ [32]).drop j) = true := by
  rw [hg.wildcard hi] at hmatch
  by_cases hlt : i < g.length
  · have hne : g.drop i ≠ [] := by simpa using hlt
    have hno := matchesWildcardPattern_append_garbage hne
      (fun hmem => hg.noColon (List.mem_of_mem_drop hmem))
      (by rw [List.getLast?_drop, if_neg (by omega)]; exact hg.last) h
    rw [List.drop_append_of_le_length hlt.le, hno] at hmatch
    exact absurd hmatch (by simp)
  · obtain ⟨j, rfl⟩ := Nat.exists_eq_add_of_le (Nat.le_of_not_lt hlt)
    rw [List.drop_length_add_append, hg.wildcard_header] at hmatch
    exact ⟨j, rfl, hmatch⟩

end InlineGarbage

/-- **Garbage in front of a header on its line** is stripped exactly when the wildcard
pattern matches the field name of the token as a whole but no shorter end of it, or when the
token has no field name and the order of the tokens favours the header. -/
theorem stripCgiPrefix_inline_iff {tokens : List Bytes} {buf : Bytes} {a s l : ℕ}
    {g h tok : Bytes} (hg : InlineGarbage tokens buf a s l g h tok) :
    stripCgiPrefix true tokens buf = some (l + g.length) ↔
      WholeName tok ∨ NoName tok ∧ ListedLast tokens (g ++ h) h := by
  have hlen := hg.length
  have hgh : (g ++ h).length = g.length + h.length := List.length_append
  have hh := length_le_of_hasPrefixCase hg.begins
  rw [List.length_append, List.length_singleton] at hh
  have hstrip : stripCgiPrefix true tokens buf
      = some ((inlineSearch tokens buf l s).getD s) := by
    rw [stripCgiPrefix_of_firstBlank hg.blank, stripFrom_of_run hg.run hg.pos,
      stripFrom_eq hg.line, hg.start, if_neg (by simp)]
  rw [hstrip, inlineSearch]
  have hfound {j : ℕ} (hj : matchesWildcardPattern ((tok ++ [32]).drop j) = true) :
      g.length + j < s - 1 - l ∧ matchesWildcardPattern (buf.drop (l + (g.length + j))) = true := by
    rw [← hg.wildcard_header] at hj
    have hthree := three_le_of_matchesWildcardPattern hj
    rw [List.length_drop] at hthree
    refine ⟨by omega, ?_⟩
    rwa [hg.wildcard (by omega), List.drop_length_add_append]
  rcases searchLine_cases buf matchesWildcardPattern l (s - 1 - l)
    (searchTokens buf l s none tokens) with ⟨heq, hall⟩ | ⟨i, hi, heq, hmatch, hlast⟩
  · -- No field name in the line: the tokens decide.
    have hnone : NoName tok := by
      intro j
      by_contra hj
      obtain ⟨hlt, htrue⟩ := hfound (Bool.not_eq_false _ ▸ hj)
      rw [hall _ hlt] at htrue
      exact absurd htrue (by simp)
    have hnot : ¬ WholeName tok := by
      intro hw
      have := hnone 0
      rw [List.drop_zero, hw.1] at this
      exact absurd this (by simp)
    have hgetD (o : Option ℕ) :
        some (o.getD s) = some (l + g.length) ↔ o = some (l + g.length) := by
      cases o with
      | none =>
          simp
          omega
      | some t => simp
    rw [heq, hgetD, searchTokens_eq_some_iff, or_iff_right hnot, and_iff_right hnone, ListedLast]
    constructor
    · rintro ⟨before, token, behind, rfl, hhit, hbehind⟩
      exact ⟨before, token, behind, rfl, (hg.lastHit_iff (by simp)).mp hhit,
        fun other ho => hg.noHit_iff.mp (hbehind other ho)⟩
    · rintro ⟨before, token, behind, rfl, hhit, hbehind⟩
      exact ⟨before, token, behind, rfl, (hg.lastHit_iff (by simp)).mpr hhit,
        fun other ho => hg.noHit_iff.mpr (hbehind other ho)⟩
  · -- The last place where the wildcard pattern matches is in the header.
    obtain ⟨j, rfl, htok⟩ := hg.wildcard_line (by omega) hmatch
    rw [heq, Option.getD_some, Option.some.injEq]
    constructor
    · intro hj
      obtain rfl : j = 0 := by omega
      refine Or.inl ⟨by rwa [List.drop_zero] at htok, fun k hk => ?_⟩
      by_contra hmk
      obtain ⟨hlt, htrue⟩ := hfound (Bool.not_eq_false _ ▸ hmk)
      rw [hlast _ (by omega) hlt] at htrue
      exact absurd htrue (by simp)
    · rintro (hw | ⟨hnone, -⟩)
      · rcases Nat.eq_zero_or_pos j with rfl | hj
        · rfl
        · rw [hw.2 j hj] at htok
          exact absurd htok (by simp)
      · rw [hnone j] at htok
        exact absurd htok (by simp)

lemma forall_drop_of_lt {h : Bytes} {P : ℕ → Bytes → Prop} (hnil : ∀ i, P i [])
    (hlt : ∀ i < h.length, P i (h.drop i)) (i : ℕ) : P i (h.drop i) := by
  by_cases hi : i < h.length
  · exact hlt i hi
  · rw [List.drop_eq_nil_of_le (Nat.le_of_not_lt hi)]
    exact hnil i

/-- A field name of one letter is found. -/
theorem stripCgiPrefix_inline_letter :
    stripCgiPrefix true [str "A:"] (str "x A: 1\n\nb") = some 2 ↔
      WholeName (str "A:") ∨
        NoName (str "A:") ∧ ListedLast [str "A:"] (str "x A: 1") (str "A: 1") :=
  have hg : InlineGarbage [str "A:"] (str "x A: 1\n\nb") 6 6 0 (str "x ") (str "A: 1") (str "A:") :=
    { blank := stripAnchor_eq_some_iff.mp (by decide)
      run := .blank
      pos := by decide
      line := ⟨Or.inl rfl, 6, by decide, le_rfl, by decide, fun i h₁ h₂ => by omega,
        Or.inr ⟨by decide, by decide⟩⟩
      split := by decide
      token := by decide
      begins := by decide
      nonempty := by decide
      noColon := by decide
      noLf := by decide
      last := by decide +kernel
      noToken := fun other ho i hi => List.mem_singleton.mp ho ▸ forall_drop_of_lt
        (P := fun i x => 0 < i → hasPrefixCase (str "A:") x = false) (h := str "A: 1")
        (fun _ _ => rfl) (by decide) i hi
      noName := fun i => forall_drop_of_lt (P := fun i x => matchesWildcardPattern x = true →
          matchesWildcardPattern ((str "A:" ++ [32]).drop i) = true) (h := str "A: 1")
        (fun _ hx => absurd hx (by decide)) (by decide) i
      start := by decide }
  stripCgiPrefix_inline_iff hg

/-- Of `Status: 200` behind garbage only the last letter of the field name is left. -/
theorem stripCgiPrefix_cuts_name : ¬ ∀ tokens, LineTokens tokens → ∀ buf a s l g h tok,
    InlineGarbage tokens buf a s l g h tok →
      stripCgiPrefix true tokens buf = some (l + g.length) := by
  intro hall
  have htokens : LineTokens [str "Status:"] := by
    unfold LineTokens
    decide
  have hg : InlineGarbage [str "Status:"] (str "junk Status: 200\n\nb") 16 16 0 (str "junk ")
      (str "Status: 200") (str "Status:") :=
    { blank := stripAnchor_eq_some_iff.mp (by decide)
      run := .blank
      pos := by decide
      line := ⟨Or.inl rfl, 16, by decide, le_rfl, by decide, fun i h₁ h₂ => by omega,
        Or.inr ⟨by decide, by decide⟩⟩
      split := by decide
      token := by decide
      begins := by decide
      nonempty := by decide
      noColon := by decide
      noLf := by decide
      last := by decide +kernel
      noToken := fun other ho i hi => List.mem_singleton.mp ho ▸ forall_drop_of_lt
        (P := fun i x => 0 < i → hasPrefixCase (str "Status:") x = false) (h := str "Status: 200")
        (fun _ _ => rfl) (by decide) i hi
      noName := fun i => forall_drop_of_lt (P := fun i x => matchesWildcardPattern x = true →
          matchesWildcardPattern ((str "Status:" ++ [32]).drop i) = true) (h := str "Status: 200")
        (fun _ hx => absurd hx (by decide)) (by decide) i
      start := by decide }
  exact absurd (hall _ htokens _ _ _ _ _ _ _ hg) (by decide)

end Yabwf
