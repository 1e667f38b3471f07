import Yabwf.CgiHead
import Yabwf.MovedPage

/-!
The answer of `process_cgi_header` to an output that begins with a location.

* `LocationLine`, `IsUrl`: the line of the location, and the values that are redirected to.
* `RedirectsTo`: the redirection is faithful: the URL, the other header lines, the empty line
  and the anchor.
* `processCgiHeader_redirect`: what is sent is `send_r_moved_temp` with the URL cut out of the
  buffer, and with what follows the line ends behind it.
* `headerLines_iff`: what follows is the header up to the empty line exactly when the header goes
  on behind the location or the body is empty.
* `cgi_redirect_iff`: when redirections are faithful, and other locations are refused.
-/

namespace Yabwf

open Memory

/-! ### The line of the location -/

/-- The output begins with a location, `v` is the rest of its line, and `rest` what follows. -/
structure LocationLine (out v rest : Bytes) : Prop where
  begins : hasPrefixCase (str "Location: ") out = true
  split : out.drop 10 = v ++ 10 :: rest
  noLf : 10 ∉ v

/-- The URL on a line: carriage returns in front of the line feed belong to the line end. -/
def lineUrl (v : Bytes) : Bytes := v.rdropWhile (· == 13)

/-- The values that `process_cgi_header` redirects to. -/
def IsUrl (u : Bytes) : Prop :=
  hasPrefixCase (str "http://") u = true ∨ hasPrefixCase (str "https://") u = true

lemma outputString_append {pre : Bytes} (hpre : 0 ∉ pre) (out : Bytes) :
    outputString (pre ++ out) = pre ++ outputString out := by
  rw [outputString, outputString, List.takeWhile_append_of_pos]
  intro b hb
  exact bne_iff_ne.mpr fun h0 => hpre (h0 ▸ hb)

/-- A prefix that ends in front of a byte that it does not have. -/
lemma hasPrefixCase_append_cons {pat : Bytes} {b : UInt8} (hb : toLowerByte b ∉ pat.map toLowerByte)
    (u t : Bytes) : hasPrefixCase pat (u ++ b :: t) = hasPrefixCase pat u := by
  induction pat generalizing u with
  | nil => simp [hasPrefixCase]
  | cons p pat ih =>
      rw [List.map_cons, List.mem_cons, not_or] at hb
      cases u with
      | nil =>
          have hne : (toLowerByte p == toLowerByte b) = false :=
            beq_eq_false_iff_ne.mpr fun h => hb.1 h.symm
          simp only [hasPrefixCase, List.nil_append, List.map_cons, List.map_nil,
            List.isPrefixOf_cons_cons, hne, Bool.false_and]
          rfl
      | cons x u =>
          have hrest := ih hb.2 u
          simp only [hasPrefixCase] at hrest
          simp only [hasPrefixCase, List.cons_append, List.map_cons, List.isPrefixOf_cons_cons,
            hrest]

lemma IsUrl.head?_ne {u : Bytes} (h : IsUrl u) : ¬u.head? = some 47 := by
  have h₁ : str "http://" = 104 :: str "ttp://" := by decide
  have h₂ : str "https://" = 104 :: str "ttps://" := by decide
  cases u with
  | nil => simp
  | cons b u =>
      rw [IsUrl, hasPrefixCase, hasPrefixCase, h₁, h₂, List.map_cons, List.map_cons, List.map_cons,
        List.isPrefixOf_cons_cons, List.isPrefixOf_cons_cons, ← Bool.or_eq_true,
        ← Bool.and_or_distrib_left, Bool.and_eq_true, beq_iff_eq] at h
      intro hb
      obtain rfl : b = 47 := Option.some.inj hb
      exact absurd h.1 (by decide)

lemma rtakeWhile_cr (v : Bytes) : ∀ b ∈ v.rtakeWhile (· == 13), b = 13 := by
  intro b hb
  simpa using List.mem_rtakeWhile_imp hb

/-- The URL is the same whether it is looked for on its line or in all that follows. -/
lemma isUrl_lineUrl_iff (v rest : Bytes) : IsUrl (lineUrl v) ↔ IsUrl (v ++ 10 :: rest) := by
  have hskip {b : UInt8} (hb : b = 10 ∨ b = 13) (u t : Bytes) : IsUrl (u ++ b :: t) ↔ IsUrl u := by
    rcases hb with rfl | rfl
    all_goals
      rw [IsUrl, IsUrl, hasPrefixCase_append_cons (by decide),
        hasPrefixCase_append_cons (by decide)]
  rw [hskip (Or.inl rfl)]
  have hv : lineUrl v ++ v.rtakeWhile (· == 13) = v := List.rdropWhile_append_rtakeWhile
  have hcr := rtakeWhile_cr v
  cases htail : v.rtakeWhile (· == 13) with
  | nil =>
      rw [htail, List.append_nil] at hv
      rw [hv]
  | cons b t =>
      rw [htail] at hv hcr
      rw [← hskip (Or.inr (hcr b List.mem_cons_self)) (lineUrl v) t, hv]

namespace LocationLine

variable {out v rest : Bytes}

lemma length (h : LocationLine out v rest) : out.length = 10 + v.length + 1 + rest.length := by
  have hlen := congrArg List.length h.split
  have hpre := List.IsPrefix.length_le (List.isPrefixOf_iff_prefix.mp h.begins)
  have hten : ((str "Location: ").map toLowerByte).length = 10 := by decide
  rw [hten, List.length_map] at hpre
  simp only [List.length_drop, List.length_append, List.length_cons] at hlen
  omega

/-- The line and what follows, from the output. -/
lemma eq_of (h : LocationLine out v rest) : v = (out.drop 10).takeWhile (· != 10) ∧
    rest = ((out.drop 10).dropWhile (· != 10)).tail := by
  have hall : ∀ b ∈ v, (b != 10) = true := fun b hb => bne_iff_ne.mpr fun h10 => h.noLf (h10 ▸ hb)
  constructor
  · rw [h.split, List.takeWhile_append_of_pos hall]
    simp
  · rw [h.split, List.dropWhile_append_of_pos hall]
    simp

/-- The output up to the end of the line. -/
lemma eq_append (h : LocationLine out v rest) : out = out.take 10 ++ v ++ 10 :: rest := by
  rw [List.append_assoc, ← h.split, List.take_append_drop]

/-- The name of the header has no line feed and no zero. -/
lemma name (h : LocationLine out v rest) : 10 ∉ out.take 10 ∧ 0 ∉ out.take 10 := by
  have hmap : (out.take 10).map toLowerByte = (str "Location: ").map toLowerByte := by
    obtain ⟨t, ht⟩ := List.isPrefixOf_iff_prefix.mp h.begins
    rw [List.map_take, ← ht, List.take_left' (by decide)]
  have hmem {b : UInt8} (hb : b ∈ out.take 10) :
      toLowerByte b ∈ (str "Location: ").map toLowerByte := by
    rw [← hmap]
    exact List.mem_map_of_mem hb
  exact ⟨fun hb => absurd (hmem hb) (by decide), fun hb => absurd (hmem hb) (by decide)⟩

lemma noLf_pre (h : LocationLine out v rest) : 10 ∉ out.take 10 ++ v := by
  rw [List.mem_append, not_or]
  exact ⟨h.name.1, h.noLf⟩

lemma length_pre (h : LocationLine out v rest) : (out.take 10 ++ v).length = 10 + v.length := by
  have hlen := h.length
  rw [List.length_append, List.length_take_of_le (by omega)]

/-- The header does not end in front of the line feed of the location. -/
lemma le_of_blank (h : LocationLine out v rest) {a : ℕ} (ha : Blank out a) : 10 + v.length ≤ a := by
  have hfirst := (blank_iff.mp ha).1
  by_contra hlt
  rw [h.eq_append, List.getElem?_append_left (by rw [h.length_pre]; omega)] at hfirst
  exact h.noLf_pre (List.mem_of_getElem? hfirst)

/-- What follows the line. -/
lemma getElem? (h : LocationLine out v rest) (i : ℕ) : out[10 + v.length + 1 + i]? = rest[i]? := by
  have happ : out = (out.take 10 ++ v ++ [10]) ++ rest := by
    rw [List.append_assoc _ [10] rest]
    exact h.eq_append
  have hlen : (out.take 10 ++ v ++ [10]).length = 10 + v.length + 1 := by
    rw [List.length_append, h.length_pre]
    rfl
  rw [happ, List.getElem?_append_right (by rw [hlen]; omega), hlen, Nat.add_sub_cancel_left]

end LocationLine

/-! ### What follows the location -/

/-- The blank line can be read: no zero byte stands in front of its end. -/
def HeaderReadable (out : Bytes) : Prop :=
  ∃ a, FirstBlank out a ∧ a + blankLength out a ≤ (outputString out).length

/-- The header ends with the line of the location. -/
def StartsEmpty (rest : Bytes) : Prop :=
  rest[0]? = some 10 ∨ rest[0]? = some 13 ∧ rest[1]? = some 10

/-- The header goes on behind the location, or it ends there and the body, as far as it is a
string, has nothing but line ends. -/
def HeaderGoesOn (rest : Bytes) : Prop :=
  (∀ b ∈ rest.head?, isEol b = false) ∨
    StartsEmpty rest ∧ ∀ b ∈ outputString rest, isEol b = true

/-- What `process_cgi_header` takes for the rest of the header. -/
def moreHeader (rest : Bytes) : Bytes := (outputString rest).dropWhile isEol

/-- The rest of the header, as far as the blank line at `a`. -/
def headerLines (out v : Bytes) (a : ℕ) : Bytes := (out.take (a + 1)).drop (10 + v.length + 1)

namespace LocationLine

variable {out v rest : Bytes} {a : ℕ}

lemma headerLines_eq (h : LocationLine out v rest) :
    headerLines out v a = rest.take (a - (10 + v.length)) := by
  have hdrop : out.drop (10 + v.length + 1) = rest := by
    rw [Nat.add_assoc, ← List.drop_drop, h.split, List.drop_append,
      List.drop_of_length_le (by omega), Nat.add_sub_cancel_left]
    rfl
  rw [headerLines, List.drop_take, hdrop]
  congr 1
  omega

/-- The header ends with the line of the location when a line end follows at once. -/
lemma firstBlank_iff_startsEmpty (h : LocationLine out v rest) (ha : FirstBlank out a) :
    a = 10 + v.length ↔ StartsEmpty rest := by
  have hten : out[10 + v.length]? = some 10 := by
    rw [h.eq_append, List.getElem?_append_right (by rw [h.length_pre]), h.length_pre, Nat.sub_self]
    rfl
  have hblank : Blank out (10 + v.length) ↔ StartsEmpty rest := by
    rw [blank_iff, hten, ← Nat.add_zero (10 + v.length + 1), h.getElem? 0,
      show 10 + v.length + 2 = 10 + v.length + 1 + 1 from rfl, h.getElem? 1, StartsEmpty]
    tauto
  constructor
  · rintro rfl
    exact hblank.mp ha.1
  · intro hstarts
    have hle := h.le_of_blank ha.1
    rcases Nat.eq_or_lt_of_le hle with heq | hlt
    · exact heq.symm
    · exact absurd (hblank.mpr hstarts) (ha.2 _ hlt)

/-- The blank line behind the header, in what follows the location. -/
lemma blank_rest (h : LocationLine out v rest) (ha : Blank out a) :
    rest[a - (10 + v.length)]? = some 10 ∨
      rest[a - (10 + v.length)]? = some 13 ∧ rest[a - (10 + v.length) + 1]? = some 10 := by
  have hle := h.le_of_blank ha
  obtain ⟨j, rfl⟩ := Nat.exists_eq_add_of_le hle
  rw [Nat.add_sub_cancel_left]
  obtain ⟨-, hspell⟩ := blank_iff.mp ha
  have h₁ := h.getElem? j
  have h₂ := h.getElem? (j + 1)
  rw [show 10 + v.length + j + 1 = 10 + v.length + 1 + j by omega,
    show 10 + v.length + j + 2 = 10 + v.length + 1 + (j + 1) by omega, h₁, h₂] at hspell
  exact hspell.symm

/-- The string that the searches see goes on behind the line of the location. -/
lemma string (h : LocationLine out v rest) (ha : Blank out a)
    (hread : a + blankLength out a ≤ (outputString out).length) :
    outputString out = out.take 10 ++ v ++ 10 :: outputString rest := by
  have hle := h.le_of_blank ha
  have hpre : out.take 10 ++ v <+: outputString out := by
    refine List.prefix_of_prefix_length_le ⟨_, h.eq_append.symm⟩ (outputString_begins out) ?_
    rw [h.length_pre]
    omega
  have hzero : 0 ∉ out.take 10 ++ v := by
    intro hmem
    have hb := List.mem_takeWhile_imp (hpre.mem hmem)
    exact absurd hb (by decide)
  have hten : outputString ([10] ++ rest) = [10] ++ outputString rest :=
    outputString_append (by decide) rest
  calc outputString out = outputString ((out.take 10 ++ v) ++ ([10] ++ rest)) :=
        congrArg outputString h.eq_append
    _ = out.take 10 ++ v ++ 10 :: outputString rest := by
        rw [outputString_append hzero, hten]
        rfl

/-- The lines of the header and the blank line are in the string that is left. -/
lemma headerLines_prefix (h : LocationLine out v rest) (ha : Blank out a)
    (hread : a + blankLength out a ≤ (outputString out).length) :
    ∃ e, (e = [10] ∨ e = [13, 10]) ∧ headerLines out v a ++ e <+: outputString rest := by
  have hle := h.le_of_blank ha
  have hlen := congrArg List.length (h.string ha hread)
  rw [List.length_append, h.length_pre, List.length_cons] at hlen
  have htake {n : ℕ} (hn : n ≤ (outputString rest).length) : rest.take n <+: outputString rest := by
    obtain ⟨t, ht⟩ := outputString_begins rest
    have heq : (outputString rest ++ t).take n = (outputString rest).take n :=
      List.take_append_of_le_length hn
    rw [ht] at heq
    rw [heq]
    exact List.take_prefix _ _
  have hspell : out[a + 1]? = rest[a - (10 + v.length)]? := by
    rw [← h.getElem?]
    congr 1
    omega
  rw [h.headerLines_eq]
  rw [blankLength, hspell] at hread
  rcases h.blank_rest ha with hlf | ⟨hcr, hlf⟩
  · refine ⟨[10], Or.inl rfl, ?_⟩
    have hone : rest.take (a - (10 + v.length)) ++ [10] = rest.take (a - (10 + v.length) + 1) := by
      rw [List.take_add_one, hlf]
      rfl
    rw [hone]
    rw [hlf, if_neg (by decide)] at hread
    exact htake (by omega)
  · refine ⟨[13, 10], Or.inr rfl, ?_⟩
    have htwo : rest.take (a - (10 + v.length)) ++ [13, 10]
        = rest.take (a - (10 + v.length) + 1 + 1) := by
      rw [List.take_add_one, List.take_add_one, hlf, hcr, List.append_assoc]
      rfl
    rw [htwo]
    rw [hcr, if_pos rfl] at hread
    exact htake (by omega)

/-- **The rest of the header** is written, with the empty line behind it, exactly when the
header goes on behind the location or there is no body. -/
lemma headerLines_iff (h : LocationLine out v rest) (ha : FirstBlank out a)
    (hread : a + blankLength out a ≤ (outputString out).length) (html : Bytes) :
    (∃ e tail, (e = [10] ∨ e = [13, 10]) ∧ html <:+ tail ∧
      moreHeader rest ++ (str "\r\n\r\n" ++ html) = headerLines out v a ++ (e ++ tail)) ↔
      HeaderGoesOn rest := by
  have hfour : str "\r\n\r\n" = [13, 10, 13, 10] := by decide
  have hstarts := h.firstBlank_iff_startsEmpty ha
  have hle := h.le_of_blank ha.1
  rw [hfour]
  constructor
  · rintro ⟨e, tail, he, -, heq⟩
    have hmore {x : UInt8} {m : Bytes} (hm : moreHeader rest = x :: m) : isEol x = false := by
      have hnot := List.head?_dropWhile_not isEol (outputString rest)
      rw [moreHeader] at hm
      rw [hm] at hnot
      simpa using hnot
    by_cases hempty : StartsEmpty rest
    · -- there are no lines, and what is written begins with the empty one
      refine Or.inr ⟨hempty, List.dropWhile_eq_nil_iff.mp ?_⟩
      rw [← moreHeader]
      cases hm : moreHeader rest with
      | nil => rfl
      | cons x m =>
          rw [h.headerLines_eq, hstarts.mpr hempty, Nat.sub_self, List.take_zero, hm] at heq
          have hx := hmore hm
          rcases he with rfl | rfl
          all_goals
            obtain ⟨rfl, -⟩ := List.cons.inj heq
            exact absurd hx (by decide)
    · refine Or.inl fun b hb => ?_
      by_contra heol
      rw [List.head?_eq_getElem?] at hb
      have hcr : b = 13 := by
        by_contra hne
        have hten : b = 10 := by
          by_contra hten
          exact heol (by simp [isEol, hne, hten])
        exact hempty (Or.inl (hten ▸ hb))
      subst hcr
      -- the first line begins with a carriage return and goes on
      have hne : a ≠ 10 + v.length := fun heq => hempty (hstarts.mp heq)
      obtain ⟨j, rfl⟩ : ∃ j, a = 10 + v.length + 1 + j := ⟨a - (10 + v.length + 1), by omega⟩
      have hlast := (blank_iff.mp ha.1).1
      rw [h.getElem?] at hlast
      have hj : j ≠ 0 := by
        rintro rfl
        rw [hb] at hlast
        exact absurd hlast (by decide)
      have hbyte {i : ℕ} (hi : i ≤ j) : (moreHeader rest ++ ([13, 10, 13, 10] ++ html))[i]?
          = rest[i]? := by
        obtain ⟨hlt, -⟩ := List.getElem?_eq_some_iff.mp hlast
        have hlen : (rest.take (j + 1)).length = j + 1 := List.length_take_of_le hlt
        rw [heq, h.headerLines_eq, show 10 + v.length + 1 + j - (10 + v.length) = j + 1 by omega,
          List.getElem?_append_left (by omega), List.getElem?_take_of_lt (by omega)]
      have h₀ := hbyte (Nat.zero_le j)
      have h₁ := hbyte (Nat.one_le_iff_ne_zero.mpr hj)
      rw [hb] at h₀
      cases hm : moreHeader rest with
      | nil =>
          rw [hm] at h₁
          exact hempty (Or.inr ⟨hb, h₁.symm⟩)
      | cons x m =>
          rw [hm] at h₀
          have hx := hmore hm
          obtain rfl : x = 13 := by simpa using h₀
          exact absurd hx (by decide)
  · rintro (hno | ⟨hempty, hall⟩)
    · -- nothing is skipped
      obtain ⟨e, he, t, ht⟩ := h.headerLines_prefix ha.1 hread
      have hmore : moreHeader rest = outputString rest := by
        cases rest with
        | nil => rfl
        | cons b rest =>
            have hb : isEol b = false := hno b rfl
            rw [moreHeader, outputString, List.takeWhile_cons]
            split_ifs
            · rw [List.dropWhile_cons_of_neg (by simp [hb])]
            · rfl
      refine ⟨e, t ++ ([13, 10, 13, 10] ++ html), he, ?_, ?_⟩
      · exact (List.suffix_append _ _).trans (List.suffix_append _ _)
      · rw [hmore, ← ht]
        simp only [List.append_assoc]
    · have hmore : moreHeader rest = [] := List.dropWhile_eq_nil_iff.mpr hall
      have hlines : headerLines out v a = [] := by
        rw [h.headerLines_eq, hstarts.mpr hempty, Nat.sub_self, List.take_zero]
      refine ⟨[13, 10], [13, 10] ++ html, Or.inr rfl, List.suffix_append _ _, ?_⟩
      rw [hmore, hlines]
      rfl

end LocationLine

/-! ### The redirection -/

/-- The string that the searches see lies in the buffer. -/
lemma AtHeader.hasStr {out : Bytes} {r : Request} (h : AtHeader out r) :
    r.buffer.HasStr (bufferSize / 2) (outputString out) := by
  have happ : outputString out ++ out.dropWhile (· != 0) = out := List.takeWhile_append_dropWhile
  have hlen := congrArg List.length happ
  rw [List.length_append] at hlen
  refine ⟨fun hmem => ?_, ?_, ?_⟩
  · have hb := List.mem_takeWhile_imp hmem
    exact absurd hb (by decide)
  · rw [← Mem.slice_take _ _ out.length _ (by omega), h.data]
    exact (congrArg (List.take (outputString out).length) happ.symm).trans List.take_left
  · cases htail : out.dropWhile (· != 0) with
    | nil =>
        rw [htail, List.length_nil] at hlen
        rw [show (outputString out).length = out.length by omega]
        exact h.zero
    | cons b t =>
        have hb : b = 0 := by
          have hnot := List.head?_dropWhile_not (· != (0 : UInt8)) out
          rw [htail] at hnot
          simpa using hnot
        rw [htail, List.length_cons] at hlen
        have hbyte : out[(outputString out).length]? = some 0 := by
          have hget := congrArg (fun l => l[(outputString out).length]?) happ
          rw [← hget, List.getElem?_append_right le_rfl, Nat.sub_self, htail, hb]
          rfl
        have hmem : (r.buffer.slice (bufferSize / 2) out.length)[(outputString out).length]?
            = some 0 := by rw [h.data, hbyte]
        obtain ⟨hlt, hget⟩ := List.getElem?_eq_some_iff.mp hmem
        rwa [Mem.getElem_slice] at hget

/-- Skipping line ends in a string. -/
lemma skipLineEnds_eq {m : Mem} {v : Bytes} {off stop fuel : ℕ} (hstr : m.HasStr off v)
    (hstop : off + v.length ≤ stop) (hfuel : v.length < fuel) :
    skipLineEnds m stop fuel off = off + (v.takeWhile isEol).length := by
  induction v generalizing off fuel with
  | nil =>
      obtain ⟨fuel, rfl⟩ := Nat.exists_eq_add_of_lt hfuel
      have hzero := Mem.HasStr.nil_iff.mp hstr
      rw [skipLineEnds, if_neg]
      · rfl
      · rw [hzero]
        rintro ⟨hb | hb, -⟩ <;> exact absurd hb (by decide)
  | cons b v ih =>
      obtain ⟨fuel, rfl⟩ := Nat.exists_eq_add_of_lt (Nat.zero_lt_of_lt hfuel)
      obtain ⟨hb, -, hrest⟩ := Mem.HasStr.cons_iff.mp hstr
      rw [List.length_cons] at hstop hfuel
      have heol : isEol b = true ↔ b = 10 ∨ b = 13 := by simp [isEol]
      rw [Nat.zero_add, skipLineEnds, hb, List.takeWhile_cons]
      by_cases hb' : b = 10 ∨ b = 13
      · rw [if_pos ⟨hb', by omega⟩, ih hrest (by omega) (by omega), if_pos (heol.mpr hb'),
          List.length_cons]
        omega
      · rw [if_neg fun h => hb' h.1, if_neg fun h => hb' (heol.mp h)]
        rfl

/-- What `process_cgi_header` passes on as the rest of the header, when the string `w` follows the
line end that it has cut off. -/
lemma moreHdr_eq {m : Mem} {r : Request} {w : Bytes} {off : ℕ} (hstr : m.HasStr off w)
    (hstop : off + w.length ≤ r.headerEnd.off) (hstr' : r.buffer.HasStr off w)
    (hsize : off + w.length ≤ bufferSize) :
    (if skipLineEnds m r.headerEnd.off (bufferSize + 2) off = r.headerEnd.off then []
      else r.bufferString (skipLineEnds m r.headerEnd.off (bufferSize + 2) off))
      = w.dropWhile isEol := by
  have happ : w.takeWhile isEol ++ w.dropWhile isEol = w := List.takeWhile_append_dropWhile
  have hlen := congrArg List.length happ
  rw [List.length_append] at hlen
  rw [skipLineEnds_eq hstr hstop (by omega)]
  split_ifs with hend
  · exact (List.eq_nil_of_length_eq_zero (by omega)).symm
  · have hdrop := hstr'.drop (k := (w.takeWhile isEol).length) (by omega)
    have htail : w.drop (w.takeWhile isEol).length = w.dropWhile isEol :=
      (congrArg (List.drop (w.takeWhile isEol).length) happ.symm).trans List.drop_left
    rw [htail] at hdrop
    rw [Request.bufferString, hdrop.cstr_eq (by omega)]

section

variable {cfg : Config} {env : Env} {out v rest : Bytes} {c : Conn} {a : ℕ}

/-- The request whose location has been cut off at its end. -/
def Conn.urlCut (u : Bytes) (c : Conn) : Conn :=
  c.cgiBegun.upd fun r => { r with buffer := r.buffer.store (urlOff + u.length) [0] }

/-- The value that is looked at. -/
lemma locationValue (h : AtHeader out c.req) (hline : LocationLine out v rest) (ha : Blank out a)
    (hread : a + blankLength out a ≤ (outputString out).length) :
    c.req.bufferString (bufferSize / 2 + 10) = v ++ 10 :: outputString rest := by
  have hstring := hline.string ha hread
  have hpre := hline.length_pre
  have hlen := congrArg List.length hstring
  have htotal := hline.length
  have hroom := h.room
  have hsize : bufferSize = 4096 := rfl
  have hpart := (outputString_begins out).length_le
  rw [List.length_append, hpre, List.length_cons] at hlen
  have hdrop := h.hasStr.drop (k := 10) (by omega)
  have hten : (out.take 10).length = 10 := List.length_take_of_le (by omega)
  rw [hstring, List.append_assoc, List.drop_left' hten] at hdrop
  rw [Request.bufferString, hdrop.cstr_eq]
  rw [List.length_append, List.length_cons]
  omega

/-- The end of the URL. -/
lemma locationStop_eq
    (hvalue : c.req.bufferString (bufferSize / 2 + 10) = v ++ 10 :: outputString rest)
    (hno : 10 ∉ v) :
    bufferSize / 2 + 10 + (((c.req.bufferString (bufferSize / 2 + 10)).takeWhile
      (· != 10)).rdropWhile (· == 13)).length = urlOff + (lineUrl v).length := by
  have htake : (v ++ 10 :: outputString rest).takeWhile (· != 10) = v := by
    rw [List.takeWhile_append_of_pos]
    · simp
    · intro b hb
      exact bne_iff_ne.mpr fun h10 => hno (h10 ▸ hb)
  rw [hvalue, htake]
  rfl

lemma findBlankLine_of_blank {s : Bytes} (h : Blank s a) : ∃ k, findBlankLine s = some k := by
  by_contra hnone
  have hnone' : findBlankLine s = none := Option.eq_none_iff_forall_ne_some.mpr fun k hk =>
    hnone ⟨k, hk⟩
  rw [findBlankLine, Option.orElse_eq_or, Option.or_eq_none_iff, strstr_eq_none_iff (by decide),
    strstr_eq_none_iff (by decide)] at hnone'
  exact h.elim (hnone'.1 a) (hnone'.2 a)

/-- A location is no status. -/
lemma not_status (hloc : hasPrefixCase (str "Location: ") out = true) :
    hasPrefixCase (str "Status: ") out = false := by
  have hl : str "Location: " = 76 :: str "ocation: " := by decide
  have hs : str "Status: " = 83 :: str "tatus: " := by decide
  cases out with
  | nil => rfl
  | cons b out =>
      rw [hasPrefixCase, hl, List.map_cons, List.map_cons, List.isPrefixOf_cons_cons,
        Bool.and_eq_true, beq_iff_eq] at hloc
      rw [hasPrefixCase, hs, List.map_cons, List.map_cons, List.isPrefixOf_cons_cons, ← hloc.1]
      rfl

/-- An output that begins with a location is answered by `cgiLocation`. -/
lemma processCgiHeader_location (h : AtHeader out c.req) (hver : c.req.httpVersion ≠ .http09)
    (hloc : hasPrefixCase (str "Location: ") out = true) (ha : Blank (outputString out) a) :
    processCgiHeader cfg env c
      = (1, (cgiLocation cfg env (bufferSize / 2) c.cgiBegun).setStatus .done) := by
  obtain ⟨k, hk⟩ := findBlankLine_of_blank ha
  rw [processCgiHeader_eq, h.bufferString, hk]
  dsimp only
  rw [if_neg hver, hasPrefixCase_outputString (by decide), not_status hloc, if_neg (by simp),
    hasPrefixCase_outputString (by decide), if_pos hloc, h.line]

/-- The state in which `send_r_moved_temp` is called. -/
lemma movedFrom_urlCut (h : AtHeader out c.req) (hhalf : out.length ≤ bufferSize / 2)
    (hmethod : c.req.method ≠ .head) (hver : c.req.httpVersion ≠ .http09)
    (hline : LocationLine out v rest) (ha : Blank out a)
    (hread : a + blankLength out a ≤ (outputString out).length) :
    MovedFrom (lineUrl v) (moreHeader rest)
      (fun r => if skipLineEnds (c.urlCut (lineUrl v)).req.buffer c.req.headerEnd.off
          (bufferSize + 2) (urlOff + (lineUrl v).length + 1) = r.headerEnd.off then []
        else r.bufferString (skipLineEnds (c.urlCut (lineUrl v)).req.buffer c.req.headerEnd.off
          (bufferSize + 2) (urlOff + (lineUrl v).length + 1))) (c.urlCut (lineUrl v)) := by
  have hstring := hline.string ha hread
  have htotal := hline.length
  have hsize : bufferSize = 4096 := rfl
  have hoff : urlOff = 2058 := rfl
  have hv : lineUrl v ++ v.rtakeWhile (· == 13) = v := List.rdropWhile_append_rtakeWhile
  have hvlen := congrArg List.length hv
  rw [List.length_append] at hvlen
  have hpart := (outputString_begins out).length_le
  have hlen := congrArg List.length hstring
  rw [List.length_append, hline.length_pre, List.length_cons] at hlen
  have hten : (out.take 10).length = 10 := List.length_take_of_le (by omega)
  have hdrop := h.hasStr.drop (k := 10) (by omega)
  rw [hstring, List.append_assoc, List.drop_left' hten] at hdrop
  have hlines := hline.le_of_blank ha
  have htwo : 2 ≤ blankLength out a := by
    rw [blankLength]
    split_ifs <;> omega
  have hcut : (c.urlCut (lineUrl v)).req.buffer
      = c.req.buffer.store (urlOff + (lineUrl v).length) [0] := rfl
  have hsplit : v ++ 10 :: outputString rest
      = lineUrl v ++ (v.rtakeWhile (· == 13) ++ 10 :: outputString rest) := by
    rw [← List.append_assoc, hv]
  have hall : ∀ b ∈ v.rtakeWhile (· == 13) ++ [10], isEol b = true := by
    intro b hb
    rcases List.mem_append.mp hb with hb | hb
    · rw [rtakeWhile_cr v b hb]
      rfl
    · rw [List.mem_singleton.mp hb]
      rfl
  rw [hsplit] at hdrop
  refine ⟨hmethod, hver, h.live, h.empty, ?_, by omega, fun r hsame hend => ?_, fun r => ?_⟩
  · rw [hcut]
    have hurl := hdrop.cut (k := (lineUrl v).length) (by rw [List.length_append]; omega)
    rwa [List.take_left] at hurl
  · -- what follows the URL begins with line ends
    have htail := hdrop.drop (k := (lineUrl v).length + 1) (by
      simp only [List.length_append, List.length_cons]
      omega)
    rw [← List.drop_drop, List.drop_left] at htail
    obtain ⟨w, hw⟩ : ∃ w, w = (v.rtakeWhile (· == 13) ++ 10 :: outputString rest).drop 1 := ⟨_, rfl⟩
    rw [← hw] at htail
    have hwlen : w.length = (v.rtakeWhile (· == 13)).length + (outputString rest).length := by
      rw [hw, List.length_drop, List.length_append, List.length_cons]
      omega
    have hmore : w.dropWhile isEol = moreHeader rest := by
      have happ : v.rtakeWhile (· == 13) ++ 10 :: outputString rest
          = (v.rtakeWhile (· == 13) ++ [10]) ++ outputString rest := by
        rw [List.append_assoc]
        rfl
      rw [hw, happ, List.drop_append_of_le_length (by simp), List.dropWhile_append_of_pos]
      · rfl
      · exact fun b hb => hall b (List.mem_of_mem_drop hb)
    have hhead : r.headerEnd = c.req.headerEnd := hend
    have hstop : r.headerEnd.off = bufferSize / 2 + out.length := by
      rw [hhead, h.stop]
    have hcutTail :
        (c.urlCut (lineUrl v)).req.buffer.HasStr (urlOff + (lineUrl v).length + 1) w := by
      rw [hcut]
      refine htail.congr fun i hi => Mem.store_of_le _ _ ?_
      simp only [List.length_singleton]
      omega
    rw [← hmore, ← hhead]
    refine moreHdr_eq hcutTail (by omega) (hcutTail.congr fun i hi => hsame i ?_) (by omega)
    omega
  · split_ifs
    · exact List.not_mem_nil
    · intro hmem
      have hb := List.mem_takeWhile_imp hmem
      exact absurd hb (by decide)

/-- The answer to a URL is `send_r_moved_temp` on the request whose location has been cut. -/
lemma processCgiHeader_redirect (cfg : Config) (env : Env) (h : AtHeader out c.req)
    (hhalf : out.length ≤ bufferSize / 2) (hmethod : c.req.method ≠ .head)
    (hver : c.req.httpVersion ≠ .http09)
    (hline : LocationLine out v rest) (hurl : IsUrl (lineUrl v)) (ha : Blank out a)
    (hread : a + blankLength out a ≤ (outputString out).length) :
    ∃ moreHdr, MovedFrom (lineUrl v) (moreHeader rest) moreHdr (c.urlCut (lineUrl v)) ∧
      (processCgiHeader cfg env c).2
        = (sendRMovedTemp cfg env (.inBuffer urlOff) moreHdr (c.urlCut (lineUrl v))).setStatus
            .done := by
  have hvalue := locationValue h hline ha hread
  have hstop := locationStop_eq hvalue hline.noLf
  have hblank := (blank_iff_of_begins (outputString_begins out)).mpr ⟨ha, hread⟩
  have hurl' := (isUrl_lineUrl_iff v (outputString rest)).mp hurl
  rw [← hvalue] at hurl'
  have hslash := hurl'.head?_ne
  rw [IsUrl] at hurl'
  rw [processCgiHeader_location h hver hline.begins hblank, cgiLocation]
  refine ⟨fun r => if skipLineEnds (c.urlCut (lineUrl v)).req.buffer c.req.headerEnd.off
      (bufferSize + 2) (urlOff + (lineUrl v).length + 1) = r.headerEnd.off then []
    else r.bufferString (skipLineEnds (c.urlCut (lineUrl v)).req.buffer c.req.headerEnd.off
      (bufferSize + 2) (urlOff + (lineUrl v).length + 1)), ?_, ?_⟩
  · exact movedFrom_urlCut h hhalf hmethod hver hline ha hread
  · have hbegun : c.cgiBegun.req.bufferString (bufferSize / 2 + 10)
        = c.req.bufferString (bufferSize / 2 + 10) := rfl
    dsimp only
    rw [hbegun, if_neg hslash, if_pos hurl', hstop]
    rfl

/-! ### The other pages -/

/-- A page whose body is one text. -/
def htmlPage (cfg : Config) (env : Env) (code : ℕ) (line : String) (body : Bytes) (r : Request) :
    Bytes :=
  statusText cfg env line { r with keepalive := .stopped, responseStatus := code }
    ++ (str "Content-Type: " ++ htmlType ++ str "\r\n\r\n") ++ body

/-- Such a page is said when it fits. -/
lemma sendRPage_said {code : ℕ} {line : String} {body : Bytes} (hmethod : c.req.method ≠ .head)
    (hver : c.req.httpVersion ≠ .http09)
    (hroom : HasRoom (htmlPage cfg env code line body c.req).length c) :
    Said (htmlPage cfg env code line body c.req) c
      (sendRPage cfg env code line htmlField (reqWrite body) c) := by
  have hroom' : HasRoom (htmlPage cfg env code line body c.req).length
      (c.squashKa.setResponse code) := ⟨hroom.live, hroom.fits⟩
  have hpage : htmlPage cfg env code line body c.req
      = statusText cfg env line (c.squashKa.setResponse code).req
        ++ (str "Content-Type: " ++ htmlType ++ str "\r\n\r\n") ++ body := rfl
  rw [hpage] at hroom' ⊢
  have h₁ := (Wrote.refl (c.squashKa.setResponse code)).statusLine cfg env
    hroom' line (by
      rw [List.nil_append, List.length_append, List.length_append, Nat.add_assoc]
      exact Nat.le_add_right _ _)
  have h₂ := h₁.reqWrite hroom' (str "Content-Type: " ++ htmlType ++ str "\r\n\r\n") (by
    rw [List.nil_append]
    exact (List.prefix_append _ _).length_le)
  have hsaid := (h₂.reqWrite hroom' body le_rfl).said hroom.live
  rw [sendRPage_eq hver]
  · exact ⟨hsaid.text, hsaid.kept⟩
  · rw [htmlField, (reqWrite_outputs _ _).method, (statusLine_outputs _ _ _ _).method]
    exact hmethod

/-- The status of a response. -/
lemma statusText_take (cfg : Config) (env : Env) {line : String} (hline : 4 ≤ (str line).length)
    (r : Request) (t : Bytes) :
    ((statusText cfg env line r ++ t).drop 8).take 4 = (str line).take 4 := by
  have hver : (httpVerString r.httpVersion).length = 8 := by
    cases r.httpVersion <;> rfl
  rw [statusText]
  simp only [List.append_assoc]
  rw [List.drop_left' hver, List.take_append_of_le_length hline]

lemma Said.unique {bs bs' : Bytes} {c' : Conn} (h : Said bs c c') (h' : Said bs' c c') : bs = bs' :=
  h.text.symm.trans h'.text

/-- The body of `send_r_bad_request`. -/
def badRequestBody : String :=
  "<HTML><HEAD><TITLE>400 Bad Request</TITLE></HEAD>\n" ++
    "<BODY><H1>400 Bad Request</H1>\nYour client has issued " ++
    "a malformed or illegal request.\n</BODY></HTML>\n"

/-- The body of `send_r_bad_gateway`. -/
def badGatewayBody : String :=
  "<HTML><HEAD><TITLE>502 Bad Gateway</TITLE></HEAD>\n" ++
    "<BODY><H1>502 Bad Gateway</H1>\nThe CGI was " ++
    "not CGI/1.1 compliant.\n</BODY></HTML>\n"

/-- The page of `send_r_bad_request`. -/
def badRequestPage (cfg : Config) (env : Env) (r : Request) : Bytes :=
  htmlPage cfg env 400 " 400 Bad Request\r\n" (str badRequestBody) r

/-- The page of `send_r_bad_gateway`. -/
def badGatewayPage (cfg : Config) (env : Env) (r : Request) : Bytes :=
  htmlPage cfg env 502 " 502 Bad Gateway\r\n" (str badGatewayBody) r

lemma htmlPage_hasRoom {code : ℕ} {line : String} {body : Bytes}
    (hlive : c.req.status.code ≤ ReqStatus.done.code) (hempty : c.req.bufferEnd = 0)
    (hdate : (env.rfc822 0).length = 29) (hline : (str line).length ≤ 100)
    (hbody : body.length ≤ 1000) : HasRoom (htmlPage cfg env code line body c.req).length c := by
  have hstatus := length_statusText_le cfg hdate line (c.squashKa.setResponse code).req
  have hpage : htmlPage cfg env code line body c.req
      = statusText cfg env line (c.squashKa.setResponse code).req
        ++ (str "Content-Type: " ++ htmlType ++ str "\r\n\r\n") ++ body := rfl
  have htype : (str "Content-Type: " ++ htmlType ++ str "\r\n\r\n").length = 47 := by decide
  have hlen : (htmlPage cfg env code line body c.req).length ≤ bufferSize := by
    rw [hpage, List.length_append, List.length_append, htype, bufferSize]
    omega
  exact ⟨hlive, by omega⟩

lemma sendRBadRequest_said (cfg : Config) (h : AtHeader out c.req) (hmethod : c.req.method ≠ .head)
    (hver : c.req.httpVersion ≠ .http09) (hdate : (env.rfc822 0).length = 29) :
    Said (badRequestPage cfg env c.req) c (sendRBadRequest cfg env c) := by
  rw [sendRBadRequest]
  exact sendRPage_said hmethod hver
    (htmlPage_hasRoom h.live h.empty hdate (by decide) (by decide +kernel))

lemma sendRBadGateway_said (cfg : Config) (h : AtHeader out c.req) (hmethod : c.req.method ≠ .head)
    (hver : c.req.httpVersion ≠ .http09) (hdate : (env.rfc822 0).length = 29) :
    Said (badGatewayPage cfg env c.req) c (sendRBadGateway cfg env c) := by
  rw [sendRBadGateway]
  exact sendRPage_said hmethod hver
    (htmlPage_hasRoom h.live h.empty hdate (by decide) (by decide +kernel))

lemma AtHeader.cgiBegun (h : AtHeader out c.req) : AtHeader out c.cgiBegun.req :=
  ⟨h.cgiType, h.live, h.empty, h.line, h.stop, h.data, h.zero, h.room, h.version⟩

/-- An output whose blank line cannot be read is answered with 502. -/
lemma processCgiHeader_unreadable (cfg : Config) (h : AtHeader out c.req)
    (hmethod : c.req.method ≠ .head) (hver : c.req.httpVersion ≠ .http09)
    (hdate : (env.rfc822 0).length = 29)
    (hno : ¬HeaderReadable out) :
    Said (badGatewayPage cfg env c.req) c (processCgiHeader cfg env c).2 := by
  have hnone : findBlankLine (outputString out) = none := by
    refine Option.eq_none_iff_forall_ne_some.mpr fun k hk => ?_
    obtain ⟨a, ha⟩ : ∃ a, stripAnchor (outputString out) = some a := by
      rw [← Option.isSome_iff_exists, ← Option.ne_none_iff_isSome]
      exact fun hall => stripAnchor_eq_none_iff.mp hall k (findBlankLine_blank hk)
    exact hno ⟨a, (firstBlank_iff_of_begins (outputString_begins out)).mp
      (stripAnchor_eq_some_iff.mp ha)⟩
  have hsaid := sendRBadGateway_said cfg h.cgiBegun hmethod hver hdate
  rw [processCgiHeader_eq, h.bufferString, hnone]
  exact ⟨hsaid.text, hsaid.kept⟩

/-- A location that is no URL is answered with 400. -/
lemma processCgiHeader_refused (cfg : Config) (h : AtHeader out c.req)
    (hmethod : c.req.method ≠ .head) (hver : c.req.httpVersion ≠ .http09)
    (hdate : (env.rfc822 0).length = 29)
    (hline : LocationLine out v rest) (hurl : ¬IsUrl (lineUrl v)) (ha : Blank out a)
    (hread : a + blankLength out a ≤ (outputString out).length) :
    Said (badRequestPage cfg env c.req) c (processCgiHeader cfg env c).2 := by
  have hvalue := locationValue h hline ha hread
  have hblank := (blank_iff_of_begins (outputString_begins out)).mpr ⟨ha, hread⟩
  have hsaid := sendRBadRequest_said cfg h.cgiBegun hmethod hver hdate
  rw [isUrl_lineUrl_iff v (outputString rest), ← hvalue, IsUrl] at hurl
  have hbegun : c.cgiBegun.req.bufferString (bufferSize / 2 + 10)
      = c.req.bufferString (bufferSize / 2 + 10) := rfl
  rw [processCgiHeader_location h hver hline.begins hblank, cgiLocation]
  dsimp only
  rw [hbegun, if_neg hurl, ite_self]
  exact ⟨hsaid.text, hsaid.kept⟩

/-! ### When redirections are faithful -/

/-- The location on the line `v` is redirected to faithfully: the value is the escaped URL, on
one line; the other header lines of the output follow, then the empty line; and the anchor of
the page is the URL. -/
structure RedirectsTo (cfg : Config) (env : Env) (out v : Bytes) (c c' : Conn) : Prop where
  oneLine : 10 ∉ (lineUrl v).flatMap escapeHttp ∧ 13 ∉ (lineUrl v).flatMap escapeHttp
  said : ∃ a e tail, FirstBlank out a ∧ (e = [10] ∨ e = [13, 10]) ∧
    str movedAnchor ++ (lineUrl v).flatMap escapeHtml ++ movedEnd <:+ tail ∧
    Said (movedHead cfg env c.req ++ (lineUrl v).flatMap escapeHttp ++ crlf
      ++ headerLines out v a ++ e ++ tail) c c'

/-- An output that begins with a location is answered faithfully: a URL is redirected to, and
every other value is refused. -/
structure AnswersLocation (cfg : Config) (env : Env) (out : Bytes) (c : Conn) : Prop where
  redirects : ∀ v rest, LocationLine out v rest → IsUrl (lineUrl v) →
    RedirectsTo cfg env out v c (processCgiHeader cfg env c).2
  refuses : (∀ v rest, LocationLine out v rest → ¬IsUrl (lineUrl v)) →
    Said (badRequestPage cfg env c.req) c (processCgiHeader cfg env c).2

/-- The escaped URL is on one line. -/
lemma escapeHttp_oneLine (u : Bytes) : 10 ∉ u.flatMap escapeHttp ∧ 13 ∉ u.flatMap escapeHttp := by
  constructor
  all_goals
    intro hmem
    obtain ⟨b, -, hb⟩ := List.mem_flatMap.mp hmem
    rcases mem_escapeHttp hb with ⟨rfl, h⟩ | h | h
    · exact absurd h (by decide)
    · exact absurd h (by decide)
    · exact absurd h (by decide)

/-- An output whose header can be read and that begins with a location has its line. -/
lemma exists_locationLine (hloc : hasPrefixCase (str "Location: ") out = true) (ha : Blank out a) :
    ∃ v rest, LocationLine out v rest := by
  have hten := (blank_iff.mp ha).1
  have hle := ten_le_of_location hten hloc
  have hmem : (10 : UInt8) ∈ out.drop 10 := by
    refine List.mem_of_getElem? (i := a - 10) ?_
    rw [List.getElem?_drop, Nat.add_sub_cancel' hle]
    exact hten
  obtain ⟨v, rest, hsplit, hno⟩ := List.eq_append_cons_of_mem hmem
  exact ⟨v, rest, hloc, hsplit, hno⟩

/-- The page of a redirection, with the rest of the header apart. -/
lemma movedPage_eq (cfg : Config) (env : Env) (r : Request) (u more : Bytes) :
    movedPage cfg env r u more = movedHead cfg env r ++ u.flatMap escapeHttp ++ crlf
      ++ (more ++ (str "\r\n\r\n" ++ (str movedAnchor ++ u.flatMap escapeHtml ++ movedEnd))) := by
  rw [movedPage, movedFront]
  simp only [List.append_assoc]

/-- When the redirection to a URL is faithful. -/
lemma redirectsTo_iff (h : AtHeader out c.req) (hhalf : out.length ≤ bufferSize / 2)
    (hmethod : c.req.method ≠ .head) (hver : c.req.httpVersion ≠ .http09)
    (hdate : (env.rfc822 0).length = 29) (hline : LocationLine out v rest)
    (hurl : IsUrl (lineUrl v)) (ha : FirstBlank out a)
    (hread : a + blankLength out a ≤ (outputString out).length) :
    RedirectsTo cfg env out v c (processCgiHeader cfg env c).2 ↔
      HeaderGoesOn rest ∧ StaysBehind cfg env c.req (lineUrl v) (moreHeader rest) := by
  obtain ⟨moreHdr, hfrom, hproc⟩ := processCgiHeader_redirect cfg env h hhalf
    hmethod hver hline hurl ha.1 hread
  have hlines := hline.headerLines_iff ha hread
    (str movedAnchor ++ (lineUrl v).flatMap escapeHtml ++ movedEnd)
  have hcut : movedPage cfg env (c.urlCut (lineUrl v)).req (lineUrl v) (moreHeader rest)
      = movedPage cfg env c.req (lineUrl v) (moreHeader rest) := rfl
  have hbehind : StaysBehind cfg env (c.urlCut (lineUrl v)).req (lineUrl v) (moreHeader rest) ↔
      StaysBehind cfg env c.req (lineUrl v) (moreHeader rest) := Iff.rfl
  rw [hproc]
  constructor
  · rintro ⟨-, b, e, tail, hb, he, htail, htext, hkept⟩
    obtain rfl := ha.unique hb
    have hstays : StaysBehind cfg env c.req (lineUrl v) (moreHeader rest) := by
      by_contra hno
      have hgone := sendRMovedTemp_gaveUp hfrom hdate (hbehind.not.mpr hno)
      exact hgone.not_said ⟨htext, hkept⟩
    have hsaid := sendRMovedTemp_said hfrom hdate (hbehind.mpr hstays)
    have heq := hsaid.text.symm.trans htext
    rw [hcut, movedPage_eq] at heq
    simp only [List.append_assoc] at heq
    have hrest := List.append_cancel_left (List.append_cancel_left (List.append_cancel_left heq))
    refine ⟨hlines.mp ⟨e, tail, he, htail, ?_⟩, hstays⟩
    simpa only [List.append_assoc] using hrest
  · rintro ⟨hgoes, hstays⟩
    obtain ⟨e, tail, he, htail, heq⟩ := hlines.mpr hgoes
    have hsaid := sendRMovedTemp_said hfrom hdate (hbehind.mpr hstays)
    rw [hcut, movedPage_eq, heq] at hsaid
    refine ⟨escapeHttp_oneLine _, a, e, tail, ha, he, htail, ?_, hsaid.kept⟩
    simp only [List.append_assoc] at hsaid ⊢
    exact hsaid.text

/-- **Redirections of scripts** are faithful, and other locations refused, exactly when the
blank line can be read and, for a URL, the header goes on behind it or the body is empty, and
the page stays behind the URL in the buffer. -/
theorem cgi_redirect_iff (h : AtHeader out c.req) (hhalf : out.length ≤ bufferSize / 2)
    (hget : c.req.method = .get) (hver : c.req.httpVersion ≠ .http09)
    (hdate : (env.rfc822 0).length = 29) (hloc : hasPrefixCase (str "Location: ") out = true) :
    AnswersLocation cfg env out c ↔ HeaderReadable out ∧
      ∀ v rest, LocationLine out v rest → IsUrl (lineUrl v) →
        HeaderGoesOn rest ∧ StaysBehind cfg env c.req (lineUrl v) (moreHeader rest) := by
  have hmethod : c.req.method ≠ .head := by
    rw [hget]
    decide
  constructor
  · intro hanswers
    have hread : HeaderReadable out := by
      by_contra hno
      have hsaid := processCgiHeader_unreadable cfg h hmethod hver hdate hno
      by_cases hurl : ∃ v rest, LocationLine out v rest ∧ IsUrl (lineUrl v)
      · obtain ⟨v, rest, hline, hurl⟩ := hurl
        obtain ⟨-, b, e, tail, -, -, -, hmoved⟩ := hanswers.redirects v rest hline hurl
        have heq := congrArg (fun t => (t.drop 8).take 4) (hsaid.unique hmoved)
        rw [badGatewayPage, htmlPage, movedHead] at heq
        simp only [List.append_assoc] at heq
        rw [statusText_take _ _ (by decide), statusText_take _ _ (by decide)] at heq
        exact absurd heq (by decide)
      · have hrefused := hanswers.refuses fun v rest hline hu => hurl ⟨v, rest, hline, hu⟩
        have heq := congrArg (fun t => (t.drop 8).take 4) (hsaid.unique hrefused)
        rw [badGatewayPage, badRequestPage, htmlPage, htmlPage] at heq
        simp only [List.append_assoc] at heq
        rw [statusText_take _ _ (by decide), statusText_take _ _ (by decide)] at heq
        exact absurd heq (by decide)
    refine ⟨hread, fun v rest hline hurl => ?_⟩
    obtain ⟨a, ha, hle⟩ := hread
    exact (redirectsTo_iff h hhalf hmethod hver hdate hline hurl ha hle).mp
      (hanswers.redirects v rest hline hurl)
  · rintro ⟨⟨a, ha, hle⟩, hurls⟩
    refine ⟨fun v rest hline hurl => ?_, fun hno => ?_⟩
    · exact (redirectsTo_iff h hhalf hmethod hver hdate hline hurl ha hle).mpr
        (hurls v rest hline hurl)
    · obtain ⟨v, rest, hline⟩ := exists_locationLine hloc ha.1
      exact processCgiHeader_refused cfg h hmethod hver hdate hline (hno v rest hline) ha.1 hle

end

/-! ### Three outputs -/

/-- A location with another header line behind it. -/
theorem cgi_redirect_goes_on :
    AnswersLocation {} datedEnv (str "Location: http://a/b?c\nX-A: 1\n\nbody")
      (scriptAnswer .get (str "Location: http://a/b?c\nX-A: 1\n\nbody")) := by
  refine (cgi_redirect_iff (scriptAnswer_atHeader (by decide)) (by decide) rfl (by decide)
    (by decide) (by decide)).mpr
    ⟨⟨29, stripAnchor_eq_some_iff.mp (by decide), by decide⟩, fun v rest hline _ => ?_⟩
  obtain ⟨rfl, rfl⟩ := hline.eq_of
  refine ⟨Or.inl (by decide +kernel), ?_⟩
  rw [StaysBehind]
  decide +kernel

/-- The body stands in the head when it follows the location. -/
theorem cgi_redirect_body_in_head : ∃ out c, AtHeader out c.req ∧
    out = str "Location: http://a/\n\nSet-Cookie: x" ∧ ¬AnswersLocation {} datedEnv out c := by
  have hat : AtHeader (str "Location: http://a/\n\nSet-Cookie: x")
      (scriptAnswer .get (str "Location: http://a/\n\nSet-Cookie: x")).req :=
    scriptAnswer_atHeader (by decide)
  have hfirst : FirstBlank (str "Location: http://a/\n\nSet-Cookie: x") 19 :=
    stripAnchor_eq_some_iff.mp (by decide)
  have hline : LocationLine (str "Location: http://a/\n\nSet-Cookie: x") (str "http://a/")
      (str "\nSet-Cookie: x") := ⟨by decide, by decide, by decide⟩
  refine ⟨_, _, hat, rfl, fun hanswers => ?_⟩
  have hto := hanswers.redirects _ _ hline (Or.inl (by decide))
  rw [redirectsTo_iff hat (by decide) (by decide) (by decide) (by decide) hline (Or.inl (by decide))
    hfirst (by decide)] at hto
  have hno : ¬HeaderGoesOn (str "\nSet-Cookie: x") := by
    rw [HeaderGoesOn, StartsEmpty]
    decide
  exact hno hto.1

end Yabwf
