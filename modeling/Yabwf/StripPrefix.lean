import Yabwf.Util

/-!
`strip_cgi_prefix` of `cgi_header.c`, in the build with `CGI_STRIP_PREFIX`: what a script
prints in front of its header is dropped. Positions are offsets into the output of the
script; what is logged is left out.

* `findLineStart`, `inlineSearch`, `stripLoop`, `stripCgiPrefix`: the source.
* `Blank`, `stripAnchor_eq_some_iff`: the anchor is the first blank line.
* `LineBefore`, `findLineStart_spec`: the line in front of a position; its ending is the
  whole run of carriage returns and line feeds behind its content.
* `HeaderRun`: the header lines in front of the blank line, one after the other.
* `stripFrom_of_run`: the scan walks up the run, and the line in front of it decides.
* `stripCgiPrefix_stripsExactly`: the header block and the body are kept, a header run with no
  match in front of it is found exactly, and stripping twice is stripping once.
-/

namespace Yabwf

/-! ### `cgi_header.c` -/

/-- A letter of the C locale. -/
def isAlpha (b : UInt8) : Bool := (65 ≤ b && b ≤ 90) || (97 ≤ b && b ≤ 122)

/-- A character of a header name behind its first. -/
def isNameChar (b : UInt8) : Bool := isAlnum b || b == 45

/-- `matches_wildcard_pattern`: a name, a colon and a space. -/
def matchesWildcardPattern (line : Bytes) : Bool :=
  match line with
  | [] => false
  | b :: p => isAlpha b && (str ": ").isPrefixOf (p.dropWhile isNameChar)

/-- A carriage return or a line feed. -/
def isEol (b : UInt8) : Bool := b == 10 || b == 13

/-- The first loop of `find_line_start`: back over line endings. -/
def skipEol (buf : Bytes) : ℕ → ℕ
  | 0 => 0
  | p + 1 => if (buf[p]?.map isEol).getD false then skipEol buf p else p + 1

/-- The second loop of `find_line_start`: back to a line feed, or to the start. -/
def backToLine (buf : Bytes) : ℕ → ℕ
  | 0 => if buf[0]? = some 10 then 1 else 0
  | p + 1 => if buf[p + 1]? = some 10 then p + 2 else backToLine buf p

/-- `find_line_start`. -/
def findLineStart (buf : Bytes) (pos : ℕ) : ℕ :=
  if skipEol buf pos = 0 then 0 else backToLine buf (skipEol buf pos - 1)

/-- Whether a line starts with a token or with the wildcard pattern. -/
def startsHeader (tokens : List Bytes) (line : Bytes) : Bool :=
  tokens.any (fun token => hasPrefixCase token line) || matchesWildcardPattern line

/-- A search for matches at the `n` positions from `lineStart` on; `last` is kept if there
are none. -/
def searchLine (buf : Bytes) (hit : Bytes → Bool) (lineStart n : ℕ) (last : Option ℕ) :
    Option ℕ :=
  (List.range n).foldl (fun last i =>
    if hit (buf.drop (lineStart + i)) then some (lineStart + i) else last) last

/-- One pass of the search for each token, in their order. -/
def searchTokens (buf : Bytes) (lineStart pos : ℕ) (last : Option ℕ) (tokens : List Bytes) :
    Option ℕ :=
  tokens.foldl (fun last token =>
    searchLine buf (hasPrefixCase token) lineStart (pos + 1 - token.length - lineStart) last) last

/-- The search for the last match within a line: the passes for the tokens, and then one
for the wildcard pattern. -/
def inlineSearch (tokens : List Bytes) (buf : Bytes) (lineStart pos : ℕ) : Option ℕ :=
  searchLine buf matchesWildcardPattern lineStart (pos - 1 - lineStart)
    (searchTokens buf lineStart pos none tokens)

/-- The loop of `strip_cgi_prefix`, which has no bound in the source. -/
def stripLoop (tokens : List Bytes) (buf : Bytes) : ℕ → ℕ → Option ℕ
  | 0, _ => none
  | fuel + 1, pos =>
      let lineStart := findLineStart buf pos
      if startsHeader tokens (buf.drop lineStart) then
        if lineStart = 0 then some 0 else stripLoop tokens buf fuel lineStart
      else some ((inlineSearch tokens buf lineStart pos).getD pos)

/-- The separator that `strip_cgi_prefix` starts from. -/
def stripAnchor (buf : Bytes) : Option ℕ :=
  match strstr (str "\n\r\n") buf, strstr (str "\n\n") buf with
  | some a, some p => some (if p < a then p else a)
  | some a, none => some a
  | none, some p => some p
  | none, none => strstr (str "\r\n\r\n") buf

/-- `strip_cgi_prefix`: the offset of what it returns. -/
def stripCgiPrefix (cgiStripPrefix : Bool) (tokens : List Bytes) (buf : Bytes) : Option ℕ :=
  if !cgiStripPrefix then some 0
  else
    match stripAnchor buf with
    | none => some 0
    | some anchor => stripLoop tokens buf (anchor + 1) anchor

/-! ### The blank line -/

lemma strstr_eq_some_iff {pat s : Bytes} {k : ℕ} :
    strstr pat s = some k ↔ pat <+: s.drop k ∧ k ≤ s.length ∧ ∀ j < k, ¬ pat <+: s.drop j := by
  induction s generalizing k with
  | nil =>
      rw [strstr]
      constructor
      · intro h
        split_ifs at h with hpat
        obtain rfl := Option.some.inj h
        simp [hpat]
      · rintro ⟨hpat, hk, -⟩
        obtain rfl : k = 0 := by simpa using hk
        rw [if_pos (by simpa using hpat)]
  | cons b s ih =>
      rw [strstr]
      by_cases hpat : pat.isPrefixOf (b :: s)
      · rw [if_pos hpat]
        have hpat' : pat <+: b :: s := List.isPrefixOf_iff_prefix.mp hpat
        constructor
        · intro h
          obtain rfl := Option.some.inj h
          exact ⟨hpat', Nat.zero_le _, by simp⟩
        · rintro ⟨-, -, hmin⟩
          cases k with
          | zero => rfl
          | succ k => exact absurd hpat' (hmin 0 (Nat.succ_pos k))
      · rw [if_neg hpat]
        have hpat' : ¬ pat <+: b :: s := fun h => hpat (List.isPrefixOf_iff_prefix.mpr h)
        constructor
        · intro h
          obtain ⟨j, hj, rfl⟩ := Option.map_eq_some_iff.mp h
          obtain ⟨h₁, h₂, h₃⟩ := ih.mp hj
          refine ⟨h₁, Nat.succ_le_succ h₂, fun i hi => ?_⟩
          cases i with
          | zero => exact hpat'
          | succ i => exact h₃ i (Nat.lt_of_succ_lt_succ hi)
        · rintro ⟨h₁, h₂, h₃⟩
          cases k with
          | zero => exact absurd h₁ hpat'
          | succ k =>
              have := ih.mpr ⟨h₁, Nat.le_of_succ_le_succ h₂, fun j hj => h₃ (j + 1) (by omega)⟩
              rw [this]
              rfl

lemma strstr_eq_none_iff {pat s : Bytes} (hpat : pat ≠ []) :
    strstr pat s = none ↔ ∀ j, ¬ pat <+: s.drop j := by
  induction s with
  | nil => simp [strstr, hpat]
  | cons b s ih =>
      rw [strstr]
      by_cases h : pat.isPrefixOf (b :: s)
      · rw [if_pos h]
        have : ¬ ∀ j, ¬ pat <+: (b :: s).drop j := fun hall =>
          hall 0 (List.isPrefixOf_iff_prefix.mp h)
        simp [this]
      · rw [if_neg h, Option.map_eq_none_iff, ih]
        constructor
        · intro hall j
          cases j with
          | zero => exact fun h' => h (List.isPrefixOf_iff_prefix.mpr h')
          | succ j => exact hall j
        · exact fun hall j => hall (j + 1)

/-- A blank line at an offset: a line feed, and another one at once or behind a carriage
return. -/
def Blank (buf : Bytes) (a : ℕ) : Prop :=
  str "\n\r\n" <+: buf.drop a ∨ str "\n\n" <+: buf.drop a

/-- The first blank line. -/
def FirstBlank (buf : Bytes) (a : ℕ) : Prop := Blank buf a ∧ ∀ b < a, ¬ Blank buf b

lemma stripAnchor_eq_none_iff {buf : Bytes} : stripAnchor buf = none ↔ ∀ a, ¬ Blank buf a := by
  rw [stripAnchor]
  cases hcr : strstr (str "\n\r\n") buf with
  | some a =>
      have hblank : Blank buf a := Or.inl (strstr_eq_some_iff.mp hcr).1
      cases strstr (str "\n\n") buf <;> simpa using ⟨a, hblank⟩
  | none =>
      have hcr' := (strstr_eq_none_iff (by decide)).mp hcr
      cases hlf : strstr (str "\n\n") buf with
      | some p =>
          have hblank : Blank buf p := Or.inr (strstr_eq_some_iff.mp hlf).1
          simpa using ⟨p, hblank⟩
      | none =>
          have hlf' := (strstr_eq_none_iff (by decide)).mp hlf
          have hfallback : strstr (str "\r\n\r\n") buf = none := by
            rw [strstr_eq_none_iff (by decide)]
            rintro j ⟨t, ht⟩
            refine hcr' (j + 1) ⟨t, ?_⟩
            rw [← List.drop_drop, ← ht]
            rfl
          rw [hfallback]
          exact ⟨fun _ a ha => ha.elim (hcr' a) (hlf' a), fun _ => rfl⟩

/-- The anchor is the first blank line. -/
lemma stripAnchor_eq_some_iff {buf : Bytes} {a : ℕ} :
    stripAnchor buf = some a ↔ FirstBlank buf a := by
  have hfirst {a' : ℕ} (h : stripAnchor buf = some a') : FirstBlank buf a' := by
    rw [stripAnchor] at h
    cases hcr : strstr (str "\n\r\n") buf with
    | some i =>
        obtain ⟨hi, -, hmin⟩ := strstr_eq_some_iff.mp hcr
        cases hlf : strstr (str "\n\n") buf with
        | some j =>
            obtain ⟨hj, -, hmin'⟩ := strstr_eq_some_iff.mp hlf
            rw [hcr, hlf] at h
            obtain rfl := Option.some.inj h
            split_ifs with hlt
            · exact ⟨Or.inr hj, fun b hb hblank =>
                hblank.elim (hmin b (by omega)) (hmin' b hb)⟩
            · exact ⟨Or.inl hi, fun b hb hblank =>
                hblank.elim (hmin b hb) (hmin' b (by omega))⟩
        | none =>
            rw [hcr, hlf] at h
            obtain rfl := Option.some.inj h
            have hlf' := (strstr_eq_none_iff (by decide)).mp hlf
            exact ⟨Or.inl hi, fun b hb hblank => hblank.elim (hmin b hb) (hlf' b)⟩
    | none =>
        have hcr' := (strstr_eq_none_iff (by decide)).mp hcr
        cases hlf : strstr (str "\n\n") buf with
        | some j =>
            obtain ⟨hj, -, hmin'⟩ := strstr_eq_some_iff.mp hlf
            rw [hcr, hlf] at h
            obtain rfl := Option.some.inj h
            exact ⟨Or.inr hj, fun b hb hblank => hblank.elim (hcr' b) (hmin' b hb)⟩
        | none =>
            have hlf' := (strstr_eq_none_iff (by decide)).mp hlf
            have hnone : stripAnchor buf = none :=
              stripAnchor_eq_none_iff.mpr fun b hblank => hblank.elim (hcr' b) (hlf' b)
            rw [stripAnchor] at hnone
            rw [hnone] at h
            exact absurd h (by simp)
  refine ⟨hfirst, fun h => ?_⟩
  cases hanchor : stripAnchor buf with
  | none => exact absurd h.1 (stripAnchor_eq_none_iff.mp hanchor a)
  | some b =>
      have hb := hfirst hanchor
      rcases Nat.lt_trichotomy a b with hlt | rfl | hlt
      · exact absurd h.1 (hb.2 a hlt)
      · rfl
      · exact absurd hb.1 (h.2 b hlt)

/-! ### Lines -/

/-- `l` is where the line in front of `pos` begins: behind it stand its content, without a
line feed, and its ending, of carriage returns and line feeds. Only the first line may be
without content. -/
structure LineBefore (buf : Bytes) (pos l : ℕ) : Prop where
  start : l = 0 ∨ buf[l - 1]? = some 10
  content : ∃ e, l ≤ e ∧ e ≤ pos ∧ (∀ i, l ≤ i → i < e → buf[i]? ≠ some 10) ∧
    (∀ i, e ≤ i → i < pos → buf[i]?.map isEol = some true) ∧
    (e = 0 ∨ l < e ∧ buf[e - 1]?.map isEol ≠ some true)

lemma skipEol_le (buf : Bytes) (pos : ℕ) : skipEol buf pos ≤ pos := by
  induction pos with
  | zero => exact le_rfl
  | succ p ih =>
      rw [skipEol]
      split_ifs
      · exact ih.trans p.le_succ
      · exact le_rfl

lemma skipEol_spec (buf : Bytes) (pos : ℕ) :
    (∀ i, skipEol buf pos ≤ i → i < pos → buf[i]?.map isEol = some true) ∧
      (skipEol buf pos = 0 ∨ buf[skipEol buf pos - 1]?.map isEol ≠ some true) := by
  induction pos with
  | zero => exact ⟨fun i _ hi => absurd hi (Nat.not_lt_zero i), Or.inl rfl⟩
  | succ p ih =>
      have heol : (buf[p]?.map isEol).getD false = true ↔ buf[p]?.map isEol = some true := by
        cases buf[p]?.map isEol <;> simp
      rw [skipEol]
      split_ifs with h
      · refine ⟨fun i hi hip => ?_, ih.2⟩
        rcases Nat.lt_succ_iff_lt_or_eq.mp hip with hlt | rfl
        · exact ih.1 i hi hlt
        · exact heol.mp h
      · exact ⟨fun i hi hip => by omega, Or.inr fun h' => h (heol.mpr h')⟩

lemma backToLine_spec (buf : Bytes) (p : ℕ) :
    backToLine buf p ≤ p + 1 ∧ (backToLine buf p = 0 ∨ buf[backToLine buf p - 1]? = some 10) ∧
      ∀ i, backToLine buf p ≤ i → i ≤ p → buf[i]? ≠ some 10 := by
  induction p with
  | zero =>
      rw [backToLine]
      split_ifs with h
      · exact ⟨le_rfl, Or.inr h, fun i h₁ h₂ => by omega⟩
      · refine ⟨Nat.zero_le _, Or.inl rfl, fun i _ hi => ?_⟩
        obtain rfl := Nat.le_zero.mp hi
        exact h
  | succ p ih =>
      rw [backToLine]
      split_ifs with h
      · exact ⟨le_rfl, Or.inr h, fun i h₁ h₂ => by omega⟩
      · refine ⟨ih.1.trans (Nat.le_succ _), ih.2.1, fun i h₁ h₂ => ?_⟩
        rcases Nat.le_succ_iff.mp h₂ with hle | rfl
        · exact ih.2.2 i h₁ hle
        · exact h

/-- `find_line_start` finds the line in front of a position. -/
lemma findLineStart_spec (buf : Bytes) (pos : ℕ) :
    LineBefore buf pos (findLineStart buf pos) := by
  obtain ⟨hending, hstop⟩ := skipEol_spec buf pos
  have hle := skipEol_le buf pos
  rw [findLineStart]
  split_ifs with h
  · refine ⟨Or.inl rfl, 0, le_rfl, Nat.zero_le _, fun i _ hi => absurd hi (Nat.not_lt_zero i), ?_,
      Or.inl rfl⟩
    rwa [h] at hending
  · have hlast := hstop.resolve_left h
    obtain ⟨hl, hstart, hcontent⟩ := backToLine_spec buf (skipEol buf pos - 1)
    have hlt : backToLine buf (skipEol buf pos - 1) < skipEol buf pos := by
      refine lt_of_le_of_ne (by omega) fun heq => ?_
      rcases hstart with h0 | h10
      · omega
      · rw [heq] at h10
        exact hlast (by rw [h10]; rfl)
    exact ⟨hstart, skipEol buf pos, hlt.le, hle, fun i h₁ h₂ => hcontent i h₁ (by omega), hending,
      Or.inr ⟨hlt, hlast⟩⟩

namespace LineBefore

variable {buf : Bytes} {pos l l' : ℕ}

lemma le (h : LineBefore buf pos l) : l ≤ pos := by
  obtain ⟨e, h₁, h₂, -⟩ := h.content
  exact h₁.trans h₂

lemma lt (h : LineBefore buf pos l) (hpos : 0 < pos) : l < pos := by
  obtain ⟨e, h₁, h₂, -, -, rfl | ⟨hlt, -⟩⟩ := h.content
  · omega
  · omega

/-- There is one line in front of a position. -/
lemma unique (h : LineBefore buf pos l) (h' : LineBefore buf pos l') : l = l' := by
  have haux {l l' : ℕ} (h : LineBefore buf pos l) (h' : LineBefore buf pos l') : l' ≤ l := by
    obtain ⟨e, h₁, h₂, hcontent, hending, hlast⟩ := h.content
    obtain ⟨e', h₁', h₂', hcontent', hending', hlast'⟩ := h'.content
    have hee : e' ≤ e := by
      by_contra hlt
      obtain ⟨-, hlast'⟩ := hlast'.resolve_left (by omega)
      exact hlast' (hending (e' - 1) (by omega) (by omega))
    by_contra hlt
    have h10 := h'.start.resolve_left (by omega)
    exact hcontent (l' - 1) (by omega) (by omega) h10
  exact le_antisymm (haux h' h) (haux h h')

lemma eq_findLineStart (h : LineBefore buf pos l) : findLineStart buf pos = l :=
  (findLineStart_spec buf pos).unique h

/-- The line when what precedes `r` is dropped. -/
lemma drop (h : LineBefore buf pos l) {r : ℕ} (hr : r ≤ pos) :
    LineBefore (buf.drop r) (pos - r) (l - r) := by
  obtain ⟨e, h₁, h₂, hcontent, hending, hlast⟩ := h.content
  refine ⟨?_, e - r, by omega, by omega, fun i hi hie => ?_, fun i hi hip => ?_, ?_⟩
  · by_cases hle : l ≤ r
    · exact Or.inl (Nat.sub_eq_zero_of_le hle)
    · have h10 := h.start.resolve_left (by omega)
      rw [List.getElem?_drop, show r + (l - r - 1) = l - 1 from by omega]
      exact Or.inr h10
  · rw [List.getElem?_drop]
    exact hcontent (r + i) (by omega) (by omega)
  · rw [List.getElem?_drop]
    exact hending (r + i) (by omega) (by omega)
  · by_cases hle : e ≤ r
    · exact Or.inl (Nat.sub_eq_zero_of_le hle)
    · obtain ⟨hlt, heol⟩ := hlast.resolve_left (by omega)
      rw [List.getElem?_drop, show r + (e - r - 1) = e - 1 from by omega]
      exact Or.inr ⟨by omega, heol⟩

end LineBefore

/-! ### The scan -/

/-- Tokens as `cgi_strip_add_token` is given them: not empty, and without line feeds. -/
def LineTokens (tokens : List Bytes) : Prop := ∀ token ∈ tokens, token ≠ [] ∧ 10 ∉ token

/-- The consecutive header lines in front of the blank line at `a`, for a notion of lines:
they begin at the offset given last. -/
inductive HeaderRun (line : Bytes → ℕ → ℕ → Prop) (tokens : List Bytes) (buf : Bytes) (a : ℕ) :
    ℕ → Prop
  | blank : HeaderRun line tokens buf a a
  | line {s l : ℕ} (h : HeaderRun line tokens buf a s) (hs : 0 < s) (hline : line buf s l)
      (hheader : startsHeader tokens (buf.drop l) = true) : HeaderRun line tokens buf a l

/-- What stripping is to do, for a notion of lines: it ends at or before the first blank
line, exactly at the header run in front of it if the line before the run has no match, and
at the start if there is no such line; and stripping twice is stripping once. -/
def StripsExactly (line : Bytes → ℕ → ℕ → Prop) (tokens : List Bytes) (buf : Bytes) : Prop :=
  ∃ r, stripCgiPrefix true tokens buf = some r ∧
    ((∀ a, ¬ Blank buf a) → r = 0) ∧
    (∀ a, FirstBlank buf a → r ≤ a ∧
      (HeaderRun line tokens buf a 0 → r = 0) ∧
      ∀ s l, HeaderRun line tokens buf a s → 0 < s → line buf s l →
        (∀ i, l ≤ i → i < s → startsHeader tokens (buf.drop i) = false) → r = s) ∧
    stripCgiPrefix true tokens (buf.drop r) = some 0

section Scan

variable {tokens : List Bytes} {buf : Bytes}

lemma HeaderRun.le {a s : ℕ} (h : HeaderRun LineBefore tokens buf a s) : s ≤ a := by
  induction h with
  | blank => exact le_rfl
  | line _ _ hline _ ih => exact hline.le.trans ih

/-- Fuel above the position is enough, and more of it changes nothing. -/
lemma stripLoop_of_lt {fuel pos : ℕ} (h : pos < fuel) :
    stripLoop tokens buf fuel pos = stripLoop tokens buf (pos + 1) pos := by
  induction pos using Nat.strong_induction_on generalizing fuel with
  | _ pos ih =>
      obtain ⟨fuel, rfl⟩ : ∃ f, fuel = f + 1 := ⟨fuel - 1, by omega⟩
      rw [stripLoop, stripLoop]
      split_ifs with hheader hzero
      · rfl
      · have hpos : 0 < pos := by
          rcases Nat.eq_zero_or_pos pos with rfl | hpos
          · exact absurd rfl hzero
          · exact hpos
        have hlt := (findLineStart_spec buf pos).lt hpos
        rw [ih _ hlt (by omega : findLineStart buf pos < fuel), ih _ hlt hlt]
      · rfl

/-- The loop from a position on. -/
def stripFrom (tokens : List Bytes) (buf : Bytes) (pos : ℕ) : Option ℕ :=
  stripLoop tokens buf (pos + 1) pos

/-- One round of the loop. -/
lemma stripFrom_eq {pos l : ℕ} (hline : LineBefore buf pos l) :
    stripFrom tokens buf pos =
      if startsHeader tokens (buf.drop l) then
        if l = 0 then some 0 else stripFrom tokens buf l
      else some ((inlineSearch tokens buf l pos).getD pos) := by
  rw [stripFrom, stripLoop, hline.eq_findLineStart]
  split_ifs with hheader hzero
  · rfl
  · have hpos : 0 < pos := by
      rcases Nat.eq_zero_or_pos pos with rfl | hpos
      · exact absurd (Nat.le_zero.mp hline.le) hzero
      · exact hpos
    exact stripLoop_of_lt (hline.lt hpos)
  · rfl

lemma stripCgiPrefix_of_firstBlank {a : ℕ} (h : FirstBlank buf a) :
    stripCgiPrefix true tokens buf = stripFrom tokens buf a := by
  rw [stripCgiPrefix, stripAnchor_eq_some_iff.mpr h]
  rfl

/-- The loop walks up a run of header lines. -/
lemma stripFrom_of_run {a s : ℕ} (h : HeaderRun LineBefore tokens buf a s) (hs : 0 < s) :
    stripFrom tokens buf a = stripFrom tokens buf s := by
  induction h with
  | blank => rfl
  | line _ hpos hline hheader ih =>
      rw [ih hpos, stripFrom_eq hline, if_pos hheader, if_neg hs.ne']

/-! ### The search within a line -/

lemma searchLine_succ (hit : Bytes → Bool) (l n : ℕ) (last : Option ℕ) :
    searchLine buf hit l (n + 1) last
      = if hit (buf.drop (l + n)) then some (l + n) else searchLine buf hit l n last := by
  rw [searchLine, List.range_succ, List.foldl_append, ← searchLine]
  rfl

/-- Without a match the result of the passes before is kept. -/
lemma searchLine_of_forall_not {hit : Bytes → Bool} {l n : ℕ} (last : Option ℕ)
    (h : ∀ i < n, hit (buf.drop (l + i)) = false) : searchLine buf hit l n last = last := by
  induction n with
  | zero => rfl
  | succ n ih =>
      rw [searchLine_succ, h n n.lt_succ_self, if_neg (by simp)]
      exact ih fun i hi => h i (Nat.lt_succ_of_lt hi)

/-- With a match it is the last one. -/
lemma searchLine_of_last {hit : Bytes → Bool} {l n i : ℕ} (last : Option ℕ) (hi : i < n)
    (h : hit (buf.drop (l + i)) = true)
    (hlast : ∀ j, i < j → j < n → hit (buf.drop (l + j)) = false) :
    searchLine buf hit l n last = some (l + i) := by
  induction n with
  | zero => exact absurd hi (Nat.not_lt_zero i)
  | succ n ih =>
      rw [searchLine_succ]
      rcases Nat.lt_succ_iff_lt_or_eq.mp hi with hlt | rfl
      · rw [hlast n hlt n.lt_succ_self, if_neg (by simp)]
        exact ih hlt fun j hj hjn => hlast j hj (Nat.lt_succ_of_lt hjn)
      · rw [if_pos h]

/-- A result that is not from a pass before is the last match. -/
lemma searchLine_cases (buf : Bytes) (hit : Bytes → Bool) (l n : ℕ) (last : Option ℕ) :
    (searchLine buf hit l n last = last ∧ ∀ i < n, hit (buf.drop (l + i)) = false) ∨
      ∃ i < n, searchLine buf hit l n last = some (l + i) ∧ hit (buf.drop (l + i)) = true ∧
        ∀ j, i < j → j < n → hit (buf.drop (l + j)) = false := by
  induction n with
  | zero => exact Or.inl ⟨rfl, fun i hi => absurd hi (Nat.not_lt_zero i)⟩
  | succ n ih =>
      rw [searchLine_succ]
      split_ifs with h
      · exact Or.inr ⟨n, n.lt_succ_self, rfl, h, fun j h₁ h₂ => by omega⟩
      · have hn : hit (buf.drop (l + n)) = false := by simpa using h
        rcases ih with ⟨heq, hall⟩ | ⟨i, hi, heq, hhit, hlast⟩
        · refine Or.inl ⟨heq, fun i hi => ?_⟩
          rcases Nat.lt_succ_iff_lt_or_eq.mp hi with hlt | rfl
          · exact hall i hlt
          · exact hn
        · refine Or.inr ⟨i, Nat.lt_succ_of_lt hi, heq, hhit, fun j hij hj => ?_⟩
          rcases Nat.lt_succ_iff_lt_or_eq.mp hj with hlt | rfl
          · exact hlast j hij hlt
          · exact hn

/-- What the passes for tokens find is a match within the line. -/
lemma searchTokens_spec {l pos : ℕ} {P : ℕ → Prop} {ts : List Bytes} {last : Option ℕ}
    (hts : ∀ token ∈ ts, ∀ i, l + i + token.length ≤ pos →
      hasPrefixCase token (buf.drop (l + i)) = true → P (l + i))
    (hlast : ∀ t ∈ last, P t) : ∀ t ∈ searchTokens buf l pos last ts, P t := by
  induction ts generalizing last with
  | nil => exact hlast
  | cons token ts ih =>
      rw [searchTokens, List.foldl_cons, ← searchTokens]
      refine ih (fun token' h' => hts token' (List.mem_cons_of_mem _ h')) ?_
      rcases searchLine_cases buf (hasPrefixCase token) l (pos + 1 - token.length - l) last with
        ⟨heq, -⟩ | ⟨i, hi, heq, hhit, -⟩
      · rwa [heq]
      · rw [heq]
        rintro t ⟨⟩
        exact hts token List.mem_cons_self i (by omega) hhit

/-- What is found within a line is a match in it. -/
lemma inlineSearch_spec (htokens : LineTokens tokens) {l pos t : ℕ}
    (h : inlineSearch tokens buf l pos = some t) :
    l ≤ t ∧ t < pos ∧ startsHeader tokens (buf.drop t) = true := by
  rw [inlineSearch] at h
  rcases searchLine_cases buf matchesWildcardPattern l (pos - 1 - l)
    (searchTokens buf l pos none tokens) with ⟨heq, -⟩ | ⟨i, hi, heq, hhit, -⟩
  · rw [heq] at h
    refine searchTokens_spec
      (P := fun t => l ≤ t ∧ t < pos ∧ startsHeader tokens (buf.drop t) = true)
      (fun token hmem i hi hhit => ?_) (by simp) t h
    have hlen := List.length_pos_of_ne_nil (htokens token hmem).1
    refine ⟨Nat.le_add_right _ _, by omega, ?_⟩
    rw [startsHeader, List.any_eq_true.mpr ⟨token, hmem, hhit⟩, Bool.true_or]
  · rw [heq] at h
    obtain rfl := Option.some.inj h
    exact ⟨Nat.le_add_right _ _, by omega, by rw [startsHeader, hhit, Bool.or_true]⟩

/-! ### The result -/

/-- The loop stops at or before the position it starts from. -/
lemma stripFrom_le (htokens : LineTokens tokens) (buf : Bytes) (pos : ℕ) :
    ∃ r ≤ pos, stripFrom tokens buf pos = some r := by
  induction pos using Nat.strong_induction_on with
  | _ pos ih =>
      have hline := findLineStart_spec buf pos
      rw [stripFrom_eq hline]
      split_ifs with hheader hzero
      · exact ⟨0, Nat.zero_le _, rfl⟩
      · have hpos : 0 < pos := by
          have := hline.le
          omega
        obtain ⟨r, hr, heq⟩ := ih _ (hline.lt hpos)
        exact ⟨r, hr.trans hline.le, heq⟩
      · refine ⟨_, ?_, rfl⟩
        cases hsearch : inlineSearch tokens buf (findLineStart buf pos) pos with
        | none => exact le_rfl
        | some t => exact (inlineSearch_spec htokens hsearch).2.1.le

/-- Where the result stands: at the start, at a header run whose line in front has no match,
or at a match in the line in front of a header run. -/
lemma stripFrom_cases (htokens : LineTokens tokens) (a : ℕ) {s : ℕ}
    (hrun : HeaderRun LineBefore tokens buf a s) : 
    stripFrom tokens buf s = some 0 ∨
    (∃ r, HeaderRun LineBefore tokens buf a r ∧ stripFrom tokens buf s = some r) ∨
    ∃ r t l, HeaderRun LineBefore tokens buf a r ∧ LineBefore buf r l ∧ l ≤ t ∧ t < r ∧
      startsHeader tokens (buf.drop t) = true ∧ stripFrom tokens buf s = some t := by
  induction s using Nat.strong_induction_on with
  | _ s ih =>
      have hline := findLineStart_spec buf s
      rw [stripFrom_eq hline]
      split_ifs with hheader hzero
      · exact Or.inl rfl
      · have hpos : 0 < s := by
          have := hline.le
          omega
        exact ih _ (hline.lt hpos) (hrun.line hpos hline hheader)
      · cases hsearch : inlineSearch tokens buf (findLineStart buf s) s with
        | none => exact Or.inr (Or.inl ⟨s, hrun, rfl⟩)
        | some t =>
            obtain ⟨h₁, h₂, h₃⟩ := inlineSearch_spec htokens hsearch
            exact Or.inr (Or.inr ⟨s, t, _, hrun, hline, h₁, h₂, h₃, rfl⟩)

/-- A header run with no line in front of it. -/
lemma stripFrom_of_run_zero (htokens : LineTokens tokens) {a : ℕ} (ha : FirstBlank buf a)
    (h : HeaderRun LineBefore tokens buf a 0) : stripFrom tokens buf a = some 0 := by
  cases h with
  | blank =>
      obtain ⟨r, hr, heq⟩ := stripFrom_le htokens buf 0
      rw [heq, Nat.le_zero.mp hr]
  | line hrun hs hline hheader =>
      rw [stripFrom_of_run hrun hs, stripFrom_eq hline, if_pos hheader, if_pos rfl]

/-- A header run whose line in front has no match. -/
lemma stripFrom_of_run_line (htokens : LineTokens tokens) {a s l : ℕ}
    (h : HeaderRun LineBefore tokens buf a s) (hs : 0 < s) (hline : LineBefore buf s l)
    (hno : ∀ i, l ≤ i → i < s → startsHeader tokens (buf.drop i) = false) :
    stripFrom tokens buf a = some s := by
  rw [stripFrom_of_run h hs, stripFrom_eq hline, hno l le_rfl (hline.lt hs), if_neg (by simp)]
  cases hsearch : inlineSearch tokens buf l s with
  | none => rfl
  | some t =>
      obtain ⟨h₁, h₂, h₃⟩ := inlineSearch_spec htokens hsearch
      exact absurd h₃ (by rw [hno t h₁ h₂]; simp)

/-! ### Stripping twice -/

lemma blank_drop {r i : ℕ} : Blank (buf.drop r) i ↔ Blank buf (r + i) := by
  rw [Blank, Blank, List.drop_drop]

lemma FirstBlank.drop {a r : ℕ} (h : FirstBlank buf a) (hr : r ≤ a) :
    FirstBlank (buf.drop r) (a - r) := by
  refine ⟨blank_drop.mpr ?_, fun b hb hblank => ?_⟩
  · rw [Nat.add_sub_cancel' hr]
    exact h.1
  · exact h.2 (r + b) (by omega) (blank_drop.mp hblank)

/-- A header run behind what is dropped. -/
lemma HeaderRun.drop {a s r : ℕ} (h : HeaderRun LineBefore tokens buf a s) (hr : r ≤ s) :
    HeaderRun LineBefore tokens (buf.drop r) (a - r) (s - r) := by
  induction h with
  | blank => exact .blank
  | line hrun hs hline hheader ih =>
      have hlt := hline.lt hs
      refine .line (ih (hr.trans hlt.le)) (by omega) (hline.drop (hr.trans hlt.le)) ?_
      rwa [List.drop_drop, Nat.add_sub_cancel' hr]

end Scan

/-- Stripping what has been stripped changes nothing. -/
lemma stripCgiPrefix_idem {tokens : List Bytes} (htokens : LineTokens tokens) {buf : Bytes} {r : ℕ}
    (h : stripCgiPrefix true tokens buf = some r) :
    stripCgiPrefix true tokens (buf.drop r) = some 0 := by
  cases hanchor : stripAnchor buf with
  | none =>
      have hr : r = 0 := by
        rw [stripCgiPrefix, hanchor] at h
        simpa using h.symm
      rw [hr, List.drop_zero, stripCgiPrefix, hanchor]
      rfl
  | some a =>
      have hfirst := stripAnchor_eq_some_iff.mp hanchor
      rw [stripCgiPrefix_of_firstBlank hfirst] at h
      have hrun (hr : r ≤ a) (hzero : HeaderRun LineBefore tokens (buf.drop r) (a - r) 0) :
          stripCgiPrefix true tokens (buf.drop r) = some 0 := by
        rw [stripCgiPrefix_of_firstBlank (hfirst.drop hr)]
        exact stripFrom_of_run_zero htokens (hfirst.drop hr) hzero
      rcases stripFrom_cases htokens a .blank with h0 | ⟨s, hs, heq⟩ |
        ⟨s, t, l, hs, hline, hlt, hts, hheader, heq⟩
      · obtain rfl := Option.some.inj (h.symm.trans h0)
        rw [List.drop_zero, stripCgiPrefix_of_firstBlank hfirst, h]
      · obtain rfl := Option.some.inj (h.symm.trans heq)
        refine hrun hs.le ?_
        simpa using hs.drop le_rfl
      · obtain rfl := Option.some.inj (h.symm.trans heq)
        refine hrun (hts.le.trans hs.le) ?_
        have hline' := hline.drop hts.le
        rw [Nat.sub_eq_zero_of_le hlt] at hline'
        exact .line (hs.drop hts.le) (by omega) hline' (by rwa [List.drop_zero])

/-- **Stripping keeps the header block and the body**, where the ending of a line is the
whole run of carriage returns and line feeds behind its content. -/
theorem stripCgiPrefix_stripsExactly {tokens : List Bytes} (htokens : LineTokens tokens)
    (buf : Bytes) : StripsExactly LineBefore tokens buf := by
  cases hanchor : stripAnchor buf with
  | none =>
      have hnone := stripAnchor_eq_none_iff.mp hanchor
      have heq : stripCgiPrefix true tokens buf = some 0 := by
        rw [stripCgiPrefix, hanchor]
        rfl
      exact ⟨0, heq, fun _ => rfl, fun a ha => absurd ha.1 (hnone a), by rwa [List.drop_zero]⟩
  | some a =>
      have hfirst := stripAnchor_eq_some_iff.mp hanchor
      obtain ⟨r, hr, heq⟩ := stripFrom_le htokens buf a
      have hstrip : stripCgiPrefix true tokens buf = some r := by
        rw [stripCgiPrefix_of_firstBlank hfirst, heq]
      refine ⟨r, hstrip, fun hnone => absurd hfirst.1 (hnone a), fun b hb => ?_,
        stripCgiPrefix_idem htokens hstrip⟩
      obtain rfl : a = b := Option.some.inj (hanchor.symm.trans (stripAnchor_eq_some_iff.mpr hb))
      refine ⟨hr, fun hrun => ?_, fun s l hrun hs hline hno => ?_⟩
      · exact Option.some.inj (heq.symm.trans (stripFrom_of_run_zero htokens hfirst hrun))
      · exact Option.some.inj (heq.symm.trans (stripFrom_of_run_line htokens hrun hs hline hno))

/-- Garbage with a header in it, and the lines that are kept. -/
theorem stripCgiPrefix_stripsExactly_builtin :
    StripsExactly LineBefore [str "Status:", str "Content-Type:"]
      (str "DEBUG: x\nStatus: 200\r\nContent-Type: text/plain\r\n\r\nbody") :=
  stripCgiPrefix_stripsExactly (by unfold LineTokens; decide) _

/-- A line that ends at a line feed, whatever carriage returns stand in front of it. -/
def PlainLine (buf : Bytes) (pos l : ℕ) : Prop :=
  (l = 0 ∨ buf[l - 1]? = some 10) ∧ ∃ e, l ≤ e ∧ e ≤ pos ∧ pos ≤ e + 1 ∧
    (∀ i, l ≤ i → i < e → buf[i]? ≠ some 10) ∧ ∀ i, e ≤ i → i < pos → buf[i]? = some 10

/-- Two carriage returns alone on a line are taken for a part of the ending of the line before,
which is then kept although the line with the returns is no header. -/
theorem stripCgiPrefix_not_plain : ¬ ∀ tokens, LineTokens tokens → ∀ buf,
    StripsExactly PlainLine tokens buf := by
  intro h
  have htokens : LineTokens [str "Content-Type:"] := by
    unfold LineTokens
    decide
  obtain ⟨r, hr, -, hexact, -⟩ := h _ htokens (str "X-A: 1\n\r\r\nContent-Type: a\n\n")
  have hr0 : stripCgiPrefix true [str "Content-Type:"]
      (str "X-A: 1\n\r\r\nContent-Type: a\n\n") = some 0 := by
    decide
  obtain rfl := Option.some.inj (hr.symm.trans hr0)
  have hfirst : FirstBlank (str "X-A: 1\n\r\r\nContent-Type: a\n\n") 25 :=
    stripAnchor_eq_some_iff.mp (by decide)
  obtain ⟨-, -, hrun⟩ := hexact 25 hfirst
  have hct : PlainLine (str "X-A: 1\n\r\r\nContent-Type: a\n\n") 25 10 :=
    ⟨Or.inr (by decide), 25, by decide, le_rfl, by decide, by decide, fun i h₁ h₂ => by omega⟩
  have hcr : PlainLine (str "X-A: 1\n\r\r\nContent-Type: a\n\n") 10 7 :=
    ⟨Or.inr (by decide), 9, by decide, by decide, le_rfl, by decide, by decide⟩
  have := hrun 10 7 (.line .blank (by decide) hct (by decide)) (by decide) hcr (by decide)
  exact absurd this (by decide)

end Yabwf
