import Yabwf.Escapes

/-!
`index_dir.c`: the escapers of the directory indexer, and its buffers.

* `htmlEscapeString`, `httpEscapeString`: the two functions, in loops of their own.
* `htmlEscapeString_eq`: the indexer escapes HTML as the server does.
* `httpEscapeString_eq`: a reference is the escaped name, behind `./` if the name has a colon
  that is not its first character.
* `AllExpanded`: the names every byte of which takes three in a reference.
* `buffersSuffice_iff`: the three buffers hold what is written to them unless a name of the
  greatest length is such a name.
-/

namespace Yabwf

/-! ### The escapers -/

/-- Where an escaper writes to: memory of the caller, or what `malloc` returns for `NULL`. -/
inductive EscapeDest
  | given
  | allocate (ok : Bool)

/-- Whether there is memory to write to; nothing is allocated for an empty string. -/
def EscapeDest.usable (dest : EscapeDest) (max : ℕ) : Bool :=
  match dest with
  | .given => true
  | .allocate ok => decide (max ≠ 0) && ok

/-- The loop of `html_escape_string`. -/
def htmlEscapeLoop : Bytes → Bytes
  | [] => []
  | c :: inp =>
      (if c = 62 then str "&gt;"
        else if c = 60 then str "&lt;"
        else if c = 38 then str "&amp;"
        else if c = 34 then str "&quot;"
        else [c]) ++ htmlEscapeLoop inp

/-- `html_escape_string`, with the text it returns. -/
def htmlEscapeString (inp : Bytes) (dest : EscapeDest) (len : ℕ) : Option Bytes :=
  if dest.usable (len * 6) then some (htmlEscapeLoop inp) else none

/-- `INT_TO_HEX` of `index_dir.c`. -/
def indexIntToHex (x : UInt8) : UInt8 := if 10 ≤ x then 65 + (x - 10) else 48 + x

/-- What `http_escape_string` writes for a character that is no colon to be guarded. -/
def indexEscapeChar (c : UInt8) : Bytes :=
  if c ∉ escapeSpecial ∨ c = 63 then [37, indexIntToHex (c / 16), indexIntToHex (c % 16)] else [c]

/-- The loop of `http_escape_string`: `found` is `found_a_colon`, and `buf` what has been written,
which is moved by two bytes at the first colon behind something. -/
def httpEscapeLoop (found : Bool) (buf : Bytes) : Bytes → Bytes
  | [] => buf
  | c :: inp =>
      if c = 58 ∧ found = false ∧ buf ≠ [] then httpEscapeLoop true (str "./" ++ buf ++ [58]) inp
      else httpEscapeLoop found (buf ++ indexEscapeChar c) inp

/-- `http_escape_string`, with the text it returns. -/
def httpEscapeString (inp : Bytes) (dest : EscapeDest) (len : ℕ) : Option Bytes :=
  if dest.usable (len * 3) then some (httpEscapeLoop false [] inp) else none

/-! ### What they write -/

/-- The two encoders of HTML agree. -/
lemma htmlEscapeLoop_eq (inp : Bytes) : htmlEscapeLoop inp = inp.flatMap escapeHtml := by
  induction inp with
  | nil => rfl
  | cons c inp ih => rw [htmlEscapeLoop, ih, List.flatMap_cons, escapeHtml]

lemma htmlEscapeString_given (inp : Bytes) (len : ℕ) :
    htmlEscapeString inp .given len = some (inp.flatMap escapeHtml) := by
  rw [← htmlEscapeLoop_eq]
  rfl

/-- There is a colon behind the first character. -/
def HasColon (name : Bytes) : Prop := 58 ∈ name.drop 1

instance (name : Bytes) : Decidable (HasColon name) :=
  inferInstanceAs (Decidable (58 ∈ name.drop 1))

lemma indexEscapeChar_colon : indexEscapeChar 58 = [58] := by decide

lemma indexEscapeChar_ne_nil (c : UInt8) : indexEscapeChar c ≠ [] := by
  rw [indexEscapeChar]
  split_ifs <;> simp

lemma httpEscapeLoop_true (buf inp : Bytes) :
    httpEscapeLoop true buf inp = buf ++ inp.flatMap indexEscapeChar := by
  induction inp generalizing buf with
  | nil => simp [httpEscapeLoop]
  | cons c inp ih =>
      rw [httpEscapeLoop, if_neg (by simp), ih, List.flatMap_cons, List.append_assoc]

lemma httpEscapeLoop_false {buf : Bytes} (hbuf : buf ≠ []) (inp : Bytes) :
    httpEscapeLoop false buf inp =
      (if 58 ∈ inp then str "./" else []) ++ buf ++ inp.flatMap indexEscapeChar := by
  induction inp generalizing buf with
  | nil => simp [httpEscapeLoop]
  | cons c inp ih =>
      rw [httpEscapeLoop]
      by_cases hc : c = 58
      · subst hc
        rw [if_pos ⟨rfl, rfl, hbuf⟩, httpEscapeLoop_true, if_pos List.mem_cons_self,
          List.flatMap_cons, indexEscapeChar_colon]
        simp
      · have hmem : 58 ∈ c :: inp ↔ 58 ∈ inp := by simp [Ne.symm hc]
        rw [if_neg fun h => hc h.1, ih (by simp [hbuf]), List.flatMap_cons]
        simp only [hmem]
        simp

/-- **A reference** is the escaped name, guarded by `./` against its colon. -/
lemma httpEscapeLoop_eq (name : Bytes) : httpEscapeLoop false [] name =
    (if HasColon name then str "./" else []) ++ name.flatMap indexEscapeChar := by
  cases name with
  | nil => rfl
  | cons c name =>
      rw [httpEscapeLoop, if_neg (by simp), List.nil_append,
        httpEscapeLoop_false (indexEscapeChar_ne_nil c), List.flatMap_cons, List.append_assoc]
      rfl

lemma httpEscapeString_given (name : Bytes) (len : ℕ) :
    httpEscapeString name .given len =
      some ((if HasColon name then str "./" else []) ++ name.flatMap indexEscapeChar) := by
  rw [← httpEscapeLoop_eq]
  rfl

/-! ### The buffers of `index_directory` -/

/-- `MAXNAMLEN`. -/
def maxNamLen : ℕ := 255

/-- The sizes of `http_filename`, `html_filename` and `escaped_filename`. -/
def httpFilenameSize : ℕ := maxNamLen * 3
def htmlFilenameSize : ℕ := maxNamLen * 6
def escapedFilenameSize : ℕ := maxNamLen * 18

/-- What `index_directory` writes for an entry fits into its buffers, with the terminators. -/
structure BuffersSuffice (name : Bytes) : Prop where
  html : ∀ s ∈ htmlEscapeString name .given name.length, s.length + 1 ≤ htmlFilenameSize
  http : ∀ r ∈ httpEscapeString name .given name.length, r.length + 1 ≤ httpFilenameSize
  escaped : ∀ r ∈ httpEscapeString name .given name.length,
    ∀ s ∈ htmlEscapeString r .given r.length, s.length + 1 ≤ escapedFilenameSize

/-- A byte that takes three in a reference. -/
def Expanded (b : UInt8) : Prop := b ∉ escapeSpecial ∨ b = 63

/-- Every byte of the name takes three in a reference, where a guarded colon counts with its
guard. -/
def AllExpanded (name : Bytes) : Prop :=
  (∀ b ∈ name, Expanded b) ∨
    ∃ front rest, name = front ++ 58 :: rest ∧ front ≠ [] ∧ (∀ b ∈ front, Expanded b) ∧
      ∀ b ∈ rest, Expanded b

lemma length_indexEscapeChar (b : UInt8) :
    (indexEscapeChar b).length ≤ 3 ∧ ((indexEscapeChar b).length = 3 ↔ Expanded b) := by
  rw [indexEscapeChar, Expanded]
  split_ifs with h <;> simp [h]

/-- Each byte takes at most three. -/
lemma length_flatMap_indexEscapeChar (name : Bytes) :
    (name.flatMap indexEscapeChar).length ≤ 3 * name.length ∧
      ((name.flatMap indexEscapeChar).length = 3 * name.length ↔ ∀ b ∈ name, Expanded b) := by
  induction name with
  | nil => simp
  | cons b name ih =>
      obtain ⟨hb, hb'⟩ := length_indexEscapeChar b
      rw [List.flatMap_cons, List.length_append, List.length_cons, List.forall_mem_cons, ← hb',
        ← ih.2]
      omega

lemma not_expanded_colon : ¬Expanded 58 := by
  rw [Expanded, not_or, not_not]
  decide

/-- A reference takes at most three bytes for each byte of the name. -/
lemma length_httpEscapeLoop (name : Bytes) :
    (httpEscapeLoop false [] name).length ≤ 3 * name.length ∧
      ((httpEscapeLoop false [] name).length = 3 * name.length ↔ AllExpanded name) := by
  rw [httpEscapeLoop_eq]
  by_cases hcolon : HasColon name
  · obtain ⟨front, rest, hsplit, hfront⟩ :
        ∃ front rest, name = front ++ 58 :: rest ∧ front ≠ [] := by
      cases name with
      | nil => exact absurd hcolon List.not_mem_nil
      | cons c name =>
          obtain ⟨front, rest, hname⟩ := List.append_of_mem (show 58 ∈ name from hcolon)
          exact ⟨c :: front, rest, by rw [hname, List.cons_append], List.cons_ne_nil _ _⟩
    obtain ⟨hfrontle, hfronteq⟩ := length_flatMap_indexEscapeChar front
    obtain ⟨hrestle, hresteq⟩ := length_flatMap_indexEscapeChar rest
    have hlen : (str "./" ++ name.flatMap indexEscapeChar).length =
        (front.flatMap indexEscapeChar).length + (rest.flatMap indexEscapeChar).length + 3 := by
      rw [hsplit, List.flatMap_append, List.flatMap_cons, indexEscapeChar_colon]
      simp only [List.length_append, List.length_singleton]
      have h : (str "./").length = 2 := by decide
      omega
    have hname : name.length = front.length + rest.length + 1 := by
      rw [hsplit, List.length_append, List.length_cons, Nat.add_assoc]
    rw [if_pos hcolon, hlen]
    refine ⟨by omega, fun heq => Or.inr ⟨front, rest, hsplit, hfront, ?_, ?_⟩, ?_⟩
    · exact hfronteq.mp (by omega)
    · exact hresteq.mp (by omega)
    · rintro (hall | ⟨front', rest', hsplit', -, hfront', hrest'⟩)
      · exact absurd (hall 58 (by simp [hsplit])) not_expanded_colon
      · -- both places are the only colon
        have hsum := (length_flatMap_indexEscapeChar front').2.mpr hfront'
        have hsum' := (length_flatMap_indexEscapeChar rest').2.mpr hrest'
        have hname' : name.length = front'.length + rest'.length + 1 := by
          rw [hsplit', List.length_append, List.length_cons, Nat.add_assoc]
        have hlen' : (name.flatMap indexEscapeChar).length
            = (front'.flatMap indexEscapeChar).length
              + (rest'.flatMap indexEscapeChar).length + 1 := by
          rw [hsplit', List.flatMap_append, List.flatMap_cons, indexEscapeChar_colon]
          simp only [List.length_append, List.length_singleton]
          omega
        rw [List.length_append, hlen'] at hlen
        have h : (str "./").length = 2 := by decide
        omega
  · obtain ⟨hle, heq⟩ := length_flatMap_indexEscapeChar name
    rw [if_neg hcolon, List.nil_append, heq]
    refine ⟨hle, Or.inl, ?_⟩
    rintro (hall | ⟨front, rest, rfl, hfront, -, -⟩)
    · exact hall
    · refine absurd ?_ hcolon
      cases front with
      | nil => exact absurd rfl hfront
      | cons c front => exact List.mem_append_right front List.mem_cons_self

lemma length_escapeHtml_le (b : UInt8) :
    (escapeHtml b).length ≤ 6 ∧ ((escapeHtml b).length = 6 → b = 34) := by
  rw [escapeHtml]
  split_ifs with h₁ h₂ h₃ h₄
  · exact ⟨by decide, fun h => absurd h (by decide)⟩
  · exact ⟨by decide, fun h => absurd h (by decide)⟩
  · exact ⟨by decide, fun h => absurd h (by decide)⟩
  · exact ⟨by decide, fun _ => h₄⟩
  · simp

lemma isAlnum_indexIntToHex {n : UInt8} (h : n < 16) : isAlnum (indexIntToHex n) = true := by
  have hall : ∀ n : Fin 16, isAlnum (indexIntToHex (UInt8.ofNat n)) = true := by decide
  have hn : n.toNat < 16 := h
  simpa using hall ⟨n.toNat, hn⟩

/-- An escaped character is itself, or a percent sign and two digits. -/
lemma mem_indexEscapeChar {b c : UInt8} (h : c ∈ indexEscapeChar b) :
    (c = b ∧ b ∈ escapeSpecial) ∨ c = 37 ∨ isAlnum c = true := by
  rw [indexEscapeChar] at h
  split_ifs at h with hescape
  · simp only [List.mem_cons, List.not_mem_nil, or_false] at h
    rcases h with rfl | rfl | rfl
    · exact Or.inr (Or.inl rfl)
    · exact Or.inr (Or.inr (isAlnum_indexIntToHex (nibbles_lt b).1))
    · exact Or.inr (Or.inr (isAlnum_indexIntToHex (nibbles_lt b).2))
  · rw [not_or, not_not] at hescape
    exact Or.inl ⟨List.mem_singleton.mp h, hescape.1⟩

/-- What is not markup stays as it is. -/
lemma escapeHtml_of_plain {b : UInt8} (h : b = 37 ∨ isAlnum b = true) : escapeHtml b = [b] := by
  have hne : b ≠ 62 ∧ b ≠ 60 ∧ b ≠ 38 ∧ b ≠ 34 := by
    refine ⟨?_, ?_, ?_, ?_⟩
    all_goals
      rintro rfl
      revert h
      decide
  rw [escapeHtml, if_neg hne.1, if_neg hne.2.1, if_neg hne.2.2.1, if_neg hne.2.2.2]

/-- A character that is escaped twice takes five bytes at most. -/
lemma length_flatMap_indexEscapeChar_le (b : UInt8) :
    ((indexEscapeChar b).flatMap escapeHtml).length ≤ 5 := by
  rw [indexEscapeChar]
  split_ifs with hescape
  · simp only [List.flatMap_cons, List.flatMap_nil, escapeHtml_of_plain (Or.inl rfl),
      escapeHtml_of_plain (Or.inr (isAlnum_indexIntToHex (nibbles_lt b).1)),
      escapeHtml_of_plain (Or.inr (isAlnum_indexIntToHex (nibbles_lt b).2))]
    simp
  · rw [not_or, not_not] at hescape
    obtain ⟨hle, hsix⟩ := length_escapeHtml_le b
    have hne : (escapeHtml b).length ≠ 6 := fun h => by
      rw [hsix h] at hescape
      exact absurd hescape.1 (by decide)
    rw [List.flatMap_singleton]
    omega

/-- Only quotation marks take six. -/
lemma length_flatMap_escapeHtml_le (name : Bytes) :
    (name.flatMap escapeHtml).length ≤ 6 * name.length ∧
      ((name.flatMap escapeHtml).length = 6 * name.length → ∀ b ∈ name, b = 34) := by
  induction name with
  | nil => simp
  | cons b name ih =>
      obtain ⟨hb, hb'⟩ := length_escapeHtml_le b
      rw [List.flatMap_cons, List.length_append, List.length_cons, List.forall_mem_cons]
      refine ⟨by omega, fun heq => ⟨hb' (by omega), ih.2 (by omega)⟩⟩

/-- What is escaped twice. -/
lemma length_flatMap_flatMap_le (name : Bytes) :
    ((name.flatMap indexEscapeChar).flatMap escapeHtml).length ≤ 5 * name.length := by
  induction name with
  | nil => simp
  | cons b name ih =>
      have hb := length_flatMap_indexEscapeChar_le b
      rw [List.flatMap_cons, List.flatMap_append, List.length_append, List.length_cons]
      omega

/-- **The buffers suffice** for every name but those of `MAXNAMLEN` bytes each of which takes
three: there is no room for the terminator of their reference. -/
theorem buffersSuffice_iff (name : Bytes) (hname : name.length ≤ maxNamLen) :
    BuffersSuffice name ↔ ¬(name.length = maxNamLen ∧ AllExpanded name) := by
  have hmax : maxNamLen = 255 := rfl
  have hhttpsize : httpFilenameSize = 765 := rfl
  have hhtmlsize : htmlFilenameSize = 1530 := rfl
  have hescapedsize : escapedFilenameSize = 4590 := rfl
  obtain ⟨hhttp, hexpanded⟩ := length_httpEscapeLoop name
  have hreturned : httpEscapeString name .given name.length = some (httpEscapeLoop false [] name) :=
    rfl
  constructor
  · rintro hfits ⟨hlen, hall⟩
    have := hfits.http _ hreturned
    have := hexpanded.mpr hall
    omega
  · intro hroom
    refine ⟨fun s hs => ?_, fun r hr => ?_, fun r hr s hs => ?_⟩
    · rw [htmlEscapeString_given] at hs
      obtain rfl := Option.some.inj hs
      obtain ⟨hle, hquotes⟩ := length_flatMap_escapeHtml_le name
      by_contra hfull
      have hlen : name.length = maxNamLen := by omega
      refine hroom ⟨hlen, Or.inl fun b hb => ?_⟩
      rw [hquotes (by omega) b hb, Expanded]
      decide
    · rw [hreturned] at hr
      obtain rfl := Option.some.inj hr
      by_contra hfull
      exact hroom ⟨by omega, hexpanded.mp (by omega)⟩
    · rw [httpEscapeString_given] at hr
      obtain rfl := Option.some.inj hr
      rw [htmlEscapeString_given] at hs
      obtain rfl := Option.some.inj hs
      have hguard : ((if HasColon name then str "./" else []).flatMap escapeHtml).length ≤ 2 := by
        split_ifs <;> decide
      have htwice := length_flatMap_flatMap_le name
      rw [List.flatMap_append, List.length_append]
      omega

/-- A name with room to spare. -/
theorem buffersSuffice_readme : BuffersSuffice (str "README \"1\".txt") :=
  (buffersSuffice_iff _ (by decide)).mpr fun h => absurd h.1 (by decide)

/-- A name of 255 spaces takes `3 * 255` bytes without the terminator. -/
theorem buffers_overflow :
    ¬∀ name : Bytes, name.length ≤ maxNamLen → BuffersSuffice name := by
  intro hall
  have hlen : (List.replicate 255 (32 : UInt8)).length = maxNamLen := List.length_replicate
  have hfits := (hall _ hlen.le).http _ rfl
  have hexpanded : AllExpanded (List.replicate 255 32) := Or.inl fun b hb => by
    rw [List.eq_of_mem_replicate hb, Expanded]
    decide
  have hfull := (length_httpEscapeLoop (List.replicate 255 32)).2.mpr hexpanded
  have hmax : maxNamLen = 255 := rfl
  have hsize : httpFilenameSize = 765 := rfl
  omega

end Yabwf
