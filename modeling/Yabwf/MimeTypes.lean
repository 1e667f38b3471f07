import Yabwf.Config

/-!
The file of the MIME types, as `c_add_mime_types_file` reads it.

* `mimeLine`, `mimeFrom`, `cAddMimeTypesFile`: the function on its buffer, with the calls of
  `add_mime_type` that it makes.
* `mimePairs`: the extensions of a line with their type.
* `StopsLine`: a line behind whose last word there is nothing that passes for another one.
* `mimeLine_exact_iff`: the calls are those for the extensions of the line, whatever is behind it
  in the buffer, exactly when the line stops.
* `mimeFile_exact_iff`: so it is for the lines of a file.
-/

namespace Yabwf

open Memory Lines

/-! ### `c_add_mime_types_file` -/

/-- The size of `buf`. -/
def mimeBufferSize : ℕ := 256

/-- A tab or a space. -/
def isSpaceTab (b : UInt8) : Bool := b == 9 || b == 32

/-- The string at an index of `buf`. -/
def mimeString (m : Mem) (i : ℕ) : Bytes := m.cstr i (mimeBufferSize - i)

/-- The end of the word at an index, by `strcspn`. -/
def wordEnd (m : Mem) (i : ℕ) : Option ℕ :=
  Mem.scan (fun b => b == 0 || isSpaceTab b) m i mimeBufferSize

/-- The beginning of the next word behind an index, or the end of the string. -/
def wordStart (m : Mem) (i : ℕ) : Option ℕ :=
  Mem.scan (fun b => b == 0 || isAlnum b) m i mimeBufferSize

/-- The calls `add_mime_type(extension, type)` that have been made, and the buffer behind them;
`inside` is false when a scan does not end in the buffer. -/
structure MimeRun where
  calls : List (Bytes × Bytes)
  buf : Mem
  inside : Bool := true

/-- The loops behind the type of a line, from the index `i` on. -/
def mimeFrom : ℕ → Mem → ℕ → MimeRun
  | 0, m, _ => { calls := [], buf := m, inside := false }
  | n + 1, m, i =>
      match wordStart m i with
      | none => { calls := [], buf := m, inside := false }
      | some p =>
          match wordEnd m p with
          | none => { calls := [], buf := m, inside := false }
          | some e =>
              if e = p then { calls := [], buf := m }
              else
                let m := m.store e [0]
                let r := mimeFrom n m (e + 1)
                { r with calls := (mimeString m p, mimeString m 0) :: r.calls }

/-- The newline is replaced by a zero. -/
def cutNewline (m : Mem) : Mem :=
  match strchr 10 (mimeString m 0) with
  | some c => m.store c [0]
  | none => m

/-- One round of the outer loop, for the line that `fgets` has read. -/
def mimeLine (m : Mem) : MimeRun :=
  if m 0 = 0 ∨ m 0 = 35 ∨ m 0 = 10 then { calls := [], buf := m }
  else
    let m := cutNewline m
    match wordEnd m 0 with
    | none => { calls := [], buf := m, inside := false }
    | some e =>
        if e = 0 then { calls := [], buf := m }
        else mimeFrom mimeBufferSize (m.store e [0]) (e + 1)

/-- The outer loop over what `fgets` reads. -/
def mimeLines : Mem → List Bytes → MimeRun
  | m, [] => { calls := [], buf := m }
  | m, line :: rest =>
      let r := mimeLine (m.store 0 (line ++ [0]))
      if r.inside then
        let r' := mimeLines r.buf rest
        { r' with calls := r.calls ++ r'.calls }
      else r

/-- `c_add_mime_types_file`, for a file that can be opened, and with the buffer as it is found on
the stack. -/
def cAddMimeTypesFile (m : Mem) (file : Bytes) : MimeRun :=
  mimeLines m (pieces 10 (mimeBufferSize - 2) [] file)

/-! ### The extensions of a line -/

/-- The text of a line, up to its newline. -/
def mimeText (line : Bytes) : Bytes := (lineText line).takeWhile (· != 10)

/-- A word without the characters in front of its first letter or digit, with the type. -/
def extensionOf (type word : Bytes) : Option (Bytes × Bytes) :=
  let extension := word.dropWhile (!isAlnum ·)
  if extension = [] then none else some (extension, type)

/-- The extensions that the words of a text are. -/
def extensions (type text : Bytes) : List (Bytes × Bytes) :=
  (text.splitOnP isSpaceTab).filterMap (extensionOf type)

/-- The extensions of a line, with its first word as their type; lines that begin with `#`, a tab
or a space have none. -/
def mimePairs (line : Bytes) : List (Bytes × Bytes) :=
  let t := mimeText line
  if t.head? = some 35 then []
  else
    match t.splitOnP isSpaceTab with
    | [] | [] :: _ => []
    | type :: words => words.filterMap (extensionOf type)

/-- Whatever the buffer holds behind the line, the calls are those for the extensions of the line,
and no scan leaves the buffer. -/
def MimeLineExact (line : Bytes) : Prop :=
  ∀ m : Mem, (mimeLine (m.store 0 (line ++ [0]))).calls = mimePairs line ∧
    (mimeLine (m.store 0 (line ++ [0]))).inside = true

/-- The last word of a text is one that the loops take. -/
def EndsInWord (t : Bytes) : Prop := ∃ b ∈ t.rtakeWhile (!isSpaceTab ·), isAlnum b = true

/-- A line behind whose last word there is nothing that passes for another one: one that has no
type, one whose last word is no extension, or one that goes on behind its text, with a newline
and without a letter or digit. -/
def StopsLine (line : Bytes) : Prop :=
  let t := mimeText line
  t = [] ∨ t.head? = some 35 ∨ t.head?.any isSpaceTab ∨
    ((∃ b ∈ t, isSpaceTab b = true) ∧ ¬EndsInWord t) ∨
    (t.length < line.length ∧
      ∀ b ∈ (line.drop (t.length + 1)).takeWhile (· != 0), isAlnum b = false)

/-! ### Words -/

lemma extensionOf_cons_of_not_isAlnum (type w : Bytes) {b : UInt8} (hb : isAlnum b = false) :
    extensionOf type (b :: w) = extensionOf type w := by
  rw [extensionOf, extensionOf, List.dropWhile_cons_of_pos (by simp [hb])]

/-- What is skipped in front of a word holds no extension. -/
lemma extensions_dropWhile (type t : Bytes) :
    extensions type (t.dropWhile (!isAlnum ·)) = extensions type t := by
  induction t with
  | nil => rfl
  | cons b t ih =>
      by_cases hb : isAlnum b = true
      · rw [List.dropWhile_cons_of_neg (by simp [hb])]
      · rw [Bool.not_eq_true] at hb
        rw [List.dropWhile_cons_of_pos (by simp [hb]), ih, extensions, extensions]
        by_cases hblank : isSpaceTab b = true
        · rw [List.splitOnP_cons_eq_if_modifyHead, if_pos hblank]
          rfl
        · rw [List.splitOnP_cons_eq_if_modifyHead, if_neg hblank]
          cases hsplit : t.splitOnP isSpaceTab with
          | nil => rfl
          | cons w ws =>
              rw [List.modifyHead_cons, List.filterMap_cons, List.filterMap_cons,
                extensionOf_cons_of_not_isAlnum type w hb]

lemma extensions_word {type w : Bytes} (hw : ∀ b ∈ w, isSpaceTab b = false) :
    extensions type w = (extensionOf type w).toList := by
  rw [extensions, List.splitOnP_eq_singleton hw]
  cases h : extensionOf type w with
  | none => rw [List.filterMap_cons_none h, List.filterMap_nil, Option.toList_none]
  | some e => rw [List.filterMap_cons_some h, List.filterMap_nil, Option.toList_some]

lemma splitOnP_word_cons {w : Bytes} {c : UInt8} (r : Bytes) (hw : ∀ b ∈ w, isSpaceTab b = false)
    (hc : isSpaceTab c = true) : (w ++ c :: r).splitOnP isSpaceTab = w :: r.splitOnP isSpaceTab :=
  List.splitOnP_append_cons_of_forall_mem hw c hc r

lemma extensions_word_cons {type w : Bytes} {c : UInt8} (r : Bytes)
    (hw : ∀ b ∈ w, isSpaceTab b = false) (hc : isSpaceTab c = true) :
    extensions type (w ++ c :: r) = (extensionOf type w).toList ++ extensions type r := by
  rw [extensions, splitOnP_word_cons r hw hc, extensions]
  cases h : extensionOf type w with
  | none => rw [List.filterMap_cons_none h, Option.toList_none, List.nil_append]
  | some e => rw [List.filterMap_cons_some h, Option.toList_some, List.singleton_append]

lemma endsInWord_append_cons (a r : Bytes) {c : UInt8} (hc : isSpaceTab c = true) :
    EndsInWord (a ++ c :: r) ↔ EndsInWord r := by
  have hlast : (a ++ c :: r).rtakeWhile (!isSpaceTab ·) = r.rtakeWhile (!isSpaceTab ·) := by
    rw [List.rtakeWhile, List.rtakeWhile, List.reverse_append, List.reverse_cons,
      List.append_assoc, List.takeWhile_append]
    split_ifs with h
    · rw [List.singleton_append, List.takeWhile_cons_of_neg (by simp [hc]), List.append_nil,
        List.Sublist.eq_of_length (List.takeWhile_sublist _) h]
    · rfl
  rw [EndsInWord, hlast, EndsInWord]

lemma endsInWord_append_cons_append (a b r : Bytes) {c : UInt8} (hc : isSpaceTab c = true) :
    EndsInWord (a ++ (b ++ c :: r)) ↔ EndsInWord r := by
  rw [← List.append_assoc, endsInWord_append_cons _ r hc]

lemma endsInWord_append {w : Bytes} (a : Bytes) (hw : ∀ b ∈ w, isSpaceTab b = false)
    (h : ∃ b ∈ w, isAlnum b = true) : EndsInWord (a ++ w) := by
  obtain ⟨b, hb, halnum⟩ := h
  refine ⟨b, ?_, halnum⟩
  have hall : ∀ x ∈ w.reverse, (!isSpaceTab x) = true := fun x hx => by
    simp [hw x (List.mem_reverse.mp hx)]
  rw [List.rtakeWhile, List.mem_reverse, List.reverse_append, List.takeWhile_append_of_pos hall]
  exact List.mem_append_left _ (List.mem_reverse.mpr hb)

lemma not_endsInWord {t : Bytes} (h : ∀ b ∈ t, isAlnum b = false) : ¬EndsInWord t := by
  rintro ⟨b, hb, halnum⟩
  rw [h b ((List.rtakeWhile_suffix (!isSpaceTab ·) t).subset hb)] at halnum
  cases halnum

/-- The first word, where there is something behind it. -/
lemma exists_blank {t : Bytes} (h : ∃ b ∈ t, isSpaceTab b = true) :
    ∃ w c r, t = w ++ c :: r ∧ (∀ b ∈ w, isSpaceTab b = false) ∧ isSpaceTab c = true := by
  induction t with
  | nil => simp at h
  | cons b t ih =>
      by_cases hb : isSpaceTab b = true
      · exact ⟨[], b, t, rfl, fun x hx => absurd hx List.not_mem_nil, hb⟩
      · have ht : ∃ b ∈ t, isSpaceTab b = true := by simpa [hb] using h
        obtain ⟨w, c, r, rfl, hw, hc⟩ := ih ht
        rw [Bool.not_eq_true] at hb
        exact ⟨b :: w, c, r, rfl, List.forall_mem_cons.mpr ⟨hb, hw⟩, hc⟩

/-- The same for a word that is not empty. -/
lemma exists_blank_cons {b : UInt8} {u : Bytes} (hb : isSpaceTab b = false)
    (h : ∃ x ∈ b :: u, isSpaceTab x = true) :
    ∃ v c r, u = v ++ c :: r ∧ (∀ x ∈ b :: v, isSpaceTab x = false) ∧ isSpaceTab c = true := by
  have hu : ∃ x ∈ u, isSpaceTab x = true := by simpa [hb] using h
  obtain ⟨v, c, r, rfl, hv, hc⟩ := exists_blank hu
  exact ⟨v, c, r, rfl, List.forall_mem_cons.mpr ⟨hb, hv⟩, hc⟩

/-! ### The loops -/

section

variable {m : Mem}

lemma not_isSpaceTab_of_isAlnum {b : UInt8} (h : isAlnum b = true) :
    b ≠ 0 ∧ isSpaceTab b = false := by
  have hall := forall_byte (p := fun b => isAlnum b = true → b ≠ 0 ∧ isSpaceTab b = false)
    (by decide +kernel)
  exact hall b h

/-- The loops end without a call when there is no letter or digit in front of the next zero. -/
lemma mimeFrom_quiet_iff (n i : ℕ) :
    ((mimeFrom (n + 1) m i).calls = [] ∧ (mimeFrom (n + 1) m i).inside = true) ↔
      ∃ q, wordStart m i = some q ∧ isAlnum (m q) = false := by
  rw [mimeFrom]
  cases hstart : wordStart m i with
  | none => simp
  | some q =>
      obtain ⟨hq, ⟨-, hlt⟩, -⟩ := Mem.scan_eq_some_iff.mp hstart
      simp only [Option.some.injEq, exists_eq_left']
      by_cases halnum : isAlnum (m q) = true
      · obtain ⟨hq0, hblank⟩ := not_isSpaceTab_of_isAlnum halnum
        refine iff_of_false ?_ (by simp [halnum])
        cases hend : wordEnd m q with
        | none => simp
        | some e =>
            obtain ⟨he, -⟩ := Mem.scan_eq_some_iff.mp hend
            have hne : e ≠ q := by
              rintro rfl
              simp [hq0, hblank] at he
            simp [hne]
      · rw [Bool.not_eq_true] at halnum
        have hq0 : m q = 0 := by simpa [halnum] using hq
        have hend : wordEnd m q = some q := by
          refine Mem.scan_eq_some_iff.mpr ⟨by simp [hq0], ⟨le_rfl, hlt⟩, fun k hk hlt => ?_⟩
          omega
        simp [hend, halnum]

/-- A round that takes a word. -/
lemma mimeFrom_takes (n : ℕ) {i p e : ℕ} {w type : Bytes} (hstart : wordStart m i = some p)
    (hend : wordEnd m p = some e) (hw : (m.store e [0]).HasStr p w) (he : p + w.length = e)
    (hne : w ≠ []) (htype : m.HasStr 0 type) (hbelow : type.length < e)
    (hsize : e < mimeBufferSize) :
    (mimeFrom (n + 1) m i).calls = (w, type) :: (mimeFrom n (m.store e [0]) (e + 1)).calls ∧
      (mimeFrom (n + 1) m i).inside = (mimeFrom n (m.store e [0]) (e + 1)).inside := by
  have hpos : 0 < w.length := List.length_pos_of_ne_nil hne
  have hword : mimeString (m.store e [0]) p = w := hw.cstr_eq (by omega)
  have hfirst : mimeString (m.store e [0]) 0 = type :=
    (htype.store_of_gt (by omega) _).cstr_eq (by omega)
  rw [mimeFrom, hstart]
  simp only [hend]
  rw [if_neg (by omega), hword, hfirst]
  exact ⟨rfl, rfl⟩

/-- A word with a tab or a space behind it, which becomes its end. -/
lemma wordEnd_of_blank {p : ℕ} {w r : Bytes} {c : UInt8} (hv : m.HasStr p (w ++ c :: r))
    (hw : ∀ b ∈ w, isSpaceTab b = false) (hc : isSpaceTab c = true)
    (hsize : p + w.length < mimeBufferSize) :
    wordEnd m p = some (p + w.length) ∧ (m.store (p + w.length) [0]).HasStr p w ∧
      (m.store (p + w.length) [0]).HasStr (p + w.length + 1) r := by
  refine ⟨Mem.scan_eq hv (fun b hb => ?_) (by simp [hc]) hsize, ?_, ?_⟩
  · have hb0 : b ≠ 0 := fun h0 => hv.1 (h0 ▸ List.mem_append_left _ hb)
    simp [hb0, hw b hb]
  · have := hv.cut (k := w.length) (by simp)
    rwa [List.take_left] at this
  · have hr := hv.drop (k := w.length + 1) (by simp)
    rw [← List.drop_drop, List.drop_left, List.drop_succ_cons, List.drop_zero,
      ← Nat.add_assoc] at hr
    refine hr.congr fun j hj => Mem.store_of_le _ _ ?_
    rw [List.length_singleton]
    omega

/-- The last word of a text. -/
lemma wordEnd_of_last {p : ℕ} {w : Bytes} (hv : m.HasStr p w)
    (hw : ∀ b ∈ w, isSpaceTab b = false) (hsize : p + w.length < mimeBufferSize) :
    wordEnd m p = some (p + w.length) ∧ (m.store (p + w.length) [0]).HasStr p w := by
  refine ⟨Mem.scan_end hv (fun b hb => ?_) rfl hsize, ?_⟩
  · have hb0 : b ≠ 0 := fun h0 => hv.1 (h0 ▸ hb)
    simp [hb0, hw b hb]
  · have := hv.cut (le_refl w.length)
    rwa [List.take_length] at this

/-- The first letter or digit of a text. -/
lemma exists_first_alnum (type : Bytes) {u : Bytes} (h : ∃ b ∈ u, isAlnum b = true) :
    ∃ junk x v, u = junk ++ x :: v ∧ (∀ b ∈ junk, isAlnum b = false) ∧ isAlnum x = true ∧
      extensions type u = extensions type (x :: v) := by
  cases hdrop : u.dropWhile (!isAlnum ·) with
  | nil =>
      obtain ⟨b, hb, halnum⟩ := h
      have hnone := List.dropWhile_eq_nil_iff.mp hdrop b hb
      simp [halnum] at hnone
  | cons x v =>
      have hne : u.dropWhile (!isAlnum ·) ≠ [] := by
        rw [hdrop]
        exact List.cons_ne_nil x v
      refine ⟨u.takeWhile (!isAlnum ·), x, v, ?_, fun b hb => ?_, ?_, ?_⟩
      · rw [← hdrop, List.takeWhile_append_dropWhile]
      · simpa using List.mem_takeWhile_imp hb
      · simpa [hdrop] using List.head_dropWhile_not (!isAlnum ·) hne
      · rw [← hdrop, extensions_dropWhile]

/-- A word that begins with a letter or digit is an extension. -/
lemma extensionOf_cons (type w : Bytes) {x : UInt8} (hx : isAlnum x = true) :
    extensionOf type (x :: w) = some (x :: w, type) := by
  rw [extensionOf, List.dropWhile_cons_of_neg (by simp [hx])]
  rfl

/-- **The loops** call `add_mime_type` for the extensions of the text; if it ends in a word that
they take, they go on behind the zero that ends the text. -/
lemma mimeFrom_eq {n i e : ℕ} {u type : Bytes} (hu : m.HasStr i u) (htype : m.HasStr 0 type)
    (hbelow : type.length < i) (hn : u.length < n) (he : i + u.length = e)
    (hsize : e < mimeBufferSize) :
    (¬EndsInWord u ∧ (mimeFrom n m i).calls = extensions type u ∧ (mimeFrom n m i).inside = true) ∨
      (EndsInWord u ∧ ∃ k m', (∀ j, e < j → m' j = m j) ∧
        (mimeFrom n m i).calls = extensions type u ++ (mimeFrom (k + 1) m' (e + 1)).calls ∧
        (mimeFrom n m i).inside = (mimeFrom (k + 1) m' (e + 1)).inside) := by
  induction n generalizing m i u with
  | zero => exact absurd hn (Nat.not_lt_zero _)
  | succ n ih =>
      have hnz : ∀ b ∈ u, b ≠ 0 := fun b hb h0 => hu.1 (h0 ▸ hb)
      by_cases halnum : ∃ b ∈ u, isAlnum b = true
      swap
      · -- no word is left
        have hnone : ∀ b ∈ u, isAlnum b = false := fun b hb => by
          rw [← Bool.not_eq_true]
          exact fun h => halnum ⟨b, hb, h⟩
        have hstart : wordStart m i = some e := by
          rw [← he]
          refine Mem.scan_end hu (fun b hb => ?_) rfl (he ▸ hsize)
          simp [hnz b hb, hnone b hb]
        have hzero : isAlnum (m e) = false := by
          rw [← he, hu.2.2]
          decide
        have hdrop : u.dropWhile (!isAlnum ·) = [] :=
          List.dropWhile_eq_nil_iff.mpr fun b hb => by simp [hnone b hb]
        rw [← extensions_dropWhile, hdrop]
        exact Or.inl ⟨not_endsInWord hnone, (mimeFrom_quiet_iff n i).mpr ⟨e, hstart, hzero⟩⟩
      obtain ⟨junk, x, v, rfl, hjunk, hx, hext⟩ := exists_first_alnum type halnum
      have hlen : (junk ++ x :: v).length = junk.length + (v.length + 1) := List.length_append
      have hstart : wordStart m i = some (i + junk.length) := by
        refine Mem.scan_eq hu (fun b hb => ?_) (by simp [hx]) (by omega)
        simp [hnz b (List.mem_append_left _ hb), hjunk b hb]
      have hv : m.HasStr (i + junk.length) (x :: v) := by
        have := hu.drop (k := junk.length) (by omega)
        rwa [List.drop_left] at this
      rw [hext]
      by_cases hblank : ∃ b ∈ x :: v, isSpaceTab b = true
      · -- the word is followed by a tab or a space
        obtain ⟨w, c, r, rfl, hw, hc⟩ := exists_blank_cons (not_isSpaceTab_of_isAlnum hx).2 hblank
        have hvlen : (w ++ c :: r).length = w.length + (r.length + 1) := List.length_append
        have hwlen : (x :: w).length = w.length + 1 := rfl
        rw [← List.cons_append] at hv ⊢
        obtain ⟨hend, hwstr, hrstr⟩ := wordEnd_of_blank hv hw hc (by omega)
        obtain ⟨hcalls, hinside⟩ := mimeFrom_takes n hstart hend hwstr rfl (List.cons_ne_nil x w)
          htype (by omega) (by omega)
        rw [hcalls, hinside, extensions_word_cons r hw hc, extensionOf_cons type w hx,
          Option.toList_some, List.singleton_append,
          endsInWord_append_cons_append junk (x :: w) r hc]
        rcases ih hrstr (htype.store_of_gt (by omega) _) (by omega) (by omega) (by omega) with
          ⟨hquiet, hcalls, hinside⟩ | ⟨hends, k, m', hsame, hcalls, hinside⟩
        · exact Or.inl ⟨hquiet, congrArg _ hcalls, hinside⟩
        · refine Or.inr ⟨hends, k, m', fun j hj => ?_, ?_, hinside⟩
          · rw [hsame j hj]
            refine Mem.store_of_le _ _ ?_
            rw [List.length_singleton]
            omega
          · rw [hcalls, List.cons_append]
      · -- the word is the last one
        have hw : ∀ b ∈ x :: v, isSpaceTab b = false := fun b hb => by
          rw [← Bool.not_eq_true]
          exact fun h => hblank ⟨b, hb, h⟩
        have hwlen : (x :: v).length = v.length + 1 := rfl
        have hat : i + junk.length + (x :: v).length = e := by omega
        obtain ⟨hend, hwstr⟩ := wordEnd_of_last hv hw (by omega)
        rw [hat] at hend hwstr
        obtain ⟨hcalls, hinside⟩ := mimeFrom_takes n hstart hend hwstr hat (List.cons_ne_nil x v)
          htype (by omega) hsize
        obtain ⟨k, rfl⟩ : ∃ k, n = k + 1 := Nat.exists_eq_succ_of_ne_zero (by omega)
        refine Or.inr ⟨endsInWord_append junk hw ⟨x, List.mem_cons_self, hx⟩, k,
          m.store e [0], fun j hj => ?_, ?_, hinside⟩
        · refine Mem.store_of_le _ _ ?_
          rw [List.length_singleton]
          omega
        · rw [hcalls, extensions_word hw, extensionOf_cons type v hx, Option.toList_some,
            List.singleton_append]

end

/-! ### One line -/

lemma length_mimeText_le (line : Bytes) : (mimeText line).length ≤ line.length :=
  (List.takeWhile_sublist _).length_le.trans (length_lineText_le line)

/-- The buffer holds the text of the line; behind it nothing is changed. -/
lemma cutNewline_hasStr (m : Mem) {line : Bytes} (hline : line.length ≤ mimeBufferSize - 2) :
    (cutNewline (m.store 0 (line ++ [0]))).HasStr 0 (mimeText line) ∧
      ∀ j, (mimeText line).length < j →
        cutNewline (m.store 0 (line ++ [0])) j = m.store 0 (line ++ [0]) j := by
  have hstr := hasStr_lineText m 0 line
  have hle := length_lineText_le line
  have hsize : mimeBufferSize = 256 := rfl
  rw [cutNewline, mimeString, hstr.cstr_eq (by omega), mimeText]
  cases hnl : strchr 10 (lineText line) with
  | none =>
      have hself : (lineText line).takeWhile (· != 10) = lineText line := by
        refine List.takeWhile_eq_self_iff.mpr fun b hb => ?_
        have hne : b ≠ 10 := fun h => strchr_eq_none hnl (h ▸ hb)
        simpa using hne
      rw [hself]
      exact ⟨hstr, fun _ _ => rfl⟩
  | some c =>
      obtain ⟨hlt, hnone, hsplit⟩ := strchr_eq_some hnl
      have htext : (lineText line).takeWhile (· != 10) = (lineText line).take c := by
        have hpos : ∀ b ∈ (lineText line).take c, (b != 10) = true := fun b hb => by
          simpa using fun h : b = 10 => hnone (h ▸ hb)
        conv_lhs => rw [hsplit]
        rw [List.takeWhile_append_of_pos hpos, List.takeWhile_cons_of_neg (by decide),
          List.append_nil]
      have hcut := hstr.cut hlt.le
      rw [Nat.zero_add] at hcut
      rw [htext]
      refine ⟨hcut, fun j hj => Mem.store_of_le _ _ ?_⟩
      rw [List.length_take_of_le hlt.le] at hj
      rw [List.length_singleton]
      omega

/-- What is behind the text of a line is quiet for every buffer when it stands in the line. -/
lemma forall_quiet_iff {line : Bytes} (hline : line.length ≤ mimeBufferSize - 2) :
    (∀ m : Mem, ∃ q,
      wordStart (m.store 0 (line ++ [0])) ((mimeText line).length + 1) = some q ∧
        isAlnum (m.store 0 (line ++ [0]) q) = false) ↔
      (mimeText line).length < line.length ∧
        ∀ b ∈ (line.drop ((mimeText line).length + 1)).takeWhile (· != 0), isAlnum b = false := by
  have hle := length_mimeText_le line
  have hsize : mimeBufferSize = 256 := rfl
  generalize (mimeText line).length = n at hle ⊢
  have hbehind (hlt : n < line.length) (m : Mem) : (m.store 0 (line ++ [0])).HasStr (n + 1)
      ((line.drop (n + 1)).takeWhile (· != 0)) := by
    have hstr := hasStr_lineText (m.store 0 (line.take (n + 1))) (n + 1) (line.drop (n + 1))
    have hlen : (line.take (n + 1)).length = n + 1 := List.length_take_of_le hlt
    conv at hstr => enter [1, 2]; rw [← hlen]
    rw [← Nat.zero_add (line.take (n + 1)).length, ← Mem.store_append, ← List.append_assoc,
      List.take_append_drop] at hstr
    exact hstr
  constructor
  · intro h
    by_cases hlt : n < line.length
    · refine ⟨hlt, fun b hb => ?_⟩
      obtain ⟨q, hstart, hquiet⟩ := h fun _ => 0
      have hz := hbehind hlt fun _ => 0
      obtain ⟨hq, ⟨hfrom, -⟩, hfirst⟩ := Mem.scan_eq_some_iff.mp hstart
      have hq0 : (Mem.store (fun _ => 0) 0 (line ++ [0])) q = 0 := by simpa [hquiet] using hq
      obtain ⟨i, hi, rfl⟩ := List.mem_iff_getElem.mp hb
      have hat := hz.apply_of_lt hi
      rcases Nat.lt_or_ge (n + 1 + i) q with hlt' | hge
      · have := hfirst (n + 1 + i) (Nat.le_add_right _ _) hlt'
        rw [hat] at this
        exact (Bool.or_eq_false_iff.mp this).2
      · -- the zero that ends the scan is no byte of the string
        obtain ⟨k, rfl⟩ := Nat.exists_eq_add_of_le hfrom
        have hk : k < ((line.drop (n + 1)).takeWhile (· != 0)).length := by omega
        rw [hz.apply_of_lt hk] at hq0
        have hmem := List.getElem_mem hk
        rw [hq0] at hmem
        exact absurd hmem hz.1
    · obtain ⟨q, hstart, hquiet⟩ := h fun _ => 97
      have hat : (Mem.store (fun _ => 97) 0 (line ++ [0])) (n + 1) = 97 :=
        Mem.store_of_le _ _ (by simp only [List.length_append, List.length_singleton]; omega)
      obtain ⟨-, ⟨hfrom, -⟩, hfirst⟩ := Mem.scan_eq_some_iff.mp hstart
      rcases Nat.eq_or_lt_of_le hfrom with rfl | hlt'
      · rw [hat] at hquiet
        exact absurd hquiet (by decide)
      · have := hfirst (n + 1) le_rfl hlt'
        rw [hat] at this
        exact absurd this (by decide)
  · rintro ⟨hlt, hnone⟩ m
    have hz := hbehind hlt m
    have hzlen : ((line.drop (n + 1)).takeWhile (· != 0)).length ≤ line.length - (n + 1) :=
      (List.takeWhile_sublist _).length_le.trans_eq List.length_drop
    refine ⟨_, Mem.scan_end hz (fun b hb => ?_) rfl (by omega), ?_⟩
    · have hb0 : b ≠ 0 := fun h0 => hz.1 (h0 ▸ hb)
      simp [hb0, hnone b hb]
    · rw [hz.2.2]
      decide

/-- The first byte of the buffer tells whether there is a text. -/
lemma first_of_mimeText (m : Mem) (line : Bytes) :
    (mimeText line = [] → m.store 0 (line ++ [0]) 0 = 0 ∨ m.store 0 (line ++ [0]) 0 = 10) ∧
      ∀ b u, mimeText line = b :: u →
        m.store 0 (line ++ [0]) 0 = b ∧ b ≠ 0 ∧ b ≠ 10 := by
  have hstr := hasStr_lineText m 0 line
  rw [mimeText]
  cases hline : lineText line with
  | nil =>
      rw [hline] at hstr
      exact ⟨fun _ => Or.inl (Mem.HasStr.nil_iff.mp hstr), fun b u h => by cases h⟩
  | cons b u =>
      rw [hline] at hstr
      obtain ⟨hb, hb0, -⟩ := Mem.HasStr.cons_iff.mp hstr
      rw [hb]
      by_cases hnl : b = 10
      · rw [List.takeWhile_cons_of_neg (by simp [hnl])]
        exact ⟨fun _ => Or.inr hnl, fun b' u' h => by cases h⟩
      · rw [List.takeWhile_cons_of_pos (by simpa using hnl)]
        refine ⟨fun h => absurd h (List.cons_ne_nil _ _), fun b' u' h => ?_⟩
        rw [← (List.cons.inj h).1]
        exact ⟨rfl, hb0, hnl⟩

/-- Only what is behind the text matters behind it. -/
lemma exists_wordStart_congr {m m' : Mem} {n : ℕ} (h : ∀ j, n < j → m' j = m j) :
    (∃ q, wordStart m' (n + 1) = some q ∧ isAlnum (m' q) = false) ↔
      ∃ q, wordStart m (n + 1) = some q ∧ isAlnum (m q) = false := by
  have hscan : wordStart m' (n + 1) = wordStart m (n + 1) := Mem.scan_congr fun j hj _ => h j hj
  rw [hscan]
  refine exists_congr fun q => and_congr_right fun hq => ?_
  rw [h q (Mem.scan_eq_some_iff.mp hq).2.1.1]

/-- With the buffer as it is, a line is read exactly when it has no type, when its last word is no
extension, or when what is behind it is quiet. -/
lemma mimeLine_exact_at_iff (m : Mem) {line : Bytes} (hline : line.length ≤ mimeBufferSize - 2) :
    ((mimeLine (m.store 0 (line ++ [0]))).calls = mimePairs line ∧
      (mimeLine (m.store 0 (line ++ [0]))).inside = true) ↔
      mimeText line = [] ∨ (mimeText line).head? = some 35 ∨ (mimeText line).head?.any isSpaceTab ∨
        ((∃ b ∈ mimeText line, isSpaceTab b = true) ∧ ¬EndsInWord (mimeText line)) ∨
        ∃ q, wordStart (m.store 0 (line ++ [0])) ((mimeText line).length + 1) = some q ∧
          isAlnum (m.store 0 (line ++ [0]) q) = false := by
  have hle := length_mimeText_le line
  have hsize : mimeBufferSize = 256 := rfl
  obtain ⟨htext, hbehind⟩ := cutNewline_hasStr m hline
  obtain ⟨hempty, hfirst⟩ := first_of_mimeText m line
  rw [mimeLine, mimePairs]
  generalize m.store 0 (line ++ [0]) = M at htext hbehind hempty hfirst ⊢
  generalize mimeText line = t at hle htext hbehind hempty hfirst ⊢
  cases t with
  | nil =>
      rw [if_pos (by have := hempty rfl; tauto)]
      exact iff_of_true ⟨rfl, rfl⟩ (Or.inl rfl)
  | cons b u =>
      obtain ⟨hb, hb0, hnl⟩ := hfirst b u rfl
      rw [hb]
      by_cases hcomment : b = 35
      · subst hcomment
        exact iff_of_true ⟨rfl, rfl⟩ (Or.inr (Or.inl rfl))
      rw [if_neg (by tauto)]
      simp only [List.head?_cons, Option.some.injEq, hcomment, false_or, if_false,
        Option.any_some, List.cons_ne_nil]
      by_cases hblank : isSpaceTab b = true
      · -- the length of the type is zero
        have hend : wordEnd (cutNewline M) 0 = some 0 :=
          Mem.scan_eq (a := []) htext (fun x hx => absurd hx List.not_mem_nil) (by simp [hblank])
            (by decide)
        rw [hend, List.splitOnP_cons_eq_if_modifyHead, if_pos hblank]
        exact iff_of_true ⟨rfl, rfl⟩ (Or.inl hblank)
      rw [or_iff_right hblank]
      have hblank' : isSpaceTab b = false := Bool.eq_false_iff.mpr hblank
      by_cases hword : ∃ x ∈ b :: u, isSpaceTab x = true
      · obtain ⟨v, c, r, rfl, hw, hc⟩ := exists_blank_cons hblank' hword
        rw [← List.cons_append] at htext hle hbehind ⊢
        have hlen : (b :: v ++ c :: r).length = v.length + 1 + (r.length + 1) := List.length_append
        have hvlen : (b :: v).length = v.length + 1 := rfl
        obtain ⟨hend, htype, hrest⟩ := wordEnd_of_blank htext hw hc (by omega)
        rw [Nat.zero_add, hvlen] at hend htype hrest
        have hsplit : (b :: v ++ c :: r).splitOnP isSpaceTab = (b :: v) :: r.splitOnP isSpaceTab :=
          splitOnP_word_cons r hw hc
        have hmem : ∃ x ∈ b :: v ++ c :: r, isSpaceTab x = true := ⟨c, by simp, hc⟩
        rw [hend, hsplit, endsInWord_append_cons (b :: v) r hc]
        simp only [Nat.succ_ne_zero, if_false, hmem, true_and]
        rw [← extensions]
        rcases mimeFrom_eq (n := mimeBufferSize) (e := (b :: v ++ c :: r).length) hrest htype
          (by rw [List.length_cons]; omega) (by omega) (by omega) (by omega) with
          ⟨hends, hcalls, hinside⟩ | ⟨hends, k, m', hsame, hcalls, hinside⟩
        · exact iff_of_true ⟨hcalls, hinside⟩ (Or.inl hends)
        · have hagree : ∀ j, (b :: v ++ c :: r).length < j → m' j = M j := fun j hj => by
            have hle : v.length + 1 + ([0] : Bytes).length ≤ j := by
              rw [List.length_singleton]
              omega
            rw [hsame j hj, Mem.store_of_le _ _ hle, hbehind j hj]
          rw [or_iff_right (not_not_intro hends), hcalls, hinside, List.append_right_eq_self]
          rw [mimeFrom_quiet_iff, exists_wordStart_congr hagree]
      · have hw : ∀ x ∈ b :: u, isSpaceTab x = false := fun x hx => by
          rw [← Bool.not_eq_true]
          exact fun h => hword ⟨x, hx, h⟩
        have hend := (wordEnd_of_last htext hw (by omega)).1
        rw [Nat.zero_add] at hend
        have hagree : ∀ j, (b :: u).length < j →
            (cutNewline M).store (b :: u).length [0] j = M j := fun j hj => by
          rw [Mem.store_of_le _ _ (by rw [List.length_singleton]; omega), hbehind j hj]
        rw [hend, List.splitOnP_eq_singleton hw, or_iff_right fun h => hword h.1]
        simp only [List.length_cons, Nat.succ_ne_zero, if_false, List.filterMap_nil] at hagree ⊢
        rw [mimeBufferSize, mimeFrom_quiet_iff, exists_wordStart_congr hagree]

/-- **A line is read exactly**, whatever is behind it in the buffer, when it stops. -/
lemma mimeLine_exact_iff {line : Bytes} (hline : line.length ≤ mimeBufferSize - 2) :
    MimeLineExact line ↔ StopsLine line := by
  rw [MimeLineExact, StopsLine]
  simp only [mimeLine_exact_at_iff _ hline, forall_or_left, forall_quiet_iff hline]

/-! ### The lines of a file -/

/-- The calls for a file are those for the extensions of its lines, in order, whatever the buffer
holds; and so they are for each line, whatever the lines in front of it have left there. -/
structure MimeFileExact (file : Bytes) : Prop where
  calls : ∀ m, (cAddMimeTypesFile m file).calls = (lines 10 file).flatMap mimePairs
  inside : ∀ m, (cAddMimeTypesFile m file).inside = true
  independent : ∀ line ∈ lines 10 file, MimeLineExact line

lemma mimeLines_exact {ls : List Bytes} (h : ∀ line ∈ ls, MimeLineExact line) (m : Mem) :
    (mimeLines m ls).calls = ls.flatMap mimePairs ∧ (mimeLines m ls).inside = true := by
  induction ls generalizing m with
  | nil => exact ⟨rfl, rfl⟩
  | cons line ls ih =>
      obtain ⟨hline, hls⟩ := List.forall_mem_cons.mp h
      obtain ⟨hcalls, hinside⟩ := hline m
      obtain ⟨hcalls', hinside'⟩ := ih hls (mimeLine (m.store 0 (line ++ [0]))).buf
      simp only [mimeLines, hinside, if_true]
      exact ⟨by rw [hcalls, hcalls', List.flatMap_cons], hinside'⟩

/-- **The types of a file** are added exactly when each of its lines stops: a last line without a
newline, whose last word is taken, is read on in what earlier lines have left behind it. -/
theorem mimeFile_exact_iff (file : Bytes)
    (hfile : ∀ line ∈ lines 10 file, line.length ≤ mimeBufferSize - 2) :
    MimeFileExact file ↔ ∀ line ∈ lines 10 file, StopsLine line := by
  constructor
  · intro h line hline
    exact (mimeLine_exact_iff (hfile line hline)).mp (h.independent line hline)
  · intro h
    have hlines : ∀ line ∈ lines 10 file, MimeLineExact line :=
      fun line hline => (mimeLine_exact_iff (hfile line hline)).mpr (h line hline)
    have hrun (m : Mem) : cAddMimeTypesFile m file = mimeLines m (lines 10 file) := by
      rw [cAddMimeTypesFile, pieces_eq_lines 10 hfile]
    refine ⟨fun m => ?_, fun m => ?_, hlines⟩
    · rw [hrun]
      exact (mimeLines_exact hlines m).1
    · rw [hrun]
      exact (mimeLines_exact hlines m).2

/-- Two lines with their newlines. -/
theorem mimeFile_exact_newline : MimeFileExact (str "text/html html htm\nimage/png png\n") := by
  refine (mimeFile_exact_iff _ (by decide)).mpr fun line hline => ?_
  have hlines : lines 10 (str "text/html html htm\nimage/png png\n") =
      [str "text/html html htm\n", str "image/png png\n"] := by decide
  rw [hlines] at hline
  refine Or.inr (Or.inr (Or.inr (Or.inr ?_)))
  simp only [List.mem_cons, List.not_mem_nil, or_false] at hline
  rcases hline with rfl | rfl <;> decide +kernel

/-- The last line has no newline, and its extension is followed by those of the line in front. -/
theorem mimeFile_not_exact :
    ¬∀ file : Bytes, (∀ line ∈ lines 10 file, line.length ≤ mimeBufferSize - 2) →
      MimeFileExact file := by
  intro hall
  have hcalls := (hall (str "text/plain plaintext\na/b c") (by decide)).calls fun _ => 0
  exact absurd hcalls (by decide)

end Yabwf
