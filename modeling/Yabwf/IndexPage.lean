import Yabwf.Indexer

/-!
What a reader gets from a page of the directory indexer.

* `linksOf`, `tagsOf`: the links of a page, with the entities replaced, and its tags.
* `dirRow_of_not_full`, `fileRow_of_not_full`: the rows of the table, unless a name does not fit
  into its buffers.
* `printPage_of_fits`: the part of the page that `index_directory` prints.
* `main_page`: the links of the page are those to the entries, in order, and the names of the
  entries contribute nothing to its tags; each link leads to its entry.
-/

namespace Yabwf

namespace Indexer

/-! ### What a reader sees -/

lemma marks_nodup : ([60, 62, 34] : Bytes).Nodup := by decide

/-- A reader of pages, who replaces the entities. -/
def reader : Tags.Reader UInt8 where
  opening := 60
  closing := 62
  quote := 34
  nodup := marks_nodup
  front := str "a href="
  front_plain := by decide
  stop := str "/a"
  stop_plain := by decide
  decode := unescapeHtml

/-- The links of a page: what they refer to, and their text. -/
def linksOf (page : Bytes) : List (Bytes × Bytes) := Tags.links reader (Tags.pieces reader page)

/-- The tags of a page, without what its links refer to. -/
def tagsOf (page : Bytes) : List Bytes := Tags.tags reader (Tags.pieces reader page)

/-- The entries that a loop of `index_directory` lists. -/
def chosen (stat : Dirent → Option Stat) (directory : Bool) (array : List Dirent) :
    List (Dirent × Stat) :=
  array.filterMap fun d =>
    ((stat d).filter fun st => decide (st.kind = .directory) = directory).map fun st => (d, st)

/-- The name has a stem before `.gz`. -/
def IsGz (name : Bytes) : Prop := 3 < name.length ∧ str ".gz" <:+ name

instance (name : Bytes) : Decidable (IsGz name) :=
  inferInstanceAs (Decidable (_ ∧ str ".gz" <:+ name))

/-- The name without the three last characters. -/
def stem (name : Bytes) : Bytes := name.take (name.length - 3)

/-- What `http_escape_string` makes of a name. -/
def reference (name : Bytes) : Bytes := httpEscapeLoop false [] name

def parentLinks (title : Bytes) : List (Bytes × Bytes) :=
  if title = str "/" then [] else [(str "../", str "Parent Directory")]

def dirLink (d : Dirent) : Bytes × Bytes := (reference d.name ++ str "/", d.name ++ str "/")

/-- The links of a file, two if it is a compressed one. -/
def fileLinks (gunzip : Bool) (d : Dirent) : List (Bytes × Bytes) :=
  if gunzip ∧ IsGz d.name then
    [(reference (stem d.name), stem d.name), (reference d.name, str "(.gz)")]
  else [(reference d.name, d.name)]

/-! ### Names in references -/

lemma reference_eq (name : Bytes) : reference name =
    (if HasColon name then str "./" else []) ++ name.flatMap indexEscapeChar :=
  httpEscapeLoop_eq name

/-- Quotation marks and semicolons are escaped. -/
lemma escapeSpecial_unquoted : ∀ b ∈ escapeSpecial, b ≠ 34 ∧ b ≠ 59 := by
  decide +kernel

/-- What an escaper writes is no quotation mark and no semicolon. -/
lemma unquoted_of_escaped {b c : UInt8}
    (h : (c = b ∧ b ∈ escapeSpecial) ∨ c = 37 ∨ isAlnum c = true) : c ≠ 34 ∧ c ≠ 59 := by
  rcases h with ⟨rfl, hc⟩ | rfl | hc
  · exact escapeSpecial_unquoted _ hc
  · decide
  · refine ⟨?_, ?_⟩
    all_goals
      rintro rfl
      revert hc
      decide

/-- A reference has no quotation mark and no semicolon. -/
lemma notMem_reference (name : Bytes) : 34 ∉ reference name ∧ 59 ∉ reference name := by
  have hall : ∀ b ∈ reference name, b ≠ 34 ∧ b ≠ 59 := by
    intro b hb
    rw [reference_eq, List.mem_append] at hb
    rcases hb with hb | hb
    · have hguard : str "./" = [46, 47] := rfl
      split_ifs at hb
      · rw [hguard, List.mem_cons, List.mem_singleton] at hb
        rcases hb with rfl | rfl
        · decide
        · decide
      · exact absurd hb List.not_mem_nil
    · obtain ⟨c, -, hb⟩ := List.mem_flatMap.mp hb
      exact unquoted_of_escaped (mem_indexEscapeChar hb)
  exact ⟨fun h => (hall _ h).1 rfl, fun h => (hall _ h).2 rfl⟩

/-- What a name ends with, if it is no digit and no slash, its reference ends with, and only
then. -/
lemma append_singleton_flatMap {front name u : Bytes} {b : UInt8}
    (hfront : front = [] ∨ front.getLast? = some 47) (hb : b ≠ 47)
    (hdigit : ∀ n : Fin 16, b ≠ indexIntToHex (UInt8.ofNat n))
    (h : front ++ name.flatMap indexEscapeChar = u ++ [b]) :
    ∃ name', name = name' ++ [b] ∧ u = front ++ name'.flatMap indexEscapeChar := by
  rcases List.eq_nil_or_concat name with rfl | ⟨name', c, rfl⟩
  · rw [List.flatMap_nil, List.append_nil] at h
    rcases hfront with rfl | hfront
    · exact absurd h (by simp)
    · rw [h, List.getLast?_concat] at hfront
      exact absurd (Option.some.inj hfront) hb
  · rw [List.concat_eq_append] at h ⊢
    rw [List.flatMap_append, List.flatMap_singleton, indexEscapeChar] at h
    split_ifs at h with hescape
    · have hlast := congrArg List.getLast? h
      rw [List.getLast?_concat, List.getLast?_append_of_ne_nil _ (by simp),
        List.getLast?_append_of_ne_nil _ (by simp)] at hlast
      have hnibble : (c % 16).toNat < 16 := (nibbles_lt c).2
      have hne := hdigit ⟨(c % 16).toNat, hnibble⟩
      rw [UInt8.ofNat_toNat] at hne
      exact absurd (Option.some.inj hlast).symm hne
    · rw [← List.append_assoc] at h
      obtain ⟨hu, hc⟩ := List.append_inj' h rfl
      rw [List.singleton_inj] at hc
      exact ⟨name', by rw [hc], hu.symm⟩

/-- The three last characters are read off a reference. -/
lemma reference_suffix_iff (name : Bytes) :
    str ".gz" <:+ reference name ↔ str ".gz" <:+ name := by
  have hgz : str ".gz" = [46, 103, 122] := rfl
  have hplain : ([46, 103, 122] : Bytes).flatMap indexEscapeChar = [46, 103, 122] := by decide
  have hdot : ∀ n : Fin 16, (46 : UInt8) ≠ indexIntToHex (UInt8.ofNat n) := by decide
  have hg : ∀ n : Fin 16, (103 : UInt8) ≠ indexIntToHex (UInt8.ofNat n) := by decide
  have hz : ∀ n : Fin 16, (122 : UInt8) ≠ indexIntToHex (UInt8.ofNat n) := by decide
  rw [hgz, reference_eq]
  constructor
  · rintro ⟨u, hu⟩
    have hfront : (if HasColon name then str "./" else []) = [] ∨
        (if HasColon name then str "./" else []).getLast? = some 47 := by
      split_ifs
      · exact Or.inr rfl
      · exact Or.inl rfl
    generalize (if HasColon name then str "./" else []) = front at hu hfront
    have hthree : u ++ [46, 103, 122] = u ++ [46] ++ [103] ++ [122] := by simp
    rw [hthree] at hu
    obtain ⟨name₁, rfl, h₁⟩ := append_singleton_flatMap hfront (by decide) hz hu.symm
    obtain ⟨name₂, rfl, h₂⟩ := append_singleton_flatMap hfront (by decide) hg h₁.symm
    obtain ⟨name₃, rfl, -⟩ := append_singleton_flatMap hfront (by decide) hdot h₂.symm
    exact ⟨name₃, by simp⟩
  · rintro ⟨u, hu⟩
    refine ⟨(if HasColon name then str "./" else []) ++ u.flatMap indexEscapeChar, ?_⟩
    rw [← hu, List.flatMap_append, hplain, List.append_assoc]

lemma hasColon_append {name back : Bytes} (hname : name ≠ []) (hback : 58 ∉ back) :
    HasColon (name ++ back) ↔ HasColon name := by
  obtain ⟨c, name, rfl⟩ := List.exists_cons_of_ne_nil hname
  simp [HasColon, hback]

/-- Characters that are not escaped are added to a reference as they are. -/
lemma reference_append {name back : Bytes} (hname : name ≠ []) (hback : 58 ∉ back)
    (hplain : back.flatMap indexEscapeChar = back) :
    reference (name ++ back) = reference name ++ back := by
  rw [reference_eq, reference_eq, List.flatMap_append, hplain, List.append_assoc]
  simp only [hasColon_append hname hback]

/-- The stem of a compressed file. -/
lemma IsGz.exists_stem {name : Bytes} (h : IsGz name) :
    name = stem name ++ str ".gz" ∧ stem name ≠ [] := by
  obtain ⟨hlen, u, rfl⟩ := h
  have hgz : (str ".gz").length = 3 := by decide
  rw [List.length_append, hgz] at hlen
  have hstem : stem (u ++ str ".gz") = u := by
    rw [stem, List.length_append, hgz, Nat.add_sub_cancel, List.take_left]
  rw [hstem]
  exact ⟨rfl, List.length_pos_iff.mp (by omega)⟩

lemma IsGz.reference_eq {name : Bytes} (h : IsGz name) :
    reference name = reference (stem name) ++ str ".gz" := by
  obtain ⟨hname, hstem⟩ := h.exists_stem
  conv_lhs => rw [hname]
  exact reference_append hstem (by decide) (by decide)

/-! ### The rows -/

/-- The reference of the name leaves no room for its terminator in `http_filename`. -/
def Full (d : Dirent) : Prop := d.name.length = maxNamLen ∧ AllExpanded d.name

lemma intoBuffer_of_le {size : ℕ} {s : Bytes} (h : s.length + 1 ≤ size) :
    intoBuffer size (some s) = .ok s := if_pos h

lemma intoBuffer_of_lt {size : ℕ} {s : Bytes} (h : size < s.length + 1) :
    intoBuffer size (some s) = .error .overflow := if_neg (by omega)

lemma filenames_of_not_full {d : Dirent} (h : ¬Full d) :
    filenames d.name = .ok (d.name.flatMap escapeHtml, reference d.name) := by
  have hmax : maxNamLen = 255 := rfl
  have hhttpsize : httpFilenameSize = 765 := rfl
  have hhtmlsize : htmlFilenameSize = 1530 := rfl
  have hshort := d.short
  obtain ⟨hhtml, hquotes⟩ := length_flatMap_escapeHtml_le d.name
  obtain ⟨hhttp, hexpanded⟩ := length_httpEscapeLoop d.name
  have hhtmlfits : (d.name.flatMap escapeHtml).length + 1 ≤ htmlFilenameSize := by
    by_contra hlong
    refine h ⟨by omega, Or.inl fun b hb => ?_⟩
    rw [hquotes (by omega) b hb, Expanded]
    decide
  have hhttpfits : (reference d.name).length + 1 ≤ httpFilenameSize := by
    by_contra hlong
    rw [reference] at hlong
    exact h ⟨by omega, hexpanded.mp (by omega)⟩
  rw [filenames, htmlEscapeString_given, intoBuffer_of_le hhtmlfits]
  change (intoBuffer httpFilenameSize (some (reference d.name))).bind _ = _
  rw [intoBuffer_of_le hhttpfits]
  rfl

lemma filenames_of_full {d : Dirent} (h : Full d) : filenames d.name = .error .overflow := by
  have hmax : maxNamLen = 255 := rfl
  have hhttpsize : httpFilenameSize = 765 := rfl
  have hhttp := (length_httpEscapeLoop d.name).2.mpr h.2
  have hlen := h.1
  have hlong : httpFilenameSize < (reference d.name).length + 1 := by
    rw [reference]
    omega
  rw [filenames, htmlEscapeString_given]
  rcases Nat.lt_or_ge htmlFilenameSize ((d.name.flatMap escapeHtml).length + 1) with hlt | hle
  · rw [intoBuffer_of_lt hlt]
    rfl
  · rw [intoBuffer_of_le hle]
    change (intoBuffer httpFilenameSize (some (reference d.name))).bind _ = _
    rw [intoBuffer_of_lt hlong]
    rfl

/-- A reference that is escaped once more always fits. -/
lemma escapedFilename_of_begins {d : Dirent} {http : Bytes} (h : http <+: reference d.name) :
    escapedFilename http = .ok (http.flatMap escapeHtml) := by
  have hshort := d.short
  have hmax : maxNamLen = 255 := rfl
  have hsize : escapedFilenameSize = 4590 := rfl
  obtain ⟨back, hback⟩ := h
  have hguard : ((if HasColon d.name then str "./" else []).flatMap escapeHtml).length ≤ 2 := by
    split_ifs <;> decide
  have htwice := length_flatMap_flatMap_le d.name
  have hsum := congrArg (fun l => (l.flatMap escapeHtml).length) hback
  simp only [reference_eq, List.flatMap_append, List.length_append] at hsum
  rw [escapedFilename, htmlEscapeString_given]
  exact intoBuffer_of_le (by omega)

/-- The row of a directory. -/
def dirText (w : Host) (d : Dirent) (st : Stat) : Bytes :=
  rowFront ++ anchor ((reference d.name).flatMap escapeHtml ++ str "/")
    (d.name.flatMap escapeHtml ++ str "/") ++ rowBack w st

/-- The row of a file. -/
def fileText (w : Host) (d : Dirent) (st : Stat) : Bytes :=
  rowFront
    ++ (if w.gunzip ∧ IsGz d.name then
          anchor ((reference (stem d.name)).flatMap escapeHtml) ((stem d.name).flatMap escapeHtml)
            ++ str " " ++ anchor (reference d.name) (str "(.gz)")
        else anchor ((reference d.name).flatMap escapeHtml) (d.name.flatMap escapeHtml))
    ++ rowBack w st

lemma dirRow_of_not_full (w : Host) {d : Dirent} (h : ¬Full d) (st : Stat) :
    dirRow w d st = .ok (dirText w d st) := by
  rw [dirRow, filenames_of_not_full h]
  change (escapedFilename (reference d.name)).bind _ = _
  rw [escapedFilename_of_begins (List.prefix_refl _)]
  rfl

lemma dirRow_of_full (w : Host) {d : Dirent} (h : Full d) (st : Stat) :
    dirRow w d st = .error .overflow := by
  rw [dirRow, filenames_of_full h]
  rfl

/-- The three last characters of the two buffers. -/
lemma gz_iff (name : Bytes) :
    (3 < (reference name).length ∧
      (reference name).drop ((reference name).length - 3) = str ".gz") ↔ IsGz name := by
  have hgz : (str ".gz").length = 3 := by decide
  have hsuffix : (3 ≤ (reference name).length ∧
      (reference name).drop ((reference name).length - 3) = str ".gz") ↔
      str ".gz" <:+ reference name := by
    constructor
    · rintro ⟨-, hdrop⟩
      rw [← hdrop]
      exact List.drop_suffix _ _
    · intro h
      have hdrop := List.suffix_iff_eq_drop.mp h
      rw [hgz] at hdrop
      exact ⟨hgz ▸ h.length_le, hdrop.symm⟩
  constructor
  · rintro ⟨hlen, hdrop⟩
    have hname := (reference_suffix_iff name).mp (hsuffix.mp ⟨hlen.le, hdrop⟩)
    refine ⟨?_, hname⟩
    -- otherwise the name is `.gz`, and so is its reference
    by_contra hle
    have hlenle := hname.length_le
    rw [hgz] at hlenle
    have heq := hname.eq_of_length (by omega)
    rw [← heq] at hlen
    exact absurd hlen (by decide)
  · intro h
    obtain ⟨hlen, hdrop⟩ := hsuffix.mpr ((reference_suffix_iff name).mpr h.2)
    refine ⟨?_, hdrop⟩
    have hstem := h.exists_stem.2
    obtain ⟨c, rest, hc⟩ := List.exists_cons_of_ne_nil hstem
    have hne : reference (stem name) ≠ [] := by
      rw [reference_eq, hc, List.flatMap_cons]
      simp [indexEscapeChar_ne_nil]
    have hpos := List.length_pos_iff.mpr hne
    rw [h.reference_eq, List.length_append, hgz]
    omega

lemma fileRow_of_full (w : Host) {d : Dirent} (h : Full d) (st : Stat) :
    fileRow w d st = .error .overflow := by
  rw [fileRow, filenames_of_full h]
  rfl

lemma take_sub_three (s : Bytes) : (s ++ str ".gz").take ((s ++ str ".gz").length - 3) = s := by
  have hgz : (str ".gz").length = 3 := by decide
  rw [List.length_append, hgz, Nat.add_sub_cancel, List.take_left]

lemma fileRow_of_not_full (w : Host) {d : Dirent} (h : ¬Full d) (st : Stat) :
    fileRow w d st = .ok (fileText w d st) := by
  have hiff := gz_iff d.name
  rw [fileRow, filenames_of_not_full h]
  by_cases hgz : w.gunzip ∧ IsGz d.name
  · have href := hgz.2.reference_eq
    have hhtml : (d.name.flatMap escapeHtml) =
        (stem d.name).flatMap escapeHtml ++ str ".gz" := by
      conv_lhs => rw [hgz.2.exists_stem.1]
      rw [List.flatMap_append]
      rfl
    have hcond := hiff.mpr hgz.2
    rw [fileText, if_pos hgz]
    change (if w.gunzip = true ∧ 3 < (reference d.name).length ∧
      (reference d.name).drop ((reference d.name).length - 3) = str ".gz" then _ else _) = _
    rw [if_pos ⟨hgz.1, hcond⟩, hhtml, take_sub_three]
    conv_lhs => rw [href, take_sub_three]
    rw [escapedFilename_of_begins (d := d) ⟨_, href.symm⟩, href]
    simp only [List.append_assoc]
    rfl
  · have hcond : ¬(w.gunzip = true ∧ 3 < (reference d.name).length ∧
        (reference d.name).drop ((reference d.name).length - 3) = str ".gz") :=
      fun hboth => hgz ⟨hboth.1, hiff.mp hboth.2⟩
    rw [fileText, if_neg hgz]
    change (if w.gunzip = true ∧ 3 < (reference d.name).length ∧
      (reference d.name).drop ((reference d.name).length - 3) = str ".gz" then _ else _) = _
    rw [if_neg hcond, escapedFilename_of_begins (List.prefix_refl _)]
    rfl

/-! ### The page -/

section

variable {stat : Dirent → Option Stat} {directory : Bool} {row : Dirent → Stat → Except Stop Bytes}

lemma chosen_cons (d : Dirent) (array : List Dirent) : chosen stat directory (d :: array) =
    (((stat d).filter fun st => decide (st.kind = .directory) = directory).map fun st =>
      (d, st)).toList ++ chosen stat directory array := by
  rw [chosen, List.filterMap_cons]
  cases (stat d).filter fun st => decide (st.kind = .directory) = directory with
  | none => rfl
  | some st => rfl

/-- The loop prints the rows of the entries that it chooses. -/
lemma listEntries_of_ok {text : Dirent → Stat → Bytes} {array : List Dirent}
    (h : ∀ p ∈ chosen stat directory array, row p.1 p.2 = .ok (text p.1 p.2)) :
    listEntries stat directory row array =
      ⟨(chosen stat directory array).flatMap fun p => text p.1 p.2, none⟩ := by
  induction array with
  | nil => rfl
  | cons d array ih =>
      rw [chosen_cons] at h ⊢
      cases hstat : stat d with
      | none =>
          simp only [hstat, Option.filter_none, Option.map_none, Option.toList_none,
            List.nil_append] at h ⊢
          rw [listEntries, hstat]
          exact ih h
      | some st =>
          by_cases hkind : decide (st.kind = .directory) = directory
          · simp only [hstat, Option.filter_some, hkind, decide_true, if_true, Option.map_some,
              Option.toList_some, List.singleton_append, List.forall_mem_cons] at h ⊢
            rw [listEntries, hstat]
            dsimp only
            rw [if_neg (not_not.mpr hkind), h.1, ih h.2, List.flatMap_cons]
            rfl
          · simp only [hstat, Option.filter_some, hkind, decide_false, Option.map_none,
              Option.toList_none, List.nil_append, Bool.false_eq_true, if_false] at h ⊢
            rw [listEntries, hstat]
            dsimp only
            rw [if_pos hkind]
            exact ih h

/-- The loop is stopped at a row that does not fit. -/
lemma listEntries_of_overflow
    (hrow : ∀ d st, row d st = .error .overflow ∨ ∃ out, row d st = .ok out) {array : List Dirent}
    (h : ∃ p ∈ chosen stat directory array, row p.1 p.2 = .error .overflow) :
    (listEntries stat directory row array).stop = some .overflow := by
  induction array with
  | nil => exact absurd h (by simp [chosen])
  | cons d array ih =>
      rw [chosen_cons] at h
      cases hstat : stat d with
      | none =>
          simp only [hstat, Option.filter_none, Option.map_none, Option.toList_none,
            List.nil_append] at h
          rw [listEntries, hstat]
          exact ih h
      | some st =>
          by_cases hkind : decide (st.kind = .directory) = directory
          · simp only [hstat, Option.filter_some, hkind, decide_true, if_true, Option.map_some,
              Option.toList_some, List.singleton_append, List.exists_mem_cons_iff] at h
            rw [listEntries, hstat]
            dsimp only
            rw [if_neg (not_not.mpr hkind)]
            rcases hrow d st with hover | ⟨out, hout⟩
            · rw [hover]
            · rw [hout] at h ⊢
              exact ih (h.resolve_left (by simp))
          · simp only [hstat, Option.filter_some, hkind, decide_false, Option.map_none,
              Option.toList_none, List.nil_append, Bool.false_eq_true, if_false] at h
            rw [listEntries, hstat]
            dsimp only
            rw [if_pos hkind]
            exact ih h

end

/-- Nothing is written beyond the end of a buffer: there is room for the title, and for the
references of the entries that are listed. -/
structure Fits (w : Host) (title : Bytes) (array : List Dirent) : Prop where
  title : (title.flatMap escapeHtml).length + 1 ≤ htmlFilenameSize
  dirs : ∀ p ∈ chosen w.statDir true array, ¬Full p.1
  files : ∀ p ∈ chosen w.statFile false array, ¬Full p.1

/-- The rows of the directories and of the files. -/
def rows (w : Host) (array : List Dirent) : Bytes :=
  ((chosen w.statDir true array).flatMap fun p => dirText w p.1 p.2) ++
    (filesFront ++ (chosen w.statFile false array).flatMap fun p => fileText w p.1 p.2)

lemma printPage_of_fits {w : Host} {title : Bytes} {array : List Dirent}
    (h : Fits w title array) : printPage w title array =
      ⟨pageFront title (title.flatMap escapeHtml) ++ rows w array, none⟩ := by
  have hdirs := listEntries_of_ok fun p hp => dirRow_of_not_full w (h.dirs p hp) p.2
  have hfiles := listEntries_of_ok fun p hp => fileRow_of_not_full w (h.files p hp) p.2
  rw [printPage, htmlEscapeString_given, intoBuffer_of_le h.title]
  dsimp only
  rw [hdirs, hfiles]
  rfl

lemma printPage_of_not_fits {w : Host} {title : Bytes} {array : List Dirent}
    (h : ¬Fits w title array) : (printPage w title array).stop = some .overflow := by
  have hdirrow (d : Dirent) (st : Stat) :
      dirRow w d st = .error .overflow ∨ ∃ out, dirRow w d st = .ok out := by
    by_cases hfull : Full d
    · exact Or.inl (dirRow_of_full w hfull st)
    · exact Or.inr ⟨_, dirRow_of_not_full w hfull st⟩
  have hfilerow (d : Dirent) (st : Stat) :
      fileRow w d st = .error .overflow ∨ ∃ out, fileRow w d st = .ok out := by
    by_cases hfull : Full d
    · exact Or.inl (fileRow_of_full w hfull st)
    · exact Or.inr ⟨_, fileRow_of_not_full w hfull st⟩
  rw [printPage, htmlEscapeString_given]
  rcases Nat.lt_or_ge htmlFilenameSize ((title.flatMap escapeHtml).length + 1) with hlt | hle
  · rw [intoBuffer_of_lt hlt]
  · rw [intoBuffer_of_le hle]
    dsimp only
    by_cases hdirs : ∀ p ∈ chosen w.statDir true array, ¬Full p.1
    · have hfiles : ∃ p ∈ chosen w.statFile false array, Full p.1 := by
        by_contra hall
        push Not at hall
        exact h ⟨hle, hdirs, hall⟩
      obtain ⟨p, hp, hfull⟩ := hfiles
      have hstop := listEntries_of_overflow hfilerow ⟨p, hp, fileRow_of_full w hfull p.2⟩
      rw [listEntries_of_ok fun p hp => dirRow_of_not_full w (hdirs p hp) p.2]
      exact hstop
    · push Not at hdirs
      obtain ⟨p, hp, hfull⟩ := hdirs
      have hstop := listEntries_of_overflow hdirrow ⟨p, hp, dirRow_of_full w hfull p.2⟩
      rw [Printed.behind, Printed.andThen, hstop]
      exact hstop

/-! ### The tags and the links of the parts -/

/-- Numbers are printed without markup. -/
lemma opening_notMem_decimal (i : ℤ) : 60 ∉ decimal i := by
  have hitoa (fuel n : ℕ) (acc : Bytes) (hacc : 60 ∉ acc) : 60 ∉ itoaLoop fuel n acc := by
    induction fuel generalizing n acc with
    | zero => exact hacc
    | succ fuel ih =>
        have hdigit : 60 ∉ UInt8.ofNat (48 + n % 10) :: acc := by
          rw [List.mem_cons, not_or]
          refine ⟨fun heq => ?_, hacc⟩
          have hdig := isDigit_digit (Nat.mod_lt n (by norm_num : 0 < 10))
          rw [← heq] at hdig
          cases hdig
        rw [itoaLoop]
        split_ifs
        · exact hdigit
        · exact ih _ _ hdigit
  rw [decimal, List.mem_append, not_or]
  refine ⟨?_, hitoa _ _ _ List.not_mem_nil⟩
  split_ifs <;> decide

lemma opening_notMem_padded {pad : UInt8} (hpad : pad ≠ 60) (n : ℕ) (i : ℤ) :
    60 ∉ padded pad n i := by
  rw [padded, List.mem_append, not_or]
  exact ⟨fun h => hpad (List.eq_of_mem_replicate h).symm, opening_notMem_decimal i⟩

/-- A time is printed without markup. -/
lemma opening_notMem_asctime (tm : Tm) : 60 ∉ asctime tm := by
  have hget (l : List Bytes) (hl : ∀ s ∈ l, 60 ∉ s) (n : ℕ) : 60 ∉ l[n]?.getD (str "???") := by
    cases hn : l[n]? with
    | none => exact show 60 ∉ str "???" by decide
    | some s => exact hl s (List.mem_of_getElem? hn)
  have hday := hget wdayTab (by decide) tm.wday.toNat
  have hmonth := hget monName (by decide) tm.mon.toNat
  have hblank (n : ℕ) (i : ℤ) : 60 ∉ padded 32 n i := opening_notMem_padded (by decide) n i
  have hzero (n : ℕ) (i : ℤ) : 60 ∉ padded 48 n i := opening_notMem_padded (by decide) n i
  have hsep : 60 ∉ str " " ∧ 60 ∉ str ":" := by decide
  simp only [asctime, List.mem_append, not_or, List.getD_eq_getElem?_getD]
  simp [hday, hmonth, hblank, hzero, hsep, opening_notMem_decimal]

/-- The part of a page contributes these tags and these links. -/
abbrev Shown (s : Bytes) (ts : List Bytes) (ls : List (Bytes × Bytes)) : Prop :=
  Tags.Shows reader s ts ls

/-- The tags of a link. -/
def linkTags : List Bytes := [str "a href=\"", str "/a"]

/-- A link, as it is read. -/
lemma shown_anchor {href text : Bytes} (hhref : 34 ∉ href) (htext : 60 ∉ text) :
    Shown (anchor href text) linkTags [(unescapeHtml href, unescapeHtml text)] := by
  have hshows := Tags.shows_link (k := reader) hhref htext
  have hanchor : anchor href text = 60 :: (reader.start ++ (href ++ [34]) ++ [62]) ++ text ++
      60 :: (reader.stop ++ [62]) := by
    have h₁ : str "<a href=\"" = 60 :: reader.start := by decide
    have h₂ : str "\">" = [34, 62] := by decide
    have h₃ : str "</a>" = 60 :: (reader.stop ++ [62]) := by decide
    rw [anchor, h₁, h₂, h₃]
    simp
  rw [hanchor]
  exact hshows

/-- A link whose parts are escaped. -/
lemma shown_anchor_escaped (href text : Bytes) :
    Shown (anchor (href.flatMap escapeHtml) (text.flatMap escapeHtml)) linkTags [(href, text)] := by
  have hanchor := shown_anchor (fun h => ((markupFree_flatMap href).plain 34 h).2.2 rfl)
    fun h => ((markupFree_flatMap text).plain 60 h).1 rfl
  rwa [unescapeHtml_flatMap, unescapeHtml_flatMap] at hanchor

/-- The tags of a row with `n` links. -/
def rowTags (n : ℕ) : List Bytes :=
  [str "tr", str "td width=\"40%\""] ++ (List.replicate n linkTags).flatten
    ++ [str "/td", str "td align=right", str "/td", str "td align=right", str "/td", str "/tr"]

/-- The tags before the rows. -/
def frontTags (title : Bytes) : List Bytes :=
  [str "html", str "head", str "title", str "/title", str "/head",
      str "body bgcolor=\"#ffffff\"", str "H2", str "/H2", str "table"]
    ++ (if title = str "/" then []
        else [str "tr", str "td colspan=3", str "h3", str "/h3", str "/td", str "/tr", str "tr",
          str "td colspan=3"] ++ linkTags ++ [str "/td", str "/tr"])

/-- The tags between the directories and the files. -/
def filesTags : List Bytes :=
  [str "tr", str "td colspan=3", str "/td", str "/tr", str "tr", str "td colspan=3", str "h3",
    str "/h3", str "/td", str "/tr"]

/-- The tags behind the rows. -/
def backTags : List Bytes :=
  [str "/table", str "hr noshade", str "!-- This program is part of the YABWF project --",
    str "/body", str "/html"]

lemma shown_rowFront : Shown rowFront [str "tr", str "td width=\"40%\""] [] :=
  Tags.shows_of_scan rfl rfl (by decide)

lemma shown_rowBack (w : Host) (st : Stat) : Shown (rowBack w st)
    [str "/td", str "td align=right", str "/td", str "td align=right", str "/td", str "/tr"]
    [] := by
  have hcell : Shown (str "</td><td align=right>") [str "/td", str "td align=right"] [] :=
    Tags.shows_of_scan rfl rfl (by decide)
  have hend : Shown (str " bytes</td></tr>\n") [str "/td", str "/tr"] [] :=
    Tags.shows_of_scan rfl rfl (by decide)
  have htime : Shown (ctime w st.mtime) [] [] := Tags.shows_text (opening_notMem_asctime _)
  have hsize : Shown (decimal st.size) [] [] := Tags.shows_text (opening_notMem_decimal _)
  exact (((hcell.append htime).append hcell).append hsize).append hend

lemma flatMap_escapeHtml_slash (s : Bytes) :
    s.flatMap escapeHtml ++ str "/" = (s ++ str "/").flatMap escapeHtml := by
  rw [List.flatMap_append]
  rfl

/-- The row of a directory has the link to it. -/
lemma shown_dirText (w : Host) (d : Dirent) (st : Stat) :
    Shown (dirText w d st) (rowTags 1) [dirLink d] := by
  have hanchor := shown_anchor_escaped (dirLink d).1 (dirLink d).2
  rw [dirText, flatMap_escapeHtml_slash, flatMap_escapeHtml_slash]
  exact (shown_rowFront.append hanchor).append (shown_rowBack w st)

/-- There are no entities where there is no semicolon. -/
lemma unescapeHtml_of_notMem {s : Bytes} (h : 59 ∉ s) : unescapeHtml s = s := by
  induction s with
  | nil => rfl
  | cons b s ih =>
      rw [List.mem_cons, not_or] at h
      rw [unescapeHtml]
      · rw [ih h.2]
      all_goals
        rintro t - rfl
        exact h.2 (by simp)

/-- The row of a file has one link to it, or one to its stem and one to itself. -/
lemma shown_fileText (w : Host) (d : Dirent) (st : Stat) :
    Shown (fileText w d st) (rowTags (fileLinks w.gunzip d).length) (fileLinks w.gunzip d) := by
  rw [fileText, fileLinks]
  split_ifs with hgz
  · have hstem := shown_anchor_escaped (reference (stem d.name)) (stem d.name)
    have hfile : Shown (anchor (reference d.name) (str "(.gz)")) linkTags
        [(reference d.name, str "(.gz)")] := by
      have hanchor := shown_anchor (notMem_reference d.name).1
        (show 60 ∉ str "(.gz)" by decide)
      have hlabel : unescapeHtml (str "(.gz)") = str "(.gz)" := by decide
      rwa [unescapeHtml_of_notMem (notMem_reference d.name).2, hlabel] at hanchor
    have hblank : Shown (str " ") [] [] := Tags.shows_text (by decide)
    exact (shown_rowFront.append ((hstem.append hblank).append hfile)).append (shown_rowBack w st)
  · exact (shown_rowFront.append (shown_anchor_escaped _ _)).append (shown_rowBack w st)

lemma shown_pageFront (title html : Bytes) (hhtml : 60 ∉ html) : Shown (pageFront title html)
    (frontTags title) (parentLinks title) := by
  have hhead : Shown (str "<html>\n<head>\n<title>Index of ")
      [str "html", str "head", str "title"] [] := Tags.shows_of_scan rfl rfl (by decide)
  have hbody : Shown (str "</title>\n</head>\n\n<body bgcolor=\"#ffffff\">\n<H2>Index of ")
      [str "/title", str "/head", str "body bgcolor=\"#ffffff\"", str "H2"] [] :=
    Tags.shows_of_scan rfl rfl (by decide)
  have htable : Shown (str "</H2>\n<table>\n") [str "/H2", str "table"] [] :=
    Tags.shows_of_scan rfl rfl (by decide)
  have htitle : Shown html [] [] := Tags.shows_text hhtml
  have hfront := (((hhead.append htitle).append hbody).append htitle).append htable
  rw [pageFront, frontTags, parentLinks]
  by_cases hroot : title = str "/"
  · simp only [if_pos hroot]
    exact hfront.append Tags.shows_nil
  · have hdirs : Shown (str "<tr><td colspan=3><h3>Directories</h3></td></tr><tr><td colspan=3>")
        [str "tr", str "td colspan=3", str "h3", str "/h3", str "/td", str "/tr", str "tr",
          str "td colspan=3"] [] := Tags.shows_of_scan rfl rfl (by decide)
    have hparent : Shown (anchor (str "../") (str "Parent Directory")) linkTags
        [(str "../", str "Parent Directory")] := shown_anchor (by decide) (by decide)
    have hend : Shown (str "</td></tr>\n") [str "/td", str "/tr"] [] :=
      Tags.shows_of_scan rfl rfl (by decide)
    simp only [if_neg hroot]
    exact hfront.append ((hdirs.append hparent).append hend)

lemma shown_filesFront : Shown filesFront filesTags [] := by
  have hblank : Shown (str "<tr><td colspan=3>&nbsp;</td></tr>\n")
      [str "tr", str "td colspan=3", str "/td", str "/tr"] [] :=
    Tags.shows_of_scan rfl rfl (by decide)
  have hfiles : Shown (str "<tr><td colspan=3><h3>Files</h3></td></tr>\n")
      [str "tr", str "td colspan=3", str "h3", str "/h3", str "/td", str "/tr"] [] :=
    Tags.shows_of_scan rfl rfl (by decide)
  exact hblank.append hfiles

lemma shown_pageBack (w : Host) (tm : Tm) (hzone : ∀ z ∈ w.zone, 60 ∉ z) :
    Shown (pageBack w tm) backTags [] := by
  have hfront : Shown (str "</table>\n<hr noshade>\nIndex generated ")
      [str "/table", str "hr noshade"] [] := Tags.shows_of_scan rfl rfl (by decide)
  have hcomment : Shown (str "\n<!-- This program is part of the YABWF project -->\n")
      [str "!-- This program is part of the YABWF project --"] [] :=
    Tags.shows_of_scan rfl rfl (by decide)
  have hback : Shown (str "</body>\n</html>\n") [str "/body", str "/html"] [] :=
    Tags.shows_of_scan rfl rfl (by decide)
  have htime : Shown (asctime tm).dropLast [] [] :=
    Tags.shows_text fun h => opening_notMem_asctime tm (List.mem_of_mem_dropLast h)
  have hzonetext : Shown (w.zone.getD (str "UTC")) [] [] := by
    cases hz : w.zone with
    | none => exact Tags.shows_text (by decide)
    | some z => exact Tags.shows_text (hzone z hz)
  have hblank : Shown (str " ") [] [] := Tags.shows_text (by decide)
  exact ((((hfront.append htime).append hblank).append hzonetext).append hcomment).append hback

/-! ### Where the links lead -/

/-- Where the server looks for what a reference of a page in the directory `base` refers to. -/
def follow (base href : Bytes) : Option Bytes :=
  if (unescapeUri href true).1 then some (cleanPathname (base ++ (unescapeUri href true).2.1))
  else none

section

variable {base name : Bytes}

lemma follow_reference (hbase : base.getLast? = some 47) (hname : ∀ b ∈ name, Printable b)
    (hslash : 47 ∉ name) : follow base (reference name) = some (cleanPathname base ++ name) := by
  rw [follow, reference, unescapeUri_reference hname]
  exact congrArg some (cleanPathname_reference hbase hslash)

/-- The slash of a reference to a directory. -/
lemma follow_reference_slash (hbase : base.getLast? = some 47) (hname : ∀ b ∈ name, Printable b)
    (hslash : 47 ∉ name) (hdot : name.head? ≠ some 46) (hne : name ≠ []) :
    follow base (reference name ++ str "/") = some (cleanPathname base ++ name ++ str "/") := by
  have happend : reference name ++ str "/" = reference (name ++ str "/") :=
    (reference_append hne (by decide) (by decide)).symm
  have hprintable : ∀ b ∈ name ++ str "/", Printable b := by
    intro b hb
    rcases List.mem_append.mp hb with hb | hb
    · exact hname b hb
    · rw [List.mem_singleton.mp (show b ∈ [47] from hb)]
      exact ⟨by decide, by decide⟩
  have hkept : droppable name = false := by
    by_contra hdrop
    simp only [Bool.not_eq_false, droppable, Bool.or_eq_true, beq_iff_eq] at hdrop
    rcases hdrop with (rfl | rfl) | rfl
    · exact hne rfl
    · exact hdot rfl
    · exact hdot rfl
  have hclean : cleanLoop true (name ++ str "/") = name ++ str "/" := by
    have hloop := cleanLoop_true_append hslash []
    rw [hkept, if_neg (by simp)] at hloop
    exact hloop
  obtain ⟨d, rfl⟩ := List.getLast?_eq_some_iff.mp hbase
  rw [follow, happend, reference, unescapeUri_reference hprintable, if_pos rfl]
  dsimp only
  rw [cleanPathname, cleanPathname, List.append_assoc, List.singleton_append, cleanLoop_append,
    List.append_assoc]
  split_ifs
  · have hguard :
        cleanLoop true (str "./" ++ (name ++ str "/")) = cleanLoop true (name ++ str "/") := rfl
    rw [hguard, hclean]
  · rw [List.nil_append, hclean]

end

/-! ### The whole page -/

/-- The names that the links of a file lead to. -/
def fileNames (gunzip : Bool) (d : Dirent) : List Bytes :=
  if gunzip ∧ IsGz d.name then [stem d.name, d.name] else [d.name]

/-- The page lists the entries. -/
structure Listing (w : Host) (title : Bytes) (array : List Dirent) (page : Bytes) : Prop where
  /-- All entries but the hidden ones are looked at. -/
  entries : array.Perm (w.readdir.filter selectFiles)
  /-- The links are those to the entries, in order. -/
  links : linksOf page = parentLinks title
    ++ (chosen w.statDir true array).map (fun p => dirLink p.1)
    ++ (chosen w.statFile false array).flatMap fun p => fileLinks w.gunzip p.1
  /-- No name contributes to the tags. -/
  tags : tagsOf page = frontTags title
    ++ (List.replicate (chosen w.statDir true array).length (rowTags 1)).flatten ++ filesTags
    ++ ((chosen w.statFile false array).flatMap fun p => rowTags (fileLinks w.gunzip p.1).length)
    ++ backTags
  /-- Where the names are printable, the links lead to the entries. -/
  leads : ∀ base : Bytes, base.getLast? = some 47 → (∀ d ∈ array, ∀ b ∈ d.name, Printable b) →
    ((linksOf page).drop (parentLinks title).length).map (fun l => follow base l.1) =
      ((chosen w.statDir true array).map fun p =>
          some (cleanPathname base ++ p.1.name ++ str "/"))
        ++ (chosen w.statFile false array).flatMap fun p =>
          (fileNames w.gunzip p.1).map fun name => some (cleanPathname base ++ name)

lemma mem_of_mem_chosen {stat : Dirent → Option Stat} {directory : Bool} {array : List Dirent}
    {p : Dirent × Stat} (h : p ∈ chosen stat directory array) : p.1 ∈ array := by
  obtain ⟨d, hd, hp⟩ := List.mem_filterMap.mp h
  obtain ⟨st, -, rfl⟩ := Option.map_eq_some_iff.mp hp
  exact hd

lemma flatMap_const {β : Type} (l : List β) (ts : List Bytes) :
    (l.flatMap fun _ => ts) = (List.replicate l.length ts).flatten := by
  induction l with
  | nil => rfl
  | cons b l ih => rw [List.flatMap_cons, ih, List.length_cons, List.replicate_succ,
      List.flatten_cons]

lemma shown_rows (w : Host) (array : List Dirent) : Shown (rows w array)
    ((List.replicate (chosen w.statDir true array).length (rowTags 1)).flatten ++ (filesTags ++
      (chosen w.statFile false array).flatMap fun p => rowTags (fileLinks w.gunzip p.1).length))
    ((chosen w.statDir true array).map (fun p => dirLink p.1) ++
      (chosen w.statFile false array).flatMap fun p => fileLinks w.gunzip p.1) := by
  have hdirs := Tags.shows_flatMap (l := chosen w.statDir true array) fun p _ =>
    shown_dirText w p.1 p.2
  have hfiles := Tags.shows_flatMap (l := chosen w.statFile false array) fun p _ =>
    shown_fileText w p.1 p.2
  have hsingle : ((chosen w.statDir true array).flatMap fun p => [dirLink p.1]) =
      (chosen w.statDir true array).map fun p => dirLink p.1 := List.map_eq_flatMap.symm
  rw [flatMap_const, hsingle] at hdirs
  exact hdirs.append (shown_filesFront.append hfiles)

/-- The links of a file lead to the file, and to its stem. -/
lemma follow_fileLinks {base : Bytes} (hbase : base.getLast? = some 47) (gunzip : Bool)
    {d : Dirent} (hd : ∀ b ∈ d.name, Printable b) :
    (fileLinks gunzip d).map (fun l => follow base l.1) =
      (fileNames gunzip d).map fun name => some (cleanPathname base ++ name) := by
  have hfile := follow_reference hbase hd d.noSlash
  rw [fileLinks, fileNames]
  split_ifs with hgz
  · have hsub : ∀ b ∈ stem d.name, b ∈ d.name := fun b hb => List.mem_of_mem_take hb
    have hstem := follow_reference hbase (fun b hb => hd b (hsub b hb)) fun h =>
      d.noSlash (hsub 47 h)
    rw [List.map_cons, List.map_cons, List.map_nil, hfile, hstem]
    rfl
  · rw [List.map_cons, List.map_nil, hfile]
    rfl

/-- **The page of a directory**: unless a reference of 765 bytes or the title is written beyond the
end of its buffer, the links of the page are those to the parent, to the directories and to the
files, in order and with their names, the names contribute nothing to the tags of the page, and the
links lead to the entries. -/
theorem main_page (w : Host) (prog dir title : Bytes) (array : List Dirent)
    (hzone : ∀ z ∈ w.zone, 60 ∉ z) (hchdir : w.chdir dir = true)
    (hscan : scandir w = some array) (hstrdup : w.strdup = true) :
    (¬Fits w title array → main w [prog, dir, title] = none) ∧
      (Fits w title array → ∃ page, main w [prog, dir, title] = some (page, 0) ∧
        Listing w title array page) := by
  have hentries : array.Perm (w.readdir.filter selectFiles) := by
    rw [scandir] at hscan
    split_ifs at hscan
    obtain rfl := Option.some.inj hscan
    exact w.perm _
  constructor
  · intro hfits
    have hstop := printPage_of_not_fits hfits
    have hindex : indexDirectory w dir title = none := by
      rw [indexDirectory, if_neg (by simp [hchdir]), hscan]
      dsimp only
      rw [hstop]
    rw [main, hindex]
  · intro hfits
    have hpage := printPage_of_fits hfits
    have hindex : indexDirectory w dir title =
        some (pageFront title (title.flatMap escapeHtml) ++ rows w array, 0) := by
      rw [indexDirectory, if_neg (by simp [hchdir]), hscan]
      dsimp only
      rw [hpage]
    have hmain : main w [prog, dir, title] =
        some (pageFront title (title.flatMap escapeHtml) ++ rows w array ++ pageBack w
          (if w.zone.isSome then w.localtime w.now else gmtime w.now), 0) := by
      rw [main, hindex]
      dsimp only
      rw [if_pos hstrdup]
    have hshown := ((shown_pageFront title (title.flatMap escapeHtml) fun h =>
      ((markupFree_flatMap title).plain 60 h).1 rfl).append (shown_rows w array)).append
        (shown_pageBack w (if w.zone.isSome then w.localtime w.now else gmtime w.now) hzone)
    have hlinks := hshown.links_eq
    have htags := hshown.tags_eq
    rw [List.append_nil, ← List.append_assoc] at hlinks
    simp only [← List.append_assoc] at htags
    refine ⟨_, hmain, hentries, hlinks, htags, fun base hbase hprintable => ?_⟩
    have hselected : ∀ d ∈ array, d.name.head? ≠ some 46 := fun d hd => by
      have hmem := (List.mem_filter.mp (hentries.mem_iff.mp hd)).2
      rw [selectFiles, decide_eq_true_eq] at hmem
      exact hmem
    rw [linksOf, hlinks, List.append_assoc, List.drop_left, List.map_append, List.map_map,
      List.map_flatMap]
    congr 1
    · refine List.map_congr_left fun p hp => ?_
      have hd := mem_of_mem_chosen hp
      exact follow_reference_slash hbase (hprintable _ hd) p.1.noSlash (hselected _ hd) p.1.ne_nil
    · refine List.flatMap_congr fun p hp => ?_
      exact follow_fileLinks hbase w.gunzip (hprintable _ (mem_of_mem_chosen hp))

/-- A directory with a subdirectory, a compressed file whose name is markup, and a hidden file. -/
def sampleHost : Host where
  gunzip := true
  zone := none
  chdir := fun _ => true
  readable := true
  readdir := [⟨str "docs", by decide, by decide, by decide⟩,
    ⟨str "<b>.gz", by decide, by decide, by decide⟩, ⟨str ".git", by decide, by decide, by decide⟩]
  arrange := id
  perm := fun _ => List.Perm.refl _
  statDir := fun d => some ⟨if d.name = str "docs" then .directory else .regular, 0, 0, 0, 0⟩
  statFile := fun d => some ⟨if d.name = str "docs" then .directory else .regular, 0, 0, 0, 0⟩
  localtime := gmtime
  now := 0
  strdup := true

theorem main_page_sampleHost :
    ∃ page, main sampleHost [str "boa_indexer", str "/srv/pub/", str "/pub/"] = some (page, 0) ∧
      Listing sampleHost (str "/pub/") (sampleHost.readdir.take 2) page := by
  have hshort : ∀ d ∈ sampleHost.readdir.take 2, d.name.length ≠ maxNamLen := by decide
  refine (main_page sampleHost _ _ _ (sampleHost.readdir.take 2) (by rintro z ⟨⟩) rfl (by decide)
    rfl).2 ⟨by decide, ?_, ?_⟩
  all_goals
    intro p hp hfull
    exact hshort _ (mem_of_mem_chosen hp) hfull.1

end Indexer

end Yabwf
