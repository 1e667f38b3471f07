import Yabwf.IndexPage

/-!
The listing that `index_directory` of `get.c` writes into the cache directory.

* `listingPage`: the file, for what `readdir` gives.
* `tags_rows_iff`: the tags of the rows are those of their links exactly when no name has an angle
  bracket.
* `listingPage_read`: the names that are markup are exactly those that spoil the listing; without
  them its links are those to the entries, in the order of the directory.
-/

namespace Yabwf

namespace CachedListing

open Indexer (Dirent follow)

/-! ### The file -/

/-- A link. -/
def link (href text : Bytes) : Bytes :=
  str "<A HREF=\"" ++ href ++ str "\">" ++ text ++ str "</A>"

/-- What is written for an entry, where `malloc` tells whether there is memory for its escaped
name. -/
def row (malloc : Dirent → Bool) (d : Dirent) : Bytes :=
  if d.name = str "." then []
  else if d.name = str ".." then str " [DIR] " ++ link (str "../") (str "Parent Directory") ++ [10]
  else if malloc d then str " " ++ link (escapeString d.name) d.name ++ [10]
  else []

/-- The file before the rows. -/
def front (uri : Bytes) : Bytes :=
  str "<HTML><HEAD>\n<TITLE>Index of " ++ uri ++ str "</TITLE>\n</HEAD>\n\n"
    ++ str "<BODY>\n\n<H2>Index of " ++ uri ++ str "</H2>\n\n<PRE>\n"

/-- The file behind the rows. -/
def back : Bytes := str "</PRE>\n\n</BODY>\n</HTML>\n"

/-- The file that `index_directory` writes. -/
def listingPage (malloc : Dirent → Bool) (uri : Bytes) (array : List Dirent) : Bytes :=
  front uri ++ array.flatMap (row malloc) ++ back

/-! ### What a reader sees -/

/-- A reader of the file. -/
def reader : Tags.Reader UInt8 where
  opening := 60
  closing := 62
  quote := 34
  nodup := Indexer.marks_nodup
  front := str "A HREF="
  front_plain := by decide
  stop := str "/A"
  stop_plain := by decide
  decode := unescapeHtml

/-- The links of the file: what they refer to, and their text. -/
def linksOf (page : Bytes) : List (Bytes × Bytes) := Tags.links reader (Tags.pieces reader page)

/-- The tags of the file, without what its links refer to. -/
def tagsOf (page : Bytes) : List Bytes := Tags.tags reader (Tags.pieces reader page)

/-- The entries that are listed. -/
def listed (malloc : Dirent → Bool) (array : List Dirent) : List Dirent :=
  array.filter fun d => d.name ≠ str "." ∧ (d.name = str ".." ∨ malloc d = true)

/-- The link to an entry. -/
def entryLink (d : Dirent) : Bytes × Bytes :=
  if d.name = str ".." then (str "../", str "Parent Directory")
  else (escapeString d.name, unescapeHtml d.name)

/-- The tags of a link. -/
def linkTags : List Bytes := [str "A HREF=\"", str "/A"]

/-- The tags before the rows. -/
def frontTags : List Bytes :=
  [str "HTML", str "HEAD", str "TITLE", str "/TITLE", str "/HEAD", str "BODY", str "H2",
    str "/H2", str "PRE"]

/-- The tags behind the rows. -/
def backTags : List Bytes := [str "/PRE", str "/BODY", str "/HTML"]

/-! ### The parts of the file -/

/-- The part of the file contributes these tags and these links. -/
abbrev Shown (s : Bytes) (ts : List Bytes) (ls : List (Bytes × Bytes)) : Prop :=
  Tags.Shows reader s ts ls

lemma shown_front {uri : Bytes} (h : 60 ∉ uri) : Shown (front uri) frontTags [] := by
  have huri : Shown uri [] [] := Tags.shows_text h
  have hhead : Shown (str "<HTML><HEAD>\n<TITLE>Index of ")
      [str "HTML", str "HEAD", str "TITLE"] [] := Tags.shows_of_scan rfl rfl (by decide)
  have htitle : Shown (str "</TITLE>\n</HEAD>\n\n") [str "/TITLE", str "/HEAD"] [] :=
    Tags.shows_of_scan rfl rfl (by decide)
  have hbody : Shown (str "<BODY>\n\n<H2>Index of ") [str "BODY", str "H2"] [] :=
    Tags.shows_of_scan rfl rfl (by decide)
  have hpre : Shown (str "</H2>\n\n<PRE>\n") [str "/H2", str "PRE"] [] :=
    Tags.shows_of_scan rfl rfl (by decide)
  exact ((((hhead.append huri).append htitle).append hbody).append huri).append hpre

lemma shown_back : Shown back backTags [] := Tags.shows_of_scan rfl rfl (by decide)

lemma link_eq (href text : Bytes) : link href text =
    60 :: (reader.start ++ (href ++ [34]) ++ [62]) ++ text ++ 60 :: (reader.stop ++ [62]) := by
  have h₁ : str "<A HREF=\"" = 60 :: reader.start := by decide
  have h₂ : str "\">" = [34, 62] := by decide
  have h₃ : str "</A>" = 60 :: (reader.stop ++ [62]) := by decide
  rw [link, h₁, h₂, h₃]
  simp

lemma shown_link {href text : Bytes} (hhref : 34 ∉ href) (htext : 60 ∉ text) :
    Shown (link href text) linkTags [(unescapeHtml href, unescapeHtml text)] := by
  have hshows := Tags.shows_link (k := reader) hhref htext
  rw [link_eq]
  exact hshows

/-- An escaped name has no quotation mark and no semicolon. -/
lemma notMem_escapeString (name : Bytes) : 34 ∉ escapeString name ∧ 59 ∉ escapeString name := by
  have hall : ∀ b ∈ escapeString name, b ≠ 34 ∧ b ≠ 59 := by
    intro b hb
    obtain ⟨c, -, hb⟩ := List.mem_flatMap.mp hb
    exact Indexer.unquoted_of_escaped (mem_escapeHttp hb)
  exact ⟨fun h => (hall _ h).1 rfl, fun h => (hall _ h).2 rfl⟩

/-- The row of an entry that is listed. -/
def entryText (d : Dirent) : Bytes :=
  if d.name = str ".." then str " [DIR] " ++ link (str "../") (str "Parent Directory") ++ [10]
  else str " " ++ link (escapeString d.name) d.name ++ [10]

lemma row_eq (malloc : Dirent → Bool) (d : Dirent) : row malloc d =
    if d.name ≠ str "." ∧ (d.name = str ".." ∨ malloc d = true) then entryText d else [] := by
  have hdots : str ".." ≠ str "." := by decide
  rw [row, entryText]
  by_cases hdot : d.name = str "."
  · simp [hdot]
  · by_cases hparent : d.name = str ".."
    · simp [hparent, hdots]
    · simp [hdot, hparent]

/-- The rows are those of the entries that are listed. -/
lemma flatMap_row (malloc : Dirent → Bool) (array : List Dirent) :
    array.flatMap (row malloc) = (listed malloc array).flatMap entryText := by
  induction array with
  | nil => rfl
  | cons d array ih =>
      rw [List.flatMap_cons, ih, row_eq, listed, listed, List.filter_cons]
      split_ifs with h h' h'
      · rfl
      · exact absurd (decide_eq_true h) h'
      · exact absurd (of_decide_eq_true h') h
      · rfl

lemma shown_entryText {d : Dirent} (h : 60 ∉ d.name) :
    Shown (entryText d) linkTags [entryLink d] := by
  have hline : Shown [10] [] [] := Tags.shows_text (by decide)
  rw [entryText, entryLink]
  split_ifs with hparent
  · have hdir : Shown (str " [DIR] ") [] [] := Tags.shows_text (by decide)
    have hlink : Shown (link (str "../") (str "Parent Directory")) linkTags
        [(str "../", str "Parent Directory")] := shown_link (by decide) (by decide)
    exact (hdir.append hlink).append hline
  · have hblank : Shown (str " ") [] [] := Tags.shows_text (by decide)
    have hlink := shown_link (notMem_escapeString d.name).1 h
    rw [Indexer.unescapeHtml_of_notMem (notMem_escapeString d.name).2] at hlink
    exact (hblank.append hlink).append hline

/-- **A name with an angle bracket** opens a tag of its own, which is not the end of its link. -/
lemma tags_entryText_ne {d : Dirent} (h : 60 ∈ d.name) (rest : Bytes) (ts : List Bytes) :
    tagsOf (entryText d ++ rest) ≠ linkTags ++ ts := by
  have hparent : d.name ≠ str ".." := by
    intro heq
    rw [heq] at h
    revert h
    decide
  obtain ⟨u, v, hname, hu⟩ := List.eq_append_cons_of_mem h
  have htag : Tags.Reads reader (60 :: (reader.start ++ (escapeString d.name ++ [34]) ++ [62]))
      [.tag (reader.start ++ (escapeString d.name ++ [34]))] := by
    refine Tags.reads_tag ?_
    rw [Tags.Reader.start, List.append_assoc]
    exact (Tags.inside_plain reader.front_plain).append
      (Tags.inside_quoted (notMem_escapeString d.name).1)
  have hblank : Tags.Reads reader [32] [.char 32] := rfl
  have hread := (hblank.append htag).append (Tags.reads_text hu)
  have htext : entryText d ++ rest =
      [32] ++ 60 :: (reader.start ++ (escapeString d.name ++ [34]) ++ [62]) ++ u ++
        reader.opening :: (v ++ (60 :: (reader.stop ++ [62]) ++ [10] ++ rest)) := by
    have hopening : reader.opening = 60 := rfl
    have hspace : str " " = [32] := rfl
    rw [entryText, if_neg hparent, link_eq, hspace]
    generalize escapeString d.name = href
    rw [hname, hopening]
    simp
  have hprefix : reader.start.isPrefixOf (reader.start ++ (escapeString d.name ++ [34])) = true :=
    List.isPrefixOf_iff_prefix.mpr (List.prefix_append _ _)
  intro heq
  rw [htext, tagsOf, Tags.pieces, Tags.scan_append, hread, Tags.tags_append, Tags.tags_append,
    Tags.tags_map_char, List.append_nil, List.singleton_append, Tags.tags, Tags.tags, Tags.tags,
    Tags.bare, if_pos hprefix] at heq
  have hhead := congrArg (fun l => l.head?) (List.cons.inj heq).2
  obtain ⟨tag, htagged, hfront⟩ := Tags.head_tags_opening reader hhead
  rw [Tags.bare] at htagged
  split_ifs at htagged with hstart
  · exact absurd htagged (by decide)
  · rw [← htagged] at hfront
    -- the end of a link begins with a slash, and a name has none
    cases v with
    | nil => exact absurd (List.cons_prefix_cons.mp hfront).1 (by decide)
    | cons c v =>
        rw [List.cons_append] at hfront
        have hslash := (List.cons_prefix_cons.mp hfront).1
        refine d.noSlash ?_
        rw [hname, show (47 : UInt8) = c from hslash]
        simp

/-- **The tags of the rows** are those of their links exactly when no name has an angle bracket. -/
lemma tags_rows_iff (l : List Dirent) : tagsOf (l.flatMap entryText ++ back) =
    (List.replicate l.length linkTags).flatten ++ backTags ↔ ∀ d ∈ l, 60 ∉ d.name := by
  induction l with
  | nil =>
      have hback := shown_back.tags_eq
      simp only [List.flatMap_nil, List.nil_append, List.length_nil, List.replicate_zero,
        List.flatten_nil, tagsOf, hback, List.not_mem_nil, false_implies, implies_true]
  | cons d l ih =>
      rw [List.flatMap_cons, List.append_assoc, List.length_cons, List.replicate_succ,
        List.flatten_cons, List.append_assoc, List.forall_mem_cons]
      by_cases h : 60 ∈ d.name
      · constructor
        · intro heq
          exact absurd heq (tags_entryText_ne h _ _)
        · rintro ⟨hplain, -⟩
          exact absurd h hplain
      · have htags := (shown_entryText h).tags_append (l.flatMap entryText ++ back)
        rw [tagsOf, htags, List.append_right_inj, ← tagsOf, ih]
        exact ⟨fun hrest => ⟨h, hrest⟩, fun hall => hall.2⟩

/-! ### Where the links lead -/

lemma unescapeUri_escapeString {name : Bytes} (h : ∀ b ∈ name, Linkable b) :
    unescapeUri (escapeString name) true = (true, name, none) := by
  rw [unescapeUri, escapeString]
  induction name with
  | nil => rfl
  | cons b name ih =>
      rw [List.forall_mem_cons] at h
      rw [List.flatMap_cons, unescapeLoop_escapeHttp, if_pos h.1, ih h.2]

lemma follow_escapeString {base name : Bytes} (hbase : base.getLast? = some 47)
    (hname : ∀ b ∈ name, Linkable b) (hslash : 47 ∉ name) :
    follow base (escapeString name) = some (cleanPathname base ++ name) := by
  obtain ⟨d, rfl⟩ := List.getLast?_eq_some_iff.mp hbase
  rw [follow, unescapeUri_escapeString hname, if_pos rfl]
  dsimp only
  rw [cleanPathname, cleanPathname, List.append_assoc, List.singleton_append, cleanLoop_append,
    cleanLoop_true_of_notMem hslash]

/-- **A cached listing** of a directory whose URI has no angle bracket: its tags are those of its
links exactly when no name has one; then the links are those to the entries, in the order of the
directory and with their names as a reader takes them, and those of linkable names lead to their
entries. -/
theorem listingPage_read (malloc : Dirent → Bool) (uri : Bytes) (array : List Dirent)
    (huri : 60 ∉ uri) :
    (tagsOf (listingPage malloc uri array) =
        frontTags ++ ((List.replicate (listed malloc array).length linkTags).flatten ++ backTags) ↔
      ∀ d ∈ listed malloc array, 60 ∉ d.name) ∧
    ((∀ d ∈ listed malloc array, 60 ∉ d.name) →
      linksOf (listingPage malloc uri array) = (listed malloc array).map entryLink ∧
      ∀ base : Bytes, base.getLast? = some 47 → ∀ d ∈ listed malloc array, d.name ≠ str ".." →
        (∀ b ∈ d.name, Linkable b) →
          follow base (entryLink d).1 = some (cleanPathname base ++ d.name)) := by
  have hpage : listingPage malloc uri array =
      front uri ++ ((listed malloc array).flatMap entryText ++ back) := by
    rw [listingPage, flatMap_row, List.append_assoc]
  constructor
  · have htags := (shown_front huri).tags_append ((listed malloc array).flatMap entryText ++ back)
    rw [hpage, tagsOf, htags, List.append_right_inj, ← tagsOf]
    exact tags_rows_iff _
  · intro hplain
    have hrows := Tags.shows_flatMap fun d hd => shown_entryText (hplain d hd)
    have hlinks := ((shown_front huri).append (hrows.append shown_back)).links_eq
    refine ⟨?_, fun base hbase d _ hparent hname => ?_⟩
    · rw [linksOf, hpage, hlinks, List.nil_append, List.append_nil]
      exact List.map_eq_flatMap.symm
    · rw [entryLink, if_neg hparent]
      exact follow_escapeString hbase hname d.noSlash

/-- The listing of a directory with its parent, a document and an entry that is not listed. -/
theorem listingPage_read_guide :
    linksOf (listingPage (fun _ => true) (str "/pub/")
      [⟨str ".", by decide, by decide, by decide⟩, ⟨str "..", by decide, by decide, by decide⟩,
        ⟨str "R&D \"1\"", by decide, by decide, by decide⟩]) =
      [(str "../", str "Parent Directory"), (str "R&D%20%221%22", str "R&D \"1\"")] :=
  ((listingPage_read (fun _ => true) (str "/pub/") _ (by decide)).2 (by decide)).1.trans (by decide)

end CachedListing

end Yabwf
