import Mathlib.Tactic

/-!
A text with tags, and its links: a tag stands between an opening and a closing character, and a
closing character between two quotation marks does not end it.

* `Reader`: the characters of the markup, and what the tags of a link look like.
* `scan`, `pieces`: what a reader takes from a text, character by character.
* `tags`, `links`: the tags of a text, and its links with their labels.
* `Shows`: a text that contributes certain tags and links to every text that it is a part of.
* `shows_text`, `shows_link`: a text without an opening character contributes nothing, and a link
  without a quotation mark is read back with its label.
* `head_tags_opening`: the first tag of a text begins with what stands behind its opening character.
-/

namespace Tags

/-- The characters that structure a text, and the tags at both ends of a link: the first one begins
with `front`, and what the link refers to follows between quotation marks. -/
structure Reader (α : Type*) where
  opening : α
  closing : α
  quote : α
  nodup : [opening, closing, quote].Nodup
  front : List α
  front_plain : closing ∉ front ∧ quote ∉ front
  stop : List α
  stop_plain : closing ∉ stop ∧ quote ∉ stop
  /-- What the text between tags, and a reference, stand for. -/
  decode : List α → List α

/-- What a text is read as. -/
inductive Piece (α : Type*)
  | char (a : α)
  | tag (t : List α)
  deriving DecidableEq

/-- Where a reader is: outside all tags, or behind the beginning of a tag, maybe between two
quotation marks. -/
inductive Place (α : Type*)
  | text
  | tag (t : List α) (quoted : Bool)
  deriving DecidableEq

variable {α β : Type*}

lemma Reader.ne (k : Reader α) :
    k.opening ≠ k.closing ∧ k.opening ≠ k.quote ∧ k.closing ≠ k.quote := by
  have h := k.nodup
  simp only [List.nodup_cons, List.mem_cons, List.not_mem_nil, or_false, not_or] at h
  exact ⟨h.1.1, h.1.2, h.2.1⟩

/-- The beginning of the tag of a link, with its first quotation mark. -/
def Reader.start (k : Reader α) : List α := k.front ++ [k.quote]

variable [DecidableEq α] (k : Reader α)

/-- One character. -/
def next : Place α → α → Place α × List (Piece α)
  | .text, a => if a = k.opening then (.tag [] false, []) else (.text, [.char a])
  | .tag t quoted, a =>
      if a = k.quote then (.tag (t ++ [a]) !quoted, [])
      else if a = k.closing ∧ quoted = false then (.text, [.tag t])
      else (.tag (t ++ [a]) quoted, [])

/-- What is read from a place on, and where the reader is then. -/
def scan : Place α → List α → List (Piece α) × Place α
  | p, [] => ([], p)
  | p, a :: s => ((next k p a).2 ++ (scan (next k p a).1 s).1, (scan (next k p a).1 s).2)

/-- The pieces of a text. -/
def pieces (s : List α) : List (Piece α) := (scan k .text s).1

/-- A text is read part by part. -/
lemma scan_append (p : Place α) (s t : List α) : scan k p (s ++ t) =
    ((scan k p s).1 ++ (scan k (scan k p s).2 t).1, (scan k (scan k p s).2 t).2) := by
  induction s generalizing p with
  | nil => rfl
  | cons a s ih => rw [List.cons_append, scan, ih, scan, List.append_assoc]

/-- The text is read as these pieces, and the reader is outside all tags behind it. -/
def Reads (s : List α) (ps : List (Piece α)) : Prop := scan k .text s = (ps, .text)

/-- The text can stand in a tag: its quotation marks come in pairs, and only between them is there
a closing character. -/
def Inside (t : List α) : Prop :=
  ∀ u, scan k (.tag u false) t = ([], .tag (u ++ t) false)

section

variable {k} {s t v : List α} {ps qs : List (Piece α)}

lemma Reads.append (h : Reads k s ps) (h' : Reads k t qs) : Reads k (s ++ t) (ps ++ qs) := by
  rw [Reads, scan_append, h, h']

/-- Characters outside the tags. -/
lemma reads_text (h : k.opening ∉ s) : Reads k s (s.map .char) := by
  induction s with
  | nil => rfl
  | cons a s ih =>
      rw [List.mem_cons, not_or] at h
      have hs := ih h.2
      rw [Reads] at hs ⊢
      simp [scan, next, Ne.symm h.1, hs]

lemma Inside.append (h : Inside k s) (h' : Inside k t) : Inside k (s ++ t) := by
  intro u
  rw [scan_append, h u, h' (u ++ s), List.append_assoc]
  rfl

lemma inside_plain (h : k.closing ∉ t ∧ k.quote ∉ t) : Inside k t := by
  obtain ⟨hclosing, hquote⟩ := h
  induction t with
  | nil => exact fun u => by rw [scan, List.append_nil]
  | cons a t ih =>
      intro u
      rw [List.mem_cons, not_or] at hclosing hquote
      have ht := ih hclosing.2 hquote.2 (u ++ [a])
      simp [scan, next, Ne.symm hclosing.1, Ne.symm hquote.1, ht]

/-- Between two quotation marks all other characters may stand. -/
lemma inside_quoted (h : k.quote ∉ v) : Inside k (k.quote :: (v ++ [k.quote])) := by
  have hvalue (u : List α) :
      scan k (.tag u true) (v ++ [k.quote]) = ([], .tag (u ++ (v ++ [k.quote])) false) := by
    induction v generalizing u with
    | nil => simp [scan, next]
    | cons a v ih =>
        rw [List.mem_cons, not_or] at h
        have hv := ih h.2 (u ++ [a])
        simp [scan, next, Ne.symm h.1, hv]
  intro u
  have hv := hvalue (u ++ [k.quote])
  simp [scan, next, hv]

lemma reads_tag (h : Inside k t) : Reads k (k.opening :: (t ++ [k.closing])) [.tag t] := by
  have hclosing := k.ne.2.2
  rw [Reads, scan, next, if_pos rfl, scan_append, h []]
  simp [scan, next, hclosing]

end

/-! ### Tags -/

/-- A tag without what its link refers to. -/
def bare (t : List α) : List α := if k.start.isPrefixOf t then k.start else t

/-- The tags among the pieces, without what the links refer to. -/
def tags : List (Piece α) → List (List α)
  | [] => []
  | .char _ :: ps => tags ps
  | .tag t :: ps => bare k t :: tags ps

@[simp] lemma tags_append (ps qs : List (Piece α)) :
    tags k (ps ++ qs) = tags k ps ++ tags k qs := by
  induction ps with
  | nil => rfl
  | cons p ps ih =>
      cases p with
      | char a => exact ih
      | tag t => exact congrArg _ ih

@[simp] lemma tags_map_char (s : List α) : tags k (s.map Piece.char) = [] := by
  induction s with
  | nil => rfl
  | cons a s ih => exact ih

/-- A tag that has begun is read on, up to its end. -/
lemma head_tags_scan {t : List α} {quoted : Bool} {s : List α} {u : List α}
    (h : (tags k (scan k (.tag t quoted) s).1).head? = some u) :
    ∃ back, u = bare k (t ++ back) ∧ back <+: s := by
  induction s generalizing t quoted with
  | nil => cases h
  | cons a s ih =>
      rw [scan, next] at h
      split_ifs at h with hquote hclosing
      · obtain ⟨back, hu, hback⟩ := ih h
        exact ⟨a :: back, by rw [hu, List.append_assoc]; rfl, (List.prefix_cons_inj a).mpr hback⟩
      · exact ⟨[], by rw [List.append_nil]; exact (Option.some.inj h).symm, List.nil_prefix⟩
      · obtain ⟨back, hu, hback⟩ := ih h
        exact ⟨a :: back, by rw [hu, List.append_assoc]; rfl, (List.prefix_cons_inj a).mpr hback⟩

/-- The first tag behind an opening character. -/
lemma head_tags_opening {s u : List α}
    (h : (tags k (scan k .text (k.opening :: s)).1).head? = some u) :
    ∃ back, u = bare k back ∧ back <+: s := by
  rw [scan, next, if_pos rfl] at h
  exact head_tags_scan k h

/-! ### Links -/

/-- The text up to the next end of a link. -/
def label : List (Piece α) → List α
  | [] => []
  | .char a :: ps => a :: label ps
  | .tag t :: ps => if t = k.stop then [] else label ps

lemma label_map_char_append (s : List α) (ps : List (Piece α)) :
    label k (s.map .char ++ .tag k.stop :: ps) = s := by
  induction s with
  | nil => rw [List.map_nil, List.nil_append, label, if_pos rfl]
  | cons a s ih => rw [List.map_cons, List.cons_append, label, ih]

/-- What a tag refers to, if it is that of a link. -/
def value (t : List α) : Option (List α) :=
  if k.start.isPrefixOf t then
    some ((t.drop k.start.length).takeWhile fun a => a ≠ k.quote)
  else none

lemma value_start_append {v : List α} (h : k.quote ∉ v) (t : List α) :
    value k (k.start ++ (v ++ k.quote :: t)) = some v := by
  have hprefix : k.start.isPrefixOf (k.start ++ (v ++ k.quote :: t)) = true :=
    List.isPrefixOf_iff_prefix.mpr (List.prefix_append _ _)
  rw [value, if_pos hprefix, List.drop_left, List.takeWhile_append_of_pos]
  · rw [List.takeWhile_cons_of_neg (by simp), List.append_nil]
  · intro a ha
    have hne : a ≠ k.quote := fun heq => h (heq ▸ ha)
    simpa using hne

/-- The links, with what they refer to and with their labels. -/
def links : List (Piece α) → List (List α × List α)
  | [] => []
  | .char _ :: ps => links ps
  | .tag t :: ps =>
      match value k t with
      | some v => (k.decode v, k.decode (label k ps)) :: links ps
      | none => links ps

/-- Where no tag begins a link there is none. -/
lemma links_append {ps : List (Piece α)} (h : k.start ∉ tags k ps) (qs : List (Piece α)) :
    links k (ps ++ qs) = links k qs := by
  induction ps with
  | nil => rfl
  | cons p ps ih =>
      cases p with
      | char a => exact ih h
      | tag t =>
          rw [tags, List.mem_cons, not_or, bare] at h
          have hvalue : value k t = none := by
            rw [value]
            split_ifs at h ⊢
            · exact absurd rfl h.1
            · rfl
          rw [List.cons_append, links, hvalue]
          exact ih h.2

/-! ### Parts of a text -/

/-- The text contributes these tags and these links to every text that it is a part of. -/
def Shows (s : List α) (ts : List (List α)) (ls : List (List α × List α)) : Prop :=
  ∃ ps, Reads k s ps ∧ tags k ps = ts ∧ ∀ qs, links k (ps ++ qs) = ls ++ links k qs

section

variable {k} {s t : List α} {ts us : List (List α)} {ls ms : List (List α × List α)}

lemma Shows.tags_append (h : Shows k s ts ls) (t : List α) :
    tags k (pieces k (s ++ t)) = ts ++ tags k (pieces k t) := by
  obtain ⟨ps, hreads, htags, -⟩ := h
  rw [pieces, scan_append, hreads, Tags.tags_append, htags]
  rfl

lemma Shows.tags_eq (h : Shows k s ts ls) : tags k (pieces k s) = ts := by
  have hnil : tags k (pieces k []) = [] := rfl
  have htags := h.tags_append []
  rwa [List.append_nil, hnil, List.append_nil] at htags

lemma Shows.links_eq (h : Shows k s ts ls) : links k (pieces k s) = ls := by
  obtain ⟨ps, hreads, -, hlinks⟩ := h
  have hps := hlinks []
  rw [List.append_nil] at hps
  rw [pieces, hreads, hps, links, List.append_nil]

lemma Shows.append (h : Shows k s ts ls) (h' : Shows k t us ms) :
    Shows k (s ++ t) (ts ++ us) (ls ++ ms) := by
  obtain ⟨ps, hreads, htags, hlinks⟩ := h
  obtain ⟨qs, hreads', htags', hlinks'⟩ := h'
  refine ⟨ps ++ qs, hreads.append hreads', ?_, fun rs => ?_⟩
  · rw [Tags.tags_append, htags, htags']
  · rw [List.append_assoc, hlinks, hlinks', List.append_assoc]

lemma shows_nil : Shows k [] [] [] := ⟨[], rfl, rfl, fun _ => rfl⟩

/-- One text after the other. -/
lemma shows_flatMap {f : β → List α} {ts : β → List (List α)}
    {ls : β → List (List α × List α)} {l : List β} (h : ∀ b ∈ l, Shows k (f b) (ts b) (ls b)) :
    Shows k (l.flatMap f) (l.flatMap ts) (l.flatMap ls) := by
  induction l with
  | nil => exact shows_nil
  | cons b l ih =>
      rw [List.forall_mem_cons] at h
      simp only [List.flatMap_cons]
      exact h.1.append (ih h.2)

/-- A text whose tags are known, and begin no link. -/
lemma shows_of_scan (h : (scan k .text s).2 = .text) (htags : tags k (pieces k s) = ts)
    (hno : k.start ∉ ts) : Shows k s ts [] := by
  subst htags
  exact ⟨pieces k s, Prod.ext rfl h, rfl, links_append k hno⟩

/-- **A text without an opening character** contributes nothing. -/
theorem shows_text (h : k.opening ∉ s) : Shows k s [] [] := by
  have hreads := reads_text h
  refine ⟨_, hreads, tags_map_char k s, links_append k ?_⟩
  rw [tags_map_char]
  exact List.not_mem_nil

/-- **A link is read back**: what it refers to, if there is no quotation mark in it, and its label,
if there is no opening character in it. -/
theorem shows_link {v : List α} (hv : k.quote ∉ v) (hs : k.opening ∉ s) :
    Shows k
      (k.opening :: (k.start ++ (v ++ [k.quote]) ++ [k.closing]) ++ s ++
        k.opening :: (k.stop ++ [k.closing]))
      [k.start, k.stop] [(k.decode v, k.decode s)] := by
  have hinside : Inside k (k.start ++ (v ++ [k.quote])) := by
    rw [Reader.start, List.append_assoc]
    exact (inside_plain k.front_plain).append (inside_quoted hv)
  have hprefix : k.start.isPrefixOf (k.start ++ (v ++ [k.quote])) = true :=
    List.isPrefixOf_iff_prefix.mpr (List.prefix_append _ _)
  have hstop : k.start.isPrefixOf k.stop = false := by
    by_contra hstart
    rw [Bool.not_eq_false, List.isPrefixOf_iff_prefix] at hstart
    exact k.stop_plain.2 (hstart.subset (List.mem_append_right _ List.mem_cons_self))
  have hstopvalue : value k k.stop = none := by
    rw [value, hstop]
    rfl
  refine ⟨_, ((reads_tag hinside).append (reads_text hs)).append
    (reads_tag (inside_plain k.stop_plain)), ?_, fun qs => ?_⟩
  · rw [Tags.tags_append, Tags.tags_append, tags_map_char, tags, tags, tags, tags, bare, bare,
      if_pos hprefix, hstop]
    rfl
  · have hvalue := value_start_append k hv []
    have hlabel := label_map_char_append k s qs
    have hchars := links_append k (show k.start ∉ tags k (s.map .char) by simp)
      (.tag k.stop :: qs)
    rw [List.append_assoc, List.append_assoc, List.singleton_append, List.singleton_append, links,
      hvalue, hlabel, hchars, links, hstopvalue]
    rfl

end

end Tags
