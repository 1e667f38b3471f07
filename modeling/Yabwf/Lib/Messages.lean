import Mathlib.Tactic

/-!
Messages of a start line, fields and a body, as a text: every line ends with two characters, and an
empty line stands before the body.

* `Message.text`: the text of a message.
* `read`: a reader that takes the second of the two characters alone as the end of a line, as well
  as both, and skips the blanks in front of a value.
* `read_text`: a message whose lines have no line end in them is read back from its text, so that
  nothing in a value can begin another field, or the body.
-/

namespace Messages

/-- The characters that structure a text. -/
structure Marks (α : Type*) where
  cr : α
  lf : α
  colon : α
  blank : α
  nodup : [cr, lf, colon, blank].Nodup

/-- A message. -/
structure Message (α : Type*) where
  start : List α
  fields : List (List α × List α)
  body : List α

section

variable {α : Type*} (k : Marks α)

/-- A line with its end. -/
def line (l : List α) : List α := l ++ [k.cr, k.lf]

/-- A field as a line. -/
def field (f : List α × List α) : List α := f.1 ++ k.colon :: k.blank :: f.2

/-- A message as a text. -/
def Message.text (m : Message α) : List α :=
  line k m.start ++ m.fields.flatMap (fun f => line k (field k f)) ++ line k [] ++ m.body

/-- There is no line end in the text. -/
def OneLine (l : List α) : Prop := k.cr ∉ l ∧ k.lf ∉ l

/-- A value of a field, which does not begin with a blank. -/
structure Value (l : List α) : Prop where
  oneLine : OneLine k l
  head : l.head? ≠ some k.blank

/-- A name of a field. -/
structure Name (l : List α) : Prop where
  oneLine : OneLine k l
  ne_nil : l ≠ []
  noColon : k.colon ∉ l

/-- A message that can be read back. -/
structure Message.WellFormed (m : Message α) : Prop where
  start : OneLine k m.start ∧ m.start ≠ []
  fields : ∀ f ∈ m.fields, Name k f.1 ∧ Value k f.2

variable [DecidableEq α]

/-- A line without the first character of its end. -/
def chomp (l : List α) : List α := if l.getLast? = some k.cr then l.dropLast else l

/-- The lines up to the first empty one, behind the beginning of the first, and what follows. -/
def readHead : List α → List α → Option (List (List α) × List α)
  | _, [] => none
  | acc, a :: s =>
      if a = k.lf then
        if chomp k acc = [] then some ([], s)
        else (readHead [] s).map fun p => (chomp k acc :: p.1, p.2)
      else readHead (acc ++ [a]) s

/-- A field from its line. -/
def readField (l : List α) : Option (List α × List α) :=
  match l.dropWhile (· ≠ k.colon) with
  | [] => none
  | _ :: value =>
      let name := l.takeWhile (· ≠ k.colon)
      if name = [] then none else some (name, value.dropWhile (· = k.blank))

/-- A message from its text. -/
def read (s : List α) : Option (Message α) :=
  match readHead k [] s with
  | some (start :: lines, body) =>
      (lines.mapM (readField k)).map fun fields => ⟨start, fields, body⟩
  | _ => none

end

/-! ### Reading a text back -/

section

variable {α : Type*} {k : Marks α} {l l' : List α}

lemma OneLine.append (h : OneLine k l) (h' : OneLine k l') : OneLine k (l ++ l') :=
  ⟨by simp [h.1, h'.1], by simp [h.2, h'.2]⟩

lemma OneLine.nil : OneLine k ([] : List α) := ⟨List.not_mem_nil, List.not_mem_nil⟩

lemma oneLine_field {f : List α × List α} (hname : OneLine k f.1) (hvalue : OneLine k f.2) :
    OneLine k (field k f) := by
  obtain ⟨⟨hlf, hcolon, hblank⟩, ⟨hcolon', hblank'⟩, -⟩ : (k.cr ≠ k.lf ∧ k.cr ≠ k.colon ∧
      k.cr ≠ k.blank) ∧ (k.lf ≠ k.colon ∧ k.lf ≠ k.blank) ∧ k.colon ≠ k.blank := by
    simpa [and_assoc] using k.nodup
  refine hname.append ⟨?_, ?_⟩
  · simp [hcolon, hblank, hvalue.1]
  · simp [hcolon', hblank', hvalue.2]

variable [DecidableEq α]

lemma chomp_append_cr (l : List α) : chomp k (l ++ [k.cr]) = l := by
  rw [chomp, if_pos (by simp), List.dropLast_concat]

/-- A line is read to its end. -/
lemma readHead_append (h : k.lf ∉ l) (acc s : List α) :
    readHead k acc (l ++ s) = readHead k (acc ++ l) s := by
  induction l generalizing acc with
  | nil => rw [List.nil_append, List.append_nil]
  | cons a l ih =>
      obtain ⟨ha, hl⟩ := (List.ne_and_not_mem_of_not_mem_cons h)
      rw [List.cons_append, readHead, if_neg fun heq : a = k.lf => ha heq.symm, ih hl,
        List.append_assoc, List.singleton_append]

lemma readHead_line (h : OneLine k l) (s : List α) :
    readHead k [] (line k l ++ s)
      = if l = [] then some ([], s) else (readHead k [] s).map fun p => (l :: p.1, p.2) := by
  have hlf : k.lf ∉ l ++ [k.cr] := by
    have hne : k.cr ≠ k.lf := fun heq => by
      have hnodup := k.nodup
      simp [heq] at hnodup
    simp [h.2, hne.symm]
  have hsplit : line k l ++ s = (l ++ [k.cr]) ++ k.lf :: s := by simp [line]
  rw [hsplit, readHead_append hlf, List.nil_append, readHead, if_pos rfl, chomp_append_cr]

/-- The lines of a head are read back, and the body is left. -/
lemma readHead_lines (ls : List (List α)) (h : ∀ l ∈ ls, OneLine k l ∧ l ≠ []) (body : List α) :
    readHead k [] (ls.flatMap (line k) ++ line k [] ++ body) = some (ls, body) := by
  induction ls with
  | nil => rw [List.flatMap_nil, List.nil_append, readHead_line OneLine.nil, if_pos rfl]
  | cons l ls ih =>
      obtain ⟨hl, hne⟩ := h l List.mem_cons_self
      rw [List.flatMap_cons, List.append_assoc, List.append_assoc, readHead_line hl, if_neg hne,
        ← List.append_assoc, ih fun l' hl' => h l' (List.mem_cons_of_mem _ hl')]
      rfl

/-- A field is read back from its line. -/
lemma readField_field {f : List α × List α} (hname : Name k f.1) (hvalue : Value k f.2) :
    readField k (field k f) = some f := by
  have hcolon : ∀ a ∈ f.1, decide (a ≠ k.colon) = true := fun a ha =>
    decide_eq_true fun heq => hname.noColon (heq ▸ ha)
  have hdrop : (field k f).dropWhile (· ≠ k.colon) = k.colon :: k.blank :: f.2 := by
    rw [field, List.dropWhile_append_of_pos hcolon]
    simp
  have htake : (field k f).takeWhile (· ≠ k.colon) = f.1 := by
    rw [field, List.takeWhile_append_of_pos hcolon]
    simp
  have hvalue' : (k.blank :: f.2).dropWhile (· = k.blank) = f.2 := by
    rw [List.dropWhile_cons_of_pos (by simp)]
    cases hf : f.2 with
    | nil => rfl
    | cons a v =>
        have ha : a ≠ k.blank := fun heq => hvalue.head (by rw [hf, heq]; rfl)
        rw [List.dropWhile_cons_of_neg (by simpa using ha)]
  rw [readField, hdrop]
  dsimp only
  rw [htake, if_neg hname.ne_nil, hvalue']

/-- **A message is read back** from its text. -/
theorem read_text {m : Message α} (h : m.WellFormed k) : read k (m.text k) = some m := by
  obtain ⟨start, fields, body⟩ := m
  have hfields : ∀ f ∈ fields, Name k f.1 ∧ Value k f.2 := h.fields
  have hlines : ∀ l ∈ start :: fields.map (field k), OneLine k l ∧ l ≠ [] := by
    intro l hl
    rcases List.mem_cons.mp hl with rfl | hl
    · exact h.start
    · obtain ⟨f, hf, rfl⟩ := List.mem_map.mp hl
      refine ⟨oneLine_field (hfields f hf).1.oneLine (hfields f hf).2.oneLine, ?_⟩
      exact List.append_ne_nil_of_left_ne_nil (hfields f hf).1.ne_nil _
  have htext : Message.text k ⟨start, fields, body⟩
      = (start :: fields.map (field k)).flatMap (line k) ++ line k [] ++ body := by
    rw [Message.text, List.flatMap_cons, List.flatMap_map]
  have hread : (fields.map (field k)).mapM (readField k) = some fields := by
    clear h hlines htext
    induction fields with
    | nil => rfl
    | cons f fields ih =>
        obtain ⟨hname, hvalue⟩ := hfields f List.mem_cons_self
        rw [List.map_cons, List.mapM_cons, readField_field hname hvalue,
          ih fun f' hf' => hfields f' (List.mem_cons_of_mem _ hf')]
        rfl
  rw [read, htext, readHead_lines _ hlines]
  dsimp only
  rw [hread]
  rfl

end

end Messages
