import Yabwf.Lib.Lexical
import Yabwf.Util

/-!
`clean_pathname` read segment by segment.

* `splitOn_cleanPathname`: the segments of a cleaned path are those of the path, less
  the interior ones that are empty, `.` or `..`; the first and the last are kept as
  they are.
* `cleanPathname_interior`: no interior segment of a cleaned path is empty, `.`
  or `..`.
* `cleanPathname_filters`: cleaning filters segments, lengthens nothing, and has no effect on its
  own result.
* `within_iff_of_clean`: a piece of a cleaned path that begins at a segment stays
  within its root, resolved lexically, unless it is `..` or `/..`.
-/

namespace Yabwf

open Lexical

/-- A segment that `clean_pathname` removes between two slashes. -/
def droppable (s : Bytes) : Bool := s == [] || s == str "." || s == str ".."

/-- The segments behind the first slash that `clean_pathname` keeps. -/
def keepSegments : List Bytes → List Bytes
  | [] => []
  | [s] => [s]
  | s :: t :: ss => if droppable s then keepSegments (t :: ss) else s :: keepSegments (t :: ss)

/-! ### The loop -/

lemma cleanLoop_false_cons {b : UInt8} (hb : b ≠ 47) (p : Bytes) :
    cleanLoop false (b :: p) = b :: cleanLoop false p := by
  rw [cleanLoop] <;> simp [hb]

lemma cleanLoop_false_append {s : Bytes} (hs : 47 ∉ s) (t : Bytes) :
    cleanLoop false (s ++ t) = s ++ cleanLoop false t := by
  induction s with
  | nil => rfl
  | cons b s ih =>
      have hb : b ≠ 47 := fun h => hs (h ▸ List.mem_cons_self)
      rw [List.cons_append, cleanLoop_false_cons hb, ih fun h => hs (List.mem_cons_of_mem _ h),
        List.cons_append]

/-- Behind a slash that has been written, a string that begins with none of the three
skipped patterns is copied up to its next slash. -/
lemma cleanLoop_true_of_ne {p : Bytes} (h₁ : ∀ q, p ≠ 47 :: q) (h₂ : ∀ q, p ≠ 46 :: 47 :: q)
    (h₃ : ∀ q, p ≠ 46 :: 46 :: 47 :: q) : cleanLoop true p = cleanLoop false p := by
  cases p with
  | nil => rfl
  | cons b p =>
      have hb : b ≠ 47 := fun h => h₁ p (h ▸ rfl)
      rw [cleanLoop_false_cons hb, cleanLoop]
      · simp [hb]
      · exact fun _ h => hb h
      · rintro q _ rfl rfl
        exact h₂ q rfl
      · rintro q _ rfl rfl
        exact h₃ q rfl

/-- A segment and its slash behind a slash that has been written. -/
lemma cleanLoop_true_append {s : Bytes} (hs : 47 ∉ s) (t : Bytes) :
    cleanLoop true (s ++ 47 :: t)
      = if droppable s then cleanLoop true t else s ++ 47 :: cleanLoop true t := by
  by_cases hd : droppable s
  · rw [if_pos hd]
    simp only [droppable, Bool.or_eq_true, beq_iff_eq] at hd
    rcases hd with (rfl | rfl) | rfl <;> rfl
  · rw [if_neg hd, cleanLoop_true_of_ne, cleanLoop_false_append hs]
    · rfl
    · intro q hq
      cases s with
      | nil => exact hd rfl
      | cons b s =>
          rw [List.cons_append, List.cons.injEq] at hq
          exact hs (hq.1 ▸ List.mem_cons_self)
    · intro q hq
      match s, hq with
      | [], hq => exact hd rfl
      | [b], hq =>
          simp only [List.cons_append, List.nil_append, List.cons.injEq] at hq
          exact hd (hq.1 ▸ rfl)
      | b :: c :: s, hq =>
          simp only [List.cons_append, List.cons.injEq] at hq
          exact hs (hq.2.1 ▸ List.mem_cons_of_mem _ List.mem_cons_self)
    · intro q hq
      match s, hq with
      | [], hq => exact hd rfl
      | [b], hq =>
          simp only [List.cons_append, List.nil_append, List.cons.injEq] at hq
          exact hd (hq.1 ▸ rfl)
      | [b, c], hq =>
          simp only [List.cons_append, List.nil_append, List.cons.injEq] at hq
          obtain ⟨rfl, rfl, -⟩ := hq
          exact hd rfl
      | b :: c :: d :: s, hq =>
          simp only [List.cons_append, List.cons.injEq] at hq
          exact hs (hq.2.2.1 ▸ List.mem_cons_of_mem _ (List.mem_cons_of_mem _ List.mem_cons_self))

/-- The last segment is copied. -/
lemma cleanLoop_true_of_notMem {s : Bytes} (hs : 47 ∉ s) : cleanLoop true s = s := by
  rw [cleanLoop_true_of_ne]
  · simpa [cleanLoop] using cleanLoop_false_append hs []
  · rintro q rfl
    exact hs List.mem_cons_self
  · rintro q rfl
    exact hs (by simp)
  · rintro q rfl
    exact hs (by simp)

/-! ### Segments -/

/-- The segments that the loop writes behind a slash. -/
lemma splitOn_cleanLoop_true (p : Bytes) :
    (cleanLoop true p).splitOn 47 = keepSegments (p.splitOn 47) := by
  induction p using splitOn_induction (47 : UInt8) with
  | last s hs => rw [cleanLoop_true_of_notMem hs, List.splitOn_eq_singleton hs, keepSegments]
  | cons s t hs ih =>
      obtain ⟨u, us, hu⟩ := List.exists_cons_of_ne_nil (List.splitOn_ne_nil (47 : UInt8) t)
      rw [cleanLoop_true_append hs, List.splitOn_append_cons_self_of_not_mem hs, hu,
        keepSegments, ← hu]
      split_ifs
      · exact ih
      · rw [List.splitOn_append_cons_self_of_not_mem hs, ih]

/-- **Segments of a cleaned path**: the first segment, the interior ones that are not
dropped, and the last. -/
lemma splitOn_cleanPathname (p : Bytes) :
    (cleanPathname p).splitOn 47
      = (p.splitOn 47).take 1 ++ keepSegments ((p.splitOn 47).drop 1) := by
  induction p using splitOn_induction (47 : UInt8) with
  | last s hs =>
      have h := cleanLoop_false_append hs []
      rw [List.append_nil, cleanLoop, List.append_nil] at h
      rw [cleanPathname, h, List.splitOn_eq_singleton hs]
      rfl
  | cons s t hs _ =>
      have h : cleanPathname (s ++ 47 :: t) = s ++ 47 :: cleanLoop true t := by
        rw [cleanPathname, cleanLoop_false_append hs, cleanLoop]
        · simp
        all_goals simp
      rw [h, List.splitOn_append_cons_self_of_not_mem hs,
        List.splitOn_append_cons_self_of_not_mem hs, splitOn_cleanLoop_true]
      rfl

lemma keepSegments_ne_nil : ∀ {ss : List Bytes}, ss ≠ [] → keepSegments ss ≠ []
  | [], h => absurd rfl h
  | [s], _ => by simp [keepSegments]
  | s :: t :: ss, _ => by
      rw [keepSegments]
      split_ifs
      · exact keepSegments_ne_nil (by simp)
      · simp

/-- Nothing droppable is kept but, possibly, at the end. -/
lemma not_droppable_of_mem_keepSegments : ∀ {ss : List Bytes} {s : Bytes},
    s ∈ (keepSegments ss).dropLast → droppable s = false
  | [], s, h => by simp [keepSegments] at h
  | [t], s, h => by simp [keepSegments] at h
  | t :: u :: ss, s, h => by
      rw [keepSegments] at h
      split_ifs at h with hd
      · exact not_droppable_of_mem_keepSegments h
      · rw [List.dropLast_cons_of_ne_nil (keepSegments_ne_nil (by simp)), List.mem_cons] at h
        rcases h with rfl | h
        · exact Bool.eq_false_iff.mpr hd
        · exact not_droppable_of_mem_keepSegments h

/-- No interior segment of a cleaned path is empty, `.` or `..`. -/
lemma cleanPathname_interior {p s : Bytes}
    (hs : s ∈ ((cleanPathname p).splitOn 47).tail.dropLast) : droppable s = false := by
  obtain ⟨t, ts, ht⟩ := List.exists_cons_of_ne_nil (List.splitOn_ne_nil (47 : UInt8) p)
  rw [splitOn_cleanPathname, ht] at hs
  exact not_droppable_of_mem_keepSegments (by simpa using hs)

/-- Nothing droppable stands between two slashes of a cleaned path. -/
lemma cleanPathname_ne_droppable {p s : Bytes} (hs : droppable s = true) (f i : Bytes) :
    cleanPathname p ≠ f ++ 47 :: (s ++ 47 :: i) := by
  intro h
  have hf := List.splitOn_ne_nil (47 : UInt8) f
  have hi := List.splitOn_ne_nil (47 : UInt8) i
  have hsplit : s.splitOn 47 = [s] := by
    simp only [droppable, Bool.or_eq_true, beq_iff_eq] at hs
    rcases hs with (rfl | rfl) | rfl <;> decide
  have hkept : droppable s = false := by
    refine cleanPathname_interior (p := p) ?_
    rw [h, List.splitOn_append_cons_self, List.splitOn_append_cons_self,
      List.tail_append_of_ne_nil hf, hsplit,
      List.dropLast_append_of_ne_nil (by simp), List.dropLast_append_of_ne_nil hi]
    simp
  rw [hs] at hkept
  cases hkept

/-- No `..` stands between two slashes of a cleaned path. -/
lemma cleanPathname_ne_dots {p : Bytes} (f i : Bytes) :
    cleanPathname p ≠ f ++ 47 :: (str ".." ++ 47 :: i) :=
  cleanPathname_ne_droppable (by decide) f i

/-! ### The whole path -/

/-- The segments of a path, less the droppable ones between the first and the last. -/
def filterSegments (ss : List Bytes) : List Bytes :=
  ss.take 1 ++ ((ss.drop 1).dropLast.filter fun s => !droppable s) ++ (ss.drop 1).getLast?.toList

lemma keepSegments_eq (ss : List Bytes) :
    keepSegments ss = (ss.dropLast.filter fun s => !droppable s) ++ ss.getLast?.toList := by
  induction ss with
  | nil => rfl
  | cons s ss ih =>
      cases ss with
      | nil => rfl
      | cons t ss =>
          rw [keepSegments, List.dropLast_cons_of_ne_nil (List.cons_ne_nil t ss),
            List.filter_cons, List.getLast?_cons_cons, ih]
          cases droppable s <;> rfl

/-- Keeping segments again keeps them all. -/
lemma keepSegments_keepSegments (ss : List Bytes) :
    keepSegments (keepSegments ss) = keepSegments ss := by
  rcases List.eq_nil_or_concat ss with rfl | ⟨init, last, rfl⟩
  · rfl
  · have hkeep : ∀ init : List Bytes, keepSegments (init ++ [last])
        = (init.filter fun s => !droppable s) ++ [last] := by
      intro init
      rw [keepSegments_eq, List.dropLast_concat, List.getLast?_concat]
      rfl
    rw [List.concat_eq_append, hkeep, hkeep, List.filter_filter]
    simp only [Bool.and_self]

lemma length_cleanLoop_le (slash : Bool) (p : Bytes) : (cleanLoop slash p).length ≤ p.length := by
  fun_induction cleanLoop slash p with
  | case1 => exact le_rfl
  | case2 p ih => exact ih.trans (Nat.le_succ _)
  | case3 p ih => exact ih.trans (by simp only [List.length_cons]; omega)
  | case4 p ih => exact ih.trans (by simp only [List.length_cons]; omega)
  | case5 _ p _ _ _ ih => exact Nat.succ_le_succ ih
  | case6 _ b p _ _ _ _ ih => exact Nat.succ_le_succ ih

/-- **`clean_pathname` filters segments**: it leaves a path without a slash as it is, and of any
other one the first and the last segment, and those between them that are not empty, `.` or
`..`. So it never makes a path longer, leaves none of the three patterns behind, and does
nothing to a cleaned path. -/
theorem cleanPathname_filters (p : Bytes) :
    (cleanPathname p = if (p.splitOn 47).length = 1 then p
      else [47].intercalate (filterSegments (p.splitOn 47))) ∧
    (cleanPathname p).length ≤ p.length ∧
    (∀ pattern ∈ [str "//", str "/./", str "/../"], ¬pattern <:+: cleanPathname p) ∧
    cleanPathname (cleanPathname p) = cleanPathname p := by
  obtain ⟨t, ts, hsplit⟩ := List.exists_cons_of_ne_nil (List.splitOn_ne_nil (47 : UInt8) p)
  have hclean : ∀ q : Bytes, cleanPathname q = [47].intercalate ((cleanPathname q).splitOn 47) :=
    fun q => (List.intercalate_splitOn _).symm
  have hcleaned := splitOn_cleanPathname p
  rw [hsplit, List.take_succ_cons, List.take_zero, List.drop_succ_cons, List.drop_zero,
    List.singleton_append] at hcleaned
  refine ⟨?_, length_cleanLoop_le false p, fun pattern hpattern hinfix => ?_, ?_⟩
  · split_ifs with hone
    · have hts : ts = [] := by
        rw [hsplit] at hone
        exact List.eq_nil_of_length_eq_zero (Nat.succ.inj hone)
      have hp : p = [47].intercalate (p.splitOn 47) := (List.intercalate_splitOn _).symm
      rw [hclean, hcleaned, hts, hp, hsplit, hts]
      rfl
    · rw [hclean, hcleaned, hsplit, keepSegments_eq, filterSegments]
      rfl
  · obtain ⟨f, i, heq⟩ := hinfix
    simp only [List.mem_cons, List.not_mem_nil, or_false] at hpattern
    rcases hpattern with rfl | rfl | rfl
    · refine cleanPathname_ne_droppable (p := p) (s := []) (by decide) f i ?_
      rw [← heq]
      simp [str]
    · refine cleanPathname_ne_droppable (p := p) (s := str ".") (by decide) f i ?_
      rw [← heq]
      simp [str]
    · refine cleanPathname_ne_droppable (p := p) (s := str "..") (by decide) f i ?_
      rw [← heq]
      simp [str]
  · have hagain := splitOn_cleanPathname (cleanPathname p)
    rw [hcleaned, List.take_succ_cons, List.take_zero, List.drop_succ_cons, List.drop_zero,
      List.singleton_append, keepSegments_keepSegments] at hagain
    rw [hclean (cleanPathname p), hagain, ← hcleaned, List.intercalate_splitOn]

/-! ### Lexical resolution -/

/-- How a segment moves: empty segments and `.` stay, `..` goes up. -/
def move (s : Bytes) : Move :=
  if s = str ".." then .up else if s = [] ∨ s = str "." then .stay else .down

/-- The moves of a path. -/
def moves (path : Bytes) : List Move := (path.splitOn 47).map move

lemma move_of_not_droppable {s : Bytes} (h : droppable s = false) : move s = .down := by
  simp only [droppable, Bool.or_eq_false_iff, beq_eq_false_iff_ne] at h
  rw [move, if_neg h.2, if_neg (not_or.mpr h.1)]

/-- A path all of whose segments but the last are ordinary stays within its root
unless it is `..`. -/
lemma within_iff_of_dropLast {path : Bytes}
    (h : ∀ s ∈ (path.splitOn 47).dropLast, droppable s = false) :
    Within 0 (moves path) ↔ path ≠ str ".." := by
  have hne := List.splitOn_ne_nil (47 : UInt8) path
  have hsplit := List.dropLast_append_getLast hne
  set init := (path.splitOn 47).dropLast with hinit
  set last := (path.splitOn 47).getLast hne with hlast
  have hinitUp : Move.up ∉ init.map move := by
    intro hm
    obtain ⟨s, hs, hup⟩ := List.mem_map.mp hm
    rw [move_of_not_droppable (h s hs)] at hup
    exact absurd hup (by decide)
  have hpath : path = [47].intercalate (init ++ [last]) := by
    rw [hsplit, List.intercalate_splitOn]
  rw [moves, ← hsplit, List.map_append, List.map_singleton]
  by_cases hl : last = str ".."
  · rw [hl, show move (str "..") = .up from by decide, within_concat_up hinitUp]
    constructor
    · rintro (h0 | hdown) hp
      · exact absurd h0 (lt_irrefl 0)
      · obtain ⟨s, hs, -⟩ := List.mem_map.mp hdown
        rw [hinit, hp, show ((str "..").splitOn 47).dropLast = [] from by decide] at hs
        exact absurd hs List.not_mem_nil
    · intro hp
      cases hi : init with
      | nil =>
          rw [hi, hl, List.nil_append] at hpath
          exact absurd hpath hp
      | cons s ss =>
          have hs := h s (hi ▸ List.mem_cons_self)
          exact Or.inr (by simp [move_of_not_droppable hs])
  · have hup : Move.up ∉ init.map move ++ [move last] := by
      simp only [List.mem_append, List.mem_singleton, not_or]
      refine ⟨hinitUp, fun hm => ?_⟩
      rw [move, if_neg hl] at hm
      split_ifs at hm
    refine ⟨fun _ hp => hl ?_, fun _ => within_of_up_notMem hup 0⟩
    have hdots : path.splitOn 47 = [str ".."] := by
      rw [hp]
      decide
    simp only [hlast, hdots, List.getLast_singleton]

/-- The segments of a piece between a slash, or the start, and a slash, or the end, are
segments of the whole. -/
lemma droppable_of_piece {p f q info : Bytes} (h : cleanPathname p = f ++ 47 :: (q ++ info))
    (hinfo : info = [] ∨ info.head? = some 47) :
    ∀ s ∈ (q.splitOn 47).dropLast, droppable s = false := by
  intro s hs
  refine cleanPathname_interior (p := p) ?_
  have hf := List.splitOn_ne_nil (47 : UInt8) f
  have hq := List.splitOn_ne_nil (47 : UInt8) q
  rw [h, List.splitOn_append_cons_self, List.tail_append_of_ne_nil hf]
  rcases hinfo with rfl | hinfo
  · rw [List.append_nil, List.dropLast_append_of_ne_nil hq]
    exact List.mem_append_right _ hs
  · obtain ⟨i, rfl⟩ : ∃ i, info = 47 :: i := by
      cases info with
      | nil => exact absurd hinfo (by simp)
      | cons b i => exact ⟨i, by simp at hinfo; rw [hinfo]⟩
    rw [List.splitOn_append_cons_self,
      List.dropLast_append_of_ne_nil (by simp : q.splitOn 47 ++ i.splitOn 47 ≠ []),
      List.dropLast_append_of_ne_nil (List.splitOn_ne_nil (47 : UInt8) i)]
    exact List.mem_append_right _ (List.mem_append_left _ (List.mem_of_mem_dropLast hs))

/-- **A piece of a cleaned path that begins at a segment** stays within its root exactly
when it is neither `..` nor `/..`. -/
theorem within_iff_of_clean {p f rem info : Bytes} (h : cleanPathname p = f ++ (rem ++ info))
    (hf : f.getLast? = some 47 ∨ rem = [] ∨ rem.head? = some 47)
    (hinfo : info = [] ∨ info.head? = some 47) :
    Within 0 (moves rem) ↔ rem ≠ str ".." ∧ rem ≠ str "/.." := by
  rcases hf with hf | rfl | hf
  · obtain ⟨g, rfl⟩ := List.getLast?_eq_some_iff.mp hf
    have hseg := droppable_of_piece (q := rem) (f := g) (by simpa using h) hinfo
    rw [within_iff_of_dropLast hseg]
    refine ⟨fun h1 => ⟨h1, fun h2 => ?_⟩, fun h1 => h1.1⟩
    have := hseg [] (h2 ▸ by decide)
    exact absurd this (by decide)
  · exact ⟨fun _ => by decide, fun _ => trivial⟩
  · obtain ⟨q, rfl⟩ : ∃ q, rem = 47 :: q := by
      cases rem with
      | nil => exact absurd hf (by simp)
      | cons b q => exact ⟨q, by simp at hf; rw [hf]⟩
    have hseg := droppable_of_piece (q := q) (f := f) (by simpa using h) hinfo
    have hm : moves (47 :: q) = .stay :: moves q := by
      rw [moves, show (47 : UInt8) :: q = [] ++ 47 :: q from rfl,
        List.splitOn_append_cons_self, List.map_append]
      rfl
    rw [hm, Within, within_iff_of_dropLast hseg]
    constructor
    · intro h1
      exact ⟨by simp [str], fun h2 => h1 (by simpa [str] using h2)⟩
    · rintro ⟨-, h2⟩ rfl
      exact h2 rfl

end Yabwf
