import Yabwf.Lib.Span
import Yabwf.Ranges

/-!
The grammar that `range_parse` accepts.

* `WrittenRange`, `RangeTexts`: ranges as they are written, with white space around their
  hyphens, and lists of them. White space next to a hyphen belongs to the range, and there may be
  separators where there is nothing to be separated.
* `rangeLoop_written`, `rangeLoop_texts`: what the automaton makes of them.
* `exists_written`, `rangeParse_accepts_iff`: it accepts nothing else.
* `range_grammar_iff`: every range that it accepts has a number, unless one is a lone hyphen.
* `range_numbers_iff`: the numbers are recorded as they are written, unless they wrap.
-/

namespace Yabwf

open Span

/-! ### Ranges as they are written -/

/-- White space, as `range_parse` sees it. -/
def isRangeWhite (b : UInt8) : Bool := rangeChar b == .white

/-- What may stand between two ranges. -/
def isRangeSeparator (b : UInt8) : Bool := rangeChar b == .comma || rangeChar b == .white

/-- A range as it is written: two numbers, each of which may be missing, and a hyphen with white
space around it. -/
structure WrittenRange where
  first : Bytes
  before : Bytes
  behind : Bytes
  last : Bytes
  first_digits : All isDigit first
  before_white : All isRangeWhite before
  behind_white : All isRangeWhite behind
  last_digits : All isDigit last
  before_nil : first = [] → before = []

namespace WrittenRange

variable (w : WrittenRange)

/-- The range in a header. -/
def text : Bytes := w.first ++ (w.before ++ 45 :: (w.behind ++ w.last))

/-- Neither number is given. -/
def Lone : Prop := w.first = [] ∧ w.last = []

lemma text_append (s : Bytes) :
    w.text ++ s = w.first ++ (w.before ++ 45 :: (w.behind ++ (w.last ++ s))) := by
  simp only [text, List.append_assoc, List.cons_append]

/-- What `range_parse` records. -/
def recorded : Range :=
  ⟨if w.first = [] then ulongMax else pushDigits 0 w.first,
    if w.last = [] then ulongMax else pushDigits 0 w.last⟩

/-- The numbers that `range_parse` takes for missing ones. -/
def Aborts : Prop := w.recorded.start = w.recorded.stop ∧ w.recorded.start = uintMax

instance : Decidable w.Aborts :=
  inferInstanceAs (Decidable (w.recorded.start = w.recorded.stop ∧ w.recorded.start = uintMax))

/-- The character that a range may end in front of. -/
def Ends (t : UInt8) : Prop := rangeChar t = .comma ∨ w.last ≠ [] ∧ rangeChar t = .white

end WrittenRange

/-- A list of ranges as it is written. -/
inductive RangeTexts : Bytes → List WrittenRange → Prop
  | nil : RangeTexts [] []
  | sep {b : UInt8} {s : Bytes} {ws : List WrittenRange} (hb : isRangeSeparator b = true)
      (h : RangeTexts s ws) : RangeTexts (b :: s) ws
  | last (w : WrittenRange) : RangeTexts w.text [w]
  | cons (w : WrittenRange) {t : UInt8} {s : Bytes} {ws : List WrittenRange} (ht : w.Ends t)
      (h : RangeTexts s ws) : RangeTexts (w.text ++ t :: s) (w :: ws)

/-! ### The automaton on one range -/

lemma rangeLoop_abort {mode : RangeMode} {b : UInt8} {c : RangeChar} (hc : rangeChar b = c)
    (h : (rangeTable mode c).2.1 = .abort) (s : Bytes) (start stop : ℕ) (r : Request) :
    rangeLoop (b :: s) mode start stop r = (false, rangeAbort r) := by
  rw [rangeLoop, hc]
  simp only [h]

lemma rangeLoop_gap1 {g : Bytes} (hg : All isRangeWhite g) (s : Bytes) (start stop : ℕ)
    (r : Request) : rangeLoop (g ++ s) .gap1 start stop r = rangeLoop s .gap1 start stop r := by
  induction g with
  | nil => rfl
  | cons b g ih =>
      have hb : rangeChar b = .white := by simpa [isRangeWhite] using hg b List.mem_cons_self
      rw [List.cons_append, rangeLoop, hb]
      exact ih fun b' hb' => hg b' (List.mem_cons_of_mem _ hb')

lemma rangeLoop_gap2_white {g : Bytes} (hg : All isRangeWhite g) (s : Bytes) (start stop : ℕ)
    (r : Request) : rangeLoop (g ++ s) .gap2 start stop r = rangeLoop s .gap2 start stop r := by
  induction g with
  | nil => rfl
  | cons b g ih =>
      have hb : rangeChar b = .white := by simpa [isRangeWhite] using hg b List.mem_cons_self
      rw [List.cons_append, rangeLoop, hb]
      exact ih fun b' hb' => hg b' (List.mem_cons_of_mem _ hb')

/-- A first number and the white space behind it. -/
lemma rangeLoop_number {b : UInt8} {ds g : Bytes} (hds : All isDigit (b :: ds))
    (hg : All isRangeWhite g) (s : Bytes) (r : Request) :
    rangeLoop (b :: ds ++ (g ++ s)) .initial 0 0 r
      = rangeLoop s (if g = [] then .startnum else .gap1) (pushDigits 0 (b :: ds)) 0 r := by
  rw [List.cons_append, rangeLoop, rangeChar_digit (hds b List.mem_cons_self)]
  refine (rangeLoop_startnum (fun b' hb' => hds b' (List.mem_cons_of_mem _ hb')) (g ++ s) _ 0
    r).trans ?_
  cases g with
  | nil => rfl
  | cons c g =>
      have hc : rangeChar c = .white := by simpa [isRangeWhite] using hg c List.mem_cons_self
      rw [List.cons_append, rangeLoop, hc]
      exact rangeLoop_gap1 (fun b' hb' => hg b' (List.mem_cons_of_mem _ hb')) s _ 0 r

/-- The part of a range up to its hyphen. -/
lemma rangeLoop_first (w : WrittenRange) (s : Bytes) (r : Request) :
    rangeLoop (w.first ++ (w.before ++ 45 :: s)) .initial 0 0 r
      = rangeLoop s .gap2 w.recorded.start 0 r := by
  have hyphen : rangeChar 45 = .hyphen := by decide
  rw [WrittenRange.recorded]
  cases hfirst : w.first with
  | nil =>
      rw [w.before_nil hfirst, List.nil_append, List.nil_append, rangeLoop, hyphen]
      rfl
  | cons b ds =>
      have hds : All isDigit (b :: ds) := hfirst ▸ w.first_digits
      rw [rangeLoop_number hds w.before_white, rangeLoop, hyphen, if_neg (List.cons_ne_nil b ds)]
      by_cases hbefore : w.before = []
      · rw [if_pos hbefore]
        rfl
      · rw [if_neg hbefore]
        rfl

/-- The number behind the hyphen, and what ends the range. -/
lemma rangeLoop_last (w : WrittenRange) {t : UInt8} (ht : w.Ends t ∨ rangeChar t = .null)
    (s : Bytes) (start : ℕ) (r : Request) :
    rangeLoop (w.last ++ t :: s) .gap2 start 0 r =
      if start = w.recorded.stop ∧ start = uintMax then (false, rangeAbort r)
      else rangeLoop s .initial 0 0 (rangeAdd r start w.recorded.stop) := by
  rw [WrittenRange.recorded]
  cases hlast : w.last with
  | nil =>
      have hchar : rangeChar t = .comma ∨ rangeChar t = .null := by
        rcases ht with (h | ⟨hne, -⟩) | h
        · exact Or.inl h
        · exact absurd hlast hne
        · exact Or.inr h
      rw [List.nil_append, rangeLoop]
      rcases hchar with h | h <;> rw [h] <;> rfl
  | cons b ds =>
      have hds : All isDigit (b :: ds) := hlast ▸ w.last_digits
      have hchar : rangeChar t = .comma ∨ rangeChar t = .white ∨ rangeChar t = .null := by
        rcases ht with (h | ⟨-, h⟩) | h
        · exact Or.inl h
        · exact Or.inr (Or.inl h)
        · exact Or.inr (Or.inr h)
      rw [List.cons_append, rangeLoop, rangeChar_digit (hds b List.mem_cons_self)]
      refine (rangeLoop_stopnum (fun b' hb' => hds b' (List.mem_cons_of_mem _ hb')) (t :: s) start
        _ r).trans ?_
      rw [rangeLoop]
      rcases hchar with h | h | h <;> rw [h] <;> rfl

/-- **One range** and the character behind it. -/
lemma rangeLoop_written (w : WrittenRange) {t : UInt8} (ht : w.Ends t ∨ rangeChar t = .null)
    (s : Bytes) (r : Request) : rangeLoop (w.text ++ t :: s) .initial 0 0 r =
      if w.Aborts then (false, rangeAbort r)
      else rangeLoop s .initial 0 0 (rangeAdd r w.recorded.start w.recorded.stop) := by
  rw [w.text_append, rangeLoop_first, rangeLoop_gap2_white w.behind_white, rangeLoop_last w ht]
  rfl

lemma rangeLoop_separator {b : UInt8} (hb : isRangeSeparator b = true) (s : Bytes) (r : Request) :
    rangeLoop (b :: s) .initial 0 0 r = rangeLoop s .initial 0 0 r := by
  have hchar : rangeChar b = .comma ∨ rangeChar b = .white := by
    simpa [isRangeSeparator] using hb
  rw [rangeLoop]
  rcases hchar with h | h <;> rw [h] <;> rfl

/-! ### The automaton on a list of ranges -/

/-- The request with the ranges recorded in order. -/
def recordWritten (ws : List WrittenRange) (r : Request) : Request :=
  ws.foldl (fun r w => rangeAdd r w.recorded.start w.recorded.stop) r

lemma recordWritten_ranges (ws : List WrittenRange) (r : Request) :
    (recordWritten ws r).ranges = r.ranges ++ ws.map WrittenRange.recorded := by
  induction ws generalizing r with
  | nil => simp [recordWritten]
  | cons w ws ih =>
      rw [recordWritten, List.foldl_cons, ← recordWritten, ih, rangeAdd, List.map_cons,
        List.append_assoc, List.singleton_append]

/-- The loop ends in an error, with the marker in place of all ranges. -/
def RangeRefused (res : Bool × Request) : Prop := ∃ r, res = (false, rangeAbort r)

/-- **A list of ranges** is recorded, unless one of them is taken for a missing one. -/
lemma rangeLoop_texts {s : Bytes} {ws : List WrittenRange} (h : RangeTexts s ws) (r : Request) :
    ((∀ w ∈ ws, ¬w.Aborts) →
      rangeLoop (s ++ [0]) .initial 0 0 r = (true, recordWritten ws r)) ∧
    ((∃ w ∈ ws, w.Aborts) → RangeRefused (rangeLoop (s ++ [0]) .initial 0 0 r)) := by
  induction h generalizing r with
  | nil => exact ⟨fun _ => rfl, fun h => absurd h (by simp)⟩
  | sep hb _ ih =>
      rw [List.cons_append, rangeLoop_separator hb]
      exact ih r
  | last w =>
      have hzero : rangeChar 0 = .null := by decide
      rw [rangeLoop_written w (Or.inr hzero)]
      constructor
      · intro hall
        rw [if_neg (hall w List.mem_cons_self)]
        rfl
      · rintro ⟨w', hmem, habort⟩
        rw [List.mem_singleton] at hmem
        subst hmem
        exact ⟨r, if_pos habort⟩
  | cons w ht _ ih =>
      rw [List.append_assoc, List.cons_append, rangeLoop_written w (Or.inl ht)]
      constructor
      · intro hall
        rw [if_neg (hall w List.mem_cons_self)]
        exact (ih _).1 fun w' hmem => hall w' (List.mem_cons_of_mem _ hmem)
      · rintro ⟨w', hmem, habort⟩
        split_ifs with hw
        · exact ⟨r, rfl⟩
        · refine (ih _).2 ⟨w', ?_, habort⟩
          rcases List.mem_cons.mp hmem with rfl | hmem
          · exact absurd habort hw
          · exact hmem

/-! ### Nothing else is accepted -/

/-- What the class of a byte of the header says of it. -/
lemma rangeChar_class : ∀ b : UInt8, (rangeChar b = .null → b = 0) ∧
    (rangeChar b = .hyphen → b = 45) ∧ (rangeChar b = .digit → isDigit b = true) :=
  forall_byte (by decide +kernel)

lemma rangeChar_null_iff : ∀ b : UInt8, rangeChar b = .null ↔ b = 0 := by
  intro b
  constructor
  · exact (rangeChar_class b).1
  · rintro rfl
    decide

lemma rangeChar_hyphen (b : UInt8) : rangeChar b = .hyphen → b = 45 := (rangeChar_class b).2.1

lemma isDigit_of_rangeChar (b : UInt8) : rangeChar b = .digit → isDigit b = true :=
  (rangeChar_class b).2.2

/-- A number without a hyphen behind it is refused. -/
lemma rangeLoop_noHyphen {b c : UInt8} {ds g : Bytes} (hds : All isDigit (b :: ds))
    (hg : All isRangeWhite g) (hdigit : rangeChar c = .digit → g ≠ [])
    (hwhite : rangeChar c ≠ .white) (hyphen : rangeChar c ≠ .hyphen) (s : Bytes) (r : Request) :
    RangeRefused (rangeLoop (b :: ds ++ (g ++ c :: s)) .initial 0 0 r) := by
  refine ⟨r, ?_⟩
  rw [rangeLoop_number hds hg]
  by_cases hnil : g = []
  · rw [if_pos hnil]
    cases hc : rangeChar c with
    | digit => exact absurd hnil (hdigit hc)
    | white => exact absurd hc hwhite
    | hyphen => exact absurd hc hyphen
    | comma => exact rangeLoop_abort hc rfl ..
    | null => exact rangeLoop_abort hc rfl ..
    | other => exact rangeLoop_abort hc rfl ..
  · rw [if_neg hnil]
    cases hc : rangeChar c with
    | white => exact absurd hc hwhite
    | hyphen => exact absurd hc hyphen
    | digit => exact rangeLoop_abort hc rfl ..
    | comma => exact rangeLoop_abort hc rfl ..
    | null => exact rangeLoop_abort hc rfl ..
    | other => exact rangeLoop_abort hc rfl ..

/-- A range with something else behind it is refused. -/
lemma rangeLoop_badEnd (w : WrittenRange) {c : UInt8}
    (hc : rangeChar c = .hyphen ∨ rangeChar c = .other) (s : Bytes) (r : Request) :
    RangeRefused (rangeLoop (w.text ++ c :: s) .initial 0 0 r) := by
  refine ⟨r, ?_⟩
  rw [w.text_append, rangeLoop_first, rangeLoop_gap2_white w.behind_white]
  cases hlast : w.last with
  | nil =>
      rcases hc with hc | hc
      · exact rangeLoop_abort hc rfl ..
      · exact rangeLoop_abort hc rfl ..
  | cons b ds =>
      have hds : All isDigit (b :: ds) := hlast ▸ w.last_digits
      rw [List.cons_append, rangeLoop, rangeChar_digit (hds b List.mem_cons_self)]
      refine (rangeLoop_stopnum (fun b' hb' => hds b' (List.mem_cons_of_mem _ hb')) (c :: s)
        w.recorded.start _ r).trans ?_
      rcases hc with hc | hc
      · exact rangeLoop_abort hc rfl ..
      · exact rangeLoop_abort hc rfl ..

/-- What may stand at the beginning of a value that is not refused. -/
inductive RangeFront (s : Bytes) : Prop
  | nil (h : s = [])
  | separator (b : UInt8) (t : Bytes) (h : s = b :: t) (hb : isRangeSeparator b = true)
  | range (w : WrittenRange) (h : s = w.text)
  | ended (w : WrittenRange) (t : UInt8) (rest : Bytes) (h : s = w.text ++ t :: rest)
      (ht : w.Ends t)
  | refused (h : ∀ r, RangeRefused (rangeLoop (s ++ [0]) .initial 0 0 r))

/-- What stands behind a hyphen: the number, and the end of the range or something else. -/
lemma rangeFront_of_hyphen {first before rest : Bytes} (hfirst : All isDigit first)
    (hbefore : All isRangeWhite before) (hnil : first = [] → before = []) (hz : 0 ∉ rest) :
    RangeFront (first ++ (before ++ 45 :: rest)) := by
  obtain ⟨behind, rest', rfl, hbehind, hstop⟩ := exists_span isRangeWhite rest
  obtain ⟨last, rest, rfl, hlast, hstop'⟩ := exists_span isDigit rest'
  let w : WrittenRange := ⟨first, before, behind, last, hfirst, hbefore, hbehind, hlast, hnil⟩
  have htext : first ++ (before ++ 45 :: (behind ++ (last ++ rest))) = w.text ++ rest := by
    simp only [WrittenRange.text, w, List.append_assoc, List.cons_append]
  rw [htext]
  cases rest with
  | nil => exact .range w (List.append_nil _)
  | cons c rest =>
      have hrefused (hc : rangeChar c = .hyphen ∨ rangeChar c = .other) :
          RangeFront (w.text ++ c :: rest) := by
        refine .refused fun r => ?_
        rw [List.append_assoc, List.cons_append]
        exact rangeLoop_badEnd w hc (rest ++ [0]) r
      cases hc : rangeChar c with
      | comma => exact .ended w c rest rfl (Or.inl hc)
      | hyphen => exact hrefused (Or.inl hc)
      | other => exact hrefused (Or.inr hc)
      | digit =>
          exact absurd (hstop' c rest rfl) (by simp [isDigit_of_rangeChar c hc])
      | null =>
          rw [rangeChar_null_iff] at hc
          exact absurd (by simp [hc]) hz
      | white =>
          refine .ended w c rest rfl (Or.inr ⟨fun hnone => ?_, hc⟩)
          -- white space behind the hyphen belongs to the range
          have hempty : last = [] := hnone
          rw [hempty] at hstop
          exact absurd (hstop c rest rfl) (by simp [isRangeWhite, hc])

lemma rangeFront (s : Bytes) (hz : 0 ∉ s) : RangeFront s := by
  obtain ⟨first, rest, rfl, hfirst, hstop⟩ := exists_span isDigit s
  cases first with
  | nil =>
      cases rest with
      | nil => exact .nil rfl
      | cons b rest =>
          cases hb : rangeChar b with
          | comma => exact .separator b rest rfl (by simp [isRangeSeparator, hb])
          | white => exact .separator b rest rfl (by simp [isRangeSeparator, hb])
          | digit => exact absurd (hstop b rest rfl) (by simp [isDigit_of_rangeChar b hb])
          | null =>
              rw [rangeChar_null_iff] at hb
              exact absurd (by simp [hb]) hz
          | hyphen =>
              rw [rangeChar_hyphen b hb] at hz ⊢
              exact rangeFront_of_hyphen all_nil all_nil (fun _ => rfl) fun h =>
                hz (List.mem_cons_of_mem 45 h)
          | other => exact .refused fun r => ⟨r, rangeLoop_abort hb rfl ..⟩
  | cons b ds =>
      obtain ⟨before, rest, rfl, hbefore, hstop'⟩ := exists_span isRangeWhite rest
      -- a zero ends the string
      obtain ⟨c, tail, htail, hcase⟩ : ∃ c tail, rest ++ [0] = c :: tail ∧
          (c = 0 ∧ rest = [] ∨ ∃ t, rest = c :: t) := by
        cases rest with
        | nil => exact ⟨0, [], rfl, Or.inl ⟨rfl, rfl⟩⟩
        | cons c t => exact ⟨c, t ++ [0], rfl, Or.inr ⟨t, rfl⟩⟩
      by_cases hyphen : rangeChar c = .hyphen
      · obtain rfl := rangeChar_hyphen c hyphen
        obtain ⟨hc, -⟩ | ⟨t, rfl⟩ := hcase
        · cases hc
        · exact rangeFront_of_hyphen hfirst hbefore (fun h => absurd h (List.cons_ne_nil b ds))
            fun h => hz (by simp [h])
      · refine .refused fun r => ?_
        rw [List.append_assoc, List.append_assoc, htail]
        refine rangeLoop_noHyphen hfirst hbefore (fun hdigit hnil => ?_) (fun hwhite => ?_)
          hyphen tail r
        · rcases hcase with ⟨rfl, -⟩ | ⟨t, rfl⟩
          · exact absurd hdigit (by decide)
          · rw [hnil] at hstop
            exact absurd (hstop c t rfl) (by simp [isDigit_of_rangeChar c hdigit])
        · rcases hcase with ⟨rfl, -⟩ | ⟨t, rfl⟩
          · exact absurd hwhite (by decide)
          · exact absurd (hstop' c t rfl) (by simp [isRangeWhite, hwhite])

/-- **Values that are not refused** are lists of ranges. -/
lemma exists_texts_or_refused (s : Bytes) (hz : 0 ∉ s) (r : Request) :
    (∃ ws, RangeTexts s ws) ∨ RangeRefused (rangeLoop (s ++ [0]) .initial 0 0 r) := by
  induction hlen : s.length using Nat.strong_induction_on generalizing s r with
  | _ n ih =>
      cases rangeFront s hz with
      | nil h =>
          rw [h]
          exact Or.inl ⟨[], .nil⟩
      | separator b t h hb =>
          subst h
          rw [List.cons_append, rangeLoop_separator hb]
          have hlt : t.length < n := by
            rw [← hlen]
            exact Nat.lt_succ_self _
          refine (ih _ hlt t (fun h => hz (List.mem_cons_of_mem b h)) r rfl).imp_left ?_
          rintro ⟨ws, hws⟩
          exact ⟨ws, .sep hb hws⟩
      | range w h =>
          rw [h]
          exact Or.inl ⟨[w], .last w⟩
      | ended w t rest h ht =>
          subst h
          rw [List.append_assoc, List.cons_append, rangeLoop_written w (Or.inl ht)]
          by_cases habort : w.Aborts
          · rw [if_pos habort]
            exact Or.inr ⟨r, rfl⟩
          · rw [if_neg habort]
            have hlt : rest.length < n := by
              rw [← hlen, List.length_append, List.length_cons]
              omega
            have hz' : 0 ∉ rest := fun h => hz (by simp [h])
            refine (ih _ hlt rest hz' (rangeAdd r _ _) rfl).imp_left ?_
            rintro ⟨ws, hws⟩
            exact ⟨w :: ws, .cons w ht hws⟩
      | refused h => exact Or.inr (h r)

/-! ### Reading a list in one way -/

lemma isRangeWhite_of_isDigit : ∀ b : UInt8, isDigit b = true → isRangeWhite b = false :=
  forall_byte (by decide +kernel)

lemma isDigit_of_isRangeSeparator : ∀ b : UInt8, isRangeSeparator b = true → isDigit b = false :=
  forall_byte (by decide +kernel)

/-- What may follow a range. -/
def WrittenRange.Behind (w : WrittenRange) (rest : Bytes) : Prop :=
  rest = [] ∨ ∃ t s, rest = t :: s ∧ w.Ends t

namespace WrittenRange

variable {w w' : WrittenRange} {rest rest' : Bytes}

lemma Ends.isRangeSeparator {t : UInt8} (h : w.Ends t) : isRangeSeparator t = true := by
  rcases h with h | ⟨-, h⟩ <;> simp [Yabwf.isRangeSeparator, h]

lemma Behind.stops_digit (h : w.Behind rest) : Stops isDigit rest := by
  rcases h with rfl | ⟨t, s, rfl, ht⟩
  · exact stops_nil
  · exact stops_cons (isDigit_of_isRangeSeparator t ht.isRangeSeparator)

lemma Behind.stops_white (h : w.Behind rest) : Stops isRangeWhite (w.last ++ rest) := by
  cases hlast : w.last with
  | cons b ds =>
      have hb : isDigit b = true := w.last_digits b (hlast ▸ List.mem_cons_self)
      exact stops_cons (isRangeWhite_of_isDigit b hb)
  | nil =>
      rcases h with rfl | ⟨t, s, rfl, ht | ⟨hne, -⟩⟩
      · exact stops_nil
      · exact stops_cons (by simp [isRangeWhite, ht])
      · exact absurd hlast hne

lemma stops_before (w : WrittenRange) (s : Bytes) : Stops isDigit (w.before ++ 45 :: s) := by
  cases hbefore : w.before with
  | nil => exact stops_cons (by decide)
  | cons b g =>
      have hb : isRangeWhite b = true := w.before_white b (hbefore ▸ List.mem_cons_self)
      refine stops_cons (Bool.eq_false_iff.mpr fun hdigit => ?_)
      rw [isRangeWhite_of_isDigit b hdigit] at hb
      cases hb

/-- A range is read in one way. -/
lemma text_unique (h : w.Behind rest) (h' : w'.Behind rest')
    (heq : w.text ++ rest = w'.text ++ rest') :
    w = w' ∧ rest = rest' := by
  have hyphen : ∀ s, Stops isRangeWhite (45 :: s) := fun s => stops_cons (by decide)
  simp only [text, List.append_assoc, List.cons_append] at heq
  obtain ⟨hfirst, heq⟩ := span_unique w.first_digits w'.first_digits (w.stops_before _)
    (w'.stops_before _) heq
  obtain ⟨hbefore, heq⟩ := span_unique w.before_white w'.before_white (hyphen _) (hyphen _) heq
  rw [List.cons.injEq] at heq
  obtain ⟨hbehind, heq⟩ := span_unique w.behind_white w'.behind_white h.stops_white
    h'.stops_white heq.2
  obtain ⟨hlast, heq⟩ := span_unique w.last_digits w'.last_digits h.stops_digit h'.stops_digit heq
  refine ⟨?_, heq⟩
  cases w
  cases w'
  simp only [mk.injEq]
  exact ⟨hfirst, hbefore, hbehind, hlast⟩

/-- A range does not begin with a separator. -/
lemma text_ne_separator {b : UInt8} {s : Bytes} (hb : Yabwf.isRangeSeparator b = true)
    (heq : w.text ++ rest = b :: s) : False := by
  rw [text] at heq
  cases hfirst : w.first with
  | nil =>
      rw [hfirst, w.before_nil hfirst, List.nil_append, List.nil_append, List.cons_append,
        List.cons.injEq] at heq
      rw [← heq.1] at hb
      exact absurd hb (by decide)
  | cons c ds =>
      rw [hfirst, List.cons_append, List.cons_append, List.cons.injEq] at heq
      have hc : isDigit c = true := w.first_digits c (hfirst ▸ List.mem_cons_self)
      rw [heq.1, isDigit_of_isRangeSeparator b hb] at hc
      cases hc

lemma text_ne_nil (w : WrittenRange) : w.text ≠ [] := by simp [text]

end WrittenRange

/-- A list of ranges that is not empty text begins with a separator, or with a range. -/
lemma RangeTexts.unique {s : Bytes} {ws ws' : List WrittenRange} (h : RangeTexts s ws)
    (h' : RangeTexts s ws') : ws = ws' := by
  induction h generalizing ws' with
  | nil =>
      generalize hs : ([] : Bytes) = s at h'
      cases h' with
      | nil => rfl
      | sep => cases hs
      | last w => exact absurd hs.symm w.text_ne_nil
      | cons w => simp at hs
  | @sep b s ws hb _ ih =>
      generalize hs : b :: s = s' at h'
      cases h' with
      | nil => cases hs
      | sep _ h' =>
          rw [List.cons.injEq] at hs
          exact ih (hs.2 ▸ h')
      | last w =>
          rw [← List.append_nil w.text] at hs
          exact (WrittenRange.text_ne_separator hb hs.symm).elim
      | cons w => exact (WrittenRange.text_ne_separator hb hs.symm).elim
  | last w =>
      generalize hs : w.text = s' at h'
      rw [← List.append_nil w.text] at hs
      cases h' with
      | nil => exact absurd hs (by simp [w.text_ne_nil])
      | sep hb => exact (WrittenRange.text_ne_separator hb hs).elim
      | last w' =>
          rw [← List.append_nil w'.text] at hs
          rw [(WrittenRange.text_unique (Or.inl rfl) (Or.inl rfl) hs).1]
      | @cons w' t s ws ht h' =>
          have hrest := (WrittenRange.text_unique (Or.inl rfl) (Or.inr ⟨t, s, rfl, ht⟩) hs).2
          cases hrest
  | @cons w t s ws ht _ ih =>
      generalize hs : w.text ++ t :: s = s' at h'
      cases h' with
      | nil => exact absurd hs (by simp)
      | sep hb => exact (WrittenRange.text_ne_separator hb hs).elim
      | last w' =>
          rw [← List.append_nil w'.text] at hs
          have hrest := (WrittenRange.text_unique (Or.inr ⟨t, s, rfl, ht⟩) (Or.inl rfl) hs).2
          cases hrest
      | @cons w' t' s' ws' ht' h' =>
          obtain ⟨hw, hrest⟩ := WrittenRange.text_unique (Or.inr ⟨t, s, rfl, ht⟩)
            (Or.inr ⟨t', s', rfl, ht'⟩) hs
          rw [List.cons.injEq] at hrest
          rw [hw, ih (hrest.2 ▸ h')]

/-! ### `range_parse` -/

/-- A value whose ranges all have a number. -/
def RangeValue (s : Bytes) : Prop :=
  hasPrefixCase (str "bytes=") s = true ∧
    ∃ ws, RangeTexts (s.drop 6) ws ∧ ∀ w ∈ ws, ¬w.Lone

/-- `range_parse` refuses a value without a unit and leaves the request as it is, records a list
of ranges, or leaves the marker. -/
lemma rangeParse_cases {s : Bytes} (hz : 0 ∉ s) (r : Request) :
    (hasPrefixCase (str "bytes=") s ≠ true ∧ rangeParse r s = (false, r)) ∨
    (hasPrefixCase (str "bytes=") s = true ∧
      ((∃ ws, RangeTexts (s.drop 6) ws ∧ (∀ w ∈ ws, ¬w.Aborts) ∧
          rangeParse r s = (true, recordWritten ws r)) ∨
        ((∀ ws, RangeTexts (s.drop 6) ws → ∃ w ∈ ws, w.Aborts) ∧
          RangeRefused (rangeParse r s)))) := by
  by_cases hunit : hasPrefixCase (str "bytes=") s = true
  swap
  · exact Or.inl ⟨hunit, if_neg hunit⟩
  refine Or.inr ⟨hunit, ?_⟩
  have hparse : rangeParse r s = rangeLoop (s.drop 6 ++ [0]) .initial 0 0 r := if_pos hunit
  have hz' : 0 ∉ s.drop 6 := fun h => hz (List.mem_of_mem_drop h)
  rw [hparse]
  by_cases htexts : ∃ ws, RangeTexts (s.drop 6) ws
  · obtain ⟨ws, hws⟩ := htexts
    obtain ⟨haccept, hrefuse⟩ := rangeLoop_texts hws r
    by_cases habort : ∃ w ∈ ws, w.Aborts
    · exact Or.inr ⟨fun ws' hws' => hws.unique hws' ▸ habort, hrefuse habort⟩
    · have hnone : ∀ w ∈ ws, ¬w.Aborts := fun w hw h => habort ⟨w, hw, h⟩
      exact Or.inl ⟨ws, hws, hnone, haccept hnone⟩
  · refine Or.inr ⟨fun ws hws => absurd ⟨ws, hws⟩ htexts, ?_⟩
    exact (exists_texts_or_refused (s.drop 6) hz' r).resolve_left htexts

/-- What is accepted is a list of ranges, of which each has a number, and nothing but the marker
is left of what is not. -/
def ParsesRanges (r : Request) (s : Bytes) : Prop :=
  ((rangeParse r s).1 = true → RangeValue s) ∧
    ((rangeParse r s).1 = false →
      (rangeParse r s).2.ranges = r.ranges ∨ (rangeParse r s).2.ranges = [⟨0, ulongMax⟩])

/-- No range of the value is a lone hyphen, or the value is refused for another one. -/
def NoLoneHyphen (s : Bytes) : Prop :=
  ∀ ws, hasPrefixCase (str "bytes=") s = true → RangeTexts (s.drop 6) ws →
    (∀ w ∈ ws, ¬w.Lone) ∨ ∃ w ∈ ws, w.Aborts

/-- **The grammar of ranges**: `range_parse` accepts no value but a list of ranges with a number
each, and leaves the marker alone of a value that it refuses, exactly if no range is a lone
hyphen, or one is taken for a missing one. -/
theorem range_grammar_iff (r : Request) (s : Bytes) (hz : 0 ∉ s) :
    ParsesRanges r s ↔ NoLoneHyphen s := by
  rcases rangeParse_cases hz r with ⟨hunit, heq⟩ | ⟨hunit, ⟨ws, hws, hnone, heq⟩ | ⟨hall, r', heq⟩⟩
  · rw [ParsesRanges, heq]
    exact iff_of_true ⟨nofun, fun _ => Or.inl rfl⟩ fun _ h => absurd h hunit
  · rw [ParsesRanges, heq]
    constructor
    · rintro ⟨haccept, -⟩ ws' - hws'
      obtain ⟨-, ws'', hws'', hlone⟩ := haccept rfl
      rw [hws'.unique hws'']
      exact Or.inl hlone
    · intro hcond
      refine ⟨fun _ => ⟨hunit, ws, hws, ?_⟩, nofun⟩
      refine (hcond ws hunit hws).resolve_right ?_
      rintro ⟨w, hw, habort⟩
      exact hnone w hw habort
  · rw [ParsesRanges, heq]
    exact iff_of_true ⟨nofun, fun _ => Or.inr rfl⟩ fun ws' _ hws' => Or.inr (hall ws' hws')

/-- A lone hyphen is accepted. -/
theorem range_grammar_lone : ¬ParsesRanges { fd := 4 } (str "bytes=-") := by
  let w : WrittenRange := ⟨[], [], [], [], all_nil, all_nil, all_nil, all_nil, fun _ => rfl⟩
  rintro ⟨haccept, -⟩
  obtain ⟨-, ws, hws, hlone⟩ := haccept (by decide)
  have hw : RangeTexts ((str "bytes=-").drop 6) [w] := RangeTexts.last w
  rw [hws.unique hw] at hlone
  exact hlone w List.mem_cons_self ⟨rfl, rfl⟩

/-- A list with a first number, white space and a suffix. -/
theorem range_grammar_list : ParsesRanges { fd := 4 } (str "bytes=5 -, -7") := by
  let w : WrittenRange := ⟨str "5", str " ", [], [], List.all_eq_true.mp rfl,
    List.all_eq_true.mp rfl, all_nil, all_nil, by decide⟩
  let w' : WrittenRange := ⟨[], [], [], str "7", all_nil, all_nil, all_nil,
    List.all_eq_true.mp rfl, fun _ => rfl⟩
  have hws : RangeTexts ((str "bytes=5 -, -7").drop 6) [w, w'] :=
    RangeTexts.cons w (t := 44) (Or.inl (by decide)) (.sep (by decide) (.last w'))
  refine (range_grammar_iff _ _ (by decide)).mpr fun ws _ hws' => Or.inl fun v hv => ?_
  rw [hws'.unique hws] at hv
  rcases List.mem_pair.mp hv with rfl | rfl
  · exact fun h => absurd h.1 (by decide)
  · exact fun h => absurd h.2 (by decide)

/-! ### Numbers -/

/-- The number, or one that no file is as long as. -/
def ShowsNumber (ds : Bytes) (n : ℕ) : Prop := n = digitsValue 0 ds ∨ 2 ^ 63 - 1 ≤ n

/-- The numbers of a range are recorded as they are written, and a first number is not recorded
as a missing one. -/
def WrittenRange.Shows (w : WrittenRange) (range : Range) : Prop :=
  (w.first ≠ [] → ShowsNumber w.first range.start ∧ range.start ≠ ulongMax) ∧
    (w.last ≠ [] → ShowsNumber w.last range.stop)

/-- A number below `2 ^ 64`, or one that wraps to a large number. -/
def NumberFits (ds : Bytes) : Prop :=
  digitsValue 0 ds < 2 ^ 64 ∨ 2 ^ 63 - 1 ≤ digitsValue 0 ds % 2 ^ 64

/-- The numbers fit, and the first one is not `-1` modulo `2 ^ 64`. -/
def WrittenRange.Fits (w : WrittenRange) : Prop :=
  (w.first ≠ [] → NumberFits w.first ∧ digitsValue 0 w.first % 2 ^ 64 ≠ ulongMax) ∧
    (w.last ≠ [] → NumberFits w.last)

lemma showsNumber_iff (ds : Bytes) : ShowsNumber ds (pushDigits 0 ds) ↔ NumberFits ds := by
  rw [pushDigits_eq (by decide), ShowsNumber, NumberFits]
  refine or_congr_left ⟨fun h => ?_, Nat.mod_eq_of_lt⟩
  rw [← h]
  exact Nat.mod_lt _ (by decide)

lemma WrittenRange.shows_recorded_iff (w : WrittenRange) : w.Shows w.recorded ↔ w.Fits := by
  rw [Shows, Fits, recorded]
  refine and_congr (forall_congr' fun hfirst => ?_) (forall_congr' fun hlast => ?_)
  · rw [if_neg hfirst, showsNumber_iff, pushDigits_eq (by decide)]
  · rw [if_neg hlast, showsNumber_iff]

/-- **Numbers in ranges**: of a value that is accepted, `range_parse` records the numbers as they
are written, or as numbers that are too large for any file, and no first number as a missing one,
exactly if each number is below `2 ^ 64` or wraps to a number that is as large, and no first
number wraps to `2 ^ 64 - 1`. -/
theorem range_numbers_iff (r : Request) (s : Bytes) (ws : List WrittenRange)
    (hws : RangeTexts (s.drop 6) ws) (hret : (rangeParse r s).1 = true) :
    (∃ ranges, (rangeParse r s).2.ranges = r.ranges ++ ranges ∧
        List.Forall₂ WrittenRange.Shows ws ranges) ↔ ∀ w ∈ ws, w.Fits := by
  have hunit : hasPrefixCase (str "bytes=") s = true := by
    by_contra hunit
    rw [rangeParse, if_neg hunit] at hret
    cases hret
  have hparse : rangeParse r s = rangeLoop (s.drop 6 ++ [0]) .initial 0 0 r := if_pos hunit
  obtain ⟨haccept, hrefuse⟩ := rangeLoop_texts hws r
  have hnone : ∀ w ∈ ws, ¬w.Aborts := by
    intro w hw habort
    obtain ⟨r', heq⟩ := hrefuse ⟨w, hw, habort⟩
    rw [hparse, heq] at hret
    cases hret
  have hshows : List.Forall₂ WrittenRange.Shows ws (ws.map WrittenRange.recorded) ↔
      ∀ w ∈ ws, w.Fits := by
    rw [List.forall₂_map_right_iff, List.forall₂_same]
    exact forall₂_congr fun w _ => w.shows_recorded_iff
  rw [hparse, haccept hnone, recordWritten_ranges, ← hshows]
  constructor
  · rintro ⟨ranges, heq, hall⟩
    rwa [List.append_cancel_left heq]
  · exact fun hall => ⟨_, rfl, hall⟩

/-- A first number that wraps to `0`: all of the file but five bytes in front becomes the front. -/
theorem range_numbers_wrap :
    ∃ ws, RangeTexts ((str "bytes=18446744073709551616-5").drop 6) ws ∧
      (rangeParse { fd := 4 } (str "bytes=18446744073709551616-5")).1 = true ∧
      ¬∃ ranges, (rangeParse { fd := 4 } (str "bytes=18446744073709551616-5")).2.ranges
          = ([] : List Range) ++ ranges ∧
        List.Forall₂ WrittenRange.Shows ws ranges := by
  let w : WrittenRange := ⟨str "18446744073709551616", [], [], str "5",
    List.all_eq_true.mp rfl, all_nil, all_nil, List.all_eq_true.mp rfl, fun _ => rfl⟩
  have hranges : (rangeParse { fd := 4 } (str "bytes=18446744073709551616-5")).2.ranges
      = [⟨0, 5⟩] := by decide
  refine ⟨[w], RangeTexts.last w, by decide, ?_⟩
  rintro ⟨ranges, heq, hall⟩
  rw [hranges, List.nil_append] at heq
  rw [← heq, List.forall₂_cons] at hall
  have hshows : ShowsNumber w.first 0 := (hall.1.1 (by decide)).1
  have hwritten : ¬ShowsNumber w.first 0 := by
    rw [ShowsNumber]
    decide
  exact hwritten hshows

/-- The first eleven bytes. -/
theorem range_numbers_front :
    ∃ ws, RangeTexts ((str "bytes=0-10").drop 6) ws ∧
      ∃ ranges, (rangeParse { fd := 4 } (str "bytes=0-10")).2.ranges = [] ++ ranges ∧
        List.Forall₂ WrittenRange.Shows ws ranges := by
  let w : WrittenRange := ⟨str "0", [], [], str "10", List.all_eq_true.mp rfl, all_nil, all_nil,
    List.all_eq_true.mp rfl, fun _ => rfl⟩
  have hws : RangeTexts ((str "bytes=0-10").drop 6) [w] := RangeTexts.last w
  refine ⟨[w], hws, (range_numbers_iff _ _ _ hws (by decide)).mpr fun v hv => ?_⟩
  rw [List.mem_singleton] at hv
  rw [hv]
  exact ⟨fun _ => ⟨Or.inl (by decide), by decide⟩, fun _ => Or.inl (by decide)⟩

end Yabwf
