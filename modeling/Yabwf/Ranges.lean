import Yabwf.Lengths

/-!
The ranges that a request asks for.

* `RangeSpec`: the three forms of a range in a `Range` header, with their digits as they
  are written; `resolve` says which bytes of a file they stand for.
* `rangeParse_specs`: `range_parse` records the forms in order.
* `ResolvesRanges`: `range_parse` and `ranges_fixup` leave the satisfiable ranges.
* `range_resolution_iff`: they do so exactly when no suffix is as long as the file, and no
  number is the one that `(unsigned) -1` stands for.
-/

namespace Yabwf

/-! ### The forms of a range -/

/-- The value of digits behind a number. -/
def digitsValue (n : ℕ) (ds : Bytes) : ℕ := ds.foldl (fun n b => n * 10 + (b.toNat - 48)) n

/-- A number as it is written in a header, below `2 ^ 63`. -/
structure Digits where
  text : Bytes
  ne_nil : text ≠ []
  isDigit : ∀ b ∈ text, isDigit b = true
  lt : digitsValue 0 text < 2 ^ 63

/-- The number. -/
def Digits.value (d : Digits) : ℕ := digitsValue 0 d.text

/-- `a-b`, `a-` and `-n`. -/
inductive RangeSpec
  | fromTo (a b : Digits)
  | fromOn (a : Digits)
  | suffix (n : Digits)

namespace RangeSpec

/-- The form as it is written. -/
def text : RangeSpec → Bytes
  | fromTo a b => a.text ++ 45 :: b.text
  | fromOn a => a.text ++ [45]
  | suffix n => 45 :: n.text

/-- What `range_parse` records for it. -/
def recorded : RangeSpec → Range
  | fromTo a b => ⟨a.value, b.value⟩
  | fromOn a => ⟨a.value, ulongMax⟩
  | suffix n => ⟨ulongMax, n.value⟩

/-- The bytes of a file that it stands for, if there are any. -/
def resolve (filesize : ℕ) : RangeSpec → Option Range
  | fromTo a b =>
      if a.value ≤ b.value ∧ a.value < filesize then
        some ⟨a.value, min b.value (filesize - 1)⟩
      else none
  | fromOn a => if a.value < filesize then some ⟨a.value, filesize - 1⟩ else none
  | suffix n =>
      if 1 ≤ n.value then some ⟨filesize - min n.value filesize, filesize - 1⟩ else none

/-- The list that `range_parse` takes for a missing one. -/
def Aborts (s : RangeSpec) : Prop :=
  s.recorded.start = s.recorded.stop ∧ s.recorded.start = uintMax

/-- The forms that `range_parse` and `ranges_fixup` resolve: no suffix is as long as the
file, and `4294967295` is not taken for a missing end. -/
def Resolvable (filesize : ℕ) : RangeSpec → Prop
  | fromTo a b =>
      (b.value = uintMax → a.value ≠ uintMax ∧ (uintMax + 1 < filesize → filesize ≤ a.value))
  | fromOn _ => True
  | suffix n => n.value < filesize ∧ (n.value = uintMax → filesize = uintMax + 1)

end RangeSpec

/-- A list of forms as it is written. -/
def specsText (specs : List RangeSpec) : Bytes :=
  (str ",").intercalate (specs.map RangeSpec.text)

/-! ### `range_parse` -/

/-- What `range_parse` makes of digits behind a number. -/
def pushDigits (n : ℕ) (ds : Bytes) : ℕ :=
  ds.foldl (fun n b => (n * 10 + (b.toNat - 48)) % 2 ^ 64) n

lemma pushDigits_eq {n : ℕ} (hn : n < 2 ^ 64) (ds : Bytes) :
    pushDigits n ds = digitsValue n ds % 2 ^ 64 := by
  have hmod : ∀ (ds : Bytes) (n : ℕ), digitsValue (n % 2 ^ 64) ds % 2 ^ 64
      = digitsValue n ds % 2 ^ 64 := by
    intro ds
    induction ds with
    | nil => exact fun n => Nat.mod_mod n _
    | cons b ds ih =>
        intro n
        rw [digitsValue, digitsValue, List.foldl_cons, List.foldl_cons, ← digitsValue,
          ← digitsValue, ← ih, ← ih (n * 10 + (b.toNat - 48))]
        congr 2
        omega
  induction ds generalizing n with
  | nil => exact (Nat.mod_eq_of_lt hn).symm
  | cons b ds ih =>
      rw [pushDigits, List.foldl_cons, ← pushDigits, ih (Nat.mod_lt _ (by decide)), hmod,
        digitsValue, digitsValue, List.foldl_cons]

lemma Digits.pushDigits_eq (d : Digits) : pushDigits 0 d.text = d.value := by
  have hlt := d.lt
  rw [Yabwf.pushDigits_eq (by decide), Nat.mod_eq_of_lt (by omega), Digits.value]

lemma rangeChar_digit {b : UInt8} (h : isDigit b = true) : rangeChar b = .digit := by
  rw [rangeChar, if_pos h]

/-- Digits behind the first one of the beginning. -/
lemma rangeLoop_startnum {ds : Bytes} (hds : ∀ b ∈ ds, isDigit b = true) (s : Bytes)
    (start stop : ℕ) (r : Request) :
    rangeLoop (ds ++ s) .startnum start stop r
      = rangeLoop s .startnum (pushDigits start ds) stop r := by
  induction ds generalizing start with
  | nil => rfl
  | cons b ds ih =>
      rw [List.cons_append, rangeLoop, rangeChar_digit (hds b List.mem_cons_self)]
      exact ih (fun b' hb' => hds b' (List.mem_cons_of_mem _ hb')) _

/-- Digits behind the first one of the end. -/
lemma rangeLoop_stopnum {ds : Bytes} (hds : ∀ b ∈ ds, isDigit b = true) (s : Bytes)
    (start stop : ℕ) (r : Request) :
    rangeLoop (ds ++ s) .stopnum start stop r
      = rangeLoop s .stopnum start (pushDigits stop ds) r := by
  induction ds generalizing stop with
  | nil => rfl
  | cons b ds ih =>
      rw [List.cons_append, rangeLoop, rangeChar_digit (hds b List.mem_cons_self)]
      exact ih (fun b' hb' => hds b' (List.mem_cons_of_mem _ hb')) _

/-- A number at the beginning of a form. -/
lemma rangeLoop_initial (d : Digits) (s : Bytes) (r : Request) :
    rangeLoop (d.text ++ s) .initial 0 0 r = rangeLoop s .startnum d.value 0 r := by
  rw [← d.pushDigits_eq]
  have hne := d.ne_nil
  have hds := d.isDigit
  cases htext : d.text with
  | nil => exact absurd htext hne
  | cons b ds =>
      rw [htext] at hds
      rw [List.cons_append, rangeLoop, rangeChar_digit (hds b List.mem_cons_self)]
      exact rangeLoop_startnum (fun b' hb' => hds b' (List.mem_cons_of_mem _ hb')) s _ 0 r

/-- A number behind the hyphen. -/
lemma rangeLoop_gap2 (d : Digits) (s : Bytes) (start : ℕ) (r : Request) :
    rangeLoop (d.text ++ s) .gap2 start 0 r = rangeLoop s .stopnum start d.value r := by
  rw [← d.pushDigits_eq]
  have hne := d.ne_nil
  have hds := d.isDigit
  cases htext : d.text with
  | nil => exact absurd htext hne
  | cons b ds =>
      rw [htext] at hds
      rw [List.cons_append, rangeLoop, rangeChar_digit (hds b List.mem_cons_self)]
      exact rangeLoop_stopnum (fun b' hb' => hds b' (List.mem_cons_of_mem _ hb')) s start _ r

/-- `range_parse` on one form and the comma or the zero behind it. -/
lemma rangeLoop_spec (spec : RangeSpec) {t : UInt8} (ht : t = 44 ∨ t = 0) (s : Bytes)
    (r : Request) : rangeLoop (spec.text ++ t :: s) .initial 0 0 r =
      if spec.recorded.start = spec.recorded.stop ∧ spec.recorded.start = uintMax then
        (false, rangeAbort r)
      else rangeLoop s .initial 0 0 (rangeAdd r spec.recorded.start spec.recorded.stop) := by
  have hchar : rangeChar t = .comma ∨ rangeChar t = .null := by
    rcases ht with rfl | rfl
    · exact Or.inl (by decide)
    · exact Or.inr (by decide)
  have hyphen : rangeChar 45 = .hyphen := by decide
  cases spec with
  | fromTo a b =>
      rw [RangeSpec.text, List.append_assoc, rangeLoop_initial, List.cons_append, rangeLoop,
        hyphen]
      refine (rangeLoop_gap2 b (t :: s) a.value r).trans ?_
      rw [rangeLoop]
      rcases hchar with h | h
      · rw [h]
        rfl
      · rw [h]
        rfl
  | fromOn a =>
      rw [RangeSpec.text, List.append_assoc, rangeLoop_initial, List.singleton_append, rangeLoop,
        hyphen]
      refine Eq.trans (b := rangeLoop (t :: s) .gap2 a.value 0 r) rfl ?_
      rw [rangeLoop]
      rcases hchar with h | h
      · rw [h]
        rfl
      · rw [h]
        rfl
  | suffix n =>
      rw [RangeSpec.text, List.cons_append, rangeLoop, hyphen]
      refine (rangeLoop_gap2 n (t :: s) ulongMax r).trans ?_
      rw [rangeLoop]
      rcases hchar with h | h
      · rw [h]
        rfl
      · rw [h]
        rfl

/-- The request with the forms recorded in order. -/
def recordAll (specs : List RangeSpec) (r : Request) : Request :=
  specs.foldl (fun r spec => rangeAdd r spec.recorded.start spec.recorded.stop) r

lemma recordAll_ranges (specs : List RangeSpec) (r : Request) :
    (recordAll specs r).ranges = r.ranges ++ specs.map RangeSpec.recorded := by
  induction specs generalizing r with
  | nil => simp [recordAll]
  | cons spec specs ih =>
      rw [recordAll, List.foldl_cons, ← recordAll, ih, rangeAdd, List.map_cons,
        List.append_assoc, List.singleton_append]

/-- The loop on a list of forms: it records them all, or finds one that it refuses. -/
lemma rangeLoop_specs (specs : List RangeSpec) (r : Request) :
    ((∀ spec ∈ specs, ¬spec.Aborts) →
      rangeLoop (specsText specs ++ [0]) .initial 0 0 r = (true, recordAll specs r)) ∧
    ((∃ spec ∈ specs, spec.Aborts) →
      (rangeLoop (specsText specs ++ [0]) .initial 0 0 r).1 = false) := by
  induction specs generalizing r with
  | nil => exact ⟨fun _ => rfl, fun h => absurd h (by simp)⟩
  | cons spec specs ih =>
      obtain ⟨rest, hrest, hnext⟩ : ∃ rest, specsText (spec :: specs) ++ [0] = spec.text ++ rest ∧
          ∃ t s, (t = 44 ∨ t = 0) ∧ rest = t :: s ∧
            ∀ r, rangeLoop s .initial 0 0 r
              = rangeLoop (specsText specs ++ [0]) .initial 0 0 r := by
        cases specs with
        | nil => exact ⟨[0], by simp [specsText], 0, [], Or.inr rfl, rfl, fun _ => rfl⟩
        | cons spec' specs =>
            refine ⟨44 :: (specsText (spec' :: specs) ++ [0]), ?_, 44, _, Or.inl rfl, rfl,
              fun _ => rfl⟩
            simp only [specsText, List.map_cons, List.intercalate_cons_cons, List.append_assoc]
            rfl
      obtain ⟨t, s, ht, rfl, hs⟩ := hnext
      rw [hrest, rangeLoop_spec spec ht]
      constructor
      · intro h
        have hspec : ¬(spec.recorded.start = spec.recorded.stop ∧
            spec.recorded.start = uintMax) := h spec List.mem_cons_self
        rw [if_neg hspec, hs]
        exact (ih _).1 fun spec' hmem => h spec' (List.mem_cons_of_mem _ hmem)
      · rintro ⟨spec', hmem, habort⟩
        split_ifs with hspec
        · rfl
        · rw [hs]
          refine (ih _).2 ⟨spec', ?_, habort⟩
          rcases List.mem_cons.mp hmem with rfl | hmem
          · exact absurd habort hspec
          · exact hmem

/-- The value of a `Range` header. -/
def rangeValue (specs : List RangeSpec) : Bytes := str "bytes=" ++ specsText specs

lemma rangeParse_specs (specs : List RangeSpec) (r : Request) :
    ((∀ spec ∈ specs, ¬spec.Aborts) →
      rangeParse r (rangeValue specs) = (true, recordAll specs r)) ∧
    ((∃ spec ∈ specs, spec.Aborts) → (rangeParse r (rangeValue specs)).1 = false) := by
  have hpref : hasPrefixCase (str "bytes=") (rangeValue specs) = true := by
    rw [hasPrefixCase, rangeValue, List.map_append, List.isPrefixOf_iff_prefix]
    exact List.prefix_append _ _
  have hdrop : (rangeValue specs).drop 6 = specsText specs := rfl
  rw [rangeParse, if_pos hpref, hdrop]
  exact rangeLoop_specs specs r

/-! ### `ranges_fixup` -/

/-- Lists of choices agree exactly when the choices do, if one chooses whenever the other
one does. -/
lemma filterMap_eq_iff {α β : Type*} {f g : α → Option β} {l : List α}
    (h : ∀ a ∈ l, (g a).isSome → (f a).isSome) :
    l.filterMap f = l.filterMap g ↔ ∀ a ∈ l, f a = g a := by
  have hlen : ∀ l : List α, (∀ a ∈ l, (g a).isSome → (f a).isSome) →
      (l.filterMap g).length ≤ (l.filterMap f).length := by
    intro l hl
    induction l with
    | nil => exact le_rfl
    | cons a l ih =>
        have ihl := ih fun b hb => hl b (List.mem_cons_of_mem _ hb)
        have ha := hl a List.mem_cons_self
        cases hg : g a with
        | none =>
            rw [List.filterMap_cons_none hg]
            cases hf : f a with
            | none => rwa [List.filterMap_cons_none hf]
            | some y =>
                rw [List.filterMap_cons_some hf, List.length_cons]
                omega
        | some x =>
            rw [hg] at ha
            obtain ⟨y, hf⟩ := Option.isSome_iff_exists.mp (ha rfl)
            rw [List.filterMap_cons_some hg, List.filterMap_cons_some hf, List.length_cons,
              List.length_cons]
            omega
  induction l with
  | nil => simp
  | cons a l ih =>
      have hl : ∀ b ∈ l, (g b).isSome → (f b).isSome :=
        fun b hb => h b (List.mem_cons_of_mem _ hb)
      have ha := h a List.mem_cons_self
      have ihl : l.filterMap f = l.filterMap g ↔ ∀ b ∈ l, f b = g b := ih hl
      rw [List.forall_mem_cons]
      cases hf : f a with
      | none =>
          cases hg : g a with
          | none =>
              rw [List.filterMap_cons_none hf, List.filterMap_cons_none hg, ihl]
              simp
          | some x =>
              rw [hf, hg] at ha
              exact absurd (ha rfl) (by simp)
      | some y =>
          rw [List.filterMap_cons_some hf]
          cases hg : g a with
          | none =>
              have hle := hlen l hl
              rw [List.filterMap_cons_none hg]
              refine ⟨fun heq => ?_, fun hfalse => by cases hfalse.1⟩
              rw [← heq, List.length_cons] at hle
              omega
          | some x =>
              rw [List.filterMap_cons_some hg, List.cons.injEq, ihl, Option.some.injEq]

lemma value_lt (d : Digits) : d.value < 2 ^ 63 := d.lt

/-- The end of a range, cut to the file. -/
def clampStop (filesize stop : ℕ) : ℕ :=
  if stop = uintMax ∨ filesize ≤ stop then filesize - 1 else stop

lemma rangeFixup_mk (filesize start stop : ℕ) : rangeFixup filesize ⟨start, stop⟩ =
    if 2 ^ 63 ≤ (if start = ulongMax then filesize - clampStop filesize stop else start) ∨
        (if start = ulongMax then filesize - 1 else clampStop filesize stop)
          < (if start = ulongMax then filesize - clampStop filesize stop else start) then none
    else some ⟨if start = ulongMax then filesize - clampStop filesize stop else start,
      if start = ulongMax then filesize - 1 else clampStop filesize stop⟩ :=
  rfl

section Fixup

variable {filesize : ℕ} (hpos : 1 ≤ filesize) (hsize : filesize < 2 ^ 63)

include hpos

lemma clampStop_eq (stop : ℕ) : clampStop filesize stop
    = if stop = uintMax then filesize - 1 else min stop (filesize - 1) := by
  rw [clampStop]
  split_ifs <;> omega

/-- What `ranges_fixup` makes of `a-b`. -/
lemma rangeFixup_fromTo (a b : Digits) :
    rangeFixup filesize (RangeSpec.fromTo a b).recorded =
      if a.value ≤ (if b.value = uintMax then filesize - 1 else min b.value (filesize - 1)) then
        some ⟨a.value, if b.value = uintMax then filesize - 1 else min b.value (filesize - 1)⟩
      else none := by
  have ha := value_lt a
  have hstart : ¬a.value = ulongMax := by
    rw [ulongMax]
    omega
  rw [RangeSpec.recorded, rangeFixup_mk, ← clampStop_eq hpos]
  simp only [if_neg hstart]
  by_cases hle : a.value ≤ clampStop filesize b.value
  · rw [if_pos hle, if_neg]
    omega
  · rw [if_neg hle, if_pos]
    omega

include hsize

/-- What `ranges_fixup` makes of `a-`. -/
lemma rangeFixup_fromOn (a : Digits) :
    rangeFixup filesize (RangeSpec.fromOn a).recorded = (RangeSpec.fromOn a).resolve filesize := by
  have ha := value_lt a
  have hstart : ¬a.value = ulongMax := by
    rw [ulongMax]
    omega
  have hstop : clampStop filesize ulongMax = filesize - 1 := by
    rw [clampStop, ulongMax, if_pos]
    omega
  rw [RangeSpec.recorded, rangeFixup_mk, hstop, RangeSpec.resolve]
  simp only [if_neg hstart]
  by_cases hlt : a.value < filesize
  · rw [if_pos hlt, if_neg]
    omega
  · rw [if_neg hlt, if_pos]
    omega

/-- What `ranges_fixup` makes of `-n`. -/
lemma rangeFixup_suffix (n : Digits) :
    rangeFixup filesize (RangeSpec.suffix n).recorded =
      if 1 ≤ (if n.value = uintMax then filesize - 1 else min n.value (filesize - 1)) then
        some ⟨filesize - (if n.value = uintMax then filesize - 1
          else min n.value (filesize - 1)), filesize - 1⟩
      else none := by
  have hle : clampStop filesize n.value ≤ filesize - 1 := by
    rw [clampStop_eq hpos]
    split_ifs <;> omega
  rw [RangeSpec.recorded, rangeFixup_mk, ← clampStop_eq hpos]
  simp only [if_true]
  by_cases hone : 1 ≤ clampStop filesize n.value
  · rw [if_pos hone, if_neg]
    omega
  · rw [if_neg hone, if_pos]
    omega

/-- `ranges_fixup` resolves a form exactly when it is one of the resolvable ones. -/
lemma rangeFixup_eq_resolve_iff {spec : RangeSpec} (habort : ¬spec.Aborts) :
    rangeFixup filesize spec.recorded = spec.resolve filesize ↔ spec.Resolvable filesize := by
  cases spec with
  | fromTo a b =>
      have hb := value_lt b
      rw [rangeFixup_fromTo hpos, RangeSpec.resolve, RangeSpec.Resolvable]
      have hne : b.value = uintMax → a.value ≠ uintMax := by
        intro hb ha
        exact habort ⟨ha.trans hb.symm, ha⟩
      by_cases hmax : b.value = uintMax
      · have hne' := hne hmax
        rw [if_pos hmax, hmax]
        have hres : (uintMax = uintMax → a.value ≠ uintMax ∧
            (uintMax + 1 < filesize → filesize ≤ a.value)) ↔
            (uintMax + 1 < filesize → filesize ≤ a.value) :=
          ⟨fun h => (h rfl).2, fun h _ => ⟨hne', h⟩⟩
        rw [hres]
        by_cases hle : a.value ≤ filesize - 1
        · rw [if_pos hle]
          by_cases hsat : a.value ≤ uintMax ∧ a.value < filesize
          · rw [if_pos hsat, Option.some.injEq, Range.mk.injEq]
            omega
          · rw [if_neg hsat]
            refine ⟨fun h => absurd h (by simp), fun h => ?_⟩
            omega
        · rw [if_neg hle, if_neg (by omega)]
          exact ⟨fun _ _ => by omega, fun _ => rfl⟩
      · rw [if_neg hmax]
        simp only [hmax, false_implies, iff_true]
        split_ifs
        · rfl
        · omega
        · omega
        · rfl
  | fromOn a => simp [rangeFixup_fromOn hpos hsize, RangeSpec.Resolvable]
  | suffix n =>
      have hn := value_lt n
      rw [rangeFixup_suffix hpos hsize, RangeSpec.resolve, RangeSpec.Resolvable, uintMax]
      by_cases hmax : n.value = 2 ^ 32 - 1
      · rw [if_pos hmax, hmax]
        split_ifs <;> simp only [Option.some.injEq, Range.mk.injEq, and_true, forall_const,
          false_iff] <;> omega
      · rw [if_neg hmax]
        simp only [hmax, false_implies, and_true]
        split_ifs <;> simp only [Option.some.injEq, Range.mk.injEq, and_true, true_iff,
          false_iff] <;> omega

/-- In a file of more than a byte, `ranges_fixup` keeps every satisfiable range. -/
lemma rangeFixup_isSome (hlong : filesize ≠ 1) {spec : RangeSpec}
    (h : (spec.resolve filesize).isSome) : (rangeFixup filesize spec.recorded).isSome := by
  cases spec with
  | fromTo a b =>
      rw [rangeFixup_fromTo hpos]
      rw [RangeSpec.resolve] at h
      split_ifs at h ⊢ <;> first | rfl | omega
  | fromOn a => rwa [rangeFixup_fromOn hpos hsize]
  | suffix n =>
      rw [rangeFixup_suffix hpos hsize]
      rw [RangeSpec.resolve] at h
      split_ifs at h ⊢ <;> first | rfl | omega

/-- In a file of a single byte, every range that `ranges_fixup` keeps is satisfiable. -/
lemma resolve_isSome (hone : filesize = 1) {spec : RangeSpec}
    (h : (rangeFixup filesize spec.recorded).isSome) : (spec.resolve filesize).isSome := by
  cases spec with
  | fromTo a b =>
      rw [rangeFixup_fromTo hpos] at h
      rw [RangeSpec.resolve]
      split_ifs at h ⊢ <;> first | rfl | omega
  | fromOn a => rwa [rangeFixup_fromOn hpos hsize] at h
  | suffix n =>
      rw [rangeFixup_suffix hpos hsize] at h
      rw [RangeSpec.resolve]
      split_ifs at h ⊢ <;> first | rfl | omega

/-- The lists agree exactly when every form is resolvable. -/
lemma filterMap_fixup_eq_iff {specs : List RangeSpec} (habort : ∀ spec ∈ specs, ¬spec.Aborts) :
    (specs.map RangeSpec.recorded).filterMap (rangeFixup filesize)
        = specs.filterMap (RangeSpec.resolve filesize) ↔
      ∀ spec ∈ specs, spec.Resolvable filesize := by
  have helem : (∀ spec ∈ specs, rangeFixup filesize spec.recorded = spec.resolve filesize) ↔
      ∀ spec ∈ specs, spec.Resolvable filesize :=
    forall₂_congr fun spec hmem => rangeFixup_eq_resolve_iff hpos hsize (habort spec hmem)
  rw [List.filterMap_map, ← helem]
  by_cases hone : filesize = 1
  · have hiff := filterMap_eq_iff (f := RangeSpec.resolve filesize)
      (g := rangeFixup filesize ∘ RangeSpec.recorded) (l := specs)
      fun spec _ h => resolve_isSome hpos hsize hone h
    rw [eq_comm, hiff]
    exact forall₂_congr fun spec _ => eq_comm
  · exact filterMap_eq_iff fun spec _ h => rangeFixup_isSome hpos hsize hone h

end Fixup

/-! ### Both functions together -/

lemma reqWrite_ranges (msg : Bytes) (c : Conn) : (reqWrite msg c).req.ranges = c.req.ranges := by
  rw [reqWrite]
  split_ifs <;> rfl

lemma flushDone_ranges (c : Conn) : (flushDone c).2.req.ranges = c.req.ranges := by
  rw [flushDone]
  dsimp only
  split_ifs <;> rfl

lemma reqFlush_ranges (c : Conn) : (reqFlush c).2.req.ranges = c.req.ranges := by
  have hpop : c.pop.2.req = c.req := by
    rw [Conn.pop]
    cases c.tape <;> rfl
  rw [reqFlush]
  dsimp only
  split_ifs
  · rfl
  · exact flushDone_ranges c
  · rcases hc : c.pop with ⟨res, d⟩
    rw [hc] at hpop
    dsimp only at hpop
    rw [← hpop]
    cases res with
    | accept n => exact flushDone_ranges _
    | again => rfl
    | intr => rfl
    | error => rfl

lemma printKaPhrase_ranges (cfg : Config) (c : Conn) :
    (printKaPhrase cfg c).req.ranges = c.req.ranges := by
  rw [printKaPhrase]
  split_ifs <;> simp only [reqWrite_ranges, Conn.note_req]

lemma statusLine_ranges (cfg : Config) (env : Env) (line : String) (c : Conn) :
    (statusLine cfg env line c).req.ranges = c.req.ranges := by
  rw [statusLine, printHttpHeaders]
  split_ifs <;> simp only [printKaPhrase_ranges, reqWrite_ranges, Conn.note_req]

/-- A page leaves the ranges as they are. -/
lemma sendRPage_ranges (cfg : Config) (env : Env) (code : ℕ) (line : String)
    {fields body : Conn → Conn} (hfields : ∀ c, (fields c).req.ranges = c.req.ranges)
    (hbody : ∀ c, (body c).req.ranges = c.req.ranges) (c : Conn) :
    (sendRPage cfg env code line fields body c).req.ranges = c.req.ranges := by
  have hfirst : (c.squashKa.setResponse code).req.ranges = c.req.ranges := rfl
  rw [sendRPage, reqFlush_ranges]
  generalize c.squashKa.setResponse code = d at hfirst ⊢
  split_ifs <;> simp only [hbody, hfields, statusLine_ranges, hfirst]

lemma sendRInvalidRange_ranges (cfg : Config) (env : Env) (c : Conn) :
    (sendRInvalidRange cfg env c).req.ranges = c.req.ranges := by
  refine sendRPage_ranges cfg env _ _ (fun c => ?_) (reqWrite_ranges _) c
  rw [reqWrite_ranges, lengthField, reqWrite_ranges, reqWrite_ranges]

/-- What `ranges_fixup` makes of the ranges that `range_parse` has recorded, once the size
of the file is known. -/
def fixedUp (cfg : Config) (env : Env) (c : Conn) (filesize : ℕ) (specs : List RangeSpec) :
    Bool × Conn :=
  rangesFixup cfg env
    { c with req := { (rangeParse c.req (rangeValue specs)).2 with filesize := filesize } }

/-- `range_parse` takes the forms, and `ranges_fixup` leaves the satisfiable ones, resolved
and in order, and fails if there are none. -/
def ResolvesRanges (cfg : Config) (env : Env) (c : Conn) (filesize : ℕ)
    (specs : List RangeSpec) : Prop :=
  (rangeParse c.req (rangeValue specs)).1 = true ∧
    (fixedUp cfg env c filesize specs).2.req.ranges
      = specs.filterMap (RangeSpec.resolve filesize) ∧
    ((fixedUp cfg env c filesize specs).1 = false ↔
      specs.filterMap (RangeSpec.resolve filesize) = [])

/-- What `ranges_fixup` leaves of ranges, whether it accepts them or not. -/
lemma rangesFixup_ranges (cfg : Config) (env : Env) {c : Conn} (hpos : c.req.filesize ≠ 0) :
    (rangesFixup cfg env c).2.req.ranges = c.req.ranges.filterMap (rangeFixup c.req.filesize) ∧
      ((rangesFixup cfg env c).1 = false ↔
        c.req.ranges.filterMap (rangeFixup c.req.filesize) = []) := by
  unfold rangesFixup
  extract_lets ranges d
  have hranges : ranges = c.req.ranges.filterMap (rangeFixup c.req.filesize) := if_neg hpos
  rw [← hranges]
  by_cases hempty : ranges = []
  · rw [if_pos hempty]
    exact ⟨sendRInvalidRange_ranges cfg env d, iff_of_true rfl hempty⟩
  · rw [if_neg hempty]
    exact ⟨rfl, iff_of_false (by simp) hempty⟩

lemma not_resolvable_of_aborts {filesize : ℕ} {spec : RangeSpec} (h : spec.Aborts) :
    ¬spec.Resolvable filesize := by
  have hne : ulongMax ≠ uintMax := by decide
  obtain ⟨heq, hmax⟩ := h
  cases spec with
  | fromTo a b =>
      simp only [RangeSpec.recorded] at heq hmax
      exact fun hres => (hres (heq ▸ hmax)).1 hmax
  | fromOn a =>
      simp only [RangeSpec.recorded] at heq hmax
      exact absurd (heq.symm.trans hmax) hne
  | suffix n => exact absurd hmax hne

/-- **Range resolution**: a `Range` header is resolved exactly when no suffix is as long as
the file or longer, and no number is the one that the code takes for a missing end. The
size of a file is an `off_t`, and so below `2 ^ 63`. -/
theorem range_resolution_iff (cfg : Config) (env : Env) (c : Conn) (filesize : ℕ)
    (specs : List RangeSpec) (hpos : 1 ≤ filesize) (hsize : filesize < 2 ^ 63)
    (hempty : c.req.ranges = []) :
    ResolvesRanges cfg env c filesize specs ↔
      ∀ spec ∈ specs, spec.Resolvable filesize := by
  obtain ⟨hparse, hrefuse⟩ := rangeParse_specs specs c.req
  by_cases habort : ∃ spec ∈ specs, spec.Aborts
  · refine iff_of_false (fun h => ?_) fun h => ?_
    · rw [ResolvesRanges, hrefuse habort] at h
      exact absurd h.1 Bool.false_ne_true
    · obtain ⟨spec, hmem, hspec⟩ := habort
      exact not_resolvable_of_aborts hspec (h spec hmem)
  · have hnot : ∀ spec ∈ specs, ¬spec.Aborts :=
      fun spec hmem hspec => habort ⟨spec, hmem, hspec⟩
    have hrec : (recordAll specs c.req).ranges = specs.map RangeSpec.recorded := by
      rw [recordAll_ranges, hempty, List.nil_append]
    have hlists := filterMap_fixup_eq_iff hpos hsize hnot
    rw [ResolvesRanges, fixedUp, hparse hnot]
    obtain ⟨hleft, hret⟩ := rangesFixup_ranges cfg env (c := { c with
      req := { recordAll specs c.req with filesize := filesize } })
      (show filesize ≠ 0 by omega)
    dsimp only at hleft hret ⊢
    rw [hleft, hret, hrec, ← hlists]
    exact ⟨fun h => h.2.1, fun h => ⟨rfl, h, by rw [h]⟩⟩

/-! ### A file of ten bytes -/

/-- The number ten. -/
def tenDigits : Digits := ⟨str "10", by decide, List.all_eq_true.mp rfl, by decide⟩

/-- The number three. -/
def threeDigits : Digits := ⟨str "3", by decide, List.all_eq_true.mp rfl, by decide⟩

/-- The last ten bytes of ten are taken for the last nine. -/
theorem range_resolution_fails :
    ¬ResolvesRanges {} {} { req := { fd := 4 } } 10 [.suffix tenDigits] := by
  intro h
  exact absurd h.2.1 (by decide)

/-- The conditions are met by the last three bytes of ten and by all from the fourth on. -/
theorem range_resolution_of_suffix :
    ResolvesRanges {} {} { req := { fd := 4 } } 10 [.suffix threeDigits, .fromOn threeDigits] := by
  refine (range_resolution_iff {} {} _ 10 _ (by decide) (by decide) rfl).mpr fun spec hmem => ?_
  rcases List.mem_pair.mp hmem with rfl | rfl
  · exact ⟨by decide, fun h => absurd h (by decide)⟩
  · trivial

end Yabwf
